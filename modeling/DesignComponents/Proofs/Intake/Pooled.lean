import DesignComponents.Proofs.Intake.Read
import DesignComponents.Proofs.Worker.Law
import DesignComponents.Worker.Handlers

/-! Reading a document through workers that others use too. Whatever the others do and in whatever
order the answers come, a reading none of whose waits runs out of time ends as a reading without
workers does. -/

set_option autoImplicit false

namespace DesignComponents

/-- Whether the question is answered by those who listen, or by nobody. -/
def Ask.isOwn : Ask → Bool
  | .takeTask | .rename _ | .transform _ => false
  | _ => true

namespace Intake

open Script Worker

/-- What surrounds a reading: the moves that the workers and all who wait for them have made, the
latest first, what readings share, and who listens. -/
structure Scene where
  past : List (Move Json)
  services : Services := {}
  listener : Listener := {}

/-- What a run may end with among `workers` when its chunks go to them. A chunk is submitted and
waited for, and its answer comes before the time is up. At all other times others may make moves. -/
inductive Ends (workers : Int) (limit : Number) :
    {α : Type} → Run α → Scene → Except Trouble α → Scene → Prop where
  | done {α : Type} (a : α) (st : Scene) : Ends workers limit (.done a) st (.ok a) st
  | fail {α : Type} (t : Trouble) (st : Scene) :
    Ends workers limit (.fail t : Run α) st (.error t) st
  | ask {α : Type} {q : Ask} {next : q.Answer → Run α} {st st' : Scene} {a : q.Answer}
      {services : Services} {listener : Listener} {outcome : Except Trouble α}
      (own : q.isOwn = true) (answered : answer q (st.services, st.listener) = (a, services, listener))
      (further : Ends workers limit (next a) { st with services, listener } outcome st') :
    Ends workers limit (.ask q next) st outcome st'
  | bind {α β : Type} {x : Run α} {f : α → Run β} {st mid st' : Scene} {result : Except Trouble α}
      {outcome : Except Trouble β} (first : Ends workers limit x st result mid)
      (second : Ends workers limit ((Script.lift result).bind f) mid outcome st') :
    Ends workers limit (x.bind f) st outcome st'
  | onFail {α : Type} {x : Run α} {last : Trouble → Run Unit} {st mid st' : Scene}
      {result outcome : Except Trouble α} (first : Ends workers limit x st result mid)
      (second : Ends workers limit (Script.onFail last (Script.lift result)) mid outcome st') :
    Ends workers limit (Script.onFail last x) st outcome st'
  | others {α : Type} {x : Run α} {st st' : Scene} {outcome : Except Trouble α}
      (moves : List (Move Json))
      (possible : (Traffic.after usualHandlers workers (moves ++ st.past)).isSome)
      (further : Ends workers limit x { st with past := moves ++ st.past } outcome st') :
    Ends workers limit x st outcome st'
  | chunk {text : List Char} {st : Scene} {t : Traffic Json Reply} {w : Wait Json}
      {result : Except Trouble (List Char)} (moves : List (Move Json))
      (reached : Traffic.after usualHandlers workers (moves ++
        .submit Job.transform.name (.str (String.ofList text)) limit :: st.past) = some t)
      (own : w.request.task = submitted st.past + 1)
      (inTime : .expire w.request.task ∉ moves)
      (answered : (w, result.map Reply.text) ∈ t.ended) :
    Ends workers limit (processChunk (.workers limit) text) st result { st with
      past := moves ++ .submit Job.transform.name (.str (String.ofList text)) limit :: st.past }

/-! ### What a chunk becomes -/

theorem after_append {handlers : Handlers Json Reply} {workers : Int} {past : List (Move Json)}
    {t : Traffic Json Reply} (moves : List (Move Json))
    (reached : Traffic.after handlers workers (moves ++ past) = some t) :
    ∃ before, Traffic.after handlers workers past = some before := by
  induction moves generalizing t with
  | nil => exact ⟨t, reached⟩
  | cons move moves ih =>
    obtain ⟨before, reached, -⟩ := Option.bind_eq_some_iff.1 reached
    exact ih reached

/-- Alone with the workers, a chunk is answered. -/
theorem serve_chunk {workers : Int} {limit : Number} {st : Scene} {t : Traffic Json Reply}
    (reached : Traffic.after usualHandlers workers st.past = some t) (rest : t.AtRest)
    (text : List Char) : ∃ past served,
      Ends workers limit (processChunk (.workers limit) text) st (.ok (transformed text))
        { st with past } ∧
      Traffic.after usualHandlers workers past = some served ∧ served.AtRest := by
  have named : Job.named? Job.transform.name = some .transform := by decide
  obtain ⟨served, reached', rest', w, own, answered⟩ :=
    Traffic.after_serving reached rest named (.str (String.ofList text)) limit
  refine ⟨_, served, ?_, reached', rest'⟩
  have becomes : (outcomeOf .transform (answerTo usualHandlers w.request)).mapError Trouble.failure =
      (.ok (transformed text) : Except Trouble (List Char)).map Reply.text := by
    rw [own]
    simp only [outcomeOf, answerTo, Pool.handle, usualHandlers, usualHandler, handle,
      String.toList_ofList, transformed]
    rfl
  rw [becomes] at answered
  exact .chunk [.resume _, .dispatch, .finish _, .take] reached' (own ▸ rfl) (by simp) answered

/-! ### With workers and without -/

/-- The same run, but for who transforms its chunks. -/
inductive Beside (limit : Number) : {α : Type} → Run α → Run α → Prop where
  | done {α : Type} (a : α) : Beside limit (.done a) (.done a)
  | fail {α : Type} (t : Trouble) : Beside limit (.fail t : Run α) (.fail t)
  | ask {α : Type} {q : Ask} {f g : q.Answer → Run α} (own : q.isOwn = true)
      (further : ∀ a, Beside limit (f a) (g a)) : Beside limit (.ask q f) (.ask q g)
  | bind {α β : Type} {x y : Run α} {f g : α → Run β} (first : Beside limit x y)
      (second : ∀ a, Beside limit (f a) (g a)) : Beside limit (x >>= f) (y >>= g)
  | onFail {α : Type} {x y : Run α} {last : Trouble → Run Unit} (first : Beside limit x y)
      (after : ∀ t, Beside limit (last t) (last t)) :
      Beside limit (onFail last x) (onFail last y)
  | chunk (text : List Char) :
      Beside limit (processChunk (.workers limit) text) (processChunk .direct text)

namespace Beside

section

variable {α : Type} {limit : Number}

theorem put {q : Ask} (own : q.isOwn = true) : Beside limit (Run.put q) (Run.put q) :=
  ask own done

theorem lift (r : Except Trouble α) : Beside limit (Script.lift r) (Script.lift r) := by
  cases r with
  | ok a => exact done a
  | error t => exact fail t

theorem liftFault (r : Except Fault α) : Beside limit (Run.liftFault r) (Run.liftFault r) :=
  lift _

theorem report (percent : Number) (label : String) :
    Beside limit (Run.report percent label) (Run.report percent label) := put rfl

theorem check : Beside limit Run.check Run.check := by
  refine ask rfl fun cancelled => ?_
  split
  · exact fail _
  · exact done ()

theorem chunks (total done : Nat) (processed chunks : List (List Char)) :
    Beside limit (processChunks (.workers limit) Run.report total done processed chunks)
      (processChunks .direct Run.report total done processed chunks) := by
  induction chunks generalizing done processed with
  | nil => exact check.bind fun _ => .done _
  | cons text rest ih =>
    refine check.bind fun _ => ?_
    refine (chunk text).bind fun out => ?_
    refine (put rfl).bind fun _ => ?_
    exact (report _ _).bind fun _ => ih (done + 1) (out :: processed)

theorem process (s : Settings) (c : Checked) :
    Beside limit (process s (.workers limit) Run.report c) (process s .direct Run.report c) := by
  unfold Intake.process
  split
  · refine (put rfl).bind fun _ => ?_
    refine (report _ _).bind fun _ => ?_
    exact (chunk c.cleaned).bind fun _ => done _
  · refine (put rfl).bind fun _ => ?_
    refine (report _ _).bind fun _ => ?_
    refine (liftFault _).bind fun texts => ?_
    exact (chunks _ 0 [] texts).bind fun _ => done _

theorem ofMarkup (s : Settings) (document : Json) :
    Beside limit (ofMarkup s (.workers limit) Run.report document)
      (ofMarkup s .direct Run.report document) := by
  refine (lift _).bind fun c => ?_
  refine (report _ _).bind fun _ => ?_
  refine (report _ _).bind fun _ => ?_
  refine check.bind fun _ => ?_
  refine (process s c).bind fun _ => ?_
  refine (report _ _).bind fun _ => ?_
  refine (report _ _).bind fun _ => ?_
  exact (liftFault _).bind fun _ => done _

theorem ofFigma (s : Settings) (document : Json) :
    Beside limit (ofFigma s Run.report document) (ofFigma s Run.report document) := by
  refine (lift _).bind fun _ => ?_
  refine (report _ _).bind fun _ => ?_
  refine (lift _).bind fun file => ?_
  refine (report _ _).bind fun _ => ?_
  refine check.bind fun _ => ?_
  refine (put rfl).bind fun _ => ?_
  refine (report _ _).bind fun _ => ?_
  refine (liftFault _).bind fun tree => ?_
  refine (put rfl).bind fun _ => ?_
  refine check.bind fun _ => ?_
  refine (report _ _).bind fun _ => ?_
  refine (liftFault _).bind fun markup => ?_
  exact (report _ _).bind fun _ => done _

theorem read (s : Settings) (document : Json) :
    Beside limit (read s (.workers limit) Run.report document)
      (read s .direct Run.report document) := by
  refine (put rfl).bind fun _ => ?_
  refine bind (onFail ?_ fun t => put rfl) fun content => ?_
  · split
    · exact ofFigma s _
    · exact ofMarkup s document
  · refine (put rfl).bind fun _ => ?_
    exact (report _ _).bind fun _ => done content

end

end Beside

section

variable {α β : Type} {workers : Int} {limit : Number} {x : Run α} {f : α → Run β}
  {listener mid heard : Listener} {outcome : Except Trouble α}

/-- What a run on its own ends with, and what was heard then, whatever is remembered of names. -/
def EndsAs (x : Run α) (listener : Listener) (outcome : Except Trouble α) (heard : Listener) :
    Prop :=
  ∀ services : Services, services.names.Valid → ∃ after : Services,
    x.exec answer (services, listener) = (outcome, after, heard) ∧ after.names.Valid

theorem EndsAs.bind {outcome' : Except Trouble β} (first : EndsAs x listener outcome mid)
    (second : EndsAs ((Script.lift outcome).bind f) mid outcome' heard) :
    EndsAs (x.bind f) listener outcome' heard := by
  intro services valid
  obtain ⟨between, ends, valid⟩ := first services valid
  obtain ⟨after, ends', kept⟩ := second between valid
  refine ⟨after, ?_, kept⟩
  rw [exec_bind, ends, ← ends']
  cases outcome <;> rfl

theorem EndsAs.onFail {last : Trouble → Run Unit} {outcome' : Except Trouble α}
    (first : EndsAs x listener outcome mid)
    (second : EndsAs (Script.onFail last (Script.lift outcome)) mid outcome' heard) :
    EndsAs (Script.onFail last x) listener outcome' heard := by
  intro services valid
  obtain ⟨between, ends, valid⟩ := first services valid
  obtain ⟨after, ends', kept⟩ := second between valid
  refine ⟨after, ?_, kept⟩
  rw [exec_onFail, ends, ← ends']
  cases outcome <;> rfl

/-- Alone with the workers, a run gets to its end. -/
theorem Beside.ends {x y : Run α} (beside : Beside limit x y) {st : Scene}
    {t : Traffic Json Reply} (reached : Traffic.after usualHandlers workers st.past = some t)
    (rest : t.AtRest) : ∃ outcome st' served, Ends workers limit x st outcome st' ∧
      Traffic.after usualHandlers workers st'.past = some served ∧ served.AtRest := by
  induction beside generalizing st t with
  | done a => exact ⟨.ok a, st, t, .done a st, reached, rest⟩
  | fail trouble => exact ⟨.error trouble, st, t, .fail trouble st, reached, rest⟩
  | @ask α q f g own further ih =>
    cases answered : answer q (st.services, st.listener) with
    | mk a after =>
      obtain ⟨services, listener⟩ := after
      let answered_scene : Scene := { st with services, listener }
      have served_before : Traffic.after usualHandlers workers answered_scene.past = some t := reached
      obtain ⟨outcome, st', served, ends, idle⟩ := ih a served_before rest
      exact ⟨outcome, st', served, .ask own answered ends, idle⟩
  | bind first second ih ih' =>
    obtain ⟨result, mid, between, ends, reached, rest⟩ := ih reached rest
    cases result with
    | ok a =>
      obtain ⟨outcome, st', served, ends', idle⟩ := ih' a reached rest
      exact ⟨outcome, st', served, .bind ends ends', idle⟩
    | error trouble =>
      exact ⟨.error trouble, mid, between, .bind ends (.fail trouble mid), reached, rest⟩
  | @onFail α x y last first after ih ih' =>
    obtain ⟨result, mid, between, ends, reached, rest⟩ := ih reached rest
    cases result with
    | ok a => exact ⟨.ok a, mid, between, .onFail ends (.done a mid), reached, rest⟩
    | error trouble =>
      obtain ⟨result, st', served, ends', idle⟩ := ih' trouble reached rest
      cases result with
      | ok u =>
        have fails := Ends.bind (f := fun _ => (.fail trouble : Run α)) ends' (.fail trouble st')
        exact ⟨.error trouble, st', served, .onFail ends fails, idle⟩
      | error trouble' =>
        have fails := Ends.bind (f := fun _ => (.fail trouble : Run α)) ends' (.fail trouble' st')
        exact ⟨.error trouble', st', served, .onFail ends fails, idle⟩
  | chunk text =>
    -- Only here the workers are needed, and they are at rest.
    obtain ⟨past, served, ends, idle⟩ := serve_chunk reached rest text
    exact ⟨_, _, served, ends, idle⟩

end

/-- Of two tasks the first runs out of time while the only worker has it, and the second is
answered after it. -/
def crowded : List (Move Json) :=
  [.resume 2, .dispatch, .dispatch, .finish 2, .take, .finish 1, .expire 1, .take,
    .submit "transform" (.str "<g class=\"a\"/>") 30, .submit "parse" (.str "<g/>") 1]

end Intake

end DesignComponents
