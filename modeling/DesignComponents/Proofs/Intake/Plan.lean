import DesignComponents.Intake.Read
import DesignComponents.Proofs.Script

/-! What a reading asks is settled before it begins: a plan of questions, and of places where it may
fail. The answers only tell how much of the plan is carried out. -/

set_option autoImplicit false

namespace DesignComponents

namespace Ask

def progress? : Ask → Option Progress
  | report percent label => some ⟨percent, label⟩
  | _ => none

def markup? : Ask → Option (List Char)
  | rename markup => some markup
  | _ => none

/-- What a question changes in who listens. -/
def heardBy (l : Listener) : Ask → Listener
  | report percent label => l.hear ⟨percent, label⟩
  | _ => l

end Ask

theorem toOption_mapError {ε ε' α : Type} (f : ε → ε') (r : Except ε α) :
    (r.mapError f).toOption = r.toOption := by
  cases r <;> rfl

theorem toOption_liftFault {α : Type} (r : Except Fault α) :
    (liftFault r).toOption = r.toOption := by
  cases r <;> rfl

namespace Intake

/-- What is reported by these questions. -/
def reported (asked : List Ask) : List Progress := asked.filterMap Ask.progress?

/-- The texts whose names they have changed. -/
def renamed (asked : List Ask) : List (List Char) := asked.filterMap Ask.markup?

/-! ### Plans -/

/-- A question, or a place where a run may fail. -/
inductive Step where
  | ask (q : Ask)
  | risk

abbrev Plan := List Step

def Step.question? : Step → Option Ask
  | ask q => some q
  | risk => none

namespace Plan

def questions (plan : Plan) : List Ask := plan.filterMap Step.question?

/-- What is planned may depend on what is found, where it is found without asking. -/
def upon {α : Type} (found : Option α) (plan : α → Plan) : Plan := (found.map plan).getD [.risk]

end Plan

/-- Whatever it is answered, the run asks what is planned, in this order. It may fail where the plan
says so, and where it checks it ends if it is cancelled. -/
inductive Follows {α : Type} : Run α → Plan → Prop where
  | done (a : α) : Follows (.done a) []
  | fail (t : Trouble) (rest : Plan) : Follows (.fail t) (.risk :: rest)
  | safe {r : Run α} {rest : Plan} (further : Follows r rest) : Follows r (.risk :: rest)
  | ask {q : Ask} {next : q.Answer → Run α} {rest : Plan} (no_check : q ≠ .isCancelled)
    (further : ∀ a, Follows (next a) rest) : Follows (.ask q next) (.ask q :: rest)
  | check {next : Bool → Run α} {rest : Plan} (stops : next true = .fail (.failure .cancelled))
    (further : Follows (next false) rest) :
    Follows (.ask .isCancelled next) (.ask .isCancelled :: rest)

section

variable {α β : Type} {plan rest : Plan}

theorem Follows.bind {r : Run α} {f : α → Run β} (first : Follows r plan)
    (second : ∀ a, Follows (f a) rest) : Follows (r >>= f) (plan ++ rest) := by
  induction first with
  | done a => exact second a
  | fail t after => exact .fail t (after ++ rest)
  | safe _ ih => exact .safe ih
  | ask no_check _ ih => exact .ask no_check ih
  | @check next after stops _ ih =>
    refine @Follows.check _ (fun a => (next a).bind f) _ ?_ ih
    rw [stops]
    rfl

theorem follows_pure (a : α) : Follows (pure a : Run α) [] := .done a

theorem follows_put {q : Ask} (no_check : q ≠ .isCancelled) : Follows (Run.put q) [.ask q] :=
  .ask no_check fun a => .done a

theorem follows_report (percent : Number) (label : String) :
    Follows (Run.report percent label) [.ask (.report percent label)] := follows_put nofun

theorem follows_pause : Follows Run.pause [.ask .pause] := follows_put nofun

theorem follows_enterStage (stage : Stage) :
    Follows (Run.enterStage stage) [.ask (.enterStage stage)] := follows_put nofun

theorem follows_check : Follows Run.check [.ask .isCancelled] := .check rfl (.done ())

theorem follows_lift (r : Except Trouble α) : Follows (Run.lift r) [.risk] := by
  cases r with
  | ok a => exact .safe (.done a)
  | error t => exact .fail t []

theorem follows_liftFault (r : Except Fault α) : Follows (Run.liftFault r) [.risk] := follows_lift _

theorem follows_upon {r : Except Trouble α} {f : α → Run β} {plan : α → Plan} {found : Option α}
    (same : r.toOption = found) (further : ∀ a, Follows (f a) (plan a)) :
    Follows (Run.lift r >>= f) (.upon found plan) := by
  subst same
  cases r with
  | ok a => exact further a
  | error t => exact .fail t []

end

/-! ### Carrying out a plan -/

/-- Carried out before a listener, a plan asks these questions and ends with this trouble, if any. -/
inductive Carried : Listener → Plan → List Ask → Option Trouble → Prop where
  | done (l : Listener) : Carried l [] [] none
  | fails (l : Listener) (rest : Plan) (t : Trouble) : Carried l (.risk :: rest) [] (some t)
  | safe {l : Listener} {rest : Plan} {asked : List Ask} {trouble : Option Trouble}
    (further : Carried l rest asked trouble) : Carried l (.risk :: rest) asked trouble
  | asks {l : Listener} {q : Ask} {rest : Plan} {asked : List Ask} {trouble : Option Trouble}
    (no_check : q ≠ .isCancelled) (further : Carried (q.heardBy l) rest asked trouble) :
    Carried l (.ask q :: rest) (q :: asked) trouble
  | stops {l : Listener} (rest : Plan) (cancelled : l.token.cancelled = true) :
    Carried l (.ask .isCancelled :: rest) [.isCancelled] (some (.failure .cancelled))
  | passes {l : Listener} {rest : Plan} {asked : List Ask} {trouble : Option Trouble}
    (unasked : l.token.cancelled = false) (further : Carried l rest asked trouble) :
    Carried l (.ask .isCancelled :: rest) (.isCancelled :: asked) trouble

section

variable {l : Listener} {plan rest : Plan} {asked : List Ask} {trouble : Option Trouble}

/-- What is asked is planned, in this order, and it is all that is planned where there is no
trouble. -/
theorem Carried.asked_eq (carried : Carried l plan asked trouble) :
    asked <+: plan.questions ∧ (trouble = none → asked = plan.questions) := by
  induction carried with
  | done l => exact ⟨List.prefix_rfl, fun _ => rfl⟩
  | fails l rest t => exact ⟨List.nil_prefix, nofun⟩
  | safe _ ih => exact ih
  | @asks l q rest asked trouble _ _ ih =>
    exact ⟨(List.prefix_cons_inj q).2 ih.1, fun none_left => congrArg (q :: ·) (ih.2 none_left)⟩
  | stops rest _ => exact ⟨⟨Plan.questions rest, rfl⟩, nofun⟩
  | passes _ _ ih =>
    exact ⟨(List.prefix_cons_inj _).2 ih.1, fun none_left => congrArg (_ :: ·) (ih.2 none_left)⟩

end

def trouble? {α : Type} : Except Trouble α → Option Trouble
  | .ok _ => none
  | .error t => some t

theorem answer_listener (q : Ask) (st : Services × Listener) :
    (answer q st).2.2 = q.heardBy st.2 := by
  cases q <;> rfl

/-- A run that follows a plan carries it out. -/
theorem Follows.carried {α : Type} {r : Run α} {plan : Plan} (follows : Follows r plan)
    (st : Services × Listener) :
    Carried st.2 plan (r.asked answer st) (trouble? (r.exec answer st).1) := by
  induction follows generalizing st with
  | done a => exact .done st.2
  | fail t rest => exact .fails st.2 rest t
  | safe _ ih => exact .safe (ih st)
  | @ask q next rest no_check _ ih =>
    have further := ih (answer q st).1 (answer q st).2
    rw [answer_listener] at further
    exact .asks no_check further
  | @check next rest stops _ ih =>
    obtain ⟨services, l⟩ := st
    change Carried l _ (.isCancelled :: (next l.token.cancelled).asked answer (services, l))
      (trouble? ((next l.token.cancelled).exec answer (services, l)).1)
    -- Where the listener wants to stop the run ends, and with it the plan.
    cases cancelled : l.token.cancelled with
    | true =>
      rw [stops]
      exact .stops rest cancelled
    | false => exact .passes cancelled (ih (services, l))

theorem hear_reported (q : Ask) (asked : List Ask) (l : Listener) :
    (reported (q :: asked)).foldl Listener.hear l =
      (reported asked).foldl Listener.hear (q.heardBy l) := by
  cases q <;> rfl

/-- Who listens has heard, in the end, what was reported. -/
theorem exec_listener {α : Type} (r : Run α) (st : Services × Listener) :
    (r.exec answer st).2.2 = (reported (r.asked answer st)).foldl Listener.hear st.2 := by
  induction r generalizing st with
  | done a => rfl
  | fail t => rfl
  | ask q next ih =>
    rw [Script.asked, hear_reported, ← answer_listener]
    exact ih (answer q st).1 (answer q st).2

/-! ### The plan of a reading -/

def chunkPlan (channel : Channel) (text : List Char) : Plan :=
  match channel with
  | .direct => [.ask (.rename text)]
  | .workers _ => [.ask .takeTask, .risk, .ask (.rename text)]

/-- What is reported of a chunk, by the number of those before it. -/
def chunkReport (total done : Nat) : Progress :=
  ⟨chunkPercent (done + 1) total, s!"Processing chunk {done + 1}/{total}"⟩

def Step.report (p : Progress) : Step := .ask (.report p.percent p.label)

def started : Progress := ⟨5, "Initializing document processing..."⟩

def validated : Progress := ⟨10, "Validating SVG structure..."⟩

def chunking : Progress := ⟨20, "Chunking SVG content..."⟩

def combining : Progress := ⟨80, "Combining and optimizing..."⟩

def finalizing : Progress := ⟨95, "Final optimization..."⟩

def complete : Progress := ⟨100, "Processing complete!"⟩

def chunksPlan (channel : Channel) (total : Nat) : Nat → List (List Char) → Plan
  | _, [] => [.ask .isCancelled]
  | done, chunk :: rest =>
    .ask .isCancelled :: (chunkPlan channel chunk ++
      .ask .pause :: .report (chunkReport total done) :: chunksPlan channel total (done + 1) rest)

def processPlan (s : Settings) (channel : Channel) (c : Checked) : Plan :=
  if (Number.int c.size).lt s.largeFileThreshold then
    .ask (.enterStage .processing) :: .report ⟨20, "Processing SVG..."⟩ :: chunkPlan channel c.cleaned
  else
    .ask (.enterStage .chunking) :: .report chunking ::
      Plan.upon (Markup.chunksOf s.maxChunkSize c.cleaned).toOption fun chunks =>
        chunksPlan channel chunks.length 0 chunks

def markupPlan (s : Settings) (channel : Channel) (c : Checked) : Plan :=
  .report started :: .report validated :: .ask .isCancelled ::
    (processPlan s channel c ++ [.report combining, .report finalizing, .risk])

def figmaPlan (document : Json) : Plan :=
  .report started ::
    Plan.upon (Figma.File.ofData document).toOption fun file =>
      [.report ⟨10, s!"Validated Figma document ({file.shape.name} structure)"⟩, .ask .isCancelled,
        .ask (.enterStage .processing), .report ⟨20, "Converting Figma nodes..."⟩, .risk, .ask .pause,
        .ask .isCancelled, .report ⟨80, "Rendering markup..."⟩, .risk,
        .report finalizing]

/-- What is asked between the beginning and the end of a reading. -/
def planOf (s : Settings) (channel : Channel) (document : Json) : Plan :=
  match document with
  | .obj _ => .upon (checkSize s document.byteSize).toOption fun _ => figmaPlan document
  | _ => .upon (check s document).toOption fun c => markupPlan s channel c

section

variable (s : Settings) (channel : Channel) (document : Json)

/-- The part of a reading that may fail. -/
def body : Run Content :=
  match document with
  | .obj _ => ofFigma s Run.report document
  | _ => ofMarkup s channel Run.report document

theorem follows_processChunk (text : List Char) :
    Follows (processChunk channel text) (chunkPlan channel text) := by
  cases channel with
  | direct => exact .ask nofun fun _ => .done _
  | workers timeout =>
    refine .ask nofun fun number => ?_
    cases awaited : Worker.isAwaited timeout with
    | error e => exact .fail _ _
    | ok waits =>
      cases waits with
      | false => exact .fail _ _
      | true => exact .safe (.ask nofun fun _ => .done _)

theorem follows_processChunks (total done : Nat) (processed chunks : List (List Char)) :
    Follows (processChunks channel Run.report total done processed chunks)
      (chunksPlan channel total done chunks) := by
  induction chunks generalizing done processed with
  | nil => exact follows_check.bind fun _ => follows_pure _
  | cons chunk rest ih =>
    refine follows_check.bind fun _ => ?_
    refine (follows_processChunk channel chunk).bind fun out => ?_
    refine follows_pause.bind fun _ => ?_
    exact (follows_report _ _).bind fun _ => ih (done + 1) (out :: processed)

theorem follows_process (c : Checked) :
    Follows (process s channel Run.report c) (processPlan s channel c) := by
  unfold process processPlan
  split
  · refine (follows_enterStage _).bind fun _ => ?_
    refine (follows_report _ _).bind fun _ => ?_
    have ends := (follows_processChunk channel c.cleaned).bind fun out =>
      follows_pure (out, 1, ([] : List String))
    rwa [List.append_nil] at ends
  · refine (follows_enterStage _).bind fun _ => ?_
    refine (follows_report _ _).bind fun _ => ?_
    refine follows_upon (toOption_liftFault _) fun chunks => ?_
    have ends := (follows_processChunks channel chunks.length 0 [] chunks).bind fun text =>
      follows_pure (text, chunks.length, [chunkedWarning c.size chunks.length])
    rwa [List.append_nil] at ends

theorem follows_ofMarkup : Follows (ofMarkup s channel Run.report document)
    (.upon (check s document).toOption fun c => markupPlan s channel c) := by
  refine follows_upon rfl fun c => ?_
  refine (follows_report _ _).bind fun _ => ?_
  refine (follows_report _ _).bind fun _ => ?_
  refine follows_check.bind fun _ => ?_
  refine (follows_process s channel c).bind fun result => ?_
  refine (follows_report _ _).bind fun _ => ?_
  refine (follows_report _ _).bind fun _ => ?_
  exact (follows_liftFault _).bind fun tree => follows_pure _

theorem follows_ofFigma : Follows (ofFigma s Run.report document)
    (.upon (checkSize s document.byteSize).toOption fun _ => figmaPlan document) := by
  refine follows_upon rfl fun _ => ?_
  refine (follows_report _ _).bind fun _ => ?_
  refine follows_upon (toOption_mapError _ _) fun file => ?_
  refine (follows_report _ _).bind fun _ => ?_
  refine follows_check.bind fun _ => ?_
  refine (follows_enterStage _).bind fun _ => ?_
  refine (follows_report _ _).bind fun _ => ?_
  refine (follows_liftFault _).bind fun tree => ?_
  refine follows_pause.bind fun _ => ?_
  refine follows_check.bind fun _ => ?_
  refine (follows_report _ _).bind fun _ => ?_
  refine (follows_liftFault _).bind fun markup => ?_
  exact (follows_report _ _).bind fun _ => follows_pure _

/-- Whatever the document is, what is asked of it is planned. -/
theorem follows_body : Follows (body s channel document) (planOf s channel document) := by
  cases document with
  | obj members => exact follows_ofFigma s (.obj members)
  | _ => exact follows_ofMarkup s channel _

end

section

variable (channel : Channel) (total done : Nat)

@[simp] theorem reported_append (first rest : List Ask) :
    reported (first ++ rest) = reported first ++ reported rest := List.filterMap_append

@[simp] theorem renamed_append (first rest : List Ask) :
    renamed (first ++ rest) = renamed first ++ renamed rest := List.filterMap_append

@[simp] theorem Plan.questions_append (first rest : Plan) :
    Plan.questions (first ++ rest) = first.questions ++ rest.questions := List.filterMap_append

@[simp] theorem reported_chunkPlan (text : List Char) :
    reported (chunkPlan channel text).questions = [] := by
  cases channel <;> rfl

@[simp] theorem renamed_chunkPlan (text : List Char) :
    renamed (chunkPlan channel text).questions = [text] := by
  cases channel <;> rfl

/-- One report is planned for each chunk, in their order. -/
theorem reported_chunksPlan (chunks : List (List Char)) :
    reported (chunksPlan channel total done chunks).questions =
      (List.range chunks.length).map fun i => chunkReport total (done + i) := by
  induction chunks generalizing done with
  | nil => rfl
  | cons chunk rest ih =>
    have first : reported (chunksPlan channel total done (chunk :: rest)).questions =
        chunkReport total done :: reported (chunksPlan channel total (done + 1) rest).questions := by
      change reported (Plan.questions (_ ++ _)) = _
      rw [Plan.questions_append, reported_append, reported_chunkPlan]
      rfl
    rw [first, ih, List.length_cons, List.range_succ_eq_map, List.map_cons, List.map_map]
    congr 1
    exact List.map_congr_left fun i _ => congrArg (chunkReport total) (by omega)

theorem renamed_chunksPlan (chunks : List (List Char)) :
    renamed (chunksPlan channel total done chunks).questions = chunks := by
  induction chunks generalizing done with
  | nil => rfl
  | cons chunk rest ih =>
    have first : renamed (chunksPlan channel total done (chunk :: rest)).questions =
        chunk :: renamed (chunksPlan channel total (done + 1) rest).questions := by
      change renamed (Plan.questions (_ ++ _)) = _
      rw [Plan.questions_append, renamed_append, renamed_chunkPlan]
      rfl
    rw [first, ih]

end

/-! ### The plan for large markup -/

/-- The chunks in which markup that passes is read, where it is large. -/
def largeChunks? (s : Settings) (document : Json) : Option (List (List Char)) :=
  match check s document with
  | .ok c =>
    if (Number.int c.size).lt s.largeFileThreshold then none
    else (Markup.chunksOf s.maxChunkSize c.cleaned).toOption
  | .error _ => none

/-- What is reported of markup in so many chunks before all is done: one report for each chunk, in
their order. -/
def chunkReports (total : Nat) : List Progress :=
  [started, validated, chunking] ++ (List.range total).map (chunkReport total) ++
    [combining, finalizing]

def beforeChunks : Plan :=
  [.report started, .report validated, .ask .isCancelled, .ask (.enterStage .chunking),
    .report chunking]

def behindChunks : Plan := [.report combining, .report finalizing, .risk]

section

variable {s : Settings} {document : Json} {chunks : List (List Char)}

/-- Where chunks are read, they stand between what is asked of all markup. -/
theorem planOf_large (channel : Channel) (large : largeChunks? s document = some chunks) :
    planOf s channel document =
      beforeChunks ++ (chunksPlan channel chunks.length 0 chunks ++ behindChunks) := by
  unfold largeChunks? at large
  cases checks : check s document with
  | error t => simp [checks] at large
  | ok c =>
    rw [checks] at large
    dsimp only at large
    split at large
    · exact nomatch large
    · next not_small =>
      have planned : planOf s channel document = markupPlan s channel c := by
        cases document with
        | obj members => exact nomatch checks
        | _ => simp only [planOf, checks]; rfl
      rw [planned, markupPlan, processPlan, if_neg not_small, large]
      rfl

theorem reported_large (channel : Channel) (large : largeChunks? s document = some chunks) :
    reported (planOf s channel document).questions = chunkReports chunks.length := by
  rw [planOf_large channel large, Plan.questions_append, Plan.questions_append, reported_append,
    reported_append, reported_chunksPlan, chunkReports, List.append_assoc]
  simp only [Nat.zero_add]
  rfl

theorem renamed_large (channel : Channel) (large : largeChunks? s document = some chunks) :
    renamed (planOf s channel document).questions = chunks := by
  rw [planOf_large channel large, Plan.questions_append, Plan.questions_append, renamed_append,
    renamed_append, renamed_chunksPlan]
  exact List.append_nil chunks

end

/-! ### A request to stop between chunks -/

section

variable {channel : Channel} {l : Listener} {rest : Plan} {asked : List Ask}
  {trouble : Option Trouble}

/-- A chunk is not transformed, and then there is trouble, or it is and nothing else is. -/
theorem Carried.chunk {text : List Char}
    (carried : Carried l (chunkPlan channel text ++ rest) asked trouble) :
    reported asked = [] ∧ renamed asked = [] ∧ trouble ≠ none ∨
      ∃ later, Carried l rest later trouble ∧ reported asked = reported later ∧
        renamed asked = text :: renamed later := by
  cases channel with
  | direct =>
    cases carried with
    | asks _ further => exact .inr ⟨_, further, rfl, rfl⟩
  | workers timeout =>
    cases carried with
    | asks _ further =>
      cases further with
      | fails => exact .inl ⟨rfl, rfl, nofun⟩
      | safe further =>
        cases further with
        | asks _ further => exact .inr ⟨_, further, rfl, rfl⟩

/-- A request to stop that comes before the chunks, or with the report of one of the first, is heeded
before the next of them. -/
theorem Carried.chunks_heed {total done i : Nat} {chunks : List (List Char)}
    (carried : Carried l (chunksPlan channel total done chunks ++ rest) asked trouble)
    (early : i ≤ chunks.length)
    (stopped : (((reported asked).take i).foldl Listener.hear l).token.cancelled = true) :
    trouble = some (.failure .cancelled) ∧ (reported asked).length ≤ i ∧
      renamed asked <+: chunks.take i := by
  -- On the chunks: each begins with a check and ends with a report, so one report less is left.
  induction chunks generalizing l done i asked with
  | nil =>
    obtain rfl : i = 0 := Nat.le_zero.1 early
    cases carried with
    | asks no_check _ => exact absurd rfl no_check
    | stops => exact ⟨rfl, Nat.le_refl 0, List.nil_prefix⟩
    | passes unasked _ => exact nomatch unasked.symm.trans stopped
  | cons chunk chunks ih =>
    cases carried with
    | asks no_check _ => exact absurd rfl no_check
    | stops => exact ⟨rfl, Nat.zero_le i, List.nil_prefix⟩
    | @passes _ _ asked _ unasked further =>
      change (((reported asked).take i).foldl Listener.hear l).token.cancelled = true at stopped
      have not_yet : (([] : List Progress).foldl Listener.hear l).token.cancelled ≠ true :=
        Bool.eq_false_iff.1 unasked
      change Carried l (chunkPlan channel chunk ++ _ ++ rest) asked trouble at further
      rw [List.append_assoc] at further
      -- The chunk has failed before anything was reported, or its report comes next.
      obtain ⟨none_told, -, -⟩ | ⟨later, further, told, texts⟩ := further.chunk
      · rw [none_told, List.take_nil] at stopped
        exact absurd stopped not_yet
      · cases further with
        | asks _ further =>
          cases further with
          | @asks _ _ _ later _ _ further =>
            change reported asked = chunkReport total done :: reported later at told
            change renamed asked = chunk :: renamed later at texts
            cases i with
            | zero => exact absurd stopped not_yet
            | succ i =>
              rw [told] at stopped
              obtain ⟨cancelled, few, first⟩ := ih further (Nat.le_of_succ_le_succ early) stopped
              refine ⟨cancelled, ?_, ?_⟩
              · change (reported asked).length ≤ i + 1
                rw [told]
                exact Nat.succ_le_succ few
              · change renamed asked <+: _
                rw [texts]
                exact (List.prefix_cons_inj chunk).2 first

/-- Before chunks are read the first reports are made, and a request to stop is heeded. -/
theorem Carried.before_chunks {rest : Plan} {asked : List Ask} {trouble : Option Trouble}
    (carried : Carried l (beforeChunks ++ rest) asked trouble) :
    (∃ later, Carried ([started, validated, chunking].foldl Listener.hear l) rest later trouble ∧
        reported asked = [started, validated, chunking] ++ reported later ∧
        renamed asked = renamed later) ∨
      trouble = some (.failure .cancelled) ∧ reported asked = [started, validated] ∧
        renamed asked = [] := by
  cases carried with
  | asks _ carried =>
    cases carried with
    | asks _ carried =>
      cases carried with
      | asks no_check _ => exact absurd rfl no_check
      | stops => exact .inr ⟨rfl, rfl, rfl⟩
      | passes _ carried =>
        cases carried with
        | asks _ carried =>
          cases carried with
          | asks _ carried => exact .inl ⟨_, carried, rfl, rfl⟩

end

/-! ### Who never asks to stop -/

/-- The listener has not asked to stop, and never does. -/
structure Silent (l : Listener) : Prop where
  unasked : l.token.cancelled = false
  never : ∀ heard, l.cancels heard = false

theorem Silent.heardBy {l : Listener} (silent : Silent l) (q : Ask) : Silent (q.heardBy l) := by
  cases q with
  | report percent label =>
    refine ⟨?_, silent.never⟩
    change (if l.cancels _ = true then _ else l.token).cancelled = false
    rw [silent.never, if_neg Bool.false_ne_true, silent.unasked]
  | _ => exact silent

/-- Before who never asks to stop, a plan is carried out at least to where it may fail. -/
theorem Carried.silent {l : Listener} {plan rest : Plan} {asked : List Ask} {trouble : Option Trouble}
    (carried : Carried l (plan ++ rest) asked trouble) (silent : Silent l)
    (safe : ∀ step ∈ plan, step ≠ .risk) : plan.questions <+: asked := by
  induction plan generalizing l asked with
  | nil => exact List.nil_prefix
  | cons step plan ih =>
    have others := fun step mem => safe step (List.mem_cons_of_mem _ mem)
    cases carried with
    | fails => exact absurd rfl (safe _ List.mem_cons_self)
    | safe => exact absurd rfl (safe _ List.mem_cons_self)
    | @asks _ q _ _ _ _ further =>
      exact (List.prefix_cons_inj q).2 (ih further (silent.heardBy q) others)
    | stops _ cancelled => exact nomatch silent.unasked.symm.trans cancelled
    | passes _ further => exact (List.prefix_cons_inj _).2 (ih further silent others)

theorem chunksPlan_safe (total done : Nat) (chunks : List (List Char)) :
    ∀ step ∈ chunksPlan .direct total done chunks, step ≠ .risk := by
  induction chunks generalizing done with
  | nil => exact List.forall_mem_cons.2 ⟨nofun, nofun⟩
  | cons chunk rest ih =>
    refine List.forall_mem_cons.2 ⟨nofun, List.forall_mem_cons.2 ⟨nofun, ?_⟩⟩
    exact List.forall_mem_cons.2 ⟨nofun, List.forall_mem_cons.2 ⟨nofun, ih (done + 1)⟩⟩

end Intake

end DesignComponents
