import DesignComponents.Proofs.Generation.Law
import Mathlib.Logic.Function.Basic

/-! Calls of one generator that take turns. In its turn a call goes on to its next pause, or to its
end; which of the calls goes on next is up to no call. A call that alone takes turns does what
`Generator.generate` does at once. -/

set_option autoImplicit false

namespace DesignComponents

/-- A call to generate a component. -/
structure Call where
  moment : Generation.Moment
  millisecond : Int
  document : Json
  config : Config := {}
  listener : Listener := {}

inductive CallState where
  | waiting
  | running (run : Run Generated) (session : Session)
  | ended (outcome : Generator.Outcome)

/-- What has happened when a call's turn comes. -/
structure Turn where
  /-- Whether the call was asked to stop. -/
  cancelled : Bool := false
  /-- What the cache's clock shows. -/
  time : Number := 0

def Listener.after (l : Listener) (t : Turn) : Listener :=
  if t.cancelled then { l with token := l.token.cancel } else l

namespace Generator

/-- Closes the session of a run that is over, and leaves the others as they are. -/
def settle (e : Generator) (s : Session) : Run Generated → CallState × Generator
  | .done g =>
    let (o, e) := e.complete s g
    (.ended o, e)
  | .fail t =>
    let (o, e) := e.abort s t
    (.ended o, e)
  | .ask q next => (.running (.ask q next) s, e)

/-- Goes on with a run to its next pause, or to its end. -/
def proceed (e : Generator) (s : Session) (r : Run Generated) : CallState × Generator :=
  let (r, e, s) := r.resume answer (e, s)
  e.settle s r

end Generator

namespace Call

/-- A turn of a call: it begins, or goes on where it paused. -/
def turn (c : Call) (t : Turn) : CallState × Generator → CallState × Generator
  | (.waiting, e) =>
    let (e, s) := { e with time := t.time }.start c.millisecond (c.listener.after t)
    e.proceed s (Generation.generation e.settings s.id c.moment c.document c.config)
  | (.running r s, e) =>
    { e with time := t.time }.proceed { s with listener := s.listener.after t } r
  | (.ended o, e) => (.ended o, { e with time := t.time })

def play (c : Call) (turns : List Turn) (p : CallState × Generator) : CallState × Generator :=
  turns.foldl (fun p t => c.turn t p) p

/-- What a call comes to on a fresh generator, where it alone takes turns. -/
def alone (c : Call) (settings : Generation.Settings) (turns : List Turn) : CallState :=
  (c.play turns (.waiting, .make settings)).1

end Call

/-- A generator and its two calls. -/
structure World where
  generator : Generator
  states : Bool → CallState

namespace World

/-- One of the calls comes to a state and leaves a generator. -/
def put (w : World) (side : Bool) (p : CallState × Generator) : World where
  generator := p.2
  states := Function.update w.states side p.1

def turn (calls : Bool → Call) (w : World) (turn : Bool × Turn) : World :=
  w.put turn.1 ((calls turn.1).turn turn.2 (w.states turn.1, w.generator))

/-- All turns, in the order in which they are taken. -/
def play (calls : Bool → Call) (w : World) (turns : List (Bool × Turn)) : World :=
  turns.foldl (turn calls) w

/-- A generator that is called twice. -/
def called (e : Generator) : World := ⟨e, fun _ => .waiting⟩

theorem put_self (w : World) (side : Bool) (p : CallState × Generator) :
    (w.put side p).states side = p.1 := by
  rw [put]
  apply Function.update_self

theorem put_other (w : World) {side side' : Bool} (other : side' ≠ side) (p : CallState × Generator) :
    (w.put side p).states side' = w.states side' := by
  rw [put]
  apply Function.update_of_ne other

end World

/-- The turns of one of the calls. -/
def turnsOf (side : Bool) (turns : List (Bool × Turn)) : List Turn :=
  (turns.filter fun turn => turn.1 == side).map Prod.snd

theorem turnsOf_self (side : Bool) (t : Turn) (rest : List (Bool × Turn)) :
    turnsOf side ((side, t) :: rest) = t :: turnsOf side rest := by
  simp only [turnsOf, List.filter_cons, beq_self_eq_true, if_true, List.map_cons]

theorem turnsOf_other {side side' : Bool} (other : side' ≠ side) (t : Turn) (rest : List (Bool × Turn)) :
    turnsOf side' ((side, t) :: rest) = turnsOf side' rest := by
  simp only [turnsOf, List.filter_cons, beq_false_of_ne other.symm, Bool.false_eq_true, if_false]

/-- Where the calls take their turns one after the other. -/
theorem turnsOf_second {side side' : Bool} (other : side' ≠ side) (first second : List Turn) :
    turnsOf side' (first.map (fun t => (side, t)) ++ second.map fun t => (side', t)) = second := by
  induction first with
  | nil =>
    induction second with
    | nil => rfl
    | cons t rest ih =>
      rw [List.map_cons, List.map_nil, List.nil_append, turnsOf_self]
      exact congrArg _ ih
  | cons t rest ih =>
    rw [List.map_cons, List.cons_append, turnsOf_other other]
    exact ih

/-! ### A call without interruption -/

namespace Generator

/-- Only a pause interrupts a run. -/
theorem proceed_ask {q : Ask} (goes_on : q ≠ .pause) (next : q.Answer → Run Generated) (e : Generator)
    (s : Session) : e.proceed s (.ask q next) =
      (answer q (e, s)).2.1.proceed (answer q (e, s)).2.2 (next (answer q (e, s)).1) := by
  cases q with
  | pause => exact absurd rfl goes_on
  | _ => rfl

theorem proceed_pause (next : Unit → Run Generated) (e : Generator) (s : Session) :
    e.proceed s (.ask .pause next) = e.settle s (next ()) := rfl

/-- The session as it ends where the run is not interrupted. -/
def conclude (e : Generator) (s : Session) (r : Run Generated) : CallState × Generator :=
  let (result, e, s) := r.exec answer (e, s)
  let (o, e) := e.finish s result
  (.ended o, e)

theorem conclude_ask (q : Ask) (next : q.Answer → Run Generated) (e : Generator) (s : Session) :
    e.conclude s (.ask q next) =
      (answer q (e, s)).2.1.conclude (answer q (e, s)).2.2 (next (answer q (e, s)).1) := rfl

/-- A turn before which nothing has happened. -/
def still (e : Generator) : Turn := { time := e.time }

theorem answer_still (q : Ask) (e : Generator) (s : Session) :
    (answer q (e, s)).2.1.still = e.still := by
  cases q <;> rfl

/-- A call that has ended is left alone. -/
theorem play_ended (c : Call) (o : Outcome) {e : Generator} {t : Turn} (still : t = e.still) (n : Nat) :
    c.play (List.replicate n t) (.ended o, e) = (.ended o, e) := by
  induction n with
  | zero => rfl
  | succ n ih =>
    rw [List.replicate_succ]
    have passed : c.turn t (.ended o, e) = (.ended o, e) := by
      rw [still]
      rfl
    rw [Call.play, List.foldl_cons, passed]
    exact ih

theorem complete_still (e : Generator) (s : Session) (g : Generated) :
    (e.complete s g).2.still = e.still := by
  rw [complete_leaves]
  rfl

/-- With turns enough, and nothing between them, a run ends as without pauses. -/
theorem proceed_ends (c : Call) (r : Run Generated) (e : Generator) (s : Session) :
    ∃ n, ∀ m ≥ n, c.play (List.replicate m e.still) (e.proceed s r) = e.conclude s r := by
  induction r generalizing e s with
  | done g => exact ⟨0, fun m _ => play_ended c _ (complete_still e s g).symm m⟩
  | fail t => exact ⟨0, fun m _ => play_ended c _ rfl m⟩
  | ask q next ih =>
    by_cases pauses : q = .pause
    · subst pauses
      obtain ⟨n, ends⟩ := ih () e s
      rw [proceed_pause, conclude_ask]
      change ∃ n, ∀ m ≥ n, c.play _ (e.settle s (next ())) = e.conclude s (next ())
      cases after : next () with
      | done g => exact ⟨0, fun m _ => play_ended c _ (complete_still e s g).symm m⟩
      | fail t => exact ⟨0, fun m _ => play_ended c _ rfl m⟩
      | ask q' next' =>
        -- Here the call waits for one more turn.
        rw [after] at ends
        refine ⟨n + 1, fun m enough => ?_⟩
        cases m with
        | zero => omega
        | succ m => exact ends m (by omega)
    · obtain ⟨n, ends⟩ := ih (answer q (e, s)).1 (answer q (e, s)).2.1 (answer q (e, s)).2.2
      rw [answer_still] at ends
      rw [proceed_ask pauses, conclude_ask]
      exact ⟨n, ends⟩

end Generator

namespace Call

/-- The run of the call, which is the next one. -/
def run (c : Call) (e : Generator) : Run Generated :=
  e.run c.moment c.millisecond c.document c.config

/-- The whole call at once. -/
def atOnce (c : Call) (e : Generator) : CallState × Generator :=
  let (o, e) := e.generate c.moment c.millisecond c.document c.config c.listener
  (.ended o, e)

/-- A call that is not interrupted ends as it does at once. -/
theorem play_still (c : Call) (e : Generator) :
    ∃ n, ∀ m ≥ n, c.play (List.replicate m e.still) (.waiting, e) = c.atOnce e := by
  obtain ⟨n, ends⟩ := Generator.proceed_ends c (c.run e) (e.start c.millisecond c.listener).1
    (e.start c.millisecond c.listener).2
  refine ⟨n + 1, fun m enough => ?_⟩
  cases m with
  | zero => omega
  | succ m => exact ends m (by omega)

end Call

/-- Turns of one call only are that call's turns. -/
theorem World.play_side (calls : Bool → Call) (w : World) (side : Bool) (turns : List Turn) :
    w.play calls (turns.map fun t => (side, t)) =
      w.put side ((calls side).play turns (w.states side, w.generator)) := by
  induction turns generalizing w with
  | nil =>
    simp only [Call.play, put, List.foldl_nil, Function.update_eq_self]
    rfl
  | cons t rest ih =>
    have later := ih (w.turn calls (side, t))
    rw [turn, put_self] at later
    rw [List.map_cons, play, List.foldl_cons]
    refine later.trans ?_
    simp only [put, Function.update_idem]
    rfl

theorem World.play_append (calls : Bool → Call) (w : World) (first second : List (Bool × Turn)) :
    w.play calls (first ++ second) = (w.play calls first).play calls second := List.foldl_append

end DesignComponents
