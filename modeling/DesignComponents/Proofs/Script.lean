import DesignComponents.Script

/-! What scripts keep and what they end with, whoever answers them. An invariant of the state is
kept by every answer; a condition holds of whatever the script ends with. -/

set_option autoImplicit false

namespace DesignComponents.Script

variable {Q : Type} {Answer : Q → Type} {ε α β σ : Type}

section

variable (answer : Answerer Answer σ) (Inv : σ → Prop)

/-- From a state of the invariant the script ends in one, and what it ends with is as told. -/
def Ensures (s : Script Answer ε α) (Post : α → Prop) : Prop :=
  ∀ st, Inv st → Inv (s.exec answer st).2 ∧ ∀ a, (s.exec answer st).1 = .ok a → Post a

end

variable {answer : Answerer Answer σ} {Inv : σ → Prop}

/-- The states that a run passes through, one after each answer. -/
def states (answer : Answerer Answer σ) : Script Answer ε α → σ → List σ
  | done _, _ | fail _, _ => []
  | ask q next, st => (answer q st).2 :: states answer (next (answer q st).1) (answer q st).2

/-- The questions that a run asks, in their order. -/
def asked (answer : Answerer Answer σ) : Script Answer ε α → σ → List Q
  | done _, _ | fail _, _ => []
  | ask q next, st => q :: asked answer (next (answer q st).1) (answer q st).2

theorem exec_bind (s : Script Answer ε α) (f : α → Script Answer ε β) (st : σ) :
    (s.bind f).exec answer st =
      match s.exec answer st with
      | (.ok a, st) => (f a).exec answer st
      | (.error e, st) => (.error e, st) := by
  induction s generalizing st with
  | done a => rfl
  | fail e => rfl
  | ask q next ih => exact ih (answer q st).1 (answer q st).2

theorem exec_onFail (last : ε → Script Answer ε Unit) (s : Script Answer ε α) (st : σ) :
    (onFail last s).exec answer st =
      match s.exec answer st with
      | (.ok a, st) => (.ok a, st)
      | (.error e, st) => ((last e).bind fun _ => fail e).exec answer st := by
  induction s generalizing st with
  | done a => rfl
  | fail e => rfl
  | ask q next ih => exact ih (answer q st).1 (answer q st).2

theorem asked_bind (s : Script Answer ε α) (f : α → Script Answer ε β) (st : σ) :
    (s.bind f).asked answer st = s.asked answer st ++
      match s.exec answer st with
      | (.ok a, st) => (f a).asked answer st
      | (.error _, _) => [] := by
  induction s generalizing st with
  | done a => rfl
  | fail e => rfl
  | ask q next ih => exact congrArg (q :: ·) (ih (answer q st).1 (answer q st).2)

theorem asked_onFail (last : ε → Script Answer ε Unit) (s : Script Answer ε α) (st : σ) :
    (onFail last s).asked answer st = s.asked answer st ++
      match s.exec answer st with
      | (.ok _, _) => []
      | (.error e, st) => ((last e).bind fun _ => (fail e : Script Answer ε α)).asked answer st := by
  induction s generalizing st with
  | done a => rfl
  | fail e => rfl
  | ask q next ih => exact congrArg (q :: ·) (ih (answer q st).1 (answer q st).2)

theorem Ensures.imp {s : Script Answer ε α} {Post Post' : α → Prop}
    (holds : Ensures answer Inv s Post) (weaker : ∀ a, Post a → Post' a) :
    Ensures answer Inv s Post' := by
  intro st inv
  obtain ⟨kept, post⟩ := holds st inv
  exact ⟨kept, fun a ends => weaker a (post a ends)⟩

theorem ensures_pure {a : α} {Post : α → Prop} (holds : Post a) :
    Ensures answer Inv (pure a : Script Answer ε α) Post := by
  intro st inv
  refine ⟨inv, fun a' ends => ?_⟩
  cases ends
  exact holds

theorem ensures_fail {e : ε} {Post : α → Prop} :
    Ensures answer Inv (fail e : Script Answer ε α) Post :=
  fun _ inv => ⟨inv, nofun⟩

theorem ensures_lift {r : Except ε α} {Post : α → Prop} (holds : ∀ a, r = .ok a → Post a) :
    Ensures answer Inv (lift r : Script Answer ε α) Post := by
  cases r with
  | ok a => exact ensures_pure (holds a rfl)
  | error e => exact ensures_fail

/-- A question is answered from a state of the invariant. -/
theorem ensures_ask {q : Q} {next : Answer q → Script Answer ε α} {Post : α → Prop}
    {Reply : Answer q → Prop}
    (answered : ∀ st, Inv st → Inv (answer q st).2 ∧ Reply (answer q st).1)
    (further : ∀ a, Reply a → Ensures answer Inv (next a) Post) :
    Ensures answer Inv (ask q next) Post := by
  intro st inv
  obtain ⟨kept, reply⟩ := answered st inv
  exact further _ reply _ kept

/-- What is answered may be of no matter. -/
theorem ensures_asked {q : Q} {next : Answer q → Script Answer ε α} {Post : α → Prop}
    (kept : ∀ st, Inv st → Inv (answer q st).2)
    (further : ∀ a, Ensures answer Inv (next a) Post) : Ensures answer Inv (ask q next) Post :=
  fun st inv => further _ _ (kept st inv)

theorem Ensures.bind {s : Script Answer ε α} {f : α → Script Answer ε β} {Mid : α → Prop}
    {Post : β → Prop} (first : Ensures answer Inv s Mid)
    (second : ∀ a, Mid a → Ensures answer Inv (f a) Post) :
    Ensures answer Inv (s >>= f) Post := by
  intro st inv
  change Inv ((s.bind f).exec answer st).2 ∧ ∀ b, ((s.bind f).exec answer st).1 = .ok b → Post b
  rw [exec_bind]
  obtain ⟨kept, mid⟩ := first st inv
  cases outcome : s.exec answer st with
  | mk result st' =>
    rw [outcome] at kept mid
    cases result with
    | ok a => exact second a (mid a rfl) st' kept
    | error e => exact ⟨kept, nofun⟩

section

variable (kept : ∀ q st, Inv st → Inv (answer q st).2)

include kept

/-- What every answer keeps every script keeps. -/
theorem ensures_kept (s : Script Answer ε α) : Ensures answer Inv s fun _ => True := by
  induction s with
  | done a => exact ensures_pure trivial
  | fail e => exact ensures_fail
  | ask q next ih => exact ensures_asked (kept q) ih

/-- What the first script ends with may be of no matter. -/
theorem ensures_after (s : Script Answer ε α) {f : α → Script Answer ε β} {Post : β → Prop}
    (further : ∀ a, Ensures answer Inv (f a) Post) : Ensures answer Inv (s >>= f) Post :=
  (ensures_kept kept s).bind fun a _ => further a

end

/-- From a state of the invariant the script ends with something. -/
def Ends (answer : Answerer Answer σ) (Inv : σ → Prop) (s : Script Answer ε α) : Prop :=
  ∀ st, Inv st → ∃ a, (s.exec answer st).1 = .ok a

theorem ends_pure (a : α) : Ends answer Inv (pure a : Script Answer ε α) := fun _ _ => ⟨a, rfl⟩

theorem Ends.bind {s : Script Answer ε α} {f : α → Script Answer ε β} {Mid : α → Prop}
    (first : Ends answer Inv s) (told : Ensures answer Inv s Mid)
    (second : ∀ a, Mid a → Ends answer Inv (f a)) : Ends answer Inv (s >>= f) := by
  intro st inv
  change ∃ b, ((s.bind f).exec answer st).1 = .ok b
  rw [exec_bind]
  obtain ⟨a, ends⟩ := first st inv
  obtain ⟨kept, mid⟩ := told st inv
  cases outcome : s.exec answer st with
  | mk result st' =>
    rw [outcome] at ends kept mid
    cases ends
    exact second a (mid a rfl) st' kept

theorem Ensures.onFail {s : Script Answer ε α} {last : ε → Script Answer ε Unit} {Post : α → Prop}
    (first : Ensures answer Inv s Post)
    (after : ∀ e, Ensures answer Inv (last e) fun _ => True) :
    Ensures answer Inv (onFail last s) Post := by
  intro st inv
  rw [exec_onFail]
  obtain ⟨kept, post⟩ := first st inv
  cases outcome : s.exec answer st with
  | mk result st' =>
    rw [outcome] at kept post
    cases result with
    | ok a => exact ⟨kept, post⟩
    | error e =>
      have last_fails : Ensures answer Inv (last e >>= fun _ => fail e) Post :=
        (after e).bind fun _ _ => ensures_fail
      exact last_fails st' kept

/-- A script that ends leaves the state as told. -/
def Leaves (answer : Answerer Answer σ) (s : Script Answer ε α) (Post : α → σ → Prop) : Prop :=
  ∀ st a, (s.exec answer st).1 = .ok a → Post a (s.exec answer st).2

theorem leaves_bind {s : Script Answer ε α} {f : α → Script Answer ε β} {Post : β → σ → Prop}
    (last : ∀ a, Leaves answer (f a) Post) : Leaves answer (s >>= f) Post := by
  intro st b ends
  change ((s.bind f).exec answer st).1 = .ok b at ends
  change Post b ((s.bind f).exec answer st).2
  rw [exec_bind] at ends ⊢
  cases outcome : s.exec answer st with
  | mk result st' =>
    rw [outcome] at ends
    cases result with
    | ok a => exact last a st' b ends
    | error e => exact nomatch ends

end DesignComponents.Script
