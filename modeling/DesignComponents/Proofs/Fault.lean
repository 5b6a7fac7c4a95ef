import DesignComponents.Fault
import Mathlib.Data.List.Forall2

/-! Steps that fail for one reason only: a number of more digits than are read. Whether a longer
computation fails can then be told from its steps, without following it to the first that does. -/

set_option autoImplicit false

namespace DesignComponents

theorem checkDigits_eq_ok {count : Nat} : checkDigits count = .ok () ↔ count ≤ mostDigits := by
  unfold checkDigits
  split <;> simp <;> omega

theorem checkDigits_eq_error {count : Nat} {fault : Fault} :
    checkDigits count = .error fault ↔ mostDigits < count ∧ fault = .tooManyDigits count := by
  unfold checkDigits
  split <;> simp [*, eq_comm]

variable {α β : Type} {p q : Prop}

theorem bind_eq_ok {x : Except Fault α} {f : α → Except Fault β} {b : β} :
    x.bind f = .ok b ↔ ∃ a, x = .ok a ∧ f a = .ok b := by
  cases x <;> simp [Except.bind]

theorem map_eq_ok {x : Except Fault α} {f : α → β} {b : β} :
    x.map f = .ok b ↔ ∃ a, x = .ok a ∧ f a = b := by
  cases x <;> simp [Except.map]

/-- The step gives a value. -/
def Succeeds (x : Except Fault α) : Prop := ∃ a, x = .ok a

instance : (x : Except Fault α) → Decidable (Succeeds x)
  | .ok a => isTrue ⟨a, rfl⟩
  | .error _ => isFalse nofun

theorem Succeeds.bind {x : Except Fault α} {f : α → Except Fault β} (first : Succeeds x)
    (rest : ∀ a, x = .ok a → Succeeds (f a)) : Succeeds (x >>= f) := by
  obtain ⟨a, done⟩ := first
  obtain ⟨b, done'⟩ := rest a done
  exact ⟨b, bind_eq_ok.2 ⟨a, done, done'⟩⟩

theorem Succeeds.map {x : Except Fault α} (done : Succeeds x) (f : α → β) :
    Succeeds (do return f (← x)) := done.bind fun a _ => ⟨f a, rfl⟩

theorem succeeds_ok (a : α) : Succeeds (.ok a) ↔ True := ⟨fun _ => trivial, fun _ => ⟨a, rfl⟩⟩

theorem succeeds_pure (a : α) : Succeeds (pure a : Except Fault α) ↔ True := succeeds_ok a

/-- What comes second may not depend on what is given first. -/
theorem succeeds_bind_iff {x : Except Fault α} {f : α → Except Fault β}
    (second : ∀ a, Succeeds (f a) ↔ q) : Succeeds (x >>= f) ↔ Succeeds x ∧ q := by
  constructor
  · rintro ⟨b, done⟩
    obtain ⟨a, first, rest⟩ := bind_eq_ok.1 done
    exact ⟨⟨a, first⟩, (second a).1 ⟨b, rest⟩⟩
  · rintro ⟨first, holds⟩
    exact first.bind fun a _ => (second a).2 holds

/-- The step succeeds if `p` holds, and fails by the limit on digits if it does not. -/
structure Reads (x : Except Fault α) (p : Prop) : Prop where
  succeeds : p → ∃ a, x = .ok a
  fails : ¬p → ∃ count, mostDigits < count ∧ x = .error (.tooManyDigits count)

theorem reads_ok (a : α) : Reads (.ok a) True where
  succeeds _ := ⟨a, rfl⟩
  fails never := absurd trivial never

theorem reads_checkDigits (count : Nat) : Reads (checkDigits count) (count ≤ mostDigits) where
  succeeds small := ⟨(), checkDigits_eq_ok.2 small⟩
  fails large := ⟨count, Nat.lt_of_not_le large, checkDigits_eq_error.2 ⟨Nat.lt_of_not_le large, rfl⟩⟩

theorem Reads.congr {x : Except Fault α} (reads : Reads x p) (same : p ↔ q) : Reads x q where
  succeeds holds := reads.succeeds (same.2 holds)
  fails not := reads.fails fun holds => not (same.1 holds)

theorem Reads.ok_iff {x : Except Fault α} (reads : Reads x p) : (∃ a, x = .ok a) ↔ p := by
  refine ⟨fun done => ?_, reads.succeeds⟩
  by_contra not
  obtain ⟨a, rfl⟩ := done
  obtain ⟨count, -, fails⟩ := reads.fails not
  exact nomatch fails

theorem Reads.map {x : Except Fault α} (reads : Reads x p) (f : α → β) : Reads (f <$> x) p where
  succeeds holds := by
    obtain ⟨a, rfl⟩ := reads.succeeds holds
    exact ⟨f a, rfl⟩
  fails not := by
    obtain ⟨count, large, rfl⟩ := reads.fails not
    exact ⟨count, large, rfl⟩

theorem Reads.bind {x : Except Fault α} {f : α → Except Fault β} (first : Reads x p)
    (second : ∀ a, Reads (f a) q) : Reads (x >>= f) (p ∧ q) := by
  by_cases done : p
  · obtain ⟨a, rfl⟩ := first.succeeds done
    exact (second a).congr ⟨fun holds => ⟨done, holds⟩, And.right⟩
  · obtain ⟨count, large, rfl⟩ := first.fails done
    exact ⟨fun both => absurd both.1 done, fun _ => ⟨count, large, rfl⟩⟩

theorem reads_foldlM {f : β → α → Except Fault β} {P : α → Prop} {as : List α}
    (each : ∀ a ∈ as, ∀ b, Reads (f b a) (P a)) (b : β) : Reads (as.foldlM f b) (∀ a ∈ as, P a) := by
  induction as generalizing b with
  | nil => exact (reads_ok b).congr (by simp)
  | cons a rest ih =>
    have others := fun b' => ih (fun a' mem => each a' (List.mem_cons_of_mem a mem)) b'
    exact ((each a List.mem_cons_self b).bind others).congr (by simp)

theorem reads_mapM {f : α → Except Fault β} {P : α → Prop} {as : List α}
    (each : ∀ a ∈ as, Reads (f a) (P a)) : Reads (as.mapM f) (∀ a ∈ as, P a) := by
  induction as with
  | nil => exact (reads_ok []).congr (by simp)
  | cons a rest ih =>
    have others := ih fun a' mem => each a' (List.mem_cons_of_mem a mem)
    rw [List.mapM_cons]
    refine ((each a List.mem_cons_self).bind fun b => others.bind fun bs => reads_ok (b :: bs)).congr ?_
    simp

/-- A list of steps succeeds where each of them does. -/
theorem mapM_ok_iff {f : α → Except Fault β} {as : List α} :
    (∃ bs, as.mapM f = .ok bs) ↔ ∀ a ∈ as, ∃ b, f a = .ok b := by
  induction as with
  | nil => exact ⟨fun _ => nofun, fun _ => ⟨[], rfl⟩⟩
  | cons a rest ih =>
    rw [List.mapM_cons, List.forall_mem_cons, ← ih]
    cases first : f a with
    | error fault => simp [bind, Except.bind]
    | ok b =>
      cases others : rest.mapM f with
      | error fault => simp [bind, Except.bind]
      | ok bs => exact ⟨fun _ => ⟨⟨b, rfl⟩, bs, rfl⟩, fun _ => ⟨b :: bs, rfl⟩⟩

/-- What a list of steps gives is what each of them gives, in their order. -/
theorem mapM_eq_ok {f : α → Except Fault β} {as : List α} {bs : List β} :
    as.mapM f = .ok bs ↔ List.Forall₂ (fun a b => f a = .ok b) as bs := by
  induction as generalizing bs with
  | nil =>
    rw [List.mapM_nil, List.forall₂_nil_left_iff]
    exact ⟨fun same => (Except.ok.inj same).symm, fun same => congrArg Except.ok same.symm⟩
  | cons a rest ih =>
    rw [List.mapM_cons, List.forall₂_cons_left_iff]
    constructor
    · intro runs
      obtain ⟨b, first, runs⟩ := bind_eq_ok.1 runs
      obtain ⟨others, each, same⟩ := bind_eq_ok.1 runs
      exact ⟨b, others, first, ih.1 each, (Except.ok.inj same).symm⟩
    · rintro ⟨b, others, first, each, rfl⟩
      exact bind_eq_ok.2 ⟨b, first, bind_eq_ok.2 ⟨others, ih.2 each, rfl⟩⟩

/-! ### Steps that may fail, over nothing else -/

theorem run_bind (x : ExceptT Fault Id α) (f : α → ExceptT Fault Id β) :
    Id.run (x >>= f).run = Id.run x.run >>= fun a => Id.run (f a).run := by
  have each : ∀ y : Except Fault α,
      Id.run ((ExceptT.mk y : ExceptT Fault Id α) >>= f).run = y >>= fun a => Id.run (f a).run := by
    intro y
    cases y <;> rfl
  exact each x

theorem run_ofExcept (x : Except Fault α) :
    Id.run (MonadExcept.ofExcept x : ExceptT Fault Id α).run = x := by
  cases x <;> rfl

theorem run_foldlM (f : β → α → ExceptT Fault Id β) (as : List α) (b : β) :
    Id.run (as.foldlM f b).run = as.foldlM (fun b a => Id.run (f b a).run) b := by
  induction as generalizing b with
  | nil => rfl
  | cons a rest ih =>
    rw [List.foldlM_cons, List.foldlM_cons, run_bind]
    exact congrArg _ (funext ih)

end DesignComponents
