import DesignComponents.Proofs.Store.History

/-! When a store stays within its limit. One eviction is made for a value that does not fit, by age
and not by size; so the limit holds exactly where the entries that go take as much as is missing. -/

set_option autoImplicit false

namespace DesignComponents.Store

variable {α : Type} {c : Store α} {measure : α → Nat} {limits : StoreLimits}

/-- The size is at most the limit. -/
def Within (c : Store α) : Prop := (Number.int c.size).le c.limits.maxSize = true

instance (c : Store α) : Decidable c.Within := inferInstanceAs (Decidable (_ = true))

/-- Where the value does not fit, what stays and the value are within the limit. -/
def FreesEnough (c : Store α) (key : String) (size : Nat) : Prop :=
  c.Overflows key size → ∀ count, c.evictedFor key = .ok count →
    (Number.int (weight ((c.remove key).younger count) + size : Nat)).le c.limits.maxSize = true

theorem int_isSome (n : Int) : (Number.int n).IsSome := nofun

/-- Fewer bytes are within a limit that more are within. -/
theorem le_of_int_le {m n : Int} {limit : Number} (some_limit : limit.IsSome) (less : m ≤ n)
    (within : (Number.int n).le limit = true) : (Number.int m).le limit = true := by
  have below : (Number.int m).le (Number.int n) = true := by
    apply Number.le_of_not_lt (int_isSome n) (int_isSome m)
    apply Bool.eq_false_iff.2
    intro more
    exact absurd ((Number.lt_int n m).1 more) (not_lt.2 less)
  exact Number.le_trans (int_isSome m) (int_isSome n) some_limit below within

theorem Within.remove (within : c.Within) (some_limit : c.limits.maxSize.IsSome) (key : String) :
    (c.remove key).Within := by
  have less : (c.remove key).size ≤ c.size := by
    unfold Store.remove
    split
    · exact Int.sub_le_self _ (Int.natCast_nonneg _)
    · exact Int.le_refl _
  unfold Within
  rw [remove_limits]
  exact le_of_int_le some_limit less within

theorem within_set_iff (balanced : c.Balanced) (within : c.Within)
    (some_limit : c.limits.maxSize.IsSome) (now : Number) (key : String) (value : α) (size : Nat) :
    (c.set now key value size).2.Within ↔ c.FreesEnough key size := by
  have limits : (c.set now key value size).2.limits = c.limits := set_limits
  -- There is room, or room is made, or it cannot be told how much to make.
  obtain ⟨fits, same⟩ | ⟨full, count, told, same⟩ | ⟨full, f, told, same⟩ :=
    c.set_cases now key value size
  · refine iff_of_true ?_ fun full => absurd full fits
    unfold Within
    rw [limits, same]
    exact Number.le_of_not_lt some_limit (int_isSome _) (Bool.eq_false_iff.2 fits)
  · have entered : (c.set now key value size).2.size =
        (weight ((c.remove key).younger count) + size : Nat) := by
      have kept := balanced.roomy key count
      rw [Balanced, roomy_entries] at kept
      rw [same, Nat.cast_add, ← kept]
      rfl
    unfold Within
    rw [limits, entered]
    refine ⟨fun holds _ count' told' => ?_, fun holds => holds full count told⟩
    cases told.symm.trans told'
    exact holds
  · have untold : c.FreesEnough key size := fun _ count told' => nomatch told.symm.trans told'
    refine iff_of_true ?_ untold
    rw [same]
    exact within.remove some_limit key

theorem within_get (within : c.Within) (some_limit : c.limits.maxSize.IsSome) (now : Number)
    (key : String) : (c.get now key).2.Within := by
  unfold Store.get
  split
  · exact within
  · split
    · exact within.remove some_limit key
    · exact within

/-- Every value that is given finds enough freed for it, where it does not fit. -/
def Frees (measure : α → Nat) (limits : StoreLimits) (past : List (Number × Action α)) : Prop :=
  ∀ now key value earlier, (now, .set key value) :: earlier <:+ past →
    (after measure limits earlier).FreesEnough key (measure value)

theorem frees_cons_iff (measure : α → Nat) (limits : StoreLimits) (now : Number)
    (action : Action α) (past : List (Number × Action α)) :
    Frees measure limits ((now, action) :: past) ↔
      (∀ key value, action = .set key value →
        (after measure limits past).FreesEnough key (measure value)) ∧ Frees measure limits past := by
  constructor
  · intro frees
    constructor
    · rintro key value rfl
      exact frees now key value past (List.suffix_refl _)
    · intro now' key value earlier suffix
      exact frees now' key value earlier (suffix.trans (List.suffix_cons _ _))
  · rintro ⟨last, before⟩ now' key value earlier suffix
    rcases List.suffix_cons_iff.1 suffix with same | within
    · obtain ⟨⟨-, rfl⟩, rfl⟩ : (now' = now ∧ .set key value = action) ∧ earlier = past := by
        simpa using same
      exact last key value rfl
    · exact before now' key value earlier within

theorem within_empty {limits : StoreLimits} (nonneg : Number.le 0 limits.maxSize = true) :
    ({ limits } : Store α).Within := nonneg

/-- One action keeps a store within its limit, unless it gives a value that finds too little. -/
theorem within_act_iff (nonneg : Number.le 0 c.limits.maxSize = true) (balanced : c.Balanced)
    (within : c.Within) (measure : α → Nat) (now : Number) (action : Action α) :
    (c.act measure now action).Within ↔
      ∀ key value, action = .set key value → c.FreesEnough key (measure value) := by
  have some_limit : c.limits.maxSize.IsSome := by
    intro none
    rw [Number.le, none] at nonneg
    exact nomatch nonneg
  cases action with
  | set key value =>
    refine (within_set_iff balanced within some_limit now key value (measure value)).trans ?_
    constructor
    · rintro frees _ _ ⟨⟩
      exact frees
    · intro frees
      exact frees key value rfl
  | get key | contains key => exact iff_of_true (within_get within some_limit now key) nofun
  | clear => exact iff_of_true (within_empty nonneg) nofun

/-- A store is within its limit at all times exactly where each value that does not fit finds that
the oldest entries, which go for it, take as much as is missing. -/
theorem within_iff_frees (measure : α → Nat) {limits : StoreLimits}
    (nonneg : Number.le 0 limits.maxSize = true) (past : List (Number × Action α)) :
    (∀ earlier, earlier <:+ past → (after measure limits earlier).Within) ↔
      Frees measure limits past := by
  -- By induction on what was done: the last action is judged where all before it kept the limit.
  induction past with
  | nil =>
    refine iff_of_true ?_ ?_
    · intro earlier suffix
      rw [List.suffix_nil.1 suffix]
      exact within_empty nonneg
    · intro now key value earlier suffix
      exact nomatch List.suffix_nil.1 suffix
  | cons timed past ih =>
    obtain ⟨now, action⟩ := timed
    have limit := after_limits measure limits past
    have balanced := (faithful_after measure limits past).balanced
    have step : (after measure limits past).Within →
        ((after measure limits ((now, action) :: past)).Within ↔ _) :=
      fun within => within_act_iff (limit.symm ▸ nonneg) balanced within measure now action
    rw [frees_cons_iff, ← ih]
    constructor
    · intro within
      have before : ∀ earlier, earlier <:+ past → (after measure limits earlier).Within :=
        fun earlier suffix => within earlier (suffix.trans (List.suffix_cons _ _))
      exact ⟨(step (before past (List.suffix_refl _))).1 (within _ (List.suffix_refl _)), before⟩
    · rintro ⟨last, before⟩ earlier suffix
      rcases List.suffix_cons_iff.1 suffix with rfl | suffix
      · exact (step (before past (List.suffix_refl _))).2 last
      · exact before earlier suffix

/-- A store that holds a small value and a large one, the small one longer. -/
def lopsided : List (Number × Action Nat) := [(2, .set "b" 8), (1, .set "a" 1)]

theorem mergeSort_two {β : Type} {le : β → β → Bool} {a b : β} (holds : le a b = true) :
    [a, b].mergeSort le = [a, b] := by
  simp [List.mergeSort, List.MergeSort.Internal.splitInTwo, holds]

/-- For a third value the small one goes. -/
theorem lopsided_set (now : Number) (size : Nat) (exceeds : 1 < size) :
    (after id { maxSize := 10 } ((now, .set "c" size) :: lopsided)).size = 8 + size := by
  have entries : ((after id { maxSize := 10 } lopsided).remove "c").entries.entries =
      [("a", ⟨1, 1, 1⟩), ("b", ⟨8, 2, 8⟩)] := rfl
  have first : ((after id { maxSize := 10 } lopsided).remove "c").younger 1 =
      [("b", ⟨8, 2, 8⟩)] := by
    rw [younger, oldest, entries, mergeSort_two (by decide)]
    rfl
  have one : (after id { maxSize := 10 } lopsided).evictedFor "c" = .ok 1 := by decide +kernel
  have balanced := (faithful_after id { maxSize := 10 } lopsided).balanced
  have kept := balanced.roomy "c" 1
  rw [Balanced, roomy_entries, first] at kept
  obtain ⟨fits, -⟩ | ⟨-, n, told, same⟩ | ⟨-, f, told, -⟩ :=
    (after id { maxSize := 10 } lopsided).set_cases now "c" size size
  · refine absurd ?_ fits
    exact (Number.lt_int 10 (9 + size)).2 (by omega)
  · cases told.symm.trans one
    exact (congrArg (fun made => made.2.size) same).trans (congrArg (· + (size : Int)) kept)
  · cases told.symm.trans one

/-- With a value of two bytes the limit is kept. -/
theorem within_iff_frees_lopsided :
    Number.le 0 10 = true ∧ Frees id { maxSize := 10 } ((3, .set "c" 2) :: lopsided) := by
  have nonneg : Number.le 0 ({ maxSize := 10 } : StoreLimits).maxSize = true := by decide
  refine ⟨nonneg, (within_iff_frees id nonneg _).1 ?_⟩
  intro earlier suffix
  rcases List.suffix_cons_iff.1 suffix with rfl | suffix
  · unfold Within
    rw [lopsided_set 3 2 (by decide), after_limits]
    decide
  · rcases List.suffix_cons_iff.1 suffix with rfl | suffix
    · decide
    · rcases List.suffix_cons_iff.1 suffix with rfl | suffix
      · decide
      · rw [List.suffix_nil.1 suffix]
        decide

/-- With one of ten bytes, which is all that the store may take, it takes eighteen. -/
theorem size_may_exceed_limit :
    (∀ size ∈ [1, 8, 10], (Number.int size).le 10 = true) ∧
      (after id { maxSize := 10 } ((3, .set "c" 10) :: lopsided)).size = 18 ∧
      ¬ (after id { maxSize := 10 } ((3, .set "c" 10) :: lopsided)).Within := by
  have size : (after id { maxSize := 10 } ((3, .set "c" 10) :: lopsided)).size = 18 :=
    lopsided_set 3 10 (by decide)
  refine ⟨by decide, size, ?_⟩
  unfold Within
  rw [size, after_limits]
  decide

end DesignComponents.Store
