import DesignComponents.Proofs.Number.Rounding
import DesignComponents.Proofs.Store
import Mathlib.Algebra.BigOperators.Group.List.Basic

/-! What goes when a store is full, and what a store counts. The oldest entries go, a fourth of them
rounded up by the usual share; what goes and what stays are together what there was, and where every
time is a number nothing that goes was stored later than what stays. The size that a store keeps count
of is that of its entries: entries that are overwritten, go to make room, expire or are cleared give
back what they took. -/

set_option autoImplicit false

namespace DesignComponents.Store

variable {α : Type} {c : Store α}

/-! ### How many go -/

/-- The usual share is a fourth, which a double can hold. -/
theorem usual_share :
    ({} : StoreLimits).evictFraction = .real (.finite false (2 ^ 52) (-54)) := by
  decide +kernel

/-- A fourth of a count is not rounded. -/
theorem holds_fourth {count : Nat} (few : count ≤ 2 ^ 53) :
    ∃ x, Number.toReal (.int count) = .ok x ∧
      Binary64.Holds false (count / 4) (x.mul (.finite false (2 ^ 52) (-54))) := by
  obtain ⟨m, e, whole, value⟩ := Binary64.holds_ofInt few
  refine ⟨.finite false m e, by simp only [Number.toReal, whole], ?_⟩
  have product : ((m * 2 ^ 52 : Nat) : ℚ) * 2 ^ (e + -54) = count / 4 := by
    rw [← value, zpow_add₀ two_ne_zero]
    push_cast
    norm_num
    ring
  change Binary64.Holds false _ (Binary64.ofScaled false (m * 2 ^ 52) (e + -54))
  -- The greatest count has a mantissa of one digit more than doubles have.
  rcases few.lt_or_eq with less | most
  · have exact : (count : ℚ) / 4 = count * 2 ^ (-2 : Int) := by
      norm_num
      ring
    rw [exact] at product ⊢
    exact Binary64.holds_ofScaled false less (by decide) (by decide) product
  · have exact : (count : ℚ) / 4 = (2 ^ 51 : Nat) * 2 ^ (0 : Int) := by
      rw [most]
      norm_num
    rw [exact] at product ⊢
    exact Binary64.holds_ofScaled false (by decide) (by decide) (by decide) product

theorem ceiling_fourth {count : Nat} {x : Binary64} (holds : Binary64.Holds false (count / 4) x) :
    ceiling (.real x) = .ok (((count + 3) / 4 : Nat) : Int) := by
  obtain ⟨m, e, rfl, value⟩ := holds
  have upward : ⌈((Binary64.signed false m : Int) : ℚ) * 2 ^ e⌉ = (((count + 3) / 4 : Nat) : Int) := by
    have quotient : ((Binary64.signed false m : Int) : ℚ) * 2 ^ e =
        ((count : Int) : ℚ) / ((4 : Nat) : ℚ) := by
      simpa [Binary64.signed] using value
    rw [quotient, Rat.ceil_intCast_div_natCast]
    omega
  simp only [ceiling, Number.wholeBy, Binary64.ceil?_eq, upward]

/-- By the usual share a fourth of the entries goes, rounded up, as long as counts have doubles of
their own. -/
theorem evicted_fourth {limits : StoreLimits}
    (usual : limits.evictFraction = ({} : StoreLimits).evictFraction) {count : Nat}
    (few : count ≤ 2 ^ 53) : evicted limits count = .ok ((count + 3) / 4) := by
  obtain ⟨x, real, fourth⟩ := holds_fourth few
  have told : Number.mul (.int count) limits.evictFraction =
      .ok (.real (x.mul (.finite false (2 ^ 52) (-54)))) := by
    rw [usual, usual_share]
    change (Number.toReal (.int count) >>= fun a => (Number.toReal (.real _)) >>= fun b =>
      pure (Number.real (a.mul b))) = _
    rw [real]
    rfl
  have nonneg : (0 : Int) ≤ (((count + 3) / 4 : Nat) : Int) := Int.natCast_nonneg _
  simp only [evicted, told, ceiling_fourth fourth, Bind.bind, Except.bind, Pure.pure, Except.pure,
    nonneg, if_true, Int.toNat_natCast]

/-! ### What goes and what stays -/

/-- The entries that were stored first, so many of them. -/
def oldest (c : Store α) (count : Nat) : List (String × StoreEntry α) :=
  (c.entries.entries.mergeSort fun a b => !b.2.storedAt.lt a.2.storedAt).take count

/-- The entries without those that were stored first. -/
def younger (c : Store α) (count : Nat) : List (String × StoreEntry α) :=
  c.entries.entries.filter fun e => e.1 ∉ (c.oldest count).map Prod.fst

theorem entries_foldl_remove (keys : List String) (c : Store α) :
    (keys.foldl remove c).entries.entries = c.entries.entries.filter fun e => e.1 ∉ keys := by
  induction keys generalizing c with
  | nil => simp
  | cons key rest ih =>
    rw [List.foldl_cons, ih, remove_entries, List.filter_filter]
    apply List.filter_congr
    intro e _
    by_cases same : e.1 = key <;> simp [same]

/-- Of entries with keys of their own, those whose keys are not in front are those behind. -/
theorem filter_behind {front back : List (String × StoreEntry α)}
    (nodup : ((front ++ back).map Prod.fst).Nodup) :
    ((front ++ back).filter fun e => e.1 ∉ front.map Prod.fst) = back := by
  rw [List.map_append] at nodup
  have apart := (List.nodup_append.1 nodup).2.2
  have gone : (front.filter fun e => e.1 ∉ front.map Prod.fst) = [] := by
    apply List.filter_eq_nil_iff.2
    intro e mem
    simpa using ⟨e.2, mem⟩
  have kept : (back.filter fun e => e.1 ∉ front.map Prod.fst) = back := by
    apply List.filter_eq_self.2
    intro e mem
    apply decide_eq_true
    intro before
    exact apart e.1 before e.1 (List.mem_map_of_mem mem) rfl
  rw [List.filter_append, gone, kept, List.nil_append]

/-- By age the entries are those that go, and then those that stay. -/
theorem perm_by_age (c : Store α) (count : Nat) :
    ∃ back, c.entries.entries.mergeSort (fun a b => !b.2.storedAt.lt a.2.storedAt) =
      c.oldest count ++ back ∧ back.Perm (c.younger count) := by
  have sorted := List.mergeSort_perm c.entries.entries fun a b => !b.2.storedAt.lt a.2.storedAt
  have split := List.take_append_drop count
    (c.entries.entries.mergeSort fun a b => !b.2.storedAt.lt a.2.storedAt)
  refine ⟨_, split.symm, ?_⟩
  have nodup := ((sorted.map Prod.fst).nodup_iff).2 c.entries.nodup_keys
  rw [← split] at nodup
  have behind := filter_behind nodup
  rw [split] at behind
  rw [← behind]
  exact sorted.filter _

theorem oldest_append_younger (c : Store α) (count : Nat) :
    c.entries.entries.Perm (c.oldest count ++ c.younger count) := by
  obtain ⟨back, sorted, same⟩ := c.perm_by_age count
  have perm := List.mergeSort_perm c.entries.entries fun a b => !b.2.storedAt.lt a.2.storedAt
  rw [sorted] at perm
  exact perm.symm.trans (same.append_left _)

theorem length_younger {n : Nat} (enough : n ≤ c.count) : (c.younger n).length + n = c.count := by
  have total := (c.oldest_append_younger n).length_eq
  have front : (c.oldest n).length = n := by
    rw [oldest, List.length_take, List.length_mergeSort]
    exact Nat.min_eq_left enough
  rw [List.length_append, front] at total
  unfold count OrderedMap.size
  omega

/-- Where all times are numbers, nothing that stays was stored before anything that goes. -/
theorem not_before_oldest (times : ∀ e ∈ c.entries.entries, e.2.storedAt.IsSome) {count : Nat}
    {gone kept : String × StoreEntry α} (goes : gone ∈ c.oldest count)
    (stays : kept ∈ c.younger count) : kept.2.storedAt.lt gone.2.storedAt = false := by
  -- What is not a number would break the order, so numbers are sorted by their values.
  let byValue : String × StoreEntry α → String × StoreEntry α → Bool :=
    fun a b => decide (a.2.storedAt.value ≤ b.2.storedAt.value)
  have agrees : ∀ a ∈ c.entries.entries, ∀ b ∈ c.entries.entries,
      (!b.2.storedAt.lt a.2.storedAt) = byValue a b := by
    intro a mem_a b mem_b
    have less := Number.lt_iff (times b mem_b) (times a mem_a)
    by_cases below : b.2.storedAt.value < a.2.storedAt.value
    · simp [byValue, less.2 below, below]
    · have not_less : b.2.storedAt.lt a.2.storedAt = false :=
        Bool.eq_false_iff.2 fun holds => below (less.1 holds)
      simp [byValue, not_less, not_lt.1 below]
  have same := List.map_mergeSort (f := id) agrees
  rw [List.map_id, List.map_id] at same
  have sorted : (c.entries.entries.mergeSort byValue).Pairwise fun a b => byValue a b = true := by
    apply List.pairwise_mergeSort
    · intro a b d first second
      exact decide_eq_true ((of_decide_eq_true first).trans (of_decide_eq_true second))
    · intro a b
      simpa [byValue] using le_total a.2.storedAt.value b.2.storedAt.value
  obtain ⟨back, split, perm⟩ := c.perm_by_age count
  rw [← same, split] at sorted
  have order := (List.pairwise_append.1 sorted).2.2 gone goes kept (perm.mem_iff.2 stays)
  have mem_gone : gone ∈ c.entries.entries :=
    (c.oldest_append_younger count).mem_iff.2 (List.mem_append_left _ goes)
  have mem_kept : kept ∈ c.entries.entries := (List.mem_filter.1 stays).1
  rw [← agrees gone mem_gone kept mem_kept] at order
  simpa using order

variable {now : Number} {key : String} {value : α} {size : Nat}

/-! ### What entries take -/

/-- What entries take together. -/
def weight (entries : List (String × StoreEntry α)) : Nat := (entries.map fun e => e.2.size).sum

@[simp] theorem weight_nil : weight ([] : List (String × StoreEntry α)) = 0 := rfl

@[simp] theorem weight_append (front back : List (String × StoreEntry α)) :
    weight (front ++ back) = weight front + weight back := by
  simp [weight]

@[simp] theorem weight_cons (e : String × StoreEntry α) (rest : List (String × StoreEntry α)) :
    weight (e :: rest) = e.2.size + weight rest := by
  simp [weight]

/-- The size kept count of is what the entries take. -/
def Balanced (c : Store α) : Prop := c.size = weight c.entries.entries

theorem Balanced.remove (balanced : c.Balanced) (key : String) : (c.remove key).Balanced := by
  cases found : c.entries.get? key with
  | none =>
    rw [remove_absent found]
    exact balanced
  | some e =>
    obtain ⟨front, back, entries, erased⟩ := OrderedMap.entries_erase found
    unfold Balanced at balanced ⊢
    simp only [Store.remove, found, erased]
    rw [balanced, entries]
    simp only [weight_append, weight_cons]
    omega

theorem Balanced.foldl_remove (balanced : c.Balanced) (keys : List String) :
    (keys.foldl Store.remove c).Balanced := by
  induction keys generalizing c with
  | nil => exact balanced
  | cons key rest ih => exact ih (balanced.remove key)

theorem Balanced.clear (c : Store α) : c.clear.Balanced := rfl

theorem Balanced.get (balanced : c.Balanced) (now : Number) (key : String) :
    (c.get now key).2.Balanced := by
  unfold Store.get
  split
  · exact balanced
  · split
    · exact balanced.remove key
    · exact balanced

/-! ### Entering a value -/

/-- The store without the key makes room by letting its oldest entries go. -/
def roomy (c : Store α) (key : String) (count : Nat) : Store α :=
  (((c.remove key).oldest count).map Prod.fst).foldl remove (c.remove key)

/-- The entries under other keys take more than is left for a value of that size. -/
def Overflows (c : Store α) (key : String) (size : Nat) : Prop :=
  c.limits.maxSize.lt (.int ((c.remove key).size + size)) = true

instance (c : Store α) (key : String) (size : Nat) : Decidable (c.Overflows key size) :=
  inferInstanceAs (Decidable (_ = true))

/-- How many entries go to make room in a store without the key. -/
def evictedFor (c : Store α) (key : String) : Except Fault Nat :=
  evicted c.limits (c.remove key).count

/-- A value is entered beside the others, or after the oldest of them have gone, or not at all. -/
theorem set_cases (c : Store α) (now : Number) (key : String) (value : α) (size : Nat) :
    (¬ c.Overflows key size ∧
      c.set now key value size = (.ok (), (c.remove key).enter now key value size)) ∨
    (c.Overflows key size ∧ ∃ count, c.evictedFor key = .ok count ∧
      c.set now key value size = (.ok (), (c.roomy key count).enter now key value size)) ∨
    (c.Overflows key size ∧ ∃ f, c.evictedFor key = .error f ∧
      c.set now key value size = (.error f, c.remove key)) := by
  have limits := remove_limits c key
  unfold Overflows evictedFor
  rw [← limits]
  by_cases full : (c.remove key).limits.maxSize.lt (.int ((c.remove key).size + size)) = true
  · cases told : evicted (c.remove key).limits (c.remove key).count with
    | error f =>
      refine .inr (.inr ⟨full, f, rfl, ?_⟩)
      simp only [set, makeRoom, full, if_true, evict, told]
      rfl
    | ok count =>
      refine .inr (.inl ⟨full, count, rfl, ?_⟩)
      have keys : (c.remove key).byAge.take count = ((c.remove key).oldest count).map Prod.fst := by
        rw [oldest, List.map_take]
        rfl
      simp only [set, makeRoom, full, if_true, evict, told, roomy, ← keys]
      rfl
  · refine .inl ⟨full, ?_⟩
    simp only [set, makeRoom, Bool.eq_false_iff.2 full, Bool.false_eq_true, if_false]

theorem roomy_entries (c : Store α) (key : String) (count : Nat) :
    (c.roomy key count).entries.entries = (c.remove key).younger count :=
  entries_foldl_remove _ _

theorem remove_fresh (c : Store α) (key : String) : key ∉ (c.remove key).entries.keys := by
  rw [OrderedMap.keys, remove_entries]
  simp

theorem roomy_fresh (c : Store α) (key : String) (count : Nat) :
    key ∉ (c.roomy key count).entries.keys := by
  intro mem
  rw [OrderedMap.keys, roomy_entries] at mem
  exact c.remove_fresh key ((List.filter_sublist.map Prod.fst).subset mem)

theorem enter_entries (fresh : key ∉ c.entries.keys) :
    (c.enter now key value size).entries.entries =
      c.entries.entries ++ [(key, ⟨value, now, size⟩)] :=
  OrderedMap.putEntry_new fresh

theorem Balanced.enter (balanced : c.Balanced) (fresh : key ∉ c.entries.keys) :
    (c.enter now key value size).Balanced := by
  unfold Balanced at balanced ⊢
  rw [enter_entries fresh]
  simp only [Store.enter, balanced, weight_append, weight_cons, weight_nil]
  omega

theorem Balanced.roomy (balanced : c.Balanced) (key : String) (count : Nat) :
    (c.roomy key count).Balanced := (balanced.remove key).foldl_remove _

theorem Balanced.set (balanced : c.Balanced) (now : Number) (key : String) (value : α)
    (size : Nat) : (c.set now key value size).2.Balanced := by
  obtain ⟨-, same⟩ | ⟨-, count, -, same⟩ | ⟨-, f, -, same⟩ := c.set_cases now key value size
  · rw [same]
    exact (balanced.remove key).enter (c.remove_fresh key)
  · rw [same]
    exact (balanced.roomy key count).enter (c.roomy_fresh key count)
  · rw [same]
    exact balanced.remove key

/-- What is held after a value was given is that value, or was held before under another key. -/
theorem mem_set_other {e : String × StoreEntry α}
    (mem : e ∈ (c.set now key value size).2.entries.entries) :
    e = (key, ⟨value, now, size⟩) ∨ (e ∈ c.entries.entries ∧ e.1 ≠ key) := by
  have other : ∀ e ∈ (c.remove key).entries.entries, e ∈ c.entries.entries ∧ e.1 ≠ key := by
    intro e mem
    rw [remove_entries, List.mem_filter, bne_iff_ne] at mem
    exact mem
  obtain ⟨-, same⟩ | ⟨-, count, -, same⟩ | ⟨-, f, -, same⟩ := c.set_cases now key value size
  · rw [same, enter_entries (c.remove_fresh key), List.mem_append, List.mem_singleton] at mem
    exact mem.symm.imp_right (other e)
  · rw [same, enter_entries (c.roomy_fresh key count), roomy_entries, List.mem_append,
      List.mem_singleton] at mem
    exact mem.symm.imp_right fun stays => other e (List.mem_filter.1 stays).1
  · rw [same] at mem
    exact .inr (other e mem)

end DesignComponents.Store
