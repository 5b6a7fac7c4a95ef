import DesignComponents.Proofs.OrderedMap
import DesignComponents.Store

/-! Entering a value into a store: it comes last, and where no room can be made for it, a store
that did not have its key is as before. Room can be made wherever it can be told how many of the
entries have to go. -/

set_option autoImplicit false

namespace DesignComponents.Store

variable {α : Type} {c : Store α} {now : Number} {key : String} {value : α} {size : Nat}

theorem remove_absent (absent : c.entries.get? key = none) : c.remove key = c := by
  rw [remove, absent]

/-- Removing keeps the other entries, in their order. -/
theorem remove_entries (c : Store α) (key : String) :
    (c.remove key).entries.entries = c.entries.entries.filter fun e => e.1 != key := by
  unfold remove
  cases found : c.entries.get? key with
  | some e => rfl
  | none =>
    symm
    apply List.filter_eq_self.2
    intro e mem
    have other : e.1 ≠ key := by
      rintro rfl
      have held : c.entries.contains e.1 = true :=
        OrderedMap.contains_eq_true.2 (List.mem_map_of_mem mem)
      rw [OrderedMap.contains, found] at held
      exact Bool.false_ne_true held
    exact bne_iff_ne.2 other

theorem foldl_remove_sublist (keys : List String) (c : Store α) :
    (keys.foldl remove c).entries.entries.Sublist c.entries.entries := by
  induction keys generalizing c with
  | nil => exact List.Sublist.refl _
  | cons key rest ih =>
    apply (ih (c.remove key)).trans
    rw [remove_entries]
    exact List.filter_sublist

theorem makeRoom_sublist {c c' : Store α} {size : Nat} (room : c.makeRoom size = .ok c') :
    c'.entries.entries.Sublist c.entries.entries := by
  unfold makeRoom at room
  split at room
  · unfold evict at room
    cases count : evicted c.limits c.count with
    | error f =>
      rw [count] at room
      exact nomatch room
    | ok n =>
      rw [count] at room
      cases room
      exact foldl_remove_sublist _ c
  · cases room
    exact List.Sublist.refl _

/-- A value that is entered comes last, after entries that were there before under other keys. -/
theorem set_ok (entered : (c.set now key value size).1 = .ok ()) : ∃ kept,
    (c.set now key value size).2.entries.entries = kept ++ [(key, ⟨value, now, size⟩)] ∧
      kept.Sublist (c.entries.entries.filter fun e => e.1 != key) := by
  simp only [set] at entered ⊢
  cases room : (c.remove key).makeRoom size with
  | error f =>
    rw [room] at entered
    exact nomatch entered
  | ok c' =>
    have sublist := makeRoom_sublist room
    rw [remove_entries] at sublist
    refine ⟨c'.entries.entries, ?_, sublist⟩
    apply OrderedMap.putEntry_new
    intro mem
    obtain ⟨e, held, same⟩ := List.mem_map.1 mem
    have other := (List.mem_filter.1 (sublist.subset held)).2
    simp [same] at other

/-- Whether a value is entered or not, the keys are those that were there before, and its own. -/
theorem set_keys : ∀ k ∈ (c.set now key value size).2.entries.keys,
    k = key ∨ k ∈ c.entries.keys := by
  have removed : ∀ k ∈ (c.remove key).entries.keys, k ∈ c.entries.keys := by
    intro k mem
    rw [OrderedMap.keys, remove_entries] at mem
    exact (List.filter_sublist.map Prod.fst).subset mem
  intro k mem
  simp only [set] at mem
  cases room : (c.remove key).makeRoom size with
  | error f =>
    rw [room] at mem
    exact .inr (removed k mem)
  | ok c' =>
    rw [room] at mem
    simp only [enter, OrderedMap.keys, OrderedMap.insert, OrderedMap.keys_putEntry] at mem
    have kept := ((makeRoom_sublist room).map Prod.fst).subset
    split at mem
    · exact .inr (removed k (kept mem))
    · rcases List.mem_append.1 mem with mem | mem
      · exact .inr (removed k (kept mem))
      · exact .inl (List.mem_singleton.1 mem)

/-- Where no room can be made, a store without the key is as before. -/
theorem set_error {f : Fault} (absent : c.entries.get? key = none)
    (failed : (c.set now key value size).1 = .error f) : (c.set now key value size).2 = c := by
  simp only [set, remove_absent absent] at failed ⊢
  cases room : c.makeRoom size with
  | ok c' =>
    rw [room] at failed
    exact nomatch failed
  | error f => rfl

section

variable (absent : c.entries.get? key = none)

include absent

theorem set_fits (fits : c.limits.maxSize.lt (.int (c.size + size)) = false) :
    c.set now key value size = (.ok (), c.enter now key value size) := by
  simp only [set, remove_absent absent, makeRoom, fits, Bool.false_eq_true, if_false]

theorem set_full (full : c.limits.maxSize.lt (.int (c.size + size)) = true) {f : Fault}
    (untold : evicted c.limits c.count = .error f) :
    c.set now key value size = (.error f, c) := by
  simp only [set, remove_absent absent, makeRoom, full, if_true, evict, untold]
  rfl

end

/-! ### Where room can be made -/

/-- It can be told how many entries go of up to so many. -/
def Tells (limits : StoreLimits) (count : Nat) : Prop :=
  ∀ n ≤ count, ∃ k, evicted limits n = .ok k

theorem remove_limits (c : Store α) (key : String) : (c.remove key).limits = c.limits := by
  unfold remove
  split <;> rfl

theorem foldl_remove_limits (keys : List String) (c : Store α) :
    (keys.foldl remove c).limits = c.limits := by
  induction keys generalizing c with
  | nil => rfl
  | cons key rest ih => exact (ih (c.remove key)).trans (remove_limits c key)

theorem makeRoom_limits {c c' : Store α} {size : Nat} (room : c.makeRoom size = .ok c') :
    c'.limits = c.limits := by
  unfold makeRoom at room
  split at room
  · unfold evict at room
    cases count : evicted c.limits c.count with
    | error f =>
      rw [count] at room
      exact nomatch room
    | ok n =>
      rw [count] at room
      cases room
      exact foldl_remove_limits _ c
  · cases room
    rfl

theorem set_limits : (c.set now key value size).2.limits = c.limits := by
  rw [← remove_limits c key]
  simp only [set]
  cases room : (c.remove key).makeRoom size with
  | error f => rfl
  | ok c' =>
    have same := makeRoom_limits room
    exact same

theorem count_remove_le (c : Store α) (key : String) : (c.remove key).count ≤ c.count := by
  unfold count OrderedMap.size
  rw [remove_entries]
  exact List.length_filter_le _ _

theorem makeRoom_ok (c : Store α) (size : Nat) (tells : Tells c.limits c.count) :
    ∃ c', c.makeRoom size = .ok c' := by
  unfold makeRoom
  split
  · obtain ⟨n, gone⟩ := tells c.count (Nat.le_refl _)
    unfold evict
    rw [gone]
    exact ⟨_, rfl⟩
  · exact ⟨c, rfl⟩

theorem set_isOk (tells : Tells c.limits c.count) : (c.set now key value size).1 = .ok () := by
  have tells_removed : Tells (c.remove key).limits (c.remove key).count := by
    intro n few
    rw [remove_limits]
    exact tells n (Nat.le_trans few (count_remove_le c key))
  obtain ⟨c', room⟩ := makeRoom_ok (c.remove key) size tells_removed
  simp only [set, room]

theorem set_count (entered : (c.set now key value size).1 = .ok ()) :
    (c.set now key value size).2.count ≤ c.count + 1 := by
  obtain ⟨kept, entries, sublist⟩ := set_ok entered
  have few := (sublist.trans List.filter_sublist).length_le
  unfold count OrderedMap.size
  rw [entries, List.length_append]
  exact Nat.succ_le_succ few

/-- What is held after a value was entered is that value, or was held before. -/
theorem mem_set (entered : (c.set now key value size).1 = .ok ()) {entry : String × StoreEntry α}
    (mem : entry ∈ (c.set now key value size).2.entries.entries) :
    entry = (key, ⟨value, now, size⟩) ∨ entry ∈ c.entries.entries := by
  obtain ⟨kept, entries, sublist⟩ := set_ok entered
  rw [entries] at mem
  rcases List.mem_append.1 mem with old | new
  · exact .inr ((sublist.trans List.filter_sublist).subset old)
  · exact .inl (List.mem_singleton.1 new)

end DesignComponents.Store
