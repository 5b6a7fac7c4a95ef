import DesignComponents.OrderedMap

/-! Ordered maps as the lists of their entries. -/

set_option autoImplicit false

namespace DesignComponents.OrderedMap

variable {α β : Type} {m n : OrderedMap α} {key : String} {v : α}

theorem eq_of_entries (same : m.entries = n.entries) : m = n := by
  obtain ⟨entries, nodup⟩ := m
  obtain ⟨entries', nodup'⟩ := n
  cases same
  rfl

theorem contains_eq_true : m.contains key = true ↔ key ∈ m.keys := by
  simp only [contains, get?, keys]
  induction m.entries with
  | nil => simp
  | cons e rest ih =>
    obtain ⟨key', w⟩ := e
    by_cases same : key = key'
    · simp [same]
    · have other : (key == key') = false := beq_eq_false_iff_ne.2 same
      simp [List.lookup_cons, other, same, ih]

theorem mem_keys_iff : key ∈ m.keys ↔ ∃ v, m.get? key = some v := by
  rw [← contains_eq_true, contains, Option.isSome_iff_exists]

theorem get?_eq_none : m.get? key = none ↔ key ∉ m.keys := by
  rw [mem_keys_iff, Option.eq_none_iff_forall_ne_some, not_exists]

theorem putEntry_new {es : List (String × α)} (fresh : key ∉ es.map Prod.fst) :
    putEntry key v es = es ++ [(key, v)] := by
  induction es with
  | nil => rfl
  | cons e rest ih =>
    simp only [List.map_cons, List.mem_cons, not_or] at fresh
    rw [putEntry, if_neg (Ne.symm fresh.1), ih fresh.2, List.cons_append]

theorem entries_insert_new (fresh : key ∉ m.keys) :
    (m.insert key v).entries = m.entries ++ [(key, v)] := putEntry_new fresh

theorem keys_insert_new (fresh : key ∉ m.keys) : (m.insert key v).keys = m.keys ++ [key] := by
  rw [keys, entries_insert_new fresh, List.map_append, List.map_singleton, keys]

theorem lookup_putEntry_self (es : List (String × α)) :
    (putEntry key v es).lookup key = some v := by
  induction es with
  | nil => simp [putEntry]
  | cons e rest ih =>
    obtain ⟨key', w⟩ := e
    by_cases same : key' = key
    · simp [putEntry, same]
    · have other : (key == key') = false := beq_eq_false_iff_ne.2 (Ne.symm same)
      simp [putEntry, same, List.lookup_cons, other, ih]

theorem lookup_putEntry_other {key' : String} (other : key' ≠ key) (es : List (String × α)) :
    (putEntry key v es).lookup key' = es.lookup key' := by
  have passed : (key' == key) = false := beq_eq_false_iff_ne.2 other
  induction es with
  | nil => simp [putEntry, List.lookup_cons, passed]
  | cons e rest ih =>
    obtain ⟨k, w⟩ := e
    by_cases same : k = key
    · simp [putEntry, same, List.lookup_cons, passed]
    · simp only [putEntry, same, if_false, List.lookup_cons, ih]

theorem get?_insert_self : (m.insert key v).get? key = some v := lookup_putEntry_self m.entries

theorem get?_insert_other {key' : String} (other : key' ≠ key) :
    (m.insert key v).get? key' = m.get? key' := lookup_putEntry_other other m.entries

/-- Where each name comes once, the next one is new, and the others are once it has entered. -/
theorem enter_new {e : String × α} {rest : List (String × α)}
    (nodup : (m.keys ++ (e :: rest).map Prod.fst).Nodup) :
    e.1 ∉ m.keys ∧ ((m.insert e.1 e.2).keys ++ rest.map Prod.fst).Nodup := by
  have fresh : e.1 ∉ m.keys := by
    intro mem
    exact (List.nodup_append.1 nodup).2.2 e.1 mem e.1 (by simp) rfl
  refine ⟨fresh, ?_⟩
  rw [keys, entries_insert_new fresh]
  simpa [keys] using nodup

/-- Where each name comes once, first come first served is all of them. -/
theorem foldl_insert_new {entries : List (String × α)}
    (nodup : (m.keys ++ entries.map Prod.fst).Nodup) :
    (entries.foldl (fun acc e => if acc.contains e.1 then acc else acc.insert e.1 e.2) m).entries =
      m.entries ++ entries := by
  induction entries generalizing m with
  | nil => simp
  | cons e rest ih =>
    obtain ⟨fresh, later⟩ := enter_new nodup
    rw [List.foldl_cons, if_neg (by rwa [contains_eq_true]), ih later, entries_insert_new fresh,
      List.append_assoc]
    rfl

theorem insertAll_new {entries : List (String × α)} (nodup : (m.keys ++ entries.map Prod.fst).Nodup) :
    (m.insertAll entries).entries = m.entries ++ entries := by
  induction entries generalizing m with
  | nil => exact (List.append_nil _).symm
  | cons e rest ih =>
    obtain ⟨fresh, later⟩ := enter_new nodup
    rw [insertAll, List.foldl_cons, ← insertAll, ih later, entries_insert_new fresh, List.append_assoc]
    rfl

/-- A list in which each name comes once is the list of its map's entries. -/
theorem entries_ofList {entries : List (String × α)} (nodup : (entries.map Prod.fst).Nodup) :
    (ofList entries).entries = entries := insertAll_new nodup

@[simp] theorem entries_mapValues (f : α → β) :
    (m.mapValues f).entries = m.entries.map fun e => (e.1, f e.2) := rfl

/-! ### One entry -/

theorem mem_of_lookup {κ : Type} [BEq κ] [LawfulBEq κ] {k : κ} {entries : List (κ × α)}
    (found : entries.lookup k = some v) : (k, v) ∈ entries := by
  obtain ⟨front, back, rfl, -⟩ := List.lookup_eq_some_iff.1 found
  exact List.mem_append_right front List.mem_cons_self

theorem mem_of_get? (found : m.get? key = some v) : (key, v) ∈ m.entries := mem_of_lookup found

/-- An entry stands between others, which are what is left without it. -/
theorem entries_erase (found : m.get? key = some v) : ∃ front back,
    m.entries = front ++ (key, v) :: back ∧ (m.erase key).entries = front ++ back := by
  obtain ⟨front, back, entries, -⟩ := List.lookup_eq_some_iff.1 found
  refine ⟨front, back, entries, ?_⟩
  have nodup := m.nodup_keys
  rw [entries, List.map_append, List.map_cons] at nodup
  obtain ⟨-, nodup_back, apart⟩ := List.nodup_append.1 nodup
  have other : ∀ e ∈ front ++ back, (e.1 != key) = true := by
    intro e mem
    apply bne_iff_ne.2
    rintro rfl
    rcases List.mem_append.1 mem with before | after
    · exact apart e.1 (List.mem_map_of_mem before) e.1 List.mem_cons_self rfl
    · exact (List.nodup_cons.1 nodup_back).1 (List.mem_map.2 ⟨e, after, rfl⟩)
  have kept := List.filter_eq_self.2 other
  simp only [erase, entries, List.filter_append, List.filter_cons, bne_self_eq_false,
    Bool.false_eq_true, if_false] at kept ⊢
  exact kept

theorem get?_of_mem (mem : (key, v) ∈ m.entries) : m.get? key = some v := by
  cases found : m.get? key with
  | none =>
    have held : m.contains key = true := contains_eq_true.2 (List.mem_map_of_mem mem)
    rw [contains, found] at held
    exact nomatch held
  | some w =>
    obtain ⟨front, back, entries, erased⟩ := entries_erase found
    rw [entries, List.mem_append, List.mem_cons] at mem
    have absent : (key, v) ∉ front ++ back := by
      rw [← erased]
      simp [erase]
    rcases mem with before | same | after
    · exact absurd (List.mem_append_left back before) absent
    · cases same
      rfl
    · exact absurd (List.mem_append_right front after) absent

/-- Of all values entered under a name the last counts, and before them what was held. -/
theorem get?_insertAll (m : OrderedMap α) (entries : List (String × α)) (key : String) :
    (m.insertAll entries).get? key = (entries.reverse.lookup key).or (m.get? key) := by
  induction entries generalizing m with
  | nil => rfl
  | cons e rest ih =>
    obtain ⟨key', v⟩ := e
    have step : m.insertAll ((key', v) :: rest) = (m.insert key' v).insertAll rest := rfl
    rw [step, ih, List.reverse_cons, List.lookup_append, Option.or_assoc]
    congr 1
    by_cases same : key = key'
    · rw [same, get?_insert_self]
      simp
    · rw [get?_insert_other same]
      simp [List.lookup_cons, beq_eq_false_iff_ne.2 same]

theorem mem_entries_insert {e : String × α} (mem : e ∈ (m.insert key v).entries) :
    e = (key, v) ∨ e ∈ m.entries := by
  have each : ∀ es : List (String × α), e ∈ putEntry key v es → e = (key, v) ∨ e ∈ es := by
    intro es
    induction es with
    | nil => simp [putEntry]
    | cons e' rest ih =>
      intro mem
      rw [putEntry] at mem
      split at mem
      · rcases List.mem_cons.1 mem with same | mem
        · exact .inl same
        · exact .inr (List.mem_cons_of_mem e' mem)
      · rcases List.mem_cons.1 mem with same | mem
        · exact .inr (same ▸ List.mem_cons_self)
        · exact (ih mem).imp_right (List.mem_cons_of_mem e')
  exact each m.entries mem

theorem mem_entries_insertAll {entries : List (String × α)} {e : String × α}
    (mem : e ∈ (m.insertAll entries).entries) : e ∈ m.entries ∨ e ∈ entries := by
  induction entries generalizing m with
  | nil => exact .inl mem
  | cons first rest ih =>
    have step : m.insertAll (first :: rest) = (m.insert first.1 first.2).insertAll rest := rfl
    rw [step] at mem
    rcases ih mem with mem | mem
    · rcases mem_entries_insert mem with rfl | mem
      · exact .inr List.mem_cons_self
      · exact .inl mem
    · exact .inr (List.mem_cons_of_mem first mem)

theorem mem_of_mem_ofList {entries : List (String × α)} {e : String × α}
    (mem : e ∈ (ofList entries).entries) : e ∈ entries :=
  (mem_entries_insertAll mem).resolve_left List.not_mem_nil

theorem mem_keys_insert {name : String} :
    name ∈ (m.insert key v).keys ↔ name ∈ m.keys ∨ name = key := by
  rw [keys, insert, keys_putEntry, keys]
  split
  · next held =>
    refine ⟨.inl, ?_⟩
    rintro (mem | rfl)
    · exact mem
    · exact held
  · rw [List.mem_append, List.mem_singleton]

theorem mem_keys_insertAll {entries : List (String × α)} :
    key ∈ (m.insertAll entries).keys ↔ key ∈ m.keys ∨ key ∈ entries.map Prod.fst := by
  induction entries generalizing m with
  | nil => simp [insertAll]
  | cons e rest ih =>
    have step : m.insertAll (e :: rest) = (m.insert e.1 e.2).insertAll rest := rfl
    rw [step, ih, mem_keys_insert, List.map_cons, List.mem_cons, or_assoc]

theorem isEmpty_iff : m.isEmpty = true ↔ ∀ key, m.get? key = none := by
  unfold isEmpty
  constructor
  · intro none key
    rw [get?, List.isEmpty_iff.1 none]
    rfl
  · intro none
    apply List.isEmpty_iff.2
    apply List.eq_nil_iff_forall_not_mem.2
    rintro ⟨key, v⟩ mem
    exact nomatch (get?_of_mem mem).symm.trans (none key)

end DesignComponents.OrderedMap
