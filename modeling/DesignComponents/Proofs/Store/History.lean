import DesignComponents.Json.Printer
import DesignComponents.Proofs.Store.Balance

/-! A store after any actions. Its size is that of the values in it, and what is read under a key was
the last value given under it, has not been cleared since and has not expired. A store that is full
lets the oldest fourth of its entries go, and nothing else. -/

set_option autoImplicit false

namespace DesignComponents.Store

inductive Action (α : Type) where
  | set (key : String) (value : α)
  | get (key : String)
  /-- Asks whether there is a value under the key, by reading it. -/
  | contains (key : String)
  | clear

variable {α : Type} {c : Store α} {past : List (Number × Action α)}

/-- What an action makes of a store, by the size of a value and what the clock shows. -/
def act (measure : α → Nat) (now : Number) (c : Store α) : Action α → Store α
  | .set key value => (c.set now key value (measure value)).2
  | .get key | .contains key => (c.get now key).2
  | .clear => c.clear

/-- An empty store after actions with what the clock showed at each, the latest first. -/
def after (measure : α → Nat) (limits : StoreLimits) : List (Number × Action α) → Store α
  | [] => { limits }
  | (now, action) :: past => (after measure limits past).act measure now action

/-- What was last given under a key and when, unless the store was cleared since. -/
def latest? (key : String) : List (Number × Action α) → Option (Number × α)
  | [] | (_, .clear) :: _ => none
  | (now, .set key' value) :: past => if key' = key then some (now, value) else latest? key past
  | (_, .get _) :: past | (_, .contains _) :: past => latest? key past

/-! ### One action -/

/-- What a store holds is what it was given, with the sizes and times of that. -/
structure Faithful (measure : α → Nat) (past : List (Number × Action α)) (c : Store α) : Prop where
  balanced : c.Balanced
  measured : ∀ e ∈ c.entries.entries, e.2.size = measure e.2.value
  latest : ∀ e ∈ c.entries.entries, latest? e.1 past = some (e.2.storedAt, e.2.value)

variable {measure : α → Nat}

theorem faithful_set (faithful : c.Faithful measure past) (now : Number) (key : String)
    (value : α) :
    Faithful measure ((now, .set key value) :: past) (c.set now key value (measure value)).2 where
  balanced := faithful.balanced.set now key value (measure value)
  measured e mem := by
    rcases mem_set_other mem with rfl | ⟨held, -⟩
    · rfl
    · exact faithful.measured e held
  latest e mem := by
    rcases mem_set_other mem with rfl | ⟨held, other⟩
    · exact if_pos rfl
    · exact (if_neg other.symm).trans (faithful.latest e held)

theorem faithful_get (faithful : c.Faithful measure past) (now : Number) (key : String) :
    Faithful measure past (c.get now key).2 := by
  have sub : ∀ e ∈ (c.get now key).2.entries.entries, e ∈ c.entries.entries := by
    intro e mem
    unfold Store.get at mem
    split at mem
    · exact mem
    · split at mem
      · rw [remove_entries] at mem
        exact (List.mem_filter.1 mem).1
      · exact mem
  exact ⟨faithful.balanced.get now key, fun e mem => faithful.measured e (sub e mem),
    fun e mem => faithful.latest e (sub e mem)⟩

theorem faithful_act (faithful : c.Faithful measure past) (now : Number) (action : Action α) :
    Faithful measure ((now, action) :: past) (c.act measure now action) := by
  cases action with
  | set key value => exact faithful_set faithful now key value
  | get key =>
    obtain ⟨balanced, measured, latest⟩ := faithful_get faithful now key
    exact ⟨balanced, measured, latest⟩
  | contains key =>
    obtain ⟨balanced, measured, latest⟩ := faithful_get faithful now key
    exact ⟨balanced, measured, latest⟩
  | clear => exact ⟨Balanced.clear c, nofun, nofun⟩

/-! ### All actions -/

theorem faithful_after (measure : α → Nat) (limits : StoreLimits)
    (past : List (Number × Action α)) : Faithful measure past (after measure limits past) := by
  induction past with
  | nil => exact ⟨rfl, nofun, nofun⟩
  | cons timed past ih => exact faithful_act ih timed.1 timed.2

theorem act_limits (measure : α → Nat) (now : Number) (c : Store α) (action : Action α) :
    (c.act measure now action).limits = c.limits := by
  have get_limits : ∀ key, (c.get now key).2.limits = c.limits := by
    intro key
    unfold Store.get
    split
    · rfl
    · split
      · exact remove_limits c key
      · rfl
  cases action with
  | set key value => exact set_limits
  | get key => exact get_limits key
  | contains key => exact get_limits key
  | clear => rfl

theorem after_limits (measure : α → Nat) (limits : StoreLimits)
    (past : List (Number × Action α)) : (after measure limits past).limits = limits := by
  induction past with
  | nil => rfl
  | cons timed past ih => exact (act_limits measure timed.1 _ timed.2).trans ih

/-- What values take together. -/
def totalSize (measure : α → Nat) (entries : List (String × StoreEntry α)) : Nat :=
  (entries.map fun e => measure e.2.value).sum

/-- The entries under other keys. -/
def others (c : Store α) (key : String) : List (String × StoreEntry α) :=
  c.entries.entries.filter fun e => e.1 != key

theorem Faithful.weight (faithful : c.Faithful measure past) {es : List (String × StoreEntry α)}
    (sub : ∀ e ∈ es, e ∈ c.entries.entries) : weight es = totalSize measure es :=
  congrArg List.sum (List.map_congr_left fun e mem => faithful.measured e (sub e mem))

theorem get_some {now : Number} {key : String} {value : α}
    (found : (c.get now key).1 = some value) : ∃ e, c.entries.get? key = some e ∧
      e.value = value ∧ c.limits.ttlSeconds.lt (now.gap e.storedAt) = false := by
  unfold Store.get at found
  split at found
  · exact nomatch found
  · next e held =>
    split at found
    · exact nomatch found
    · next fresh => exact ⟨e, held, Option.some.inj found, Bool.eq_false_iff.2 fresh⟩

theorem get_expired {now : Number} {key : String} {e : StoreEntry α}
    (held : c.entries.get? key = some e)
    (late : c.limits.ttlSeconds.lt (now.gap e.storedAt) = true) :
    c.get now key = (none, c.remove key) := by
  have expired : c.isExpired now e = true := late
  simp only [Store.get, held, expired, if_true]

/-- Of the entries a fourth is gone, rounded up, and where all times are numbers none of what is
gone was stored later than any that is kept. -/
structure OldestGone (entries kept : List (String × StoreEntry α)) : Prop where
  sublist : kept.Sublist entries
  fourth : kept.length + (entries.length + 3) / 4 = entries.length
  order : (∀ e ∈ entries, e.2.storedAt.IsSome) →
    ∀ gone ∈ entries, gone ∉ kept → ∀ e ∈ kept, e.2.storedAt.lt gone.2.storedAt = false

theorem oldestGone_younger (c : Store α) :
    OldestGone c.entries.entries (c.younger ((c.count + 3) / 4)) where
  sublist := List.filter_sublist
  fourth := length_younger (by omega)
  order times gone mem goes e stays := by
    rcases List.mem_append.1 ((c.oldest_append_younger _).mem_iff.1 mem) with old | young
    · exact not_before_oldest times old stays
    · exact absurd young goes

/-- Where a value does not fit beside the others, the oldest fourth of them goes for it. -/
theorem set_overflow (faithful : c.Faithful measure past)
    (usual : c.limits.evictFraction = ({} : StoreLimits).evictFraction) {key : String}
    (few : (c.others key).length ≤ 2 ^ 53) (now : Number) (value : α)
    (exceeds : c.limits.maxSize.lt (.int (totalSize measure (c.others key) + measure value : Nat)) = true) :
    ∃ kept, OldestGone (c.others key) kept ∧ (c.set now key value (measure value)).1 = .ok () ∧
      (c.set now key value (measure value)).2.entries.entries =
        kept ++ [(key, ⟨value, now, measure value⟩)] := by
  have entries : (c.remove key).entries.entries = c.others key := remove_entries c key
  have size : (c.remove key).size = totalSize measure (c.others key) := by
    have sub : ∀ e ∈ c.others key, e ∈ c.entries.entries := fun e mem => (List.mem_filter.1 mem).1
    rw [faithful.balanced.remove key, entries, faithful.weight sub]
  have overflows : c.Overflows key (measure value) := by
    unfold Overflows
    rw [size]
    exact exceeds
  have count : (c.remove key).count = (c.others key).length := congrArg List.length entries
  -- The fraction is a fourth, and up to this count a fourth of it is a double.
  have fourth : c.evictedFor key = .ok (((c.remove key).count + 3) / 4) := by
    rw [evictedFor, count]
    exact evicted_fourth usual few
  obtain ⟨fits, -⟩ | ⟨-, n, told, same⟩ | ⟨-, f, told, -⟩ :=
    c.set_cases now key value (measure value)
  · exact absurd overflows fits
  · cases told.symm.trans fourth
    refine ⟨(c.remove key).younger (((c.remove key).count + 3) / 4), ?_, by rw [same], ?_⟩
    · rw [← entries]
      exact oldestGone_younger _
    · rw [same, enter_entries (c.roomy_fresh key _), roomy_entries]
  · cases told.symm.trans fourth

/-- What can be told of a store from what was done with it. -/
structure Lawful (measure : α → Nat) (past : List (Number × Action α)) (c : Store α) : Prop where
  size : c.size = totalSize measure c.entries.entries
  once : c.entries.keys.Nodup
  /-- What is read was given last, was not cleared, and is not too old. -/
  found : ∀ now key value, (c.get now key).1 = some value → ∃ time,
    latest? key past = some (time, value) ∧ c.limits.ttlSeconds.lt (now.gap time) = false ∧
      ((now.gap time).IsSome → c.limits.ttlSeconds.IsSome →
        (now.gap time).le c.limits.ttlSeconds = true)
  /-- What has expired goes when it is read, and nothing else does. -/
  expired : ∀ now key e, c.entries.get? key = some e →
    c.limits.ttlSeconds.lt (now.gap e.storedAt) = true →
      (c.get now key).1 = none ∧ (c.get now key).2.entries.entries = c.others key
  /-- A value that would not fit takes the place of the oldest fourth of the others. -/
  room : ∀ now key value, c.limits.evictFraction = ({} : StoreLimits).evictFraction →
    (c.others key).length ≤ 2 ^ 53 →
    c.limits.maxSize.lt (.int (totalSize measure (c.others key) + measure value : Nat)) = true →
    ∃ kept, OldestGone (c.others key) kept ∧ (c.set now key value (measure value)).1 = .ok () ∧
      (c.set now key value (measure value)).2.entries.entries =
        kept ++ [(key, ⟨value, now, measure value⟩)]

/-- Whatever is done with a store, in whatever order and whatever the clock shows. -/
theorem after_lawful (measure : α → Nat) (limits : StoreLimits)
    (past : List (Number × Action α)) :
    (after measure limits past).limits = limits ∧
      Lawful measure past (after measure limits past) := by
  have faithful := faithful_after measure limits past
  refine ⟨after_limits measure limits past, ?_, OrderedMap.nodup_keys _, ?_, ?_, ?_⟩
  · rw [faithful.balanced, faithful.weight fun _ mem => mem]
  · intro now key value found
    obtain ⟨e, held, rfl, fresh⟩ := get_some found
    refine ⟨e.storedAt, faithful.latest _ (OrderedMap.mem_of_get? held), fresh, ?_⟩
    intro some_age some_ttl
    exact Number.le_of_not_lt some_ttl some_age fresh
  · intro now key e held late
    rw [get_expired held late]
    exact ⟨rfl, remove_entries _ key⟩
  · intro now key value usual few exceeds
    exact set_overflow faithful usual few now value exceeds

/-! ### Times and counts that do not serve -/

theorem mergeSort_four {β : Type} {le : β → β → Bool} {a b c d : β} (first : le a b = true)
    (second : le c d = true) (outer : le a c = true) (inner : le b c = true) :
    [a, b, c, d].mergeSort le = [a, b, c, d] := by
  simp [List.mergeSort, List.MergeSort.Internal.splitInTwo, first, second, outer, inner]

/-- A full store with a time that is no number between others. -/
def disordered : Store Unit :=
  after (fun _ => 1) { maxSize := 4 }
    [(1, .set "d" ()), (.real .nan, .set "c" ()), (6, .set "b" ()), (5, .set "a" ())]

theorem disordered_set : (disordered.set 7 "e" () 1).2.entries.keys = ["b", "c", "d", "e"] := by
  have entries : (disordered.remove "e").entries.entries =
      [("a", ⟨(), 5, 1⟩), ("b", ⟨(), 6, 1⟩), ("c", ⟨(), .real .nan, 1⟩), ("d", ⟨(), 1, 1⟩)] := rfl
  have first : ((disordered.remove "e").oldest 1).map Prod.fst = ["a"] := by
    rw [oldest, entries, mergeSort_four (by decide) (by decide) (by decide) (by decide)]
    rfl
  obtain ⟨fits, -⟩ | ⟨-, n, told, same⟩ | ⟨-, f, told, -⟩ := disordered.set_cases 7 "e" () 1
  · exact absurd (by decide) fits
  · have one : disordered.evictedFor "e" = .ok 1 := by decide +kernel
    cases told.symm.trans one
    rw [same, OrderedMap.keys, enter_entries (disordered.roomy_fresh "e" _), roomy_entries, younger,
      first, entries]
    rfl
  · have one : disordered.evictedFor "e" = .ok 1 := by decide +kernel
    cases told.symm.trans one

/-- A time without end has no age that could be compared. A time that is no number lets an older
entry stay where a younger one goes. Of more entries than doubles can count, a fourth is rounded
down. -/
theorem not_every_reading_orders :
    (((after (fun _ : Unit => 1) {} [(.real (.infinite false), .set "a" ())]).get
        (.real (.infinite false)) "a").1 = some () ∧
      ((Number.real (.infinite false)).gap (.real (.infinite false))).le
        ({} : StoreLimits).ttlSeconds = false) ∧
    (disordered.entries.keys = ["a", "b", "c", "d"] ∧
      (disordered.set 7 "e" () 1).2.entries.keys = ["b", "c", "d", "e"] ∧
      (disordered.entries.get? "a").map (·.storedAt) = some 5 ∧
      (disordered.entries.get? "d").map (·.storedAt) = some 1) ∧
    evicted {} (2 ^ 53 + 1) = .ok (2 ^ 51) := by
  refine ⟨by decide +kernel, ⟨by decide +kernel, disordered_set, by decide +kernel, by decide +kernel⟩,
    by decide +kernel⟩

end DesignComponents.Store
