import DesignComponents.Proofs.OrderedMap
import DesignComponents.Proofs.Style.ClassName
import Mathlib.Data.Finset.Card

/-! Pools of classes. A node keeps the class that it was given first, no other node is ever given
it, and the counter counts the nodes. -/

set_option autoImplicit false

namespace DesignComponents.Identifier.ClassPool

variable {n : ClassPool} {id id' base : String} {layer : Option String} {name : String}

/-! ### One node -/

/-- A node that is known has its class, and nothing changes; a new one gets the next number. -/
theorem draw_cases (n : ClassPool) (id : String) (layer : Option String) :
    (∃ name, n.used.get? id = some name ∧ n.draw id layer = (name, n)) ∨
    (n.used.get? id = none ∧ n.draw id layer =
      (className n.stem (baseOf layer) (n.counter + 1), { n with
        counter := n.counter + 1
        used := n.used.insert id (className n.stem (baseOf layer) (n.counter + 1)) })) := by
  cases known : n.used.get? id with
  | none => exact .inr ⟨rfl, by simp only [draw, classOn, known]⟩
  | some name => exact .inl ⟨name, rfl, by simp only [draw, classOn, known]⟩

/-- The classes that were given have different numbers, and there are as many of them as the
counter counts. -/
structure Sound (n : ClassPool) : Prop where
  counted : n.counter = n.used.size
  distinct : n.used.values.Nodup
  numbered : ∀ name ∈ n.used.values, ∃ base, ∃ k ≤ n.counter, name = className n.stem base k

theorem sound_empty (stem : String) : Sound { stem } := ⟨rfl, List.nodup_nil, nofun⟩

theorem Sound.fresh (sound : Sound n) (base : String) :
    className n.stem base (n.counter + 1) ∉ n.used.values := by
  intro mem
  obtain ⟨base', k, below, same⟩ := sound.numbered _ mem
  have := className_inj same
  omega

theorem Sound.draw (sound : Sound n) (id : String) (layer : Option String) :
    Sound (n.draw id layer).2 := by
  rcases draw_cases n id layer with ⟨_, -, drawn⟩ | ⟨unknown, drawn⟩ <;> rw [drawn]
  · exact sound
  · have entries := OrderedMap.entries_insert_new (OrderedMap.get?_eq_none.1 unknown)
      (v := className n.stem (baseOf layer) (n.counter + 1))
    have values : (n.used.insert id (className n.stem (baseOf layer) (n.counter + 1))).values =
        n.used.values ++ [className n.stem (baseOf layer) (n.counter + 1)] := by
      rw [OrderedMap.values, entries, List.map_append, List.map_singleton, OrderedMap.values]
    constructor
    · dsimp only
      rw [OrderedMap.size, entries, List.length_append, List.length_singleton, sound.counted,
        OrderedMap.size]
    · rw [values, ← List.concat_eq_append]
      exact sound.distinct.concat (sound.fresh _)
    · intro name mem
      rw [values, List.mem_append, List.mem_singleton] at mem
      rcases mem with mem | rfl
      · obtain ⟨base, k, below, rfl⟩ := sound.numbered name mem
        exact ⟨base, k, Nat.le_succ_of_le below, rfl⟩
      · exact ⟨_, _, le_rfl, rfl⟩

/-- In a sound pool no two nodes have one class. -/
theorem Sound.get?_inj (sound : Sound n) (first : n.used.get? id = some name)
    (second : n.used.get? id' = some name) : id = id' := by
  have at_first := OrderedMap.mem_of_get? first
  have at_second := OrderedMap.mem_of_get? second
  have same := List.inj_on_of_nodup_map sound.distinct at_first at_second rfl
  exact congrArg Prod.fst same

theorem get?_draw (n : ClassPool) (id : String) (layer : Option String) :
    (n.draw id layer).2.used.get? id = some (n.draw id layer).1 := by
  rcases draw_cases n id layer with ⟨name, known, drawn⟩ | ⟨-, drawn⟩ <;> rw [drawn]
  · exact known
  · exact OrderedMap.get?_insert_self

/-- A class that was given stays with its node. -/
theorem get?_draw_of_known (known : n.used.get? id = some name) (id' : String)
    (layer : Option String) : (n.draw id' layer).2.used.get? id = some name := by
  rcases draw_cases n id' layer with ⟨_, -, drawn⟩ | ⟨unknown, drawn⟩ <;> rw [drawn]
  · exact known
  · have other : id ≠ id' := by
      rintro rfl
      exact nomatch unknown.symm.trans known
    exact (OrderedMap.get?_insert_other other).trans known

theorem mem_keys_draw : id' ∈ (n.draw id layer).2.used.keys ↔ id' ∈ n.used.keys ∨ id' = id := by
  rcases draw_cases n id layer with ⟨name, known, drawn⟩ | ⟨-, drawn⟩ <;> rw [drawn]
  · have held : id ∈ n.used.keys := OrderedMap.mem_keys_iff.2 ⟨name, known⟩
    refine ⟨.inl, ?_⟩
    rintro (mem | rfl)
    · exact mem
    · exact held
  · exact OrderedMap.mem_keys_insert

theorem stem_draw (n : ClassPool) (id : String) (layer : Option String) :
    (n.draw id layer).2.stem = n.stem := by
  rcases draw_cases n id layer with ⟨_, -, drawn⟩ | ⟨-, drawn⟩ <;> rw [drawn]

/-! ### Any number of nodes -/

/-- The classes of nodes that are drawn one after another, each with the name of its layer. -/
def drawAll (n : ClassPool) : List (String × Option String) → List String × ClassPool
  | [] => ([], n)
  | (id, layer) :: rest =>
    let (name, n) := n.draw id layer
    let (names, n) := n.drawAll rest
    (name :: names, n)

theorem drawAll_cons (n : ClassPool) (call : String × Option String)
    (rest : List (String × Option String)) : n.drawAll (call :: rest) =
      ((n.draw call.1 call.2).1 :: ((n.draw call.1 call.2).2.drawAll rest).1,
        ((n.draw call.1 call.2).2.drawAll rest).2) := rfl

variable {calls : List (String × Option String)}

theorem drawAll_append (n : ClassPool) (front back : List (String × Option String)) :
    n.drawAll (front ++ back) = ((n.drawAll front).1 ++ ((n.drawAll front).2.drawAll back).1,
      ((n.drawAll front).2.drawAll back).2) := by
  induction front generalizing n with
  | nil => rfl
  | cons call rest ih => simp only [List.cons_append, drawAll_cons, ih]

theorem Sound.drawAll (sound : Sound n) (calls : List (String × Option String)) :
    Sound (n.drawAll calls).2 := by
  induction calls generalizing n with
  | nil => exact sound
  | cons call rest ih => exact ih (sound.draw call.1 call.2)

theorem stem_drawAll (n : ClassPool) (calls : List (String × Option String)) :
    (n.drawAll calls).2.stem = n.stem := by
  induction calls generalizing n with
  | nil => rfl
  | cons call rest ih => exact (ih _).trans (stem_draw n call.1 call.2)

theorem mem_keys_drawAll :
    id ∈ (n.drawAll calls).2.used.keys ↔ id ∈ n.used.keys ∨ id ∈ calls.map Prod.fst := by
  induction calls generalizing n with
  | nil => simp [drawAll]
  | cons call rest ih =>
    rw [drawAll_cons, ih, mem_keys_draw, List.map_cons, List.mem_cons, or_assoc]

theorem get?_drawAll_of_known (known : n.used.get? id = some name)
    (calls : List (String × Option String)) : (n.drawAll calls).2.used.get? id = some name := by
  induction calls generalizing n with
  | nil => exact known
  | cons call rest ih => exact ih (get?_draw_of_known known call.1 call.2)

/-- Every node is given the class that it has in the end. -/
theorem drawAll_eq (n : ClassPool) (calls : List (String × Option String)) : (n.drawAll calls).1 =
    calls.map fun call => ((n.drawAll calls).2.used.get? call.1).getD "" := by
  induction calls generalizing n with
  | nil => rfl
  | cons call rest ih =>
    have here := get?_drawAll_of_known (get?_draw n call.1 call.2) rest
    rw [drawAll_cons, List.map_cons, here, Option.getD_some, ← ih]

/-- The counter of a pool that begins empty counts the nodes, however often each is drawn. -/
theorem counter_drawAll (stem : String) (calls : List (String × Option String)) :
    (drawAll { stem } calls).2.counter = (calls.map Prod.fst).toFinset.card := by
  have same : (drawAll { stem } calls).2.used.keys.toFinset = (calls.map Prod.fst).toFinset := by
    ext id
    rw [List.mem_toFinset, List.mem_toFinset, mem_keys_drawAll]
    exact or_iff_right List.not_mem_nil
  have each : (drawAll { stem } calls).2.used.keys.Nodup := OrderedMap.nodup_keys _
  rw [((sound_empty stem).drawAll calls).counted, ← same, List.toFinset_card_of_nodup each,
    OrderedMap.keys, List.length_map, OrderedMap.size]

/-- Whatever nodes are drawn from an empty pool, with whatever layers: the class of each depends on
the node alone, no two nodes have one class, and the counter counts the nodes. A node's class is the
one of its first layer, with a number that counts the nodes before it and itself. -/
theorem drawAll_names (stem : String) (calls : List (String × Option String)) :
    ∃ name : String → String, (drawAll { stem } calls).1 = calls.map (fun call => name call.1) ∧
      Set.InjOn name {id | id ∈ calls.map Prod.fst} ∧
      (drawAll { stem } calls).2.counter = (calls.map Prod.fst).toFinset.card ∧
      ∀ front id layer back, calls = front ++ (id, layer) :: back → id ∉ front.map Prod.fst →
        name id = className stem (baseOf layer) ((front.map Prod.fst).toFinset.card + 1) := by
  have sound := (sound_empty stem).drawAll calls
  refine ⟨fun id => ((drawAll { stem } calls).2.used.get? id).getD "", drawAll_eq _ _, ?_,
    counter_drawAll stem calls, ?_⟩
  · intro id mem id' mem' same
    obtain ⟨name, found⟩ := OrderedMap.mem_keys_iff.1 (mem_keys_drawAll.2 (.inr mem))
    obtain ⟨name', found'⟩ := OrderedMap.mem_keys_iff.1 (mem_keys_drawAll.2 (.inr mem'))
    dsimp only at same
    rw [found, found', Option.getD_some, Option.getD_some] at same
    subst same
    exact sound.get?_inj found found'
  · rintro front id layer back rfl new
    have unknown : id ∉ (drawAll { stem } front).2.used.keys := by
      rw [mem_keys_drawAll, not_or]
      exact ⟨List.not_mem_nil, new⟩
    -- The node is drawn from what the calls before it leave, and keeps what it is given there.
    have kept := get?_drawAll_of_known (get?_draw (drawAll { stem } front).2 id layer) back
    rw [drawAll_append, drawAll_cons]
    dsimp only
    rw [kept, Option.getD_some]
    rcases draw_cases (drawAll { stem } front).2 id layer with ⟨_, known, -⟩ | ⟨-, drawn⟩
    · exact absurd (OrderedMap.mem_keys_iff.2 ⟨_, known⟩) unknown
    · rw [drawn, stem_drawAll, counter_drawAll]

end DesignComponents.Identifier.ClassPool
