import DesignComponents.Pattern.Analysis
import DesignComponents.Proofs.Fault
import Mathlib.Data.List.Range

/-! The walk over a design document. Each object has a place: the numbers of the items that lead to it, from
the outside in. The walk meets the objects in the order of their places, and their interactions are listed
in that order. -/

set_option autoImplicit false

namespace DesignComponents.Pattern

/-! ### Places -/

/-- The list below a node; where there is none nothing is below it. -/
def below (node : Members) : List Json :=
  match node.lookup "children" with
  | some (.arr items) => items
  | _ => []

theorem sizeOf_below (node : Members) : sizeOf (below node) ≤ sizeOf node := by
  unfold below
  split
  · next items found =>
    have := sizeOf_lookup found
    simp only [Json.arr.sizeOf_spec] at this
    omega
  · cases node <;> simp only [List.nil.sizeOf_spec, List.cons.sizeOf_spec] <;> omega

theorem sizeOf_child {node : Members} {child : Json} (held : child ∈ below node) :
    sizeOf child < sizeOf (Json.obj node) := by
  have := List.sizeOf_lt_of_mem held
  have := sizeOf_below node
  simp only [Json.obj.sizeOf_spec]
  omega

/-- The object at a place. -/
def objectAt : Json → List Nat → Option Members
  | .obj node, [] => some node
  | .obj node, i :: place => (below node)[i]?.bind (objectAt · place)
  | _, _ => none

theorem objectAt_other {v : Json} (other : v.isObject = false) (place : List Nat) :
    objectAt v place = none := by
  cases v with
  | obj => cases other
  | _ => simp [objectAt]

/-- The objects of a value with their places, each before those below it, and these item by item. -/
def placed : Json → List (List Nat × Members)
  | .obj node => ([], node) :: (below node).zipIdx.attach.flatMap fun ⟨(child, i), _⟩ =>
      (placed child).map fun p => (i :: p.1, p.2)
  | _ => []
termination_by v => sizeOf v
decreasing_by exact sizeOf_child (List.mem_of_getElem? (List.mem_zipIdx_iff_getElem?.1 ‹_›))

theorem placed_obj (node : Members) : placed (.obj node) = ([], node) ::
    (below node).zipIdx.flatMap fun c => (placed c.1).map fun p => (c.2 :: p.1, p.2) := by
  rw [placed, List.flatMap_subtype fun _ _ => rfl, List.unattach_attach]

theorem placed_other {v : Json} (other : v.isObject = false) : placed v = [] := by
  cases v with
  | obj => cases other
  | _ => simp [placed]

/-- What holds of an object if it holds of all that is below it holds of every value. -/
@[elab_as_elim]
theorem below_induction {motive : Json → Prop}
    (object : ∀ node, (∀ child ∈ below node, motive child) → motive (.obj node))
    (other : ∀ v, v.isObject = false → motive v) (v : Json) : motive v := by
  -- By size: the list is found under a key, so it is no direct part of the node.
  induction size : sizeOf v using Nat.strong_induction_on generalizing v with
  | _ n ih =>
    cases v with
    | obj node => exact object node fun child held => ih _ (size ▸ sizeOf_child held) child rfl
    | _ => exact other _ rfl

/-- Every object is met at its place, and nothing else is. -/
theorem mem_placed {v : Json} {place : List Nat} {node : Members} :
    (place, node) ∈ placed v ↔ objectAt v place = some node := by
  induction v using below_induction generalizing place with
  | object members ih =>
    rw [placed_obj, List.mem_cons]
    cases place with
    | nil => simp [objectAt, eq_comm]
    | cons i place =>
      -- A place that is not the node's own begins with the number of an item.
      simp only [List.mem_flatMap, List.mem_map, Prod.mk.injEq, List.cons.injEq, reduceCtorEq, false_and,
        false_or, objectAt, Option.bind_eq_some_iff]
      constructor
      · rintro ⟨⟨child, j⟩, held, ⟨place', node'⟩, inside, ⟨rfl, rfl⟩, rfl⟩
        have item := List.mem_zipIdx_iff_getElem?.1 held
        exact ⟨child, item, (ih child (List.mem_of_getElem? item)).1 inside⟩
      · rintro ⟨child, item, inside⟩
        exact ⟨(child, i), List.mem_zipIdx_iff_getElem?.2 item, (place, node),
          (ih child (List.mem_of_getElem? item)).2 inside, ⟨rfl, rfl⟩, rfl⟩
  | other v other => simp [placed_other other, objectAt_other other]

/-- The places are met in their order, so none twice. -/
theorem pairwise_placed (v : Json) : ((placed v).map Prod.fst).Pairwise (· < ·) := by
  induction v using below_induction with
  | object node ih =>
    have numbered : (below node).zipIdx.Pairwise fun c d => c.2 < d.2 := by
      rw [← List.pairwise_map (f := Prod.snd) (R := (· < ·)), List.zipIdx_map_snd]
      exact List.pairwise_lt_range' 1
    rw [placed_obj, List.map_cons, List.pairwise_cons, List.map_flatMap]
    constructor
    · intro place mem
      obtain ⟨c, -, mem⟩ := List.mem_flatMap.1 mem
      simp only [List.map_map, List.mem_map] at mem
      obtain ⟨p, -, rfl⟩ := mem
      exact List.nil_lt_cons _ _
    · rw [List.pairwise_flatMap]
      constructor
      · rintro ⟨child, i⟩ held
        have inside := ih child (List.mem_of_getElem? (List.mem_zipIdx_iff_getElem?.1 held))
        rw [List.pairwise_map] at inside
        rw [List.map_map, List.pairwise_map]
        exact inside.imp fun earlier => List.cons_lt_cons_iff.2 (.inr ⟨rfl, earlier⟩)
      · -- Places below different items differ in their first number.
        refine numbered.imp fun {c d} earlier place mem place' mem' => ?_
        simp only [List.map_map, List.mem_map] at mem mem'
        obtain ⟨p, -, rfl⟩ := mem
        obtain ⟨q, -, rfl⟩ := mem'
        exact List.cons_lt_cons_iff.2 (.inl earlier)
  | other v other => simp [placed_other other]

/-! ### The walk -/

/-- The objects of a value in document order. -/
def objects (v : Json) : List Members := (placed v).map Prod.snd

theorem mem_objects {v : Json} {node : Members} :
    node ∈ objects v ↔ ∃ place, objectAt v place = some node := by
  simp only [objects, List.mem_map, Prod.exists, mem_placed, exists_eq_right]

theorem forall_mem_objects {v : Json} {P : Members → Prop} :
    (∀ node ∈ objects v, P node) ↔ ∀ place node, objectAt v place = some node → P node := by
  simp only [mem_objects, forall_exists_index]
  exact forall_comm

/-- An object stands before those below it, and these stand item by item. -/
theorem objects_obj (node : Members) : objects (.obj node) = node :: (below node).flatMap objects := by
  have each : ∀ c : Json × Nat, ((placed c.1).map fun p => (c.2 :: p.1, p.2)).map Prod.snd = objects c.1 :=
    fun c => by rw [List.map_map]; rfl
  rw [objects, placed_obj, List.map_cons, List.map_flatMap]
  simp only [each]
  rw [← List.flatMap_map (f := Prod.fst) (g := objects), List.zipIdx_map_fst]

theorem objects_other {v : Json} (other : v.isObject = false) : objects v = [] := by
  rw [objects, placed_other other, List.map_nil]

/-- Null or a list. -/
def isListed : Json → Bool
  | .null | .arr _ => true
  | _ => false

/-- Below the node is a list, or null, or nothing at all. -/
def Listed (node : Members) : Prop := ∀ v ∈ node.lookup "children", isListed v = true

instance (node : Members) : Decidable (Listed node) :=
  inferInstanceAs (Decidable (∀ v ∈ node.lookup "children", isListed v = true))

theorem childrenOf_listed {node : Members} (listed : Listed node) : childrenOf node = .ok (below node) := by
  unfold Listed at listed
  unfold childrenOf below
  cases held : node.lookup "children" with
  | none => rfl
  | some v =>
    have known := listed v held
    cases v with
    | null | arr items => rfl
    | _ => cases known

theorem nodesFrom_obj {node : Members} {children stack : List Json} (found : childrenOf node = .ok children) :
    nodesFrom (.obj node :: stack) = (nodesFrom (children ++ stack)).map (node :: ·) := by
  rw [nodesFrom]
  split
  · next others listed =>
    obtain rfl := Except.ok.inj (found.symm.trans listed)
    cases nodesFrom (children ++ stack) <;> rfl
  · next fault failed => cases found.symm.trans failed

/-- The stack is worked off value by value, each with all that is below it. -/
theorem nodesFrom_eq {stack : List Json} (listed : ∀ v ∈ stack, ∀ node ∈ objects v, Listed node) :
    nodesFrom stack = .ok (stack.flatMap objects) := by
  -- On the steps of the walk: what is stacked gets smaller, though the stack may get longer.
  induction stack using nodesFrom.induct with
  | case1 => rw [nodesFrom, List.flatMap_nil]
  | case2 node stack children found ih =>
    obtain ⟨here, later⟩ := List.forall_mem_cons.1 listed
    rw [objects_obj, List.forall_mem_cons] at here
    obtain rfl : below node = children := Except.ok.inj ((childrenOf_listed here.1).symm.trans found)
    -- What is below the node comes before the rest of the stack.
    have further : nodesFrom (below node ++ stack) = .ok ((below node ++ stack).flatMap objects) :=
      ih fun v mem node' inside => (List.mem_append.1 mem).elim
        (fun held => here.2 node' (List.mem_flatMap.2 ⟨v, held, inside⟩)) fun held => later v held node' inside
    rw [nodesFrom_obj found, further, List.flatMap_cons, objects_obj, List.flatMap_append]
    rfl
  | case3 node stack fault found =>
    have here := (List.forall_mem_cons.1 listed).1
    rw [objects_obj, List.forall_mem_cons] at here
    exact nomatch (childrenOf_listed here.1).symm.trans found
  | case4 v stack other ih =>
    have plain : v.isObject = false := by
      cases v with
      | obj node => exact absurd rfl (other node)
      | _ => rfl
    rw [nodesFrom.eq_3 _ _ other, List.flatMap_cons, objects_other plain, List.nil_append]
    exact ih (List.forall_mem_cons.1 listed).2

/-- The value that the walk starts from; where there is no document an empty object stands for it. -/
def rootOf (raw : Option Members) : Json := orObject (((raw.getD []).lookup "document").getD .null)

theorem documentNodes_eq (raw : Option Members) :
    documentNodes (raw.elim .null .obj) = nodesFrom [rootOf raw] := by
  match raw with
  | none | some [] | some (_ :: _) => rfl

/-! ### Interactions -/

/-- The reactions of a node: the items of the list that it has, if it has one. -/
def reactionsOf (node : Members) : List Json :=
  match node.lookup "reactions" with
  | some (.arr items) => items
  | _ => []

/-- An object whose action and trigger are objects, unless they count as absent. -/
def Readable (reaction : Json) : Prop := ∃ members, reaction = .obj members ∧
  ∀ key ∈ ["action", "trigger"], ∀ v ∈ members.lookup key, v.isTruthy = true → v.isObject = true

/-- The reactions of the node are a list of readable ones, unless they count as absent. -/
def Reactive (node : Members) : Prop :=
  ∀ v ∈ node.lookup "reactions", v.isTruthy = true → ∃ items, v = .arr items ∧ ∀ r ∈ items, Readable r

theorem succeeds_memberD {v : Json} {key : String} {default : Json} :
    Succeeds (v.memberD key default) ↔ v.isObject = true := by
  cases v with
  | obj members => exact ⟨fun _ => rfl, fun _ => ⟨_, rfl⟩⟩
  | _ => exact ⟨nofun, nofun⟩

theorem isObject_orObject {held : Option Json} : (orObject (held.getD .null)).isObject = true ↔
    ∀ v ∈ held, v.isTruthy = true → v.isObject = true := by
  cases held with
  | none => exact ⟨nofun, fun _ => rfl⟩
  | some v =>
    simp only [Option.getD_some, Option.mem_some_iff, forall_eq', orObject, Json.orElse]
    split
    · next present => simp [present]
    · next absent => simp [absent, Json.isObject]

theorem exists_obj {v : Json} (object : v.isObject = true) : ∃ members, v = .obj members := by
  cases v with
  | obj members => exact ⟨members, rfl⟩
  | _ => cases object

/-- An interaction can be told of a reaction exactly if it is readable. -/
theorem succeeds_interaction {node : Members} {reaction : Json} :
    Succeeds (interaction (.obj node) reaction) ↔ Readable reaction := by
  constructor
  · rintro ⟨entry, told⟩
    obtain ⟨a, action, told⟩ := bind_eq_ok.1 told
    obtain ⟨kind, typed, told⟩ := bind_eq_ok.1 told
    obtain ⟨t, trigger, told⟩ := bind_eq_ok.1 told
    obtain ⟨kind', typed', -⟩ := bind_eq_ok.1 told
    obtain ⟨members, rfl⟩ := exists_obj (succeeds_memberD.1 ⟨a, action⟩)
    cases action
    cases trigger
    have objects := And.intro (isObject_orObject.1 (succeeds_memberD.1 ⟨kind, typed⟩))
      (isObject_orObject.1 (succeeds_memberD.1 ⟨kind', typed'⟩))
    exact ⟨members, rfl, by simpa using objects⟩
  · rintro ⟨members, rfl, each⟩
    have action := isObject_orObject.2 (each "action" (by simp))
    have trigger := isObject_orObject.2 (each "trigger" (by simp))
    refine (succeeds_memberD.2 rfl).bind fun a found => ?_
    cases found
    refine (succeeds_memberD.2 action).bind fun kind _ => ?_
    refine (succeeds_memberD.2 rfl).bind fun t found => ?_
    cases found
    refine (succeeds_memberD.2 trigger).bind fun kind' _ => ?_
    refine (succeeds_memberD.2 action).bind fun destination _ => ?_
    dsimp only
    split
    · exact ⟨_, rfl⟩
    · exact (succeeds_memberD.2 action).bind fun target _ => ⟨_, rfl⟩

/-- The interactions that are told of the reactions of one node. -/
def interactionsAt (node : Members) : Except Fault (List Json) := do
  (← itemsOf (← (Json.obj node).member "reactions")).mapM (interaction (.obj node))

theorem interactionsOf_eq (nodes : List Members) :
    interactionsOf nodes = (nodes.mapM interactionsAt).map List.flatten := by
  rw [interactionsOf]
  change nodes.mapM interactionsAt >>= _ = _
  cases nodes.mapM interactionsAt <;> rfl

theorem interactionsAt_eq (node : Members) : interactionsAt node =
    (itemsOf ((node.lookup "reactions").getD .null)).bind (·.mapM (interaction (.obj node))) := rfl

/-- The items of a value are those of a list, or none as it counts as absent, or it is met piece by piece,
and the pieces are texts. -/
theorem itemsOf_eq_ok {v : Json} {items : List Json} (given : itemsOf v = .ok items) :
    v = .arr items ∨ v.isTruthy = false ∧ items = [] ∨
      v.isTruthy = true ∧ (∀ others, v ≠ .arr others) ∧ ∃ s rest, items = .str s :: rest := by
  unfold itemsOf at given
  split at given
  · next present =>
    cases v with
    | arr others =>
      cases given
      exact .inl rfl
    | obj members =>
      cases given
      match members with
      | [] => cases present
      | m :: rest => exact .inr (.inr ⟨present, nofun, m.1, _, rfl⟩)
    | str s =>
      cases given
      cases text : s.toList with
      | nil =>
        rw [String.toList_eq_nil_iff.1 text] at present
        cases present
      | cons c rest => exact .inr (.inr ⟨present, nofun, String.singleton c, _, rfl⟩)
    | _ => cases given
  · next absent =>
    cases given
    exact .inr (.inl ⟨Bool.eq_false_iff.2 absent, rfl⟩)

theorem Reactive.items {node : Members} (reactive : Reactive node) :
    itemsOf ((node.lookup "reactions").getD .null) = .ok (reactionsOf node) := by
  unfold Reactive at reactive
  unfold reactionsOf itemsOf
  cases held : node.lookup "reactions" with
  | none => rfl
  | some v =>
    rw [held] at reactive
    by_cases present : v.isTruthy = true
    · obtain ⟨items, rfl, -⟩ := reactive v rfl present
      exact if_pos present
    · cases v with
      | arr items =>
        have none_there : items = [] := by simpa [Json.isTruthy] using present
        rw [none_there]
        rfl
      | _ => exact if_neg present

theorem Reactive.readable {node : Members} (reactive : Reactive node) {reaction : Json}
    (held : reaction ∈ reactionsOf node) : Readable reaction := by
  unfold reactionsOf at held
  split at held
  · next items found =>
    have present : (Json.arr items).isTruthy = true := by
      cases items with
      | nil => cases held
      | cons => rfl
    obtain ⟨_, same, each⟩ := reactive _ found present
    cases same
    exact each reaction held
  · cases held

theorem Reactive.interactionsAt {node : Members} (reactive : Reactive node) :
    interactionsAt node = (reactionsOf node).mapM (interaction (.obj node)) := by
  rw [interactionsAt_eq, reactive.items]
  rfl

/-- The interactions of a node can be told exactly if its reactions are a list of readable ones. -/
theorem succeeds_interactionsAt {node : Members} : Succeeds (interactionsAt node) ↔ Reactive node := by
  constructor
  · rintro ⟨entries, told⟩ v held present
    rw [interactionsAt_eq] at told
    obtain ⟨items, given, told⟩ := bind_eq_ok.1 told
    rw [Option.mem_def.1 held, Option.getD_some] at given
    have each := mapM_ok_iff.1 ⟨entries, told⟩
    obtain rfl | ⟨absent, -⟩ | ⟨-, -, s, rest, rfl⟩ := itemsOf_eq_ok given
    · exact ⟨items, rfl, fun r mem => succeeds_interaction.1 (each r mem)⟩
    · exact nomatch present.symm.trans absent
    · -- A piece of a text, or the name of a member, is no reaction.
      obtain ⟨members, same, -⟩ := succeeds_interaction.1 (each _ List.mem_cons_self)
      cases same
  · intro reactive
    rw [reactive.interactionsAt]
    exact mapM_ok_iff.2 fun r held => succeeds_interaction.2 (reactive.readable held)

/-- The interactions of some nodes can be told exactly if those of each can. -/
theorem succeeds_interactionsOf {nodes : List Members} :
    Succeeds (interactionsOf nodes) ↔ ∀ node ∈ nodes, Reactive node := by
  have each : Succeeds (nodes.mapM interactionsAt) ↔ ∀ node ∈ nodes, Reactive node :=
    mapM_ok_iff.trans (forall₂_congr fun node _ => succeeds_interactionsAt)
  rw [interactionsOf_eq, ← each]
  constructor
  · rintro ⟨entries, told⟩
    obtain ⟨parts, done, -⟩ := map_eq_ok.1 told
    exact ⟨parts, done⟩
  · rintro ⟨parts, done⟩
    exact ⟨parts.flatten, map_eq_ok.2 ⟨parts, done, rfl⟩⟩

/-- The reactions of some nodes, each with the node that has it. -/
def reactionsAmong (nodes : List Members) : List (Members × Json) :=
  nodes.flatMap fun node => (reactionsOf node).map (node, ·)

/-- One interaction is told of each reaction, in the order of the nodes and of the reactions of each. -/
theorem interactionsOf_told {nodes : List Members} {entries : List Json}
    (told : interactionsOf nodes = .ok entries) :
    List.Forall₂ (fun r entry => interaction (.obj r.1) r.2 = .ok entry) (reactionsAmong nodes) entries := by
  have reactive := succeeds_interactionsOf.1 ⟨entries, told⟩
  rw [interactionsOf_eq] at told
  obtain ⟨parts, done, rfl⟩ := map_eq_ok.1 told
  have each := (List.forall₂_and_left nodes parts).2 ⟨reactive, mapM_eq_ok.1 done⟩
  rw [reactionsAmong, List.flatMap_def]
  refine List.rel_flatten (List.forall₂_map_left_iff.2 (each.imp fun node part => ?_))
  rintro ⟨reactive, done⟩
  rw [reactive.interactionsAt] at done
  exact List.forall₂_map_left_iff.2 (mapM_eq_ok.1 done)

/-- Where each object has a list below it, or nothing, all of them are met in document order. -/
theorem documentNodes_listed {raw : Option Members}
    (listed : ∀ place node, objectAt (rootOf raw) place = some node → Listed node) :
    documentNodes (raw.elim .null .obj) = .ok (objects (rootOf raw)) := by
  rw [documentNodes_eq, nodesFrom_eq, List.flatMap_singleton]
  intro v mem
  obtain rfl := List.mem_singleton.1 mem
  exact forall_mem_objects.2 listed

/-- In a document in which each object has a list below it, or nothing, the walk meets each object once, in
the order of the places: an object before those below it, and these item by item. The interactions can be
told exactly if the reactions of each object are a list of readable ones, unless they count as absent; then
there is one for each reaction, in the order of the objects and of the reactions of each. -/
theorem walk_in_order (raw : Option Members)
    (listed : ∀ place node, objectAt (rootOf raw) place = some node → Listed node) :
    (documentNodes (raw.elim .null .obj) = .ok (objects (rootOf raw)) ∧
      ((placed (rootOf raw)).map Prod.fst).Pairwise (· < ·) ∧
      ∀ place node, (place, node) ∈ placed (rootOf raw) ↔ objectAt (rootOf raw) place = some node) ∧
    (Succeeds (documentNodes (raw.elim .null .obj) >>= interactionsOf) ↔
      ∀ place node, objectAt (rootOf raw) place = some node → Reactive node) ∧
    ∀ entries, documentNodes (raw.elim .null .obj) >>= interactionsOf = .ok entries →
      List.Forall₂ (fun r entry => interaction (.obj r.1) r.2 = .ok entry)
        (reactionsAmong (objects (rootOf raw))) entries := by
  have walked := documentNodes_listed listed
  rw [walked]
  exact ⟨⟨rfl, pairwise_placed _, fun place node => mem_placed⟩,
    succeeds_interactionsOf.trans forall_mem_objects, fun entries => interactionsOf_told⟩

/-! A document in which two objects have reactions, one of them whatever is given. -/

def tap : Json := .obj [("action", .obj [("type", .str "NODE"), ("destinationId", .str "2")]),
  ("trigger", .obj [("type", .str "ON_CLICK")])]

def button : Members := [("id", .str "3"), ("reactions", .arr [tap])]

def opening : Members := [("id", .str "1"), ("children", .arr [.obj button, .str "note"])]

def closing (reactions : Json) : Members := [("id", .str "2"), ("children", .null), ("reactions", reactions)]

def story (reactions : Json) : Members :=
  [("id", .str "0"), ("children", .arr [.obj opening, .int 7, .obj (closing reactions)])]

theorem objects_story (reactions : Json) :
    objects (.obj (story reactions)) = [story reactions, opening, button, closing reactions] := by
  have below_story : below (story reactions) = [.obj opening, .int 7, .obj (closing reactions)] := rfl
  have below_opening : below opening = [.obj button, .str "note"] := rfl
  have below_button : below button = [] := rfl
  have below_closing : below (closing reactions) = [] := rfl
  have note : objects (.str "note") = [] := objects_other rfl
  have seven : objects (.int 7) = [] := objects_other rfl
  simp [objects_obj, below_story, below_opening, below_button, below_closing, note, seven]

def storyboard (reactions : Json) : Option Members := some [("document", .obj (story reactions))]

theorem rootOf_storyboard (reactions : Json) : rootOf (storyboard reactions) = .obj (story reactions) := rfl

theorem listed_storyboard (reactions : Json) :
    ∀ place node, objectAt (rootOf (storyboard reactions)) place = some node → Listed node := by
  rw [← forall_mem_objects, rootOf_storyboard, objects_story]
  simp [Listed, story, opening, button, closing, List.lookup_cons, isListed]

theorem walk_in_order_storyboard :
    let raw := storyboard (.arr [tap, .obj []])
    let last := closing (.arr [tap, .obj []])
    (∀ place node, objectAt (rootOf raw) place = some node → Listed node) ∧
    documentNodes (raw.elim .null .obj) = .ok [story (.arr [tap, .obj []]), opening, button, last] ∧
    ∃ entries, documentNodes (raw.elim .null .obj) >>= interactionsOf = .ok entries ∧
      List.Forall₂ (fun r entry => interaction (.obj r.1) r.2 = .ok entry)
        [(button, tap), (last, tap), (last, .obj [])] entries := by
  intro raw last
  have listed := listed_storyboard (.arr [tap, .obj []])
  obtain ⟨⟨walked, -⟩, told, ordered⟩ := walk_in_order raw listed
  have met : objects (rootOf raw) = [story (.arr [tap, .obj []]), opening, button, last] := objects_story _
  have reactive : ∀ node ∈ objects (rootOf raw), Reactive node := by
    rw [met]
    simp [Reactive, Readable, story, opening, button, last, closing, tap, List.lookup_cons, Json.isObject]
  obtain ⟨entries, done⟩ := told.2 (forall_mem_objects.1 reactive)
  have each := ordered entries done
  rw [met] at walked each
  exact ⟨listed, walked, entries, done, each⟩

/-- A number in place of the reactions of one object leaves those of all others untold. -/
theorem not_every_reaction_told :
    let raw := storyboard (.int 1)
    (∀ place node, objectAt (rootOf raw) place = some node → Listed node) ∧
    reactionsAmong (objects (rootOf raw)) = [(button, tap)] ∧
    ¬ Succeeds (documentNodes (raw.elim .null .obj) >>= interactionsOf) := by
  intro raw
  have listed := listed_storyboard (.int 1)
  have met : objects (rootOf raw) = [story (.int 1), opening, button, closing (.int 1)] := objects_story _
  refine ⟨listed, by rw [met]; rfl, fun done => ?_⟩
  rw [documentNodes_listed listed] at done
  have reactive := succeeds_interactionsOf.1 done (closing (.int 1)) (by rw [met]; simp)
  obtain ⟨items, same, -⟩ := reactive (.int 1) rfl rfl
  cases same

end DesignComponents.Pattern
