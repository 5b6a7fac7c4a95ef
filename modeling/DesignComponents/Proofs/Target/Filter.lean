import DesignComponents.Proofs.Attribute.Sanitize
import DesignComponents.Proofs.Target.Transform
import Mathlib.Algebra.GroupWithZero.Nat
import Mathlib.Data.List.Forall2

/-! The making of a target tree as a filter. A tree is told by its elements and texts in document
order, each with the elements around it. What becomes of it are those that are neither disallowed
nor inside a disallowed element, in the same order and with the same elements around them. -/

set_option autoImplicit false

namespace DesignComponents

open Attribute

/-! ### Trees in document order -/

namespace Source

/-- An element with what is in it, or a text. -/
inductive Item where
  | element (data : Element) (inside : List Node)
  | text (content : String)

/-- An item with the elements around it, the innermost first. -/
structure Placed where
  around : List Element
  item : Item

/-- Whether neither the item nor an element around it is disallowed. -/
def Placed.kept (p : Placed) : Bool :=
  p.around.all (fun data => admitsTag data.tag) &&
    match p.item with
    | .element data _ => admitsTag data.tag
    | .text _ => true

/-- A disallowed element that is in no other, with what is in it. -/
def Placed.topmost? (p : Placed) : Option (Element × List Node) :=
  match p.item with
  | .element data inside =>
    if p.around.all (fun data => admitsTag data.tag) && !admitsTag data.tag then some (data, inside)
    else none
  | .text _ => none

/-- An element is readable if its attributes are. -/
def Item.Readable : Item → Prop
  | .element data _ => Attribute.Readable (data.attributes.getD .empty)
  | .text _ => True

instance : (item : Item) → Decidable item.Readable
  | .element data _ => inferInstanceAs (Decidable (Attribute.Readable (data.attributes.getD .empty)))
  | .text _ => isTrue trivial

/-- All that is kept is readable. -/
def ReadableIn (items : List Placed) : Prop := ∀ p ∈ items, p.kept = true → p.item.Readable

instance (items : List Placed) : Decidable (ReadableIn items) :=
  inferInstanceAs (Decidable (∀ p ∈ items, p.kept = true → p.item.Readable))

namespace Node

mutual

/-- The items of a tree in document order, each before those inside it. -/
def placed (around : List Element) : Node → List Placed
  | .element data cs => ⟨around, .element data cs⟩ :: placedIn (data :: around) cs
  | .text content => [⟨around, .text content⟩]
  | .fragment cs => placedIn around cs
  | .foreign => []

def placedIn (around : List Element) : List Node → List Placed
  | [] => []
  | n :: rest => placed around n ++ placedIn around rest

end

mutual

/-- Nothing in the tree is a foreign value. -/
def Native : Node → Prop
  | .element _ cs | .fragment cs => NativeAll cs
  | .text _ => True
  | .foreign => False

def NativeAll : List Node → Prop
  | [] => True
  | n :: rest => Native n ∧ NativeAll rest

end

/-- The disallowed elements that are in no other, in document order, with what is in them. -/
def topmost (n : Node) : List (Element × List Node) := (n.placed []).filterMap Placed.topmost?

def Readable (n : Node) : Prop := ReadableIn (n.placed [])

instance (n : Node) : Decidable n.Readable := inferInstanceAs (Decidable (ReadableIn (n.placed [])))

mutual

theorem around_suffix {around : List Element} : ∀ {n : Node}, ∀ p ∈ n.placed around,
    around <:+ p.around
  | .element data cs, p, mem => by
    rw [placed] at mem
    rcases List.mem_cons.1 mem with rfl | mem
    · exact List.suffix_rfl
    · exact (List.suffix_cons data around).trans (around_suffix_in p mem)
  | .text content, p, mem => by
    rw [placed, List.mem_singleton] at mem
    subst mem
    exact List.suffix_rfl
  | .fragment cs, p, mem => by
    rw [placed] at mem
    exact around_suffix_in p mem
  | .foreign, p, mem => by
    rw [placed] at mem
    exact nomatch mem

theorem around_suffix_in {around : List Element} : ∀ {ns : List Node}, ∀ p ∈ placedIn around ns,
    around <:+ p.around
  | [], p, mem => by
    rw [placedIn] at mem
    exact nomatch mem
  | n :: rest, p, mem => by
    rw [placedIn] at mem
    rcases List.mem_append.1 mem with mem | mem
    · exact around_suffix p mem
    · exact around_suffix_in p mem

end

section

variable {data : Element} {around : List Element} {cs : List Node}

/-- What is inside a disallowed element has that element around it. -/
theorem buried (drops : admitsTag data.tag = false) : ∀ p ∈ placedIn (data :: around) cs,
    p.around.all (fun data => admitsTag data.tag) = false := by
  intro p mem
  apply List.all_eq_false.2
  refine ⟨data, (around_suffix_in p mem).subset List.mem_cons_self, ?_⟩
  rw [drops]
  exact Bool.false_ne_true

theorem filter_buried (drops : admitsTag data.tag = false) :
    (placedIn (data :: around) cs).filter Placed.kept = [] := by
  apply List.filter_eq_nil_iff.2
  intro p mem
  rw [Placed.kept, buried drops p mem, Bool.false_and]
  exact Bool.false_ne_true

theorem topmost_buried (drops : admitsTag data.tag = false) :
    (placedIn (data :: around) cs).filterMap Placed.topmost? = [] := by
  apply List.filterMap_eq_nil_iff.2
  intro p mem
  unfold Placed.topmost?
  split
  · rw [buried drops p mem]
    rfl
  · rfl

end

end Node

end Source

namespace Target

/-- What a node is, with the elements around it, the innermost first. -/
structure Placed where
  around : List Data
  data : Data

namespace Node

mutual

/-- The elements and texts of a tree in document order, each before those inside it. -/
def placed (around : List Data) : Node → List Placed
  | .node data cs =>
    match data.kind with
    | .element => ⟨around, data⟩ :: placedIn (data :: around) cs
    | .text => ⟨around, data⟩ :: placedIn around cs
    | .fragment => placedIn around cs

def placedIn (around : List Data) : List Node → List Placed
  | [] => []
  | n :: rest => placed around n ++ placedIn around rest

end

theorem placedIn_append (around : List Data) (left right : List Node) :
    placedIn around (left ++ right) = placedIn around left ++ placedIn around right := by
  induction left with
  | nil => rfl
  | cons n rest ih => rw [List.cons_append, placedIn, placedIn, ih, List.append_assoc]

theorem elementCountIn_append (left right : List Node) :
    elementCountIn (left ++ right) = elementCountIn left + elementCountIn right := by
  induction left with
  | nil => rw [List.nil_append, elementCountIn, Nat.zero_add]
  | cons n rest ih => rw [List.cons_append, elementCountIn, elementCountIn, ih, Nat.add_assoc]

end Node

/-! ### What stands for what -/

/-- The element that an admitted element becomes. -/
structure Counterpart (source : Source.Element) (target : Data) : Prop where
  kind : target.kind = .element
  allowed : admitsTag target.tag = true
  tag : target.tag = source.tag
  attributes : sanitize (source.attributes.getD .empty) = .ok target.attributes
  text : target.text = source.text
  sourceId : target.sourceId = source.id
  name : target.name = source.name

inductive Stands : Source.Item → Data → Prop where
  | element {data : Source.Element} {target : Data} (inside : List Source.Node)
    (same : Counterpart data target) : Stands (.element data inside) target
  | text (content : String) : Stands (.text content) (Node.text content).data

/-- The same item among the same elements. -/
structure Matches (p : Source.Placed) (q : Placed) : Prop where
  around : List.Forall₂ Counterpart p.around q.around
  item : Stands p.item q.data

/-- The elements that are gone with those disallowed, which are counted too. -/
def lost (dropped : List (Source.Element × List Source.Node)) : Nat :=
  (dropped.map fun e => 1 + (Source.Node.elementsOf e.2).length).sum

/-- Of these items, with so many elements among them, this is left. -/
structure Filters (items : List Source.Placed) (elements : Nat) (targets : List Placed) (count : Nat)
    (warnings : List String) : Prop where
  kept : List.Forall₂ Matches (items.filter Source.Placed.kept) targets
  warnings : warnings =
    (items.filterMap Source.Placed.topmost?).map fun e => droppedWarning e.1
  count : count + lost (items.filterMap Source.Placed.topmost?) = elements

/-- The outcome is the tree without its disallowed elements and all that is in them. -/
structure Filtered (n : Source.Node) (result : Transformed) : Prop where
  kept : List.Forall₂ Matches ((n.placed []).filter Source.Placed.kept) (result.root.placed [])
  warnings : result.warnings = n.topmost.map fun e => droppedWarning e.1
  count : result.root.elementCount + lost n.topmost = n.elements.length
  root : ∀ data cs, n = .element data cs → admitsTag data.tag = false → result.root = .fragment []

theorem Filters.append {items items' : List Source.Placed} {elements elements' : Nat}
    {targets targets' : List Placed} {count count' : Nat} {warnings warnings' : List String}
    (left : Filters items elements targets count warnings)
    (right : Filters items' elements' targets' count' warnings') :
    Filters (items ++ items') (elements + elements') (targets ++ targets') (count + count')
      (warnings ++ warnings') where
  kept := by
    rw [List.filter_append]
    exact List.rel_append left.kept right.kept
  warnings := by rw [List.filterMap_append, List.map_append, left.warnings, right.warnings]
  count := by
    rw [List.filterMap_append, lost, List.map_append, List.sum_append, ← lost, ← lost, ← left.count,
      ← right.count]
    omega

/-- What stands for elements is allowed, and so they are. -/
theorem all_admitted {around : List Source.Element} {around' : List Data}
    (same : List.Forall₂ Counterpart around around') :
    around.all (fun data => admitsTag data.tag) = true := by
  induction same with
  | nil => rfl
  | cons first _ ih => rw [List.all_cons, ih, ← first.tag, first.allowed, Bool.true_and]

theorem counterpart_same {data : Source.Element} (admits : admitsTag data.tag = true)
    {attributes : OrderedMap Json} (sanitized : sanitize (data.attributes.getD .empty) = .ok attributes) :
    Counterpart data (counterpart data attributes) :=
  ⟨rfl, admits, rfl, sanitized, rfl, rfl, rfl⟩

/-! ### What is left of a tree -/

section

variable {around : List Source.Element} {around' : List Data} {data : Source.Element}
  {cs : List Source.Node}

theorem filters_text (same : List.Forall₂ Counterpart around around') (content : String) :
    Filters ((Source.Node.text content).placed around) 0 [⟨around', (Node.text content).data⟩] 0 [] where
  kept := by
    have kept : Source.Placed.kept ⟨around, .text content⟩ = true := by
      rw [Source.Placed.kept, all_admitted same]
      rfl
    rw [Source.Node.placed, List.filter_cons_of_pos kept]
    exact .cons ⟨same, .text content⟩ .nil
  warnings := rfl
  count := rfl

/-- Of a disallowed element nothing is left but its warning. -/
theorem filters_dropped (same : List.Forall₂ Counterpart around around')
    (drops : admitsTag data.tag = false) :
    Filters ((Source.Node.element data cs).placed around) (Source.Node.element data cs).elements.length
      [] 0 [droppedWarning data] := by
  have dropped : Source.Placed.kept ⟨around, .element data cs⟩ = false := by
    simp [Source.Placed.kept, drops]
  have topmost : Source.Placed.topmost? ⟨around, .element data cs⟩ = some (data, cs) := by
    simp [Source.Placed.topmost?, drops, all_admitted same]
  -- What is inside has this element around it, so none of it is kept and none of it is warned of.
  have nothing : (Source.Node.placedIn (data :: around) cs).filter Source.Placed.kept = [] :=
    Source.Node.filter_buried drops
  have silent : (Source.Node.placedIn (data :: around) cs).filterMap Source.Placed.topmost? = [] :=
    Source.Node.topmost_buried drops
  rw [Source.Node.placed, Source.Node.elements]
  constructor
  · rw [List.filter_cons_of_neg (by simp [dropped]), nothing]
    exact .nil
  · rw [List.filterMap_cons_some topmost, silent]
    rfl
  · rw [List.filterMap_cons_some topmost, silent, List.length_cons]
    simp [lost, Nat.add_comm]

/-- An element that is admitted stands before what is left of its children. -/
theorem filters_admitted (same : List.Forall₂ Counterpart around around')
    {attributes : OrderedMap Json} (here : Counterpart data (counterpart data attributes))
    {targets : List Node} {warnings : List String}
    (inside : Filters (Source.Node.placedIn (data :: around) cs) (Source.Node.elementsOf cs).length
      (Node.placedIn (counterpart data attributes :: around') targets) (Node.elementCountIn targets)
      warnings) :
    Filters ((Source.Node.element data cs).placed around) (Source.Node.element data cs).elements.length
      (Node.placed around' (.node (counterpart data attributes) targets))
      (Node.elementCount (.node (counterpart data attributes) targets)) warnings := by
  have admits : admitsTag data.tag = true := here.tag ▸ here.allowed
  have kept : Source.Placed.kept ⟨around, .element data cs⟩ = true := by
    simp [Source.Placed.kept, admits, all_admitted same]
  have not_topmost : Source.Placed.topmost? ⟨around, .element data cs⟩ = none := by
    simp [Source.Placed.topmost?, admits]
  rw [Source.Node.placed, Source.Node.elements]
  constructor
  · rw [List.filter_cons_of_pos kept]
    exact .cons ⟨same, .element cs here⟩ inside.kept
  · rw [List.filterMap_cons_none not_topmost]
    exact inside.warnings
  · rw [List.filterMap_cons_none not_topmost, List.length_cons, ← inside.count]
    simp only [Node.elementCount, counterpart, if_true]
    omega

end

mutual

theorem filters_transformed {around : List Source.Element} {around' : List Data}
    (same : List.Forall₂ Counterpart around around') :
    ∀ {n : Source.Node} {result : Option Node × List String}, transformed n = .ok result →
      Filters (n.placed around) n.elements.length (Node.placedIn around' result.1.toList)
        (Node.elementCountIn result.1.toList) result.2
  | .text content, result, done => by
    rw [transformed_text] at done
    cases done
    exact filters_text same content
  | .foreign, result, done => by
    rw [transformed, transformVia] at done
    exact nomatch done
  | .fragment cs, result, done => by
    rw [transformed_fragment] at done
    obtain ⟨targets, inside, rfl⟩ := map_eq_ok.1 done
    have filters := filters_transformedAll same inside
    rw [Source.Node.placed, Source.Node.elements]
    simpa [Node.placedIn, Node.placed, Node.fragment, Node.elementCountIn, Node.elementCount]
      using filters
  | .element data cs, result, done => by
    cases admits : admitsTag data.tag with
    | false =>
      rw [transformed_dropped admits] at done
      cases done
      exact filters_dropped same admits
    | true =>
      rw [transformed_admitted admits] at done
      obtain ⟨attributes, sanitized, done⟩ := bind_eq_ok.1 done
      obtain ⟨targets, inside, done⟩ := bind_eq_ok.1 done
      cases done
      have here := counterpart_same admits sanitized
      have filters := filters_admitted same here (filters_transformedAll (.cons here same) inside)
      simpa [Node.placedIn, Node.elementCountIn] using filters

theorem filters_transformedAll {around : List Source.Element} {around' : List Data}
    (same : List.Forall₂ Counterpart around around') :
    ∀ {ns : List Source.Node} {result : List Node × List String}, transformedAll ns = .ok result →
      Filters (Source.Node.placedIn around ns) (Source.Node.elementsOf ns).length
        (Node.placedIn around' result.1) (Node.elementCountIn result.1) result.2
  | [], result, done => by
    rw [transformedAll, transformAllVia] at done
    cases done
    exact ⟨.nil, rfl, rfl⟩
  | n :: rest, result, done => by
    rw [transformedAll_cons] at done
    obtain ⟨target, first, done⟩ := bind_eq_ok.1 done
    obtain ⟨targets, others, done⟩ := bind_eq_ok.1 done
    cases done
    have joined := (filters_transformed same first).append (filters_transformedAll same others)
    rw [Source.Node.placedIn, Source.Node.elementsOf, List.length_append, Node.placedIn_append,
      Node.elementCountIn_append]
    exact joined

end

/-! ### Which trees become anything -/

theorem readableIn_append {left right : List Source.Placed} :
    Source.ReadableIn (left ++ right) ↔ Source.ReadableIn left ∧ Source.ReadableIn right := by
  simp only [Source.ReadableIn, List.mem_append, or_imp, forall_and]

theorem readableIn_cons_kept {around : List Source.Element} {data : Source.Element}
    {cs : List Source.Node} {items : List Source.Placed}
    (kept : Source.Placed.kept ⟨around, .element data cs⟩ = true) :
    Source.ReadableIn (⟨around, .element data cs⟩ :: items) ↔
      Attribute.Readable (data.attributes.getD .empty) ∧ Source.ReadableIn items := by
  simp [Source.ReadableIn, kept, Source.Item.Readable]

theorem readableIn_of_not_kept {items : List Source.Placed}
    (none_kept : items.filter Source.Placed.kept = []) : Source.ReadableIn items := by
  intro p mem kept
  exact absurd kept (List.filter_eq_nil_iff.1 none_kept p mem)

mutual

theorem reads_transformed {around : List Source.Element}
    (admitted : around.all (fun data => admitsTag data.tag) = true) : ∀ {n : Source.Node}, n.Native →
      Reads (transformed n) (Source.ReadableIn (n.placed around))
  | .text content, _ => by
    rw [transformed_text]
    exact (reads_ok _).congr (by simp [Source.ReadableIn, Source.Node.placed, Source.Item.Readable])
  | .fragment cs, native => by
    rw [transformed_fragment, Source.Node.placed]
    exact (reads_transformedAll admitted native).map _
  | .element data cs, native => by
    rw [Source.Node.placed]
    cases admits : admitsTag data.tag with
    | false =>
      have dropped : Source.Placed.kept ⟨around, .element data cs⟩ = false := by
        simp [Source.Placed.kept, admits]
      have none_kept := List.filter_cons_of_neg (l := Source.Node.placedIn (data :: around) cs)
        (by simp [dropped] : ¬Source.Placed.kept ⟨around, .element data cs⟩ = true)
      rw [Source.Node.filter_buried admits] at none_kept
      rw [transformed_dropped admits]
      exact (reads_ok _).congr (iff_of_true trivial (readableIn_of_not_kept none_kept))
    | true =>
      have kept : Source.Placed.kept ⟨around, .element data cs⟩ = true := by
        simp [Source.Placed.kept, admits, admitted]
      have inside : (data :: around).all (fun data => admitsTag data.tag) = true := by
        rw [List.all_cons, admits, admitted, Bool.true_and]
      rw [transformed_admitted admits]
      have read := (reads_sanitize (data.attributes.getD .empty)).bind fun attributes =>
        (reads_transformedAll inside native).bind fun targets =>
          reads_ok (some (Node.node (counterpart data attributes) targets.1), targets.2)
      exact read.congr (by rw [readableIn_cons_kept kept, and_true])

theorem reads_transformedAll {around : List Source.Element}
    (admitted : around.all (fun data => admitsTag data.tag) = true) : ∀ {ns : List Source.Node},
      Source.Node.NativeAll ns →
        Reads (transformedAll ns) (Source.ReadableIn (Source.Node.placedIn around ns))
  | [], _ => by
    rw [transformedAll, transformAllVia]
    exact (reads_ok _).congr (by simp [Source.ReadableIn, Source.Node.placedIn])
  | n :: rest, native => by
    rw [transformedAll_cons, Source.Node.placedIn]
    have read := (reads_transformed admitted native.1).bind fun first =>
      (reads_transformedAll admitted native.2).bind fun others =>
        reads_ok (first.1.toList ++ others.1, first.2 ++ others.2)
    exact read.congr (by rw [readableIn_append, and_true])

end

theorem filtered_ofResult {n : Source.Node} {result : Option Node × List String}
    (done : transformed n = .ok result) : Filtered n (.ofResult result) := by
  have filters := filters_transformed .nil done
  have root : (Transformed.ofResult result).root = result.1.getD (.fragment []) := rfl
  constructor
  · have placed : (result.1.getD (.fragment [])).placed [] = Node.placedIn [] result.1.toList := by
      cases result.1 with
      | none => rfl
      | some target => rw [Option.getD_some, Option.toList, Node.placedIn, Node.placedIn, List.append_nil]
    rw [root, placed]
    exact filters.kept
  · exact filters.warnings
  · have count : (result.1.getD (.fragment [])).elementCount = Node.elementCountIn result.1.toList := by
      cases result.1 <;> rfl
    rw [root, count]
    exact filters.count
  · intro data cs element drops
    subst element
    rw [transformed_dropped drops] at done
    cases done
    rfl

/-- Making a target tree is a sound and complete filter. It fails only by a number in the style of
an element that would be kept. -/
theorem transform_filters {n : Source.Node} (native : n.Native) {t : Memory} (valid : t.Valid) :
    (n.Readable → ∃ result, ((transform n).run.run t).1 = .ok result ∧ Filtered n result) ∧
      (¬n.Readable → ∃ count, mostDigits < count ∧
        ((transform n).run.run t).1 = .error (.tooManyDigits count)) := by
  have read : Reads (transformed n) n.Readable := reads_transformed rfl native
  rw [(transform_law n t valid).1]
  constructor
  · intro readable
    obtain ⟨result, done⟩ := read.succeeds readable
    refine ⟨.ofResult result, ?_, filtered_ofResult done⟩
    rw [done]
    rfl
  · intro unreadable
    obtain ⟨count, large, failed⟩ := read.fails unreadable
    refine ⟨count, large, ?_⟩
    rw [failed]
    rfl

/-- A drawing with a script, a group without a place of its own and a style. -/
def sampleTree : Source.Node :=
  .element { id := "1", tag := "svg", attributes := some ⟨[("style", .str "order: 2")], by decide⟩ } [
    .element { id := "2", tag := "script" } [.element { id := "3", tag := "rect" } []],
    .fragment [.text "a"],
    .element { id := "4", tag := "circle", name := .str "Dot" } []]

theorem transform_filters_sample :
    sampleTree.Native ∧ Memory.Valid {} ∧ sampleTree.Readable ∧
      ∃ result, ((transform sampleTree).run.run {}).1 = .ok result ∧ Filtered sampleTree result := by
  have native : sampleTree.Native :=
    ⟨⟨trivial, trivial⟩, ⟨trivial, trivial⟩, trivial, trivial⟩
  have readable : sampleTree.Readable := by decide +kernel
  have valid : Memory.Valid {} := Memory.valid_empty 2048
  exact ⟨native, valid, readable, (transform_filters native valid).1 readable⟩

/-! ### A tree that becomes nothing -/

def overlongTree : Source.Node :=
  .element {
    id := "1", tag := "svg"
    attributes := some ⟨[("style", .str (String.ofList ("order:".toList ++ overlong)))],
      List.nodup_cons.2 ⟨List.not_mem_nil, List.nodup_nil⟩⟩ } []

theorem overlongTree_unreadable : ¬overlongTree.Readable := by
  intro readable
  have admits : admitsTag "svg" = true := by decide
  have style : rename "style" = "style" := by decide
  have styles := readable _ List.mem_cons_self (by simp [Source.Placed.kept, admits]) _
    List.mem_cons_self style
  rw [ReadableStyle, declarations_overlong] at styles
  exact styles _ List.mem_cons_self overlong_overlong

/-- Not every tree becomes one: a number in a style can have too many digits. -/
theorem not_every_tree_transforms :
    ¬∀ n : Source.Node, n.Native → ∃ result,
      ((transform n).run.run {}).1 = .ok result ∧ Filtered n result := by
  intro every
  obtain ⟨result, done, -⟩ := every overlongTree trivial
  have native : overlongTree.Native := trivial
  have read : Reads (transformed overlongTree) overlongTree.Readable := reads_transformed rfl native
  obtain ⟨count, -, failed⟩ := read.fails overlongTree_unreadable
  rw [(transform_law overlongTree {} (Memory.valid_empty 2048)).1, failed] at done
  exact nomatch done

end Target

end DesignComponents
