import DesignComponents.Proofs.Markup.Mark
import DesignComponents.Proofs.Markup.Shorten
import Mathlib.Data.List.Forall2

/-! What shortened markup is read as: the same tree, with attributes that have no value gone and
long decimals rounded. It is so where no attribute is taken for a repetition of another and none
shows itself when the one of its name before it goes; elsewhere an attribute is lost or another value
comes up. -/

set_option autoImplicit false

namespace DesignComponents.Markup

open Text Source

/-! ### Rows of attributes that shortening is safe for -/

/-- Behind each attribute, one whose name is an end of its name was given before. -/
def Apart (seen : List (List Char)) : List Attr → Prop
  | [] => True
  | a :: rest => (∀ b ∈ rest.head?, isTail a.name b.name = true → b.name ∈ a.name :: seen) ∧
      Apart (a.name :: seen) rest

/-- Behind the first attribute of a name that goes for want of a value, all of its name go. -/
def Covered (seen : List (List Char)) : List Attr → Prop
  | [] => True
  | a :: rest => (a.idle = true → a.name ∉ seen → ∀ b ∈ rest, b.name = a.name → b.idle = true) ∧
      Covered (a.name :: seen) rest

instance decidableApart : ∀ seen attrs, Decidable (Apart seen attrs)
  | _, [] => isTrue trivial
  | seen, a :: rest =>
    have := decidableApart (a.name :: seen) rest
    inferInstanceAs (Decidable (_ ∧ _))

instance decidableCovered : ∀ seen attrs, Decidable (Covered seen attrs)
  | _, [] => isTrue trivial
  | seen, a :: rest =>
    have := decidableCovered (a.name :: seen) rest
    inferInstanceAs (Decidable (_ ∧ _))

/-- No attribute is taken for a repetition of another, and none that goes hides one that stays. -/
structure Clear (attrs : List Attr) : Prop where
  apart : Apart [] attrs
  covered : Covered [] (squeeze (fun _ => false) attrs)

theorem clear_iff {attrs : List Attr} :
    Clear attrs ↔ Apart [] attrs ∧ Covered [] (squeeze (fun _ => false) attrs) :=
  ⟨fun ⟨apart, covered⟩ => ⟨apart, covered⟩, fun ⟨apart, covered⟩ => ⟨apart, covered⟩⟩

instance (attrs : List Attr) : Decidable (Clear attrs) := decidable_of_iff _ clear_iff.symm

theorem firsts_squeeze {held : List Char → Bool} {seen : List (List Char)} {attrs : List Attr}
    (known : ∀ a ∈ attrs.head?, held a.name = true → a.name ∈ seen) (apart : Apart seen attrs) :
    firsts seen (squeeze held attrs) = firsts seen attrs := by
  -- What is held so far was seen, so what goes here is no first of its name.
  induction attrs generalizing held seen with
  | nil => rfl
  | cons a rest ih =>
    have later : ∀ {held : List Char → Bool},
        (∀ b ∈ rest.head?, held b.name = true → b.name ∈ a.name :: seen) →
        firsts (a.name :: seen) (squeeze held rest) = firsts (a.name :: seen) rest :=
      fun known => ih known apart.2
    have again := @later (· == a.name) fun b _ same => by simpa using .inl (eq_of_beq same)
    have tails := later apart.1
    rw [squeeze]
    by_cases mem : a.name ∈ seen
    · rw [firsts_seen mem, firsts_seen mem] at again tails
      cases held a.name <;> simp [firsts, mem, again, tails]
    · have stays : held a.name = false := by
        by_contra drop
        exact mem (known a rfl (by simpa using drop))
      simp [firsts, mem, stays, tails]

theorem firsts_filter {seen : List (List Char)} {attrs : List Attr} (covered : Covered seen attrs) :
    firsts seen (attrs.filter fun a => !a.idle) = (firsts seen attrs).filter fun a => !a.idle := by
  induction attrs generalizing seen with
  | nil => rfl
  | cons a rest ih =>
    have later := ih covered.2
    by_cases mem : a.name ∈ seen
    · rw [firsts_seen mem, firsts_seen mem] at later
      cases idle : a.idle <;> simp [firsts, mem, idle, later]
    · cases idle : a.idle with
      | false => simp [firsts, mem, idle, later]
      | true =>
        -- No other attribute of the name is left to come first.
        have unseen : firsts (a.name :: seen) (rest.filter fun b => !b.idle) =
            firsts seen (rest.filter fun b => !b.idle) := by
          refine firsts_congr fun b inside => ?_
          obtain ⟨inside, stays⟩ := List.mem_filter.1 inside
          have other : b.name ≠ a.name := by
            intro same
            simp [covered.1 idle mem b inside same] at stays
          simp [other]
        simp [firsts, mem, idle, ← later, unseen]

theorem name_rounded (a : Attr) : a.rounded.name = a.name := by
  unfold Attr.rounded
  split <;> rfl

theorem idle_rounded (a : Attr) : a.rounded.idle = a.idle := by
  unfold Attr.rounded
  split
  · next long =>
    obtain ⟨whole, places, -, -, -, -, written⟩ := isLongDecimal_iff.1 long
    have some_value : a.value ≠ [] := by simp [written]
    have some_rounded := roundedText_ne_nil some_value
    simp only [Attr.idle, List.isEmpty_eq_false_iff.2 some_value, List.isEmpty_eq_false_iff.2 some_rounded]
  · rfl

theorem firsts_rounded (seen : List (List Char)) (attrs : List Attr) :
    firsts seen (attrs.map Attr.rounded) = (firsts seen attrs).map Attr.rounded := by
  induction attrs generalizing seen with
  | nil => rfl
  | cons a rest ih =>
    simp only [List.map_cons, firsts, name_rounded, ih]
    split <;> rfl

/-- The attributes that count are the same, without those that go, and rounded. -/
theorem firsts_shortened {attrs : List Attr} (clear : Clear attrs) :
    firsts [] (shortened attrs) =
      ((firsts [] attrs).filter fun a => !a.idle).map Attr.rounded := by
  -- Rounding changes no name and leaves no value empty, so it may as well come last.
  have moved : shortened attrs =
      ((squeeze (fun _ => false) attrs).filter fun a => !a.idle).map Attr.rounded := by
    rw [shortened, List.filter_map]
    congr 2
    funext a
    simp [idle_rounded]
  rw [moved, firsts_rounded, firsts_filter clear.covered, firsts_squeeze (by simp) clear.apart]

/-! ### Eased trees -/

/-- The entry that an attribute is read as. -/
def Attr.read (a : Attr) : String × Json :=
  (String.ofList a.name, .str (String.ofList (Entity.decode a.value)))

/-- Entries of attributes and of what is left of them: some without a value are gone, long decimals
are rounded, and all others are the same. -/
inductive EasedEntries : List (String × Json) → List (String × Json) → Prop where
  | nil : EasedEntries [] []
  | keep {a : Attr} {es es' : List (String × Json)} : isLongDecimal a.value = false →
      EasedEntries es es' → EasedEntries (a.read :: es) (a.read :: es')
  | round {a : Attr} {es es' : List (String × Json)} : isLongDecimal a.value = true →
      EasedEntries es es' →
      EasedEntries (a.read :: es)
        ((String.ofList a.name, .str (String.ofList (roundedText a.value))) :: es')
  | gone (name : String) {es es' : List (String × Json)} :
      EasedEntries es es' → EasedEntries ((name, .str "") :: es) es'

/-- An entry with a value stays, whatever its value becomes. -/
theorem EasedEntries.kept {es es' : List (String × Json)} (eased : EasedEntries es es') :
    ∀ e ∈ es, e.2 ≠ .str "" → e.1 ∈ es'.map Prod.fst := by
  induction eased with
  | nil => simp
  | keep _ _ ih | round _ _ ih =>
    intro e mem some_value
    obtain rfl | mem := List.mem_cons.1 mem
    · exact List.mem_cons_self
    · exact List.mem_cons_of_mem _ (ih e mem some_value)
  | gone _ _ ih =>
    intro e mem some_value
    obtain rfl | mem := List.mem_cons.1 mem
    · exact absurd rfl some_value
    · exact ih e mem some_value

/-- An element that differs in its attributes only. -/
def EasedElement (data data' : Element) : Prop :=
  ∃ m m' : OrderedMap Json, data.attributes = some m ∧ data' = { data with attributes := some m' } ∧
    EasedEntries m.entries m'.entries

/-- Trees of one shape, with the same texts, and with eased elements. -/
inductive Eased : Node → Node → Prop where
  | element {data data' : Element} {cs cs' : List Node} : EasedElement data data' →
      List.Forall₂ Eased cs cs' → Eased (.element data cs) (.element data' cs')
  | text (content : String) : Eased (.text content) (.text content)
  | fragment {cs cs' : List Node} : List.Forall₂ Eased cs cs' → Eased (.fragment cs) (.fragment cs')

/-- Both are read into trees, or neither, for one and the same fault. -/
def EasedResult : Except Fault Node → Except Fault Node → Prop
  | .ok tree, .ok tree' => Eased tree tree'
  | .error fault, .error fault' => fault = fault'
  | _, _ => False

theorem Attr.plain_rounded {a : Attr} (long : isLongDecimal a.value = true) :
    '&' ∉ a.value ∧ '&' ∉ roundedText a.value :=
  ⟨fun mem => absurd (mem_longDecimal long mem) (by decide), not_mem_roundedText long (by decide)⟩

theorem easedEntries_filter (attrs : List Attr) : EasedEntries (attrs.map Attr.read)
    (((attrs.filter fun a => !a.idle).map Attr.rounded).map Attr.read) := by
  induction attrs with
  | nil => exact .nil
  | cons a rest ih =>
    cases idle : a.idle with
    | true =>
      have none_left : a.read = (String.ofList a.name, .str "") := by
        simp [Attr.read, (Attr.idle_eq_true idle).1, Entity.decode_plain]
      simpa [idle, none_left] using EasedEntries.gone _ ih
    | false =>
      cases long : isLongDecimal a.value with
      | false => simpa [idle, Attr.rounded_short long] using EasedEntries.keep long ih
      | true =>
        have behind : a.rounded.read =
            (String.ofList a.name, .str (String.ofList (roundedText a.value))) := by
          rw [Attr.rounded_long long, Attr.read, Entity.decode_plain (Attr.plain_rounded long).2]
        simpa [idle, behind] using EasedEntries.round long ih

theorem entries_numbered {t : Tag} (proper : t.Proper) :
    ((attributesOf t.inner).mapValues Json.str).entries = (firsts [] t.attrs).map Attr.read := by
  simp only [OrderedMap.entries_mapValues, attributesOf, Tag.inner, writtenAttributes_attrs proper.attrs proper.blank, List.map_map]
  rfl

theorem EasedElement.entries {number number' : Nat} {tag tag' : String} {inner inner' : List Char}
    (eased : EasedElement (numbered number tag inner) (numbered number' tag' inner')) :
    EasedEntries ((attributesOf inner).mapValues Json.str).entries
      ((attributesOf inner').mapValues Json.str).entries := by
  obtain ⟨m, m', before, behind, entries⟩ := eased
  have behind' : (numbered number' tag' inner').attributes = some m' := by rw [behind]
  rwa [Option.some.inj before, Option.some.inj behind']

/-! ### Reading -/

structure EasedFrame (f f' : Frame) : Prop where
  data : EasedElement f.data f'.data
  children : List.Forall₂ Eased f.children f'.children

structure EasedBuilding (b b' : Building) : Prop where
  stack : List.Forall₂ EasedFrame b.stack b'.stack
  roots : List.Forall₂ Eased b.roots b'.roots
  count : b'.count = b.count

theorem EasedElement.tag {data data' : Element} (eased : EasedElement data data') :
    data'.tag = data.tag := by
  obtain ⟨m, m', -, rfl, -⟩ := eased
  rfl

theorem EasedFrame.finish {f f' : Frame} (eased : EasedFrame f f') {last last' : List Node}
    (nodes : List.Forall₂ Eased last last') : Eased (f.finish last) (f'.finish last') :=
  .element eased.data (List.forall₂_reverse_iff.2 (List.rel_append nodes eased.children))

namespace EasedBuilding

variable {b b' : Building}

theorem append (eased : EasedBuilding b b') {n n' : Node} (node : Eased n n') :
    EasedBuilding (b.append n) (b'.append n') := by
  obtain ⟨stack, roots, count⟩ := b
  obtain ⟨stack', roots', count'⟩ := b'
  obtain ⟨frames, nodes, same⟩ := eased
  cases frames with
  | nil => exact ⟨.nil, .cons node nodes, same⟩
  | cons frame rest => exact ⟨.cons ⟨frame.data, .cons node frame.children⟩ rest, nodes, same⟩

theorem appendText (eased : EasedBuilding b b') (text : List Char) :
    EasedBuilding (b.appendText text) (b'.appendText text) := by
  unfold Building.appendText
  split
  · exact eased
  · exact eased.append (.text _)

theorem unwind (stopAt : Option String) {stack stack' : List Frame}
    (frames : List.Forall₂ EasedFrame stack stack') {last last' : List Node}
    (nodes : List.Forall₂ Eased last last') :
    List.Forall₂ EasedFrame (Building.unwind stopAt last stack).1 (Building.unwind stopAt last' stack').1 ∧
      List.Forall₂ Eased (Building.unwind stopAt last stack).2 (Building.unwind stopAt last' stack').2 := by
  induction frames generalizing last last' with
  | nil => exact ⟨.nil, nodes⟩
  | @cons f f' rest rest' frame others ih =>
    have node := frame.finish nodes
    -- Both stop at the same frame, as their tags are the same.
    simp only [Building.unwind, frame.data.tag]
    split
    · cases others with
      | nil => exact ⟨.nil, .cons node .nil⟩
      | cons outer more => exact ⟨.cons ⟨outer.data, .cons node outer.children⟩ more, .nil⟩
    · exact ih (.cons node .nil)

theorem close (eased : EasedBuilding b b') (stopAt : Option String) :
    EasedBuilding (b.close stopAt) (b'.close stopAt) := by
  obtain ⟨frames, nodes⟩ := unwind stopAt eased.stack .nil
  exact ⟨frames, List.rel_append nodes eased.roots, eased.count⟩

theorem finish (eased : EasedBuilding b b') : Eased b.finish b'.finish := by
  have closed := eased.close none
  unfold Building.finish
  generalize b.close none = c, b'.close none = c' at closed
  obtain ⟨stack, roots, count⟩ := c
  obtain ⟨stack', roots', count'⟩ := c'
  obtain ⟨-, nodes, -⟩ := closed
  cases nodes with
  | nil => exact .fragment .nil
  | cons node rest =>
    cases rest with
    | nil => exact node
    | cons node' rest =>
      exact .fragment (List.forall₂_reverse_iff.2 (.cons node (.cons node' rest)))

theorem stop (eased : EasedBuilding b b') (tag : String) :
    EasedBuilding (b.appendToken (.stop tag)) (b'.appendToken (.stop tag)) := by
  have opened : ∀ {stack stack' : List Frame}, List.Forall₂ EasedFrame stack stack' →
      stack'.any (·.data.tag == tag) = stack.any (·.data.tag == tag) := by
    intro stack stack' frames
    induction frames with
    | nil => rfl
    | cons frame rest ih => simp [frame.data.tag, ih]
  simp only [Building.appendToken, opened eased.stack]
  split
  · exact eased.close (some tag)
  · exact eased

theorem start (eased : EasedBuilding b b') {tag : String} {inner inner' : List Char}
    (element : ∀ number, EasedElement (numbered number tag inner) (numbered number tag inner'))
    (selfClosing : Bool) : EasedBuilding (b.appendToken (.start tag inner selfClosing))
      (b'.appendToken (.start tag inner' selfClosing)) := by
  obtain ⟨stack, roots, count⟩ := b
  obtain ⟨stack', roots', count'⟩ := b'
  obtain ⟨frames, nodes, same⟩ := eased
  obtain rfl : count' = count := same
  have data := element (count' + 1)
  have counted : EasedBuilding ⟨stack, roots, count' + 1⟩ ⟨stack', roots', count' + 1⟩ :=
    ⟨frames, nodes, rfl⟩
  cases selfClosing with
  | true => exact counted.append (.element data .nil)
  | false => exact ⟨.cons ⟨data, .nil⟩ frames, nodes, rfl⟩

end EasedBuilding

/-! ### Shortened documents -/

theorem numbered_eased {t : Tag} (proper : t.Proper) (clear : Clear t.attrs) (number : Nat)
    (tag : String) :
    EasedElement (numbered number tag t.inner) (numbered number tag (t.withAttrs shortened).inner) := by
  have left : (t.withAttrs shortened).Proper := proper.shortened
  refine ⟨_, _, rfl, rfl, ?_⟩
  rw [entries_numbered proper, entries_numbered left]
  change EasedEntries _ ((firsts [] (shortened t.attrs)).map Attr.read)
  rw [firsts_shortened clear]
  exact easedEntries_filter _

theorem EasedBuilding.tag {b b' : Building} (eased : EasedBuilding b b') {t : Tag} (proper : t.Proper)
    (clear : Clear t.attrs) :
    EasedBuilding (b.appendToken t.token) (b'.appendToken (t.withAttrs shortened).token) := by
  cases closing : t.closing with
  | true => simpa [Tag.token, Tag.withAttrs, closing] using eased.stop (String.ofList t.name)
  | false =>
    have token : (t.withAttrs shortened).token =
        .start (String.ofList t.name) (t.withAttrs shortened).inner t.selfClosing := by
      simp [Tag.token, Tag.withAttrs, closing]
    have token' : t.token = .start (String.ofList t.name) t.inner t.selfClosing := by
      simp [Tag.token, closing]
    rw [token, token']
    exact eased.start (fun number => numbered_eased proper clear number _) t.selfClosing

/-- Every attribute of every tag can be shortened without another one being touched. -/
def Document.Clear (d : Document) : Prop := ∀ hit ∈ d.hits, Markup.Clear hit.value.attrs

instance (d : Document) : Decidable d.Clear :=
  inferInstanceAs (Decidable (∀ hit ∈ d.hits, Markup.Clear hit.value.attrs))

theorem Document.Clear.rest {hit : Hit Tag} {hits : List (Hit Tag)} {tail : List Char}
    (clear : Document.Clear ⟨hit :: hits, tail⟩) : Document.Clear ⟨hits, tail⟩ :=
  fun h mem => clear h (List.mem_cons_of_mem hit mem)

/-- Tag by tag, both buildings stay eased. -/
theorem EasedBuilding.hits {b b' : Building} (eased : EasedBuilding b b') {d : Document}
    (proper : d.Proper) (clear : d.Clear) :
    EasedBuilding ((Cut.map Tag.token d).hits.foldl Building.step b)
      ((Cut.map Tag.token (d.withAttrs shortened)).hits.foldl Building.step b') := by
  obtain ⟨hits, tail⟩ := d
  induction hits generalizing b b' with
  | nil => exact eased
  | cons hit rest ih =>
    have first := (eased.appendText hit.passed).tag (proper.tags hit List.mem_cons_self)
      (clear hit List.mem_cons_self)
    exact ih first proper.rest clear.rest

theorem eased_treeOf {d : Document} (proper : d.Proper) (clear : d.Clear) :
    Eased (treeOf (Cut.map Tag.token d)) (treeOf (Cut.map Tag.token (d.withAttrs shortened))) :=
  ((EasedBuilding.hits ⟨.nil, .nil, rfl⟩ proper clear).appendText d.tail).finish

/-! ### What can be read -/

theorem checkAttributes_inner {t : Tag} (proper : t.Proper) :
    checkAttributes t.inner = (firsts [] t.attrs).forM fun a => Entity.check a.value := by
  have values : (writtenAttributes t.inner).values = (firsts [] t.attrs).map Attr.value := by
    rw [OrderedMap.values, Tag.inner, writtenAttributes_attrs proper.attrs proper.blank, List.map_map]
    rfl
  rw [checkAttributes, values]
  exact List.forM_map

theorem forM_check_filter (attrs : List Attr) :
    (((attrs.filter fun a => !a.idle).map Attr.rounded).forM fun a => Entity.check a.value) =
      attrs.forM fun a => Entity.check a.value := by
  induction attrs with
  | nil => rfl
  | cons a rest ih =>
    cases idle : a.idle with
    | true =>
      have readable : Entity.check a.value = .ok () := by
        rw [(Attr.idle_eq_true idle).1]
        exact Entity.check_plain (by simp)
      rw [List.filter_cons_of_neg (by simp [idle]), List.forM, readable, ih]
      rfl
    | false =>
      have same : Entity.check a.rounded.value = Entity.check a.value := by
        cases long : isLongDecimal a.value with
        | false => rw [Attr.rounded_short long]
        | true =>
          rw [Attr.rounded_long long, Entity.check_plain (Attr.plain_rounded long).1,
            Entity.check_plain (Attr.plain_rounded long).2]
      rw [List.filter_cons_of_pos (by simp [idle]), List.map_cons, List.forM, List.forM, same, ih]

theorem check_shortened {t : Tag} (proper : t.Proper) (clear : Clear t.attrs) :
    (t.withAttrs shortened).token.check = t.token.check := by
  have same : checkAttributes (t.withAttrs shortened).inner = checkAttributes t.inner := by
    rw [checkAttributes_inner proper, checkAttributes_inner proper.shortened]
    change ((firsts [] (shortened t.attrs)).forM fun a => Entity.check a.value) = _
    rw [firsts_shortened clear, forM_check_filter]
  cases closing : t.closing with
  | true => simp [Tag.token, Tag.withAttrs, closing]
  | false => simpa [Tag.token, Tag.withAttrs, closing, Token.check] using same

theorem checkTree_shortened {d : Document} (proper : d.Proper) (clear : d.Clear) :
    checkTree (Cut.map Tag.token (d.withAttrs shortened)) = checkTree (Cut.map Tag.token d) := by
  have hits : (Cut.map Tag.token (d.withAttrs shortened)).hits.forM checkHit =
      (Cut.map Tag.token d).hits.forM checkHit := by
    obtain ⟨hits, tail⟩ := d
    induction hits with
    | nil => rfl
    | cons hit rest ih =>
      have first := check_shortened (proper.tags hit List.mem_cons_self) (clear hit List.mem_cons_self)
      have others := ih proper.rest clear.rest
      simp only [Cut.map, Document.withAttrs, List.map_cons, List.forM, checkHit, first] at others ⊢
      rw [others]
  rw [checkTree, checkTree, hits]
  rfl

theorem parse_write {d : Document} (proper : d.Proper)
    (readable : checkTree (Cut.map Tag.token d) = .ok ()) :
    parse d.write = .ok (treeOf (Cut.map Tag.token d)) := by
  rw [parse, Document.tokens_write proper, readable]
  rfl

/-- Shortening takes attributes out of a document's tags and rounds long decimals. Where it can take
none for another, what is read is the same but for attributes without a value and for the rounding. -/
theorem parse_optimize {d : Document} (proper : d.Proper) (plain : d.Plain) :
    optimize d.write = (d.withAttrs shortened).write ∧
      (d.Clear → EasedResult (parse d.write) (parse (optimize d.write))) := by
  refine ⟨Document.optimize_write proper plain, fun clear => ?_⟩
  rw [Document.optimize_write proper plain, parse, parse, Document.tokens_write proper,
    Document.tokens_write proper.shortened, checkTree_shortened proper clear]
  cases checkTree (Cut.map Tag.token d) with
  | error fault => rfl
  | ok u => exact eased_treeOf proper clear

/-- Attributes of a tag, each behind one space. -/
def row (entries : List (String × String)) : List Attr :=
  entries.map fun e => ⟨[' '], e.1.toList, e.2.toList⟩

/-- A shape in a group, with a repetition, a value that is none and a decimal to round. -/
def drawing : Document where
  hits := [
    ⟨[], ⟨false, "g".toList, row [("id", "top"), ("id", "other"), ("fill", "")], [], false⟩⟩,
    ⟨"A &amp; b".toList, ⟨false, "rect".toList, row [("x", "1.23456"), ("y", "2")], [' '], true⟩⟩,
    ⟨[], ⟨true, "g".toList, [], [], false⟩⟩]
  tail := []

theorem parse_optimize_drawing : drawing.Proper ∧ drawing.Plain ∧ drawing.Clear ∧
    String.ofList drawing.write =
      "<g id=\"top\" id=\"other\" fill=\"\">A &amp; b<rect x=\"1.23456\" y=\"2\" /></g>" ∧
    String.ofList (optimize drawing.write) = "<g id=\"top\">A &amp; b<rect x=\"1.23\" y=\"2\" /></g>" ∧
    EasedResult (parse drawing.write) (parse (optimize drawing.write)) := by
  have proper : drawing.Proper := by decide +kernel
  have plain : drawing.Plain := Document.plain_of_last (by decide +kernel) (by decide +kernel)
  have clear : drawing.Clear := by decide +kernel
  obtain ⟨written, eased⟩ := parse_optimize proper plain
  refine ⟨proper, plain, clear, by decide +kernel, ?_, eased clear⟩
  rw [written]
  decide +kernel

/-- A shape with an attribute whose name is the end of the name before it. -/
def corner : Tag := ⟨false, "rect".toList, row [("rx", "1"), ("x", "2")], [], true⟩

def cornerOnly : Document := ⟨[⟨[], corner⟩], []⟩

/-- An attribute with a value of its own is taken for a repetition and lost. -/
theorem optimize_loses : cornerOnly.Proper ∧ cornerOnly.Plain ∧
    String.ofList cornerOnly.write = "<rect rx=\"1\" x=\"2\"/>" ∧
    String.ofList (optimize cornerOnly.write) = "<rect rx=\"1\"/>" ∧
    ¬EasedResult (parse cornerOnly.write) (parse (optimize cornerOnly.write)) := by
  have proper : cornerOnly.Proper := by decide +kernel
  have plain : cornerOnly.Plain := Document.plain_of_last (by decide +kernel) (by decide +kernel)
  have written := Document.optimize_write proper plain
  have shown : String.ofList (cornerOnly.withAttrs shortened).write = "<rect rx=\"1\"/>" := by
    decide +kernel
  refine ⟨proper, plain, by decide +kernel, by rw [written, shown], fun eased => ?_⟩
  rw [written, parse_write proper rfl, parse_write proper.shortened rfl] at eased
  -- Both trees are one element, and its second attribute would have to be there still.
  have element : EasedElement (numbered 1 "rect" corner.inner)
      (numbered 1 "rect" (corner.withAttrs shortened).inner) := by
    cases eased with
    | element data _ => exact data
  have tag : corner.Proper := proper.tags ⟨[], corner⟩ List.mem_cons_self
  have entries := element.entries
  rw [entries_numbered tag, entries_numbered tag.shortened] at entries
  have given : (⟨[' '], ['x'], ['2']⟩ : Attr) ∈ firsts [] corner.attrs := by decide
  have stays := entries.kept _ (List.mem_map_of_mem (f := Attr.read) given)
    (by simp [Attr.read, Entity.decode_plain])
  exact absurd stays (by decide +kernel)

end DesignComponents.Markup
