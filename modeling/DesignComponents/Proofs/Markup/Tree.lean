import DesignComponents.Markup.Tree
import DesignComponents.Proofs.Markup.Token
import DesignComponents.Proofs.Text.Entity

/-! Every text is read into a tree of precisely what stands in it, whatever is left open, closed
twice or closed crosswise. The only texts that are not read have a decimal reference of more digits
than a number is read from. What a walk over the tree meets is told by a walk over it while it is being
built: the finished roots, then the open elements from the outside in, each with the children it has so
far. -/

set_option autoImplicit false

namespace DesignComponents.Markup

open Text Source

/-! ### Walks -/

/-- What a walk meets: an element where it starts, and a text. -/
inductive Item where
  | element (data : Element)
  | text (content : String)

/-- The element that an item is, if it is one. -/
def Item.element? : Item → Option Element
  | .element data => some data
  | .text _ => none

mutual

/-- The elements and texts of a tree in document order, each element before what is inside it. -/
def walk : Node → List Item
  | .element data cs => .element data :: walkAll cs
  | .text content => [.text content]
  | .fragment cs => walkAll cs
  | .foreign => []

def walkAll : List Node → List Item
  | [] => []
  | n :: rest => walk n ++ walkAll rest

end

theorem walkAll_append (left right : List Node) :
    walkAll (left ++ right) = walkAll left ++ walkAll right := by
  induction left with
  | nil => rfl
  | cons n rest ih => simp only [List.cons_append, walkAll, ih, List.append_assoc]

/-! ### The walk over a tree that is being built -/

/-- Over the open elements, the innermost of which is the first of the list and the last of the
walk. -/
def walkFrames : List Frame → List Item
  | [] => []
  | f :: outer => walkFrames outer ++ .element f.data :: walkAll f.children.reverse

def Building.walk (b : Building) : List Item :=
  walkAll b.roots.reverse ++ walkFrames b.stack

theorem Frame.walk_finish (f : Frame) (last : List Node) :
    Markup.walk (f.finish last) =
      .element f.data :: (walkAll f.children.reverse ++ walkAll last.reverse) := by
  simp only [Frame.finish, Markup.walk, List.reverse_append, walkAll_append]

namespace Building

theorem walk_append (b : Building) (n : Node) : (b.append n).walk = b.walk ++ Markup.walk n := by
  obtain ⟨stack, roots, count⟩ := b
  cases stack with
  | nil => simp [append, walk, walkFrames, walkAll_append, walkAll]
  | cons f rest => simp [append, walk, walkFrames, walkAll_append, walkAll]

theorem count_append (b : Building) (n : Node) : (b.append n).count = b.count := by
  obtain ⟨stack, roots, count⟩ := b
  cases stack <;> rfl

/-- Closing moves nodes up the stack and out of it, and no item moves past another. -/
theorem walk_unwind (stopAt : Option String) (last : List Node) (stack : List Frame) :
    walkAll (unwind stopAt last stack).2.reverse ++ walkFrames (unwind stopAt last stack).1 =
      walkFrames stack ++ walkAll last.reverse := by
  induction stack generalizing last with
  | nil => simp [unwind, walkFrames]
  | cons f rest ih =>
    unfold unwind
    split
    · cases rest with
      | nil => simp [walkFrames, walkAll, Frame.walk_finish]
      | cons g outer => simp [walkFrames, walkAll, walkAll_append, Frame.walk_finish]
    · rw [ih]
      simp [walkFrames, walkAll, Frame.walk_finish]

theorem walk_close (b : Building) (stopAt : Option String) : (b.close stopAt).walk = b.walk := by
  simp [close, walk, walkAll_append, walkAll, walk_unwind]

theorem unwind_none (last : List Node) (stack : List Frame) :
    (unwind none last stack).1 = [] := by
  induction stack generalizing last with
  | nil => rfl
  | cons f rest ih => simpa [unwind] using ih _

/-- The end of input closes every element, so the roots hold all that was met. -/
theorem walk_finish (b : Building) : Markup.walk b.finish = b.walk := by
  have closed : (b.close none).stack = [] := unwind_none [] b.stack
  rw [← walk_close b none, walk, closed, walkFrames, List.append_nil, finish]
  split
  · next n only => simp [only, walkAll]
  · simp [Markup.walk]

end Building

/-! ### What stands in the text -/

/-- The item of a text between two tags: none where it is blank. -/
def textItems (text : List Char) : List Item :=
  match trim text with
  | [] => []
  | cs => [.text (String.ofList (Entity.decode cs))]

/-- The element that the start tag with this number opens. -/
def numbered (number : Nat) (tag : String) (attributes : List Char) : Element :=
  { id := s!"node-{number}", tag
    attributes := some ((attributesOf attributes).mapValues .str) }

/-- The item of a tag, after `count` start tags. -/
def tokenItems (count : Nat) : Token → List Item
  | .start tag attributes _ => [.element (numbered (count + 1) tag attributes)]
  | .stop _ | .aside => []

def countAfter (count : Nat) (t : Token) : Nat := if t.isStart then count + 1 else count

/-- The items of a text's pieces in order, after `count` start tags. -/
def hitItems (count : Nat) : List (Hit Token) → List Item
  | [] => []
  | hit :: rest =>
    textItems hit.passed ++ tokenItems count hit.value ++ hitItems (countAfter count hit.value) rest

/-- All the items of a text: what stands before each tag, the tag, and what is left at the end. -/
def itemsOf (c : Cut Token) : List Item := hitItems 0 c.hits ++ textItems c.tail

namespace Building

theorem walk_appendText (b : Building) (text : List Char) :
    (b.appendText text).walk = b.walk ++ textItems text := by
  unfold appendText textItems
  cases trim text with
  | nil => simp
  | cons c cs => simp [walk_append, Markup.walk]

theorem count_appendText (b : Building) (text : List Char) :
    (b.appendText text).count = b.count := by
  unfold appendText
  split <;> simp [count_append]

theorem walk_appendToken (b : Building) (t : Token) :
    (b.appendToken t).walk = b.walk ++ tokenItems b.count t := by
  cases t with
  | aside => simp [appendToken, tokenItems]
  | stop tag =>
    rw [appendToken]
    split <;> simp [walk_close, tokenItems]
  | start tag attributes selfClosing =>
    cases selfClosing with
    | true =>
      simp only [appendToken, if_true, walk_append, tokenItems, numbered, Markup.walk, walkAll]
      rfl
    | false => simp [appendToken, walk, walkFrames, walkAll, tokenItems, numbered]

theorem count_appendToken (b : Building) (t : Token) :
    (b.appendToken t).count = countAfter b.count t := by
  cases t with
  | aside => rfl
  | stop tag =>
    rw [appendToken]
    split <;> rfl
  | start tag attributes selfClosing =>
    cases selfClosing with
    | true => simp [appendToken, count_append, countAfter, Token.isStart]
    | false => simp [appendToken, countAfter, Token.isStart]

/-- One piece adds its own items behind those met before. -/
theorem walk_step (b : Building) (hit : Hit Token) :
    (b.step hit).walk = b.walk ++ (textItems hit.passed ++ tokenItems b.count hit.value) := by
  rw [step, walk_appendToken, walk_appendText, count_appendText, List.append_assoc]

theorem count_step (b : Building) (hit : Hit Token) :
    (b.step hit).count = countAfter b.count hit.value := by
  rw [step, count_appendToken, count_appendText]

theorem walk_run (b : Building) (hits : List (Hit Token)) :
    (hits.foldl step b).walk = b.walk ++ hitItems b.count hits := by
  induction hits generalizing b with
  | nil => simp [hitItems]
  | cons hit rest ih =>
    rw [List.foldl_cons, ih, walk_step, count_step, hitItems]
    simp only [List.append_assoc]

end Building

theorem walk_treeOf (c : Cut Token) : walk (treeOf c) = itemsOf c := by
  rw [treeOf, Building.walk_finish, Building.walk_appendText, Building.walk_run]
  simp [Building.walk, walkAll, walkFrames, itemsOf]

/-! ### The texts that can be read -/

/-- The values of a tag in which references are looked for. -/
def Token.spelledValues : Token → List (List Char)
  | .start _ attributes _ => (writtenAttributes attributes).values
  | .stop _ | .aside => []

/-- All texts in which references are looked for: what stands between tags, and their values. -/
def spelledIn (c : Cut Token) : List (List Char) :=
  (c.hits.flatMap fun hit => hit.passed :: hit.value.spelledValues) ++ [c.tail]

/-- Each reference of a text is one that can be read. -/
def Legible (text : List Char) : Prop :=
  ∀ spelled ∈ spelledIn (tokens text), Entity.Readable spelled

theorem Token.check_eq_ok {t : Token} :
    t.check = .ok () ↔ ∀ spelled ∈ t.spelledValues, Entity.Readable spelled := by
  cases t with
  | start tag attributes selfClosing =>
    simp only [check, checkAttributes, forM_eq_ok, Entity.check_eq_ok, spelledValues]
  | stop tag => simp [check, spelledValues]
  | aside => simp [check, spelledValues]

theorem Token.check_eq_error {t : Token} {fault : Fault} (fails : t.check = .error fault) :
    ∃ count, mostDigits < count ∧ fault = .tooManyDigits count := by
  cases t with
  | start tag attributes selfClosing =>
    obtain ⟨spelled, -, fails⟩ := forM_eq_error fails
    exact Entity.check_eq_error fails
  | stop tag => simp [check] at fails
  | aside => simp [check] at fails

theorem checkHit_eq_ok {hit : Hit Token} :
    checkHit hit = .ok () ↔
      Entity.Readable hit.passed ∧ ∀ spelled ∈ hit.value.spelledValues, Entity.Readable spelled := by
  rw [← Entity.check_eq_ok, ← Token.check_eq_ok, checkHit]
  cases Entity.check hit.passed with
  | error fault => simp [bind, Except.bind]
  | ok u => simp [bind, Except.bind]

theorem checkHit_eq_error {hit : Hit Token} {fault : Fault} (fails : checkHit hit = .error fault) :
    ∃ count, mostDigits < count ∧ fault = .tooManyDigits count := by
  rw [checkHit] at fails
  cases passed : Entity.check hit.passed with
  | error first =>
    simp only [passed, bind, Except.bind, Except.error.injEq] at fails
    exact Entity.check_eq_error (fails ▸ passed)
  | ok u =>
    simp only [passed, bind, Except.bind] at fails
    exact Token.check_eq_error fails

theorem checkTree_eq_ok {c : Cut Token} :
    checkTree c = .ok () ↔ ∀ spelled ∈ spelledIn c, Entity.Readable spelled := by
  have hits : c.hits.forM checkHit = .ok () ↔
      ∀ spelled ∈ c.hits.flatMap fun hit => hit.passed :: hit.value.spelledValues,
        Entity.Readable spelled := by
    simp only [forM_eq_ok, checkHit_eq_ok, List.mem_flatMap, List.mem_cons]
    constructor
    · rintro all spelled ⟨hit, mem, rfl | inside⟩
      · exact (all hit mem).1
      · exact (all hit mem).2 spelled inside
    · intro all hit mem
      exact ⟨all _ ⟨hit, mem, .inl rfl⟩, fun spelled inside => all spelled ⟨hit, mem, .inr inside⟩⟩
  rw [checkTree, spelledIn, List.forall_mem_append, ← hits, List.forall_mem_singleton,
    ← Entity.check_eq_ok]
  cases c.hits.forM checkHit with
  | error fault => simp [bind, Except.bind]
  | ok u => simp [bind, Except.bind]

theorem checkTree_eq_error {c : Cut Token} {fault : Fault} (fails : checkTree c = .error fault) :
    ∃ count, mostDigits < count ∧ fault = .tooManyDigits count := by
  rw [checkTree] at fails
  cases hits : c.hits.forM checkHit with
  | error first =>
    simp only [hits, bind, Except.bind, Except.error.injEq] at fails
    obtain ⟨hit, -, first_fails⟩ := forM_eq_error hits
    exact checkHit_eq_error (fails ▸ first_fails)
  | ok u =>
    simp only [hits, bind, Except.bind] at fails
    exact Entity.check_eq_error fails

theorem parse_legible {text : List Char} (legible : Legible text) :
    parse text = .ok (treeOf (tokens text)) := by
  simp only [parse, checkTree_eq_ok.2 legible]
  rfl

theorem parse_illegible {text : List Char} (illegible : ¬ Legible text) :
    ∃ count, mostDigits < count ∧ parse text = .error (.tooManyDigits count) := by
  cases checked : checkTree (tokens text) with
  | ok u => exact absurd (checkTree_eq_ok.1 checked) illegible
  | error fault =>
    obtain ⟨count, beyond, rfl⟩ := checkTree_eq_error checked
    exact ⟨count, beyond, by simp only [parse, checked]; rfl⟩

/-! ### The elements of a tree -/

mutual

theorem walk_elements : ∀ n : Node, (walk n).filterMap Item.element? = n.elements.map Prod.fst
  | .element data cs => by
    rw [walk, Node.elements, List.map_cons, ← walkAll_elements cs]
    rfl
  | .text content => rfl
  | .fragment cs => by rw [walk, Node.elements, walkAll_elements cs]
  | .foreign => rfl

theorem walkAll_elements :
    ∀ ns : List Node, (walkAll ns).filterMap Item.element? = (Node.elementsOf ns).map Prod.fst
  | [] => rfl
  | n :: rest => by
    rw [walkAll, Node.elementsOf, List.filterMap_append, List.map_append, walk_elements n,
      walkAll_elements rest]

end

/-- The tag and the attributes of a start tag. -/
def Token.opened? : Token → Option (String × List Char)
  | .start tag attributes _ => some (tag, attributes)
  | .stop _ | .aside => none

/-- The start tags of a text in order. -/
def startTags (c : Cut Token) : List (String × List Char) := c.values.filterMap Token.opened?

/-- The elements that start tags open, after `count` others. -/
def opened (count : Nat) (starts : List (String × List Char)) : List Element :=
  (starts.zipIdx (count + 1)).map fun (start, number) => numbered number start.1 start.2

theorem textItems_elements (text : List Char) : (textItems text).filterMap Item.element? = [] := by
  unfold textItems
  split <;> rfl

theorem hitItems_elements (count : Nat) (hits : List (Hit Token)) :
    (hitItems count hits).filterMap Item.element? =
      opened count ((hits.map Hit.value).filterMap Token.opened?) := by
  induction hits generalizing count with
  | nil => rfl
  | cons hit rest ih =>
    obtain ⟨passed, t⟩ := hit
    rw [hitItems, List.filterMap_append, List.filterMap_append, textItems_elements, ih]
    cases t with
    | start tag attributes selfClosing => rfl
    | stop tag => rfl
    | aside => rfl

theorem elements_treeOf (c : Cut Token) :
    (treeOf c).elements.map Prod.fst = opened 0 (startTags c) := by
  rw [← walk_elements, walk_treeOf, itemsOf, List.filterMap_append, hitItems_elements,
    textItems_elements, List.append_nil]
  rfl

theorem length_startTags (c : Cut Token) : (startTags c).length = c.values.countP Token.isStart := by
  rw [startTags, List.length_filterMap_eq_countP]
  congr 1
  funext t
  cases t <;> rfl

theorem getElem?_opened (starts : List (String × List Char)) (k : Nat) :
    (opened 0 starts)[k]? = starts[k]?.map fun start => numbered (k + 1) start.1 start.2 := by
  simp only [opened, List.getElem?_map, List.getElem?_zipIdx, Option.map_map]
  congr 1
  funext start
  simp [Nat.add_comm]

/-! ### What a tree owes to its text -/

/-- The tree has what stands in the text and nothing else, in the order of the text. -/
structure Faithful (text : List Char) (tree : Node) : Prop where
  /-- The walk meets each start tag and each text that is not blank where it stands. -/
  walk : walk tree = itemsOf (tokens text)
  /-- Elements are numbered from one, each with the tag and the attributes of its start tag. -/
  elements : ∀ k, (tree.elements[k]?).map Prod.fst =
    (startTags (tokens text))[k]?.map fun start => numbered (k + 1) start.1 start.2
  count : tree.elements.length = elementCount text

theorem faithful_treeOf (text : List Char) : Faithful text (treeOf (tokens text)) where
  walk := walk_treeOf _
  elements k := by rw [← List.getElem?_map, elements_treeOf, getElem?_opened]
  count := by
    rw [← List.length_map (f := Prod.fst), elements_treeOf, opened, List.length_map,
      List.length_zipIdx, length_startTags]
    rfl

/-- A text is read into a tree that is faithful to it, or has a reference of too many digits. -/
theorem parse_faithful (text : List Char) :
    (Legible text ∧ ∃ tree, parse text = .ok tree ∧ Faithful text tree) ∨
      (¬ Legible text ∧
        ∃ count, mostDigits < count ∧ parse text = .error (.tooManyDigits count)) := by
  by_cases legible : Legible text
  · exact .inl ⟨legible, _, parse_legible legible, faithful_treeOf text⟩
  · exact .inr ⟨legible, parse_illegible legible⟩

/-! ### A text that cannot be read -/

/-- A decimal reference at the end of a text, which no sign ends. -/
theorem findAll_reference_decimal {digits : List Char} (some_digits : digits ≠ [])
    (all : ∀ c ∈ digits, isAsciiDigit c = true) :
    findAll Entity.reference ("&#".toList ++ digits) = [.decimal digits] := by
  have reads : Entity.reference ⟨none, "&#".toList ++ digits⟩ =
      some (.decimal digits, ⟨digits.getLast?.or (some '#'), []⟩) := by
    refine Reader.orElse_eq_some.2 (.inl ?_)
    simp only [Entity.decimalReference, Reader.bind_eq_some, Reader.text_eq_some,
      Reader.many1_eq_some, Reader.pure_eq_some]
    have ahead : (Place.mk (some '#') digits).After digits ⟨digits.getLast?.or (some '#'), []⟩ :=
      ⟨by simp, rfl⟩
    exact ⟨(), ⟨some '#', digits⟩, ⟨rfl, rfl⟩, digits, _, ⟨some_digits, all, by simp, ahead⟩, [], _,
      rfl, rfl, rfl⟩
  rw [findAll, cut_eq_cutAt, Place.start, cutAt_some Entity.reference_takes reads, cutAt_nil]
  rfl

/-- One digit more than a number is read from, in a reference. -/
def overlong : List Char := "&#".toList ++ List.replicate (mostDigits + 1) '1'

theorem overlong_unreadable : ¬Entity.Readable overlong := by
  intro readable
  have found := @findAll_reference_decimal (List.replicate (mostDigits + 1) '1')
    (by simp) (by simp [List.mem_replicate]; decide)
  have mem : .decimal (List.replicate (mostDigits + 1) '1') ∈ findAll Entity.reference overlong := by
    rw [overlong, found]
    exact List.mem_singleton_self _
  have short := readable _ mem
  rw [List.length_replicate] at short
  omega

theorem overlong_illegible : ¬ Legible overlong := by
  intro legible
  have plain : '<' ∉ overlong := by simp [overlong, List.mem_replicate]
  have whole : tokens overlong = Cut.passing overlong := by
    have passed := @cutAt_token_text none overlong [] plain
    rwa [List.append_nil, cutAt_nil, Cut.append_nil] at passed
  exact overlong_unreadable (legible overlong (by simp [whole, spelledIn, Cut.passing]))

/-- Not every text is read: digits of a reference can be too many. -/
theorem not_every_text_parses :
    ¬ ∀ text, ∃ tree, parse text = .ok tree ∧ Faithful text tree := by
  intro every
  obtain ⟨tree, parses, -⟩ := every overlong
  obtain ⟨count, -, fails⟩ := parse_illegible overlong_illegible
  rw [parses] at fails
  exact nomatch fails

end DesignComponents.Markup
