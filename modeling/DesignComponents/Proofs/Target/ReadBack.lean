import DesignComponents.Proofs.Source.Svg
import DesignComponents.Proofs.Target.Jsx

/-! Reading JSX text as markup. The text of a well-formed tree is read as that tree: line breaks and
indentation add nothing to it, and each escaped character comes back once. -/

set_option autoImplicit false

namespace DesignComponents.Target

open Text Markup
open Source (Solid)

/-! ### Trees that can be told from their text -/

/-- An element's own text, as a child. -/
def ownNodes (data : Data) : List Node :=
  match data.text with
  | .str content => [.text content]
  | _ => []

/-- Every name can stand in a tag, every value is a text, and the own text, if there is one, is
solid. -/
structure Data.WellFormed (data : Data) : Prop where
  tag : ProperTag data.tag.toList
  attributes : ∀ e ∈ data.attributes.entries, ProperName e.1.toList ∧ ∃ value, e.2 = .str value
  text : data.text = .null ∨ ∃ content, data.text = .str content ∧ Solid content.toList

theorem Data.WellFormed.textual {data : Data} (wf : data.WellFormed) : data.Textual where
  attributes e entry := (wf.attributes e entry).2
  text := wf.text.imp_right fun ⟨content, own, _⟩ => ⟨content, own⟩

theorem Data.WellFormed.proper {data : Data} (wf : data.WellFormed) : data.Proper where
  tag := wf.tag
  names e entry := (wf.attributes e entry).1

/-- The element that stands in the text, with the number of its start tag. -/
def Data.readBack (data : Data) (number : Nat) : Source.Element :=
  { id := s!"node-{number}", tag := data.tag, attributes := some data.attributes }

def ownTexts (data : Data) : List Source.Node :=
  match data.text with
  | .str content => [.text content]
  | _ => []

namespace Node

/-- Two nodes in a row that are not both texts. -/
def Apart (left right : Node) : Prop := left.data.kind = .text → right.data.kind ≠ .text

mutual

/-- Elements, and texts as leaves, but no two texts in a row, an element's own text being the first
of its texts. -/
def WellFormed : Node → Prop
  | .node data cs =>
    match data.kind with
    | .element => data.WellFormed ∧ (ownNodes data ++ cs).IsChain Apart ∧ WellFormedAll cs
    | .text => (∃ content, data.text = .str content ∧ Solid content.toList) ∧ cs = []
    | .fragment => False

def WellFormedAll : List Node → Prop
  | [] => True
  | n :: rest => WellFormed n ∧ WellFormedAll rest

end

mutual

/-- The tree as markup: own texts are first children, and elements are numbered from `count + 1`
on. -/
def readFrom (count : Nat) : Node → Source.Node
  | .node data cs =>
    match data.kind with
    | .element => .element (data.readBack (count + 1)) (ownTexts data ++ readAllFrom (count + 1) cs)
    | .text => .text (String.ofList (textOf data))
    | .fragment => .fragment (readAllFrom count cs)

def readAllFrom (count : Nat) : List Node → List Source.Node
  | [] => []
  | n :: rest => readFrom count n :: readAllFrom (count + n.elementCount) rest

end

mutual

theorem WellFormed.each : ∀ {n : Node}, n.WellFormed → n.Each Data.WellFormed
  | .node data cs, wf => by
    unfold WellFormed at wf
    unfold Each
    cases kind : data.kind with
    | element =>
      simp only [kind] at wf ⊢
      exact ⟨wf.1, WellFormedAll.each wf.2.2⟩
    | text =>
      simp only [kind] at wf ⊢
      obtain ⟨⟨content, own, -⟩, -⟩ := wf
      exact ⟨content, own⟩
    | fragment => simp [kind] at wf

theorem WellFormedAll.each : ∀ {ns : List Node}, WellFormedAll ns → EachIn Data.WellFormed ns
  | [], _ => trivial
  | _ :: _, ⟨first, others⟩ => ⟨first.each, others.each⟩

end

mutual

theorem elements_readFrom : ∀ {n : Node}, n.WellFormed → ∀ count : Nat,
    (n.readFrom count).elements.length = n.elementCount
  | .node data cs, wf, count => by
    unfold WellFormed at wf
    unfold readFrom elementCount
    cases kind : data.kind with
    | element =>
      simp only [kind] at wf ⊢
      have own : Source.Node.elementsOf (ownTexts data ++ readAllFrom (count + 1) cs) =
          Source.Node.elementsOf (readAllFrom (count + 1) cs) := by
        unfold ownTexts
        split <;> rfl
      rw [Source.Node.elements, own, List.length_cons, elements_readAllFrom wf.2.2, Nat.add_comm]
      rfl
    | text =>
      simp only [kind] at wf ⊢
      simp [wf.2, elementCountIn, Source.Node.elements]
    | fragment => simp [kind] at wf

theorem elements_readAllFrom : ∀ {ns : List Node}, WellFormedAll ns → ∀ count : Nat,
    (Source.Node.elementsOf (readAllFrom count ns)).length = elementCountIn ns
  | [], _, _ => rfl
  | n :: rest, ⟨first, others⟩, count => by
    rw [readAllFrom, Source.Node.elementsOf, List.length_append, elements_readFrom first,
      elements_readAllFrom others, elementCountIn]

end

end Node

/-! ### Texts and tags one by one -/

theorem decode_escapeText (text : List Char) : Entity.decode (escapeText text) = text :=
  Entity.decode_flatMap spells_escapeTextChar text

theorem decode_escapeValue (text : List Char) : Entity.decode (escapeValue text) = text :=
  Entity.decode_flatMap spells_escapeValueChar text

/-- No spelling of a character begins or ends with white space that it does not stand for. -/
theorem trimmed_escapeTextChar (c : Char) (solid : isBlank c = false) : Trimmed (escapeTextChar c) := by
  unfold escapeTextChar
  split
  case h_6 => exact ⟨by simp, by simpa using solid, by simpa using solid⟩
  all_goals exact trimmed_of_trim (by decide) (by decide)

theorem opens_readBack {data : Data} (wf : data.WellFormed) (number : Nat) (blank : List Char)
    (blanks : ∀ c ∈ blank, c = ' ') :
    numbered number (String.ofList data.tag.toList) ((spelledEntries data).flatMap written ++ blank) =
      data.readBack number := by
  have spelled : data.attributes.entries = (spelledEntries data).map fun e =>
      (String.ofList e.1, .str (String.ofList (Entity.decode e.2))) := by
    rw [spelledEntries, List.map_map]
    refine ((List.map_congr_left fun e mem => ?_).trans (List.map_id _)).symm
    obtain ⟨-, value, string⟩ := wf.attributes e mem
    obtain ⟨name, v⟩ := e
    simp only at string
    subst string
    simp [Json.spelled, decode_escapeValue]
  rw [numbered_written wf.proper.entries blanks spelled, String.ofList_toList]
  rfl

theorem appendText_blank {lead : List Char} (blanks : Blank lead) (b : Building) :
    b.appendText lead = b := by
  rw [Building.appendText, trim_blank blanks]

theorem appendText_append_blank {blank : List Char} (blanks : Blank blank) (b : Building)
    (lead : List Char) : b.appendText (lead ++ blank) = b.appendText lead := by
  rw [Building.appendText, trim_append_blank blanks, ← Building.appendText]

/-- A solid text on a line of its own is one text, whatever white space is before it. -/
theorem appendText_line {content lead : List Char} (solid : Solid content) (blanks : Blank lead)
    (level : Int) (b : Building) :
    b.appendText (lead ++ ('\n' :: pad level ++ escapeText content)) =
      b.append (.text (String.ofList content)) := by
  have trimmed := (trimmed_of_trim solid.1 solid.2).flatMap trimmed_escapeTextChar
  rw [← escapeText] at trimmed
  rw [Building.appendText, ← List.append_assoc, trim_blank_append (blanks.append (blank_break level)),
    trimmed.trim]
  obtain ⟨c, rest, escaped⟩ := List.exists_cons_of_ne_nil trimmed.some_text
  rw [escaped]
  simp only
  rw [← escaped, decode_escapeText]

/-- White space before a text that is still being read is no part of it. -/
theorem appendFrom_blank {blank : List Char} (blanks : Blank blank) (b : Building)
    (lead : List Char) (marks : List Mark) :
    b.appendFrom (blank ++ lead) marks = b.appendFrom lead marks := by
  have texts : ∀ text, b.appendText (blank ++ text) = b.appendText text := by
    intro text
    rw [Building.appendText, trim_blank_append blanks, ← Building.appendText]
  -- On the marks: texts that follow are read together with it, and it stays before them all.
  induction marks generalizing lead with
  | nil => exact texts lead
  | cons m rest ih =>
    rw [Building.appendFrom, Building.appendFrom]
    cases reads : m.token? with
    | none =>
      simp only
      rw [List.append_assoc, ih]
    | some t =>
      simp only
      rw [texts]

/-! ### What the marks build -/

section

variable {data : Data} {level : Int} {b : Building}

/-- An element's marks add one node, behind the text that is still being read. -/
theorem appendFrom_elementMarks {inner : List Mark} {ns : List Source.Node} {more : Nat}
    (wf : data.WellFormed) (lead : List Char) (rest : List Mark)
    (inside : ∀ (b' : Building) (m : Mark) (t : Token), b'.count = b.count + 1 → m.token? = some t →
      b'.appendFrom [] (inner ++ .text ('\n' :: pad level) :: m :: rest) =
        ({ b'.appendAll ns with count := b.count + 1 + more }.appendToken t).appendFrom [] rest)
    (none_inside : inner = [] → ns = [] ∧ more = 0) :
    b.appendFrom lead (elementMarks level data inner ++ rest) =
      { (b.appendText lead).append (.element (data.readBack (b.count + 1)) ns) with
        count := b.count + 1 + more }.appendFrom [] rest := by
  have same := Building.count_appendText b lead
  unfold elementMarks
  split
  · next none_inner =>
    obtain ⟨rfl, rfl⟩ := none_inside (List.isEmpty_iff.1 none_inner)
    have reads : (Mark.single data.tag.toList (spelledEntries data) [' ']).token? =
        some (.start (String.ofList data.tag.toList)
          ((spelledEntries data).flatMap written ++ [' ']) true) := rfl
    have element := opens_readBack wf (b.count + 1) [' '] (by simp)
    rw [List.singleton_append, Building.appendFrom_token reads, ← Building.append_count, ← element,
      ← same]
    rfl
  · have reads : (Mark.start data.tag.toList (spelledEntries data)).token? =
        some (.start (String.ofList data.tag.toList) ((spelledEntries data).flatMap written) false) :=
      rfl
    have closes : (Mark.stop data.tag.toList).token? =
        some (.stop (data.readBack (b.count + 1)).tag) := by
      rw [Mark.token?, String.ofList_toList]
      rfl
    have opened : (b.appendText lead).appendToken
        (.start (String.ofList data.tag.toList) ((spelledEntries data).flatMap written) false) =
          { b.appendText lead with
            count := b.count + 1
            stack := ⟨data.readBack (b.count + 1), []⟩ :: (b.appendText lead).stack } := by
      have element := opens_readBack wf (b.count + 1) [] (by simp)
      rw [List.append_nil] at element
      rw [← element, ← same]
      rfl
    rw [List.cons_append, List.cons_append, List.append_assoc, Building.appendFrom_token reads, opened,
      List.cons_append, List.singleton_append, inside _ _ _ rfl closes, Building.stop_filled]

/-- The marks of an element's own text leave that text to be read with what follows. -/
theorem appendFrom_ownMarks {cs : List Node} (wf : data.WellFormed)
    (apart : (ownNodes data ++ cs).IsChain Node.Apart) (level : Int) (b : Building) :
    ∃ lead, (∀ marks, b.appendFrom [] (ownMarks level data ++ marks) = b.appendFrom lead marks) ∧
      b.appendText lead = b.appendAll (ownTexts data) ∧
      ∀ n ∈ cs.head?, n.data.kind = .text → Blank lead := by
  obtain none_own | ⟨content, own, solid⟩ := wf.text
  · refine ⟨[], fun marks => ?_, ?_, fun n _ _ c mem => nomatch mem⟩
    · simp [ownMarks, textOf, none_own]
    · simp [ownTexts, none_own, Building.appendText_nil, Building.appendAll]
  · have some_own : ownMarks level data =
        [.text ('\n' :: pad (level + 1) ++ escapeText content.toList)] := by
      simp [ownMarks, textOf, own, List.isEmpty_eq_false_iff.2 solid.1]
    refine ⟨'\n' :: pad (level + 1) ++ escapeText content.toList, fun marks => ?_, ?_, ?_⟩
    · rw [some_own, List.singleton_append, Building.appendFrom_text, List.nil_append]
    · have none : Blank [] := fun _ mem => nomatch mem
      have line := appendText_line solid none (level + 1) b
      rw [List.nil_append, String.ofList_toList] at line
      rw [line, ownTexts, own]
      rfl
    · intro n head text
      obtain ⟨rest, rfl⟩ : ∃ rest, cs = n :: rest := by
        cases cs with
        | nil => simp at head
        | cons n' rest => exact ⟨rest, by simpa using head⟩
      simp only [ownNodes, own, List.singleton_append] at apart
      exact absurd text (apart.rel rfl)

end

namespace Node

/-- An element without marks inside it has nothing inside it. -/
theorem none_inside {data : Data} {cs : List Node} {level : Int} {count : Nat} (wf : data.WellFormed)
    (inside : WellFormedAll cs) (none_inner : ownMarks level data ++ marksAll (level + 1) cs = []) :
    ownTexts data ++ readAllFrom count cs = [] ∧ elementCountIn cs = 0 := by
  obtain ⟨none_own, none_children⟩ := List.append_eq_nil_iff.1 none_inner
  have no_children : cs = [] := by
    cases cs with
    | nil => rfl
    | cons n rest =>
      have textual := inside.1.each.imp fun _ => Data.WellFormed.textual
      exact absurd (List.append_eq_nil_iff.1 none_children).1 (some_marks textual _)
  have no_text : ownTexts data = [] := by
    obtain absent | ⟨content, own, solid⟩ := wf.text
    · simp [ownTexts, absent]
    · simp [ownMarks, textOf, own, solid.1] at none_own
  subst no_children
  simp [no_text, readAllFrom, elementCountIn]

mutual

/-- An element's marks add the element to a building, wherever that is at. -/
theorem appendFrom_marks : ∀ {n : Node}, n.WellFormed → n.data.kind ≠ .text →
    ∀ (level : Int) (b : Building) (lead : List Char) (rest : List Mark),
      b.appendFrom lead (marks level n ++ rest) =
        { (b.appendText lead).append (n.readFrom b.count) with
          count := b.count + n.elementCount }.appendFrom [] rest
  | .node data cs, wf, other, level, b, lead, rest => by
    unfold WellFormed at wf
    unfold marks readFrom elementCount
    cases kind : data.kind with
    | element =>
      simp only [kind, if_true] at wf ⊢
      obtain ⟨wf, apart, inside⟩ := wf
      have nothing : ownMarks level data ++ marksAll (level + 1) cs = [] →
          ownTexts data ++ readAllFrom (b.count + 1) cs = [] ∧ elementCountIn cs = 0 :=
        none_inside wf inside
      rw [List.cons_append, Building.appendFrom_text,
        appendFrom_elementMarks wf _ _ ?_ nothing,
        appendText_append_blank (blank_break level), Nat.add_assoc]
      intro b' m t count reads
      -- The own text is still being read when the first child begins.
      obtain ⟨own, reads_own, adds_own, first⟩ := appendFrom_ownMarks wf apart level b'
      rw [List.append_assoc, reads_own,
        appendFrom_marksAll inside apart.right_of_append first _ (blank_break level) reads, adds_own,
        count, Building.appendAll, Building.appendAll, Building.appendAll, List.foldl_append]
    | text => exact absurd kind other
    | fragment => simp [kind] at wf

/-- The marks of nodes in a row, up to the tag behind them. A first text goes on from no other. -/
theorem appendFrom_marksAll : ∀ {ns : List Node}, WellFormedAll ns → ns.IsChain Apart →
    ∀ {level : Int} {b : Building} {lead : List Char},
      (∀ n ∈ ns.head?, n.data.kind = .text → Blank lead) →
    ∀ {tail : List Char} {m : Mark} {t : Token} (rest : List Mark), Blank tail → m.token? = some t →
      b.appendFrom lead (marksAll level ns ++ .text tail :: m :: rest) =
        ({ (b.appendText lead).appendAll (readAllFrom b.count ns) with
          count := b.count + elementCountIn ns }.appendToken t).appendFrom [] rest
  | [], _, _, level, b, lead, _, tail, m, t, rest, blanks, reads => by
    have same := Building.count_appendText b lead
    rw [marksAll, List.nil_append, Building.appendFrom_text, Building.appendFrom_token reads,
      appendText_append_blank blanks, readAllFrom, elementCountIn, Nat.add_zero, ← same]
    rfl
  | n :: others, ⟨first_wf, others_wf⟩, apart, level, b, lead, first, tail, m, t, rest, blanks, reads => by
    rw [marksAll, List.append_assoc, readAllFrom, elementCountIn]
    by_cases text : n.data.kind = .text
    · obtain ⟨data, cs⟩ := n
      simp only [Node.data] at text
      unfold WellFormed at first_wf
      simp only [text] at first_wf
      obtain ⟨⟨content, own, solid⟩, rfl⟩ := first_wf
      have lead_blank := first _ rfl text
      have apart_others : ∀ n' ∈ others.head?, n'.data.kind = .text →
          Blank (lead ++ ('\n' :: pad level ++ escapeText content.toList)) := by
        intro n' head text'
        cases others with
        | nil => simp at head
        | cons n'' more =>
          obtain rfl : n'' = n' := by simpa using head
          exact absurd text' (apart.rel text)
      have none_counted : elementCount (.node data []) = 0 := by
        simp [elementCount, elementCountIn, text]
      have read : readFrom b.count (.node data []) = .text (String.ofList content.toList) := by
        simp [readFrom, text, textOf, own]
      have marked : marks level (.node data []) =
          [.text ('\n' :: pad level ++ escapeText content.toList)] := by
        simp [marks, text, textOf, own]
      rw [marked, List.singleton_append, Building.appendFrom_text,
        appendFrom_marksAll others_wf apart.tail apart_others rest blanks reads,
        appendText_line solid lead_blank, appendText_blank lead_blank, none_counted, read,
        Nat.add_zero, Nat.zero_add]
      rfl
    · have none_lead : ∀ n' ∈ others.head?, n'.data.kind = .text → Blank [] := by
        intro _ _ _ c mem
        exact nomatch mem
      rw [appendFrom_marks first_wf text,
        appendFrom_marksAll others_wf apart.tail none_lead rest blanks reads, Building.appendText_nil,
        Building.appendAll_count, Nat.add_assoc]
      rfl

end

/-! ### Reading back -/

theorem treeOf_rootMarks {data : Data} {cs : List Node} (wf : WellFormed (.node data cs))
    (element : data.kind = .element) (level : Int) :
    treeOf (tokens (writeMarks (rootMarks level data cs))) = readFrom 0 (.node data cs) := by
  have written := written_rootMarks wf.each element level
  have other : (node data cs).data.kind ≠ .text := by simp [Node.data, element]
  have read := appendFrom_marks wf other level {} [] []
  have line : marks level (.node data cs) = .text ('\n' :: pad level) ::
      elementMarks level data (ownMarks level data ++ marksAll (level + 1) cs) := by
    simp [marks, element]
  -- The root has no line break before it, which makes no difference to what is read.
  rw [line, List.append_nil, Building.appendFrom_text, ← List.append_nil ('\n' :: pad level),
    List.nil_append, appendFrom_blank (blank_break level)] at read
  rw [treeOf_appendFrom fun m mem => (written m mem).proper fun _ => Data.WellFormed.proper, rootMarks,
    Building.appendFrom_text, List.nil_append, ← List.append_nil (pad level),
    appendFrom_blank (blank_pad level), read]
  rfl

/-- A well-formed tree has a JSX text at every indent, which is read as that tree, with as many
elements in the text as in the tree. -/
theorem parse_toJsx {data : Data} {cs : List Node} (element : data.kind = .element)
    (wf : WellFormed (.node data cs)) (indent : Int) :
    ∃ jsx, toJsx (.node data cs) {} indent = .ok jsx ∧
      parse jsx = .ok (readFrom 0 (.node data cs)) ∧
      Markup.elementCount jsx = elementCount (.node data cs) := by
  have read := treeOf_rootMarks wf element indent
  have textual := wf.each.imp fun _ => Data.WellFormed.textual
  have legible := legible_written (written_rootMarks wf.each element indent) fun _ => Data.WellFormed.proper
  refine ⟨writeMarks (rootMarks indent data cs), toJsx_textual textual element indent, ?_, ?_⟩
  · rw [parse_legible legible, read]
  · rw [← (faithful_treeOf _).count, read, elements_readFrom wf]

/-- A drawing with quotes, references, signs and braces in its values and its texts. -/
def sample : Data where
  tag := "svg"
  attributes := ⟨[("data-if", .str "a > \"b\" && \x7bc\x7d"), ("fill", .str "")], by decide⟩
  text := .str "\x7b a < b &amp; c"

def sampleInside : List Node := [.node { tag := "g" } [.text "</svg>"], .text "'"]

theorem parse_toJsx_sample :
    sample.kind = .element ∧ WellFormed (.node sample sampleInside) ∧
      ∃ jsx, toJsx (.node sample sampleInside) {} 2 = .ok jsx ∧
        parse jsx = .ok (readFrom 0 (.node sample sampleInside)) ∧
        Markup.elementCount jsx = elementCount (.node sample sampleInside) := by
  have svg : sample.WellFormed := by
    refine ⟨by decide, ?_, .inr ⟨_, rfl, by decide⟩⟩
    intro e mem
    simp only [sample, List.mem_cons, List.not_mem_nil, or_false] at mem
    rcases mem with rfl | rfl
    · exact ⟨by decide, _, rfl⟩
    · exact ⟨by decide, _, rfl⟩
  have g : Data.WellFormed { tag := "g" } := ⟨by decide, List.forall_mem_nil _, .inl rfl⟩
  have text : ∀ content : String, Solid content.toList → WellFormed (.text content) :=
    fun content solid => ⟨⟨content, rfl, solid⟩, rfl⟩
  have wf : WellFormed (.node sample sampleInside) := by
    refine ⟨svg, ?_, ⟨g, .singleton _, text _ (by decide), trivial⟩, text _ (by decide), trivial⟩
    simp [ownNodes, sample, sampleInside, Apart, Node.data, Node.text]
  exact ⟨rfl, wf, parse_toJsx rfl wf 2⟩

end Node

end DesignComponents.Target
