import DesignComponents.Proofs.Markup.Mark
import DesignComponents.Proofs.Text.Trim
import DesignComponents.Source.Svg

/-! Writing a tree as markup and reading it back. What comes back is the tree, with an element's
own text as its first child and the elements numbered in the order in which they were written. -/

set_option autoImplicit false

namespace DesignComponents.Source

open Text Markup

/-! ### Trees that can be told from their markup -/

/-- A text with something in it, and with no white space at its ends. -/
def Solid (text : List Char) : Prop := text ≠ [] ∧ trim text = text

instance (text : List Char) : Decidable (Solid text) := inferInstanceAs (Decidable (_ ∧ _))

/-- An element's own text, as a child. -/
def ownNodes (data : Element) : List Node :=
  match data.text with
  | .str content => [.text content]
  | _ => []

/-- Every name and value can stand in a tag, and the own text, if there is one, is solid. -/
structure Element.WellFormed (data : Element) : Prop where
  tag : ProperTag data.tag.toList
  attributes : ∃ attributes, data.attributes = some attributes ∧
    ∀ e ∈ attributes.entries, ProperName e.1.toList ∧ ∃ value, e.2 = .str value
  text : data.text = .null ∨ ∃ content, data.text = .str content ∧ Solid content.toList

/-- The element that comes back, with the number of its start tag. -/
def Element.readBack (data : Element) (number : Nat) : Element :=
  { id := s!"node-{number}", tag := data.tag, attributes := data.attributes }

namespace Node

def isText : Node → Bool
  | .text _ => true
  | .element .. | .fragment _ | .foreign => false

/-- Two nodes in a row that are not both texts. -/
def Apart (left right : Node) : Prop := left.isText = true → right.isText = false

mutual

/-- No fragments, and no two texts in a row, an element's own text being the first of its texts. -/
def WellFormed : Node → Prop
  | .element data cs =>
    data.WellFormed ∧ (ownNodes data ++ cs).IsChain Apart ∧ WellFormedAll cs
  | .text content => Solid content.toList
  | .fragment _ | .foreign => False

def WellFormedAll : List Node → Prop
  | [] => True
  | n :: rest => WellFormed n ∧ WellFormedAll rest

end

mutual

/-- The tree with own texts as first children, its elements numbered from `count + 1` on. -/
def numberedFrom (count : Nat) : Node → Node
  | .element data cs =>
    .element (data.readBack (count + 1)) (ownNodes data ++ numberedAllFrom (count + 1) cs)
  | .text content => .text content
  | .fragment cs => .fragment (numberedAllFrom count cs)
  | .foreign => .foreign

def numberedAllFrom (count : Nat) : List Node → List Node
  | [] => []
  | n :: rest => numberedFrom count n :: numberedAllFrom (count + n.elements.length) rest

end

mutual

/-- The elements that come back have the numbers from `count + 1` on, in document order. -/
theorem ids_numberedFrom : ∀ (n : Node) (count : Nat),
    (n.numberedFrom count).elements.map (fun e => e.1.id) =
      (List.range' (count + 1) n.elements.length).map fun k => s!"node-{k}"
  | .element data cs, count => by
    have own : elementsOf (ownNodes data ++ numberedAllFrom (count + 1) cs) =
        elementsOf (numberedAllFrom (count + 1) cs) := by
      unfold ownNodes
      split <;> rfl
    rw [numberedFrom, elements, elements, own, List.map_cons, List.length_cons, List.range'_succ,
      List.map_cons, ids_numberedAllFrom cs (count + 1)]
    rfl
  | .text _, _ => rfl
  | .fragment cs, count => by rw [numberedFrom, elements, elements, ids_numberedAllFrom cs count]
  | .foreign, _ => rfl

theorem ids_numberedAllFrom : ∀ (ns : List Node) (count : Nat),
    (elementsOf (numberedAllFrom count ns)).map (fun e => e.1.id) =
      (List.range' (count + 1) (elementsOf ns).length).map fun k => s!"node-{k}"
  | [], _ => rfl
  | n :: rest, count => by
    have step : count + n.elements.length + 1 = count + 1 + 1 * n.elements.length := by omega
    rw [numberedAllFrom, elementsOf, elementsOf, List.map_append, List.length_append,
      ids_numberedFrom n count, ids_numberedAllFrom rest, ← List.map_append, step,
      List.range'_append]

end

/-! ### The marks of a tree -/

/-- The attributes of an element as they are written. -/
def spelledEntries (data : Element) : List (List Char × List Char) :=
  (data.attributes.getD .empty).entries.map fun e => (e.1.toList, Entity.escapeValue e.2.spelled)

def ownMarks (data : Element) : List Mark :=
  match data.text with
  | .str content => [.text (Entity.escapeText content.toList)]
  | _ => []

/-- An element's marks around those of what is inside it. -/
def elementMarks (data : Element) (inner : List Mark) : List Mark :=
  if inner.isEmpty then [.single data.tag.toList (spelledEntries data) []]
  else .start data.tag.toList (spelledEntries data) :: inner ++ [.stop data.tag.toList]

mutual

def marks : Node → List Mark
  | .element data cs => elementMarks data (ownMarks data ++ marksAll cs)
  | .text content => [.text (Entity.escapeText content.toList)]
  | .fragment cs => marksAll cs
  | .foreign => []

def marksAll : List Node → List Mark
  | [] => []
  | n :: rest => marks n ++ marksAll rest

end

theorem writeAttributes_eq {data : Element} (wf : data.WellFormed) :
    writeAttributes (data.attributes.getD .empty) = (spelledEntries data).flatMap written := by
  obtain ⟨attributes, some_attributes, all⟩ := wf.attributes
  rw [spelledEntries, some_attributes, Option.getD_some, writeAttributes, List.flatMap_map]
  refine List.flatMap_congr fun e mem => ?_
  obtain ⟨-, value, string⟩ := all e mem
  obtain ⟨name, v⟩ := e
  simp only at string
  subst string
  rfl

theorem ownText_eq (data : Element) : ownText data = writeMarks (ownMarks data) := by
  unfold ownText ownMarks
  cases data.text <;> simp [writeMarks, Mark.write]

theorem writeElement_eq {data : Element} {inner : List Mark} (wf : data.WellFormed)
    (shown : inner ≠ [] → writeMarks inner ≠ []) :
    writeElement data.tag (writeAttributes (data.attributes.getD .empty)) (writeMarks inner) =
      writeMarks (elementMarks data inner) := by
  rw [writeElement, elementMarks, writeAttributes_eq wf]
  cases inner with
  | nil => simp [writeMarks, Mark.write]
  | cons m rest =>
    have full : (writeMarks (m :: rest)).isEmpty = false :=
      List.isEmpty_eq_false_iff.2 (shown (by simp))
    simp only [full, List.isEmpty_cons, Bool.false_eq_true, if_false]
    simp [writeMarks, Mark.write]

theorem some_written_elementMarks (data : Element) (inner : List Mark) :
    writeMarks (elementMarks data inner) ≠ [] := by
  unfold elementMarks
  split <;> simp [writeMarks, Mark.write]

theorem some_written_text {content : String} (solid : Solid content.toList) :
    Entity.escapeText content.toList ≠ [] :=
  ((trimmed_of_trim solid.1 solid.2).flatMap Entity.trimmed_escapeTextChar).some_text

theorem some_written_own {data : Element} (wf : data.WellFormed) (some_marks : ownMarks data ≠ []) :
    writeMarks (ownMarks data) ≠ [] := by
  unfold ownMarks at some_marks ⊢
  obtain none_own | ⟨content, own, solid⟩ := wf.text
  · simp [none_own] at some_marks
  · simpa [own, writeMarks, Mark.write] using some_written_text solid

theorem some_written {n : Node} (wf : n.WellFormed) : writeMarks (marks n) ≠ [] := by
  cases n with
  | element data cs => rw [marks]; exact some_written_elementMarks data _
  | text content => simpa [marks, writeMarks, Mark.write] using some_written_text wf
  | fragment cs => exact wf.elim
  | foreign => exact wf.elim

theorem some_writtenAll {ns : List Node} (wf : WellFormedAll ns) (some_marks : marksAll ns ≠ []) :
    writeMarks (marksAll ns) ≠ [] := by
  cases ns with
  | nil => exact absurd rfl some_marks
  | cons n rest =>
    rw [marksAll, writeMarks_append]
    exact List.append_ne_nil_of_left_ne_nil (some_written wf.1) _

mutual

/-- A well-formed tree is written mark by mark. -/
theorem write_eq : ∀ {n : Node}, n.WellFormed → n.write = writeMarks (marks n)
  | .element data cs, ⟨wf, apart, inside⟩ => by
    rw [write, marks, ownText_eq, writeAll_eq inside, ← writeMarks_append, writeElement_eq wf]
    intro some_marks
    rw [writeMarks_append]
    by_cases own : ownMarks data = []
    · rw [own, List.nil_append] at some_marks
      exact List.append_ne_nil_of_right_ne_nil _ (some_writtenAll inside some_marks)
    · exact List.append_ne_nil_of_left_ne_nil (some_written_own wf own) _
  | .text content, _ => by simp [write, marks, writeMarks, Mark.write]

theorem writeAll_eq : ∀ {ns : List Node}, WellFormedAll ns → writeAll ns = writeMarks (marksAll ns)
  | [], _ => rfl
  | n :: rest, ⟨first, others⟩ => by
    rw [writeAll, marksAll, writeMarks_append, write_eq first, writeAll_eq others]

end

/-! ### The marks are read one by one -/

theorem proper_spelledEntries {data : Element} (wf : data.WellFormed) :
    ProperEntries (spelledEntries data) := by
  obtain ⟨attributes, some_attributes, all⟩ := wf.attributes
  rw [spelledEntries, some_attributes, Option.getD_some]
  constructor
  · intro entry mem
    obtain ⟨e, inside, rfl⟩ := List.mem_map.1 mem
    exact ⟨(all e inside).1, Entity.escapeValue_clean _⟩
  · have names : (attributes.entries.map fun e =>
        (e.1.toList, Entity.escapeValue e.2.spelled)).map Prod.fst =
          (attributes.entries.map Prod.fst).map String.toList := by simp
    rw [names]
    exact attributes.nodup_keys.map fun _ _ same => String.toList_injective same

theorem proper_elementMarks {data : Element} {inner : List Mark} (wf : data.WellFormed)
    (inside : ∀ m ∈ inner, m.Proper) : ∀ m ∈ elementMarks data inner, m.Proper := by
  intro m mem
  unfold elementMarks at mem
  split at mem
  · obtain rfl := List.mem_singleton.1 mem
    exact ⟨wf.tag, proper_spelledEntries wf, by simp⟩
  · simp only [List.cons_append, List.mem_cons, List.mem_append, List.not_mem_nil, or_false] at mem
    obtain rfl | mem | rfl := mem
    · exact ⟨wf.tag, proper_spelledEntries wf⟩
    · exact inside m mem
    · exact wf.tag

theorem proper_ownMarks (data : Element) : ∀ m ∈ ownMarks data, m.Proper := by
  intro m mem
  unfold ownMarks at mem
  split at mem
  · obtain rfl := List.mem_singleton.1 mem
    exact Entity.escapeText_clean _
  · simp at mem

mutual

theorem proper_marks : ∀ {n : Node}, n.WellFormed → ∀ m ∈ marks n, m.Proper
  | .element data cs, ⟨wf, _, inside⟩ => by
    rw [marks]
    refine proper_elementMarks wf fun m mem => ?_
    obtain own | inner := List.mem_append.1 mem
    · exact proper_ownMarks data m own
    · exact proper_marksAll inside m inner
  | .text content, _ => by
    intro m mem
    rw [marks, List.mem_singleton] at mem
    rw [mem]
    exact Entity.escapeText_clean _

theorem proper_marksAll : ∀ {ns : List Node}, WellFormedAll ns → ∀ m ∈ marksAll ns, m.Proper
  | [], _ => by simp [marksAll]
  | n :: rest, ⟨first, others⟩ => by
    intro m mem
    obtain here | later := List.mem_append.1 mem
    · exact proper_marks first m here
    · exact proper_marksAll others m later

end

theorem last_marks {n : Node} {m : Mark} (last : m ∈ (marks n).getLast?) (text : m.token? = none) :
    n.isText = true ∨ ∃ cs, n = .fragment cs := by
  cases n with
  | text content => exact .inl rfl
  | fragment cs => exact .inr ⟨cs, rfl⟩
  | foreign => simp [marks] at last
  | element data cs =>
    rw [marks, elementMarks] at last
    split at last
    · cases last
      simp [Mark.token?] at text
    · rw [List.getLast?_concat] at last
      cases last
      simp [Mark.token?] at text

theorem head_marks {n : Node} {m : Mark} (wf : n.WellFormed) (head : m ∈ (marks n).head?)
    (text : m.token? = none) : n.isText = true := by
  cases n with
  | text content => rfl
  | fragment cs => exact wf.elim
  | foreign => exact wf.elim
  | element data cs =>
    rw [marks, elementMarks] at head
    split at head
    · cases head
      simp [Mark.token?] at text
    · cases head
      simp [Mark.token?] at text

/-- Marks of nodes in a row meet where the nodes do. -/
theorem apart_marksAll {ns : List Node} (wf : WellFormedAll ns) (apart : ns.IsChain Apart)
    (each : ∀ n ∈ ns, (marks n).IsChain Mark.Apart) : (marksAll ns).IsChain Mark.Apart := by
  induction ns with
  | nil => exact .nil
  | cons n rest ih =>
    rw [marksAll]
    refine (each n (by simp)).append
      (ih wf.2 apart.tail fun n' mem => each n' (List.mem_cons_of_mem n mem)) ?_
    intro left last right head left_text right_text
    cases rest with
    | nil => simp [marksAll] at head
    | cons n' rest =>
      have some_marks : marks n' ≠ [] := by
        intro none_marks
        exact some_written wf.2.1 (by rw [none_marks]; rfl)
      rw [marksAll, List.head?_append, Option.or_of_isSome (List.isSome_head?.2 some_marks)] at head
      have next := head_marks wf.2.1 head right_text
      -- A text that ends the marks of a node is that node, and the next node is none then.
      obtain first | ⟨cs, rfl⟩ := last_marks last left_text
      · rw [apart.rel first] at next
        exact nomatch next
      · exact wf.1.elim

theorem apart_elementMarks {data : Element} {inner : List Mark} (apart : inner.IsChain Mark.Apart) :
    (elementMarks data inner).IsChain Mark.Apart := by
  unfold elementMarks
  split
  · exact .singleton _
  · refine List.IsChain.append (.cons apart ?_) (.singleton _) ?_
    · intro m _ text
      simp [Mark.token?] at text
    · intro left _ right head _
      cases head
      simp [Mark.token?]

theorem marksAll_own (data : Element) (cs : List Node) :
    marksAll (ownNodes data ++ cs) = ownMarks data ++ marksAll cs := by
  unfold ownNodes ownMarks
  cases data.text <;> simp [marksAll, marks]

theorem wellFormed_own {data : Element} {cs : List Node} (wf : data.WellFormed)
    (inside : WellFormedAll cs) : WellFormedAll (ownNodes data ++ cs) := by
  obtain none_own | ⟨content, own, solid⟩ := wf.text
  · simpa [ownNodes, none_own] using inside
  · simpa [ownNodes, own, WellFormedAll, WellFormed] using ⟨solid, inside⟩

mutual

theorem apart_marks : ∀ {n : Node}, n.WellFormed → (marks n).IsChain Mark.Apart
  | .element data cs, ⟨wf, apart, inside⟩ => by
    rw [marks, ← marksAll_own]
    refine apart_elementMarks (apart_marksAll (wellFormed_own wf inside) apart ?_)
    intro n mem
    obtain own | child := List.mem_append.1 mem
    · unfold ownNodes at own
      split at own
      · obtain rfl := List.mem_singleton.1 own
        exact .singleton _
      · simp at own
    · exact apart_marks_each inside n child
  | .text content, _ => by
    rw [marks]
    exact .singleton _

theorem apart_marks_each :
    ∀ {ns : List Node}, WellFormedAll ns → ∀ n ∈ ns, (marks n).IsChain Mark.Apart
  | [], _ => by simp
  | n :: rest, ⟨first, others⟩ => by
    intro n' mem
    obtain here | later := List.mem_cons.1 mem
    · rw [here]
      exact apart_marks first
    · exact apart_marks_each others n' later

end

/-! ### What the marks build -/

theorem opens_readBack {data : Element} (wf : data.WellFormed) (number : Nat) (blank : List Char)
    (blanks : ∀ c ∈ blank, c = ' ') :
    numbered number (String.ofList data.tag.toList) ((spelledEntries data).flatMap written ++ blank) =
      data.readBack number := by
  have proper := proper_spelledEntries wf
  obtain ⟨attributes, some_attributes, all⟩ := wf.attributes
  have spelled : attributes.entries = (spelledEntries data).map fun e =>
      (String.ofList e.1, .str (String.ofList (Entity.decode e.2))) := by
    rw [spelledEntries, some_attributes, Option.getD_some, List.map_map]
    refine ((List.map_congr_left fun e mem => ?_).trans (List.map_id _)).symm
    obtain ⟨-, value, string⟩ := all e mem
    obtain ⟨name, v⟩ := e
    simp only at string
    subst string
    simp [Json.spelled, Entity.decode_escapeValue]
  rw [Markup.numbered_written proper blanks spelled, String.ofList_toList, Element.readBack,
    some_attributes]

theorem appendMarks_elementMarks {data : Element} {inner : List Mark} {ns : List Node} {b : Building}
    {more : Nat} (wf : data.WellFormed)
    (inside : ∀ b' : Building, b'.count = b.count + 1 →
      b'.appendMarks inner = { b'.appendAll ns with count := b.count + 1 + more })
    (none_inside : inner = [] → ns = [] ∧ more = 0) :
    b.appendMarks (elementMarks data inner) =
      { b.append (.element (data.readBack (b.count + 1)) ns) with count := b.count + 1 + more } := by
  unfold elementMarks
  split
  · next none_inner =>
    obtain ⟨rfl, rfl⟩ := none_inside (List.isEmpty_iff.1 none_inner)
    rw [← Building.append_count, ← opens_readBack wf (b.count + 1) [] (by simp)]
    rfl
  · have opened : b.appendMark (.start data.tag.toList (spelledEntries data)) =
        { b with count := b.count + 1, stack := ⟨data.readBack (b.count + 1), []⟩ :: b.stack } := by
      have element := opens_readBack wf (b.count + 1) [] (by simp)
      rw [List.append_nil] at element
      rw [← element]
      rfl
    have closed : (Mark.stop data.tag.toList).token? =
        some (.stop (data.readBack (b.count + 1)).tag) := by
      rw [Mark.token?, String.ofList_toList]
      rfl
    rw [List.cons_append, Building.appendMarks, List.foldl_cons, ← Building.appendMarks, opened,
      Building.appendMarks_append, inside _ rfl, Building.appendMarks, List.foldl_cons,
      List.foldl_nil, Building.appendMark, closed]
    exact Building.stop_filled b _ ns _ _

theorem appendText_escapeText {content : String} (solid : Solid content.toList) (b : Building) :
    b.appendText (Entity.escapeText content.toList) = b.append (.text content) := by
  have trimmed := (trimmed_of_trim solid.1 solid.2).flatMap Entity.trimmed_escapeTextChar
  have same := trimmed.trim
  rw [← Entity.escapeText] at trimmed same
  rw [Building.appendText, same]
  obtain ⟨c, rest, written⟩ := List.exists_cons_of_ne_nil trimmed.some_text
  rw [written]
  simp only
  rw [← written, Entity.decode_escapeText, String.ofList_toList]

theorem appendMarks_ownMarks {data : Element} (wf : data.WellFormed) (b : Building) :
    b.appendMarks (ownMarks data) = b.appendAll (ownNodes data) := by
  unfold ownMarks ownNodes
  obtain none_own | ⟨content, own, solid⟩ := wf.text
  · rw [none_own]
    rfl
  · rw [own]
    exact appendText_escapeText solid b

/-- An element without marks inside it has nothing inside it. -/
theorem none_inside {data : Element} {cs : List Node} {count : Nat} (wf : data.WellFormed)
    (inside : WellFormedAll cs) (none_inner : ownMarks data ++ marksAll cs = []) :
    ownNodes data ++ numberedAllFrom count cs = [] ∧ (elementsOf cs).length = 0 := by
  rw [← marksAll_own] at none_inner
  have wf_inside := wellFormed_own wf inside
  cases nodes : ownNodes data ++ cs with
  | nil =>
    obtain ⟨own, rfl⟩ := List.append_eq_nil_iff.1 nodes
    exact ⟨by rw [own]; rfl, rfl⟩
  | cons n rest =>
    rw [nodes] at none_inner wf_inside
    rw [marksAll] at none_inner
    refine absurd ?_ (some_written wf_inside.1)
    rw [(List.append_eq_nil_iff.1 none_inner).1]
    rfl

mutual

/-- A tree's marks add the tree to a building, wherever that is at. -/
theorem appendMarks_marks : ∀ {n : Node}, n.WellFormed → ∀ b : Building,
    b.appendMarks (marks n) =
      { b.append (n.numberedFrom b.count) with count := b.count + n.elements.length }
  | .element data cs, ⟨wf, _, inside⟩, b => by
    rw [marks, numberedFrom, @appendMarks_elementMarks data _ _ b (elementsOf cs).length wf]
    · simp only [elements, List.length_cons]
      congr 1
      omega
    · intro b' count
      rw [Building.appendMarks_append, appendMarks_ownMarks wf, appendMarks_marksAll inside,
        Building.count_appendAll, count, Building.appendAll, Building.appendAll,
        ← List.foldl_append]
      rfl
    · exact none_inside wf inside
  | .text content, solid, b => by
    have added := appendText_escapeText solid b
    have count := Building.count_append b (.text content)
    rw [← added] at count
    rw [marks, numberedFrom, ← added]
    simp only [elements, List.length_nil, Nat.add_zero, ← count]
    rfl

theorem appendMarks_marksAll : ∀ {ns : List Node}, WellFormedAll ns → ∀ b : Building,
    b.appendMarks (marksAll ns) =
      { b.appendAll (numberedAllFrom b.count ns) with count := b.count + (elementsOf ns).length }
  | [], _, b => rfl
  | n :: rest, ⟨first, others⟩, b => by
    rw [marksAll, Building.appendMarks_append, appendMarks_marks first, appendMarks_marksAll others,
      Building.appendAll_count, numberedAllFrom, elementsOf, List.length_append, Nat.add_assoc]
    rfl

end

/-! ### Reading back -/

mutual

theorem writeFault?_none : ∀ {n : Node}, n.WellFormed → n.writeFault? = none
  | .element data cs, ⟨wf, _, inside⟩ => by
    rw [writeFault?, writeFaultIn?_none inside, Option.or_none, elementFault?]
    obtain ⟨attributes, some_attributes, -⟩ := wf.attributes
    obtain none_own | ⟨content, own, -⟩ := wf.text
    · simp [some_attributes, none_own, Json.isTruthy]
    · simp [some_attributes, own]
  | .text content, _ => rfl

theorem writeFaultIn?_none : ∀ {ns : List Node}, WellFormedAll ns → writeFaultIn? ns = none
  | [], _ => rfl
  | n :: rest, ⟨first, others⟩ => by
    rw [writeFaultIn?, writeFault?_none first, writeFaultIn?_none others]
    rfl

end

/-- How a mark of a tree spells: its text, and the values of its attributes. -/
def Spelled (m : Mark) : Prop :=
  (∀ spelled, m = .text spelled → ∃ raw, spelled = Entity.escapeText raw) ∧
    ∀ e ∈ m.entries, ∃ raw, e.2 = Entity.escapeValue raw

theorem spelled_text (content : String) : Spelled (.text (Entity.escapeText content.toList)) := by
  constructor
  · rintro _ ⟨⟩
    exact ⟨_, rfl⟩
  · simp [Mark.entries]

theorem spelled_ownMarks (data : Element) : ∀ m ∈ ownMarks data, Spelled m := by
  intro m mem
  unfold ownMarks at mem
  split at mem
  · obtain rfl := List.mem_singleton.1 mem
    exact spelled_text _
  · simp at mem

theorem spelled_elementMarks {data : Element} {inner : List Mark}
    (inside : ∀ m ∈ inner, Spelled m) : ∀ m ∈ elementMarks data inner, Spelled m := by
  have entries : ∀ e ∈ spelledEntries data, ∃ raw, e.2 = Entity.escapeValue raw := by
    intro e mem
    obtain ⟨e, -, rfl⟩ := List.mem_map.1 mem
    exact ⟨_, rfl⟩
  intro m mem
  unfold elementMarks at mem
  split at mem
  · obtain rfl := List.mem_singleton.1 mem
    exact ⟨nofun, entries⟩
  · simp only [List.cons_append, List.mem_cons, List.mem_append, List.not_mem_nil, or_false] at mem
    obtain rfl | mem | rfl := mem
    · exact ⟨nofun, entries⟩
    · exact inside m mem
    · exact ⟨nofun, by simp [Mark.entries]⟩

mutual

theorem spelled_marks : ∀ n : Node, ∀ m ∈ marks n, Spelled m
  | .element data cs => by
    rw [marks]
    refine spelled_elementMarks fun m mem => ?_
    obtain own | inner := List.mem_append.1 mem
    · exact spelled_ownMarks data m own
    · exact spelled_marksAll cs m inner
  | .text content => by
    intro m mem
    rw [marks, List.mem_singleton] at mem
    rw [mem]
    exact spelled_text content
  | .fragment cs => by
    rw [marks]
    exact spelled_marksAll cs
  | .foreign => by simp [marks]

theorem spelled_marksAll : ∀ ns : List Node, ∀ m ∈ marksAll ns, Spelled m
  | [] => by simp [marksAll]
  | n :: rest => by
    intro m mem
    obtain here | later := List.mem_append.1 mem
    · exact spelled_marks n m here
    · exact spelled_marksAll rest m later

end

theorem legible_marks {n : Node} (wf : n.WellFormed) : Legible (writeMarks (marks n)) := by
  refine legible_writeMarks Entity.spells_escapeTextChar (proper_marks wf) ?_ ?_
  · intro spelled mem
    exact (spelled_marks n _ mem).1 spelled rfl
  · intro m mem e entry
    obtain ⟨raw, spelling⟩ := (spelled_marks n m mem).2 e entry
    rw [spelling]
    exact Entity.readable_flatMap Entity.spells_escapeValueChar raw

/-- Reading undoes writing: a well-formed tree can be written, and comes back numbered and with its
own texts as children. -/
theorem parse_toSvg {data : Element} {cs : List Node} (wf : WellFormed (.element data cs)) :
    ∃ text, toSvg (.element data cs) = .ok text ∧
      parse text = .ok (numberedFrom 0 (.element data cs)) := by
  refine ⟨writeMarks (marks (.element data cs)), ?_, ?_⟩
  · rw [toSvg, writeFault?_none wf, ← write_eq wf]
  · rw [parse_legible (legible_marks wf), treeOf_writeMarks (proper_marks wf) (apart_marks wf),
      appendMarks_marks wf]
    rfl

def sampleElement : Element where
  id := "a"
  tag := "svg"
  attributes := some ⟨[("title", .str "\"<g>' &amp;lt;"), ("fill", .str "")], by decide⟩
  text := .str "a < b &amp; c"

def sampleChild : Element where
  id := "b"
  tag := "g"

theorem parse_toSvg_sample :
    WellFormed (.element sampleElement [.element sampleChild [], .text "</svg>"]) ∧
      ∃ text, toSvg (.element sampleElement [.element sampleChild [], .text "</svg>"]) = .ok text ∧
        parse text =
          .ok (numberedFrom 0 (.element sampleElement [.element sampleChild [], .text "</svg>"])) := by
  have wf : WellFormed (.element sampleElement [.element sampleChild [], .text "</svg>"]) := by
    have svg : sampleElement.WellFormed := by
      refine ⟨by decide, ⟨_, rfl, ?_⟩, .inr ⟨_, rfl, by decide⟩⟩
      intro e mem
      simp only [List.mem_cons, List.not_mem_nil, or_false] at mem
      obtain rfl | rfl := mem
      · exact ⟨by decide, _, rfl⟩
      · exact ⟨by decide, _, rfl⟩
    have g : sampleChild.WellFormed :=
      ⟨by decide, ⟨_, rfl, by simp [OrderedMap.empty]⟩, .inl rfl⟩
    have none_inside : WellFormed (.element sampleChild []) := ⟨g, .nil, trivial⟩
    have text : WellFormed (.text "</svg>") := ⟨by decide, by decide⟩
    exact ⟨svg, by simp [ownNodes, sampleElement, Apart, isText], none_inside, text, trivial⟩
  exact ⟨wf, parse_toSvg wf⟩

end Node

end DesignComponents.Source
