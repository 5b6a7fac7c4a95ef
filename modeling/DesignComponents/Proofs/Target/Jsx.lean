import DesignComponents.Proofs.Attribute.Sanitize
import DesignComponents.Proofs.Markup.Mark
import DesignComponents.Target.Jsx

/-! The JSX text of a tree as a row of marks. Each line of the text starts with a text of white
space, and the root's children have no part in properties or slots. Most of this asks of an element
only that its values and texts are texts; a static tree is one that the transformation may make. -/

set_option autoImplicit false

namespace DesignComponents.Target

open Text Markup

/-! ### Trees of elements and texts -/

namespace Node

variable {P Q : Data → Prop}

mutual

/-- Elements and texts only, and each element is as told. -/
def Each (P : Data → Prop) : Node → Prop
  | .node data cs =>
    match data.kind with
    | .element => P data ∧ EachIn P cs
    | .text => ∃ content, data.text = .str content
    | .fragment => False

def EachIn (P : Data → Prop) : List Node → Prop
  | [] => True
  | n :: rest => Each P n ∧ EachIn P rest

end

mutual

theorem Each.imp (weaker : ∀ data, P data → Q data) : ∀ {n : Node}, n.Each P → n.Each Q
  | .node data cs, each => by
    unfold Each at each ⊢
    cases kind : data.kind with
    | element =>
      simp only [kind] at each ⊢
      exact ⟨weaker data each.1, EachIn.imp weaker each.2⟩
    | text => simpa only [kind] using each
    | fragment => simp [kind] at each

theorem EachIn.imp (weaker : ∀ data, P data → Q data) : ∀ {ns : List Node}, EachIn P ns → EachIn Q ns
  | [], _ => trivial
  | _ :: _, ⟨first, others⟩ => ⟨first.imp weaker, others.imp weaker⟩

end

end Node

/-- Every value is a text, and so is the element's own text, if it has one. -/
structure Data.Textual (data : Data) : Prop where
  attributes : ∀ e ∈ data.attributes.entries, ∃ value, e.2 = .str value
  text : data.text = .null ∨ ∃ content, data.text = .str content

/-- Every name can stand in a tag. -/
structure Data.Proper (data : Data) : Prop where
  tag : ProperTag data.tag.toList
  names : ∀ e ∈ data.attributes.entries, ProperName e.1.toList

/-! ### Static trees -/

/-- An element as the transformation makes them, with texts for values. A name outside of the lists
is one that can stand in a tag. -/
structure Data.Static (data : Data) : Prop where
  tag : Attribute.admitsTag data.tag = true
  attributes : ∀ e ∈ data.attributes.entries,
    (Attribute.isAllowed e.1 = true ∨ Attribute.isCustom e.1 = true ∧ ProperName e.1.toList) ∧
      ∃ value, e.2 = .str value
  text : data.text = .null ∨ ∃ content, data.text = .str content

theorem Data.Static.textual {data : Data} (static : data.Static) : data.Textual where
  attributes e mem := (static.attributes e mem).2
  text := static.text

theorem Data.Static.proper {data : Data} (static : data.Static) : data.Proper where
  tag := Attribute.proper_of_admitsTag static.tag
  names := by
    intro e entry
    obtain allowed | ⟨-, proper⟩ := (static.attributes e entry).1
    · exact (Attribute.proper_of_isAllowed allowed).1
    · exact proper

namespace Node

mutual

/-- Elements and texts only. -/
def Static : Node → Prop
  | .node data cs =>
    match data.kind with
    | .element => data.Static ∧ StaticAll cs
    | .text => ∃ content, data.text = .str content
    | .fragment => False

def StaticAll : List Node → Prop
  | [] => True
  | n :: rest => Static n ∧ StaticAll rest

end

mutual

theorem Static.each : ∀ {n : Node}, n.Static → n.Each Data.Static
  | .node data cs, static => by
    unfold Static at static
    unfold Each
    cases kind : data.kind with
    | element =>
      simp only [kind] at static ⊢
      exact ⟨static.1, StaticAll.each static.2⟩
    | text => simpa only [kind] using static
    | fragment => simp [kind] at static

theorem StaticAll.each : ∀ {ns : List Node}, StaticAll ns → EachIn Data.Static ns
  | [], _ => trivial
  | _ :: _, ⟨first, others⟩ => ⟨first.each, StaticAll.each others⟩

end

end Node

/-! ### The marks of a tree -/

/-- An attribute as it is written, if its value is a text. -/
def spelledEntry (e : String × Json) : List Char × List Char := (e.1.toList, escapeValue e.2.spelled)

/-- The attributes of an element as they are written. -/
def spelledEntries (data : Data) : List (List Char × List Char) :=
  data.attributes.entries.map fun e => (e.1.toList, escapeValue e.2.spelled)

def ownMarks (level : Int) (data : Data) : List Mark :=
  if (textOf data).isEmpty then [] else [.text ('\n' :: pad (level + 1) ++ escapeText (textOf data))]

/-- An element's marks around those of the lines inside it. -/
def elementMarks (level : Int) (data : Data) (inner : List Mark) : List Mark :=
  if inner.isEmpty then [.single data.tag.toList (spelledEntries data) [' ']]
  else .start data.tag.toList (spelledEntries data) :: inner ++
    [.text ('\n' :: pad level), .stop data.tag.toList]

namespace Node

mutual

/-- The marks of a node on a line of its own, with the line break before it. -/
def marks (level : Int) : Node → List Mark
  | .node data cs =>
    match data.kind with
    | .element => .text ('\n' :: pad level) ::
        elementMarks level data (ownMarks level data ++ marksAll (level + 1) cs)
    | .text => [.text ('\n' :: pad level ++ escapeText (textOf data))]
    | .fragment => []

def marksAll (level : Int) : List Node → List Mark
  | [] => []
  | n :: rest => marks level n ++ marksAll level rest

end

/-- The marks of a root, which no line break is written before. -/
def rootMarks (level : Int) (data : Data) (cs : List Node) : List Mark :=
  .text (pad level) :: elementMarks level data (ownMarks level data ++ marksAll (level + 1) cs)

end Node

/-! ### Writing mark by mark -/

theorem flatMap_writeAttribute {entries : List (String × Json)}
    (textual : ∀ e ∈ entries, ∃ value, e.2 = .str value) :
    (entries.map writeAttribute).flatMap (' ' :: ·) = (entries.map spelledEntry).flatMap written := by
  rw [List.flatMap_map, List.flatMap_map]
  refine List.flatMap_congr fun e mem => ?_
  obtain ⟨value, string⟩ := textual e mem
  obtain ⟨name, v⟩ := e
  simp only at string
  subst string
  rfl

theorem writeAttributes_eq {data : Data} (textual : data.Textual) {root : Option RootOptions}
    (plain : root.any (·.passProps) = false) :
    (attributeList data root).flatMap (' ' :: ·) = (spelledEntries data).flatMap written := by
  rw [attributeList, plain]
  simp only [Bool.false_eq_true, if_false, List.append_nil]
  exact flatMap_writeAttribute textual.attributes

/-- Lines with a line break before each of them. -/
def onLines (lines : List (List Char)) : List Char := lines.flatMap ('\n' :: ·)

theorem onLines_join {lines : List (List Char)} (some_lines : lines ≠ []) :
    '\n' :: join ['\n'] lines = onLines lines := by
  induction lines with
  | nil => contradiction
  | cons line rest ih =>
    cases rest with
    | nil => simp [onLines, join, List.intercalate]
    | cons next rest =>
      have later := ih (by simp)
      rw [onLines, List.flatMap_cons, ← onLines, ← later]
      simp [join, List.intercalate]

/-- The line of an element's own text, if it has one. -/
def ownLines (level : Int) (data : Data) : List (List Char) :=
  if (textOf data).isEmpty then [] else [pad (level + 1) ++ escapeText (textOf data)]

theorem writeMarks_ownMarks (level : Int) (data : Data) :
    writeMarks (ownMarks level data) = onLines (ownLines level data) := by
  unfold ownMarks ownLines
  split
  · rfl
  · simp [writeMarks, Mark.write, onLines]

/-- A root that passes nothing on is written like any other element. -/
def Plain (root : Option RootOptions) : Prop := root = none ∨ root = some {}

/-- An element's marks, its attributes given as they are written. -/
def marksWith (level : Int) (tag : List Char) (entries : List (List Char × List Char))
    (inner : List Mark) : List Mark :=
  if inner.isEmpty then [.single tag entries [' ']]
  else .start tag entries :: inner ++ [.text ('\n' :: pad level), .stop tag]

theorem elementMarks_eq (level : Int) (data : Data) (inner : List Mark) :
    elementMarks level data inner = marksWith level data.tag.toList (spelledEntries data) inner := rfl

/-- What stands behind the attributes of an element's first tag. -/
def elementRest (level : Int) (tag : List Char) (inner : List Mark) : List Char :=
  if inner.isEmpty then " />".toList
  else '>' :: writeMarks inner ++ '\n' :: pad level ++ "</".toList ++ tag ++ ['>']

theorem writeMarks_marksWith (level : Int) (tag : List Char) (entries : List (List Char × List Char))
    (inner : List Mark) : writeMarks (marksWith level tag entries inner) =
      '<' :: tag ++ entries.flatMap written ++ elementRest level tag inner := by
  unfold marksWith elementRest
  split
  · simp [writeMarks, Mark.write]
  · simp [writeMarks, Mark.write]

theorem writeElement_split {level : Int} {root : Option RootOptions} {data : Data}
    {children : List (List Char)} {inner : List Mark} (plain : Plain root)
    (inside : writeMarks inner = onLines (ownLines level data ++ children))
    (none_inside : inner = [] ↔ ownLines level data ++ children = []) :
    writeElement level root data children = pad level ++ ('<' :: data.tag.toList ++
      (attributeList data root).flatMap (' ' :: ·) ++ elementRest level data.tag.toList inner) := by
  have slot : slotLines level root = [] := by obtain rfl | rfl := plain <;> rfl
  unfold writeElement
  dsimp only
  rw [← ownLines, slot, List.append_nil, elementRest]
  cases lines : ownLines level data ++ children with
  | nil =>
    obtain rfl := none_inside.2 lines
    simp
  | cons line rest =>
    have some_inner : inner ≠ [] := fun absent => by simp [none_inside.1 absent] at lines
    have joined : '\n' :: join ['\n'] (line :: rest) = onLines (line :: rest) := onLines_join (by simp)
    rw [lines, ← joined] at inside
    rw [if_neg (by simpa using some_inner), inside]
    simp

theorem writeElement_eq {level : Int} {root : Option RootOptions} {data : Data}
    {children : List (List Char)} {inner : List Mark} (plain : Plain root) (textual : data.Textual)
    (inside : writeMarks inner = onLines (ownLines level data ++ children))
    (none_inside : inner = [] ↔ ownLines level data ++ children = []) :
    writeElement level root data children = pad level ++ writeMarks (elementMarks level data inner) := by
  have attributes := @writeAttributes_eq data textual root (by obtain rfl | rfl := plain <;> rfl)
  rw [writeElement_split plain inside none_inside, attributes, elementMarks_eq, writeMarks_marksWith]

namespace Node

theorem some_marks {n : Node} (textual : n.Each Data.Textual) (level : Int) : marks level n ≠ [] := by
  obtain ⟨data, cs⟩ := n
  unfold marks
  unfold Each at textual
  cases kind : data.kind with
  | element => simp
  | text => simp
  | fragment => simp [kind] at textual

theorem marksAll_eq_nil {ns : List Node} (textual : EachIn Data.Textual ns) {level : Int} :
    marksAll level ns = [] ↔ writeAll level ns = [] := by
  cases ns with
  | nil => simp [marksAll, writeAll]
  | cons n rest => simp [marksAll, writeAll, some_marks textual.1]

theorem inside_eq_nil {data : Data} {cs : List Node} (textual : EachIn Data.Textual cs) {level : Int} :
    ownMarks level data ++ marksAll (level + 1) cs = [] ↔
      ownLines level data ++ writeAll (level + 1) cs = [] := by
  rw [List.append_eq_nil_iff, List.append_eq_nil_iff, marksAll_eq_nil textual]
  refine and_congr_left fun _ => ?_
  unfold ownMarks ownLines
  split <;> simp

mutual

/-- A textual tree is written mark by mark, a line for each of its nodes. -/
theorem write_eq : ∀ {n : Node}, n.Each Data.Textual → ∀ level : Int,
    '\n' :: n.write level none = writeMarks (marks level n)
  | .node data cs, textual, level => by
    unfold Each at textual
    unfold marks
    rw [write]
    cases kind : data.kind with
    | element =>
      simp only [kind] at textual ⊢
      rw [writeElement_eq (.inl rfl) textual.1 _ (inside_eq_nil textual.2), writeMarks_cons]
      · rfl
      · rw [writeMarks_append, writeMarks_ownMarks, writeAll_eq textual.2, onLines, onLines, onLines,
          List.flatMap_append]
    | text => simp [writeMarks, Mark.write]
    | fragment => simp [kind] at textual

theorem writeAll_eq : ∀ {ns : List Node}, EachIn Data.Textual ns → ∀ {level : Int},
    writeMarks (marksAll level ns) = onLines (writeAll level ns)
  | [], _, _ => rfl
  | n :: rest, ⟨first, others⟩, level => by
    rw [marksAll, writeAll, writeMarks_append, ← write_eq first, writeAll_eq others]
    rfl

end

theorem textFault?_none {data : Data} (text : data.text = .null ∨ ∃ content, data.text = .str content) :
    textFault? data = none := by
  obtain absent | ⟨content, own⟩ := text
  · simp [textFault?, absent, Json.isTruthy]
  · simp [textFault?, own]

mutual

theorem jsxFault?_none : ∀ {n : Node}, n.Each Data.Textual → n.jsxFault? = none
  | .node data cs, textual => by
    unfold Each at textual
    rw [jsxFault?]
    cases kind : data.kind with
    | element =>
      simp only [kind] at textual ⊢
      rw [jsxFaultIn?_none textual.2, Option.none_or]
      exact textFault?_none textual.1.text
    | text =>
      simp only [kind] at textual ⊢
      exact textFault?_none (.inr textual)
    | fragment => simp [kind] at textual

theorem jsxFaultIn?_none : ∀ {ns : List Node}, EachIn Data.Textual ns → jsxFaultIn? ns = none
  | [], _ => rfl
  | n :: rest, ⟨first, others⟩ => by
    rw [jsxFaultIn?, jsxFault?_none first, jsxFaultIn?_none others]
    rfl

end

/-- A root is written with its attributes, whatever they are, and with the marks inside it. -/
theorem toJsx_root {data : Data} {cs : List Node} (element : data.kind = .element)
    (text : data.text = .null ∨ ∃ content, data.text = .str content)
    (textual : EachIn Data.Textual cs) (indent : Int) :
    toJsx (.node data cs) {} indent = .ok (pad indent ++ ('<' :: data.tag.toList ++
      (attributeList data (some {})).flatMap (' ' :: ·) ++
        elementRest indent data.tag.toList (ownMarks indent data ++ marksAll (indent + 1) cs))) := by
  have none_fails : (Node.node data cs).jsxFault? = none := by
    rw [jsxFault?]
    simp only [element]
    rw [jsxFaultIn?_none textual, textFault?_none text]
    rfl
  rw [toJsx, none_fails]
  simp only [write, element]
  rw [writeElement_split (.inr rfl) _ (inside_eq_nil textual)]
  rw [writeMarks_append, writeMarks_ownMarks, writeAll_eq textual, onLines, onLines, onLines,
    List.flatMap_append]

theorem toJsx_textual {data : Data} {cs : List Node} (textual : Each Data.Textual (.node data cs))
    (element : data.kind = .element) (indent : Int) :
    toJsx (.node data cs) {} indent = .ok (writeMarks (rootMarks indent data cs)) := by
  unfold Each at textual
  simp only [element] at textual
  rw [toJsx_root element textual.1.text textual.2, writeAttributes_eq textual.1 rfl, rootMarks, writeMarks_cons,
    elementMarks_eq, writeMarks_marksWith]
  rfl

theorem toJsx_static {data : Data} {cs : List Node} (static : Static (.node data cs))
    (element : data.kind = .element) (indent : Int) :
    toJsx (.node data cs) {} indent = .ok (writeMarks (rootMarks indent data cs)) :=
  toJsx_textual (static.each.imp fun _ => Data.Static.textual) element indent

end Node

/-! ### What the marks are -/

/-- A mark that is written for a tree whose elements are as told: an escaped text after white space,
or a tag of one of the elements. -/
inductive Written (P : Data → Prop) : Mark → Prop where
  | text (raw : List Char) : (∀ c ∈ raw.head?, isBlank c = true) → Written P (.text (escapeText raw))
  | start {data : Data} : P data → Written P (.start data.tag.toList (spelledEntries data))
  | single {data : Data} : P data → Written P (.single data.tag.toList (spelledEntries data) [' '])
  | stop {data : Data} : P data → Written P (.stop data.tag.toList)

theorem blank_pad (level : Int) : Blank (pad level) := by
  intro c mem
  obtain rfl := List.eq_of_mem_replicate mem
  decide

theorem blank_break (level : Int) : Blank ('\n' :: pad level) := by
  intro c mem
  rcases List.mem_cons.1 mem with rfl | mem
  · decide
  · exact blank_pad level c mem

theorem escapeText_pad (level : Int) : escapeText (pad level) = pad level := by
  rw [escapeText, pad]
  induction (2 * level).toNat with
  | zero => rfl
  | succ n ih => rw [List.replicate_succ, List.flatMap_cons, ih]; rfl

section

variable {P : Data → Prop}

theorem written_line (level : Int) (raw : List Char) :
    Written P (.text ('\n' :: pad level ++ escapeText raw)) := by
  have same : '\n' :: pad level ++ escapeText raw = escapeText ('\n' :: pad level ++ raw) := by
    have lead := escapeText_pad level
    rw [escapeText] at lead
    rw [escapeText, escapeText, List.flatMap_append, List.flatMap_cons, lead]
    rfl
  rw [same]
  refine .text _ ?_
  rintro c ⟨⟩
  decide

theorem written_break (level : Int) : Written P (.text ('\n' :: pad level)) := by
  simpa [escapeText] using @written_line P level []

theorem written_elementMarks {level : Int} {data : Data} {inner : List Mark} (element : P data)
    (inside : ∀ m ∈ inner, Written P m) : ∀ m ∈ elementMarks level data inner, Written P m := by
  intro m mem
  unfold elementMarks at mem
  split at mem
  · obtain rfl := List.mem_singleton.1 mem
    exact .single element
  · simp only [List.cons_append, List.mem_cons, List.mem_append, List.not_mem_nil, or_false] at mem
    obtain rfl | mem | rfl | rfl := mem
    · exact .start element
    · exact inside m mem
    · exact written_break level
    · exact .stop element

theorem written_ownMarks (level : Int) (data : Data) : ∀ m ∈ ownMarks level data, Written P m := by
  intro m mem
  unfold ownMarks at mem
  split at mem
  · simp at mem
  · obtain rfl := List.mem_singleton.1 mem
    exact written_line (level + 1) (textOf data)

namespace Node

mutual

theorem written_marks : ∀ {n : Node}, n.Each P → ∀ {level : Int}, ∀ m ∈ marks level n, Written P m
  | .node data cs, each, level => by
    unfold Each at each
    unfold marks
    cases kind : data.kind with
    | element =>
      simp only [kind] at each ⊢
      intro m mem
      obtain rfl | mem := List.mem_cons.1 mem
      · exact written_break level
      · refine written_elementMarks each.1 (fun m' mem' => ?_) m mem
        obtain own | inner := List.mem_append.1 mem'
        · exact written_ownMarks level data m' own
        · exact written_marksAll each.2 m' inner
    | text =>
      intro m mem
      obtain rfl := List.mem_singleton.1 mem
      exact written_line level (textOf data)
    | fragment => simp [kind] at each

theorem written_marksAll : ∀ {ns : List Node}, EachIn P ns → ∀ {level : Int},
    ∀ m ∈ marksAll level ns, Written P m
  | [], _, _ => by simp [marksAll]
  | n :: rest, ⟨first, others⟩, level => by
    intro m mem
    obtain here | later := List.mem_append.1 mem
    · exact written_marks first m here
    · exact written_marksAll others m later

end

theorem written_rootMarks {data : Data} {cs : List Node} (each : Each P (.node data cs))
    (element : data.kind = .element) (level : Int) : ∀ m ∈ rootMarks level data cs, Written P m := by
  unfold Each at each
  simp only [element] at each
  intro m mem
  obtain rfl | mem := List.mem_cons.1 mem
  · rw [← escapeText_pad]
    exact .text _ fun c head => blank_pad level c (List.mem_of_mem_head? head)
  · refine written_elementMarks each.1 (fun m' mem' => ?_) m mem
    obtain own | inner := List.mem_append.1 mem'
    · exact written_ownMarks level data m' own
    · exact written_marksAll each.2 m' inner

end Node

end

/-! ### Reading what was written -/

theorem spells_escapeTextChar (c : Char) : Entity.Spells c (escapeTextChar c) := by
  unfold escapeTextChar
  split
  · exact .reference (.named "amp;".toList) (fun _ _ => rfl) rfl rfl
  · exact .reference (.named "lt;".toList) (fun _ _ => rfl) rfl rfl
  · exact .reference (.named "gt;".toList) (fun _ _ => rfl) rfl rfl
  · exact .reference (.decimal "123".toList) (fun _ _ => rfl) rfl rfl
  · exact .reference (.decimal "125".toList) (fun _ _ => rfl) rfl rfl
  · exact .plain ‹_›

theorem spells_escapeValueChar (c : Char) : Entity.Spells c (escapeValueChar c) := by
  unfold escapeValueChar
  split
  · exact .reference (.named "amp;".toList) (fun _ _ => rfl) rfl rfl
  · exact .reference (.named "quot;".toList) (fun _ _ => rfl) rfl rfl
  · exact .plain ‹_›

theorem escapeText_clean (text : List Char) : '<' ∉ escapeText text := by
  intro mem
  obtain ⟨c, -, mem⟩ := List.mem_flatMap.1 mem
  unfold escapeTextChar at mem
  split at mem
  case h_6 => exact absurd (List.mem_singleton.1 mem).symm ‹_›
  all_goals exact absurd mem (by decide)

theorem escapeValue_clean (text : List Char) : '"' ∉ escapeValue text := by
  intro mem
  obtain ⟨c, -, mem⟩ := List.mem_flatMap.1 mem
  unfold escapeValueChar at mem
  split at mem
  case h_3 => exact absurd (List.mem_singleton.1 mem).symm ‹_›
  all_goals exact absurd mem (by decide)

theorem Data.Proper.entries {data : Data} (proper : data.Proper) :
    ProperEntries (spelledEntries data) where
  each := by
    intro e mem
    obtain ⟨e, entry, rfl⟩ := List.mem_map.1 mem
    exact ⟨proper.names e entry, escapeValue_clean _⟩
  nodup := by
    have keys : (spelledEntries data).map Prod.fst = data.attributes.keys.map String.toList := by
      simp [spelledEntries, OrderedMap.keys]
    rw [keys]
    exact data.attributes.nodup_keys.map fun _ _ same => String.toList_injective same

namespace Written

variable {P : Data → Prop} {m : Mark}

theorem proper (written : Written P m) (each : ∀ data, P data → data.Proper) : m.Proper := by
  cases written with
  | text raw head => exact escapeText_clean raw
  | start element => exact ⟨(each _ element).tag, (each _ element).entries⟩
  | single element => exact ⟨(each _ element).tag, (each _ element).entries, by simp⟩
  | stop element => exact (each _ element).tag

theorem spelled_text (written : Written P m) {text : List Char} (same : m = .text text) :
    ∃ raw, text = escapeText raw := by
  cases written with
  | text raw head =>
    cases same
    exact ⟨raw, rfl⟩
  | start element => exact nomatch same
  | single element => exact nomatch same
  | stop element => exact nomatch same

/-- White space is written as it is. -/
theorem head_blank (written : Written P m) {text : List Char} (same : m = .text text) :
    ∀ c ∈ text.head?, isBlank c = true := by
  cases written with
  | text raw head =>
    cases same
    cases raw with
    | nil => simp [escapeText]
    | cons c rest =>
      have blank := head c rfl
      have itself : escapeTextChar c = [c] := by
        unfold escapeTextChar
        split
        case h_6 => rfl
        all_goals exact absurd blank (by decide)
      rw [escapeText, List.flatMap_cons, itself]
      rintro d ⟨⟩
      exact blank
  | start element => exact nomatch same
  | single element => exact nomatch same
  | stop element => exact nomatch same

/-- The entries of a tag are those of an element. -/
theorem entries (written : Written P m) :
    m.entries = [] ∨ ∃ data : Data, P data ∧ m.entries = spelledEntries data := by
  cases written with
  | text raw head => exact .inl rfl
  | start element => exact .inr ⟨_, element, rfl⟩
  | single element => exact .inr ⟨_, element, rfl⟩
  | stop element => exact .inl rfl

theorem readable (written : Written P m) : ∀ e ∈ m.entries, Entity.Readable e.2 := by
  intro e mem
  obtain absent | ⟨data, -, same⟩ := written.entries
  · simp [absent] at mem
  · rw [same] at mem
    obtain ⟨e, -, rfl⟩ := List.mem_map.1 mem
    exact Entity.readable_flatMap spells_escapeValueChar _

end Written

theorem legible_written {P : Data → Prop} {marks : List Mark}
    (written : ∀ m ∈ marks, Written P m) (each : ∀ data, P data → data.Proper) :
    Legible (writeMarks marks) := by
  refine legible_writeMarks spells_escapeTextChar (fun m mem => (written m mem).proper each) ?_
    fun m mem => (written m mem).readable
  intro spelled mem
  exact (written _ mem).spelled_text rfl

end DesignComponents.Target
