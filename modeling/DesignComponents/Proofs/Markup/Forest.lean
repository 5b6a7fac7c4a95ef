import DesignComponents.Markup.Balance
import DesignComponents.Proofs.Markup.Document
import DesignComponents.Proofs.Text.Search
import DesignComponents.Proofs.Text.Trim

/-! Well-formed markup as a forest: texts, declarations and elements in a row, where an element
closes itself or has a row of its own between its tags. Tags are paired by the shape of the data,
so all that is left to ask is what may stand in a name, in a value and in a text. -/

set_option autoImplicit false

namespace DesignComponents.Markup

open Text

/-! ### Attributes -/

/-- An attribute as it stands in a tag, with its value in quotes of either kind. -/
structure QuotedAttr where
  lead : List Char
  name : List Char
  /-- The white space before the sign of the value, and behind it. -/
  before : List Char
  after : List Char
  quote : Char
  value : List Char

namespace QuotedAttr

def write (a : QuotedAttr) : List Char :=
  a.lead ++ a.name ++ a.before ++ '=' :: a.after ++ a.quote :: a.value ++ [a.quote]

structure Proper (a : QuotedAttr) : Prop where
  some_lead : a.lead ≠ []
  lead : Blank a.lead
  name : ProperName a.name
  before : Blank a.before
  after : Blank a.after
  quote : isQuote a.quote = true
  value : a.quote ∉ a.value ∧ '<' ∉ a.value

theorem proper_iff {a : QuotedAttr} : a.Proper ↔ a.lead ≠ [] ∧ Blank a.lead ∧ ProperName a.name ∧
    Blank a.before ∧ Blank a.after ∧ isQuote a.quote = true ∧ a.quote ∉ a.value ∧ '<' ∉ a.value :=
  ⟨fun ⟨some_lead, lead, name, before, after, quote, value⟩ =>
      ⟨some_lead, lead, name, before, after, quote, value⟩,
    fun ⟨some_lead, lead, name, before, after, quote, value⟩ =>
      ⟨some_lead, lead, name, before, after, quote, value⟩⟩

instance (a : QuotedAttr) : Decidable a.Proper := decidable_of_iff _ proper_iff.symm

/-- An attribute as it is mostly written. -/
def spaced (name value : List Char) : QuotedAttr := ⟨[' '], name, [], [], '"', value⟩

end QuotedAttr

/-- Characters that stand in a tag outside of its values. -/
def isTagText (c : Char) : Bool := isBlank c || isNameChar c && c != '<' || c == '=' || isQuote c

theorem isTagText_of_blank {c : Char} (blank : isBlank c = true) : isTagText c = true := by
  simp [isTagText, blank]

theorem ProperName.tagText {name : List Char} (proper : ProperName name) :
    ∀ c ∈ name, isTagText c = true := by
  intro c mem
  obtain ⟨char, sign⟩ := proper.2 c mem
  simp [isTagText, char, sign]

theorem QuotedAttr.Proper.mem_write {a : QuotedAttr} (proper : a.Proper) {c : Char}
    (mem : c ∈ a.write) : isTagText c = true ∨ c ∈ a.value := by
  obtain ⟨-, lead, name, before, after, quote, -⟩ := proper
  have quoted : isTagText a.quote = true := by simp [isTagText, quote]
  simp only [write, List.mem_append, List.mem_cons, List.not_mem_nil, or_false] at mem
  obtain ((((mem | mem) | mem) | rfl | mem) | rfl | mem) | rfl := mem
  · exact .inl (isTagText_of_blank (lead c mem))
  · exact .inl (name.tagText c mem)
  · exact .inl (isTagText_of_blank (before c mem))
  · exact .inl (by decide)
  · exact .inl (isTagText_of_blank (after c mem))
  · exact .inl quoted
  · exact .inr mem
  · exact .inl quoted

/-! ### Tags -/

/-- A name that begins an element, and no declaration or instruction. -/
structure ElementName (name : List Char) : Prop where
  proper : ProperName name
  first : ∀ c ∈ name.head?, c ≠ '!' ∧ c ≠ '?'

instance (name : List Char) : Decidable (ElementName name) :=
  decidable_of_iff (ProperName name ∧ ∀ c ∈ name.head?, c ≠ '!' ∧ c ≠ '?')
    ⟨fun ⟨proper, first⟩ => ⟨proper, first⟩, fun ⟨proper, first⟩ => ⟨proper, first⟩⟩

/-- What a start tag tells of its element. -/
structure Head where
  name : List Char
  attrs : List QuotedAttr
  /-- The white space behind the attributes. -/
  trail : List Char

namespace Head

def write (h : Head) : List Char := h.name ++ h.attrs.flatMap QuotedAttr.write ++ h.trail

structure Proper (h : Head) : Prop where
  name : ElementName h.name
  attrs : ∀ a ∈ h.attrs, a.Proper
  trail : Blank h.trail

instance (h : Head) : Decidable h.Proper :=
  decidable_of_iff (ElementName h.name ∧ (∀ a ∈ h.attrs, a.Proper) ∧ Blank h.trail)
    ⟨fun ⟨name, attrs, trail⟩ => ⟨name, attrs, trail⟩, fun ⟨name, attrs, trail⟩ => ⟨name, attrs, trail⟩⟩

variable {h : Head}

theorem Proper.mem_write (proper : h.Proper) {c : Char} (mem : c ∈ h.write) :
    isTagText c = true ∨ ∃ a ∈ h.attrs, c ∈ a.value := by
  simp only [write, List.mem_append, List.mem_flatMap] at mem
  obtain (mem | ⟨a, held, mem⟩) | mem := mem
  · exact .inl (proper.name.proper.tagText c mem)
  · exact ((proper.attrs a held).mem_write mem).imp_right fun mem => ⟨a, held, mem⟩
  · exact .inl (isTagText_of_blank (proper.trail c mem))

/-- The name of an element begins with none of the signs that begin other tags. -/
theorem Proper.begins (proper : h.Proper) : ∃ first rest, h.write = first :: rest ∧
    isBlank first = false ∧ first ≠ '>' ∧ first ≠ '/' ∧ first ≠ '!' ∧ first ≠ '?' := by
  obtain ⟨name, first⟩ := proper.name
  obtain ⟨c, more, same⟩ := List.exists_cons_of_ne_nil name.1
  have char := (name.2 c (by simp [same])).1
  simp only [isNameChar, Bool.not_eq_true', Bool.or_eq_false_iff, beq_eq_false_iff_ne] at char
  exact ⟨c, more ++ h.attrs.flatMap QuotedAttr.write ++ h.trail, by simp [Head.write, same],
    by simp [char], char.1.1.2, char.1.1.1.2, first c (by simp [same])⟩

/-- Behind the name comes white space, if anything. -/
theorem Proper.behind_name (proper : h.Proper) :
    ∃ behind, h.write = h.name ++ behind ∧ ∀ c ∈ behind.head?, isBlank c = true := by
  obtain ⟨-, attrs, trail⟩ := proper
  refine ⟨_, List.append_assoc _ _ _, ?_⟩
  cases within : h.attrs with
  | nil => exact fun c first => trail c (List.mem_of_mem_head? first)
  | cons a rest =>
    obtain ⟨some_lead, lead, -⟩ := attrs a (by simp [within])
    obtain ⟨c, more, same⟩ := List.exists_cons_of_ne_nil some_lead
    intro d first
    obtain rfl : c = d := by simpa [QuotedAttr.write, same] using first
    exact lead c (by simp [same])

theorem Proper.no_sign (proper : h.Proper) : '<' ∉ h.write := by
  intro mem
  obtain plain | ⟨a, held, mem⟩ := proper.mem_write mem
  · exact absurd plain (by decide)
  · exact (proper.attrs a held).value.2 mem

/-- A start tag whose values hold no end sign has none before its own. -/
theorem Proper.no_end (proper : h.Proper) (plain : ∀ a ∈ h.attrs, '>' ∉ a.value) : '>' ∉ h.write := by
  intro mem
  obtain text | ⟨a, held, mem⟩ := proper.mem_write mem
  · exact absurd text (by decide)
  · exact plain a held mem

end Head

/-- The text does not end in a slash. -/
def Unslashed (text : List Char) : Prop := '/' ∉ text.getLast?

theorem Unslashed.append {left right : List Char} (first : Unslashed left) (last : Unslashed right) :
    Unslashed (left ++ right) := by
  rw [Unslashed, List.getLast?_append]
  cases ends : right.getLast? with
  | none => exact first
  | some c =>
    rw [Unslashed, ends] at last
    exact last

theorem unslashed_of_lacks {text : List Char} (lacks : '/' ∉ text) : Unslashed text :=
  fun mem => lacks (List.mem_of_getLast? mem)

theorem Blank.unslashed {text : List Char} (blank : Blank text) : Unslashed text :=
  unslashed_of_lacks (lacks blank (by decide))

theorem ProperName.unslashed {name : List Char} (proper : ProperName name) : Unslashed name :=
  unslashed_of_lacks (proper.lacks (by decide))

theorem QuotedAttr.Proper.unslashed {a : QuotedAttr} (proper : a.Proper) : Unslashed a.write := by
  have last : a.write.getLast? = some a.quote := by
    rw [write, List.getLast?_append]
    rfl
  rw [Unslashed, last]
  intro slash
  have quote := proper.quote
  rw [Option.some.inj slash] at quote
  exact absurd quote (by decide)

theorem unslashed_attrs {attrs : List QuotedAttr} (proper : ∀ a ∈ attrs, a.Proper) :
    Unslashed (attrs.flatMap QuotedAttr.write) := by
  induction attrs with
  | nil => exact nofun
  | cons a rest ih =>
    obtain ⟨first, others⟩ := List.forall_mem_cons.1 proper
    exact first.unslashed.append (ih others)

theorem Head.Proper.unslashed {h : Head} (proper : h.Proper) : Unslashed h.write :=
  (proper.name.proper.unslashed.append (unslashed_attrs proper.attrs)).append
    (Blank.unslashed proper.trail)

/-- What stands between the signs `<` and `>` that mark it. -/
inductive Sign where
  /-- A declaration or an instruction. -/
  | aside (inside : List Char)
  | start (head : Head)
  /-- The tag of an element that closes itself. -/
  | single (head : Head)
  | stop (name gap : List Char)

namespace Sign

def inside : Sign → List Char
  | .aside inside => inside
  | .start head => head.write
  | .single head => head.write ++ ['/']
  | .stop name gap => '/' :: name ++ gap

def Proper : Sign → Prop
  | .aside inside =>
    (inside.head? = some '!' ∨ inside.head? = some '?') ∧ '<' ∉ inside ∧ ¬ "!--".toList <+: inside
  | .start head | .single head => head.Proper
  | .stop name gap => ElementName name ∧ Blank gap

instance : (s : Sign) → Decidable s.Proper
  | .aside inside => inferInstanceAs (Decidable
    ((inside.head? = some '!' ∨ inside.head? = some '?') ∧ '<' ∉ inside ∧ ¬ "!--".toList <+: inside))
  | .start head | .single head => inferInstanceAs (Decidable head.Proper)
  | .stop name gap => inferInstanceAs (Decidable (ElementName name ∧ Blank gap))

def isStart : Sign → Bool
  | .start _ => true
  | _ => false

def isSingle : Sign → Bool
  | .single _ => true
  | _ => false

def isStop : Sign → Bool
  | .stop .. => true
  | _ => false

def head? : Sign → Option Head
  | .start head | .single head => some head
  | .aside _ | .stop .. => none

/-- The first character between the signs, and what it tells of the tag. -/
structure Begins (s : Sign) (first : Char) (rest : List Char) : Prop where
  inside : s.inside = first :: rest
  solid : isBlank first = false
  no_end : first ≠ '>'
  opens : (s.isStart || s.isSingle) = !(first == '/' || first == '!' || first == '?')
  closes : s.isStop = (first == '/')

variable {s : Sign}

theorem Proper.begins (proper : s.Proper) : ∃ first rest, s.Begins first rest := by
  cases s with
  | aside inside =>
    obtain ⟨sign, -, -⟩ := proper
    obtain bang | question := sign
    · exact ⟨'!', inside.tail, List.eq_cons_of_mem_head? bang, by decide, by decide, rfl, rfl⟩
    · exact ⟨'?', inside.tail, List.eq_cons_of_mem_head? question, by decide, by decide, rfl, rfl⟩
  | start head =>
    obtain ⟨c, rest, same, solid, no_end, slash, bang, question⟩ := Head.Proper.begins proper
    exact ⟨c, rest, same, solid, no_end, by simp [isStart, *], by simp [isStop, slash]⟩
  | single head =>
    obtain ⟨c, rest, same, solid, no_end, slash, bang, question⟩ := Head.Proper.begins proper
    exact ⟨c, rest ++ ['/'], by simp [inside, same], solid, no_end, by simp [isSingle, *],
      by simp [isStop, slash]⟩
  | stop name gap => exact ⟨'/', name ++ gap, rfl, by decide, by decide, rfl, rfl⟩

theorem Proper.no_sign (proper : s.Proper) : '<' ∉ s.inside := by
  cases s with
  | aside inside => exact proper.2.1
  | start head => exact Head.Proper.no_sign proper
  | single head =>
    rw [inside, List.mem_append, not_or]
    exact ⟨Head.Proper.no_sign proper, by decide⟩
  | stop name gap =>
    have no_name : '<' ∉ name := lacks proper.1.proper.tagText (by decide)
    have no_gap : '<' ∉ gap := lacks proper.2 (by decide)
    simp [inside, no_name, no_gap]

/-- Behind the name of an element comes white space or the end of the tag. -/
theorem Proper.behind_name (proper : s.Proper) {head : Head} (held : head ∈ s.head?) :
    ElementName head.name ∧
      ∃ behind, s.inside = head.name ++ behind ∧ ∀ c ∈ behind.head?, isBlank c = true ∨ c = '/' := by
  cases s with
  | aside inside => exact nomatch held
  | start h =>
    obtain rfl : h = head := Option.some.inj held
    obtain ⟨behind, same, blank⟩ := Head.Proper.behind_name proper
    exact ⟨Head.Proper.name proper, behind, same, fun c first => .inl (blank c first)⟩
  | single h =>
    obtain rfl : h = head := Option.some.inj held
    obtain ⟨behind, same, blank⟩ := Head.Proper.behind_name proper
    refine ⟨Head.Proper.name proper, behind ++ ['/'], by simp [inside, same], ?_⟩
    cases behind with
    | nil =>
      rintro c ⟨⟩
      exact .inr rfl
    | cons d more => exact fun c first => .inl (blank c first)
  | stop name gap => exact nomatch held

/-- No comment begins at the tag. -/
theorem Proper.no_comment (proper : s.Proper) (rest : List Char) :
    ¬ "!--".toList <+: s.inside ++ '>' :: rest := by
  rw [prefix_append_cons (by decide)]
  obtain ⟨first, more, inside, -, -, opens, closes⟩ := proper.begins
  rw [inside]
  intro within
  have bang : '!' = first := (List.cons_prefix_cons.1 within).1
  rw [← bang] at opens closes
  cases s with
  | aside text =>
    obtain rfl : text = first :: more := inside
    exact proper.2.2 within
  | start head => exact nomatch opens
  | single head => exact nomatch opens
  | stop name gap => exact nomatch closes

end Sign

/-! ### Forests -/

/-- A text, or a tag of some kind. -/
inductive Piece where
  | text (spelled : List Char)
  | sign (s : Sign)

namespace Piece

def write : Piece → List Char
  | .text spelled => spelled
  | .sign s => '<' :: s.inside ++ ['>']

def Proper : Piece → Prop
  | .text spelled => '<' ∉ spelled
  | .sign s => s.Proper

instance : (p : Piece) → Decidable p.Proper
  | .text spelled => inferInstanceAs (Decidable ('<' ∉ spelled))
  | .sign s => inferInstanceAs (Decidable s.Proper)

def sign? : Piece → Option Sign
  | .text _ => none
  | .sign s => some s

end Piece

/-- A row of texts, declarations, instructions and elements. The end tag of an element has the
name of its start tag. -/
inductive Forest where
  | nil
  | text (spelled : List Char) (next : Forest)
  | aside (inside : List Char) (next : Forest)
  | single (head : Head) (next : Forest)
  | element (head : Head) (children : Forest) (gap : List Char) (next : Forest)

namespace Forest

def pieces : Forest → List Piece
  | .nil => []
  | .text spelled next => .text spelled :: next.pieces
  | .aside inside next => .sign (.aside inside) :: next.pieces
  | .single head next => .sign (.single head) :: next.pieces
  | .element head children gap next =>
    .sign (.start head) :: children.pieces ++ .sign (.stop head.name gap) :: next.pieces

def write (f : Forest) : List Char := f.pieces.flatMap Piece.write

/-- The tags in the order of the text. -/
def signs (f : Forest) : List Sign := f.pieces.filterMap Piece.sign?

/-- Markup that is well-formed, without comments. -/
def Proper (f : Forest) : Prop := ∀ p ∈ f.pieces, p.Proper

instance (f : Forest) : Decidable f.Proper := inferInstanceAs (Decidable (∀ p ∈ f.pieces, p.Proper))

theorem Proper.signs {f : Forest} (proper : f.Proper) : ∀ s ∈ f.signs, s.Proper := by
  intro s mem
  obtain ⟨p, held, same⟩ := List.mem_filterMap.1 mem
  cases p with
  | text spelled => exact nomatch same
  | sign s' =>
    obtain rfl : s' = s := Option.some.inj same
    exact proper _ held

theorem write_of_mem {f : Forest} {s : Sign} (mem : s ∈ f.signs) :
    ∃ before after, f.write = before ++ '<' :: (s.inside ++ '>' :: after) := by
  obtain ⟨p, held, same⟩ := List.mem_filterMap.1 mem
  cases p with
  | text spelled => exact nomatch same
  | sign s' =>
    obtain rfl : s' = s := Option.some.inj same
    obtain ⟨left, right, split⟩ := List.append_of_mem held
    exact ⟨left.flatMap Piece.write, right.flatMap Piece.write, by simp [write, split, Piece.write]⟩

/-- As many elements are opened as are closed. -/
theorem countP_isStart (f : Forest) : f.signs.countP Sign.isStart = f.signs.countP Sign.isStop := by
  induction f with
  | nil => rfl
  | text spelled next ih => exact ih
  | aside inside next ih => simpa [signs, pieces, Piece.sign?, Sign.isStart, Sign.isStop] using ih
  | single head next ih => simpa [signs, pieces, Piece.sign?, Sign.isStart, Sign.isStop] using ih
  | element head children gap next inner ih =>
    simp only [signs] at inner ih
    simp only [signs, pieces, List.filterMap_append, List.filterMap_cons, Piece.sign?, List.countP_append,
      List.countP_cons, inner, ih, Sign.isStart, Sign.isStop, List.cons_append]
    simp only [Bool.false_eq_true, ↓reduceIte]
    omega

end Forest

end DesignComponents.Markup
