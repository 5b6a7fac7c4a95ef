import DesignComponents.Proofs.Markup.Document
import DesignComponents.Proofs.Markup.Optimize

/-! A pass over markup that looks for attributes. It has no notion of a tag: what it reads begins
with a name, an equals sign and a quote, wherever they stand. In a document whose texts and values
do not look so it changes the attributes of each tag and nothing else. -/

set_option autoImplicit false

namespace DesignComponents.Markup

open Text Reader

/-! ### Where a pass can begin to read -/

def isPlainName (c : Char) : Bool := isWord c || c == ':' || c == '-'

/-- White space and a name, each of which may be missing, and the equals sign and the quote of a
value. -/
def Begins (text : List Char) : Prop :=
  ∃ blank name rest : List Char, (∀ c ∈ blank, isBlank c = true) ∧
    (∀ c ∈ name, isPlainName c = true) ∧ text = blank ++ name ++ ("=\"".toList ++ rest)

theorem begins_cons {c : Char} {text : List Char} (begins : Begins (c :: text)) :
    isBlank c = true ∧ Begins text ∨ isPlainName c = true ∨ c = '=' := by
  obtain ⟨blank, name, rest, blanks, names, same⟩ := begins
  cases blank with
  | cons d more =>
    simp only [List.cons_append, List.cons.injEq] at same
    obtain ⟨rfl, same⟩ := same
    exact .inl ⟨blanks c List.mem_cons_self, more, name, rest,
      fun d mem => blanks d (List.mem_cons_of_mem c mem), names, same⟩
  | nil =>
    cases name with
    | cons d more =>
      simp only [List.nil_append, List.cons_append, List.cons.injEq] at same
      exact .inr (.inl (same.1 ▸ names d List.mem_cons_self))
    | nil => exact .inr (.inr (List.cons.inj same).1)

/-- The signs of a tag and the end of a value. -/
theorem not_begins_sign {c : Char} (sign : c ∈ ['<', '>', '/', '"']) (text : List Char) :
    ¬Begins (c :: text) := by
  intro begins
  have each : ∀ c ∈ ['<', '>', '/', '"'], isBlank c = false ∧ isPlainName c = false ∧ c ≠ '=' := by
    decide +kernel
  obtain ⟨not_blank, not_name, not_equals⟩ := each c sign
  obtain ⟨blank, -⟩ | name | equals := begins_cons begins
  · simp [not_blank] at blank
  · simp [not_name] at name
  · exact not_equals equals

theorem not_begins_blank {blank text : List Char} (blanks : ∀ c ∈ blank, isBlank c = true)
    (not_begins : ¬Begins text) : ¬Begins (blank ++ text) := by
  induction blank with
  | nil => exact not_begins
  | cons c more ih =>
    have blank := blanks c List.mem_cons_self
    intro begins
    obtain ⟨-, later⟩ | name | rfl := begins_cons begins
    · exact ih (fun d mem => blanks d (List.mem_cons_of_mem c mem)) later
    · rw [isBlank_of_inName name] at blank
      exact nomatch blank
    · exact absurd blank (by decide)

/-- Text that does not hold the opening of a value, up to a tag or to the end. -/
theorem not_begins_text {text back : List Char} (no_value : ¬"=\"".toList <:+: text)
    (tag : ∀ c ∈ back.head?, c = '<') : ¬Begins (text ++ back) := by
  rintro ⟨blank, name, rest, blanks, names, same⟩
  rw [← List.append_assoc] at same
  -- Either the opening of a value reaches into the tag, which no part of it can, or the text has it.
  obtain ⟨more, whole, back_eq⟩ | ⟨more, inside, -⟩ := List.append_eq_append_iff.1 same
  · cases more with
    | nil => exact no_value ⟨blank ++ name, [], by simpa using whole⟩
    | cons c more =>
      obtain rfl := tag c (by simp [back_eq])
      have no_blank : '<' ∉ blank := lacks blanks (by decide)
      have no_name : '<' ∉ name := lacks names (by decide)
      have held : '<' ∈ blank ++ name ++ "=\"".toList := by
        rw [whole]
        simp
      simp [no_blank, no_name] at held
  · exact no_value ⟨blank ++ name, more, inside.symm⟩

/-- A tag's name, which neither holds the sign of a value nor has it behind. -/
theorem not_begins_name {name back : List Char} (some_name : name ≠ [])
    (all : ∀ c ∈ name, isTagChar c = true) (stops : Stops back) : ¬Begins (name ++ back) := by
  rintro ⟨blank, lead, rest, blanks, leads, same⟩
  obtain ⟨first, others, rfl⟩ := List.exists_cons_of_ne_nil some_name
  obtain rfl : blank = [] := by
    cases blank with
    | nil => rfl
    | cons d more =>
      simp only [List.cons_append, List.cons.injEq] at same
      have solid := not_blank_of_isTagChar (all first List.mem_cons_self)
      rw [same.1, blanks d List.mem_cons_self] at solid
      exact nomatch solid
  -- The sign of a value would stand in the name, or in what stops it.
  rw [List.nil_append] at same
  have no_equals : '=' ∉ first :: others := lacks all (by decide)
  obtain ⟨more, rfl, back_eq⟩ | ⟨more, whole, equals⟩ := List.append_eq_append_iff.1 same
  · cases more with
    | nil => exact absurd (stops '=' (by simp [back_eq])) (by decide)
    | cons d more =>
      have plain := leads d (by simp)
      obtain blank | rfl | rfl := stops d (by simp [back_eq])
      · rw [isBlank_of_inName plain] at blank
        exact nomatch blank
      · exact absurd plain (by decide)
      · exact absurd plain (by decide)
  · cases more with
    | nil => exact absurd (stops '=' (by simp at equals; simp [← equals])) (by decide)
    | cons d more =>
      obtain ⟨rfl, -⟩ : '=' = d ∧ _ := by simpa using equals
      exact no_equals (by simp [whole])

/-! ### What the first two quotes enclose -/

/-- The first two quotes of the text have `inside` between them. -/
def Quotes (text inside : List Char) : Prop :=
  ∃ front rest : List Char, '"' ∉ front ∧ '"' ∉ inside ∧ text = front ++ '"' :: (inside ++ '"' :: rest)

theorem quotes_append {front text inside : List Char} (plain : '"' ∉ front)
    (quotes : Quotes (front ++ text) inside) : Quotes text inside := by
  obtain ⟨lead, rest, no_quote, closed, same⟩ := quotes
  obtain ⟨more, rfl, text_eq⟩ | ⟨more, rfl, quote⟩ := List.append_eq_append_iff.1 same
  · exact ⟨more, rest, fun mem => no_quote (List.mem_append_right _ mem), closed, text_eq⟩
  · cases more with
    | nil => exact ⟨[], rest, by simp, closed, quote.symm⟩
    | cons c more =>
      obtain ⟨rfl, -⟩ : '"' = c ∧ _ := by simpa using quote
      simp at plain

theorem quotes_quote {value rest inside : List Char} (plain : '"' ∉ value)
    (quotes : Quotes ('"' :: (value ++ '"' :: rest)) inside) : inside = value := by
  obtain ⟨lead, rest', no_quote, closed, same⟩ := quotes
  obtain ⟨-, same⟩ := split_unique List.not_mem_nil no_quote (by simpa using same : [] ++ _ = _)
  exact (split_unique plain closed same).1.symm

/-- White space, a word and an equals sign: what stands between two values in a row. -/
def LooksNamed (text : List Char) : Prop :=
  ∃ blank name : List Char, blank ≠ [] ∧ (∀ c ∈ blank, isBlank c = true) ∧ name ≠ [] ∧
    (∀ c ∈ name, isWord c = true) ∧ text = blank ++ name ++ ['=']

theorem LooksNamed.sign {text : List Char} (looks : LooksNamed text) : '<' ∉ text := by
  obtain ⟨blank, name, -, blanks, -, word, rfl⟩ := looks
  have no_blank : '<' ∉ blank := lacks blanks (by decide)
  have no_name : '<' ∉ name := lacks word (by decide)
  simp [no_blank, no_name]

theorem not_looksNamed_of_last {text : List Char} (last : text.getLast? ≠ some '=') :
    ¬LooksNamed text := by
  rintro ⟨blank, name, -, -, -, -, rfl⟩
  exact last List.getLast?_concat

/-- What the first two quotes have between them cannot be taken for a name. -/
def Calm (text : List Char) : Prop := ∀ inside, Quotes text inside → ¬LooksNamed inside

theorem calm_nil : Calm [] := by
  rintro inside ⟨front, rest, -, -, same⟩
  simp at same

theorem Calm.append {front text : List Char} (calm : Calm text) (plain : '"' ∉ front) :
    Calm (front ++ text) :=
  fun inside quotes => calm inside (quotes_append plain quotes)

theorem calm_attr {a : Attr} (proper : a.Proper) (plain : ¬LooksNamed a.value) (text : List Char) :
    Calm (a.write ++ text) := by
  have apart : a.write ++ text = a.label ++ ('"' :: (a.value ++ '"' :: text)) := by
    simp [Attr.write, Attr.label]
  intro inside quotes
  rw [apart] at quotes
  rwa [quotes_quote proper.value (quotes_append proper.no_quote_label quotes)]

theorem calm_attrs {attrs : List Attr} (proper : ∀ a ∈ attrs, a.Proper)
    (plain : ∀ a ∈ attrs, ¬LooksNamed a.value) {text : List Char} (calm : Calm text) :
    Calm (attrs.flatMap Attr.write ++ text) := by
  cases attrs with
  | nil => exact calm
  | cons a rest =>
    rw [List.flatMap_cons, List.append_assoc]
    exact calm_attr (proper a List.mem_cons_self) (plain a List.mem_cons_self) _

/-- Quotes of a text that does not hold the opening of a value. -/
theorem calm_text {text back : List Char} (no_value : ¬"=\"".toList <:+: text)
    (tag : ∀ c ∈ back.head?, c = '<') (calm : Calm back) : Calm (text ++ back) := by
  -- A first quote in the text: the second is in it too, or what they enclose holds the sign of a tag.
  by_cases quoted : '"' ∈ text
  · obtain ⟨lead, more, rfl, no_quote⟩ := List.eq_append_cons_of_mem quoted
    rintro inside ⟨front, rest, plain, closed, same⟩ looks
    rw [List.append_assoc, List.cons_append] at same
    obtain ⟨-, same⟩ := split_unique no_quote plain same
    have no_sign : ∀ {rest : List Char}, back ≠ '"' :: rest := by
      rintro rest rfl
      exact absurd (tag _ rfl) (by decide)
    obtain ⟨beyond, rfl, back_eq⟩ | ⟨beyond, rfl, quote⟩ := List.append_eq_append_iff.1 same
    · cases beyond with
      | nil => exact no_sign back_eq
      | cons c beyond =>
        obtain rfl := tag c (by simp [back_eq])
        exact looks.sign (by simp)
    · cases beyond with
      | nil => exact no_sign quote.symm
      | cons c beyond =>
        obtain ⟨rfl, -⟩ : '"' = c ∧ _ := by simpa using quote
        obtain ⟨blank, name, -, -, -, -, rfl⟩ := looks
        exact no_value ⟨lead ++ '"' :: (blank ++ name), beyond, by simp⟩
  · exact calm.append quoted

/-! ### Documents without anything that is taken for an attribute -/

namespace Document

/-- Neither does a text hold the opening of a value, nor does a value look like what stands before
one. -/
structure Plain (d : Document) : Prop where
  texts : ∀ text ∈ texts d, ¬"=\"".toList <:+: text
  values : ∀ hit ∈ d.hits, ∀ a ∈ hit.value.attrs, ¬LooksNamed a.value

theorem plain_of_last {d : Document} (texts : ∀ text ∈ texts d, ¬"=\"".toList <:+: text)
    (last : ∀ hit ∈ d.hits, ∀ a ∈ hit.value.attrs, a.value.getLast? ≠ some '=') : Plain d :=
  ⟨texts, fun hit mem a inside => not_looksNamed_of_last (last hit mem a inside)⟩

theorem Plain.rest {hit : Hit Tag} {hits : List (Hit Tag)} {tail : List Char}
    (plain : Plain ⟨hit :: hits, tail⟩) : Plain ⟨hits, tail⟩ where
  texts text mem := plain.texts text (List.mem_cons_of_mem hit.passed mem)
  values h mem := plain.values h (List.mem_cons_of_mem hit mem)

end Document

theorem no_quote_opening {t : Tag} (proper : t.Proper) : '"' ∉ t.opening := by
  have no_quote : '"' ∉ t.name := lacks proper.name.char (by decide)
  cases closing : t.closing <;> simp [Tag.opening, closing, no_quote]

theorem no_quote_ending {t : Tag} (proper : t.Proper) : '"' ∉ t.ending := by
  have no_quote : '"' ∉ t.trail := lacks proper.blank (by decide)
  cases closes : t.selfClosing <;> simp [Tag.ending, closes, no_quote]

theorem head_tag (t : Tag) (text : List Char) : ∀ c ∈ (t.write ++ text).head?, c = '<' := by
  rintro c ⟨⟩
  rfl

theorem calm_write {d : Document} (proper : d.Proper) (plain : d.Plain) : Calm d.write := by
  obtain ⟨hits, tail⟩ := d
  induction hits with
  | nil =>
    have calm := calm_text (plain.texts tail (by simp [Document.texts])) (by simp) calm_nil
    simpa [Document.write, Cut.map, Cut.fill] using calm
  | cons hit rest ih =>
    have tag := proper.tags hit List.mem_cons_self
    have later := (ih proper.rest plain.rest).append (no_quote_ending tag)
    have inside := (calm_attrs tag.attrs (plain.values hit List.mem_cons_self) later).append
      (no_quote_opening tag)
    rw [Document.write_cons]
    refine calm_text (plain.texts hit.passed (by simp [Document.texts])) (head_tag _ _) ?_
    simpa [Tag.write] using inside

/-! ### The law of a pass -/

/-- What stands behind the attributes of a tag: nothing in which one more could be read. -/
structure Ends (text : List Char) : Prop where
  stops : Stops text
  blocks : ¬Begins text
  calm : Calm text

theorem not_begins_ending {t : Tag} (proper : t.Proper) (text : List Char) :
    ¬Begins (t.ending ++ text) := by
  rw [Tag.ending, List.append_assoc, List.append_assoc]
  refine not_begins_blank proper.blank ?_
  cases t.selfClosing with
  | false => exact not_begins_sign (by decide) _
  | true => exact not_begins_sign (by decide) _

theorem ends_tag {t : Tag} (proper : t.Proper) {text : List Char} (calm : Calm text) :
    Ends (t.ending ++ text) where
  stops := proper.stops_ending text
  blocks := not_begins_ending proper text
  calm := calm.append (no_quote_ending proper)

/-- The pass changes rows of attributes, and reads nothing else than it can begin to read. -/
structure Pass (r : Reader (List Char)) (change : List Attr → List Attr) : Prop where
  takes : Takes r
  passive : Passive r
  begins : ∀ {p v q}, r p = some (v, q) → Begins p.rest
  attrs : ∀ {attrs text}, (∀ a ∈ attrs, a.Proper) → (∀ a ∈ attrs, ¬LooksNamed a.value) → Ends text →
    substitute r (attrs.flatMap Attr.write ++ text) =
      (change attrs).flatMap Attr.write ++ substitute r text

def Tag.withAttrs (change : List Attr → List Attr) (t : Tag) : Tag := { t with attrs := change t.attrs }

def Document.withAttrs (change : List Attr → List Attr) (d : Document) : Document :=
  Cut.map (Tag.withAttrs change) d

namespace Pass

variable {r : Reader (List Char)} {change : List Attr → List Attr}

theorem skips_text (pass : Pass r change) {text back : List Char} (no_value : ¬"=\"".toList <:+: text)
    (tag : ∀ c ∈ back.head?, c = '<') : Skips r text back := by
  refine skips_of_shape pass.begins fun passed ahead same _ => ?_
  refine not_begins_text (fun inside => no_value (inside.trans ?_)) tag
  exact ⟨passed, [], by simp [same]⟩

theorem skips_sign (pass : Pass r change) {c : Char} (sign : c ∈ ['<', '>', '/', '"'])
    (back : List Char) : Skips r [c] back := by
  refine skips_of_shape pass.begins fun passed ahead same some_ahead => ?_
  obtain ⟨-, rfl⟩ | ⟨-, rfl⟩ := List.append_eq_singleton_iff.1 same.symm
  · exact not_begins_sign sign back
  · exact absurd rfl some_ahead

/-- The slash of a tag, where it has one. -/
theorem skips_slash (pass : Pass r change) (slash : Bool) (back : List Char) :
    Skips r (if slash then ['/'] else []) back := by
  cases slash with
  | true => exact pass.skips_sign (by decide) back
  | false =>
    intro before passed ahead same some_ahead
    exact absurd (List.append_eq_nil_iff.1 same.symm).2 some_ahead

theorem skips_opening (pass : Pass r change) {t : Tag} (proper : t.Proper) {back : List Char}
    (stops : Stops back) : Skips r t.opening back := by
  have name : Skips r t.name back := by
    refine skips_of_shape pass.begins fun passed ahead same some_ahead => ?_
    exact not_begins_name some_ahead (fun c mem => proper.name.char c (by simp [same, mem])) stops
  exact ((pass.skips_sign (by decide) _).append (pass.skips_slash _ _)).append name

theorem skips_ending (pass : Pass r change) {t : Tag} (proper : t.Proper) (back : List Char) :
    Skips r t.ending back := by
  have blank : Skips r t.trail ((if t.selfClosing then ['/'] else []) ++ (['>'] ++ back)) := by
    refine skips_of_shape pass.begins fun passed ahead same _ => ?_
    have within : ∀ c ∈ ahead, isBlank c = true := fun c mem => proper.blank c (by simp [same, mem])
    have ending := @not_begins_ending { t with trail := ahead } ⟨proper.name, proper.attrs, within⟩ back
    simpa [Tag.ending] using ending
  exact (Skips.append blank (pass.skips_slash _ _)).append (pass.skips_sign (by decide) _)

theorem substitute_tag (pass : Pass r change) {t : Tag} (proper : t.Proper)
    (plain : ∀ a ∈ t.attrs, ¬LooksNamed a.value) {text : List Char} (calm : Calm text) :
    substitute r (t.write ++ text) = (t.withAttrs change).write ++ substitute r text := by
  have ends := ends_tag proper calm
  have apart : t.write ++ text =
      t.opening ++ (t.attrs.flatMap Attr.write ++ (t.ending ++ text)) := by
    simp [Tag.write]
  rw [apart, substitute_skip pass.takes pass.passive (pass.skips_opening proper (stops_attrs proper.attrs ends.stops)),
    pass.attrs proper.attrs plain ends,
    substitute_skip pass.takes pass.passive (pass.skips_ending proper text)]
  have changed : (t.withAttrs change).write =
      t.opening ++ ((change t.attrs).flatMap Attr.write ++ t.ending) := rfl
  simp [changed]

/-- The pass goes through a document tag by tag. -/
theorem substitute_write (pass : Pass r change) {d : Document} (proper : d.Proper) (plain : d.Plain) :
    substitute r d.write = (d.withAttrs change).write := by
  obtain ⟨hits, tail⟩ := d
  induction hits with
  | nil =>
    have skips := @skips_text _ _ pass tail [] (plain.texts tail (by simp [Document.texts])) (by simp)
    have none_left : substitute r [] = [] := rfl
    have skipped := substitute_skip pass.takes pass.passive skips
    rw [none_left] at skipped
    simpa [Document.write, Document.withAttrs, Cut.map, Cut.fill] using skipped
  | cons hit rest ih =>
    have no_value := plain.texts hit.passed (by simp [Document.texts])
    rw [Document.write_cons, substitute_skip pass.takes pass.passive (pass.skips_text no_value (head_tag _ _)),
      pass.substitute_tag (proper.tags hit List.mem_cons_self) (plain.values hit List.mem_cons_self)
        (calm_write proper.rest plain.rest),
      ih proper.rest plain.rest]
    simp [Document.write, Document.withAttrs, Cut.map, Cut.fill]

end Pass

end DesignComponents.Markup
