import DesignComponents.Proofs.Attribute.Rename
import DesignComponents.Proofs.Markup.Eased
import DesignComponents.Proofs.Markup.Rename

/-! Attributes renamed in markup, against those of its tree. In a document whose values hold no sign
of a tag each attribute of each start tag is renamed and nothing else, and the tree that is read is
the same but for the names. Of attributes that come to have one name the first counts. -/

set_option autoImplicit false

namespace DesignComponents

open Text Reader

/-! ### New names are names -/

namespace Attribute

open Markup (isProper ProperName properName_iff)
open Identifier

/-- What no name in a tag has in it: the signs of a tag and its values, and white space. -/
def nameStops : List Char := ['=', '/', '>', '"', '\'', '<']

def improperCodePoints : List Nat := blankCodePoints ++ nameStops.map Char.toNat

theorem isProper_of_not_mem {c : Char} (plain : c.toNat ∉ improperCodePoints) : isProper c = true := by
  rw [improperCodePoints, List.mem_append, not_or] at plain
  have solid : isBlank c = false :=
    Bool.eq_false_iff.2 fun blank => plain.1 (isBlank_eq_true blank)
  have apart : c ∉ nameStops := fun mem => plain.2 (List.mem_map_of_mem mem)
  simp only [nameStops, List.mem_cons, List.not_mem_nil, or_false, not_or] at apart
  simp [isProper, Markup.isNameChar, solid, apart]

theorem upperChar_isProper {c : Char} (word : isWord c = true) : ∀ d ∈ upperChar c, isProper d = true := by
  unfold upperChar
  split
  · next ascii =>
    refine @ascii_induction (fun c => isWord c = true →
      ∀ d ∈ [if isAsciiLower c then Char.ofNat (c.toNat - 32) else c], isProper d = true) ?_ c ascii word
    decide +kernel
  · next beyond =>
    have limits : ∀ n ∈ improperCodePoints, n ≤ 0x3000 := by decide +kernel
    have plain : c.toNat ∉ improperCodePoints := by
      intro improper
      obtain blank | sign := List.mem_append.1 improper
      · have not_word := isWord_blankCodePoints _ blank
        rw [Char.ofNat_toNat, word] at not_word
        exact nomatch not_word
      · have small : ∀ n ∈ nameStops.map Char.toNat, n < 128 := by decide
        have := small _ sign
        simp [isAscii] at beyond
        omega
    have avoids : ∀ d ∈ mapByTable CaseTable.toUpper CaseTable.toUpperLong c,
        d.toNat ∉ improperCodePoints :=
      mapByTable_avoids (by decide +kernel) (shifts_apart limits (by decide +kernel)) (by decide +kernel)
        plain
    exact fun d mem => isProper_of_not_mem (avoids d mem)

theorem properName_rename {name : List Char} (proper : ProperName name) :
    ProperName (rename (String.ofList name)).toList := by
  rw [properName_iff] at proper ⊢
  obtain ⟨some_name, all⟩ := proper
  -- A custom name stays, a special one is looked up, and any other is joined over a colon or hyphens.
  unfold rename
  split
  · rw [String.toList_ofList]
    exact ⟨some_name, all⟩
  split
  · next renamed found =>
    have listed : ∀ p ∈ special, p.2.toList ≠ [] ∧ ∀ c ∈ p.2.toList, isProper c = true := by
      decide +kernel
    exact listed _ (OrderedMap.mem_of_lookup found)
  split
  · rw [String.toList_ofList, String.toList_ofList]
    obtain ⟨-, same⟩ | ⟨-, front, c, back, some_front, rfl, word, joined⟩ := dropNamespace_cases name
    · rw [same]
      exact ⟨some_name, all⟩
    · rw [joined]
      refine ⟨by simp [some_front], fun d mem => ?_⟩
      simp only [List.mem_append] at mem
      obtain (mem | mem) | mem := mem
      · exact all d (by simp [mem])
      · exact upperChar_isProper word d mem
      · exact all d (by simp [mem])
  · rw [camelCase, String.toList_ofList, String.toList_ofList]
    obtain same | joined := camelChars_cases name
    · rw [same]
      exact ⟨some_name, all⟩
    · rw [joined]
      obtain ⟨c, rest, rfl⟩ := List.exists_cons_of_ne_nil some_name
      refine ⟨?_, fun d mem => ?_⟩
      · obtain ⟨d, more, same, -⟩ := joinWords_cons c rest
        simp [same]
      · obtain mem | capital := mem_joinWords mem
        · exact all d mem
        · have letter : isAsciiAlphanumeric d = true := by
            simp [isAsciiAlphanumeric, isAsciiLetter, capital]
          exact Markup.isProper_ascii (isAscii_of_alphanumeric letter) (isWord_of_alphanumeric letter)

/-! ### Reading an attribute to rename it -/

/-- An attribute with its name as it becomes. -/
def Written.renamed (w : Written) : List Char :=
  w.lead :: (rename (String.ofList w.name)).toList ++ w.rest

def renamedAttribute : Reader (List Char) := Written.renamed <$> written

theorem written_after {p q : Place} {w : Written} (reads : written p = some (w, q)) :
    ∃ rest, isBlank w.lead = true ∧ w.name ≠ [] ∧ (∀ c ∈ w.name, isNameChar c = true) ∧
      p.After (w.lead :: (w.name ++ rest)) q := by
  simp only [written, quotedValue, quotedBy, blanks, bind_eq_some, one_eq_some, many1_eq_some,
    many_eq_some, char_eq_some, orElse_eq_some, pure_eq_some] at reads
  obtain ⟨lead, m, ⟨blank, one⟩, name, m₁, ⟨some_name, all, -, named⟩, before, m₂, ⟨-, -, spaced⟩, _, m₃,
    equals, after, m₄, ⟨-, -, spaced'⟩, value, m₅, quoted, rfl, rfl⟩ := reads
  have valued : ∃ taken, m₄.After taken m₅ := by
    obtain ⟨_, _, quote, _, _, ⟨-, -, inside⟩, _, _, unquote, -, rfl⟩ |
      ⟨-, _, _, quote, _, _, ⟨-, -, inside⟩, _, _, unquote, -, rfl⟩ := quoted
    · exact ⟨_, (quote.trans inside).trans unquote⟩
    · exact ⟨_, (quote.trans inside).trans unquote⟩
  obtain ⟨taken, valued⟩ := valued
  have behind := ((spaced.trans equals).trans spaced').trans valued
  exact ⟨_, blank, some_name, all, one.trans (named.trans behind)⟩

theorem written_takes : Takes written := by
  intro p w q reads
  obtain ⟨rest, -, -, -, reached⟩ := written_after reads
  exact ⟨_, List.cons_ne_nil _ _, reached⟩

theorem passive_written : Passive written := by
  have quoted (quote : Char) : Passive (quotedBy quote) :=
    (passive_char _).bind fun _ => (passive_many _).bind fun _ => (passive_char _).bind fun _ =>
      passive_pure _
  refine (passive_one _).bind fun _ => (passive_atLeast 1 _).bind fun _ => (passive_many _).bind fun _ => ?_
  refine (passive_char _).bind fun _ => (passive_many _).bind fun _ => ?_
  exact ((quoted _).orElse (quoted _)).bind fun _ => passive_pure _

theorem renameTag_eq (tag : List Char) : renameTag tag = substitute renamedAttribute tag :=
  congrArg Cut.fill (cutAt_map written_takes Written.renamed (Place.start tag)).symm

theorem renameMarkup_eq_substitute (text : List Char) :
    renameMarkup text = substitute (renameTag <$> tag) text := by
  rw [renameMarkup_eq_fill]
  exact congrArg Cut.fill (cutAt_map tag_exact.takes renameTag (Place.start text)).symm

theorem renamedAttribute_takes : Takes renamedAttribute := written_takes.map _

theorem passive_renamedAttribute : Passive renamedAttribute := passive_written.map _

/-- Nothing is read where no white space is. -/
theorem skips_solid {front : List Char} (solid : ∀ c ∈ front, isBlank c = false) (back : List Char) :
    Skips renamedAttribute front back := by
  refine @skips_of_shape _ (fun text => ∃ c ∈ text.head?, isBlank c = true) _ _ ?_ ?_
  · intro p v q reads
    obtain ⟨w, reads, -⟩ := map_eq_some.1 reads
    obtain ⟨rest, blank, -, -, reached⟩ := written_after reads
    exact ⟨w.lead, by simp [reached.rest], blank⟩
  · rintro passed ahead same some_ahead ⟨c, first, blank⟩
    have mem : c ∈ ahead := by
      obtain ⟨d, more, rfl⟩ := List.exists_cons_of_ne_nil some_ahead
      obtain rfl : d = c := by simpa using first
      exact List.mem_cons_self
    simp [solid c (by simp [same, mem])] at blank

/-- Nothing is read where no name begins. -/
theorem skips_unnamed {front back : List Char} (unnamed : ∀ c ∈ front, isNameChar c = false)
    (stops : ∀ c ∈ back.head?, isNameChar c = false) : Skips renamedAttribute front back := by
  refine @skips_of_shape _ (fun text => ∃ c ∈ text.tail.head?, isNameChar c = true) _ _ ?_ ?_
  · intro p v q reads
    obtain ⟨w, reads, -⟩ := map_eq_some.1 reads
    obtain ⟨rest, -, some_name, all, reached⟩ := written_after reads
    obtain ⟨c, more, name⟩ := List.exists_cons_of_ne_nil some_name
    exact ⟨c, by simp [reached.rest, name], all c (by simp [name])⟩
  · rintro passed ahead same some_ahead ⟨c, second, named⟩
    obtain ⟨d, more, rfl⟩ := List.exists_cons_of_ne_nil some_ahead
    cases more with
    | nil => simp [stops c (by simpa using second)] at named
    | cons e more =>
      obtain rfl : e = c := by simpa using second
      simp [unnamed e (by simp [same])] at named

end Attribute

namespace Markup

open Attribute (renamedAttribute renameTag renameTag_eq renamedAttribute_takes passive_renamedAttribute
  skips_solid skips_unnamed)

/-! ### Attributes, tags and documents under new names -/

def Attr.renamed (a : Attr) : Attr :=
  { a with name := (Attribute.rename (String.ofList a.name)).toList }

theorem Attr.Proper.renamed {a : Attr} (proper : a.Proper) : a.renamed.Proper where
  some_lead := proper.some_lead
  blank := proper.blank
  name := Attribute.properName_rename proper.name
  value := proper.value

theorem renamedAttribute_read {name value : List Char} {lead : Char} (blank : isBlank lead = true)
    (proper : ProperName name) (closed : '"' ∉ value) (rest : List Char) :
    renamedAttribute ⟨none, lead :: (name ++ ("=\"".toList ++ (value ++ '"' :: rest)))⟩ =
      some (lead :: ((Attribute.rename (String.ofList name)).toList ++ "=\"".toList ++ value ++ ['"']),
        ⟨some '"', rest⟩) := by
  have quoted : Attribute.quotedBy '"' ⟨some '=', '"' :: (value ++ '"' :: rest)⟩ =
      some ('"' :: value ++ ['"'], ⟨some '"', rest⟩) := by
    simp only [Attribute.quotedBy, bind_eq_some, many_eq_some, pure_eq_some]
    refine ⟨(), ⟨some '"', value ++ '"' :: rest⟩, rfl, value, ⟨_, '"' :: rest⟩,
      ⟨fun c mem => ?_, fun c mem => ?_, Place.after_mk _ _ _⟩, (), ⟨some '"', rest⟩, rfl, rfl, rfl⟩
    · have : c ≠ '"' := fun same => closed (same ▸ mem)
      simpa using this
    · simp only [List.head?_cons, Option.mem_def, Option.some.injEq] at mem
      simp [← mem]
  refine map_eq_some.2 ⟨⟨lead, name, [] ++ '=' :: [] ++ ('"' :: value ++ ['"'])⟩, ?_, by
    simp [Attribute.Written.renamed]⟩
  simp only [Attribute.written, bind_eq_some, one_eq_some, many1_eq_some, pure_eq_some]
  refine ⟨lead, ⟨some lead, name ++ ("=\"".toList ++ (value ++ '"' :: rest))⟩, ⟨blank, rfl, rfl⟩, name,
    ⟨name.getLast?.or (some lead), "=\"".toList ++ (value ++ '"' :: rest)⟩,
    ⟨proper.1, fun c mem => (proper.2 c mem).1, fun c mem => ?_, Place.after_mk _ _ _⟩,
    [], _, rfl, (), _, rfl, [], _, rfl, _, _, orElse_eq_some.2 (.inl quoted), rfl, rfl⟩
  obtain rfl : '=' = c := by simpa using mem
  decide

theorem substitute_attrs {attrs : List Attr} (proper : ∀ a ∈ attrs, a.Proper) (text : List Char) :
    substitute renamedAttribute (attrs.flatMap Attr.write ++ text) =
      (attrs.map Attr.renamed).flatMap Attr.write ++ substitute renamedAttribute text := by
  induction attrs with
  | nil => rfl
  | cons a rest ih =>
    obtain ⟨some_lead, blank, name, value⟩ := proper a List.mem_cons_self
    obtain ⟨front, last, lead⟩ := (List.eq_nil_or_concat a.lead).resolve_left some_lead
    -- Of the white space before a name the last is read with it.
    have apart : (a :: rest).flatMap Attr.write ++ text = front ++ (last :: (a.name ++
        ("=\"".toList ++ (a.value ++ '"' :: (rest.flatMap Attr.write ++ text))))) := by
      simp [Attr.write, lead]
    have unnamed : ∀ c ∈ a.lead, isNameChar c = false := fun c mem =>
      not_isNameChar_of_isBlank (blank c mem)
    have skips := @skips_unnamed front (last :: (a.name ++
      ("=\"".toList ++ (a.value ++ '"' :: (rest.flatMap Attr.write ++ text)))))
      (fun c mem => unnamed c (by simp [lead, mem])) (by
        rintro c ⟨⟩
        exact unnamed last (by simp [lead]))
    rw [apart, substitute_skip renamedAttribute_takes passive_renamedAttribute skips,
      substitute_read renamedAttribute_takes passive_renamedAttribute
        (renamedAttribute_read (blank last (by simp [lead])) name value _),
      ih fun b mem => proper b (List.mem_cons_of_mem a mem)]
    simp [Attr.write, Attr.renamed, lead]

/-- A start tag with its attributes under their new names; an end tag stays. -/
def Tag.renamed (t : Tag) : Tag := if t.closing then t else t.withAttrs (List.map Attr.renamed)

theorem Tag.renamed_closing {t : Tag} (closing : t.closing = true) : t.renamed = t := if_pos closing

theorem Tag.renamed_opening {t : Tag} (opening : t.closing = false) :
    t.renamed = t.withAttrs (List.map Attr.renamed) :=
  if_neg (by simp [opening])

theorem Tag.Proper.renamed {t : Tag} (proper : t.Proper) : t.renamed.Proper := by
  cases closing : t.closing with
  | true => rwa [Tag.renamed_closing closing]
  | false =>
    rw [Tag.renamed_opening closing]
    refine ⟨proper.name, fun a mem => ?_, proper.blank⟩
    obtain ⟨b, mem', rfl⟩ := List.mem_map.1 mem
    exact (proper.attrs b mem').renamed

/-- No value of the tag has the sign of a tag in it. -/
def Tag.Quiet (t : Tag) : Prop := ∀ a ∈ t.attrs, '<' ∉ a.value ∧ '>' ∉ a.value

theorem isTagInner_attr {a : Attr} (proper : a.Proper) (quiet : '<' ∉ a.value ∧ '>' ∉ a.value) :
    ∀ c ∈ a.write, Attribute.isTagInner c = true := by
  have inside : ∀ {c : Char}, c ≠ '<' → c ≠ '>' → Attribute.isTagInner c = true := by
    intro c not_open not_close
    simp [Attribute.isTagInner, not_open, not_close]
  have apart : ∀ {text : List Char}, '<' ∉ text → '>' ∉ text →
      ∀ c ∈ text, Attribute.isTagInner c = true := by
    intro text no_open no_close c mem
    exact inside (fun same => no_open (same ▸ mem)) fun same => no_close (same ▸ mem)
  have no_open : '<' ∉ a.lead := lacks proper.blank (by decide)
  have no_close : '>' ∉ a.lead := lacks proper.blank (by decide)
  have no_close' : '>' ∉ a.name := proper.name.lacks (by decide)
  have no_open' : '<' ∉ a.name := fun mem => (proper.name.2 _ mem).2 rfl
  refine apart ?_ ?_
  · simp [Attr.write, no_open, no_open', quiet.1]
  · simp [Attr.write, no_close, no_close', quiet.2]

namespace Tag

variable {t : Tag}

/-- Between the first letter of its name and its end a tag has no sign of one. -/
theorem write_eq (proper : t.Proper) (quiet : t.Quiet) : ∃ first inner, isAsciiLetter first = true ∧
    (∀ c ∈ inner, Attribute.isTagInner c = true) ∧
      t.write = '<' :: ((if t.closing then ['/'] else []) ++ (first :: inner ++ ['>'])) := by
  obtain ⟨first, rest, name, letter, all⟩ := proper.name
  refine ⟨first, rest ++ (t.attrs.flatMap Attr.write ++ (t.trail ++ if t.selfClosing then ['/'] else [])),
    letter, fun c mem => ?_, by simp [write, opening, ending, name]⟩
  have inside : ∀ {p : Char → Bool} {text : List Char}, (∀ c ∈ text, p c = true) → p '<' = false →
      p '>' = false → ∀ c ∈ text, Attribute.isTagInner c = true := by
    intro p text each no_open no_close c mem
    have not_open : c ≠ '<' := fun same => lacks each no_open (same ▸ mem)
    have not_close : c ≠ '>' := fun same => lacks each no_close (same ▸ mem)
    simp [Attribute.isTagInner, not_open, not_close]
  simp only [List.mem_append, List.mem_flatMap] at mem
  obtain mem | ⟨a, held, mem⟩ | mem | mem := mem
  · exact inside all (by decide) (by decide) c mem
  · exact isTagInner_attr (proper.attrs a held) (quiet a held) c mem
  · exact inside proper.blank (by decide) (by decide) c mem
  · obtain ⟨-, mem⟩ := List.mem_ite_nil_right.1 mem
    obtain rfl := List.mem_singleton.1 mem
    decide

theorem renameTag_write (proper : t.Proper) (opening : t.closing = false) :
    renameTag t.write = t.renamed.write := by
  have solid : ∀ c ∈ t.opening, isBlank c = false := by
    intro c mem
    simp only [Tag.opening, opening, Bool.false_eq_true, if_false, List.singleton_append,
      List.mem_cons] at mem
    obtain rfl | mem := mem
    · decide
    · exact not_blank_of_isTagChar (proper.name.char c mem)
  have unnamed : ∀ c ∈ t.ending, isNameChar c = false := by
    intro c mem
    simp only [ending, List.mem_append, List.mem_singleton] at mem
    obtain (mem | mem) | rfl := mem
    · exact not_isNameChar_of_isBlank (proper.blank c mem)
    · obtain ⟨-, mem⟩ := List.mem_ite_nil_right.1 mem
      obtain rfl := List.mem_singleton.1 mem
      decide
    · decide
  have skips := @skips_unnamed t.ending [] unnamed (by simp)
  have last := substitute_skip renamedAttribute_takes passive_renamedAttribute skips
  have none_left : substitute renamedAttribute [] = [] := rfl
  rw [List.append_nil, none_left, List.append_nil] at last
  rw [renameTag_eq, renamed_opening opening, write,
    substitute_skip renamedAttribute_takes passive_renamedAttribute (skips_solid solid _),
    substitute_attrs proper.attrs, last]
  rfl

end Tag

namespace Document

/-- No value has the sign of a tag in it. -/
def Quiet (d : Document) : Prop := ∀ hit ∈ d.hits, hit.value.Quiet

instance (d : Document) : Decidable (Quiet d) :=
  inferInstanceAs (Decidable (∀ hit ∈ d.hits, ∀ a ∈ hit.value.attrs, '<' ∉ a.value ∧ '>' ∉ a.value))

def renamed (d : Document) : Document := Cut.map Tag.renamed d

theorem texts_renamed (d : Document) : texts (renamed d) = texts d := by
  simp [texts, renamed, Cut.map]

theorem Proper.renamed {d : Document} (proper : Proper d) : Proper (renamed d) where
  tags hit mem := by
    obtain ⟨hit', mem', rfl⟩ := List.mem_map.1 mem
    exact (proper.tags hit' mem').renamed
  texts text mem := proper.texts text (by rwa [texts_renamed] at mem)

/-- A tag is found at the sign of one, before a letter. -/
def TagBegins (text : List Char) : Prop :=
  ∃ first rest, text = '<' :: first :: rest ∧ isAsciiLetter first = true

theorem tagBegins_of_read {p q : Place} {v : List Char} (reads : (renameTag <$> Attribute.tag) p = some (v, q)) :
    TagBegins p.rest := by
  obtain ⟨found, reads, -⟩ := map_eq_some.1 reads
  obtain ⟨taken, -, ⟨first, inner, letter, -, rfl, -⟩, reached⟩ := (Attribute.tag_exact _ _ _).1 reads
  exact ⟨first, _, reached.rest, letter⟩

theorem renameTag_seeksTags : SeeksTags (renameTag <$> Attribute.tag) where
  takes := Attribute.tag_exact.takes.map renameTag
  passive := Attribute.passive_tag.map renameTag
  sign reads := by
    obtain ⟨first, rest, begins, -⟩ := tagBegins_of_read reads
    rw [begins]
    rfl

theorem substitute_tag {t : Tag} (proper : t.Proper) (quiet : t.Quiet) (text : List Char) :
    substitute (renameTag <$> Attribute.tag) (t.write ++ text) =
      t.renamed.write ++ substitute (renameTag <$> Attribute.tag) text := by
  obtain ⟨first, inner, letter, all, whole⟩ := Tag.write_eq proper quiet
  cases closing : t.closing with
  | true =>
    -- No tag is found at its sign, since a slash follows, and there is no other sign in it.
    have apart : t.write = '<' :: '/' :: (first :: inner ++ ['>']) := by simpa [closing] using whole
    have unsigned : '<' ∉ '/' :: (first :: inner ++ ['>']) := by
      have not_first : '<' ≠ first := by
        rintro rfl
        exact absurd letter (by decide)
      have not_inner : '<' ∉ inner := lacks all (by decide)
      simp [not_first, not_inner]
    have unread : (renameTag <$> Attribute.tag)
        ⟨none, '<' :: ('/' :: (first :: inner ++ ['>']) ++ text)⟩ = none := by
      refine unread_iff.2 fun v q reads => ?_
      obtain ⟨c, rest, begins, letter⟩ := tagBegins_of_read reads
      obtain ⟨rfl, -⟩ : '/' = c ∧ _ := by simpa using begins
      exact absurd letter (by decide)
    rw [Tag.renamed_closing closing, apart, List.cons_append,
      renameTag_seeksTags.substitute_unread unsigned unread]
    rfl
  | false =>
    rw [closing] at whole
    have read : Attribute.tag ⟨none, t.write ++ text⟩ = some (t.write, ⟨t.write.getLast?.or none, text⟩) :=
      (Attribute.tag_exact _ _ _).2
        ⟨t.write, by simp [whole], ⟨first, inner, letter, all, whole, rfl⟩, Place.after_mk _ _ _⟩
    rw [substitute_read renameTag_seeksTags.takes renameTag_seeksTags.passive (map_eq_some.2 ⟨_, read, rfl⟩),
      Tag.renameTag_write proper closing]

/-- Renaming goes through a document tag by tag. -/
theorem renameMarkup_write {d : Document} (proper : Proper d) (quiet : Quiet d) :
    Attribute.renameMarkup (write d) = write (renamed d) := by
  have replaced := renameTag_seeksTags.substitute_write (fun t => t.renamed.write) proper.texts
    fun hit mem => substitute_tag (proper.tags hit mem) (quiet hit mem)
  rw [Attribute.renameMarkup_eq_substitute, replaced, write, renamed, Cut.map, Cut.map, Cut.map, List.map_map]
  rfl

end Document

end Markup

/-! ### Trees under new names -/

/-- The entries under new names. Where two of them meet, the first stays. -/
def OrderedMap.renameFirst {α : Type} (m : OrderedMap α) (name : String → String) : OrderedMap α :=
  m.entries.foldl
    (fun acc e => if acc.contains (name e.1) then acc else acc.insert (name e.1) e.2) .empty

/-- The element with its attributes under their names in a component. -/
def Source.Element.renamed (data : Element) : Element :=
  { data with attributes := data.attributes.map (·.renameFirst Attribute.rename) }

theorem Source.Element.tag_renamed (data : Element) : data.renamed.tag = data.tag := rfl

namespace Markup

open Source

theorem firsts_renamed (attrs : List Attr) :
    firsts [] ((firsts [] attrs).map Attr.renamed) = firsts [] (attrs.map Attr.renamed) :=
  @firsts_map_firsts Attr.renamed (fun name => (Attribute.rename (String.ofList name)).toList)
    (fun _ => rfl) [] [] (by simp) attrs

theorem numbered_renamed {t : Tag} (proper : t.Proper) (opening : t.closing = false) (number : Nat)
    (tag : String) :
    numbered number tag t.renamed.inner = (numbered number tag t.inner).renamed := by
  have attrs : t.renamed.attrs = t.attrs.map Attr.renamed := by rw [Tag.renamed_opening opening]; rfl
  have entries : ((attributesOf t.inner).mapValues Json.str).entries.map
      (fun e => (Attribute.rename e.1, e.2)) =
      ((firsts [] t.attrs).map Attr.renamed).map fun a =>
        (String.ofList a.name, Json.str (String.ofList (Entity.decode a.value))) := by
    rw [entries_numbered proper, List.map_map, List.map_map]
    refine List.map_congr_left fun a _ => ?_
    simp [Attr.read, Attr.renamed]
  have same : (attributesOf t.renamed.inner).mapValues Json.str =
      ((attributesOf t.inner).mapValues Json.str).renameFirst Attribute.rename := by
    have folded := @entries_foldl_firsts _ (fun a : Attr => Json.str (String.ofList (Entity.decode a.value)))
      ((firsts [] t.attrs).map Attr.renamed) [] .empty fun name => by
        simp [OrderedMap.keys, OrderedMap.empty]
    rw [← entries, List.foldl_map, firsts_renamed] at folded
    refine OrderedMap.eq_of_entries ?_
    rw [entries_numbered proper.renamed, attrs, OrderedMap.renameFirst, folded]
    rfl
  simp only [numbered, same]
  rfl

theorem Building.tag_renamed {t : Tag} (proper : t.Proper) (b : Building) :
    (b.mapElements Element.renamed).appendToken t.renamed.token =
      (b.appendToken t.token).mapElements Element.renamed := by
  cases closing : t.closing with
  | true =>
    have token : t.token = .stop (String.ofList t.name) := if_pos closing
    rw [Tag.renamed_closing closing, token]
    exact appendToken_stop_mapElements Element.tag_renamed b _
  | false =>
    have token : t.token = .start (String.ofList t.name) t.inner t.selfClosing :=
      if_neg (by simp [closing])
    have token' : t.renamed.token = .start (String.ofList t.name) t.renamed.inner t.selfClosing := by
      rw [Tag.renamed_opening closing]
      exact if_neg (by simp [Tag.withAttrs, closing])
    rw [token, token']
    exact appendToken_start_mapElements (fun number => numbered_renamed proper closing number _) _

/-- Reading goes the same way under either names, tag by tag. -/
theorem treeOf_renamed {d : Document} (proper : d.Proper) :
    treeOf (Cut.map Tag.token d.renamed) = (treeOf (Cut.map Tag.token d)).mapElements Element.renamed := by
  have hits : ∀ b : Building,
      (Cut.map Tag.token d.renamed).hits.foldl Building.step (b.mapElements Element.renamed) =
        ((Cut.map Tag.token d).hits.foldl Building.step b).mapElements Element.renamed := by
    -- On the tags, from any state of the building, as each tag leaves another.
    obtain ⟨hits, tail⟩ := d
    induction hits with
    | nil => exact fun b => rfl
    | cons hit rest ih =>
      intro b
      have first : (b.mapElements Element.renamed).step ⟨hit.passed, hit.value.renamed.token⟩ =
          (b.step ⟨hit.passed, hit.value.token⟩).mapElements Element.renamed := by
        rw [Building.step, Building.appendText_mapElements,
          Building.tag_renamed (proper.tags hit List.mem_cons_self)]
        rfl
      have others := ih proper.rest (b.step ⟨hit.passed, hit.value.token⟩)
      rw [← first] at others
      exact others
  have empty : ({} : Building).mapElements Element.renamed = {} := rfl
  have read := hits {}
  rw [empty] at read
  rw [treeOf, treeOf, read, ← Building.finish_mapElements Element.tag_renamed,
    ← Building.appendText_mapElements]
  rfl

/-! ### What can be read under new names -/

theorem spelledValues_token {t : Tag} (proper : t.Proper) (opening : t.closing = false) :
    t.token.spelledValues = (firsts [] t.attrs).map Attr.value := by
  have token : t.token = .start (String.ofList t.name) t.inner t.selfClosing :=
    if_neg (by simp [opening])
  rw [token, Token.spelledValues, OrderedMap.values, Tag.inner,
    writtenAttributes_attrs proper.attrs proper.blank, List.map_map]
  rfl

/-- An attribute may come to be hidden by another, but none that was hidden shows itself. -/
theorem spelledValues_renamed {t : Tag} (proper : t.Proper) :
    ∀ spelled ∈ t.renamed.token.spelledValues, spelled ∈ t.token.spelledValues := by
  cases closing : t.closing with
  | true =>
    rw [Tag.renamed_closing closing]
    exact fun _ mem => mem
  | false =>
    have attrs : t.renamed.attrs = t.attrs.map Attr.renamed := by rw [Tag.renamed_opening closing]; rfl
    have opening : t.renamed.closing = false := by rw [Tag.renamed_opening closing]; exact closing
    rw [spelledValues_token proper closing, spelledValues_token proper.renamed opening, attrs,
      ← firsts_renamed]
    intro spelled mem
    obtain ⟨a, held, rfl⟩ := List.mem_map.1 mem
    obtain ⟨b, held', rfl⟩ := List.mem_map.1 ((firsts_sublist _ _).subset held)
    exact List.mem_map.2 ⟨b, held', rfl⟩

theorem legible_renamed {d : Document} (proper : d.Proper) (legible : Legible d.write) :
    Legible d.renamed.write := by
  unfold Legible at legible ⊢
  rw [Document.tokens_write proper] at legible
  rw [Document.tokens_write proper.renamed]
  intro spelled mem
  refine legible spelled ?_
  simp only [spelledIn, Cut.map, Document.renamed, List.flatMap_map, List.map_map, List.mem_append,
    List.mem_flatMap, List.mem_cons] at mem ⊢
  obtain ⟨hit, held, same | inside⟩ | last := mem
  · exact .inl ⟨hit, held, .inl same⟩
  · exact .inl ⟨hit, held, .inr (spelledValues_renamed (proper.tags hit held) _ inside)⟩
  · exact .inr last

/-- Renaming attributes in a document's text renames them in its tree and changes nothing else of
it. A document that cannot be read has a decimal reference of too many digits. -/
theorem parse_renameMarkup {d : Document} (proper : d.Proper) (quiet : d.Quiet) (t : Attribute.Memory)
    (valid : t.Valid) :
    let renamed := ((Attribute.Memory.renameMarkup d.write).run t).1
    (Legible d.write → ∃ tree, parse d.write = .ok tree ∧
      parse renamed = .ok (tree.mapElements Element.renamed)) ∧
    (¬Legible d.write →
      ∃ count, mostDigits < count ∧ parse d.write = .error (.tooManyDigits count)) := by
  intro renamed
  have text : renamed = d.renamed.write :=
    (Attribute.Memory.renameMarkup_law d.write t valid).1.trans (Document.renameMarkup_write proper quiet)
  constructor
  · intro legible
    refine ⟨_, parse_legible legible, ?_⟩
    rw [text, parse_legible (legible_renamed proper legible), Document.tokens_write proper,
      Document.tokens_write proper.renamed, treeOf_renamed proper]
  · exact parse_illegible

/-- Names with a namespace, of words, and of the same new name; and a value that looks like an
attribute. -/
def renamedSample : Document where
  hits := [
    ⟨[], ⟨false, "svg".toList, row [("xlink:href", "#a"), ("viewBox", "0 0 1 1")], [], false⟩⟩,
    ⟨"A &gt; x='y'".toList, ⟨false, "rect".toList,
      row [("stroke-width", "2"), ("strokeWidth", "3"), ("data-x", " a-b='c'")], [' '], true⟩⟩,
    ⟨[], ⟨true, "svg".toList, [], [], false⟩⟩]
  tail := []

theorem parse_renameMarkup_sample : renamedSample.Proper ∧ renamedSample.Quiet ∧
    Legible renamedSample.write ∧ Attribute.Memory.Valid {} ∧
    ∃ tree, parse renamedSample.write = .ok tree ∧
      parse ((Attribute.Memory.renameMarkup renamedSample.write).run {}).1 =
        .ok (tree.mapElements Element.renamed) := by
  have proper : renamedSample.Proper := by decide +kernel
  have quiet : renamedSample.Quiet := by decide +kernel
  have valid := Attribute.Memory.valid_empty 2048
  have legible : Legible renamedSample.write := by
    rw [Legible, Document.tokens_write proper]
    exact checkTree_eq_ok.1 (by decide +kernel)
  exact ⟨proper, quiet, legible, valid, (parse_renameMarkup proper quiet {} valid).1 legible⟩

/-- Two attributes that come to have one name. -/
def twins (value : List Char) : Tag where
  closing := false
  name := "a".toList
  attrs := [⟨[' '], "class".toList, []⟩, ⟨[' '], "className".toList, value⟩]
  trail := []
  selfClosing := true

/-- The value of the second cannot be read. -/
def hiddenValue : Document := ⟨[⟨[], twins overlong⟩], []⟩

theorem twins_proper {value : List Char} (no_quote : '"' ∉ value) : (twins value).Proper := by
  have name : ProperTag "a".toList := by decide
  have first : Attr.Proper ⟨[' '], "class".toList, []⟩ := by decide
  have some_lead : [' '] ≠ [] ∧ ∀ c ∈ [' '], isBlank c = true := by decide
  have second : ProperName "className".toList := by decide
  refine ⟨name, List.forall_mem_cons.2 ⟨first, List.forall_mem_singleton.2 ?_⟩, nofun⟩
  exact ⟨some_lead.1, some_lead.2, second, no_quote⟩

theorem spelledValues_twins {value : List Char} (no_quote : '"' ∉ value) :
    (twins value).token.spelledValues = [[], value] :=
  spelledValues_token (twins_proper no_quote) rfl

/-- Under one name the second is hidden. -/
theorem spelledValues_twins_renamed {value : List Char} (no_quote : '"' ∉ value) :
    (twins value).renamed.token.spelledValues = [[]] := by
  have names : Attribute.rename "class" = "className" ∧
      Attribute.rename "className" = "className" := by decide +kernel
  have same := spelledValues_token (twins_proper no_quote).renamed rfl
  rw [Tag.renamed_opening rfl] at same ⊢
  rw [same]
  simp [Tag.withAttrs, twins, Attr.renamed, names, firsts]

/-- A value that cannot be read does no harm where renaming hides it. -/
theorem not_every_renaming_reads : ¬∀ d : Document, d.Proper → d.Quiet →
    parse (Attribute.renameMarkup d.write) = (parse d.write).map (Node.mapElements Element.renamed) := by
  intro every
  have no_quote : '"' ∉ overlong := by simp [overlong, List.mem_replicate]
  have no_sign : '<' ∉ overlong ∧ '>' ∉ overlong := by simp [overlong, List.mem_replicate]
  have proper : hiddenValue.Proper :=
    ⟨List.forall_mem_singleton.2 (twins_proper no_quote), by simp [hiddenValue, Document.texts]⟩
  have quiet : hiddenValue.Quiet := by
    refine List.forall_mem_singleton.2 (List.forall_mem_cons.2 ⟨by decide, ?_⟩)
    exact List.forall_mem_singleton.2 no_sign
  have illegible : ¬Legible hiddenValue.write := by
    rw [Legible, Document.tokens_write proper]
    intro legible
    refine overlong_unreadable (legible overlong ?_)
    simp [spelledIn, Cut.map, hiddenValue, spelledValues_twins no_quote]
  have legible : Legible hiddenValue.renamed.write := by
    have readable : Entity.Readable [] := by
      intro digits mem
      cases mem
    rw [Legible, Document.tokens_write proper.renamed]
    simp [spelledIn, Cut.map, hiddenValue, Document.renamed, spelledValues_twins_renamed no_quote,
      readable]
  obtain ⟨count, -, fails⟩ := parse_illegible illegible
  have same := every hiddenValue proper quiet
  rw [Document.renameMarkup_write proper quiet, parse_legible legible, fails] at same
  cases same

end Markup

end DesignComponents
