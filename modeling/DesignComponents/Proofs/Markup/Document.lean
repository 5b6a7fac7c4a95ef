import DesignComponents.Proofs.Markup.Token
import DesignComponents.Proofs.OrderedMap

/-! Markup as tags with texts between them. A tag has its attributes as they are written, with any
white space before each, and with names that may come again. A proper document is cut at its tags,
and of the attributes of a tag those count that are the first of their name. -/

set_option autoImplicit false

namespace DesignComponents.Markup

open Text Reader

/-- An attribute as it stands in a tag: the white space before it, its name, and its value as it
is between the quotes. -/
structure Attr where
  lead : List Char
  name : List Char
  value : List Char
  deriving DecidableEq

namespace Attr

def write (a : Attr) : List Char := a.lead ++ a.name ++ "=\"".toList ++ a.value ++ ['"']

structure Proper (a : Attr) : Prop where
  some_lead : a.lead ≠ []
  blank : ∀ c ∈ a.lead, isBlank c = true
  name : ProperName a.name
  value : '"' ∉ a.value

theorem proper_iff {a : Attr} : a.Proper ↔
    a.lead ≠ [] ∧ (∀ c ∈ a.lead, isBlank c = true) ∧ ProperName a.name ∧ '"' ∉ a.value :=
  ⟨fun ⟨some_lead, blank, name, value⟩ => ⟨some_lead, blank, name, value⟩,
    fun ⟨some_lead, blank, name, value⟩ => ⟨some_lead, blank, name, value⟩⟩

instance (a : Attr) : Decidable a.Proper := decidable_of_iff _ proper_iff.symm

end Attr

theorem isInert_of_isBlank {c : Char} (blank : isBlank c = true) : isInert c = true := by
  have each : ∀ n ∈ blankCodePoints, isInert (Char.ofNat n) = true := by decide +kernel
  have := each _ (isBlank_eq_true blank)
  rwa [Char.ofNat_toNat] at this

theorem not_isNameChar_of_isBlank {c : Char} (blank : isBlank c = true) : isNameChar c = false := by
  simp [isNameChar, blank]

theorem ProperName.not_blank {name : List Char} (proper : ProperName name) :
    ∀ c ∈ name, isBlank c = false := by
  intro c mem
  by_contra blank
  rw [Bool.not_eq_false] at blank
  have char := (proper.2 c mem).1
  rw [not_isNameChar_of_isBlank blank] at char
  exact nomatch char

theorem ProperName.lacks {name : List Char} (proper : ProperName name) {c : Char}
    (sign : isNameChar c = false) : c ∉ name := Text.lacks (fun d mem => (proper.2 d mem).1) sign

theorem ProperName.no_equals {name : List Char} (proper : ProperName name) : '=' ∉ name :=
  proper.lacks (by decide)

/-- White space ends where a name or the sign of a value comes. -/
theorem head_label {name : List Char} (solid : ∀ c ∈ name, isBlank c = false) (rest : List Char) :
    ∀ c ∈ (name ++ '=' :: rest).head?, isBlank c = false := by
  cases name with
  | nil =>
    rintro c ⟨⟩
    decide
  | cons d more =>
    rintro c ⟨⟩
    exact solid d List.mem_cons_self

namespace Attr

/-- What stands before the value of an attribute and its quotes. -/
def label (a : Attr) : List Char := a.lead ++ a.name ++ ['=']

theorem write_append (a : Attr) (text : List Char) :
    a.write ++ text = (a.label ++ ['"']) ++ ((a.value ++ ['"']) ++ text) := by
  simp [write, label]

theorem Proper.no_quote_label {a : Attr} (proper : a.Proper) : '"' ∉ a.label := by
  have no_lead : '"' ∉ a.lead := lacks proper.blank (by decide)
  have no_name : '"' ∉ a.name := proper.name.lacks (by decide)
  simp [label, no_lead, no_name]

end Attr

theorem Attr.Proper.enclosed {a : Attr} (proper : a.Proper) : Enclosed a.write := by
  have before : Enclosed (a.lead ++ a.name ++ ['=']) := by
    refine enclosed_inert fun c mem => ?_
    simp only [List.mem_append, List.mem_singleton] at mem
    obtain (mem | mem) | rfl := mem
    · exact isInert_of_isBlank (proper.blank c mem)
    · obtain ⟨name, sign⟩ := proper.name.2 c mem
      exact isInert_of_isNameChar name sign
    · decide
  simpa [write] using before.append (enclosed_quoted proper.value)

theorem enclosed_attrs {attrs : List Attr} (proper : ∀ a ∈ attrs, a.Proper) :
    Enclosed (attrs.flatMap Attr.write) := by
  induction attrs with
  | nil => exact enclosed_nil
  | cons a rest ih =>
    rw [List.flatMap_cons]
    exact (proper a List.mem_cons_self).enclosed.append
      (ih fun a' mem => proper a' (List.mem_cons_of_mem a mem))

/-- White space or the end of a tag: what comes behind a name or a value in a tag. -/
def Stops (text : List Char) : Prop := ∀ c ∈ text.head?, isBlank c = true ∨ c = '/' ∨ c = '>'

theorem Stops.endsName {text : List Char} (stops : Stops text) : EndsName text := by
  intro c mem
  obtain blank | rfl | rfl := stops c mem
  · by_contra char
    rw [Bool.not_eq_false] at char
    simp [not_blank_of_isTagChar char] at blank
  · decide
  · decide

theorem stops_blank_append {blank text : List Char} (all : ∀ c ∈ blank, isBlank c = true)
    (stops : Stops text) : Stops (blank ++ text) := by
  cases blank with
  | nil => exact stops
  | cons c more =>
    rintro d mem
    obtain rfl : c = d := by simpa using mem
    exact .inl (all c List.mem_cons_self)

theorem stops_attrs {attrs : List Attr} (proper : ∀ a ∈ attrs, a.Proper) {text : List Char}
    (stops : Stops text) : Stops (attrs.flatMap Attr.write ++ text) := by
  cases attrs with
  | nil => exact stops
  | cons a rest =>
    obtain ⟨some_lead, blank, -, -⟩ := proper a List.mem_cons_self
    obtain ⟨c, more, lead⟩ := List.exists_cons_of_ne_nil some_lead
    intro d mem
    obtain rfl : c = d := by simpa [Attr.write, lead] using mem
    exact .inl (blank c (by simp [lead]))

/-! ### Tags -/

/-- A start tag, one that closes itself, or an end tag. -/
structure Tag where
  closing : Bool
  name : List Char
  attrs : List Attr
  /-- The white space before the end of the tag. -/
  trail : List Char
  selfClosing : Bool

namespace Tag

def opening (t : Tag) : List Char := '<' :: (if t.closing then ['/'] else []) ++ t.name

/-- What stands in the tag behind its name. -/
def inner (t : Tag) : List Char := t.attrs.flatMap Attr.write ++ t.trail

def ending (t : Tag) : List Char := t.trail ++ (if t.selfClosing then ['/'] else []) ++ ['>']

def write (t : Tag) : List Char := t.opening ++ (t.attrs.flatMap Attr.write ++ t.ending)

def token (t : Tag) : Token :=
  if t.closing then .stop (String.ofList t.name)
  else .start (String.ofList t.name) t.inner t.selfClosing

structure Proper (t : Tag) : Prop where
  name : ProperTag t.name
  attrs : ∀ a ∈ t.attrs, a.Proper
  blank : ∀ c ∈ t.trail, isBlank c = true

theorem proper_iff {t : Tag} : t.Proper ↔
    ProperTag t.name ∧ (∀ a ∈ t.attrs, a.Proper) ∧ ∀ c ∈ t.trail, isBlank c = true :=
  ⟨fun ⟨name, attrs, blank⟩ => ⟨name, attrs, blank⟩, fun ⟨name, attrs, blank⟩ => ⟨name, attrs, blank⟩⟩

instance (t : Tag) : Decidable t.Proper := decidable_of_iff _ proper_iff.symm

theorem Proper.stops_ending {t : Tag} (proper : t.Proper) (rest : List Char) :
    Stops (t.ending ++ rest) := by
  rw [ending, List.append_assoc, List.append_assoc]
  refine stops_blank_append proper.blank fun c mem => .inr ?_
  cases closes : t.selfClosing <;> rw [closes] at mem
  · exact .inr (Option.some.inj mem).symm
  · exact .inl (Option.some.inj mem).symm

theorem token_read {t : Tag} (proper : t.Proper) (before : Option Char) (rest : List Char) :
    Markup.token ⟨before, t.write ++ rest⟩ = some (t.token, ⟨some '>', rest⟩) := by
  have enclosed : Enclosed t.inner := (enclosed_attrs proper.attrs).append
    (enclosed_inert fun c mem => isInert_of_isBlank (proper.blank c mem))
  have ends := (stops_attrs proper.attrs (proper.stops_ending rest)).endsName
  have inside : ∀ m, tagInner ⟨m, t.attrs.flatMap Attr.write ++ (t.ending ++ rest)⟩ =
      some ((t.inner, t.selfClosing), ⟨some '>', rest⟩) := by
    intro m
    cases closes : t.selfClosing with
    | false => simpa [ending, inner, closes] using @tagInner_read _ rest enclosed m
    | true => simpa [ending, inner, closes] using @tagInner_read_closing _ rest enclosed m
  cases closing : t.closing with
  | false => simpa [write, opening, token, closing] using token_start_of proper.name ends inside
  | true => simpa [write, opening, token, closing] using token_stop_of proper.name ends inside

end Tag

/-! ### Documents -/

/-- Tags, the text before each, and the text behind the last. -/
abbrev Document := Cut Tag

namespace Document

def write (d : Document) : List Char := (Cut.map Tag.write d).fill

def texts (d : Document) : List (List Char) := d.hits.map Hit.passed ++ [d.tail]

/-- A document that is read as what it is. Its tags need not be paired. -/
structure Proper (d : Document) : Prop where
  tags : ∀ hit ∈ d.hits, hit.value.Proper
  texts : ∀ text ∈ texts d, '<' ∉ text

theorem proper_iff {d : Document} : Proper d ↔
    (∀ hit ∈ d.hits, hit.value.Proper) ∧ ∀ text ∈ texts d, '<' ∉ text :=
  ⟨fun ⟨tags, texts⟩ => ⟨tags, texts⟩, fun ⟨tags, texts⟩ => ⟨tags, texts⟩⟩

instance (d : Document) : Decidable (Proper d) := decidable_of_iff _ proper_iff.symm

theorem write_cons (hit : Hit Tag) (hits : List (Hit Tag)) (tail : List Char) :
    write ⟨hit :: hits, tail⟩ = hit.passed ++ (hit.value.write ++ write ⟨hits, tail⟩) := by
  simp [write, Cut.map, Cut.fill]

theorem Proper.rest {hit : Hit Tag} {hits : List (Hit Tag)} {tail : List Char}
    (proper : Proper ⟨hit :: hits, tail⟩) : Proper ⟨hits, tail⟩ where
  tags h mem := proper.tags h (List.mem_cons_of_mem hit mem)
  texts text mem := proper.texts text (List.mem_cons_of_mem hit.passed mem)

theorem tokens_write {d : Document} (proper : Proper d) : tokens (write d) = Cut.map Tag.token d := by
  obtain ⟨hits, tail⟩ := d
  rw [tokens, cut_eq_cutAt, Place.start]
  induction hits with
  | nil =>
    have plain := proper.texts tail (by simp [texts])
    have passed := @cutAt_token_text none tail [] plain
    rwa [List.append_nil, cutAt_nil, Cut.append_nil] at passed
  | cons hit rest ih =>
    have plain := proper.texts hit.passed (by simp [texts])
    have read := Tag.token_read (proper.tags hit List.mem_cons_self) none (write ⟨rest, tail⟩)
    rw [write_cons, cutAt_token_text plain, cutAt_token_read read, ih proper.rest]
    cases rest <;> simp [Cut.append_def, Cut.join, Cut.passing, Cut.piece, Cut.map]

end Document

/-! ### Replacing tag by tag -/

/-- A reader of pieces that each begin with the sign of a tag. -/
structure SeeksTags (r : Reader (List Char)) : Prop where
  takes : Takes r
  passive : Passive r
  sign : ∀ {p v q}, r p = some (v, q) → p.rest.head? = some '<'

namespace SeeksTags

variable {r : Reader (List Char)}

theorem skips (seeks : SeeksTags r) {text : List Char} (unsigned : '<' ∉ text) (back : List Char) :
    Skips r text back := by
  refine @skips_of_shape r (fun text => text.head? = some '<') _ _ seeks.sign ?_
  intro passed ahead same some_ahead
  obtain ⟨c, more, rfl⟩ := List.exists_cons_of_ne_nil some_ahead
  intro sign
  obtain rfl : c = '<' := by simpa using sign
  exact unsigned (by simp [same])

/-- A tag that is not read stays. -/
theorem substitute_unread (seeks : SeeksTags r) {inside text : List Char} (unsigned : '<' ∉ inside)
    (unread : r ⟨none, '<' :: (inside ++ text)⟩ = none) :
    substitute r ('<' :: (inside ++ text)) = '<' :: (inside ++ substitute r text) := by
  rw [substitute_cons seeks.takes seeks.passive unread,
    substitute_skip seeks.takes seeks.passive (seeks.skips unsigned text)]

/-- Replacing goes through a document tag by tag. -/
theorem substitute_write (seeks : SeeksTags r) {d : Document} (change : Tag → List Char)
    (unsigned : ∀ text ∈ d.texts, '<' ∉ text)
    (each : ∀ hit ∈ d.hits, ∀ text, substitute r (hit.value.write ++ text) =
      change hit.value ++ substitute r text) :
    substitute r d.write = (Cut.map change d).fill := by
  obtain ⟨hits, tail⟩ := d
  -- On the tags, each with the text before it.
  induction hits with
  | nil =>
    have skipped := substitute_skip seeks.takes seeks.passive
      (seeks.skips (unsigned tail (by simp [Document.texts])) [])
    have none_left : substitute r [] = [] := rfl
    rw [none_left, List.append_nil] at skipped
    simpa [Document.write, Cut.map, Cut.fill] using skipped
  | cons hit rest ih =>
    have others := ih (fun text mem => unsigned text (List.mem_cons_of_mem _ mem))
      fun h mem => each h (List.mem_cons_of_mem hit mem)
    rw [Document.write_cons, substitute_skip seeks.takes seeks.passive
        (seeks.skips (unsigned hit.passed List.mem_cons_self) _),
      each hit List.mem_cons_self, others]
    simp [Cut.map, Cut.fill]

end SeeksTags

/-! ### Which attributes count -/

/-- Of attributes with one name the first, and none of a name that was seen before. -/
def firsts (seen : List (List Char)) : List Attr → List Attr
  | [] => []
  | a :: rest => if a.name ∈ seen then firsts seen rest else a :: firsts (a.name :: seen) rest

theorem firsts_congr {seen seen' : List (List Char)} {attrs : List Attr}
    (same : ∀ a ∈ attrs, a.name ∈ seen ↔ a.name ∈ seen') : firsts seen attrs = firsts seen' attrs := by
  induction attrs generalizing seen seen' with
  | nil => rfl
  | cons a rest ih =>
    have others := fun b mem => same b (List.mem_cons_of_mem a mem)
    have further := @ih (a.name :: seen) (a.name :: seen') fun b mem => by
      rw [List.mem_cons, List.mem_cons, others b mem]
    simp only [firsts, same a List.mem_cons_self, ih others, further]

theorem firsts_sublist (seen : List (List Char)) (attrs : List Attr) :
    (firsts seen attrs).Sublist attrs := by
  induction attrs generalizing seen with
  | nil => exact .slnil
  | cons a rest ih =>
    rw [firsts]
    split
    · exact (ih seen).cons a
    · exact (ih _).cons_cons a

/-- Attributes of one name that come to have another in common: it makes no difference whether the
first of each old name is taken before. -/
theorem firsts_map_firsts {f : Attr → Attr} {name : List Char → List Char}
    (named : ∀ a, (f a).name = name a.name) {seen seen' : List (List Char)}
    (known : ∀ n ∈ seen, name n ∈ seen') (attrs : List Attr) :
    firsts seen' ((firsts seen attrs).map f) = firsts seen' (attrs.map f) := by
  induction attrs generalizing seen seen' with
  | nil => rfl
  | cons a rest ih =>
    rw [firsts, List.map_cons, firsts, named]
    -- A name met before is met again under its new name; one that is new may be met there only.
    by_cases mem : a.name ∈ seen
    · rw [if_pos mem, if_pos (known _ mem), ih known]
    · rw [if_neg mem, List.map_cons, firsts, named]
      split
      · next mem' => exact ih (by simpa using ⟨mem', known⟩)
      · refine congrArg _ (ih fun n mem' => ?_)
        obtain rfl | mem' := List.mem_cons.1 mem'
        · exact List.mem_cons_self
        · exact List.mem_cons_of_mem _ (known n mem')

/-- A name that was seen is not seen anew. -/
theorem firsts_seen {name : List Char} {seen : List (List Char)} (mem : name ∈ seen)
    (attrs : List Attr) : firsts (name :: seen) attrs = firsts seen attrs := by
  refine firsts_congr fun a _ => ?_
  rw [List.mem_cons, or_iff_right_of_imp]
  rintro rfl
  exact mem

/-- Where no name comes again all count. -/
theorem firsts_nodup {seen : List (List Char)} {attrs : List Attr} (nodup : (attrs.map Attr.name).Nodup)
    (fresh : ∀ a ∈ attrs, a.name ∉ seen) : firsts seen attrs = attrs := by
  induction attrs generalizing seen with
  | nil => rfl
  | cons a rest ih =>
    rw [List.map_cons, List.nodup_cons] at nodup
    have others := @ih (a.name :: seen) nodup.2 fun b mem => by
      rw [List.mem_cons, not_or]
      exact ⟨fun same => nodup.1 (same ▸ List.mem_map_of_mem mem), fresh b (List.mem_cons_of_mem a mem)⟩
    rw [firsts, if_neg (fresh a List.mem_cons_self), others]

def Attr.entry (a : Attr) : String × List Char := (String.ofList a.name, a.value)

theorem cutAt_attributePair_blank {before : Option Char} {blank rest : List Char}
    (all : ∀ c ∈ blank, isBlank c = true) : cutAt attributePair ⟨before, blank ++ rest⟩ =
      Cut.passing blank ++ cutAt attributePair ⟨none, rest⟩ := by
  rw [cutAt_pass attributePair_takes, cutAt_blind attributePair_takes passive_attributePair _ none]
  intro passed ahead same some_ahead
  obtain ⟨c, more, rfl⟩ := List.exists_cons_of_ne_nil some_ahead
  exact attributePair_none (not_isNameChar_of_isBlank (all c (by simp [same])))

theorem findAll_attrs {attrs : List Attr} {trail : List Char} (proper : ∀ a ∈ attrs, a.Proper)
    (blank : ∀ c ∈ trail, isBlank c = true) :
    findAll attributePair (attrs.flatMap Attr.write ++ trail) = attrs.map Attr.entry := by
  rw [findAll, cut_eq_cutAt, Place.start]
  induction attrs with
  | nil =>
    have passed := @cutAt_attributePair_blank none trail [] blank
    rw [List.append_nil, cutAt_nil, Cut.append_nil] at passed
    rw [List.flatMap_nil, List.nil_append, passed]
    rfl
  | cons a rest ih =>
    have first := proper a List.mem_cons_self
    have entry : ProperEntry (a.name, a.value) := ⟨first.name, first.value⟩
    have read := attributePair_read entry none (rest.flatMap Attr.write ++ trail)
    -- The white space before it is no name, and behind it the attribute is read whole.
    have text : (a :: rest).flatMap Attr.write ++ trail =
        a.lead ++ (a.name ++ "=\"".toList ++ a.value ++ '"' :: (rest.flatMap Attr.write ++ trail)) := by
      simp [Attr.write]
    rw [text, cutAt_attributePair_blank first.blank, cutAt_some attributePair_takes read,
      cutAt_blind attributePair_takes passive_attributePair (some '"') none, Cut.values_append,
      Cut.values_append, ih fun a' mem => proper a' (List.mem_cons_of_mem a mem)]
    rfl

/-- What is entered, the first of each name, and under it what `read` makes of the attribute. -/
theorem entries_foldl_firsts {α : Type} (read : Attr → α) {attrs : List Attr} {seen : List (List Char)}
    {m : OrderedMap α} (keys : ∀ name, String.ofList name ∈ m.keys ↔ name ∈ seen) :
    ((attrs.map fun a => (String.ofList a.name, read a)).foldl
        (fun acc e => if acc.contains e.1 then acc else acc.insert e.1 e.2) m).entries =
      m.entries ++ (firsts seen attrs).map fun a => (String.ofList a.name, read a) := by
  -- On the attributes; the names that were seen are the keys of the map so far.
  induction attrs generalizing seen m with
  | nil => simp [firsts]
  | cons a rest ih =>
    rw [List.map_cons, List.foldl_cons, firsts]
    by_cases known : a.name ∈ seen
    · have held : m.contains (String.ofList a.name) = true :=
        OrderedMap.contains_eq_true.2 ((keys _).2 known)
      rw [if_pos held, if_pos known, ih keys]
    · have fresh : String.ofList a.name ∉ m.keys := fun mem => known ((keys _).1 mem)
      have entered : (m.insert (String.ofList a.name) (read a)).entries =
          m.entries ++ [(String.ofList a.name, read a)] := OrderedMap.entries_insert_new fresh
      have keys' : ∀ name, String.ofList name ∈ (m.insert (String.ofList a.name) (read a)).keys ↔
          name ∈ a.name :: seen := by
        intro name
        rw [OrderedMap.keys_insert_new fresh, List.mem_append, keys, List.mem_singleton,
          List.mem_cons, or_comm]
        exact or_congr_left ⟨fun same => String.ofList_injective same, congrArg String.ofList⟩
      rw [if_neg (by rwa [OrderedMap.contains_eq_true]), if_neg known, ih keys', entered]
      simp

theorem writtenAttributes_attrs {attrs : List Attr} {trail : List Char}
    (proper : ∀ a ∈ attrs, a.Proper) (blank : ∀ c ∈ trail, isBlank c = true) :
    (writtenAttributes (attrs.flatMap Attr.write ++ trail)).entries =
      (firsts [] attrs).map Attr.entry := by
  rw [writtenAttributes, findAll_attrs proper blank]
  exact entries_foldl_firsts Attr.value fun name => by simp [OrderedMap.keys, OrderedMap.empty]

end DesignComponents.Markup
