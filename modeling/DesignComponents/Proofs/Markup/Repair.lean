import DesignComponents.Proofs.Attribute.Document
import DesignComponents.Proofs.Markup.Balance

/-! Closing the elements of a drawing that hold nothing. Of a document's tags only those of such
elements are touched: a start tag comes to close itself and an end tag goes, with the texts around
it put together. What is read from the result has these elements for leaves. -/

set_option autoImplicit false

namespace DesignComponents.Markup

open Text Reader Source

/-! ### Reading the tags of elements that hold nothing -/

theorem voidLike_apart : ∀ v ∈ voidLike, ∀ w ∈ voidLike, v.toList <+: w.toList → v = w := by decide

theorem voidLike_proper : ∀ word ∈ voidLike, ProperTag word.toList := by decide +kernel

/-- What stands behind the name of a tag that does not close itself. -/
structure LeftOpen (attributes : List Char) : Prop where
  apart : ∀ c ∈ attributes.head?, isBlank c = true
  unended : '>' ∉ attributes
  unslashed : attributes.getLast? ≠ some '/'

section

variable {p q : Place} {v : List Char}

theorem voidTail_eq_some : voidTail p = some (v, q) ↔ ∃ attributes, attributes ≠ [] ∧
    LeftOpen attributes ∧ trimRight attributes = v ∧ p.After (attributes ++ ['>']) q := by
  simp only [voidTail, bind_eq_some, one_eq_some]
  constructor
  · rintro ⟨lead, m, ⟨blank, one⟩, inner, m', many, _, m'', close, ends⟩
    obtain ⟨none, last⟩ := closing_eq_some.1 ⟨m', many, _, close⟩
    split at ends
    · exact (failure_eq_some.1 ends).elim
    next unslashed =>
      obtain ⟨rfl, rfl⟩ := pure_eq_some.1 ends
      have solid : '>' ≠ lead := by
        rintro rfl
        exact absurd blank (by decide)
      refine ⟨lead :: inner, List.cons_ne_nil _ _, ⟨?_, ?_, ?_⟩, rfl, one.trans last⟩
      · rintro c ⟨⟩
        exact blank
      · rw [List.mem_cons, not_or]
        exact ⟨solid, none⟩
      · simpa using unslashed
  · rintro ⟨_ | ⟨lead, inner⟩, some_attributes, ⟨apart, unended, unslashed⟩, rfl, reached⟩
    · exact absurd rfl some_attributes
    obtain ⟨m, one, last⟩ := Place.after_cons.1 reached
    rw [List.mem_cons, not_or] at unended
    obtain ⟨m', many, _, close⟩ := closing_eq_some.2 ⟨unended.2, last⟩
    refine ⟨lead, m, ⟨apart lead rfl, one⟩, inner, m', many, (), q, close, ?_⟩
    rw [if_neg (by simpa using unslashed)]
    rfl

/-- Behind the name comes white space, or the end of the tag. -/
theorem voidBehind_eq_some :
    (voidTail <|> (do Reader.char '>'; pure []) : Reader (List Char)) p = some (v, q) ↔
      ∃ attributes, LeftOpen attributes ∧ trimRight attributes = v ∧ p.After (attributes ++ ['>']) q := by
  have ended : (do Reader.char '>'; pure [] : Reader (List Char)) p = some (v, q) ↔
      [] = v ∧ p.After ['>'] q := by
    simp only [bind_eq_some, char_eq_some, pure_eq_some]
    exact ⟨fun ⟨_, _, close, empty, same⟩ => ⟨empty, same ▸ close⟩,
      fun ⟨empty, close⟩ => ⟨(), q, close, empty, rfl⟩⟩
  rw [orElse_eq_some, voidTail_eq_some, ended]
  constructor
  · rintro (⟨attributes, -, whole⟩ | ⟨-, rfl, close⟩)
    · exact ⟨attributes, whole⟩
    · exact ⟨[], ⟨nofun, List.not_mem_nil, nofun⟩, rfl, close⟩
  · rintro ⟨attributes, leftOpen, same, reached⟩
    by_cases some_attributes : attributes = []
    · -- A tag that ends behind its name has no white space for the first of the two.
      subst some_attributes
      refine .inr ⟨?_, same, reached⟩
      refine unread_iff.2 fun w m reads => ?_
      obtain ⟨others, some_others, ⟨apart, -, -⟩, -, reached'⟩ := voidTail_eq_some.1 reads
      obtain ⟨c, more, rfl⟩ := List.exists_cons_of_ne_nil some_others
      have first := reached.rest.symm.trans reached'.rest
      obtain rfl : '>' = c := (List.cons.inj first).1
      exact absurd (apart '>' rfl) (by decide)
    · exact .inl ⟨attributes, some_attributes, leftOpen, same, reached⟩

end

theorem voidStart_exact : Exact voidStart fun _ taken v => ∃ word ∈ voidLike, ∃ attributes,
    LeftOpen attributes ∧ taken = '<' :: (word.toList ++ (attributes ++ ['>'])) ∧
      v = '<' :: word.toList ++ trimRight attributes ++ "/>".toList := by
  intro p v q
  simp only [voidStart, bind_eq_some, char_eq_some, oneOf_eq_some voidLike_apart, voidBehind_eq_some,
    pure_eq_some]
  constructor
  · rintro ⟨_, m, mark, word, m', ⟨known, named⟩, w, m'', ⟨attributes, leftOpen, rfl, last⟩, rfl, rfl⟩
    exact ⟨_, List.cons_ne_nil _ _, ⟨word, known, attributes, leftOpen, rfl, rfl⟩,
      mark.trans (named.trans last)⟩
  · rintro ⟨taken, -, ⟨word, known, attributes, leftOpen, rfl, rfl⟩, reached⟩
    obtain ⟨m, mark, reached⟩ := Place.after_cons.1 reached
    obtain ⟨m', named, last⟩ := Place.after_append.1 reached
    exact ⟨(), m, mark, word, m', ⟨known, named⟩, _, q, ⟨attributes, leftOpen, rfl, last⟩, rfl, rfl⟩

theorem voidEnd_exact : Exact voidEnd fun _ taken v => ∃ word ∈ voidLike, ∃ gap,
    Blank gap ∧ taken = '<' :: ('/' :: word.toList ++ (gap ++ ['>'])) ∧ v = [] := by
  intro p v q
  simp only [voidEnd, blanks, bind_eq_some, char_eq_some, text_eq_some, many_eq_some,
    oneOf_eq_some voidLike_apart, pure_eq_some]
  constructor
  · rintro ⟨_, m, mark, word, m', ⟨known, named⟩, gap, m'', ⟨blank, -, passed⟩, _, m₃, close, rfl, rfl⟩
    exact ⟨_, List.cons_ne_nil _ _, ⟨word, known, gap, blank, rfl, rfl⟩,
      mark.trans (named.trans (passed.trans close))⟩
  · rintro ⟨taken, -, ⟨word, known, gap, blank, rfl, rfl⟩, reached⟩
    obtain ⟨m, mark, reached⟩ := (@Place.after_append p q "</".toList (word.toList ++ (gap ++ ['>']))).1 reached
    obtain ⟨m', named, reached⟩ := Place.after_append.1 reached
    obtain ⟨m'', passed, close⟩ := Place.after_append.1 reached
    refine ⟨(), m, mark, word, m', ⟨known, named⟩, gap, m'', ⟨blank, ?_, passed⟩, (), q, close, rfl, rfl⟩
    rw [close.rest]
    rintro c ⟨⟩
    decide

theorem passive_oneOf (words : List String) : Passive (oneOf words) := by
  induction words with
  | nil => exact passive_failure
  | cons first rest ih => exact ((passive_text first).bind fun _ => passive_pure first).orElse ih

theorem voidStart_seeksTags : SeeksTags voidStart where
  takes := voidStart_exact.takes
  passive := by
    refine (passive_char _).bind fun _ => (passive_oneOf _).bind fun _ => Passive.bind ?_ fun _ => passive_pure _
    refine Passive.orElse ?_ ((passive_char _).bind fun _ => passive_pure _)
    refine (passive_one _).bind fun _ => (passive_many _).bind fun _ => (passive_char _).bind fun _ => ?_
    dsimp only
    split
    · exact passive_failure
    · exact passive_pure _
  sign reads := by
    obtain ⟨taken, -, ⟨word, -, attributes, -, rfl, -⟩, reached⟩ := (voidStart_exact _ _ _).1 reads
    rw [reached.rest]
    rfl

theorem voidEnd_seeksTags : SeeksTags voidEnd where
  takes := voidEnd_exact.takes
  passive := (passive_text _).bind fun _ => (passive_oneOf _).bind fun _ => (passive_many _).bind fun _ =>
    (passive_char _).bind fun _ => passive_pure _
  sign reads := by
    obtain ⟨taken, -, ⟨word, -, gap, -, rfl, -⟩, reached⟩ := (voidEnd_exact _ _ _).1 reads
    rw [reached.rest]
    rfl

/-! ### Tags -/

namespace Tag

/-- The tag is one of an element that holds nothing. -/
def isVoid (t : Tag) : Bool := voidLike.contains (String.ofList t.name)

/-- The tag leaves an element open. -/
def opens (t : Tag) : Bool := !t.closing && !t.selfClosing

/-- An end tag has a name and nothing else. -/
def Bare (t : Tag) : Prop := t.closing = true → t.attrs = [] ∧ t.selfClosing = false

instance (t : Tag) : Decidable t.Bare := inferInstanceAs (Decidable (_ → _))

/-- A start tag of an element that holds nothing comes to close itself. -/
def repaired (t : Tag) : Tag := if t.isVoid && t.opens then { t with trail := [], selfClosing := true } else t

/-- An end tag of an element that holds nothing. -/
def isVoidEnd (t : Tag) : Bool := t.isVoid && t.closing

variable {t : Tag}

/-- What stands between the signs of the tag. -/
def inside (t : Tag) : List Char :=
  (if t.closing then ['/'] else []) ++ (t.name ++ (t.inner ++ if t.selfClosing then ['/'] else []))

theorem write_inside (t : Tag) : t.write = '<' :: (t.inside ++ ['>']) := by
  simp [write, opening, ending, inside, inner]

theorem after_write (t : Tag) (text : List Char) :
    (Place.mk none (t.write ++ text)).After t.write ⟨some '>', text⟩ := by
  refine ⟨rfl, ?_⟩
  rw [write_inside, ← List.cons_append, List.getLast?_concat]
  rfl

theorem inside_plain (proper : t.Proper) (quiet : t.Quiet) : '<' ∉ t.inside ∧ '>' ∉ t.inside := by
  obtain ⟨first, inner, letter, all, whole⟩ := write_eq proper quiet
  have same : t.inside = (if t.closing then ['/'] else []) ++ first :: inner := by
    have both := (write_inside t).symm.trans whole
    rw [List.cons.injEq, ← List.append_assoc] at both
    exact List.append_cancel_right both.2
  have plain : ∀ {sign : Char}, isAsciiLetter sign = false → Attribute.isTagInner sign = false →
      sign ≠ '/' → sign ∉ t.inside := by
    intro sign not_letter not_inner other mem
    rw [same, List.mem_append, List.mem_cons] at mem
    obtain mem | rfl | mem := mem
    · split at mem
      · exact other (List.mem_singleton.1 mem)
      · exact nomatch mem
    · rw [letter] at not_letter
      exact nomatch not_letter
    · rw [all sign mem] at not_inner
      exact nomatch not_inner
  exact ⟨plain (by decide) (by decide) (by decide), plain (by decide) (by decide) (by decide)⟩

theorem isVoid_iff : t.isVoid = true ↔ ∃ word ∈ voidLike, word.toList = t.name := by
  rw [isVoid, List.contains_iff_mem]
  constructor
  · exact fun known => ⟨_, known, String.toList_ofList⟩
  · rintro ⟨word, known, same⟩
    rwa [← same, String.ofList_toList]

/-- Behind the name of a tag comes white space, or the slash that closes it. -/
theorem inner_apart (proper : t.Proper) : ∀ c ∈ t.inner.head?, isBlank c = true := by
  cases named : t.attrs with
  | nil =>
    intro c first
    rw [inner, named] at first
    exact proper.blank c (List.mem_of_mem_head? first)
  | cons a rest =>
    obtain ⟨some_lead, blank, -, -⟩ := proper.attrs a (by simp [named])
    obtain ⟨c, more, lead⟩ := List.exists_cons_of_ne_nil some_lead
    intro d first
    obtain rfl : c = d := by simpa [inner, named, Attr.write, lead] using first
    exact blank c (by simp [lead])

/-- A tag's attributes, trimmed on the right, and how they end. -/
theorem inner_ends (proper : t.Proper) : trimRight t.inner = t.attrs.flatMap Attr.write ∧
    t.inner.getLast? ≠ some '/' := by
  have trimmed : trimRight t.trail = [] := by
    rw [trimRight, trimRightBy, List.dropWhile_eq_nil_iff.2, List.reverse_nil]
    exact fun c mem => proper.blank c (List.mem_reverse.1 mem)
  have last : t.trail.getLast? ≠ some '/' := by
    intro slash
    exact absurd (proper.blank '/' (List.mem_of_mem_getLast? slash)) (by decide)
  obtain none | ⟨front, a, whole⟩ := List.eq_nil_or_concat t.attrs
  · rw [inner, none]
    exact ⟨trimmed, last⟩
  · have quoted : t.inner = (front.flatMap Attr.write ++ a.lead ++ a.name ++ "=\"".toList ++ a.value) ++
        '"' :: t.trail := by
      simp [inner, whole, Attr.write]
    constructor
    · rw [quoted, trimRight_append_solid (by decide), trimmed, whole]
      simp [Attr.write]
    · rw [quoted, List.getLast?_append, List.getLast?_cons]
      cases trailed : t.trail.getLast? with
      | none => simp
      | some c => simpa [trailed] using last

theorem inner_leftOpen (proper : t.Proper) (quiet : t.Quiet) : LeftOpen t.inner where
  apart := inner_apart proper
  unended mem := (inside_plain proper quiet).2 (by simp [inside, mem])
  unslashed := (inner_ends proper).2

/-- Behind its name a tag goes on with what is no part of a name. -/
theorem endsName_behind (proper : t.Proper) :
    EndsName (t.inner ++ if t.selfClosing then ['/'] else []) := by
  have slash : Stops (if t.selfClosing then ['/'] else []) := by
    split
    · rintro c ⟨⟩
      exact .inr (.inl rfl)
    · exact nofun
  rw [inner, List.append_assoc]
  exact (stops_attrs proper.attrs (stops_blank_append proper.blank slash)).endsName

theorem voidStart_read (proper : t.Proper) (quiet : t.Quiet) (void : t.isVoid = true)
    (opens : t.opens = true) (text : List Char) :
    voidStart ⟨none, t.write ++ text⟩ = some (t.repaired.write, ⟨some '>', text⟩) := by
  obtain ⟨word, known, named⟩ := isVoid_iff.1 void
  obtain ⟨opening, loose⟩ : t.closing = false ∧ t.selfClosing = false := by simpa [Tag.opens] using opens
  have taken : t.write = '<' :: (word.toList ++ (t.inner ++ ['>'])) := by
    simp [write_inside, inside, opening, loose, named]
  have repaired : t.repaired.write = '<' :: word.toList ++ trimRight t.inner ++ "/>".toList := by
    rw [Tag.repaired, void, opens, (inner_ends proper).1, named]
    simp [write, Tag.opening, ending, opening]
  refine (voidStart_exact _ _ _).2 ⟨t.write, by simp [taken], ?_, after_write t text⟩
  exact ⟨word, known, t.inner, inner_leftOpen proper quiet, taken, repaired⟩

/-- No other tag is changed. -/
theorem voidStart_only (proper : t.Proper) (quiet : t.Quiet) {text v : List Char} {q : Place}
    (reads : voidStart ⟨none, t.write ++ text⟩ = some (v, q)) : t.isVoid = true ∧ t.opens = true := by
  obtain ⟨taken, -, ⟨word, known, attributes, ⟨apart, unended, unslashed⟩, rfl, -⟩, reached⟩ :=
    (voidStart_exact _ _ _).1 reads
  have named := voidLike_proper word known
  have unended' : '>' ∉ word.toList := lacks named.char (by decide)
  have whole : t.inside ++ '>' :: text = (word.toList ++ attributes) ++ '>' :: q.rest := by
    simpa [write_inside] using reached.rest
  have same := (split_unique (inside_plain proper quiet).2 (by simp [unended, unended']) whole).1
  cases closing : t.closing with
  | true =>
    -- The slash of an end tag would be the first letter of the word.
    obtain ⟨first, rest, spelled, letter, -⟩ := named
    have slash : '/' = first := by
      rw [inside, closing, spelled] at same
      exact (List.cons.inj same).1
    rw [← slash] at letter
    exact absurd letter (by decide)
  | false =>
    have same : t.name ++ (t.inner ++ if t.selfClosing then ['/'] else []) = word.toList ++ attributes := by
      simpa [inside, closing] using same
    have ends : Stops attributes := fun c first => .inl (apart c first)
    obtain ⟨spelled, rest⟩ := span_unique same proper.name.char (endsName_behind proper) named.char
      ends.endsName
    refine ⟨isVoid_iff.2 ⟨word, known, spelled.symm⟩, ?_⟩
    cases closes : t.selfClosing with
    | true => simp [← rest, closes] at unslashed
    | false => simp [Tag.opens, closing, closes]

theorem voidEnd_read (void : t.isVoidEnd = true) (proper : t.Proper) (bare : t.Bare) (text : List Char) :
    voidEnd ⟨none, t.write ++ text⟩ = some ([], ⟨some '>', text⟩) := by
  obtain ⟨void, closing⟩ : t.isVoid = true ∧ t.closing = true := by simpa [isVoidEnd] using void
  obtain ⟨word, known, named⟩ := isVoid_iff.1 void
  obtain ⟨no_attrs, loose⟩ := bare closing
  have taken : t.write = '<' :: ('/' :: word.toList ++ (t.trail ++ ['>'])) := by
    simp [write_inside, inside, inner, closing, loose, no_attrs, named]
  refine (voidEnd_exact _ _ _).2 ⟨t.write, by simp [taken], ?_, after_write t text⟩
  exact ⟨word, known, t.trail, proper.blank, taken, rfl⟩

/-- No other tag is dropped. -/
theorem voidEnd_only (proper : t.Proper) (quiet : t.Quiet) {text v : List Char} {q : Place}
    (reads : voidEnd ⟨none, t.write ++ text⟩ = some (v, q)) : t.isVoidEnd = true := by
  obtain ⟨taken, -, ⟨word, known, gap, blank, rfl, -⟩, reached⟩ := (voidEnd_exact _ _ _).1 reads
  have named := voidLike_proper word known
  have unended : '>' ∉ '/' :: word.toList ++ gap := by
    have in_name : '>' ∉ word.toList := lacks named.char (by decide)
    have in_gap : '>' ∉ gap := lacks blank (by decide)
    simp [in_name, in_gap]
  have whole : t.inside ++ '>' :: text = ('/' :: word.toList ++ gap) ++ '>' :: q.rest := by
    simpa [write_inside] using reached.rest
  have same := (split_unique (inside_plain proper quiet).2 unended whole).1
  cases closing : t.closing with
  | false =>
    -- The first letter of a start tag's name would be the slash.
    obtain ⟨first, rest, spelled, letter, -⟩ := proper.name
    have slash : first = '/' := by
      rw [inside, closing, spelled] at same
      exact (List.cons.inj same).1
    rw [slash] at letter
    exact absurd letter (by decide)
  | true =>
    have same : t.name ++ (t.inner ++ if t.selfClosing then ['/'] else []) = word.toList ++ gap := by
      simpa [inside, closing] using same
    have ends : Stops gap := fun c first => .inl (blank c (List.mem_of_mem_head? first))
    obtain ⟨spelled, -⟩ := span_unique same proper.name.char (endsName_behind proper) named.char
      ends.endsName
    rw [isVoidEnd, isVoid_iff.2 ⟨word, known, spelled.symm⟩, closing]
    rfl

/-- A tag that a reader does not read stays. -/
theorem substitute_unread {r : Reader (List Char)} (seeks : SeeksTags r) (proper : t.Proper)
    (quiet : t.Quiet) {text : List Char} (unread : r ⟨none, t.write ++ text⟩ = none) :
    substitute r (t.write ++ text) = t.write ++ substitute r text := by
  have unsigned : '<' ∉ t.inside ++ ['>'] := by simp [(inside_plain proper quiet).1]
  rw [write_inside, List.cons_append] at unread ⊢
  exact seeks.substitute_unread unsigned unread

theorem substitute_voidStart (proper : t.Proper) (quiet : t.Quiet) (text : List Char) :
    substitute voidStart (t.write ++ text) = t.repaired.write ++ substitute voidStart text := by
  obtain ⟨takes, passive, -⟩ := voidStart_seeksTags
  by_cases open_void : t.isVoid = true ∧ t.opens = true
  · exact substitute_read takes passive (voidStart_read proper quiet open_void.1 open_void.2 text)
  · have unread : voidStart ⟨none, t.write ++ text⟩ = none := by
      refine unread_iff.2 fun v q reads => ?_
      exact open_void (voidStart_only proper quiet reads)
    rw [substitute_unread voidStart_seeksTags proper quiet unread, repaired, if_neg (by simpa using open_void)]

theorem substitute_voidEnd (proper : t.Proper) (quiet : t.Quiet) (bare : t.Bare) (text : List Char) :
    substitute voidEnd (t.write ++ text) =
      (if t.isVoidEnd then [] else t.write) ++ substitute voidEnd text := by
  obtain ⟨takes, passive, -⟩ := voidEnd_seeksTags
  by_cases void : t.isVoidEnd = true
  · rw [if_pos void]
    exact substitute_read takes passive (voidEnd_read void proper bare text)
  · have unread : voidEnd ⟨none, t.write ++ text⟩ = none := by
      refine unread_iff.2 fun v q reads => ?_
      exact void (voidEnd_only proper quiet reads)
    rw [if_neg void, substitute_unread voidEnd_seeksTags proper quiet unread]

theorem Proper.repaired (proper : t.Proper) : t.repaired.Proper := by
  unfold Tag.repaired
  split
  · exact ⟨proper.name, proper.attrs, nofun⟩
  · exact proper

theorem Quiet.repaired (quiet : t.Quiet) : t.repaired.Quiet := by
  unfold Tag.repaired
  split
  · exact quiet
  · exact quiet

theorem Bare.repaired (bare : t.Bare) : t.repaired.Bare := by
  unfold Tag.repaired
  split
  · next open_void =>
    intro closing
    have closing : t.closing = true := closing
    simp [opens, closing] at open_void
  · exact bare

/-- Of the element of a tag nothing is changed. -/
theorem repaired_same (t : Tag) : t.repaired.name = t.name ∧ t.repaired.closing = t.closing ∧
    t.repaired.attrs = t.attrs := by
  unfold Tag.repaired
  split
  · exact ⟨rfl, rfl, rfl⟩
  · exact ⟨rfl, rfl, rfl⟩

theorem isVoid_repaired (t : Tag) : t.repaired.isVoid = t.isVoid := by
  rw [isVoid, (repaired_same t).1, isVoid]

theorem repaired_other (other : t.isVoid = false) : t.repaired = t := by
  rw [repaired, other]
  rfl

theorem opens_repaired (t : Tag) : t.repaired.opens = (t.opens && !t.isVoid) := by
  cases void : t.isVoid with
  | false => simp [repaired_other void]
  | true =>
    unfold repaired
    split
    · simp [opens]
    · next closed => simpa [void] using closed

end Tag

/-! ### Documents -/

/-- What stands outside of what was read. -/
def outside {α : Type} (c : Cut α) : List Char := (c.hits.map Hit.passed).flatten ++ c.tail

theorem outside_append {α : Type} (c d : Cut α) : outside (c ++ d) = outside c ++ outside d := by
  obtain ⟨hits, tail⟩ := c
  obtain ⟨hits', tail'⟩ := d
  cases hits' <;> simp [Cut.append_def, Cut.join, outside]

theorem outside_map {α β : Type} (f : α → β) (c : Cut α) : outside (Cut.map f c) = outside c := by
  rw [outside, Cut.map, List.map_map]
  rfl

namespace Document

variable {d : Document}

/-- A document in which tags are tags whatever a reader asks of them. -/
structure Clean (d : Document) : Prop where
  proper : d.Proper
  quiet : d.Quiet
  bare : ∀ hit ∈ d.hits, hit.value.Bare

/-- The document without some of its tags. The texts before and behind each come together. -/
def without (drop : Tag → Bool) (d : Document) : Document :=
  d.hits.foldr
    (fun hit rest => Cut.passing hit.passed ++ if drop hit.value then rest else Cut.piece hit.value ++ rest)
    (Cut.passing d.tail)

theorem without_cons (drop : Tag → Bool) (hit : Hit Tag) (hits : List (Hit Tag)) (tail : List Char) :
    without drop ⟨hit :: hits, tail⟩ = Cut.passing hit.passed ++
      if drop hit.value then without drop ⟨hits, tail⟩
      else Cut.piece hit.value ++ without drop ⟨hits, tail⟩ := rfl

theorem values_without (drop : Tag → Bool) (d : Document) :
    (d.without drop).values = d.values.filter fun t => !drop t := by
  obtain ⟨hits, tail⟩ := d
  induction hits with
  | nil => rfl
  | cons hit rest ih =>
    have whole : Cut.values ⟨hit :: rest, tail⟩ = hit.value :: Cut.values ⟨rest, tail⟩ := rfl
    rw [without_cons, whole, Cut.values_append, Cut.values_passing, List.nil_append]
    cases dropped : drop hit.value with
    | true => simpa [dropped] using ih
    | false => simpa [dropped, Cut.values_append] using ih

theorem outside_without (drop : Tag → Bool) (d : Document) : outside (d.without drop) = outside d := by
  obtain ⟨hits, tail⟩ := d
  induction hits with
  | nil => rfl
  | cons hit rest ih =>
    have whole : outside ⟨hit :: rest, tail⟩ = hit.passed ++ outside ⟨rest, tail⟩ := by simp [outside]
    have passed : outside (Cut.passing hit.passed : Document) = hit.passed := by simp [outside, Cut.passing]
    have piece : outside (Cut.piece hit.value : Document) = [] := by simp [outside, Cut.piece]
    rw [without_cons, whole, outside_append, passed]
    cases drop hit.value with
    | true => simpa using ih
    | false => simpa [outside_append, piece] using ih

theorem write_append (c d : Document) : write (c ++ d) = c.write ++ d.write := by
  rw [write, Cut.map_append, Cut.fill_append]
  rfl

theorem write_without (drop : Tag → Bool) (d : Document) :
    (d.without drop).write = (Cut.map (fun t => if drop t then [] else t.write) d).fill := by
  obtain ⟨hits, tail⟩ := d
  induction hits with
  | nil => rfl
  | cons hit rest ih =>
    have passed : write (Cut.passing hit.passed) = hit.passed := by simp [write]
    have piece : write (Cut.piece hit.value) = hit.value.write := by simp [write]
    rw [without_cons, write_append, passed]
    cases dropped : drop hit.value with
    | true => simp [ih, dropped, Cut.map, Cut.fill]
    | false => simp [write_append, piece, ih, dropped, Cut.map, Cut.fill]

theorem unsigned_iff : (∀ text ∈ d.texts, '<' ∉ text) ↔ '<' ∉ outside d := by
  simp [texts, outside, not_or, or_imp, forall_and]

/-- The start tags of elements that hold nothing close themselves, and their end tags are gone. -/
def repaired (d : Document) : Document := without Tag.isVoidEnd (Cut.map Tag.repaired d)

theorem values_repaired (d : Document) :
    d.repaired.values = (d.values.filter fun t => !t.isVoidEnd).map Tag.repaired := by
  have same : ∀ t : Tag, t.repaired.isVoidEnd = t.isVoidEnd := by
    intro t
    rw [Tag.isVoidEnd, Tag.isVoid_repaired, (Tag.repaired_same t).2.1, Tag.isVoidEnd]
  have mapped : (Cut.map Tag.repaired d).values = d.values.map Tag.repaired := by
    simp [Cut.values, Cut.map]
  rw [repaired, values_without, mapped, List.filter_map]
  congr 2
  funext t
  simp [same]

theorem outside_repaired (d : Document) : outside d.repaired = outside d := by
  rw [repaired, outside_without, outside_map]

theorem clean_of_values (tags : ∀ t ∈ d.values, t.Proper ∧ t.Quiet ∧ t.Bare) (unsigned : '<' ∉ outside d) :
    Clean d := by
  have each : ∀ hit ∈ d.hits, hit.value.Proper ∧ hit.value.Quiet ∧ hit.value.Bare :=
    fun hit mem => tags hit.value (List.mem_map_of_mem mem)
  exact ⟨⟨fun hit mem => (each hit mem).1, unsigned_iff.2 unsigned⟩, fun hit mem => (each hit mem).2.1,
    fun hit mem => (each hit mem).2.2⟩

theorem Clean.values (clean : Clean d) : ∀ t ∈ d.values, t.Proper ∧ t.Quiet ∧ t.Bare := by
  intro t mem
  obtain ⟨hit, held, rfl⟩ := List.mem_map.1 mem
  exact ⟨clean.proper.tags hit held, clean.quiet hit held, clean.bare hit held⟩

theorem Clean.repaired (clean : Clean d) : Clean d.repaired := by
  refine clean_of_values (fun t mem => ?_) ?_
  · rw [values_repaired] at mem
    obtain ⟨t', mem', rfl⟩ := List.mem_map.1 mem
    obtain ⟨proper, quiet, bare⟩ := clean.values t' (List.mem_of_mem_filter mem')
    exact ⟨proper.repaired, quiet.repaired, bare.repaired⟩
  · rw [outside_repaired]
    exact unsigned_iff.1 clean.proper.texts

/-- Repairing goes through a document tag by tag. -/
theorem repairVoid_write (clean : Clean d) : repairVoid d.write = d.repaired.write := by
  have closed := voidStart_seeksTags.substitute_write (fun t => t.repaired.write) clean.proper.texts
    fun hit mem => Tag.substitute_voidStart (clean.proper.tags hit mem) (clean.quiet hit mem)
  have rewritten : (Cut.map (fun t => t.repaired.write) d).fill = write (Cut.map Tag.repaired d) := by
    rw [write, Cut.map, Cut.map, Cut.map, List.map_map]
    rfl
  have texts : ∀ text ∈ texts (Cut.map Tag.repaired d), '<' ∉ text := by
    rw [unsigned_iff, outside_map]
    exact unsigned_iff.1 clean.proper.texts
  -- The second pass finds the tags of the document as the first has left them.
  have dropped := voidEnd_seeksTags.substitute_write (fun t => if t.isVoidEnd then [] else t.write) texts
    fun hit mem => by
      obtain ⟨hit, held, rfl⟩ := List.mem_map.1 mem
      exact Tag.substitute_voidEnd (clean.proper.tags hit held).repaired (clean.quiet hit held).repaired
        (clean.bare hit held).repaired
  rw [repairVoid, closed, rewritten, dropped, repaired, write_without]

end Document

/-! ### Balance -/

namespace Tag

variable {t : Tag}

/-- A slash at the end closes a tag and is no part of it. -/
theorem last_unslashed (proper : t.Proper) : (t.name ++ t.inner).getLast? ≠ some '/' := by
  have not_name : '/' ∉ t.name := lacks proper.name.char (by decide)
  rw [List.getLast?_append]
  cases last : t.inner.getLast? with
  | none => exact fun slash => not_name (List.mem_of_mem_getLast? slash)
  | some c =>
    have unslashed := (inner_ends proper).2
    rwa [last] at unslashed

theorem inside_counts (proper : t.Proper) : opensTag t.inside = !t.closing ∧
    closesTag t.inside = t.closing ∧ closesItself t.inside = t.selfClosing := by
  obtain ⟨first, rest, name, letter, -⟩ := proper.name
  have not_sign : ∀ sign ∈ ['/', '!', '?', '>'], first ≠ sign := by
    rintro sign mem rfl
    have each : ∀ sign ∈ ['/', '!', '?', '>'], isAsciiLetter sign = false := by decide
    rw [each first mem] at letter
    exact nomatch letter
  have begins : t.inside.head? = if t.closing then some '/' else some first := by
    cases closing : t.closing <;> simp [inside, closing, name]
  have ends : (t.inside.getLast? == some '/') = t.selfClosing := by
    have unslashed := last_unslashed proper
    cases closes : t.selfClosing with
    | true => simp [inside, closes]
    | false =>
      have last : t.inside.getLast? = (t.name ++ t.inner).getLast? := by
        rw [inside, closes]
        simp only [Bool.false_eq_true, if_false, List.append_nil]
        exact List.getLast?_append_of_ne_nil _ (by simp [name])
      rw [last]
      exact beq_eq_false_iff_ne.2 unslashed
  rw [opensTag, closesTag, closesItself, begins, ends]
  cases closing : t.closing with
  | true => simp
  | false => simp [not_sign]

end Tag

namespace Document

variable {d : Document}

/-- A reader of tags counts those of which it accepts what stands between the signs. -/
theorem countAll_write {r : Reader Unit} {accept : List Char → Bool} (tags : ReadsTags r accept)
    (clean : Clean d) : countAll r d.write = d.values.countP fun t => accept t.inside := by
  obtain ⟨hits, tail⟩ := d
  -- On the tags: the text before one adds nothing to the count.
  induction hits with
  | nil =>
    have passed := tags.countAll_text (clean.proper.texts tail (by simp [texts])) []
    have none_left : countAll r [] = 0 := rfl
    rw [List.append_nil, none_left] at passed
    simpa [write, Cut.map, Cut.fill, Cut.values] using passed
  | cons hit rest ih =>
    have others := ih ⟨clean.proper.rest, fun h mem => clean.quiet h (List.mem_cons_of_mem hit mem),
      fun h mem => clean.bare h (List.mem_cons_of_mem hit mem)⟩
    have proper := clean.proper.tags hit List.mem_cons_self
    obtain ⟨no_sign, no_end⟩ := Tag.inside_plain proper (clean.quiet hit List.mem_cons_self)
    have some_inside : hit.value.inside ≠ [] := by
      obtain ⟨first, more, name, -⟩ := proper.name
      simp [Tag.inside, name]
    have whole : Cut.values ⟨hit :: rest, tail⟩ = hit.value :: Cut.values ⟨rest, tail⟩ := rfl
    have counted := tags.countAll_tag some_inside no_sign no_end (write ⟨rest, tail⟩)
    have text : hit.value.write ++ write ⟨rest, tail⟩ =
        '<' :: hit.value.inside ++ '>' :: write ⟨rest, tail⟩ := by
      simp [Tag.write_inside]
    rw [write_cons, tags.countAll_text (clean.proper.texts hit.passed (by simp [texts])), text, counted,
      others, whole, List.countP_cons]
    cases accept hit.value.inside <;> simp [Nat.add_comm]

/-- Markup is balanced if as many tags leave an element open as there are end tags. -/
theorem balanced_write (clean : Clean d) :
    balanced d.write = true ↔ d.values.countP Tag.opens = d.values.countP Tag.closing := by
  have seen := fun t mem => Tag.inside_counts (clean.values t mem).1
  have opening : countAll startTag d.write = d.values.countP fun t => !t.closing := by
    rw [countAll_write startTag_reads clean, List.countP_congr fun t mem => by rw [(seen t mem).1]]
  have closing : countAll endTag d.write = d.values.countP Tag.closing := by
    rw [countAll_write endTag_reads clean, List.countP_congr fun t mem => by rw [(seen t mem).2.1]]
  have closed : countAll selfClosingTag d.write = d.values.countP Tag.selfClosing := by
    rw [countAll_write selfClosingTag_reads clean, List.countP_congr fun t mem => by rw [(seen t mem).2.2]]
  -- No end tag closes itself, so those that do are start tags.
  have parted : (d.values.countP fun t => !t.closing) =
      d.values.countP Tag.selfClosing + d.values.countP Tag.opens := by
    rw [List.countP_eq_countP_filter_add _ _ Tag.selfClosing, List.countP_filter, List.countP_filter]
    congr 1
    refine List.countP_congr fun t mem => ?_
    cases closing : t.closing with
    | true => simp [((clean.values t mem).2.2 closing).2]
    | false => simp
  rw [balanced, countTags, opening, closing, closed, parted, beq_iff_eq]
  simp only
  omega

theorem countP_repaired (d : Document) :
    d.repaired.values.countP Tag.opens = d.values.countP (fun t => t.opens && !t.isVoid) ∧
      d.repaired.values.countP Tag.closing = d.values.countP fun t => t.closing && !t.isVoid := by
  rw [values_repaired, List.countP_map, List.countP_map, List.countP_filter, List.countP_filter]
  constructor
  · refine List.countP_congr fun t _ => ?_
    rw [Function.comp_apply, Tag.opens_repaired, Tag.isVoidEnd]
    cases closing : t.closing <;> simp [Tag.opens, closing]
  · refine List.countP_congr fun t _ => ?_
    rw [Function.comp_apply, (Tag.repaired_same t).2.1, Tag.isVoidEnd]
    cases closing : t.closing <;> simp

end Document

/-! ### Leaves -/

section

variable {names : List String}

/-- The elements of these names hold nothing, wherever they stand in the tree. -/
structure Hollow (names : List String) (n : Node) : Prop where
  leaves : ∀ e ∈ n.elements, e.1.tag ∈ names → e.2 = []

theorem hollow_elementsOf {ns : List Node} :
    (∀ e ∈ Node.elementsOf ns, e.1.tag ∈ names → e.2 = []) ↔ ∀ n ∈ ns, Hollow names n := by
  induction ns with
  | nil => simp [Node.elementsOf]
  | cons n rest ih =>
    have first : Hollow names n ↔ ∀ e ∈ n.elements, e.1.tag ∈ names → e.2 = [] :=
      ⟨Hollow.leaves, Hollow.mk⟩
    rw [Node.elementsOf, List.forall_mem_append, List.forall_mem_cons, ih, first]

theorem hollow_element {data : Element} {children : List Node} (inner : ∀ n ∈ children, Hollow names n)
    (leaf : data.tag ∈ names → children = []) : Hollow names (.element data children) := by
  refine ⟨?_⟩
  rw [Node.elements, List.forall_mem_cons]
  exact ⟨leaf, hollow_elementsOf.2 inner⟩

theorem hollow_text (content : String) : Hollow names (.text content) := by
  refine ⟨?_⟩
  rw [Node.elements]
  exact List.forall_mem_nil _

/-- No element of these names is open, so that none gets a child. -/
structure HollowBuilding (names : List String) (b : Building) : Prop where
  frames : ∀ f ∈ b.stack, f.data.tag ∉ names ∧ ∀ n ∈ f.children, Hollow names n
  roots : ∀ n ∈ b.roots, Hollow names n

/-- A start tag of these names closes itself, and there is no end tag of them. -/
def Single (names : List String) : Token → Prop
  | .start tag _ selfClosing => tag ∈ names → selfClosing = true
  | .stop tag => tag ∉ names
  | .aside => True

namespace HollowBuilding

variable {b : Building}

theorem append (hollow : HollowBuilding names b) {n : Node} (node : Hollow names n) :
    HollowBuilding names (b.append n) := by
  obtain ⟨stack, roots, count⟩ := b
  obtain ⟨frames, finished⟩ := hollow
  cases stack with
  | nil => exact ⟨frames, List.forall_mem_cons.2 ⟨node, finished⟩⟩
  | cons f rest =>
    obtain ⟨⟨other, inner⟩, outer⟩ := List.forall_mem_cons.1 frames
    exact ⟨List.forall_mem_cons.2 ⟨⟨other, List.forall_mem_cons.2 ⟨node, inner⟩⟩, outer⟩, finished⟩

theorem appendText (hollow : HollowBuilding names b) (text : List Char) :
    HollowBuilding names (b.appendText text) := by
  unfold Building.appendText
  split
  · exact hollow
  · exact hollow.append (hollow_text _)

theorem finish {f : Frame} {last : List Node} (other : f.data.tag ∉ names)
    (inner : ∀ n ∈ f.children, Hollow names n) (inner' : ∀ n ∈ last, Hollow names n) :
    Hollow names (f.finish last) := by
  refine hollow_element (fun n mem => ?_) fun named => absurd named other
  obtain mem | mem := List.mem_append.1 (List.mem_reverse.1 mem)
  · exact inner' n mem
  · exact inner n mem

theorem unwind (stopAt : Option String) {stack : List Frame} {last : List Node}
    (frames : ∀ f ∈ stack, f.data.tag ∉ names ∧ ∀ n ∈ f.children, Hollow names n)
    (inner : ∀ n ∈ last, Hollow names n) :
    (∀ f ∈ (Building.unwind stopAt last stack).1,
        f.data.tag ∉ names ∧ ∀ n ∈ f.children, Hollow names n) ∧
      ∀ n ∈ (Building.unwind stopAt last stack).2, Hollow names n := by
  -- On the open elements: one that is closed is handed to the next as its child, and the next is none
  -- of these names.
  induction stack generalizing last with
  | nil => exact ⟨List.forall_mem_nil _, inner⟩
  | cons f rest ih =>
    obtain ⟨⟨other, held⟩, outer⟩ := List.forall_mem_cons.1 frames
    have closed := finish other held inner
    unfold Building.unwind
    split
    · cases rest with
      | nil => exact ⟨List.forall_mem_nil _, List.forall_mem_singleton.2 closed⟩
      | cons g outer' =>
        obtain ⟨⟨other', held'⟩, outer⟩ := List.forall_mem_cons.1 outer
        exact ⟨List.forall_mem_cons.2 ⟨⟨other', List.forall_mem_cons.2 ⟨closed, held'⟩⟩, outer⟩, List.forall_mem_nil _⟩
    · exact ih outer (List.forall_mem_singleton.2 closed)

theorem close (hollow : HollowBuilding names b) (stopAt : Option String) :
    HollowBuilding names (b.close stopAt) := by
  obtain ⟨frames, finished⟩ := unwind stopAt hollow.frames (List.forall_mem_nil _)
  exact ⟨frames, List.forall_mem_append.2 ⟨finished, hollow.roots⟩⟩

theorem appendToken (hollow : HollowBuilding names b) {t : Token} (single : Single names t) :
    HollowBuilding names (b.appendToken t) := by
  cases t with
  | aside => exact hollow
  | stop tag =>
    rw [Building.appendToken]
    split
    · exact hollow.close _
    · exact hollow
  | start tag attributes selfClosing =>
    have counted : HollowBuilding names { b with count := b.count + 1 } := ⟨hollow.frames, hollow.roots⟩
    cases selfClosing with
    | true => exact counted.append (hollow_element (List.forall_mem_nil _) fun _ => rfl)
    | false =>
      have other : tag ∉ names := fun named => Bool.false_ne_true (single named)
      exact ⟨List.forall_mem_cons.2 ⟨⟨other, List.forall_mem_nil _⟩, hollow.frames⟩, hollow.roots⟩

/-- What one tag preserves a whole run preserves. -/
theorem run (hollow : HollowBuilding names b) {hits : List (Hit Token)}
    (single : ∀ hit ∈ hits, Single names hit.value) :
    HollowBuilding names (hits.foldl Building.step b) := by
  induction hits generalizing b with
  | nil => exact hollow
  | cons hit rest ih =>
    obtain ⟨first, others⟩ := List.forall_mem_cons.1 single
    exact ih ((hollow.appendText hit.passed).appendToken first) others

theorem tree (hollow : HollowBuilding names b) : Hollow names b.finish := by
  have roots := (hollow.close none).roots
  rw [Building.finish]
  split
  · next n only => exact roots n (by simp [only])
  · refine ⟨?_⟩
    rw [Node.elements, hollow_elementsOf]
    exact fun n mem => roots n (List.mem_reverse.1 mem)

end HollowBuilding

/-- Elements whose start tags close themselves are leaves, whatever else stands in the text. -/
theorem hollow_treeOf {c : Cut Token} (single : ∀ t ∈ c.values, Single names t) :
    Hollow names (treeOf c) := by
  have empty : HollowBuilding names {} := ⟨List.forall_mem_nil _, List.forall_mem_nil _⟩
  have run := empty.run fun hit mem => single hit.value (List.mem_map_of_mem mem)
  exact (run.appendText c.tail).tree

end

/-! ### What repairing owes to a document -/

/-- The name of a start tag, and the attributes that are written in it. -/
def Token.head? : Token → Option (String × OrderedMap (List Char))
  | .start tag attributes _ => some (tag, writtenAttributes attributes)
  | .stop _ | .aside => none

/-- The text has the elements of the document, and those that hold nothing close themselves. -/
structure Mended (d : Document) (text : List Char) : Prop where
  /-- It is markup as the document is, and other tags are in it as they were written. -/
  others : ∃ d' : Document, d'.Clean ∧ d'.write = text ∧
    (d'.values.filter fun t => !t.isVoid) = d.values.filter fun t => !t.isVoid
  /-- Elements that hold nothing close themselves and have no end tags. -/
  single : ∀ t ∈ (tokens text).values, Single voidLike t
  heads : (tokens text).values.filterMap Token.head? = (tokens d.write).values.filterMap Token.head?
  outside : outside (tokens text) = outside (tokens d.write)
  count : elementCount text = elementCount d.write
  leaves : Legible text → ∃ tree, parse text = .ok tree ∧ Hollow voidLike tree
  /-- The only text of these that is not read has a reference of too many digits. -/
  unread : ¬Legible text → ∃ count, mostDigits < count ∧ parse text = .error (.tooManyDigits count)
  balance : balanced text = true ↔ d.values.countP (fun t => t.opens && !t.isVoid) =
    d.values.countP fun t => t.closing && !t.isVoid

namespace Tag

variable {t : Tag}

theorem token_single (void_opens : t.isVoid = true → t.closing = false ∧ t.selfClosing = true) :
    Single voidLike t.token := by
  have known : String.ofList t.name ∈ voidLike → t.isVoid = true := List.contains_iff_mem.2
  unfold token
  split
  · next closing =>
    intro named
    rw [(void_opens (known named)).1] at closing
    exact nomatch closing
  · exact fun named => (void_opens (known named)).2

theorem head?_token (proper : t.Proper) : ∀ t' : Tag, t'.Proper → t'.name = t.name → t'.attrs = t.attrs →
    t'.closing = t.closing → t'.token.head? = t.token.head? := by
  intro t' proper' name attrs closing
  have read : writtenAttributes t'.inner = writtenAttributes t.inner := by
    refine OrderedMap.eq_of_entries ?_
    rw [inner, inner, writtenAttributes_attrs proper'.attrs proper'.blank,
      writtenAttributes_attrs proper.attrs proper.blank, attrs]
  unfold token
  rw [closing, name]
  split
  · rfl
  · rw [Token.head?, Token.head?, read]

end Tag

namespace Document

variable {d : Document}

theorem single_repaired (d : Document) : ∀ t ∈ d.repaired.values, Single voidLike t.token := by
  intro t mem
  rw [values_repaired] at mem
  obtain ⟨t', mem', rfl⟩ := List.mem_map.1 mem
  have kept : t'.isVoidEnd = false := by simpa using List.of_mem_filter mem'
  refine Tag.token_single fun void => ?_
  rw [Tag.isVoid_repaired] at void
  have opening : t'.closing = false := by simpa [Tag.isVoidEnd, void] using kept
  have shut := Tag.opens_repaired t'
  rw [void, Bool.not_true, Bool.and_false, Tag.opens, (Tag.repaired_same t').2.1, opening] at shut
  exact ⟨(Tag.repaired_same t').2.1.trans opening, by simpa using shut⟩

theorem heads_repaired (clean : Clean d) : (d.repaired.values.map Tag.token).filterMap Token.head? =
    (d.values.map Tag.token).filterMap Token.head? := by
  rw [values_repaired, List.map_map, List.filterMap_map, List.filterMap_map, List.filterMap_filter]
  refine List.filterMap_congr fun t mem => ?_
  obtain ⟨name, closing, attrs⟩ := Tag.repaired_same t
  have proper := (clean.values t mem).1
  cases dropped : t.isVoidEnd with
  | false => exact Tag.head?_token proper t.repaired proper.repaired name attrs closing
  | true =>
    have closing : t.closing = true := by
      rw [Tag.isVoidEnd, Bool.and_eq_true] at dropped
      exact dropped.2
    simp [Tag.token, closing, Token.head?]

theorem others_repaired (d : Document) : (d.repaired.values.filter fun t => !t.isVoid) =
    d.values.filter fun t => !t.isVoid := by
  have kept : (fun t : Tag => !t.repaired.isVoid && !t.isVoidEnd) = fun t => !t.isVoid := by
    funext t
    rw [Tag.isVoid_repaired, Tag.isVoidEnd]
    cases t.isVoid <;> rfl
  have same : ∀ t ∈ d.values.filter fun t => !t.isVoid, t.repaired = t := fun t mem =>
    Tag.repaired_other (by simpa using List.of_mem_filter mem)
  rw [values_repaired, List.filter_map, List.filter_filter]
  exact (congrArg (fun keep => (d.values.filter keep).map Tag.repaired) kept).trans
    ((List.map_congr_left same).trans (List.map_id _))

theorem values_tokens (clean : Clean d) : (tokens d.write).values = d.values.map Tag.token := by
  rw [tokens_write clean.proper, Cut.values, Cut.values, Cut.map, List.map_map, List.map_map]
  rfl

end Document

theorem elementCount_eq (text : List Char) :
    elementCount text = ((tokens text).values.filterMap Token.head?).length := by
  rw [elementCount, List.length_filterMap_eq_countP]
  congr 1
  funext t
  cases t <;> rfl

/-- Repairing closes the elements that hold nothing and changes nothing else. -/
theorem repairVoid_mends {d : Document} (clean : d.Clean) : Mended d (repairVoid d.write) := by
  have text := Document.repairVoid_write clean
  have values := Document.values_tokens clean.repaired
  have heads := Document.heads_repaired clean
  rw [← values, ← Document.values_tokens clean, ← text] at heads
  have single : ∀ t ∈ (tokens (repairVoid d.write)).values, Single voidLike t := by
    rw [text, values]
    exact List.forall_mem_map.2 d.single_repaired
  constructor
  · exact ⟨d.repaired, clean.repaired, text.symm, d.others_repaired⟩
  · exact single
  · exact heads
  · rw [text, Document.tokens_write clean.proper, Document.tokens_write clean.repaired.proper,
      outside_map, outside_map, Document.outside_repaired]
  · rw [elementCount_eq, elementCount_eq, heads]
  · exact fun legible => ⟨_, parse_legible legible, hollow_treeOf single⟩
  · exact parse_illegible
  · obtain ⟨opening, closing⟩ := d.countP_repaired
    rw [text, Document.balanced_write clean.repaired, opening, closing]

/-- A path with an end tag, a circle left open, a shape that closes itself, and a name that begins
with that of a line. -/
def sketch : Document where
  hits := [
    ⟨[], ⟨false, "svg".toList, row [("viewBox", "0 0 1 1")], [], false⟩⟩,
    ⟨[], ⟨false, "path".toList, row [("d", "M0 0"), ("d", "/")], [' '], false⟩⟩,
    ⟨" A &lt; ".toList, ⟨true, "path".toList, [], [' '], false⟩⟩,
    ⟨"B".toList, ⟨false, "linearGradient".toList, row [("id", "g")], [' '], false⟩⟩,
    ⟨[], ⟨true, "linearGradient".toList, [], [], false⟩⟩,
    ⟨[], ⟨false, "circle".toList, [], [], false⟩⟩,
    ⟨[], ⟨false, "rect".toList, row [("x", "1")], [' '], true⟩⟩,
    ⟨[], ⟨true, "svg".toList, [], [], false⟩⟩]
  tail := []

theorem repairVoid_mends_sketch : sketch.Clean ∧ Mended sketch (repairVoid sketch.write) ∧
    String.ofList sketch.write = "<svg viewBox=\"0 0 1 1\"><path d=\"M0 0\" d=\"/\" > A &lt; </path >B" ++
      "<linearGradient id=\"g\" ></linearGradient><circle><rect x=\"1\" /></svg>" ∧
    String.ofList (repairVoid sketch.write) = "<svg viewBox=\"0 0 1 1\"><path d=\"M0 0\" d=\"/\"/> A &lt; B" ++
      "<linearGradient id=\"g\" ></linearGradient><circle/><rect x=\"1\" /></svg>" ∧
    balanced sketch.write = false ∧ balanced (repairVoid sketch.write) = true := by
  have clean : sketch.Clean := ⟨by decide +kernel, by decide +kernel, by decide +kernel⟩
  exact ⟨clean, repairVoid_mends clean, by decide +kernel, by decide +kernel, by decide +kernel,
    by decide +kernel⟩

def shutPath : Tag := ⟨false, "path".toList, [], [], true⟩

/-- A text with a reference of too many digits before a path. -/
def overlongLabel : Document := ⟨[⟨overlong, shutPath⟩], []⟩

/-- Not every document is read once it is repaired. -/
theorem not_every_repair_reads : ¬∀ d : Document, d.Clean →
    ∃ tree, parse (repairVoid d.write) = .ok tree ∧ Hollow voidLike tree := by
  intro every
  have plain : '<' ∉ outside overlongLabel := by simp [outside, overlongLabel, overlong, List.mem_replicate]
  have clean : overlongLabel.Clean := by
    refine Document.clean_of_values (List.forall_mem_singleton.2 ?_) plain
    exact ⟨by decide, List.forall_mem_nil _, by decide⟩
  have illegible : ¬Legible (repairVoid overlongLabel.write) := by
    intro legible
    rw [Document.repairVoid_write clean, Legible, Document.tokens_write clean.repaired.proper] at legible
    have kept : shutPath.repaired.isVoidEnd = false := by decide
    refine overlong_unreadable (legible overlong ?_)
    simp [spelledIn, Document.repaired, Document.without, overlongLabel, kept, Cut.map, Cut.append_def,
      Cut.join, Cut.passing, Cut.piece]
  obtain ⟨tree, parses, -⟩ := every overlongLabel clean
  obtain ⟨count, -, fails⟩ := parse_illegible illegible
  rw [parses] at fails
  cases fails

end DesignComponents.Markup
