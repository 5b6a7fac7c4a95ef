import DesignComponents.Markup.Token
import DesignComponents.Proofs.Text.CharClass
import DesignComponents.Proofs.Text.Cut

/-! How tags are read. A tag that is written with a proper name and attributes in double quotes is
read as one token, whatever follows it, and its attributes are read as they were written. -/

set_option autoImplicit false

namespace DesignComponents.Markup

open Text Reader

/-! ### Where tokens stand -/

theorem tagRest_after {quote : Option Char} {done text inner rest : List Char} {selfClosing : Bool}
    (reads : tagRest quote done text = some ((inner, selfClosing), rest)) :
    ∃ taken, text = taken ++ '>' :: rest := by
  induction text generalizing quote done with
  | nil => simp [tagRest] at reads
  | cons c more ih =>
    have further : (∃ taken, more = taken ++ '>' :: rest) →
        ∃ taken, c :: more = taken ++ '>' :: rest := by
      rintro ⟨taken, rfl⟩
      exact ⟨c :: taken, rfl⟩
    -- In quotes, at the end, at a slash before it, at another sign, or at any other character.
    rw [tagRest] at reads
    split at reads
    · exact further (ih reads)
    split at reads
    · next closes =>
      simp only [beq_iff_eq] at closes
      simp only [Option.some.injEq, Prod.mk.injEq] at reads
      exact ⟨[], by simp [closes, reads.2]⟩
    split at reads
    · next closes =>
      simp only [Bool.and_eq_true, beq_iff_eq] at closes
      simp only [Option.some.injEq, Prod.mk.injEq] at reads
      cases more with
      | nil => simp at closes
      | cons d more => exact ⟨[c], by simp_all⟩
    split at reads
    · simp at reads
    · exact further (ih reads)

theorem tagInner_after {p q : Place} {x : List Char × Bool} (reads : tagInner p = some (x, q)) :
    ∃ taken, p.After (taken ++ ['>']) q := by
  simp only [tagInner, Option.map_eq_some_iff, Prod.mk.injEq, Prod.exists] at reads
  obtain ⟨inner, selfClosing, rest, reads, -, rfl⟩ := reads
  obtain ⟨taken, same⟩ := tagRest_after reads
  exact ⟨taken, by simpa using same, by simp⟩

theorem tagName_after {p q : Place} {name : List Char} (reads : tagName p = some (name, q)) :
    p.After name q := by
  simp only [tagName, bind_eq_some, one_eq_some, many_eq_some, pure_eq_some] at reads
  obtain ⟨first, m, ⟨-, one⟩, rest, m', ⟨-, -, others⟩, rfl, rfl⟩ := reads
  exact one.trans others

/-- Every token starts with the sign that no text holds. -/
theorem token_after {p q : Place} {t : Token} (reads : token p = some (t, q)) :
    ∃ taken, p.After ('<' :: taken) q := by
  simp only [token, orElse_eq_some] at reads
  obtain reads | ⟨-, reads | ⟨-, reads⟩⟩ := reads
  · simp only [tagToken, bind_eq_some, char_eq_some, optional_eq_some, pure_eq_some] at reads
    obtain ⟨-, m, mark, slash, m₁, slashed, name, m₂, named, x, m₃, inner, -, rfl⟩ := reads
    obtain ⟨last, inner⟩ := tagInner_after inner
    have named := tagName_after named
    obtain ⟨-, slashed, -⟩ | ⟨-, -, rfl⟩ := slashed
    · exact ⟨_, ((mark.trans slashed).trans named).trans inner⟩
    · exact ⟨_, (mark.trans named).trans inner⟩
  · simp only [declaration, bind_eq_some, text_eq_some, many_eq_some, char_eq_some,
      pure_eq_some] at reads
    obtain ⟨-, m, mark, inner, m₁, ⟨-, -, passed⟩, -, m₂, close, -, rfl⟩ := reads
    exact ⟨_, (mark.trans passed).trans close⟩
  · simp only [instruction, bind_eq_some, text_eq_some, pure_eq_some] at reads
    obtain ⟨-, m, mark, inner, m₁, passed, -, rfl⟩ := reads
    exact ⟨_, mark.trans (through_after (by simp) passed)⟩

theorem token_takes : Takes token := by
  intro p v q reads
  obtain ⟨taken, reached⟩ := token_after reads
  exact ⟨_, by simp, reached⟩

theorem token_none {before : Option Char} {c : Char} {rest : List Char} (plain : c ≠ '<') :
    token ⟨before, c :: rest⟩ = none := by
  refine unread_iff.2 fun t q reads => ?_
  obtain ⟨taken, reached⟩ := token_after reads
  have same := reached.rest
  simp only [List.cons_append, List.cons.injEq] at same
  exact plain same.1

theorem passive_tagInner : Passive tagInner := by
  intro before text
  simp only [tagInner]
  cases tagRest none [] text <;> simp

theorem passive_token : Passive token := by
  refine Passive.orElse ?_ (Passive.orElse ?_ ?_)
  · refine (passive_char '<').bind fun _ => (passive_char '/').optional.bind fun slash => ?_
    refine Passive.bind ?_ fun name => passive_tagInner.bind fun inner => passive_pure _
    exact (passive_one _).bind fun _ => (passive_many _).bind fun _ => passive_pure _
  · exact (passive_text _).bind fun _ => (passive_many _).bind fun _ =>
      (passive_char _).bind fun _ => passive_pure _
  · exact (passive_text _).bind fun _ => (passive_through _).bind fun _ => passive_pure _

/-- Text without a tag's sign is passed over. -/
theorem cutAt_token_text {before : Option Char} {text rest : List Char} (plain : '<' ∉ text) :
    cutAt token ⟨before, text ++ rest⟩ = Cut.passing text ++ cutAt token ⟨none, rest⟩ := by
  rw [cutAt_pass token_takes, cutAt_blind token_takes passive_token _ none]
  intro passed ahead same some_ahead
  obtain ⟨c, more, rfl⟩ := List.exists_cons_of_ne_nil some_ahead
  refine token_none fun sign => plain ?_
  simp [same, sign]

theorem cutAt_token_read {before : Option Char} {t : Token} {written rest : List Char}
    (reads : token ⟨before, written ++ rest⟩ = some (t, ⟨some '>', rest⟩)) :
    cutAt token ⟨before, written ++ rest⟩ = Cut.piece t ++ cutAt token ⟨none, rest⟩ := by
  rw [cutAt_some token_takes reads, cutAt_blind token_takes passive_token (some '>') none]

/-! ### Written tags -/

/-- A letter and characters that may follow it in a tag's name. -/
def ProperTag (tag : List Char) : Prop :=
  ∃ first rest, tag = first :: rest ∧ isAsciiLetter first = true ∧ ∀ c ∈ rest, isTagChar c = true

theorem properTag_iff {tag : List Char} :
    ProperTag tag ↔ tag.head?.any isAsciiLetter = true ∧ ∀ c ∈ tag.tail, isTagChar c = true := by
  cases tag <;> simp [ProperTag]

instance (tag : List Char) : Decidable (ProperTag tag) :=
  decidable_of_iff (tag.head?.any isAsciiLetter = true ∧ tag.tail.all isTagChar = true)
    (by simp [properTag_iff])

theorem ProperTag.char {tag : List Char} (proper : ProperTag tag) : ∀ c ∈ tag, isTagChar c = true := by
  obtain ⟨first, rest, rfl, letter, all⟩ := proper
  intro c mem
  obtain rfl | mem := List.mem_cons.1 mem
  · simp [isTagChar, isWord_of_letter letter]
  · exact all c mem

theorem not_blank_of_isTagChar {c : Char} (char : isTagChar c = true) : isBlank c = false := by
  by_contra blank
  rw [Bool.not_eq_false] at blank
  simp only [isTagChar, isWord_of_isBlank blank, Bool.false_or, Bool.or_eq_true, beq_iff_eq] at char
  obtain (rfl | rfl) | rfl := char
  · exact absurd blank (by decide)
  · exact absurd blank (by decide)
  · exact absurd blank (by decide)

/-- A name that is read whole, in a tag, as the name of an attribute. -/
def ProperName (name : List Char) : Prop :=
  name ≠ [] ∧ ∀ c ∈ name, isNameChar c = true ∧ c ≠ '<'

/-- A character of a proper name. -/
def isProper (c : Char) : Bool := isNameChar c && c != '<'

theorem properName_iff {name : List Char} :
    ProperName name ↔ name ≠ [] ∧ ∀ c ∈ name, isProper c = true := by
  simp [ProperName, isProper]

instance (name : List Char) : Decidable (ProperName name) :=
  decidable_of_iff (name ≠ [] ∧ name.all isProper = true) (by simp [properName_iff])

theorem isProper_ascii {c : Char} (ascii : isAscii c = true) : isWord c = true → isProper c = true := by
  refine @ascii_induction (fun c => isWord c = true → isProper c = true) ?_ c ascii
  decide +kernel

/-- What stands inside a tag and cannot end it: quotes are closed, and outside of them there is
neither a tag's sign nor its end. -/
def Enclosed (inner : List Char) : Prop :=
  ∀ done rest, tagRest none done (inner ++ rest) = tagRest none (inner.reverse ++ done) rest

theorem enclosed_nil : Enclosed [] := fun _ _ => rfl

theorem Enclosed.append {left right : List Char} (first : Enclosed left) (second : Enclosed right) :
    Enclosed (left ++ right) := by
  intro done rest
  rw [List.append_assoc, first, second, List.reverse_append, List.append_assoc]

/-- A character that has no meaning of its own inside a tag. -/
def isInert (c : Char) : Bool := !(c == '<' || c == '>' || c == '/' || isQuote c)

theorem enclosed_inert {inner : List Char} (inert : ∀ c ∈ inner, isInert c = true) :
    Enclosed inner := by
  induction inner with
  | nil => exact enclosed_nil
  | cons c more ih =>
    have one : Enclosed [c] := by
      intro done rest
      have := inert c (by simp)
      simp only [isInert, Bool.not_eq_true', Bool.or_eq_false_iff, beq_eq_false_iff_ne] at this
      simp [tagRest, quoteAfter, this]
    exact one.append (ih fun d mem => inert d (List.mem_cons_of_mem c mem))

theorem tagRest_open {value : List Char} (clean : '"' ∉ value) (done rest : List Char) :
    tagRest (some '"') done (value ++ '"' :: rest) =
      tagRest none ('"' :: value.reverse ++ done) rest := by
  induction value generalizing done with
  | nil => simp [tagRest, quoteAfter]
  | cons c more ih =>
    simp only [List.mem_cons, not_or] at clean
    have other : c ≠ '"' := Ne.symm clean.1
    simp [tagRest, quoteAfter, other, ih clean.2]

theorem enclosed_quoted {value : List Char} (clean : '"' ∉ value) :
    Enclosed ('"' :: value ++ ['"']) := by
  intro done rest
  have opened := tagRest_open clean ('"' :: done) rest
  simpa [tagRest, quoteAfter, isQuote] using opened

/-- An attribute as it stands in a tag, its value as it is between the quotes. -/
def written (entry : List Char × List Char) : List Char :=
  ' ' :: entry.1 ++ "=\"".toList ++ entry.2 ++ ['"']

/-- A character of an attribute is a sign, or stands in its name or in its value. -/
theorem mem_written {entry : List Char × List Char} {c : Char} (mem : c ∈ written entry) :
    c ∈ entry.1 ∨ c ∈ entry.2 ∨ c ∈ [' ', '=', '"'] := by
  simp only [written, String.reduceToList, List.mem_append, List.mem_cons, List.not_mem_nil,
    or_false] at mem ⊢
  tauto

/-- The name is proper, and the value does not close its quotes. -/
def ProperEntry (entry : List Char × List Char) : Prop :=
  ProperName entry.1 ∧ '"' ∉ entry.2

theorem isInert_of_isNameChar {c : Char} (name : isNameChar c = true) (sign : c ≠ '<') :
    isInert c = true := by
  simp only [isNameChar, Bool.not_eq_true', Bool.or_eq_false_iff, beq_eq_false_iff_ne] at name
  simp [isInert, isQuote, name, sign]

/-- What may follow a tag's name: attributes after a blank, or the end of the tag. -/
def EndsName (rest : List Char) : Prop := ∀ c ∈ rest.head?, isTagChar c = false

theorem tagName_read {tag rest : List Char} (proper : ProperTag tag) (ends : EndsName rest)
    (before : Option Char) :
    tagName ⟨before, tag ++ rest⟩ = some (tag, ⟨tag.getLast?.or before, rest⟩) := by
  obtain ⟨first, others, rfl, letter, all⟩ := proper
  simp only [tagName, bind_eq_some, one_eq_some, many_eq_some, pure_eq_some]
  have reached := Place.after_mk before (first :: others) rest
  obtain ⟨m, one, many⟩ := Place.after_cons.1 reached
  exact ⟨first, m, ⟨letter, one⟩, others, ⟨_, rest⟩, ⟨all, ends, many⟩, rfl, rfl⟩

theorem tagInner_read {inner rest : List Char} (enclosed : Enclosed inner)
    (before : Option Char) :
    tagInner ⟨before, inner ++ '>' :: rest⟩ = some ((inner, false), ⟨some '>', rest⟩) := by
  simp [tagInner, enclosed [], tagRest]

theorem tagInner_read_closing {inner rest : List Char} (enclosed : Enclosed inner)
    (before : Option Char) :
    tagInner ⟨before, inner ++ '/' :: '>' :: rest⟩ = some ((inner, true), ⟨some '>', rest⟩) := by
  simp [tagInner, enclosed [], tagRest]

theorem optional_slash_letter {before : Option Char} {tag rest : List Char} (proper : ProperTag tag) :
    Reader.optional (Reader.char '/') ⟨before, tag ++ rest⟩ = some (none, ⟨before, tag ++ rest⟩) := by
  obtain ⟨first, others, rfl, letter, -⟩ := proper
  have other : first ≠ '/' := by
    rintro rfl
    exact absurd letter (by decide)
  refine optional_eq_some.2 (.inr ⟨?_, rfl, rfl⟩)
  refine unread_iff.2 fun u q reads => ?_
  have same := (char_eq_some.1 reads).rest
  simp only [List.cons_append, List.cons.injEq] at same
  exact other same.1

/-- A start tag is read once its name is, and what follows the name up to its end. -/
theorem token_start_of {before : Option Char} {tag inner ending rest : List Char}
    {selfClosing : Bool} (proper : ProperTag tag) (ends : EndsName ending)
    (inside : ∀ m, tagInner ⟨m, ending⟩ = some ((inner, selfClosing), ⟨some '>', rest⟩)) :
    token ⟨before, '<' :: tag ++ ending⟩ =
      some (.start (String.ofList tag) inner selfClosing, ⟨some '>', rest⟩) := by
  refine orElse_eq_some.2 (.inl ?_)
  simp only [tagToken, bind_eq_some, pure_eq_some]
  exact ⟨(), ⟨some '<', tag ++ ending⟩, rfl, none, _, optional_slash_letter proper, tag, _,
    tagName_read proper ends _, _, _, inside _, rfl, rfl⟩

/-- Of an end tag its name counts, whatever else stands in it. -/
theorem token_stop_of {before : Option Char} {tag inner ending rest : List Char}
    {selfClosing : Bool} (proper : ProperTag tag) (ends : EndsName ending)
    (inside : ∀ m, tagInner ⟨m, ending⟩ = some ((inner, selfClosing), ⟨some '>', rest⟩)) :
    token ⟨before, '<' :: '/' :: tag ++ ending⟩ =
      some (.stop (String.ofList tag), ⟨some '>', rest⟩) := by
  refine orElse_eq_some.2 (.inl ?_)
  simp only [tagToken, bind_eq_some, pure_eq_some]
  exact ⟨(), ⟨some '<', '/' :: tag ++ ending⟩, rfl, some (), ⟨some '/', tag ++ ending⟩, rfl,
    tag, _, tagName_read proper ends _, _, _, inside _, rfl, rfl⟩

/-! ### Written attributes -/

theorem givenValue_after {p q : Place} {value : List Char} (reads : givenValue p = some (value, q)) :
    ∃ taken, p.After taken q := by
  simp only [givenValue, valueIn, bareValue, blanks, orElse_eq_some, bind_eq_some, many_eq_some,
    char_eq_some, many1_eq_some, pure_eq_some] at reads
  obtain ⟨_, m, ⟨-, -, lead⟩, _, m₁, sign, _, m₂, ⟨-, -, trail⟩, reads⟩ := reads
  have before := (lead.trans sign).trans trail
  obtain ⟨_, m₃, quote, _, m₄, ⟨-, -, passed⟩, _, m₅, unquote, -, rfl⟩ | ⟨-, reads⟩ := reads
  · exact ⟨_, ((before.trans quote).trans passed).trans unquote⟩
  obtain ⟨_, m₃, quote, _, m₄, ⟨-, -, passed⟩, _, m₅, unquote, -, rfl⟩ |
    ⟨-, -, -, -, bare⟩ := reads
  · exact ⟨_, ((before.trans quote).trans passed).trans unquote⟩
  · exact ⟨_, before.trans bare⟩

theorem attributePair_takes : Takes attributePair := by
  intro p v q reads
  simp only [attributePair, bind_eq_some, many1_eq_some, orElse_eq_some, pure_eq_some] at reads
  obtain ⟨name, m, ⟨some_name, -, -, named⟩, value, m', given, -, rfl⟩ := reads
  obtain given | ⟨-, -, rfl⟩ := given
  · obtain ⟨taken, given⟩ := givenValue_after given
    exact ⟨_, by simp [some_name], named.trans given⟩
  · exact ⟨name, some_name, named⟩

theorem passive_attributePair : Passive attributePair := by
  have valueIn (quote : Char) : Passive (valueIn quote) :=
    (passive_char _).bind fun _ => (passive_many _).bind fun _ => (passive_char _).bind fun _ =>
      passive_pure _
  refine (passive_atLeast 1 _).bind fun name => ?_
  refine Passive.bind (Passive.orElse ?_ (passive_pure _)) fun value => passive_pure _
  refine (passive_many _).bind fun _ => (passive_char _).bind fun _ => (passive_many _).bind fun _ => ?_
  exact (valueIn _).orElse ((valueIn _).orElse (passive_atLeast 1 _))

theorem attributePair_none {before : Option Char} {c : Char} {rest : List Char}
    (blank : isNameChar c = false) : attributePair ⟨before, c :: rest⟩ = none := by
  refine unread_iff.2 fun v q reads => ?_
  simp only [attributePair, bind_eq_some, many1_eq_some] at reads
  obtain ⟨name, m, ⟨some_name, all, -, named⟩, -⟩ := reads
  obtain ⟨d, more, rfl⟩ := List.exists_cons_of_ne_nil some_name
  have same := named.rest
  simp only [List.cons_append, List.cons.injEq] at same
  have := all d (by simp)
  simp [← same.1, blank] at this

theorem attributePair_read {entry : List Char × List Char} (proper : ProperEntry entry)
    (before : Option Char) (rest : List Char) :
    attributePair ⟨before, entry.1 ++ "=\"".toList ++ entry.2 ++ '"' :: rest⟩ =
      some ((String.ofList entry.1, entry.2), ⟨some '"', rest⟩) := by
  obtain ⟨name, value⟩ := entry
  obtain ⟨⟨some_name, all⟩, clean⟩ := proper
  have value_read : valueIn '"' ⟨some '=', '"' :: value ++ '"' :: rest⟩ =
      some (value, ⟨some '"', rest⟩) := by
    simp only [valueIn, bind_eq_some, many_eq_some, pure_eq_some]
    refine ⟨(), ⟨some '"', value ++ '"' :: rest⟩, rfl, value, ⟨_, '"' :: rest⟩,
      ⟨?_, ?_, Place.after_mk _ _ _⟩, (), ⟨some '"', rest⟩, rfl, rfl, rfl⟩
    · intro c mem
      have : c ≠ '"' := fun same => clean (same ▸ mem)
      simpa using this
    · intro c mem
      simp only [List.head?_cons, Option.mem_def, Option.some.injEq] at mem
      simp [← mem]
  have given : givenValue ⟨name.getLast?.or before, '=' :: '"' :: value ++ '"' :: rest⟩ =
      some (value, ⟨some '"', rest⟩) := by
    simp only [givenValue, bind_eq_some]
    exact ⟨[], _, rfl, (), _, rfl, [], _, rfl, orElse_eq_some.2 (.inl value_read)⟩
  simp only [attributePair, bind_eq_some, many1_eq_some, pure_eq_some]
  refine ⟨name, ⟨name.getLast?.or before, '=' :: '"' :: value ++ '"' :: rest⟩,
    ⟨some_name, fun c mem => (all c mem).1, ?_, ?_⟩, value, _, orElse_eq_some.2 (.inl given), rfl, rfl⟩
  · intro c mem
    simp only [List.cons_append, List.head?_cons, Option.mem_def, Option.some.injEq] at mem
    subst mem
    decide
  · simpa using Place.after_mk before name ('=' :: '"' :: value ++ '"' :: rest)

end DesignComponents.Markup
