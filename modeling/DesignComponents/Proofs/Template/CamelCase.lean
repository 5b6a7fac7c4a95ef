import DesignComponents.Proofs.Template.Name

/-! Respelling names in camel case. The pass looks for them in what it takes for a start tag: from a
`<` up to the next `>`, with neither sign in between, be they in a value or not. -/

set_option autoImplicit false

namespace DesignComponents.Template

open Text Reader Markup

/-! ### Names in camel case -/

def camelName : Reader Unit := do
  let _ ← Reader.many1 isAsciiLower
  let _ ← Reader.one isAsciiUpper
  let _ ← Reader.many isWord
  Reader.atEnd

/-- What the pass makes of a name. -/
def respelled (name : List Char) : List Char :=
  if Reader.accepts camelName name then markupName name else name

/-- Small letters, a capital, and word characters. -/
def CamelName (name : List Char) : Prop :=
  ∃ first capital others, name = first ++ capital :: others ∧ first ≠ [] ∧
    (∀ c ∈ first, isAsciiLower c = true) ∧ isAsciiUpper capital = true ∧ ∀ c ∈ others, isWord c = true

theorem CamelName.word {name : List Char} (camel : CamelName name) : ∀ c ∈ name, isWord c = true := by
  obtain ⟨first, capital, others, rfl, -, lower, upper, word⟩ := camel
  intro c mem
  simp only [List.mem_append, List.mem_cons] at mem
  obtain mem | rfl | mem := mem
  · exact isWord_of_letter (by simp [isAsciiLetter, lower c mem])
  · exact isWord_of_letter (by simp [isAsciiLetter, upper])
  · exact word c mem

theorem accepts_camelName {name : List Char} : Reader.accepts camelName name = true ↔ CamelName name := by
  simp only [Reader.accepts, Option.isSome_iff_exists, Prod.exists, camelName, bind_eq_some,
    many1_eq_some, one_eq_some, many_eq_some]
  constructor
  · rintro ⟨_, q, first, m, ⟨some_first, lower, -, reached⟩, capital, m₁, ⟨upper, one⟩, others, m₂,
      ⟨word, -, inside⟩, ends⟩
    refine ⟨first, capital, others, ?_, some_first, lower, upper, word⟩
    have none_left : m₂.rest = [] := by
      unfold atEnd at ends
      split at ends
      · exact List.isEmpty_iff.1 ‹_›
      · exact nomatch ends
    have whole := ((reached.trans one).trans inside).rest
    simpa [Place.start, none_left] using whole
  · rintro ⟨first, capital, others, rfl, some_first, lower, upper, word⟩
    have reached := Place.after_mk none (first ++ capital :: others) []
    rw [List.append_nil] at reached
    obtain ⟨m, named, reached⟩ := Place.after_append.1 reached
    obtain ⟨m₁, one, inside⟩ := Place.after_cons.1 reached
    have stops : ∀ c ∈ m.rest.head?, isAsciiLower c = false := by
      rw [one.rest]
      rintro c ⟨⟩
      exact not_lower_of_upper upper
    exact ⟨(), _, first, m, ⟨some_first, lower, stops, named⟩, capital, m₁, ⟨upper, one⟩, others, _,
      ⟨word, by simp, inside⟩, rfl⟩

theorem respelled_camel {name : List Char} (camel : CamelName name) : respelled name = markupName name :=
  if_pos (accepts_camelName.2 camel)

theorem respelled_other {name : List Char} (other : ¬ CamelName name) : respelled name = name :=
  if_neg fun accepts => other (accepts_camelName.1 accepts)

/-- A name with a hyphen is not in camel case. -/
theorem respelled_hyphen {name : List Char} (hyphen : '-' ∈ name) : respelled name = name :=
  respelled_other fun camel => absurd (camel.word '-' hyphen) (by decide)

theorem isProper_lower {c : Char} (ascii : isAscii c = true) :
    isWord c = true → ∀ d ∈ lowerChar c, isProper d = true := by
  have all : isWord c = true → (lowerChar c).all isProper = true := by
    refine @ascii_induction (fun c => isWord c = true → (lowerChar c).all isProper = true) ?_ c ascii
    decide +kernel
  exact fun word => List.all_eq_true.1 (all word)

theorem properName_propertyChars {name : List Char} (some_name : name ≠ [])
    (each : ∀ c ∈ name, isProper c = true ∧ ∀ d ∈ lowerChar c, isProper d = true) :
    ProperName (Style.propertyChars name) := by
  have hyphenated : ∀ c ∈ Style.hyphenateCapitals name, isProper c = true := by
    intro c mem
    obtain ⟨d, inside, mem⟩ := List.mem_flatMap.1 mem
    split at mem
    · obtain rfl | mem := List.mem_cons.1 mem
      · decide
      · exact (each d inside).2 c mem
    · obtain rfl := List.mem_singleton.1 mem
      exact (each c inside).1
  have some_hyphenated : Style.hyphenateCapitals name ≠ [] := by
    obtain ⟨c, rest, rfl⟩ := List.exists_cons_of_ne_nil some_name
    rw [Style.hyphenateCapitals, List.flatMap_cons]
    split <;> simp
  unfold Style.propertyChars
  split
  · exact properName_iff.2 ⟨some_name, fun c mem => (each c mem).1⟩
  · refine properName_iff.2 ⟨by simp [some_hyphenated], fun c mem => ?_⟩
    obtain mem | mem := List.mem_append.1 mem
    · split at mem
      · obtain rfl := List.mem_singleton.1 mem
        decide
      · simp at mem
    · exact hyphenated c mem

theorem properName_markupName {name : List Char} (some_name : name ≠ [])
    (all : ∀ c ∈ name, isAscii c = true ∧ isWord c = true) : ProperName (markupName name) := by
  have each : ∀ c ∈ name, isProper c = true ∧ ∀ d ∈ lowerChar c, isProper d = true :=
    fun c mem => ⟨isProper_ascii (all c mem).1 (all c mem).2, isProper_lower (all c mem).1 (all c mem).2⟩
  have namespaced : ∀ {mark rest : List Char}, mark ≠ [] → mark.all isProper = true →
      (∀ c ∈ rest, c ∈ name) → ProperName (mark ++ lower rest) := by
    intro mark rest some_mark plain part
    refine properName_iff.2 ⟨by simp [some_mark], fun c mem => ?_⟩
    obtain mem | mem := List.mem_append.1 mem
    · exact List.all_eq_true.1 plain c mem
    · have ascii : rest.all isAscii = true := List.all_eq_true.2 fun d inside => (all d (part d inside)).1
      rw [lower, if_pos ascii] at mem
      obtain ⟨d, inside, mem⟩ := List.mem_flatMap.1 mem
      exact (each d (part d inside)).2 c mem
  unfold markupName
  split
  · exact properName_iff.2 ⟨some_name, fun c mem => (each c mem).1⟩
  · split
    · next rest _ starts =>
      refine namespaced (by decide) (by decide) fun c mem => ?_
      rw [dropPrefix?_eq_some.1 starts]
      exact List.mem_append_right _ mem
    · next rest _ starts =>
      refine namespaced (by decide) (by decide) fun c mem => ?_
      rw [dropPrefix?_eq_some.1 starts]
      exact List.mem_append_right _ mem
    · exact properName_propertyChars some_name each

theorem properName_respelled {name : List Char} (proper : ProperName name)
    (ascii : ∀ c ∈ name, isAscii c = true) : ProperName (respelled name) := by
  by_cases camel : CamelName name
  · rw [respelled_camel camel]
    exact properName_markupName proper.1 fun c mem => ⟨ascii c mem, camel.word c mem⟩
  · rwa [respelled_other camel]

/-! ### What the pass reads in a tag -/

theorem camelAttribute_exact : Exact camelAttribute fun _ taken v =>
    ∃ lead name, isBlank lead = true ∧ CamelName name ∧ taken = lead :: name ++ ['='] ∧
      v = lead :: markupName name ++ ['='] := by
  intro p v q
  simp only [camelAttribute, bind_eq_some, one_eq_some, many1_eq_some, many_eq_some, char_eq_some,
    pure_eq_some]
  constructor
  · rintro ⟨lead, m, ⟨blank, start⟩, first, m₁, ⟨some_first, lower, -, named⟩, capital, m₂,
      ⟨upper, one⟩, others, m₃, ⟨word, -, inside⟩, _, m₄, sign, rfl, rfl⟩
    refine ⟨_, by simp, ⟨lead, first ++ capital :: others, blank,
      ⟨first, capital, others, rfl, some_first, lower, upper, word⟩, rfl, rfl⟩, ?_⟩
    simpa using (((start.trans named).trans one).trans inside).trans sign
  · rintro ⟨taken, -, ⟨lead, name, blank, ⟨first, capital, others, rfl, some_first, lower, upper, word⟩,
      rfl, rfl⟩, reached⟩
    obtain ⟨m₃, reached, sign⟩ := Place.after_append.1 reached
    obtain ⟨m, start, reached⟩ := Place.after_cons.1 reached
    obtain ⟨m₁, named, reached⟩ := Place.after_append.1 reached
    obtain ⟨m₂, one, inside⟩ := Place.after_cons.1 reached
    refine ⟨lead, m, ⟨blank, start⟩, first, m₁, ⟨some_first, lower, ?_, named⟩, capital, m₂,
      ⟨upper, one⟩, others, m₃, ⟨word, ?_, inside⟩, (), q, sign, rfl, rfl⟩
    · rw [one.rest]
      rintro c ⟨⟩
      exact not_lower_of_upper upper
    · rw [sign.rest]
      rintro c ⟨⟩
      decide

theorem camelAttribute_takes : Takes camelAttribute := camelAttribute_exact.takes

theorem camelAttribute_splits_head {before : Option Char} {front back : List Char} {c : Char}
    (head : back.head? = some c) (separates : Separates c) :
    Splits camelAttribute before front back := by
  refine splits_of_uncrossed camelAttribute_exact.regular
    (uncrossed_of_head camelAttribute_takes ?_ head)
  intro p q v taken reads reached mem
  obtain ⟨taken', -, ⟨lead, name, -, camel, rfl, -⟩, reached'⟩ := (camelAttribute_exact _ _ _).1 reads
  rw [reached.unique reached', List.cons_append, List.tail_cons, List.mem_append,
    List.mem_singleton] at mem
  obtain mem | rfl := mem
  · exact absurd (camel.word c mem) (by simp [separates.1])
  · exact separates.2.1 rfl

theorem camelAttribute_splits_last {before : Option Char} {front back : List Char}
    (last : front.getLast? = some '"') : Splits camelAttribute before front back := by
  refine splits_of_uncrossed camelAttribute_exact.regular
    (uncrossed_of_last camelAttribute_takes ?_ last)
  intro p q v taken reads reached mem
  obtain ⟨taken', -, ⟨lead, name, blank, camel, rfl, -⟩, reached'⟩ := (camelAttribute_exact _ _ _).1 reads
  rw [reached.unique reached', List.dropLast_concat, List.mem_cons] at mem
  obtain rfl | mem := mem
  · exact absurd blank (by decide)
  · exact absurd (camel.word _ mem) (by decide)

theorem camelAttribute_notFound {before : Option Char} {text : List Char} (clean : '=' ∉ text) :
    foundAfter camelAttribute before text = false := by
  refine (foundAfter_eq_false camelAttribute_takes).2 fun passed ahead same => ?_
  refine unread_iff.2 fun v q reads => ?_
  obtain ⟨taken, -, ⟨lead, name, -, -, rfl, -⟩, reached⟩ := (camelAttribute_exact _ _ _).1 reads
  have rest : ahead = lead :: name ++ ['='] ++ q.rest := reached.rest
  exact clean (by simp [same, rest])

theorem camelAttribute_quiet {before : Option Char} {text : List Char} (clean : '=' ∉ text) :
    substituteAt camelAttribute before text = text :=
  substituteAt_of_notFound camelAttribute_takes (camelAttribute_notFound clean)

/-- What comes before a sign that it does not hold. -/
theorem takeWhile_sign {n : List Char} (clean : '=' ∉ n) (more : List Char) :
    (n ++ '=' :: more).takeWhile (· != '=') = n := by
  have all : ∀ c ∈ n, (c != '=') = true := by
    intro c mem
    simpa using fun same : c = '=' => clean (same ▸ mem)
  rw [List.takeWhile_append_of_pos all]
  simp

/-- Where a blank stands before a name and the sign after it, nothing else can be read. -/
theorem camelName_of_reads {name passed ahead v : List Char} {before : Option Char} {q : Place}
    (proper : ProperName name) (same : ' ' :: name ++ "=\"".toList = passed ++ ahead)
    (reads : camelAttribute ⟨before, ahead⟩ = some (v, q)) : CamelName name := by
  obtain ⟨taken, -, ⟨lead, camel, blank, shape, rfl, -⟩, reached⟩ := (camelAttribute_exact _ _ _).1 reads
  have rest : ahead = lead :: camel ++ '=' :: q.rest := by
    have := reached.rest
    rwa [List.append_assoc] at this
  cases passed with
  | nil =>
    rw [rest] at same
    have whole : name ++ '=' :: ['"'] = camel ++ '=' :: q.rest := (List.cons.inj same).2
    have left := takeWhile_sign (fun mem => absurd (proper.2 _ mem).1 (by decide)) ['"']
    have right := takeWhile_sign (fun mem => absurd (shape.word _ mem) (by decide)) q.rest
    rwa [← left, whole, right]
  | cons c passed =>
    -- Past the blank there is none.
    have inside : lead ∈ name ++ "=\"".toList := by
      have := congrArg List.tail same
      simp only [List.cons_append, List.tail_cons] at this
      rw [this, rest]
      simp
    obtain mem | mem := List.mem_append.1 inside
    · have := (proper.2 lead mem).1
      simp [isNameChar, blank] at this
    · have sign : lead = '=' ∨ lead = '"' := by simpa using mem
      rcases sign with rfl | rfl
      · exact absurd blank (by decide)
      · exact absurd blank (by decide)

theorem substituteAt_camelName {name : List Char} (proper : ProperName name) (before : Option Char) :
    substituteAt camelAttribute before (' ' :: name ++ "=\"".toList) =
      ' ' :: respelled name ++ "=\"".toList := by
  by_cases camel : CamelName name
  · have reads : camelAttribute ⟨before, ' ' :: name ++ "=\"".toList⟩ =
        some (' ' :: markupName name ++ ['='], ⟨some '=', ['"']⟩) := by
      refine (camelAttribute_exact _ _ _).2
        ⟨' ' :: name ++ ['='], by simp, ⟨' ', name, by decide, camel, rfl, rfl⟩, ?_⟩
      refine ⟨by simp, ?_⟩
      rw [List.getLast?_concat]
      rfl
    rw [substituteAt, cutAt_some camelAttribute_takes reads, Cut.fill_append, Cut.fill_piece,
      ← substituteAt, camelAttribute_quiet (by decide), respelled_camel camel]
    simp
  · rw [respelled_other camel, substituteAt_of_notFound camelAttribute_takes]
    refine (foundAfter_eq_false camelAttribute_takes).2 fun passed ahead same => ?_
    refine unread_iff.2 fun v q reads => ?_
    exact camel (camelName_of_reads proper same reads)

theorem camelAttribute_namePass : NamePass camelAttribute respelled where
  takes := camelAttribute_takes
  head := camelAttribute_splits_head
  last := camelAttribute_splits_last
  quiet := camelAttribute_quiet
  renames proper := substituteAt_camelName proper _

/-! ### What the pass takes for a start tag -/

theorem startTag_exact : Exact startTag fun _ taken v =>
    ∃ (first : Char) (others : List Char),
      (first != '<' && first != '>' && first != '/' && first != '!') = true ∧
      (∀ c ∈ others, (c != '<' && c != '>') = true) ∧ taken = '<' :: first :: others ++ ['>'] ∧
      v = substitute camelAttribute taken := by
  intro p v q
  simp only [startTag, bind_eq_some, char_eq_some, one_eq_some, many_eq_some, pure_eq_some]
  constructor
  · rintro ⟨_, m, sign, first, m₁, ⟨opens, one⟩, others, m₂, ⟨all, -, inside⟩, _, m₃, close, rfl, rfl⟩
    exact ⟨_, by simp, ⟨first, others, opens, all, rfl, rfl⟩,
      ((sign.trans one).trans inside).trans close⟩
  · rintro ⟨taken, -, ⟨first, others, opens, all, rfl, rfl⟩, reached⟩
    obtain ⟨m₂, reached, close⟩ := Place.after_append.1 reached
    obtain ⟨m, sign, reached⟩ := Place.after_cons.1 reached
    obtain ⟨m₁, one, inside⟩ := Place.after_cons.1 reached
    refine ⟨(), m, sign, first, m₁, ⟨opens, one⟩, others, m₂, ⟨all, ?_, inside⟩, (), q, close, rfl, rfl⟩
    rw [close.rest]
    rintro c ⟨⟩
    decide

theorem startTag_takes : Takes startTag := startTag_exact.takes

theorem passive_startTag : Passive startTag :=
  (passive_char _).bind fun _ => (passive_one _).bind fun _ => (passive_many _).bind fun _ =>
    (passive_char _).bind fun _ => passive_pure _

theorem startTag_text {before : Option Char} {text : List Char} (clean : '<' ∉ text) :
    foundAfter startTag before text = false := by
  refine (foundAfter_eq_false startTag_takes).2 fun passed ahead same => ?_
  refine unread_iff.2 fun v q reads => ?_
  obtain ⟨taken, -, ⟨first, others, -, -, rfl, -⟩, reached⟩ := (startTag_exact _ _ _).1 reads
  have rest : ahead = '<' :: first :: others ++ ['>'] ++ q.rest := reached.rest
  exact clean (by simp [same, rest])

/-- Without the sign behind names there is nothing to respell. -/
theorem startTag_quiet {before : Option Char} {text : List Char} (clean : '=' ∉ text) :
    substituteAt startTag before text = text := by
  rw [substituteAt_blind startTag_takes passive_startTag before none, ← substitute_eq_substituteAt]
  refine substitute_of_idle startTag_takes ((idle_iff startTag_takes).2 ?_)
  intro passed ahead v q same reads
  obtain ⟨taken, -, ⟨first, others, -, -, -, rfl⟩, reached⟩ := (startTag_exact _ _ _).1 reads
  have rest : ahead = taken ++ q.rest := reached.rest
  have clean' : '=' ∉ taken := fun mem => clean (by simp [same, rest, mem])
  rw [substitute_eq_substituteAt, camelAttribute_quiet clean', rest]

/-- Every name of the tag that is to be respelled stands in what is taken for a start tag. With an
angle bracket in a value it may stand outside. -/
def Reached (m : Mark) : Prop :=
  m.entries ≠ [] → substitute startTag m.write = substitute camelAttribute m.write

instance (m : Mark) : Decidable (Reached m) := inferInstanceAs (Decidable (_ → _))

theorem substituteAt_startTag {m : Mark} (named : m.Named) (reached : Reached m)
    (idle : ∀ e ∈ m.entries, Idle camelAttribute (quote e.2)) (before : Option Char) :
    substituteAt startTag before m.write = (m.rename respelled).write := by
  cases tag : m.token? with
  | none =>
    cases m with
    | text spelled => exact substituteAt_of_notFound startTag_takes (startTag_text named)
    | start tag entries => simp [Mark.token?] at tag
    | single tag entries blank => simp [Mark.token?] at tag
    | stop tag => simp [Mark.token?] at tag
  | some t =>
    have renamed := camelAttribute_namePass.substituteAt_mark named tag idle none
    by_cases none_in : m.entries = []
    · have clean : '=' ∉ m.write := no_equals_of_no_entries named tag none_in
      rwa [startTag_quiet clean, ← camelAttribute_quiet clean]
    · rw [← renamed, ← substitute_eq_substituteAt, ← reached none_in,
        substituteAt_blind startTag_takes passive_startTag before none]
      rfl

theorem startTag_splits {m : Mark} (named : m.Named) (before : Option Char) (back : List Char) :
    Splits startTag before m.write back := by
  refine splits_of_uncrossed startTag_exact.regular ?_
  -- A start tag has no end sign before its own, so none reads on behind a mark that ends in one.
  have tag (last : m.write.getLast? = some '>') : Uncrossed startTag before m.write back := by
    refine uncrossed_of_last startTag_takes ?_ last
    intro p q v taken reads reached mem
    obtain ⟨taken', -, ⟨first, others, opens, all, rfl, -⟩, reached'⟩ := (startTag_exact _ _ _).1 reads
    rw [reached.unique reached', List.dropLast_concat] at mem
    obtain sign | rfl | mem := List.mem_cons.1 mem |>.imp_right List.mem_cons.1
    · exact absurd sign (by decide)
    · exact absurd opens (by decide)
    · exact absurd (all _ mem) (by decide)
  cases m with
  | text spelled =>
    intro passed ahead v q same some_ahead reads
    obtain ⟨taken, -, ⟨first, others, -, -, rfl, -⟩, reached⟩ := (startTag_exact _ _ _).1 reads
    obtain ⟨c, more, rfl⟩ := List.exists_cons_of_ne_nil some_ahead
    have rest : c :: more ++ back = '<' :: first :: others ++ ['>'] ++ q.rest := reached.rest
    obtain rfl : c = '<' := (List.cons.inj rest).1
    have same : spelled = passed ++ '<' :: more := same
    exact absurd (by simp [same]) named
  | start name entries => exact tag List.getLast?_concat
  | single name entries blank => exact tag (by rw [Mark.write, List.getLast?_append]; rfl)
  | stop name => exact tag List.getLast?_concat

/-- Marks are respelled one by one. -/
theorem substitute_startTag {marks : List Mark} (named : ∀ m ∈ marks, m.Named)
    (reached : ∀ m ∈ marks, Reached m)
    (idle : ∀ m ∈ marks, ∀ e ∈ m.entries, Idle camelAttribute (quote e.2)) :
    substitute startTag (writeMarks marks) = writeMarks (marks.map (Mark.rename respelled)) := by
  have further : ∀ before, substituteAt startTag before (writeMarks marks) =
      writeMarks (marks.map (Mark.rename respelled)) := by
    induction marks with
    | nil => exact fun before => rfl
    | cons m rest ih =>
      intro before
      have first := substituteAt_startTag (named m (by simp)) (reached m (by simp)) (idle m (by simp)) before
      have later := ih (fun m' mem => named m' (List.mem_cons_of_mem m mem))
        (fun m' mem => reached m' (List.mem_cons_of_mem m mem))
        (fun m' mem => idle m' (List.mem_cons_of_mem m mem))
      rw [List.map_cons, writeMarks_cons, writeMarks_cons,
        substituteAt_append (startTag_splits (named m (by simp)) before _), first, later]
  exact further none

/-! ### Tags without angle brackets in their values -/

/-- A character that neither starts nor ends what is taken for a start tag. -/
def notAngle (c : Char) : Bool := c != '<' && c != '>'

theorem notAngle_of_properTag {tag : List Char} (proper : ProperTag tag) :
    ∀ c ∈ tag, notAngle c = true := by
  intro c mem
  simp only [notAngle, Bool.and_eq_true, bne_iff_ne]
  constructor <;> rintro rfl <;> exact absurd (proper.char _ mem) (by decide)

theorem notAngle_written {e : List Char × List Char} (proper : ProperEntry e)
    (plain : ∀ c ∈ e.2, notAngle c = true) : ∀ c ∈ written e, notAngle c = true := by
  intro c mem
  rcases mem_written mem with mem | mem | sign
  · obtain ⟨char, other⟩ := proper.1.2 c mem
    simp only [notAngle, Bool.and_eq_true, bne_iff_ne]
    refine ⟨other, ?_⟩
    rintro rfl
    exact absurd char (by decide)
  · exact plain c mem
  · exact List.all_eq_true.1 (rfl : [' ', '=', '"'].all notAngle = true) c sign

theorem notAngle_entries {entries : List (List Char × List Char)} (proper : ProperEntries entries)
    (plain : ∀ e ∈ entries, ∀ c ∈ e.2, notAngle c = true) :
    ∀ c ∈ entries.flatMap written, notAngle c = true := by
  intro c mem
  obtain ⟨e, entry, mem⟩ := List.mem_flatMap.1 mem
  exact notAngle_written (proper.each e entry) (plain e entry) c mem

/-- A tag without angle brackets inside is taken for one start tag, as a whole. -/
theorem substitute_wholeTag {tag inner : List Char} (proper : ProperTag tag)
    (plain : ∀ c ∈ inner, notAngle c = true) :
    substitute startTag ('<' :: tag ++ inner ++ ['>']) =
      substitute camelAttribute ('<' :: tag ++ inner ++ ['>']) := by
  obtain ⟨first, rest, rfl, letter, -⟩ := id proper
  generalize same : '<' :: (first :: rest) ++ inner ++ ['>'] = text
  have reads : startTag ⟨none, text⟩ = some (substitute camelAttribute text, ⟨some '>', []⟩) := by
    refine (startTag_exact _ _ _).2 ⟨text, by simp [← same], ⟨first, rest ++ inner, ?_, ?_, ?_, rfl⟩, ?_⟩
    · have := notAngle_of_properTag proper first List.mem_cons_self
      simp only [notAngle, Bool.and_eq_true, bne_iff_ne] at this
      simp only [Bool.and_eq_true, bne_iff_ne]
      refine ⟨⟨this, ?_⟩, ?_⟩ <;> rintro rfl <;> exact absurd letter (by decide)
    · intro c mem
      obtain mem | mem := List.mem_append.1 mem
      · exact notAngle_of_properTag proper c (List.mem_cons_of_mem first mem)
      · exact plain c mem
    · simp [← same]
    · exact ⟨by simp, by rw [← same, List.getLast?_concat]; rfl⟩
  rw [substitute, cut_eq_cutAt, Place.start, cutAt_some startTag_takes reads, cutAt_nil, Cut.append_nil,
    Cut.fill_piece]

theorem reached_of_notAngle {m : Mark} (proper : m.Proper)
    (plain : ∀ e ∈ m.entries, ∀ c ∈ e.2, notAngle c = true) : Reached m := by
  intro _
  cases m with
  | text spelled => contradiction
  | start tag entries => exact substitute_wholeTag proper.1 (notAngle_entries proper.2 plain)
  | single tag entries blank =>
    have inside : ∀ c ∈ entries.flatMap written ++ blank ++ ['/'], notAngle c = true := by
      intro c mem
      simp only [List.mem_append, List.mem_singleton] at mem
      obtain (mem | mem) | rfl := mem
      · exact notAngle_entries proper.2.1 plain c mem
      · rw [proper.2.2 c mem]
        decide
      · decide
    have whole := substitute_wholeTag proper.1 inside
    simpa [Mark.write] using whole
  | stop tag => contradiction

end DesignComponents.Template
