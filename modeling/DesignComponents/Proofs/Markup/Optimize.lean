import DesignComponents.Markup.Optimize
import DesignComponents.Proofs.Text.CharClass
import DesignComponents.Proofs.Text.Cut

/-! What the passes that shorten markup take, and that they go over chunks one by one wherever no
chunk ends inside a piece that they take. -/

set_option autoImplicit false

namespace DesignComponents.Markup

open Text Reader

variable {p q : Place} {u : Unit} {v : List Char}

/-! ### Long decimals and attributes without a value -/

theorem longDecimal_exact : Exact longDecimal fun _ taken v =>
    ∃ whole places : List Char, whole ≠ [] ∧ (∀ c ∈ whole, isDecimal c = true) ∧ 3 ≤ places.length ∧
      (∀ c ∈ places, isDecimal c = true) ∧
      taken = "=\"".toList ++ whole ++ '.' :: places ++ ['"'] ∧
      v = "=\"".toList ++ roundedText (whole ++ '.' :: places) ++ ['"'] := by
  intro p v q
  simp only [longDecimal, bind_eq_some, text_eq_some, many1_eq_some, char_eq_some,
    atLeast_eq_some, pure_eq_some]
  constructor
  · rintro ⟨_, m, mark, whole, m₁, ⟨some_whole, whole_all, -, left⟩, _, m₂, point, places, m₃,
      ⟨enough, places_all, -, right⟩, _, m₄, close, rfl, rfl⟩
    have reached := (((mark.trans left).trans point).trans right).trans close
    exact ⟨_, by simp, ⟨whole, places, some_whole, whole_all, enough, places_all, by simp, rfl⟩,
      reached⟩
  · rintro ⟨taken, -, ⟨whole, places, some_whole, whole_all, enough, places_all, rfl, rfl⟩, reached⟩
    obtain ⟨m₃, reached, close⟩ := Place.after_append.1 reached
    obtain ⟨m₁, reached, right⟩ := Place.after_append.1 reached
    obtain ⟨m, mark, left⟩ := Place.after_append.1 reached
    obtain ⟨m₂, point, right⟩ := Place.after_cons.1 right
    refine ⟨(), m, mark, whole, m₁, ⟨some_whole, whole_all, ?_, left⟩, (), m₂, point, places, m₃,
      ⟨enough, places_all, ?_, right⟩, (), q, close, rfl, rfl⟩
    · rw [point.rest]
      rintro c ⟨⟩
      decide
    · rw [close.rest]
      rintro c ⟨⟩
      decide

theorem passive_longDecimal : Passive longDecimal := by
  refine (passive_text _).bind fun _ => (passive_atLeast 1 _).bind fun _ => ?_
  refine (passive_char _).bind fun _ => (passive_atLeast 3 _).bind fun _ => ?_
  exact (passive_char _).bind fun _ => passive_pure _

theorem isBlank_of_inName {c : Char} (inName : (isWord c || c == ':' || c == '-') = true) :
    isBlank c = false := by
  by_contra blank
  rw [Bool.not_eq_false] at blank
  simp only [isWord_of_isBlank blank, Bool.false_or, Bool.or_eq_true, beq_iff_eq] at inName
  obtain rfl | rfl := inName
  · exact absurd blank (by decide)
  · exact absurd blank (by decide)

theorem emptyAttribute_exact : Exact emptyAttribute fun _ taken v =>
    ∃ blank name : List Char, blank ≠ [] ∧ (∀ c ∈ blank, isBlank c = true) ∧ name ≠ [] ∧
      (∀ c ∈ name, (isWord c || c == ':' || c == '-') = true) ∧
      taken = blank ++ name ++ "=\"\"".toList ∧ v = [] := by
  intro p v q
  simp only [emptyAttribute, blanks1, bind_eq_some, many1_eq_some, text_eq_some, pure_eq_some]
  constructor
  · rintro ⟨blank, m, ⟨some_blank, blank_all, -, lead⟩, name, m₁, ⟨some_name, name_all, -, named⟩,
      _, m₂, close, rfl, rfl⟩
    exact ⟨_, by simp, ⟨blank, name, some_blank, blank_all, some_name, name_all, rfl, rfl⟩,
      (lead.trans named).trans close⟩
  · rintro ⟨taken, -, ⟨blank, name, some_blank, blank_all, some_name, name_all, rfl, rfl⟩, reached⟩
    obtain ⟨m₁, reached, close⟩ := Place.after_append.1 reached
    obtain ⟨m, lead, named⟩ := Place.after_append.1 reached
    refine ⟨blank, m, ⟨some_blank, blank_all, ?_, lead⟩, name, m₁, ⟨some_name, name_all, ?_, named⟩,
      (), q, close, rfl, rfl⟩
    · obtain ⟨first, rest, rfl⟩ := List.exists_cons_of_ne_nil some_name
      rw [named.rest]
      rintro c ⟨⟩
      exact isBlank_of_inName (name_all first (by simp))
    · rw [close.rest]
      rintro c ⟨⟩
      decide

theorem passive_emptyAttribute : Passive emptyAttribute := by
  refine (passive_atLeast 1 _).bind fun _ => (passive_atLeast 1 _).bind fun _ => ?_
  exact (passive_text _).bind fun _ => passive_pure _

/-! ### Attributes repeated in a row -/

theorem doubleQuoted_eq_some : doubleQuoted p = some (v, q) ↔
    (∀ c ∈ v, notQuote c = true) ∧ p.After ("=\"".toList ++ v ++ ['"']) q := by
  simp only [doubleQuoted, bind_eq_some, text_eq_some, many_eq_some, char_eq_some, pure_eq_some]
  constructor
  · rintro ⟨_, m, mark, value, m₁, ⟨all, -, inside⟩, _, m₂, close, rfl, rfl⟩
    exact ⟨all, (mark.trans inside).trans close⟩
  · rintro ⟨all, reached⟩
    obtain ⟨m₁, reached, close⟩ := Place.after_append.1 reached
    obtain ⟨m, mark, inside⟩ := Place.after_append.1 reached
    refine ⟨(), m, mark, v, m₁, ⟨all, ?_, inside⟩, (), q, close, rfl, rfl⟩
    rw [close.rest]
    rintro c ⟨⟩
    decide

theorem repeatOf_exact {name : List Char} (some_name : name ≠ [])
    (word : ∀ c ∈ name, isWord c = true) : Exact (repeatOf name) fun _ taken _ =>
      ∃ blank value : List Char, blank ≠ [] ∧ (∀ c ∈ blank, isBlank c = true) ∧
        (∀ c ∈ value, notQuote c = true) ∧
        taken = blank ++ name ++ ("=\"".toList ++ value ++ ['"']) := by
  intro p v q
  simp only [repeatOf, blanks1, bind_eq_some, many1_eq_some, text_eq_some, String.toList_ofList,
    doubleQuoted_eq_some, pure_eq_some]
  constructor
  · rintro ⟨blank, m, ⟨some_blank, blank_all, -, lead⟩, _, m₁, named, value, m₂, ⟨all, quoted⟩,
      -, rfl⟩
    exact ⟨_, by simp, ⟨blank, value, some_blank, blank_all, all, rfl⟩,
      (lead.trans named).trans quoted⟩
  · rintro ⟨taken, -, ⟨blank, value, some_blank, blank_all, all, rfl⟩, reached⟩
    obtain ⟨m₁, reached, quoted⟩ := Place.after_append.1 reached
    obtain ⟨m, lead, named⟩ := Place.after_append.1 reached
    refine ⟨blank, m, ⟨some_blank, blank_all, ?_, lead⟩, (), m₁, named, value, q, ⟨all, quoted⟩,
      trivial, rfl⟩
    obtain ⟨first, rest, rfl⟩ := List.exists_cons_of_ne_nil some_name
    rw [named.rest]
    rintro c ⟨⟩
    exact isBlank_of_inName (by simp [word first (by simp)])

/-- An attribute, the first repetition of its name, and all that follow. -/
theorem duplicates_eq_some : duplicates p = some (v, q) ↔
    ∃ (name value : List Char) (m m' : Place), name ≠ [] ∧ (∀ c ∈ name, isWord c = true) ∧
      (∀ c ∈ value, notQuote c = true) ∧ p.After (name ++ ("=\"".toList ++ value ++ ['"'])) m ∧
      repeatOf name m = some ((), m') ∧ Repeats (repeatOf name) m' q ∧
      name ++ "=\"".toList ++ value ++ ['"'] = v := by
  simp only [duplicates, skipMany1, bind_eq_some, many1_eq_some, doubleQuoted_eq_some, pure_eq_some]
  constructor
  · rintro ⟨name, m, ⟨some_name, word, -, named⟩, value, m₁, ⟨all, quoted⟩, _, m₂,
      ⟨_, m₃, again, others⟩, rfl, rfl⟩
    have takes := (repeatOf_exact some_name word).regular.takes
    exact ⟨name, value, m₁, m₃, some_name, word, all, named.trans quoted, again,
      (skipMany_eq_some takes).1 others, rfl⟩
  · rintro ⟨name, value, m₁, m₃, some_name, word, all, reached, again, others, rfl⟩
    have takes := (repeatOf_exact some_name word).regular.takes
    obtain ⟨m, named, quoted⟩ := Place.after_append.1 reached
    refine ⟨name, m, ⟨some_name, word, ?_, named⟩, value, m₁, ⟨all, quoted⟩, (), q,
      ⟨(), m₃, again, (skipMany_eq_some takes).2 others⟩, rfl, rfl⟩
    rw [quoted.rest]
    rintro c ⟨⟩
    decide

theorem duplicates_takes : Takes duplicates := by
  intro p v q reads
  obtain ⟨name, value, m, m', some_name, word, -, reached, again, others, -⟩ :=
    duplicates_eq_some.1 reads
  have takes := (repeatOf_exact some_name word).regular.takes
  obtain ⟨first, -, further⟩ := takes again
  obtain ⟨rest, last⟩ := others.after takes
  exact ⟨_, by simp, (reached.trans further).trans last⟩

/-- More text can only add repetitions, and less can only end them. -/
theorem duplicates_regular : Regular duplicates where
  takes := duplicates_takes
  stays {before after front middle back v} reads := by
    obtain ⟨name, value, ⟨lead, ahead⟩, ⟨lead', ahead'⟩, some_name, word, all, reached, again, others,
      rfl⟩ := duplicates_eq_some.1 reads
    have exact := repeatOf_exact some_name word
    obtain ⟨rest, last⟩ := others.after exact.takes
    obtain rfl : ahead' = rest ++ middle ++ back := by rw [List.append_assoc]; exact last.rest
    obtain ⟨first, -, next⟩ := exact.takes again
    obtain rfl : ahead = first ++ (rest ++ middle) ++ back := by
      rw [List.append_assoc]
      exact next.rest
    exact duplicates_eq_some.2 ⟨name, value, ⟨lead, _⟩, ⟨lead', _⟩, some_name, word, all,
      Place.after_cut.1 reached, exact.cut.1 again, others.stays exact.regular rfl rfl, rfl⟩
  grows {before front back} none_read := by
    refine unread_iff.2 fun v q reads => ?_
    obtain ⟨name, value, m, m', some_name, word, all, reached, again, -, rfl⟩ :=
      duplicates_eq_some.1 reads
    have exact := repeatOf_exact some_name word
    have longer := duplicates_eq_some.2 ⟨name, value, ⟨m.before, m.rest ++ back⟩,
      ⟨m'.before, m'.rest ++ back⟩, some_name, word, all, Place.after_cut.2 reached,
      exact.cut.2 again, repeats_skipManyFrom exact.takes (Nat.le_refl _), rfl⟩
    rw [none_read] at longer
    exact nomatch longer

theorem passive_duplicates : Passive duplicates := by
  have quoted : Passive doubleQuoted :=
    (passive_text _).bind fun _ => (passive_many _).bind fun _ => (passive_char _).bind fun _ =>
      passive_pure _
  refine (passive_atLeast 1 _).bind fun name => quoted.bind fun value => ?_
  have again : Passive (repeatOf name) :=
    (passive_atLeast 1 _).bind fun _ => (passive_text _).bind fun _ => quoted.bind fun _ =>
      passive_pure _
  exact (again.bind fun _ => passive_skipMany again).bind fun _ => passive_pure _

end DesignComponents.Markup
