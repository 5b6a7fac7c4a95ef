import DesignComponents.Proofs.Style.ClassName
import DesignComponents.Proofs.Text.Search

/-! The shape of names. A component's is a capital with letters and digits behind it, whatever it is made
from; its slug is words of small letters and digits with a hyphen between each two. -/

set_option autoImplicit false

namespace DesignComponents.Identifier

open Text

/-! ### Words between hyphens -/

/-- A small letter or a digit. -/
def Small (c : Char) : Prop := isAsciiLower c = true ∨ isAsciiDigit c = true

instance (c : Char) : Decidable (Small c) := inferInstanceAs (Decidable (_ ∨ _))

theorem Small.alphanumeric {c : Char} (small : Small c) : isAsciiAlphanumeric c = true := by
  obtain lower | digit := small <;> simp [isAsciiAlphanumeric, isAsciiLetter, *]

theorem Small.plain {c : Char} (small : Small c) :
    isUpper c = false ∧ isAsciiUpper c = false ∧ c ≠ '-' ∧ c ≠ '_' := by
  refine @ascii_induction (fun c => Small c →
    isUpper c = false ∧ isAsciiUpper c = false ∧ c ≠ '-' ∧ c ≠ '_') ?_ c
    (isAscii_of_alphanumeric small.alphanumeric) small
  decide +kernel

theorem Small.not_upper {c : Char} (small : Small c) : isUpper c = false := small.plain.1

theorem Small.not_asciiUpper {c : Char} (small : Small c) : isAsciiUpper c = false := small.plain.2.1

theorem Small.no_sign {c : Char} (small : Small c) : c ≠ '-' ∧ c ≠ '_' := small.plain.2.2

/-- Words that each have a hyphen in front. -/
def hyphenated (words : List (List Char)) : List Char := words.flatMap ('-' :: ·)

theorem hyphenated_cons (word : List Char) (words : List (List Char)) :
    hyphenated (word :: words) = '-' :: (word ++ hyphenated words) := rfl

theorem join_cons (first : List Char) (others : List (List Char)) :
    join ['-'] (first :: others) = first ++ hyphenated others := intercalate_cons ['-'] first others

/-- A word that has no hyphen in it. -/
def Solid (word : List Char) : Prop := word ≠ [] ∧ '-' ∉ word

theorem collapse_append {word rest : List Char} (plain : '-' ∉ word) :
    collapse (word ++ rest) = word ++ collapse rest := by
  induction word with
  | nil => rfl
  | cons c word ih =>
    rw [List.mem_cons, not_or] at plain
    rw [List.cons_append, List.cons_append, ← ih plain.2]
    cases word ++ rest with
    | nil => rfl
    | cons d more => rw [collapse, if_neg (by simp [Ne.symm plain.1])]

theorem collapse_hyphenated {words : List (List Char)} (each : ∀ w ∈ words, Solid w) :
    collapse (hyphenated words) = hyphenated words := by
  induction words with
  | nil => rfl
  | cons word words ih =>
    obtain ⟨⟨some_char, plain⟩, later⟩ := List.forall_mem_cons.1 each
    match word, some_char with
    | c :: word, _ =>
      have other : c ≠ '-' := fun same => plain (by simp [same])
      rw [hyphenated_cons, List.cons_append, collapse, if_neg (by simp [other]), ← List.cons_append,
        collapse_append plain, ih later]

theorem Solid.plain_ends {word : List Char} (solid : Solid word) :
    (∀ c ∈ word.head?, (c == '-') = false) ∧ ∀ c ∈ word.getLast?, (c == '-') = false := by
  have other : ∀ c ∈ word, (c == '-') = false := fun c mem =>
    beq_eq_false_iff_ne.2 fun same => solid.2 (same ▸ mem)
  exact ⟨fun c first => other c (List.mem_of_mem_head? first),
    fun c last => other c (List.mem_of_mem_getLast? last)⟩

theorem hyphenated_ends {first : List Char} {others : List (List Char)}
    (each : ∀ w ∈ first :: others, Solid w) :
    (∀ c ∈ (first ++ hyphenated others).head?, (c == '-') = false) ∧
      ∀ c ∈ (first ++ hyphenated others).getLast?, (c == '-') = false := by
  induction others generalizing first with
  | nil =>
    rw [hyphenated, List.flatMap_nil, List.append_nil]
    exact (each first List.mem_cons_self).plain_ends
  | cons word others ih =>
    obtain ⟨here, later⟩ := List.forall_mem_cons.1 each
    obtain ⟨-, last⟩ := ih later
    have some_char : (word ++ hyphenated others) ≠ [] := by simp [(later word List.mem_cons_self).1]
    rw [hyphenated_cons]
    constructor
    · rw [List.head?_append_of_ne_nil _ here.1]
      exact here.plain_ends.1
    · rwa [List.getLast?_append_of_ne_nil _ (List.cons_ne_nil _ _), List.getLast?_cons_of_ne_nil some_char]

/-- Words that are put together with hyphens are a slug already. -/
theorem slugOfHyphenated_join {first : List Char} {others : List (List Char)}
    (each : ∀ w ∈ first :: others, Solid w) :
    slugOfHyphenated (join ['-'] (first :: others)) = join ['-'] (first :: others) := by
  obtain ⟨here, later⟩ := List.forall_mem_cons.1 each
  obtain ⟨head, last⟩ := hyphenated_ends each
  rw [join_cons, slugOfHyphenated, trimBy_ends head last, collapse_append here.2,
    collapse_hyphenated later]
  split
  · next none => exact absurd (List.append_eq_nil_iff.1 none).1 here.1
  · rfl

/-! ### Component names -/

/-- A capital, and letters and digits behind it. -/
inductive IsComponentName : List Char → Prop
  | intro {c : Char} {rest : List Char} (capital : isAsciiUpper c = true)
    (others : ∀ d ∈ rest, isAsciiAlphanumeric d = true) : IsComponentName (c :: rest)

theorem IsComponentName.alphanumeric {name : List Char} (proper : IsComponentName name) :
    ∀ c ∈ name, isAsciiAlphanumeric c = true := by
  cases proper with
  | intro capital others =>
    refine List.forall_mem_cons.2 ⟨?_, others⟩
    simp [isAsciiAlphanumeric, isAsciiLetter, capital]

theorem asciiUpper_first {c : Char} (alphanumeric : isAsciiAlphanumeric c = true) :
    isAsciiDigit (asciiUpper c) = true ∨ isAsciiUpper (asciiUpper c) = true := by
  refine @ascii_induction (fun c => isAsciiAlphanumeric c = true →
    isAsciiDigit (asciiUpper c) = true ∨ isAsciiUpper (asciiUpper c) = true) ?_ c
    (isAscii_of_alphanumeric alphanumeric) alphanumeric
  decide +kernel

theorem head_flatMap_capitalize {words : List (List Char)}
    (each : ∀ w ∈ words, ∀ c ∈ w, isAsciiAlphanumeric c = true) :
    ∀ c ∈ (words.flatMap capitalize).head?, isAsciiDigit c = true ∨ isAsciiUpper c = true := by
  induction words with
  | nil => exact nofun
  | cons word words ih =>
    obtain ⟨here, later⟩ := List.forall_mem_cons.1 each
    cases word with
    | nil => exact ih later
    | cons d word =>
      intro c first
      cases first
      exact asciiUpper_first (here d List.mem_cons_self)

theorem isComponentName_componentName (text : String) : IsComponentName (componentName text).toList := by
  have letters : ∀ c ∈ pascalChars text.toList, isAsciiAlphanumeric c = true :=
    fun c mem => pascalChars_alphanumeric mem
  have first : ∀ c ∈ (pascalChars text.toList).head?,
      isAsciiDigit c = true ∨ isAsciiUpper c = true := by
    refine head_flatMap_capitalize fun w held c mem => ?_
    have all := of_mem_wordsAux (fun _ mem => absurd mem List.not_mem_nil)
      (fun _ mem => absurd mem List.not_mem_nil) w held c mem
    simpa using all
  rw [componentName, String.toList_ofList, componentChars]
  split
  · exact .intro (by decide) (by decide)
  · next c rest made =>
    rw [made] at letters first
    split
    · have front : ∀ d ∈ "omponent".toList, isAsciiAlphanumeric d = true := by decide
      refine @IsComponentName.intro 'C' ("omponent".toList ++ c :: rest) (by decide) fun d mem => ?_
      exact (List.mem_append.1 mem).elim (front d) (letters d)
    · next no_digit =>
      exact .intro ((first c rfl).resolve_left no_digit) fun d mem =>
        letters d (List.mem_cons_of_mem c mem)

/-- Such a name is its own. -/
theorem componentName_of_isComponentName {name : String} (proper : IsComponentName name.toList) :
    componentName name = name := by
  have solid : ∀ c ∈ name.toList, (!isAsciiAlphanumeric c) = false := fun c mem => by
    rw [proper.alphanumeric c mem, Bool.not_true]
  have one_word : pascalChars name.toList = capitalize name.toList := by
    rw [pascalChars, wordsAux_solid solid]
    generalize name.toList = text at proper
    cases proper
    simp [wordsAux]
  have kept : componentChars name.toList = name.toList := by
    rw [componentChars, one_word]
    generalize name.toList = text at proper
    cases proper with
    | @intro c rest capital others =>
      have same : asciiUpper c = c := by simp [asciiUpper, not_lower_of_upper capital]
      have no_digit : isAsciiDigit c = false := by
        rw [isAsciiUpper_iff] at capital
        rw [← Bool.not_eq_true, isAsciiDigit_iff]
        omega
      simp [capitalize, same, no_digit]
  rw [componentName, kept, String.ofList_toList]

/-! ### Their slugs -/

/-- Words of small letters and digits between hyphens, the first of them with a letter in front. -/
inductive IsSlug : List Char → Prop
  | intro {c : Char} {rest : List Char} {others : List (List Char)} (letter : isAsciiLower c = true)
    (small : ∀ d ∈ rest, Small d) (each : ∀ w ∈ others, w ≠ [] ∧ ∀ d ∈ w, Small d) :
    IsSlug (join ['-'] ((c :: rest) :: others))

theorem lowerChar_alphanumeric {c : Char} (alphanumeric : isAsciiAlphanumeric c = true) :
    ∃ d ∈ lowerChar c, lowerChar c = [d] ∧ Small d ∧
      (isAsciiUpper c = true → isAsciiLower d = true) := by
  refine @ascii_induction (fun c => isAsciiAlphanumeric c = true → ∃ d ∈ lowerChar c,
    lowerChar c = [d] ∧ Small d ∧ (isAsciiUpper c = true → isAsciiLower d = true)) ?_ c
    (isAscii_of_alphanumeric alphanumeric) alphanumeric
  decide +kernel

/-- Behind a character the rest of a name is the rest of a word, and words with hyphens in front. -/
theorem hyphenate_alphanumeric {text : List Char}
    (alphanumeric : ∀ c ∈ text, isAsciiAlphanumeric c = true) (before : Option Char) :
    ∃ first others, hyphenate before text = first ++ hyphenated others ∧
      (∀ d ∈ first, Small d) ∧ ∀ w ∈ others, w ≠ [] ∧ ∀ d ∈ w, Small d := by
  induction text generalizing before with
  | nil => exact ⟨[], [], rfl, nofun, nofun⟩
  | cons c text ih =>
    obtain ⟨here, later⟩ := List.forall_mem_cons.1 alphanumeric
    obtain ⟨first, others, written, small, each⟩ := ih later (some c)
    obtain ⟨d, -, low, small', -⟩ := lowerChar_alphanumeric here
    have word : ∀ e ∈ d :: first, Small e := List.forall_mem_cons.2 ⟨small', small⟩
    rw [hyphenate, if_pos (isAlphanumeric_of_ascii here), low, written]
    -- What stands before only tells whether a new word starts here.
    by_cases starts : (isUpper c && endsWord before) = true
    · exact ⟨[], (d :: first) :: others, by rw [if_pos starts]; rfl, nofun,
        List.forall_mem_cons.2 ⟨⟨List.cons_ne_nil _ _, word⟩, each⟩⟩
    · exact ⟨d :: first, others, by rw [if_neg starts]; rfl, word, each⟩

theorem isSlug_slug {name : String} (proper : IsComponentName name.toList) : IsSlug (slug name).toList := by
  have solid : ∀ {word : List Char}, word ≠ [] → (∀ d ∈ word, Small d) → Solid word :=
    fun some_char small => ⟨some_char, fun mem => (small _ mem).no_sign.1 rfl⟩
  rw [slug, String.toList_ofList, slugChars]
  generalize name.toList = text at proper
  cases proper with
  | @intro c rest capital others =>
    have here : isAsciiAlphanumeric c = true := by simp [isAsciiAlphanumeric, isAsciiLetter, capital]
    obtain ⟨first, words, written, small, each⟩ := hyphenate_alphanumeric others (some c)
    obtain ⟨d, -, low, small', letter⟩ := lowerChar_alphanumeric here
    have shape : hyphenate none (c :: rest) = join ['-'] ((d :: first) :: words) := by
      rw [hyphenate, if_pos (isAlphanumeric_of_ascii here), low, written, join_cons]
      simp [endsWord]
    rw [shape, slugOfHyphenated_join]
    · exact .intro (letter capital) small each
    · have word : ∀ e ∈ d :: first, Small e := List.forall_mem_cons.2 ⟨small', small⟩
      exact List.forall_mem_cons.2 ⟨solid (List.cons_ne_nil _ _) word,
        fun w mem => solid (each w mem).1 (each w mem).2⟩

/-- Whatever text it is made from, a component's name is a capital with letters and digits behind it, is
its own component name, and has a slug of words of small letters and digits. -/
theorem componentName_shape (text : String) : IsComponentName (componentName text).toList ∧
    componentName (componentName text) = componentName text ∧ IsSlug (slug (componentName text)).toList :=
  have proper := isComponentName_componentName text
  ⟨proper, componentName_of_isComponentName proper, isSlug_slug proper⟩

end DesignComponents.Identifier
