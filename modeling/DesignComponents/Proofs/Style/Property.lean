import DesignComponents.Proofs.Attribute.Rename
import DesignComponents.Proofs.Identifier
import DesignComponents.Style.Property

/-! Names of style properties in camel case and back. Each word but the first is written behind a
hyphen or with a capital, and the one becomes the other. What stands in front of the first word is a
case of its own: a vendor's name has a hyphen or a capital there, and the mark `ms` loses its hyphen
and is told by the capital behind it. -/

set_option autoImplicit false

namespace DesignComponents.Style

open Attribute Identifier Text

/-! ### Names -/

/-- A small letter, and small letters and digits behind it. -/
inductive PropertyWord : List Char → Prop
  | intro {c : Char} {rest : List Char} (first : isAsciiLower c = true)
    (others : ∀ d ∈ rest, Small d) : PropertyWord (c :: rest)

/-- A custom property, or words between hyphens with or without a hyphen in front. Without one the
first of several words is not `ms`. -/
inductive PropertyName : List Char → Prop
  | custom (rest : List Char) : PropertyName ('-' :: '-' :: rest)
  | plain {words : List (List Char)} (some_word : words ≠ []) (each : ∀ w ∈ words, PropertyWord w)
    (unmarked : ¬ "ms-".toList <+: join ['-'] words) : PropertyName (join ['-'] words)
  | vendor {words : List (List Char)} (some_word : words ≠ []) (each : ∀ w ∈ words, PropertyWord w) :
    PropertyName ('-' :: join ['-'] words)

/-! ### Characters of a word -/

theorem asciiUpper_lower {c : Char} (lower : isAsciiLower c = true) :
    isUpper (asciiUpper c) = true ∧ lowerChar (asciiUpper c) = [c] ∧ asciiUpper c ≠ 's' := by
  have small : Small c := .inl lower
  refine @ascii_induction (fun c => isAsciiLower c = true → isUpper (asciiUpper c) = true ∧
    lowerChar (asciiUpper c) = [c] ∧ asciiUpper c ≠ 's') ?_ c
    (isAscii_of_alphanumeric small.alphanumeric) lower
  decide +kernel

namespace PropertyWord

variable {word : List Char}

theorem small (proper : PropertyWord word) : ∀ c ∈ word, Small c := by
  cases proper with
  | intro first others =>
    intro c mem
    rcases List.mem_cons.1 mem with rfl | later
    · exact .inl first
    · exact others c later

theorem not_mem_hyphen (proper : PropertyWord word) : '-' ∉ word := fun mem =>
  (proper.small _ mem).no_sign.1 rfl

/-- A word stands behind no hyphen. -/
theorem not_hyphen_append (proper : PropertyWord word) (piece rest : List Char) :
    ¬ '-' :: piece <+: word ++ rest := by
  cases proper with
  | @intro c more first others =>
    rw [List.cons_append, List.cons_prefix_cons]
    rintro ⟨rfl, -⟩
    exact absurd first (by decide)

end PropertyWord

/-! ### Capitals for hyphens -/

/-- A text without a sign keeps its characters, whatever comes behind it. -/
theorem joinWords_append {text rest : List Char} (no_sign : ∀ c ∈ text, c ≠ '-' ∧ c ≠ '_') :
    joinWords (text ++ rest) = text ++ joinWords rest := by
  induction text with
  | nil => rfl
  | cons c text ih =>
    obtain ⟨here, later⟩ := List.forall_mem_cons.1 no_sign
    rw [List.cons_append, List.cons_append, ← ih later]
    cases text ++ rest with
    | nil => rfl
    | cons d more => rw [joinWords, if_neg (by simp [here.1, here.2])]

theorem joinWords_hyphen {c : Char} {rest : List Char} (lower : isAsciiLower c = true) :
    joinWords ('-' :: c :: rest) = asciiUpper c :: joinWords rest := by
  rw [joinWords, if_pos (by simp [lower])]

theorem joinWords_word {word rest : List Char} (proper : PropertyWord word) :
    joinWords (word ++ rest) = word ++ joinWords rest :=
  joinWords_append fun c mem => (proper.small c mem).no_sign

/-- Each hyphen goes, and the word behind it gets a capital. -/
theorem joinWords_hyphenated {words : List (List Char)} (each : ∀ w ∈ words, PropertyWord w) :
    joinWords (hyphenated words) = words.flatMap capitalize := by
  induction words with
  | nil => rfl
  | cons word words ih =>
    obtain ⟨here, later⟩ := List.forall_mem_cons.1 each
    cases here with
    | intro first others =>
      rw [hyphenated, List.flatMap_cons, List.flatMap_cons, List.cons_append, List.cons_append,
        joinWords_hyphen first, joinWords_append fun c mem => (others c mem).no_sign]
      exact congrArg _ (congrArg _ (ih later))

theorem joinWords_join {first : List Char} {others : List (List Char)}
    (each : ∀ w ∈ first :: others, PropertyWord w) :
    joinWords (join ['-'] (first :: others)) = first ++ others.flatMap capitalize := by
  obtain ⟨here, later⟩ := List.forall_mem_cons.1 each
  rw [join_cons, joinWords_word here, joinWords_hyphenated later]

/-! ### Hyphens for capitals -/

theorem hyphenateCapitals_append (front back : List Char) :
    hyphenateCapitals (front ++ back) = hyphenateCapitals front ++ hyphenateCapitals back :=
  List.flatMap_append

theorem hyphenateCapitals_small {text : List Char}
    (small : ∀ c ∈ text, Small c) :
    hyphenateCapitals text = text := by
  induction text with
  | nil => rfl
  | cons c text ih =>
    obtain ⟨here, later⟩ := List.forall_mem_cons.1 small
    rw [hyphenateCapitals, List.flatMap_cons, if_neg (by simp [here.not_asciiUpper])]
    exact congrArg (c :: ·) (ih later)

theorem hyphenateCapitals_capitalize {word : List Char} (proper : PropertyWord word) :
    hyphenateCapitals (capitalize word) = '-' :: word := by
  cases proper with
  | @intro c rest first others =>
    have kept : hyphenateCapitals rest = rest := hyphenateCapitals_small others
    rw [capitalize, hyphenateCapitals, List.flatMap_cons, if_pos (isAsciiUpper_asciiUpper first),
      (asciiUpper_lower first).2.1]
    exact congrArg (fun text => '-' :: c :: text) kept

theorem hyphenateCapitals_capitalized {words : List (List Char)} (each : ∀ w ∈ words, PropertyWord w) :
    hyphenateCapitals (words.flatMap capitalize) = hyphenated words := by
  induction words with
  | nil => rfl
  | cons word words ih =>
    obtain ⟨here, later⟩ := List.forall_mem_cons.1 each
    rw [List.flatMap_cons, hyphenateCapitals_append, hyphenateCapitals_capitalize here, ih later]
    rfl

/-! ### The mark of a vendor -/

theorem hasVendorMark_eq_true {text : List Char} : hasVendorMark text = true ↔
    ∃ c rest, text = 'm' :: 's' :: c :: rest ∧ isUpper c = true := by
  unfold hasVendorMark
  split
  · simp
  · next other => exact iff_of_false Bool.false_ne_true fun ⟨c, rest, same, _⟩ => other c rest same

/-- In camel case the mark is told by the capital of the next word. -/
theorem hasVendorMark_iff {first : List Char} {others : List (List Char)}
    (each : ∀ w ∈ first :: others, PropertyWord w) :
    hasVendorMark (first ++ others.flatMap capitalize) = true ↔
      "ms-".toList <+: join ['-'] (first :: others) := by
  obtain ⟨here, later⟩ := List.forall_mem_cons.1 each
  have mark : "ms-".toList = ['m', 's', '-'] := rfl
  rw [hasVendorMark_eq_true, join_cons, mark]
  have small := here.small
  have no_hyphen := here.not_mem_hyphen
  match first, others with
  | [], _ => exact nomatch here
  | a :: b :: c :: more, _ =>
    -- The capital would be one of the word, and so would the hyphen.
    refine iff_of_false ?_ ?_
    · rintro ⟨d, rest, same, capital⟩
      simp only [List.cons_append, List.cons.injEq] at same
      obtain ⟨-, -, rfl, -⟩ := same
      rw [(small c (by simp)).not_upper] at capital
      cases capital
    · rintro ⟨rest, same⟩
      simp only [List.cons_append, List.cons.injEq] at same
      obtain ⟨-, -, rfl, -⟩ := same
      exact no_hyphen (by simp)
  | [a], [] => simp [hyphenated]
  | [a, b], [] => simp [hyphenated]
  -- Otherwise the capital is that of the next word, and stands third only behind two characters.
  | [a], word :: others =>
    cases (List.forall_mem_cons.1 later).1 with
    | intro lower digits => simp [hyphenated, capitalize, (asciiUpper_lower lower).2.2]
  | [a, b], word :: others =>
    cases (List.forall_mem_cons.1 later).1 with
    | intro lower digits =>
      simp [hyphenated, capitalize, (asciiUpper_lower lower).1, eq_comm (b := a), eq_comm (b := b)]

/-! ### There and back -/

theorem styleKey_marked {text : List Char} (marked : "ms-".toList <+: text) :
    styleKey ('-' :: text) = joinWords text := by
  obtain ⟨rest, rfl⟩ := marked
  rfl

/-- A name that does not start with the mark is put into camel case as it is. -/
theorem styleKey_unmarked {text : List Char} (unmarked : ¬ "-ms-".toList <+: text)
    (no_custom : ¬ "--".toList <+: text) : styleKey text = joinWords text := by
  rw [← startsWith_iff, startsWith, Bool.not_eq_true, Option.isSome_eq_false_iff,
    Option.isNone_iff_eq_none] at unmarked
  rw [styleKey, unmarked]
  simp only [camelChars]
  split
  · next rest => exact absurd ⟨rest, rfl⟩ no_custom
  · rfl

theorem propertyChars_of_key {key : List Char} (no_custom : ¬ "--".toList <+: key) :
    propertyChars key = (if hasVendorMark key then ['-'] else []) ++ hyphenateCapitals key := by
  unfold propertyChars
  split
  · next rest => exact absurd ⟨rest, rfl⟩ no_custom
  · rfl

/-- Words behind a hyphen start with a capital in camel case, so there is no mark. -/
theorem propertyChars_capitals {words : List (List Char)} (each : ∀ w ∈ words, PropertyWord w) :
    propertyChars (joinWords (hyphenated words)) = hyphenated words := by
  have capital : ∀ c ∈ (words.flatMap capitalize).head?, isUpper c = true := by
    match words with
    | [] => exact fun c first => nomatch first
    | word :: others =>
      cases each word List.mem_cons_self with
      | intro first digits =>
        intro c mem
        cases mem
        exact (asciiUpper_lower first).1
  have no_mark : ¬ hasVendorMark (words.flatMap capitalize) = true := by
    rw [hasVendorMark_eq_true]
    rintro ⟨c, rest, same, -⟩
    exact absurd (capital 'm' (by rw [same]; rfl)) (by decide)
  have no_custom : ¬ "--".toList <+: words.flatMap capitalize := by
    rintro ⟨rest, same⟩
    exact absurd (capital '-' (by rw [← same]; rfl)) (by decide)
  rw [joinWords_hyphenated each, propertyChars_of_key no_custom, if_neg no_mark,
    hyphenateCapitals_capitalized each, List.nil_append]

/-- A first word without a hyphen in front stays as it is, and the hyphen comes back with the mark. -/
theorem propertyChars_plain {first : List Char} {others : List (List Char)}
    (each : ∀ w ∈ first :: others, PropertyWord w) :
    propertyChars (joinWords (join ['-'] (first :: others))) =
      (if hasVendorMark (first ++ others.flatMap capitalize) then ['-'] else []) ++
        join ['-'] (first :: others) := by
  obtain ⟨here, later⟩ := List.forall_mem_cons.1 each
  rw [joinWords_join each, propertyChars_of_key (here.not_hyphen_append ['-'] _),
    hyphenateCapitals_append, hyphenateCapitals_small here.small, hyphenateCapitals_capitalized later,
    join_cons]

theorem propertyChars_styleKey {name : List Char} (proper : PropertyName name) :
    propertyChars (styleKey name) = name := by
  cases proper with
  | custom rest => rfl
  | @plain words some_word each unmarked =>
    match words, some_word with
    | first :: others, _ =>
      have word_first : ∀ piece, ¬ '-' :: piece <+: join ['-'] (first :: others) := fun piece =>
        join_cons first others ▸ (each first List.mem_cons_self).not_hyphen_append piece _
      rw [styleKey_unmarked (word_first _) (word_first _), propertyChars_plain each,
        if_neg ((hasVendorMark_iff each).not.2 unmarked), List.nil_append]
  | @vendor words some_word each =>
    match words, some_word with
    | first :: others, _ =>
      -- The mark is put into camel case without its hyphen; any other first word gets a capital for it.
      by_cases marked : "ms-".toList <+: join ['-'] (first :: others)
      · rw [styleKey_marked marked, propertyChars_plain each, if_pos ((hasVendorMark_iff each).2 marked)]
        rfl
      · have word_second : ¬ "--".toList <+: '-' :: join ['-'] (first :: others) := fun custom =>
          (each first List.mem_cons_self).not_hyphen_append [] _
            (join_cons first others ▸ (List.cons_prefix_cons.1 custom).2)
        rw [styleKey_unmarked (fun both => marked (List.cons_prefix_cons.1 both).2) word_second,
          join_cons]
        exact propertyChars_capitals each

/-- A property's name comes back from the key that it has in camel case. So no two names have one key. -/
theorem property_styleKey {name : String} (proper : PropertyName name.toList) :
    property (String.ofList (styleKey name.toList)) = name ∧
      ∀ other : String, PropertyName other.toList →
        styleKey other.toList = styleKey name.toList → other = name := by
  have back : ∀ {name : String}, PropertyName name.toList →
      property (String.ofList (styleKey name.toList)) = name := fun proper => by
    rw [property, String.toList_ofList, propertyChars_styleKey proper, String.ofList_toList]
  refine ⟨back proper, fun other proper' same => ?_⟩
  rw [← back proper, ← back proper', same]

theorem property_styleKey_flexAlign :
    property "msFlexAlign" = "-ms-flex-align" ∧ ∀ other : String, PropertyName other.toList →
      styleKey other.toList = "msFlexAlign".toList → other = "-ms-flex-align" := by
  have each : ∀ w ∈ ["ms".toList, "flex".toList, "align".toList], PropertyWord w := by
    intro w mem
    simp only [List.mem_cons, List.not_mem_nil, or_false] at mem
    rcases mem with rfl | rfl | rfl <;> exact .intro (by decide) (by decide)
  have proper : PropertyName "-ms-flex-align".toList := .vendor (List.cons_ne_nil _ _) each
  have key : styleKey "-ms-flex-align".toList = "msFlexAlign".toList := by decide
  have back := property_styleKey proper
  rwa [key, String.ofList_toList] at back

end DesignComponents.Style
