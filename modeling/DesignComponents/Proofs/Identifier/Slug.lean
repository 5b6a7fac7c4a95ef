import DesignComponents.Proofs.Identifier

/-! Slugs of any text. Hyphens are squeezed pass by pass until none stands beside another; that this ends,
and where, is what the shape of slugs rests on. -/

set_option autoImplicit false

namespace DesignComponents.Identifier

open Text

/-! ### Squeezing hyphens -/

/-- Puts one hyphen for each two, from the left. -/
def squeeze (text : List Char) : List Char := replaceAll ['-', '-'] ['-'] text

/-- Exactly so many passes over the text, each with two hyphens beside each other before it, and none
beside another after the last. -/
inductive Squeezes : Nat → List Char → List Char → Prop
  | done {text : List Char} : ¬ ['-', '-'] <:+: text → Squeezes 0 text text
  | pass {k : Nat} {text squeezed : List Char} : ['-', '-'] <:+: text → Squeezes k (squeeze text) squeezed →
      Squeezes (k + 1) text squeezed

variable {text : List Char} {c : Char}

/-- A text is taken as a pass takes it: two hyphens at once, and all else one by one. -/
@[elab_as_elim]
theorem squeeze_induction {motive : List Char → Prop} (nil : motive [])
    (pair : ∀ rest, motive rest → motive ('-' :: '-' :: rest))
    (single : ∀ c rest, ¬ ['-', '-'] <+: c :: rest → motive rest → motive (c :: rest))
    (text : List Char) : motive text := by
  induction length : text.length using Nat.strong_induction_on generalizing text with
  | _ n ih =>
    match text with
    | [] => exact nil
    | c :: rest =>
      by_cases front : ['-', '-'] <+: c :: rest
      · obtain ⟨rest, rfl, rfl⟩ := front
        exact pair rest (ih _ (by simp_all; omega) rest rfl)
      · exact single c rest front (ih _ (by simp_all; omega) rest rfl)

theorem squeeze_nil : squeeze [] = [] := rfl

theorem squeeze_pair (rest : List Char) : squeeze ('-' :: '-' :: rest) = '-' :: squeeze rest :=
  replaceAll_append (by simp)

theorem squeeze_cons {rest : List Char} (single : ¬ ['-', '-'] <+: c :: rest) :
    squeeze (c :: rest) = c :: squeeze rest := replaceAll_cons single

theorem head?_squeeze (text : List Char) : (squeeze text).head? = text.head? := by
  induction text using squeeze_induction with
  | nil => rfl
  | pair rest => rw [squeeze_pair]; rfl
  | single c rest front => rw [squeeze_cons front]; rfl

theorem length_squeeze_le (text : List Char) : (squeeze text).length ≤ text.length := by
  induction text using squeeze_induction with
  | nil => rfl
  | pair rest ih => rw [squeeze_pair]; simp only [List.length_cons]; omega
  | single c rest front ih => rw [squeeze_cons front]; simp only [List.length_cons]; omega

/-- A pass that finds two hyphens makes the text shorter. -/
theorem length_squeeze_lt (held : ['-', '-'] <:+: text) : (squeeze text).length < text.length := by
  induction text using squeeze_induction with
  | nil => simp at held
  | pair rest =>
    have := length_squeeze_le rest
    rw [squeeze_pair]
    simp only [List.length_cons]
    omega
  | single c rest front ih =>
    have := ih ((List.infix_cons_iff.1 held).resolve_left front)
    rw [squeeze_cons front]
    simp only [List.length_cons]
    omega

/-! ### What squeezing ends with -/

/-- A hyphen before a hyphen goes, and all else stays. -/
theorem collapse_cons (c : Char) (text : List Char) : collapse (c :: text) =
    if c = '-' ∧ text.head? = some '-' then collapse text else c :: collapse text := by
  cases text with
  | nil => simp [collapse]
  | cons d rest => simp [collapse]

theorem head?_collapse (text : List Char) : (collapse text).head? = text.head? := by
  induction text with
  | nil => rfl
  | cons c rest ih =>
    rw [collapse_cons]
    split
    · next both => rw [ih, both.2, both.1, List.head?_cons]
    · rfl

theorem getLast?_collapse (text : List Char) : (collapse text).getLast? = text.getLast? := by
  induction text with
  | nil => rfl
  | cons c rest ih =>
    rw [collapse_cons]
    split
    · next both =>
      have some_rest : rest ≠ [] := by
        rintro rfl
        exact nomatch both.2
      rw [ih, List.getLast?_cons_of_ne_nil some_rest]
    · rw [List.getLast?_cons, List.getLast?_cons, ih]

theorem single_collapse (text : List Char) : ¬ ['-', '-'] <:+: collapse text := by
  induction text with
  | nil => simp [collapse]
  | cons c rest ih =>
    rw [collapse_cons]
    split
    · exact ih
    · next other =>
      rw [List.infix_cons_iff, not_or]
      refine ⟨fun front => other ?_, ih⟩
      obtain ⟨rfl, next⟩ := List.cons_prefix_cons.1 front
      obtain ⟨more, next⟩ := next
      exact ⟨rfl, by rw [← head?_collapse, ← next]; rfl⟩

theorem collapse_of_single (single : ¬ ['-', '-'] <:+: text) : collapse text = text := by
  induction text with
  | nil => rfl
  | cons c rest ih =>
    rw [List.infix_cons_iff, not_or] at single
    rw [collapse_cons, if_neg, ih single.2]
    rintro ⟨rfl, next⟩
    obtain ⟨more, rfl⟩ := List.head?_eq_some_iff.1 next
    exact single.1 ⟨more, rfl⟩

/-- A pass changes nothing of what is left in the end. -/
theorem collapse_squeeze (text : List Char) : collapse (squeeze text) = collapse text := by
  induction text using squeeze_induction with
  | nil => rfl
  | pair rest ih =>
    rw [squeeze_pair, collapse_cons, head?_squeeze, ih, ← collapse_cons, collapse_cons '-' ('-' :: rest),
      if_pos ⟨rfl, rfl⟩]
  | single c rest front ih =>
    rw [squeeze_cons front, collapse_cons, head?_squeeze, ih, ← collapse_cons]

/-- The passes come to an end: each drops a hyphen at least, and after the last each run is one hyphen. -/
theorem squeezes_collapse (text : List Char) :
    ∃ k, k + (collapse text).length ≤ text.length ∧ Squeezes k text (collapse text) := by
  -- On the length; what squeezing ends with is the same before a pass and after it.
  induction length : text.length using Nat.strong_induction_on generalizing text with
  | _ n ih =>
    by_cases held : ['-', '-'] <:+: text
    · have shorter := length_squeeze_lt held
      obtain ⟨k, bound, passes⟩ := ih _ (length ▸ shorter) (squeeze text) rfl
      rw [collapse_squeeze] at bound passes
      exact ⟨k + 1, by omega, .pass held passes⟩
    · rw [collapse_of_single held]
      exact ⟨0, by omega, .done held⟩

/-- What is no hyphen stays, in its order. -/
theorem filter_collapse (text : List Char) :
    (collapse text).filter (· != '-') = text.filter (· != '-') := by
  induction text with
  | nil => rfl
  | cons c rest ih =>
    rw [collapse_cons]
    split
    · next both => rw [ih, both.1]; rfl
    · rw [List.filter_cons, List.filter_cons, ih]

/-! ### Single hyphens between words -/

/-- Some text, with no hyphen at its ends and none beside another. -/
structure Joined (text : List Char) : Prop where
  some_text : text ≠ []
  first : text.head? ≠ some '-'
  last : text.getLast? ≠ some '-'
  single : ¬ ['-', '-'] <:+: text

/-- Before a text that does not end in a hyphen stand a word, or nothing, and words behind hyphens. -/
theorem exists_words (last : text.getLast? ≠ some '-') (single : ¬ ['-', '-'] <:+: text) :
    ∃ first others, text = first ++ hyphenated others ∧ '-' ∉ first ∧ ∀ w ∈ others, Solid w := by
  induction text with
  | nil => exact ⟨[], [], rfl, List.not_mem_nil, nofun⟩
  | cons c rest ih =>
    rw [List.infix_cons_iff, not_or] at single
    have last' : rest.getLast? ≠ some '-' := by
      intro ends
      rw [List.getLast?_cons, ends] at last
      exact last rfl
    obtain ⟨first, others, written, plain, each⟩ := ih last' single.2
    by_cases hyphen : c = '-'
    · subst hyphen
      -- What follows a hyphen is a word, for the text neither ends there nor goes on with a hyphen.
      have some_first : first ≠ [] := by
        rintro rfl
        cases others with
        | nil =>
          rw [written] at last
          exact last rfl
        | cons word others => exact single.1 ⟨word ++ hyphenated others, by rw [written]; rfl⟩
      exact ⟨[], first :: others, by rw [written]; rfl, List.not_mem_nil,
        List.forall_mem_cons.2 ⟨⟨some_first, plain⟩, each⟩⟩
    · refine ⟨c :: first, others, by rw [written]; rfl, ?_, each⟩
      rw [List.mem_cons, not_or]
      exact ⟨Ne.symm hyphen, plain⟩

theorem Joined.words (joined : Joined text) :
    ∃ first others, text = join ['-'] (first :: others) ∧ ∀ w ∈ first :: others, Solid w := by
  obtain ⟨first, others, written, plain, each⟩ := exists_words joined.last joined.single
  have some_first : first ≠ [] := by
    rintro rfl
    cases others with
    | nil => exact joined.some_text written
    | cons word others => exact joined.first (by rw [written]; rfl)
  exact ⟨first, others, by rw [join_cons, written], List.forall_mem_cons.2 ⟨⟨some_first, plain⟩, each⟩⟩

/-! ### The letters of a name -/

/-- The letters and numerals of a name in lower case, in their order. -/
def letters (name : List Char) : List Char := (name.filter isAlphanumeric).flatMap lowerChar

theorem mem_letters {name : List Char} :
    c ∈ letters name ↔ ∃ d ∈ name, isAlphanumeric d = true ∧ c ∈ lowerChar d := by
  simp only [letters, List.mem_flatMap, List.mem_filter, and_assoc]

theorem lowerChar_no_hyphen (alphanumeric : isAlphanumeric c = true) : '-' ∉ lowerChar c := by
  suffices ∀ d ∈ lowerChar c, d.toNat ∉ ['-'.toNat] from fun mem => this '-' mem List.mem_cons_self
  unfold lowerChar
  split
  · next ascii =>
    refine @ascii_induction (fun c => isAlphanumeric c = true →
      ∀ d ∈ [if isAsciiUpper c then Char.ofNat (c.toNat + 32) else c], d.toNat ∉ ['-'.toNat])
      ?_ c ascii alphanumeric
    decide +kernel
  · next beyond =>
    have limits : ∀ n ∈ ['-'.toNat], n ≤ '-'.toNat := by decide
    refine mapByTable_avoids (by decide) (shifts_apart limits (by decide +kernel)) (by decide +kernel) ?_
    rw [List.mem_singleton, Char.toNat_inj]
    rintro rfl
    exact beyond (by decide)

theorem filter_hyphenate (before : Option Char) (name : List Char) :
    (hyphenate before name).filter (· != '-') = letters name := by
  induction name generalizing before with
  | nil => rfl
  | cons c rest ih =>
    have sign : (if isUpper c && endsWord before then ['-'] else []).filter (· != '-') = [] := by
      split <;> rfl
    rw [hyphenate, List.filter_append, List.filter_append, sign, ih, List.nil_append]
    by_cases alphanumeric : isAlphanumeric c = true
    · have kept : (lowerChar c).filter (· != '-') = lowerChar c := by
        refine List.filter_eq_self.2 fun d mem => bne_iff_ne.2 ?_
        rintro rfl
        exact lowerChar_no_hyphen alphanumeric mem
      rw [if_pos alphanumeric, kept, letters, letters, List.filter_cons_of_pos alphanumeric,
        List.flatMap_cons]
    · rw [if_neg alphanumeric, letters, letters, List.filter_cons_of_neg alphanumeric]
      rfl

/-- Trimmed of hyphens and squeezed, a text keeps what is no hyphen. -/
theorem filter_collapse_trimBy (text : List Char) :
    (collapse (trimBy (· == '-') text)).filter (· != '-') = text.filter (· != '-') := by
  rw [filter_collapse]
  exact filter_trimBy (· == '-') text

theorem joined_collapse_trimBy (some_left : collapse (trimBy (· == '-') text) ≠ []) :
    Joined (collapse (trimBy (· == '-') text)) := by
  obtain ⟨first, last⟩ := ends_trimBy (· == '-') text
  constructor
  · exact some_left
  · rw [head?_collapse]
    exact fun front => nomatch first '-' front
  · rw [getLast?_collapse]
    exact fun ends => nomatch last '-' ends
  · exact single_collapse _

theorem slugOfHyphenated_eq (text : List Char) : slugOfHyphenated text =
    if collapse (trimBy (· == '-') text) = [] then "unnamed".toList
    else collapse (trimBy (· == '-') text) := by
  unfold slugOfHyphenated
  split
  · next none_left => rw [if_pos none_left]
  · next some_left => rw [if_neg some_left]

theorem joined_slugOfHyphenated (text : List Char) : Joined (slugOfHyphenated text) := by
  rw [slugOfHyphenated_eq]
  split
  · constructor <;> decide +kernel
  · next some_left => exact joined_collapse_trimBy some_left

theorem mem_slugOfHyphenated (mem : c ∈ slugOfHyphenated text) :
    slugOfHyphenated text = "unnamed".toList ∨ c ∈ text := by
  rw [slugOfHyphenated_eq] at mem ⊢
  split at mem
  · next none_left => exact .inl (if_pos none_left)
  · exact .inr ((infix_trimBy _ _).subset (mem_of_mem_collapse mem))

/-! ### Names of ASCII -/

/-- Words of small letters and digits, with a hyphen between each two. -/
def SmallWords (text : List Char) : Prop := ∃ first others, text = join ['-'] (first :: others) ∧
  ∀ w ∈ first :: others, w ≠ [] ∧ ∀ c ∈ w, Small c

theorem small_unnamed : ∀ c ∈ "unnamed".toList, Small c := by decide

theorem lowerChar_small (small : Small c) : lowerChar c = [c] := by
  refine @ascii_induction (fun c => Small c → lowerChar c = [c]) ?_ c
    (isAscii_of_alphanumeric small.alphanumeric) small
  decide +kernel

theorem hyphenate_ascii {name : List Char} (ascii : ∀ c ∈ name, isAscii c = true) (before : Option Char) :
    ∀ c ∈ hyphenate before name, c = '-' ∨ Small c := by
  induction name generalizing before with
  | nil => exact nofun
  | cons c rest ih =>
    obtain ⟨here, later⟩ := List.forall_mem_cons.1 ascii
    intro d mem
    rw [hyphenate, List.mem_append, List.mem_append] at mem
    rcases mem with (mem | mem) | mem
    · split at mem
      · exact .inl (List.mem_singleton.1 mem)
      · exact absurd mem List.not_mem_nil
    · split at mem
      · next alphanumeric =>
        rw [isAlphanumeric, if_pos here] at alphanumeric
        obtain ⟨e, -, low, small, -⟩ := lowerChar_alphanumeric alphanumeric
        rw [low] at mem
        exact .inr (List.mem_singleton.1 mem ▸ small)
      · exact .inl (List.mem_singleton.1 mem)
    · exact ih later (some c) d mem

/-- Small letters, digits and hyphens stay as they are. -/
theorem hyphenate_eq_self (plain : ∀ c ∈ text, c = '-' ∨ Small c) (before : Option Char) :
    hyphenate before text = text := by
  induction text generalizing before with
  | nil => rfl
  | cons c rest ih =>
    obtain ⟨here, later⟩ := List.forall_mem_cons.1 plain
    rw [hyphenate, ih later]
    rcases here with rfl | small
    · rfl
    · rw [small.not_upper, if_pos (isAlphanumeric_of_ascii small.alphanumeric), lowerChar_small small]
      rfl

theorem Joined.slugOfHyphenated (joined : Joined text) : slugOfHyphenated text = text := by
  obtain ⟨first, others, rfl, each⟩ := joined.words
  exact slugOfHyphenated_join each

theorem Joined.smallWords (joined : Joined text) (plain : ∀ c ∈ text, c = '-' ∨ Small c) :
    SmallWords text := by
  obtain ⟨first, others, rfl, each⟩ := joined.words
  refine ⟨first, others, rfl, fun w held => ⟨(each w held).1, fun c mem => ?_⟩⟩
  have in_text : c ∈ join ['-'] (first :: others) := by
    rw [join_cons, List.mem_append]
    rcases List.mem_cons.1 held with rfl | held
    · exact .inl mem
    · exact .inr (List.mem_flatMap.2 ⟨w, held, List.mem_cons_of_mem '-' mem⟩)
  refine (plain c in_text).resolve_left ?_
  rintro rfl
  exact (each w held).2 mem

/-! ### Slugs -/

theorem slug_toList (name : String) :
    (slug name).toList = slugOfHyphenated (hyphenate none name.toList) := by
  rw [slug, String.toList_ofList, slugChars]

theorem letters_ne_nil {name : List Char} (mem : c ∈ name) (alphanumeric : isAlphanumeric c = true) :
    letters name ≠ [] := by
  obtain ⟨d, low⟩ := List.exists_mem_of_ne_nil _ (lowerChar_ne_nil c)
  exact List.ne_nil_of_mem (mem_letters.2 ⟨c, mem, alphanumeric, low⟩)

/-- A name without letters and numerals is called `unnamed`; of any other the slug has them all, in lower case
and in their order, and else hyphens only. -/
theorem slug_letters (name : String) :
    (∀ c ∈ name.toList, isAlphanumeric c = false) ∧ slug name = "unnamed" ∨
    (∃ c ∈ name.toList, isAlphanumeric c = true) ∧
      (slug name).toList.filter (· != '-') = letters name.toList := by
  have kept := filter_collapse_trimBy (hyphenate none name.toList)
  have written := slugOfHyphenated_eq (hyphenate none name.toList)
  have joined := @joined_collapse_trimBy (hyphenate none name.toList)
  rw [filter_hyphenate] at kept
  rw [← slug_toList] at written
  generalize collapse (trimBy (· == '-') (hyphenate none name.toList)) = left at kept written joined
  by_cases some_letter : ∃ c ∈ name.toList, isAlphanumeric c = true
  · obtain ⟨c, mem, alphanumeric⟩ := some_letter
    have some_left : left ≠ [] := by
      rintro rfl
      exact letters_ne_nil mem alphanumeric kept.symm
    rw [if_neg some_left] at written
    refine .inr ⟨⟨c, mem, alphanumeric⟩, ?_⟩
    rw [written]
    exact kept
  · have none_kept : letters name.toList = [] := by
      refine List.eq_nil_iff_forall_not_mem.2 fun d mem => some_letter ?_
      obtain ⟨c, mem, alphanumeric, -⟩ := mem_letters.1 mem
      exact ⟨c, mem, alphanumeric⟩
    have none_left : left = [] := by
      by_contra some_left
      -- It would begin with what is no hyphen.
      obtain ⟨c, rest, rfl⟩ := List.exists_cons_of_ne_nil some_left
      have other : c ≠ '-' := fun same => (joined some_left).first (congrArg some same)
      simp [none_kept, other] at kept
    rw [if_pos none_left] at written
    exact .inl ⟨by simpa using some_letter, String.toList_inj.1 written⟩

theorem joined_slug (name : String) : Joined (slug name).toList :=
  slug_toList name ▸ joined_slugOfHyphenated _

/-- A character of a slug is a hyphen, or comes from a letter or numeral of the name. -/
theorem mem_slug {name : String} (named : slug name ≠ "unnamed") (mem : c ∈ (slug name).toList) :
    c = '-' ∨ ∃ d ∈ name.toList, isAlphanumeric d = true ∧ c ∈ lowerChar d := by
  obtain ⟨-, unnamed⟩ | ⟨-, kept⟩ := slug_letters name
  · exact absurd unnamed named
  · by_cases hyphen : c = '-'
    · exact .inl hyphen
    · refine .inr (mem_letters.1 ?_)
      rw [← kept]
      exact List.mem_filter.2 ⟨mem, bne_iff_ne.2 hyphen⟩

/-- The passes that make the hyphens of a name single end, with its slug if anything is left. -/
theorem squeezes_slug (name : String) :
    ∃ k squeezed, Squeezes k (trimBy (· == '-') (hyphenate none name.toList)) squeezed ∧
      k + squeezed.length ≤ (trimBy (· == '-') (hyphenate none name.toList)).length ∧
      slug name = if squeezed = [] then "unnamed" else String.ofList squeezed := by
  obtain ⟨k, bound, passes⟩ := squeezes_collapse (trimBy (· == '-') (hyphenate none name.toList))
  refine ⟨k, _, passes, bound, String.toList_inj.1 ?_⟩
  rw [slug_toList, slugOfHyphenated_eq]
  split
  · rfl
  · rw [String.toList_ofList]

theorem slug_ascii {name : String} (ascii : ∀ c ∈ name.toList, isAscii c = true) :
    SmallWords (slug name).toList ∧ slug (slug name) = slug name := by
  have joined := joined_slug name
  -- Of small letters, digits and single hyphens nothing is left to change.
  have plain : ∀ c ∈ (slug name).toList, c = '-' ∨ Small c := by
    intro c mem
    rw [slug_toList] at mem
    obtain unnamed | mem := mem_slugOfHyphenated mem
    · rw [unnamed] at mem
      exact .inr (small_unnamed c mem)
    · exact hyphenate_ascii ascii none c mem
  refine ⟨joined.smallWords plain, String.toList_inj.1 ?_⟩
  rw [slug_toList (slug name), hyphenate_eq_self plain, joined.slugOfHyphenated]

/-- The hyphens of any name come to be single after a number of passes, each of which drops one at least.
What is left, or `unnamed` where nothing is, is the slug. It has single hyphens and none at its ends, no
white space, and else the letters and numerals of the name in lower case, all of them and in their order.
The slug of an ASCII name is words of small letters and digits, and is its own slug. -/
theorem slug_shape (name : String) :
    (∃ k squeezed, Squeezes k (trimBy (· == '-') (hyphenate none name.toList)) squeezed ∧
      k + squeezed.length ≤ (trimBy (· == '-') (hyphenate none name.toList)).length ∧
      slug name = if squeezed = [] then "unnamed" else String.ofList squeezed) ∧
    Joined (slug name).toList ∧ Unspaced (slug name).toList ∧
    (slug name = "unnamed" ∨
      ∀ c ∈ (slug name).toList, c = '-' ∨ ∃ d ∈ name.toList, isAlphanumeric d = true ∧ c ∈ lowerChar d) ∧
    ((∀ c ∈ name.toList, isAlphanumeric c = false) ∧ slug name = "unnamed" ∨
      (∃ c ∈ name.toList, isAlphanumeric c = true) ∧
        (slug name).toList.filter (· != '-') = letters name.toList) ∧
    ((∀ c ∈ name.toList, isAscii c = true) →
      SmallWords (slug name).toList ∧ slug (slug name) = slug name) :=
  ⟨squeezes_slug name, joined_slug name, (slug_signless name).unspaced,
    or_iff_not_imp_left.2 fun named _ mem => mem_slug named mem, slug_letters name, slug_ascii⟩

example : slug "--Card  2Title--" = "card-2-title" := by decide +kernel

end DesignComponents.Identifier
