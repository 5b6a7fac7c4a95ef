import DesignComponents.Proofs.Text.CharClass
import DesignComponents.Proofs.Text.Trim
import DesignComponents.Style.Sheet
import Std.Data.String.ToNat

/-! The classes of elements. No two have the same number, so none are the same; and none is split
where white space is, or has a sign in it other than hyphens. -/

set_option autoImplicit false

namespace DesignComponents

open Text

/-- A text with no white space in it. -/
def Text.Unspaced (text : List Char) : Prop := ∀ c ∈ text, isBlank c = false

/-- White space, and all signs of ASCII but the hyphen (and NUL). -/
def Text.signCodePoints : List Nat :=
  blankCodePoints ++ (List.range 128).filter fun n =>
    !isAsciiAlphanumeric (Char.ofNat n) && n != 0 && n != '-'.toNat

/-- A text without white space and signs. -/
def Text.Signless (text : List Char) : Prop := ∀ c ∈ text, c.toNat ∉ signCodePoints

namespace Text

theorem signless_of_all {text : List Char}
    (all : text.all (fun c => !signCodePoints.contains c.toNat) = true) : Signless text := by
  intro c mem
  simpa using List.all_eq_true.1 all c mem

theorem Signless.append {left right : List Char} (first : Signless left) (second : Signless right) :
    Signless (left ++ right) := by
  intro c mem
  rcases List.mem_append.1 mem with mem | mem
  · exact first c mem
  · exact second c mem

theorem signless_flatten {texts : List (List Char)} (each : ∀ text ∈ texts, Signless text) :
    Signless texts.flatten := by
  intro c mem
  obtain ⟨text, held, mem⟩ := List.mem_flatten.1 mem
  exact each text held c mem

theorem Unspaced.trim {text : List Char} (solid : Unspaced text) : Text.trim text = text := by
  by_cases none : text = []
  · rw [none, trim_nil]
  · have trimmed : Trimmed text :=
      ⟨none, fun c mem => solid c (List.mem_of_mem_head? mem),
        fun c mem => solid c (List.mem_of_getLast? mem)⟩
    exact trimmed.trim

theorem Signless.unspaced {text : List Char} (signless : Signless text) : Unspaced text := by
  intro c mem
  apply Bool.eq_false_iff.2
  intro blank
  exact signless c mem (List.mem_append_left _ (isBlank_eq_true blank))

theorem Signless.not_mem {text : List Char} (signless : Signless text) {sign : Char}
    (known : signCodePoints.contains sign.toNat = true) : sign ∉ text := by
  intro mem
  exact signless sign mem (by simpa using known)

/-! ### Small letters -/

theorem signCodePoints_le : ∀ n ∈ signCodePoints, n ≤ 0x3000 := by decide +kernel

/-- No sign is an ASCII digit or letter. -/
theorem signCodePoints_apart : ∀ n ∈ signCodePoints,
    (n < 48 ∨ 57 < n) ∧ (n < 65 ∨ 90 < n) ∧ (n < 97 ∨ 122 < n) := by
  decide +kernel

/-- No letter has a small letter that is white space or a sign. -/
theorem lowerTables_signless :
    (∀ s ∈ CaseTable.toLower, ∀ b ∈ signCodePoints,
      (b : Int) < s.first + s.offset ∨ s.last + s.offset < b) ∧
    ∀ p ∈ CaseTable.toLowerLong, ∀ n ∈ p.2, n ∉ signCodePoints :=
  ⟨shifts_apart signCodePoints_le (by decide +kernel), by decide +kernel⟩

theorem lowerAscii_signless {c : Char} (upper : isAsciiUpper c = true) :
    (Char.ofNat (c.toNat + 32)).toNat ∉ signCodePoints := by
  rw [isAsciiUpper_iff] at upper
  have valid : (Char.ofNat (c.toNat + 32)).toNat = c.toNat + 32 := by
    rw [Char.ofNat, dif_pos (.inl (by omega))]
    rfl
  intro sign
  have := signCodePoints_apart _ sign
  omega

theorem lowerChar_signless {c : Char} (plain : c.toNat ∉ signCodePoints) :
    Signless (lowerChar c) := by
  obtain ⟨shifts, long⟩ := lowerTables_signless
  unfold lowerChar
  split
  · intro c' mem
    rw [List.mem_singleton.1 mem]
    split
    · next upper => exact lowerAscii_signless upper
    · exact plain
  · exact mapByTable_avoids (by decide +kernel) shifts long plain

theorem lower_signless {text : List Char} (plain : Signless text) : Signless (lower text) := by
  -- By induction on the text, with the words that are done and what stands before.
  have after : ∀ before done, (∀ word ∈ done, Signless word) →
      ∀ word ∈ lowerAfter before text done, Signless word := by
    induction text with
    | nil => exact fun before done all => all
    | cons c rest ih =>
      intro before done all
      refine ih (fun c mem => plain c (List.mem_cons_of_mem _ mem)) _ _ ?_
      intro word mem
      rcases List.mem_cons.1 mem with rfl | mem
      · split
        · exact signless_of_all (by decide)
        · exact lowerChar_signless (plain c List.mem_cons_self)
      · exact all word mem
  unfold lower
  split
  · intro c mem
    obtain ⟨c', held, mem⟩ := List.mem_flatMap.1 mem
    exact lowerChar_signless (plain c' held) c mem
  · refine signless_flatten fun word mem => ?_
    exact after [] [] nofun word (List.mem_reverse.1 mem)

theorem not_sign_of_isAlphanumeric {c : Char} (alphanumeric : isAlphanumeric c = true) :
    c.toNat ∉ signCodePoints := by
  intro sign
  by_cases ascii : isAscii c = true
  · rw [isAlphanumeric, if_pos ascii] at alphanumeric
    simp only [isAsciiAlphanumeric, isAsciiLetter, Bool.or_eq_true, isAsciiLower_iff,
      isAsciiUpper_iff, isAsciiDigit_iff] at alphanumeric
    have := signCodePoints_apart _ sign
    omega
  · rcases List.mem_append.1 sign with blank | sign
    · have word := isWord_blankCodePoints _ blank
      simp [Char.ofNat_toNat, isWord, alphanumeric] at word
    · have small := List.mem_range.1 (List.mem_filter.1 sign).1
      simp [isAscii] at ascii
      omega

theorem signless_plain {text : List Char} (plain : ∀ c ∈ text, isAlphanumeric c = true ∨ c = '-') :
    Signless text := by
  intro c mem
  obtain alphanumeric | rfl := plain c mem
  · exact not_sign_of_isAlphanumeric alphanumeric
  · intro sign
    rcases List.mem_append.1 sign with blank | sign
    · exact absurd blank (by decide)
    · exact absurd (List.mem_filter.1 sign).2 (by decide)

end Text

namespace Identifier

/-! ### Slugs -/

theorem mem_of_mem_collapse {text : List Char} {c : Char} (mem : c ∈ collapse text) : c ∈ text := by
  induction text using collapse.induct with
  | case1 a b rest double ih =>
    rw [collapse, if_pos double] at mem
    exact List.mem_cons_of_mem _ (ih mem)
  | case2 a b rest single ih =>
    rw [collapse, if_neg single] at mem
    rcases List.mem_cons.1 mem with rfl | mem
    · exact List.mem_cons_self
    · exact List.mem_cons_of_mem _ (ih mem)
  | case3 cs short =>
    rwa [collapse.eq_2 cs short] at mem

theorem slugOfHyphenated_signless {hyphenated : List Char} (plain : Signless hyphenated) :
    Signless (slugOfHyphenated hyphenated) := by
  unfold slugOfHyphenated
  split
  · exact signless_plain (by decide)
  · exact fun c mem => plain c ((infix_trimBy _ _).subset (mem_of_mem_collapse mem))

theorem hyphen_signless : Signless ['-'] := signless_plain (by decide)

theorem hyphenate_signless (before : Option Char) (name : List Char) :
    Signless (hyphenate before name) := by
  induction name generalizing before with
  | nil => exact nofun
  | cons c rest ih =>
    refine Signless.append (Signless.append ?_ ?_) (ih (some c))
    · split
      · exact hyphen_signless
      · exact nofun
    · split
      · next alphanumeric => exact lowerChar_signless (not_sign_of_isAlphanumeric alphanumeric)
      · exact hyphen_signless

theorem slug_signless (name : String) : Signless (slug name).toList := by
  rw [slug, String.toList_ofList]
  exact slugOfHyphenated_signless (hyphenate_signless none name.toList)

/-! ### Component names -/

theorem asciiUpper_alphanumeric {c : Char} (alphanumeric : isAsciiAlphanumeric c = true) :
    isAsciiAlphanumeric (asciiUpper c) = true := by
  refine @ascii_induction (fun c => isAsciiAlphanumeric c = true →
    isAsciiAlphanumeric (asciiUpper c) = true) ?_ c (isAscii_of_alphanumeric alphanumeric) alphanumeric
  decide +kernel

theorem pascalChars_alphanumeric {text : List Char} {c : Char} (mem : c ∈ pascalChars text) :
    isAsciiAlphanumeric c = true := by
  obtain ⟨word, held, mem⟩ := List.mem_flatMap.1 mem
  have all := of_mem_wordsAux (fun _ mem => absurd mem List.not_mem_nil)
    (fun _ mem => absurd mem List.not_mem_nil) word held
  simp only [Bool.not_eq_false'] at all
  cases word with
  | nil => exact nomatch mem
  | cons first rest =>
    rcases List.mem_cons.1 mem with rfl | mem
    · exact asciiUpper_alphanumeric (all first List.mem_cons_self)
    · exact all c (List.mem_cons_of_mem first mem)

theorem componentName_signless (text : String) : Signless (componentName text).toList := by
  have letters : Signless (pascalChars text.toList) := fun c mem =>
    not_sign_of_isAlphanumeric (isAlphanumeric_of_ascii (pascalChars_alphanumeric mem))
  rw [componentName, String.toList_ofList]
  unfold componentChars
  split
  · exact signless_plain (by decide)
  · next made =>
    rw [made] at letters
    split
    · exact (signless_plain (by decide)).append letters
    · exact letters

end Identifier

namespace Style

open Identifier

theorem lowerPiece_signless (cs : List Char) :
    Signless (if isAlphanumericText cs then lower cs else ['-']) := by
  split
  · next alphanumeric =>
    simp only [isAlphanumericText, Bool.and_eq_true, List.all_eq_true] at alphanumeric
    exact lower_signless fun c mem => not_sign_of_isAlphanumeric (alphanumeric.2 c mem)
  · exact hyphen_signless

theorem hyphenatePieces_signless {inMap : Bool} {number : Nat} {before : Option (List Char)}
    {pieces : List Json} {cs : List Char}
    (hyphenates : hyphenatePieces inMap number before pieces = .ok cs) : Signless cs := by
  induction pieces generalizing number before cs with
  | nil =>
    cases hyphenates
    exact nofun
  | cons v rest ih =>
    cases v with
    | str s =>
      simp only [hyphenatePieces] at hyphenates
      split at hyphenates
      · exact nomatch hyphenates
      · cases tails : hyphenatePieces inMap (number + 1) (some s.toList) rest with
        | error f =>
          rw [tails] at hyphenates
          exact nomatch hyphenates
        | ok tail =>
          rw [tails] at hyphenates
          cases hyphenates
          refine Signless.append (Signless.append ?_ (lowerPiece_signless s.toList)) (ih tails)
          split
          · exact hyphen_signless
          · exact nofun
    | _ => exact nomatch hyphenates

theorem slugOf_signless {name : Json} {base : String} (slugs : slugOf name = .ok base) :
    Signless base.toList := by
  have pieces : ∀ {inMap : Bool} {items : List Json},
      (hyphenatePieces inMap 0 none items >>= fun cs => .ok (String.ofList (slugOfHyphenated cs))) =
        .ok base → Signless base.toList := by
    intro inMap items slugs
    cases hyphenates : hyphenatePieces inMap 0 none items with
    | error f =>
      rw [hyphenates] at slugs
      exact nomatch slugs
    | ok cs =>
      rw [hyphenates] at slugs
      cases slugs
      rw [String.toList_ofList]
      exact slugOfHyphenated_signless (hyphenatePieces_signless hyphenates)
  cases name with
  | str s =>
    cases slugs
    exact slug_signless s
  | arr items => exact pieces slugs
  | obj members => exact pieces slugs
  | _ => exact nomatch slugs

theorem layerBase_signless {name : Json} {tag base : String} (bases : layerBase name tag = .ok base) :
    Signless base.toList := by
  unfold layerBase at bases
  split at bases
  · exact slugOf_signless bases
  · cases bases
    split
    · exact signless_plain (by decide)
    · exact slug_signless tag

/-- Any text can be the name of a layer. -/
theorem layerBase_text (s tag : String) : ∃ base, layerBase (.str s) tag = .ok base := by
  unfold layerBase
  split
  · exact ⟨_, rfl⟩
  · exact ⟨_, rfl⟩

end Style

namespace Identifier.ClassPool

variable {stem base base' : String} {number number' : Nat}

theorem className_toList (stem base : String) (number : Nat) : (className stem base number).toList =
    (stem.toList ++ '-' :: base.toList) ++ '-' :: Nat.toDigits 10 number := by
  simp [className, toString, Nat.repr]

theorem isDigit_of_mem {c : Char} (mem : c ∈ Nat.toDigits 10 number) : c.isDigit = true :=
  Nat.isDigit_of_mem_toDigits (by decide) (by decide) mem

/-- The number is what follows the last hyphen. -/
theorem takeWhile_className (stem base : String) (number : Nat) :
    (className stem base number).toList.reverse.takeWhile (· != '-') =
      (Nat.toDigits 10 number).reverse := by
  have plain : ∀ c ∈ (Nat.toDigits 10 number).reverse, (c != '-') = true := by
    intro c mem
    -- Names may have hyphens in them, but no digit is one.
    have digit := isDigit_of_mem (List.mem_reverse.1 mem)
    apply bne_iff_ne.2
    rintro rfl
    exact nomatch digit
  rw [className_toList, List.reverse_append, List.reverse_cons, List.append_assoc,
    List.takeWhile_append_of_pos plain]
  simp

/-- A class tells its number, whatever the layers are called. -/
theorem className_inj {stem' : String}
    (same : className stem base number = className stem' base' number') : number = number' := by
  have numbers := takeWhile_className stem base number
  rw [same, takeWhile_className] at numbers
  have digits := List.reverse_inj.1 numbers
  exact (Nat.repr_inj.1 (congrArg String.ofList digits)).symm

theorem className_ne_nil (stem base : String) (number : Nat) :
    (className stem base number).toList ≠ [] := by
  rw [className_toList]
  simp

theorem className_forall {p : Char → Prop} (of_stem : ∀ c ∈ stem.toList, p c)
    (of_base : ∀ c ∈ base.toList, p c) (of_hyphen : p '-') (of_digit : ∀ c, isAsciiDigit c = true → p c) :
    ∀ c ∈ (className stem base number).toList, p c := by
  intro c mem
  simp only [className_toList, List.mem_append, List.mem_cons] at mem
  rcases mem with (mem | rfl | mem) | rfl | mem
  · exact of_stem c mem
  · exact of_hyphen
  · exact of_base c mem
  · exact of_hyphen
  · exact of_digit c (isDigit_of_mem mem)

theorem digit_signless {c : Char} (digit : isAsciiDigit c = true) : c.toNat ∉ signCodePoints := by
  have alphanumeric : isAsciiAlphanumeric c = true := by simp [isAsciiAlphanumeric, digit]
  apply not_sign_of_isAlphanumeric
  rwa [isAlphanumeric, if_pos (isAscii_of_alphanumeric alphanumeric)]

theorem className_signless (stem_plain : Signless stem.toList) (base_plain : Signless base.toList) :
    Signless (className stem base number).toList :=
  className_forall stem_plain base_plain (hyphen_signless _ List.mem_cons_self)
    fun _ => digit_signless

theorem className_unspaced (stem_solid : Unspaced stem.toList) (base_solid : Unspaced base.toList) :
    Unspaced (className stem base number).toList := by
  refine className_forall stem_solid base_solid (by decide) fun c digit => ?_
  have alone : Signless [c] := fun c' mem => List.mem_singleton.1 mem ▸ digit_signless digit
  exact alone.unspaced c List.mem_cons_self

end Identifier.ClassPool

end DesignComponents
