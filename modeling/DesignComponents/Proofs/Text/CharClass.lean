import DesignComponents.Proofs.OrderedMap
import DesignComponents.Text.LetterCase

/-! How classes of characters lie to each other: which have no character in common, and which are
part of another. And what characters become in their other case, and what they never become. -/

set_option autoImplicit false

namespace DesignComponents.Text

/-! ### Deciding on the characters of a text -/

-- The library also decides on characters by going through all that there are. These come first.

instance (priority := 10000) decidableEachIn {p : Char → Prop} [DecidablePred p] (text : List Char) :
    Decidable (∀ c ∈ text, p c) := List.decidableBAll p text

instance (priority := 10000) decidableSomeIn {p : Char → Prop} [DecidablePred p] (text : List Char) :
    Decidable (∃ c ∈ text, p c) := List.decidableBEx p text

instance (priority := 10000) decidableOnlyIn {p : Char → Prop} [DecidablePred p] (held : Option Char) :
    Decidable (∀ c ∈ held, p c) := Option.decidableForallMem held

/-! ### Classes -/

/-- A text of characters of one class has no other in it. -/
theorem lacks {p : Char → Bool} {text : List Char} (all : ∀ c ∈ text, p c = true) {c : Char}
    (other : p c = false) : c ∉ text := by
  intro mem
  rw [all c mem] at other
  exact nomatch other

/-- The code points of white space. -/
def blankCodePoints : List Nat := [
  9, 10, 11, 12, 13, 0x1c, 0x1d, 0x1e, 0x1f, 0x20, 0x85, 0xa0, 0x1680, 0x2000, 0x2001, 0x2002,
  0x2003, 0x2004, 0x2005, 0x2006, 0x2007, 0x2008, 0x2009, 0x200a, 0x2028, 0x2029, 0x202f, 0x205f,
  0x3000]

theorem isBlank_eq_true {c : Char} (blank : isBlank c = true) : c.toNat ∈ blankCodePoints := by
  simp only [isBlank, Bool.or_eq_true, Bool.and_eq_true, decide_eq_true_eq, beq_iff_eq] at blank
  simp only [blankCodePoints, List.mem_cons, List.not_mem_nil, or_false]
  rcases blank with (((((((((blank | blank) | blank) | blank) | blank) | blank) | blank) | blank) |
    blank) | blank) | blank <;> omega

/-- Whether a range has none of the code points, of which `limit` is the highest. -/
def apart (limit : Nat) (codePoints : List Nat) (first last : Nat) : Bool :=
  Nat.blt limit first || codePoints.all fun n => Nat.blt n first || Nat.blt last n

theorem of_apart {limit : Nat} {codePoints : List Nat} (limits : ∀ n ∈ codePoints, n ≤ limit)
    {first last : Nat} (holds : apart limit codePoints first last = true) {n : Nat}
    (held : n ∈ codePoints) : n < first ∨ last < n := by
  simp only [apart, Bool.or_eq_true, Nat.blt_eq, List.all_eq_true] at holds
  rcases holds with beyond | between
  · exact .inl (Nat.lt_of_le_of_lt (limits n held) beyond)
  · exact between n held

theorem not_inRanges {limit : Nat} {codePoints : List Nat} (limits : ∀ n ∈ codePoints, n ≤ limit)
    {ranges : List (Nat × Nat)} (holds : (ranges.all fun r => apart limit codePoints r.1 r.2) = true)
    {n : Nat} (held : n ∈ codePoints) : inRanges ranges n = false := by
  simp only [inRanges, List.any_eq_false, Bool.and_eq_true, decide_eq_true_eq]
  intro r mem
  have := of_apart limits (List.all_eq_true.1 holds r mem) held
  omega

theorem blankCodePoints_le : ∀ n ∈ blankCodePoints, n ≤ 0x3000 := by decide

theorem isWord_blankCodePoints : ∀ n ∈ blankCodePoints, isWord (Char.ofNat n) = false := by
  have plain : ∀ n ∈ blankCodePoints, (Char.ofNat n).toNat = n ∧ (Char.ofNat n == '_') = false ∧
      isAsciiAlphanumeric (Char.ofNat n) = false := by
    decide +kernel
  intro n held
  obtain ⟨valid, no_underscore, no_ascii⟩ := plain n held
  have no_letter : inRanges LetterTable.alphanumeric n = false :=
    not_inRanges blankCodePoints_le (by decide +kernel) held
  simp [isWord, isAlphanumeric, valid, no_underscore, no_ascii, no_letter]

theorem isWord_of_isBlank {c : Char} (blank : isBlank c = true) : isWord c = false := by
  have := isWord_blankCodePoints c.toNat (isBlank_eq_true blank)
  rwa [Char.ofNat_toNat] at this

theorem not_blank_of_isWord {c : Char} (word : isWord c = true) : isBlank c = false := by
  rw [← Bool.not_eq_true]
  intro blank
  rw [isWord_of_isBlank blank] at word
  exact nomatch word

theorem isDecimal_blankCodePoints : ∀ n ∈ blankCodePoints, isDecimal (Char.ofNat n) = false := by
  decide +kernel

theorem not_blank_of_isDecimal {c : Char} (decimal : isDecimal c = true) : isBlank c = false := by
  cases blank : isBlank c with
  | false => rfl
  | true =>
    have := isDecimal_blankCodePoints c.toNat (isBlank_eq_true blank)
    rw [Char.ofNat_toNat, decimal] at this
    exact nomatch this

theorem isAsciiLower_iff {c : Char} : isAsciiLower c = true ↔ 97 ≤ c.toNat ∧ c.toNat ≤ 122 := by
  simp only [isAsciiLower, Bool.and_eq_true, decide_eq_true_eq]
  exact Iff.rfl

theorem isAsciiUpper_iff {c : Char} : isAsciiUpper c = true ↔ 65 ≤ c.toNat ∧ c.toNat ≤ 90 := by
  simp only [isAsciiUpper, Bool.and_eq_true, decide_eq_true_eq]
  exact Iff.rfl

theorem isAsciiDigit_iff {c : Char} : isAsciiDigit c = true ↔ 48 ≤ c.toNat ∧ c.toNat ≤ 57 := by
  simp only [isAsciiDigit, Bool.and_eq_true, decide_eq_true_eq]
  exact Iff.rfl

theorem lt_of_decimalValue? {c : Char} {v : Nat} (value : decimalValue? c = some v) : v < 10 := by
  unfold decimalValue? at value
  split at value
  · split at value
    · next digit =>
      rw [isAsciiDigit_iff] at digit
      cases value
      have : '0'.toNat = 48 := rfl
      omega
    · exact nomatch value
  · obtain ⟨z, found, rfl⟩ := Option.map_eq_some_iff.1 value
    have := List.find?_some found
    simp only [Bool.and_eq_true, decide_eq_true_eq] at this
    omega

theorem not_lower_of_upper {c : Char} (upper : isAsciiUpper c = true) : isAsciiLower c = false := by
  rw [isAsciiUpper_iff] at upper
  rw [← Bool.not_eq_true, isAsciiLower_iff]
  omega

theorem isAscii_of_alphanumeric {c : Char} (alphanumeric : isAsciiAlphanumeric c = true) :
    isAscii c = true := by
  simp only [isAsciiAlphanumeric, isAsciiLetter, Bool.or_eq_true, isAsciiLower_iff, isAsciiUpper_iff,
    isAsciiDigit_iff] at alphanumeric
  simp only [isAscii, decide_eq_true_eq]
  omega

theorem isAlphanumeric_of_ascii {c : Char} (alphanumeric : isAsciiAlphanumeric c = true) :
    isAlphanumeric c = true := by
  rwa [isAlphanumeric, if_pos (isAscii_of_alphanumeric alphanumeric)]

theorem isWord_of_alphanumeric {c : Char} (alphanumeric : isAsciiAlphanumeric c = true) :
    isWord c = true := by
  simp [isWord, isAlphanumeric_of_ascii alphanumeric]

theorem isWord_of_letter {c : Char} (letter : isAsciiLetter c = true) : isWord c = true :=
  isWord_of_alphanumeric (by simp [isAsciiAlphanumeric, letter])

/-- What holds of each ASCII code point holds of each ASCII character. -/
theorem ascii_induction {motive : Char → Prop} (all : ∀ n : Fin 128, motive (Char.ofNat n)) {c : Char}
    (ascii : isAscii c = true) : motive c := by
  have small : c.toNat < 128 := by simpa [isAscii] using ascii
  have here := all ⟨c.toNat, small⟩
  rwa [Char.ofNat_toNat] at here

/-! ### Bytes -/

def bytes (text : String) : List Nat := text.toByteArray.data.toList.map UInt8.toNat

theorem bytes_ofList (text : List Char) :
    bytes (String.ofList text) = text.flatMap fun c => (String.utf8EncodeChar c).map UInt8.toNat := by
  simp [bytes, List.utf8Encode, List.map_flatMap]

/-- An ASCII character is one byte; any other begins with a byte beyond ASCII. -/
theorem encoded (c : Char) : (String.utf8EncodeChar c).map UInt8.toNat = [c.toNat] ∨
    ∃ b ∈ (String.utf8EncodeChar c).map UInt8.toNat, 128 ≤ b := by
  unfold String.utf8EncodeChar
  by_cases ascii : c.val.toNat ≤ 127
  · left
    simp only [ascii, if_true, List.map_cons, List.map_nil, Char.toNat, UInt8.toNat_ofNat']
    rw [Nat.mod_eq_of_lt (by omega)]
  · right
    simp only [ascii, if_false]
    split
    · exact ⟨_, List.mem_cons_self, by simp; omega⟩
    · split
      · exact ⟨_, List.mem_cons_self, by simp; omega⟩
      · exact ⟨_, List.mem_cons_self, by simp; omega⟩

/-- Whether a text is ASCII and all its characters are of a class. The bytes of a text that is given
evaluate much faster than its characters. -/
def allBytes (p : Char → Bool) (text : String) : Bool :=
  (bytes text).all fun b => Nat.blt b 128 && p (Char.ofNat b)

theorem of_allBytes {p : Char → Bool} {text : String} (each : allBytes p text = true) {c : Char}
    (mem : c ∈ text.toList) : p c = true := by
  have in_text : ∀ b ∈ (String.utf8EncodeChar c).map UInt8.toNat, b ∈ bytes text := by
    intro b part
    rw [← String.ofList_toList (s := text), bytes_ofList]
    exact List.mem_flatMap.2 ⟨c, mem, part⟩
  simp only [allBytes, List.all_eq_true, Bool.and_eq_true, Nat.blt_eq] at each
  rcases encoded c with single | ⟨b, part, large⟩
  · have held := (each c.toNat (in_text _ (by rw [single]; exact List.mem_cons_self))).2
    rwa [Char.ofNat_toNat] at held
  · exact absurd (each b (in_text b part)).1 (Nat.not_lt.2 large)

/-! ### The other case -/

theorem shifts_apart {limit : Nat} {signs : List Nat} (limits : ∀ n ∈ signs, n ≤ limit)
    {shifts : List CaseTable.Shift}
    (holds : (shifts.all fun s =>
      apart limit signs (s.first + s.offset).toNat (s.last + s.offset).toNat) = true) :
    ∀ s ∈ shifts, ∀ n ∈ signs, (n : Int) < s.first + s.offset ∨ s.last + s.offset < n := by
  intro s held n sign
  have := of_apart limits (List.all_eq_true.1 holds s held) sign
  omega

/-- A code point that a table never leads to is not what another character becomes by it. -/
theorem mapByTable_avoids {shifts : List CaseTable.Shift} {long : List (Nat × List Nat)}
    {signs : List Nat} (positive : ∀ n ∈ signs, 0 < n)
    (shifted : ∀ s ∈ shifts, ∀ n ∈ signs, (n : Int) < s.first + s.offset ∨ s.last + s.offset < n)
    (listed : ∀ p ∈ long, ∀ n ∈ p.2, n ∉ signs) {c : Char} (plain : c.toNat ∉ signs) :
    ∀ d ∈ mapByTable shifts long c, d.toNat ∉ signs := by
  have of_ofNat : ∀ {n : Nat}, (Char.ofNat n).toNat ∈ signs → n ∈ signs := by
    intro n sign
    by_cases valid : n.isValidChar
    · rwa [Char.ofNat, dif_pos valid] at sign
    · rw [Char.ofNat, dif_neg valid] at sign
      exact absurd (positive _ sign) (by decide)
  intro d mem sign
  -- A listed code point becomes those of its list; any other is shifted, or stays.
  unfold mapByTable at mem
  split at mem
  · next ns found =>
    obtain ⟨n, named, rfl⟩ := List.mem_map.1 mem
    exact listed _ (OrderedMap.mem_of_lookup found) n named (of_ofNat sign)
  · rw [List.mem_singleton.1 mem] at sign
    cases found : shiftOf? shifts c.toNat with
    | none =>
      rw [found] at sign
      exact plain sign
    | some n =>
      rw [found] at sign
      obtain ⟨s, held, rfl⟩ := Option.map_eq_some_iff.1 found
      have here := List.find?_some held
      simp only [Bool.and_eq_true, decide_eq_true_eq] at here
      have reached := of_ofNat sign
      have := positive _ reached
      have away := shifted s (List.mem_of_find?_eq_some held) _ reached
      omega

/-- The colon and the small ASCII letters. -/
def smallCodePoints : List Nat := ':'.toNat :: (List.range 26).map (97 + ·)

theorem mem_smallCodePoints {c : Char} :
    c.toNat ∈ smallCodePoints ↔ c = ':' ∨ isAsciiLower c = true := by
  rw [isAsciiLower_iff, smallCodePoints, List.mem_cons, Char.toNat_inj, List.mem_map]
  refine or_congr_right ⟨?_, fun bounds => ⟨c.toNat - 97, List.mem_range.2 (by omega), by omega⟩⟩
  rintro ⟨n, inside, same⟩
  have := List.mem_range.1 inside
  omega

theorem smallCodePoints_le : ∀ n ∈ smallCodePoints, n ≤ 122 := by decide

/-- What a word character becomes as a capital is neither a colon nor a small letter. -/
theorem upperChar_avoids {c : Char} (word : isWord c = true) :
    ∀ d ∈ upperChar c, d ≠ ':' ∧ isAsciiLower d = false := by
  suffices ∀ d ∈ upperChar c, d.toNat ∉ smallCodePoints by
    intro d mem
    have avoids := this d mem
    rw [mem_smallCodePoints, not_or, Bool.not_eq_true] at avoids
    exact avoids
  unfold upperChar
  split
  · -- There are few enough ASCII characters to look at each.
    next ascii =>
    refine @ascii_induction (fun c => isWord c = true →
      ∀ d ∈ [if isAsciiLower c then Char.ofNat (c.toNat - 32) else c], d.toNat ∉ smallCodePoints)
      ?_ c ascii word
    decide +kernel
  · next beyond =>
    refine mapByTable_avoids (by decide) (shifts_apart smallCodePoints_le (by decide +kernel)) (by decide +kernel) ?_
    rw [mem_smallCodePoints]
    rintro (rfl | lower)
    · exact beyond (by decide)
    · exact beyond (isAscii_of_alphanumeric (by simp [isAsciiAlphanumeric, isAsciiLetter, lower]))

theorem mapByTable_ne_nil {shifts : List CaseTable.Shift} {long : List (Nat × List Nat)}
    (some_listed : ∀ p ∈ long, p.2 ≠ []) (c : Char) : mapByTable shifts long c ≠ [] := by
  unfold mapByTable
  split
  · next ns found => simpa using some_listed _ (OrderedMap.mem_of_lookup found)
  · exact List.cons_ne_nil _ _

theorem upperChar_ne_nil (c : Char) : upperChar c ≠ [] := by
  unfold upperChar
  split
  · exact List.cons_ne_nil _ _
  · exact mapByTable_ne_nil (by decide +kernel) c

theorem lowerChar_ne_nil (c : Char) : lowerChar c ≠ [] := by
  unfold lowerChar
  split
  · exact List.cons_ne_nil _ _
  · exact mapByTable_ne_nil (by decide +kernel) c

end DesignComponents.Text
