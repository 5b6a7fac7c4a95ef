import DesignComponents.Number.Reading
import DesignComponents.Proofs.Fault
import DesignComponents.Proofs.Text.CharClass
import DesignComponents.Proofs.Text.Trim

/-! Numbers as text. A run of digits of any script is read as a whole number unless it is too long;
a number is written with digits of one script, and a sign or a point. -/

set_option autoImplicit false

namespace DesignComponents.Number

open Text

theorem isAsciiDigit_ofNat : ∀ v < 10, isAsciiDigit (Char.ofNat ('0'.toNat + v)) = true := by
  decide

theorem asciiDigits_decimal {digits : List Char} (decimals : ∀ c ∈ digits, isDecimal c = true) :
    ∀ c ∈ asciiDigits digits, isAsciiDigit c = true := by
  intro c mem
  obtain ⟨d, mem_digits, rfl⟩ := List.mem_map.1 mem
  obtain ⟨v, value⟩ := Option.isSome_iff_exists.1 (decimals d mem_digits)
  rw [value]
  exact isAsciiDigit_ofNat v (lt_of_decimalValue? value)

theorem digitRun_digits {digits : List Char} (all : ∀ c ∈ digits, isAsciiDigit c = true)
    (done : List Char) : digitRun done digits = (done.reverse ++ digits, []) := by
  induction digits generalizing done with
  | nil => simp [digitRun]
  | cons c rest ih =>
    have digit := all c List.mem_cons_self
    have plain : c ≠ '_' := by
      rintro rfl
      exact absurd digit (by decide)
    rw [digitRun, if_pos digit, ih fun d mem => all d (List.mem_cons_of_mem c mem)]
    · simp
    · intro c' rest' same
      exact fun _ => plain (by assumption)

theorem not_margin_of_isDecimal {c : Char} (decimal : isDecimal c = true) : isMargin c = false := by
  rw [isMargin, not_blank_of_isDecimal decimal, Bool.false_and]

/-- A sign, if there is one, the digits, and at most a line break. -/
structure Whole (text signs digits : List Char) : Prop where
  minus : signs = [] ∨ signs = ['-']
  some_digits : digits ≠ []
  decimals : ∀ c ∈ digits, isDecimal c = true
  written : text = signs ++ digits ∨ text = signs ++ digits ++ ['\n']

variable {text signs digits : List Char}

theorem Whole.count (whole : Whole text signs digits) : text.countP isDecimal = digits.length := by
  have none_before : signs.countP isDecimal = 0 := by
    rcases whole.minus with rfl | rfl
    · rfl
    · decide
  have all : digits.countP isDecimal = digits.length := List.countP_eq_length.2 whole.decimals
  rcases whole.written with rfl | rfl
  · rw [List.countP_append, none_before, all, Nat.zero_add]
  · have none_behind : ['\n'].countP isDecimal = 0 := by decide
    rw [List.countP_append, List.countP_append, none_before, all, none_behind, Nat.zero_add, Nat.add_zero]

theorem Whole.first (whole : Whole text signs digits) : ∀ c ∈ (signs ++ digits).head?, isMargin c = false := by
  intro c mem
  rcases whole.minus with rfl | rfl
  · exact not_margin_of_isDecimal (whole.decimals c (List.mem_of_head? mem))
  · obtain rfl : '-' = c := by simpa using mem
    decide

theorem Whole.last (whole : Whole text signs digits) :
    ∀ c ∈ (signs ++ digits).reverse.head?, isMargin c = false := by
  intro c mem
  rw [List.head?_reverse, List.getLast?_append, Option.mem_def, Option.or_of_isSome] at mem
  · exact not_margin_of_isDecimal (whole.decimals c (List.mem_of_getLast? mem))
  · exact List.getLast?_isSome.2 whole.some_digits

theorem Whole.trim (whole : Whole text signs digits) : trimBy isMargin text = signs ++ digits := by
  have left : trimLeftBy isMargin (signs ++ digits) = signs ++ digits := dropWhile_head whole.first
  have right : trimRightBy isMargin (signs ++ digits) = signs ++ digits := by
    rw [trimRightBy, dropWhile_head whole.last, List.reverse_reverse]
  rcases whole.written with rfl | rfl
  · rw [trimBy, left, right]
  · have stays : trimLeftBy isMargin (signs ++ digits ++ ['\n']) = signs ++ digits ++ ['\n'] := by
      apply dropWhile_head
      intro c mem
      rw [List.head?_append, Option.mem_def, Option.or_of_isSome] at mem
      · exact whole.first c mem
      · simp [whole.some_digits]
    have margin : isMargin '\n' = true := by decide
    rw [trimBy, stays, trimRightBy, List.reverse_append, List.reverse_singleton, List.singleton_append,
      List.dropWhile_cons_of_pos margin]
    exact right

theorem sign_digits (all : ∀ c ∈ digits, isAsciiDigit c = true) :
    sign digits = (false, digits) := by
  unfold sign
  split
  · exact absurd (all '-' List.mem_cons_self) (by decide)
  · exact absurd (all '+' List.mem_cons_self) (by decide)
  · rfl

theorem Whole.sign (whole : Whole text signs digits) :
    (Number.sign (asciiDigits (signs ++ digits))).2 = asciiDigits digits := by
  have all := asciiDigits_decimal whole.decimals
  rcases whole.minus with rfl | rfl
  · rw [List.nil_append, sign_digits all]
  · rfl

/-- A whole number is read unless it has too many digits. -/
theorem reads_readInt (whole : Whole text signs digits) :
    Reads (readInt text) (digits.length ≤ mostDigits) := by
  have all := asciiDigits_decimal whole.decimals
  have count : (asciiDigits digits).length = digits.length := List.length_map ..
  have some_digits : (asciiDigits digits).isEmpty = false := by
    rw [List.isEmpty_eq_false_iff, ← List.length_pos_iff, count]
    exact List.length_pos_iff.2 whole.some_digits
  have read : readInt text = do
      checkDigits digits.length
      return Binary64.signed (Number.sign (asciiDigits (signs ++ digits))).1
        (ofDigits (asciiDigits digits)) := by
    simp only [readInt, whole.trim, whole.sign, digitRun_digits all, List.reverse_nil, List.nil_append,
      List.head?_nil, count, some_digits, List.isEmpty_nil]
    rfl
  rw [read]
  exact ((reads_checkDigits _).bind fun _ => reads_ok _).congr (by simp)

end DesignComponents.Number

namespace DesignComponents.Decimal

open Text

theorem mem_digitsAux (fuel n : Nat) {done : List Char} (all : ∀ c ∈ done, isAsciiDigit c = true) :
    ∀ c ∈ digitsAux fuel n done, isAsciiDigit c = true := by
  induction fuel generalizing n done with
  | zero => exact all
  | succ fuel ih =>
    rw [digitsAux]
    split
    · exact all
    · refine ih _ fun c mem => ?_
      obtain rfl | mem := List.mem_cons.1 mem
      · exact Number.isAsciiDigit_ofNat _ (Nat.mod_lt n (by decide))
      · exact all c mem

theorem mem_digits {n : Nat} {c : Char} (mem : c ∈ digits n) : isAsciiDigit c = true := by
  unfold digits at mem
  split at mem
  · obtain rfl := List.mem_singleton.1 mem
    decide
  · exact mem_digitsAux _ n (by simp) c mem

theorem mem_placePoint {places n : Nat} {c : Char} (mem : c ∈ placePoint places n) :
    isAsciiDigit c = true ∨ c = '.' := by
  have padded : ∀ k, ∀ d ∈ List.replicate k '0' ++ digits n, isAsciiDigit d = true := by
    intro k d mem
    obtain mem | mem := List.mem_append.1 mem
    · rw [List.eq_of_mem_replicate mem]
      decide
    · exact mem_digits mem
  unfold placePoint at mem
  split at mem
  · exact .inl (mem_digits mem)
  · obtain mem | mem := List.mem_append.1 mem
    · exact .inl (padded _ c (List.mem_of_mem_take mem))
    · obtain rfl | mem := List.mem_cons.1 mem
      · exact .inr rfl
      · exact .inl (padded _ c (List.mem_of_mem_drop mem))

theorem mem_fixedText {places : Nat} {x : Binary64} {c : Char} (mem : c ∈ fixedText places x) :
    isAsciiAlphanumeric c = true ∨ c = '-' ∨ c = '.' := by
  have signed : ∀ {neg text}, c ∈ signed neg text → c = '-' ∨ c ∈ text := by
    intro neg text mem
    cases neg with
    | false => exact .inr mem
    | true => exact List.mem_cons.1 mem
  have letters : ∀ c ∈ "nan".toList ++ "inf".toList, isAsciiAlphanumeric c = true := by decide
  cases x with
  | nan => exact .inl (letters c (List.mem_append_left _ mem))
  | infinite neg =>
    obtain sign | mem := signed mem
    · exact .inr (.inl sign)
    · exact .inl (letters c (List.mem_append_right _ mem))
  | finite neg m e =>
    obtain sign | mem := signed mem
    · exact .inr (.inl sign)
    · obtain digit | point := mem_placePoint mem
      · exact .inl (by simp [isAsciiAlphanumeric, digit])
      · exact .inr (.inr point)

theorem mem_ofInt {n : Int} {c : Char} (mem : c ∈ ofInt n) : c = '-' ∨ isAsciiDigit c = true := by
  unfold ofInt at mem
  split at mem
  · exact (List.mem_cons.1 mem).imp_right mem_digits
  · exact .inr (mem_digits mem)

theorem digitsAux_ne_nil (fuel n : Nat) {done : List Char} (some_done : done ≠ []) :
    digitsAux fuel n done ≠ [] := by
  induction fuel generalizing n done with
  | zero => exact some_done
  | succ fuel ih =>
    rw [digitsAux]
    split
    · exact some_done
    · exact ih _ (List.cons_ne_nil _ _)

theorem digits_ne_nil (n : Nat) : digits n ≠ [] := by
  unfold digits
  split
  · exact List.cons_ne_nil _ _
  · next other =>
    rw [digitsAux, if_neg other]
    exact digitsAux_ne_nil _ _ (List.cons_ne_nil _ _)

theorem ofInt_ne_nil (n : Int) : ofInt n ≠ [] := by
  unfold ofInt
  split
  · exact List.cons_ne_nil _ _
  · exact digits_ne_nil _

end DesignComponents.Decimal
