import DesignComponents.Number.Decimal
import DesignComponents.Proofs.Number.Range

/-! Decimals rounded to hundredths by way of doubles. A double is as near to the quotient it is made
of as its mantissa allows; so a decimal of up to thirteen digits before its point, rounded and written
again, is off by half a hundredth and one part in `2 ^ 53` of it at most. -/

set_option autoImplicit false

namespace DesignComponents

theorem roundDiv_cases (num den : Nat) :
    (roundDiv num den = num / den ∧ 2 * (num % den) ≤ den) ∨
      (roundDiv num den = num / den + 1 ∧ den ≤ 2 * (num % den)) := by
  simp only [roundDiv]
  split <;> [skip; split <;> [skip; split]] <;> omega

theorem roundDiv_near (num : Nat) {den : Nat} (positive : 0 < den) :
    |(roundDiv num den : ℚ) - num / den| ≤ 1 / 2 := by
  have den_pos : (0 : ℚ) < den := Nat.cast_pos.2 positive
  have quotient : (num : ℚ) / den = (num / den : Nat) + (num % den : Nat) / den := by
    rw [div_eq_iff den_pos.ne', add_mul, div_mul_cancel₀ _ den_pos.ne']
    exact_mod_cast (Nat.div_add_mod' num den).symm
  have less : ((num % den : Nat) : ℚ) / den < 1 := by
    rw [div_lt_one den_pos]
    exact_mod_cast Nat.mod_lt num positive
  have nonneg : (0 : ℚ) ≤ (num % den : Nat) / den := by positivity
  rw [quotient, abs_le]
  rcases roundDiv_cases num den with ⟨down, half⟩ | ⟨up, half⟩
  · have fraction : ((num % den : Nat) : ℚ) / den ≤ 1 / 2 := by
      rw [div_le_div_iff₀ den_pos two_pos]
      exact_mod_cast (by omega : num % den * 2 ≤ 1 * den)
    rw [down]
    constructor <;> linarith
  · have fraction : (1 : ℚ) / 2 ≤ (num % den : Nat) / den := by
      rw [div_le_div_iff₀ two_pos den_pos]
      exact_mod_cast (by omega : 1 * den ≤ num % den * 2)
    rw [up, Nat.cast_succ]
    constructor <;> linarith

theorem roundDiv_eq {num den n : Nat} (positive : 0 < den) (near : |(num : ℚ) / den - n| < 1 / 2) :
    roundDiv num den = n := by
  have apart : |(roundDiv num den : ℚ) - n| < 1 := by
    calc |(roundDiv num den : ℚ) - n| ≤ |(roundDiv num den : ℚ) - num / den| + |(num : ℚ) / den - n| :=
          abs_sub_le _ _ _
      _ < 1 / 2 + 1 / 2 := add_lt_add_of_le_of_lt (roundDiv_near num positive) near
      _ = 1 := by norm_num
  have whole : |(roundDiv num den : Int) - n| < 1 := by exact_mod_cast apart
  have same := sub_eq_zero.1 (Int.abs_lt_one_iff.1 whole)
  exact_mod_cast same

namespace Binary64

/-- A quotient within the range of the normal numbers is off by half a unit of the last place. -/
theorem ofQuotient_near (neg : Bool) {num den : Nat} (den_pos : 0 < den)
    (low : num ≠ 0 → (2 : ℚ) ^ (-1022 : Int) ≤ num / den) (high : (num : ℚ) / den < 2 ^ (1023 : Int)) :
    ∃ m e, ofQuotient neg num den = .finite neg m e ∧
      |(m : ℚ) * 2 ^ e - num / den| ≤ num / den / 2 ^ 53 := by
  have power : ∀ i : Int, (0 : ℚ) < 2 ^ i := fun i => zpow_pos two_pos i
  by_cases nothing : num = 0
  · exact ⟨0, minExp, by rw [ofQuotient, if_pos nothing]; rfl, by simp [nothing]⟩
  obtain ⟨g, reached, short, exponent⟩ := exponentOf_eq (Nat.pos_of_ne_zero nothing) den_pos
  have normal : -1023 < g := by
    have := (zpow_lt_zpow_iff_right₀ (one_lt_two (α := ℚ))).1 ((low nothing).trans_lt short)
    omega
  have finite : g < 1023 := (zpow_lt_zpow_iff_right₀ one_lt_two).1 (reached.trans_lt high)
  obtain ⟨scale_pos, scale⟩ := scaled_eq num den_pos (exponentOf num den)
  set f := exponentOf num den with f_eq
  have place : f = g - 52 := by
    unfold minExp at exponent
    omega
  set mant := roundDiv (scaled num den f).1 (scaled num den f).2 with mant_eq
  have scale_cast : (0 : ℚ) < (scaled num den f).2 := Nat.cast_pos.2 scale_pos
  have near : |(mant : ℚ) * 2 ^ f - num / den| ≤ num / den / 2 ^ 53 := by
    have rounded := roundDiv_near (scaled num den f).1 scale_pos
    rw [← mant_eq, scale, mul_div_assoc, div_self scale_cast.ne', mul_one] at rounded
    calc |(mant : ℚ) * 2 ^ f - num / den| = |(mant : ℚ) - num / den / 2 ^ f| * 2 ^ f := by
          rw [← abs_of_pos (power f), ← abs_mul, abs_of_pos (power f), sub_mul,
            div_mul_cancel₀ _ (power f).ne']
      _ ≤ 1 / 2 * 2 ^ f := mul_le_mul_of_nonneg_right rounded (power f).le
      _ = 2 ^ g / 2 ^ 53 := by
        rw [place, zpow_sub₀ two_ne_zero]
        norm_num
        ring
      _ ≤ num / den / 2 ^ 53 := div_le_div_of_nonneg_right reached (by positivity)
  have in_range : ¬maxExp < f + 1 := by
    unfold maxExp
    omega
  simp only [ofQuotient, if_neg nothing, ← f_eq, ← mant_eq]
  -- A mantissa that is carried over is half as large, over the next exponent.
  by_cases carried : mant = Nat.pow 2 53
  · refine ⟨2 ^ 52, f + 1, by simp only [if_pos carried, if_neg in_range]; rfl, ?_⟩
    have same : ((2 ^ 52 : Nat) : ℚ) * 2 ^ (f + 1) = mant * 2 ^ f := by
      rw [carried, zpow_add₀ two_ne_zero]
      push_cast
      ring
    rwa [same]
  · have in_range' : ¬maxExp < f := by
      unfold maxExp at in_range ⊢
      omega
    exact ⟨mant, f, by simp only [if_neg carried, if_neg in_range'], near⟩

theorem magnitude_eq (m : Nat) (e : Int) :
    0 < (magnitude m e).2 ∧ ((magnitude m e).1 : ℚ) / (magnitude m e).2 = m * 2 ^ e := by
  unfold magnitude
  split
  · next nonneg =>
    refine ⟨Nat.one_pos, ?_⟩
    rw [Nat.cast_mul, pow_cast, Int.toNat_of_nonneg nonneg, Nat.cast_one, div_one]
  · next negative =>
    refine ⟨Nat.pow_pos (by decide), ?_⟩
    rw [pow_cast, Int.toNat_of_nonneg (by omega), zpow_neg, div_inv_eq_mul]

/-- Three hundred decimal digits are less than a thousand binary ones. -/
theorem ten_pow_lt : 10 ^ 300 < 2 ^ 1000 := by
  calc 10 ^ 300 = (10 ^ 3) ^ 100 := (Nat.pow_mul 10 3 100)
    _ < (2 ^ 10) ^ 100 := Nat.pow_lt_pow_left (by decide) (by decide)
    _ = 2 ^ 1000 := (Nat.pow_mul 2 10 100).symm

/-- Decimals of no more digits than that lie within the range of the normal numbers. -/
theorem decimal_range {digits places : Nat} (few : digits < 10 ^ 300) (short : places ≤ 300) :
    (digits ≠ 0 → (2 : ℚ) ^ (-1022 : Int) ≤ digits / 10 ^ places) ∧
      (digits : ℚ) / 10 ^ places < 2 ^ (1023 : Int) := by
  have power_pos : (0 : ℚ) < 10 ^ places := by positivity
  have large : (10 : ℚ) ^ 300 < 2 ^ (1000 : Int) := by exact_mod_cast ten_pow_lt
  constructor
  · intro some_digit
    rw [le_div_iff₀ power_pos]
    have shorter : (10 : ℚ) ^ places ≤ 10 ^ 300 := pow_le_pow_right₀ (by norm_num) short
    have less : (2 : ℚ) ^ (-1022 : Int) ≤ 2 ^ (-1000 : Int) :=
      zpow_le_zpow_right₀ one_le_two (by norm_num)
    calc (2 : ℚ) ^ (-1022 : Int) * 10 ^ places ≤ 2 ^ (-1000 : Int) * 2 ^ (1000 : Int) :=
          mul_le_mul less (shorter.trans large.le) power_pos.le (zpow_pos two_pos _).le
      _ = 1 := by
        rw [← zpow_add₀ two_ne_zero]
        rfl
      _ ≤ digits := by exact_mod_cast Nat.one_le_iff_ne_zero.2 some_digit
  · calc (digits : ℚ) / 10 ^ places ≤ digits :=
          div_le_self (Nat.cast_nonneg _) (one_le_pow₀ (by norm_num))
      _ < 10 ^ 300 := by exact_mod_cast few
      _ < 2 ^ (1000 : Int) := large
      _ ≤ 2 ^ (1023 : Int) := zpow_le_zpow_right₀ one_le_two (by norm_num)

theorem ofDecimal_near {digits places : Nat} (few : digits < 10 ^ 300) (short : places ≤ 300) :
    ∃ m e, ofDecimal false digits (-places) = .finite false m e ∧
      |(m : ℚ) * 2 ^ e - digits / 10 ^ places| ≤ digits / 10 ^ places / 2 ^ 53 := by
  by_cases nothing : digits = 0
  · exact ⟨0, minExp, by rw [ofDecimal, if_pos nothing]; rfl, by simp [nothing]⟩
  have bits : Nat.log2 digits < 1000 :=
    (Nat.log2_lt nothing).2 (few.trans ten_pow_lt)
  have not_large : ¬400 < (Nat.log2 digits : Int) / 4 + -(places : Int) := by omega
  have not_small : ¬(Nat.log2 digits : Int) / 3 + 1 + -(places : Int) < -400 := by omega
  obtain ⟨low, high⟩ := decimal_range few short
  simp only [ofDecimal, if_neg nothing, if_neg not_large, if_neg not_small]
  split
  · next whole =>
    obtain rfl : places = 0 := by omega
    have near := @ofQuotient_near false digits 1 Nat.one_pos (fun some_digit => by simpa using low some_digit)
      (by simpa using high)
    simpa using near
  · have den : (-(-(places : Int))).toNat = places := by omega
    rw [den]
    have cast : ((Nat.pow 10 places : Nat) : ℚ) = 10 ^ places := by
      rw [Nat.pow_eq]
      push_cast
      rfl
    have near := @ofQuotient_near false digits (Nat.pow 10 places) (Nat.pow_pos (by decide))
    rw [cast] at near
    exact near low high

/-- So many hundredths are still so many when the double that is nearest to them is rounded. -/
theorem ofQuotient_hundredths {n : Nat} (few : (n : ℚ) < 2 ^ 52) :
    ∃ k f, ofQuotient false n 100 = .finite false k f ∧ |(k : ℚ) * 2 ^ f * 100 - n| < 1 / 2 := by
  have low : n ≠ 0 → (2 : ℚ) ^ (-1022 : Int) ≤ n / (100 : Nat) := by
    intro some_left
    have one : (1 : ℚ) ≤ n := by exact_mod_cast Nat.one_le_iff_ne_zero.2 some_left
    rw [le_div_iff₀ (by norm_num)]
    have less : (2 : ℚ) ^ (-1022 : Int) ≤ 2 ^ (-7 : Int) := zpow_le_zpow_right₀ one_le_two (by norm_num)
    have part : (2 : ℚ) ^ (-7 : Int) * (100 : Nat) ≤ 1 := by norm_num
    exact ((mul_le_mul_of_nonneg_right less (by norm_num)).trans part).trans one
  have high : (n : ℚ) / (100 : Nat) < 2 ^ (1023 : Int) := by
    calc (n : ℚ) / (100 : Nat) ≤ n := div_le_self (Nat.cast_nonneg n) (by norm_num)
      _ < 2 ^ (52 : Int) := by exact_mod_cast few
      _ ≤ 2 ^ (1023 : Int) := zpow_le_zpow_right₀ one_le_two (by norm_num)
  obtain ⟨k, f, double, near⟩ := ofQuotient_near false (by decide : 0 < 100) low high
  refine ⟨k, f, double, ?_⟩
  -- The double is off by less than a two hundredth.
  obtain ⟨below, above⟩ := abs_le.1 near
  have less : (n : ℚ) / (100 : Nat) / 2 ^ 53 * 100 < 1 / 2 := by
    rw [Nat.cast_ofNat, div_div, mul_comm (100 : ℚ), ← div_div, div_mul_cancel₀ _ (by norm_num),
      div_lt_iff₀ (by norm_num)]
    exact few.trans_eq (by norm_num)
  have hundred : (n : ℚ) / (100 : Nat) * 100 = n := div_mul_cancel₀ _ (by norm_num)
  rw [abs_lt]
  constructor <;> linarith

theorem hundredfold_eq (m : Nat) (e : Int) :
    (((magnitude m e).1 * Nat.pow 10 2 : Nat) : ℚ) / (magnitude m e).2 = m * 2 ^ e * 100 := by
  rw [Nat.cast_mul, mul_div_right_comm, (magnitude_eq m e).2]
  norm_num

/-- A number below `2 ^ 45` that is rounded to hundredths is written with just as many of them. -/
theorem fixedText_roundTo {m : Nat} {e : Int} (small : (m : ℚ) * 2 ^ e < 2 ^ 45) :
    ∃ n : Nat, |(n : ℚ) / 100 - m * 2 ^ e| ≤ 1 / 200 ∧
      Decimal.fixedText 2 ((finite false m e).roundTo 2) = Decimal.placePoint 2 n := by
  have rounded := roundDiv_near ((magnitude m e).1 * Nat.pow 10 2) (magnitude_eq m e).1
  set n := roundDiv ((magnitude m e).1 * Nat.pow 10 2) (magnitude m e).2
  rw [hundredfold_eq] at rounded
  obtain ⟨below, above⟩ := abs_le.1 rounded
  have few : (n : ℚ) < 2 ^ 52 := by
    have : (2 : ℚ) ^ 45 * 100 + 1 / 2 < 2 ^ 52 := by norm_num
    linarith
  obtain ⟨k, f, double, near⟩ := ofQuotient_hundredths few
  refine ⟨n, ?_, ?_⟩
  · rw [abs_le]
    constructor <;> linarith
  · have back : roundDiv ((magnitude k f).1 * Nat.pow 10 2) (magnitude k f).2 = n := by
      apply roundDiv_eq (magnitude_eq k f).1
      rwa [hundredfold_eq]
    have turned : (finite false m e).roundTo 2 = .finite false k f := double
    rw [turned]
    simp only [Decimal.fixedText, Decimal.signed, back]
    rfl

end Binary64

end DesignComponents
