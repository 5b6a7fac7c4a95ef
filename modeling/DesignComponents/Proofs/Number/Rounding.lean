import DesignComponents.Number.Basic
import DesignComponents.Proofs.Number.Order
import Mathlib.Data.Rat.Floor
import Mathlib.Tactic.FieldSimp
import Mathlib.Tactic.Linarith
import Mathlib.Tactic.Ring

/-! Rounding, as a function of the value that is rounded: it keeps the order, and leaves alone what a
double can hold. A whole number below `2 ^ 53` over a power of two within the range is its own double;
so a fourth of a count is exact while the count is at most `2 ^ 53`. -/

set_option autoImplicit false

namespace DesignComponents

/-! ### To a whole number -/

theorem div_le_roundDiv (num den : Nat) : num / den ≤ roundDiv num den := by
  simp only [roundDiv]
  split_ifs <;> omega

theorem roundDiv_le_succ (num den : Nat) : roundDiv num den ≤ num / den + 1 := by
  simp only [roundDiv]
  split_ifs <;> omega

theorem roundDiv_mul (q : Nat) {d : Nat} (positive : 0 < d) : roundDiv (q * d) d = q := by
  have none_left : q * d % d = 0 := Nat.mul_mod_left q d
  have whole : q * d / d = q := Nat.mul_div_cancel q positive
  simp only [roundDiv, none_left, whole, Nat.mul_zero, positive, if_true]

theorem roundDiv_le {num den q : Nat} (below : num < q * den) : roundDiv num den ≤ q := by
  have whole : num / den < q := Nat.div_lt_of_lt_mul (Nat.mul_comm q den ▸ below)
  exact (roundDiv_le_succ num den).trans whole

/-- The greater quotient is not rounded to less. -/
theorem roundDiv_mono {num den num' den' : Nat} (den_pos : 0 < den) (den_pos' : 0 < den')
    (le : num * den' ≤ num' * den) : roundDiv num den ≤ roundDiv num' den' := by
  have whole : num / den ≤ num' / den' := by
    rw [Nat.le_div_iff_mul_le den_pos']
    refine Nat.le_of_mul_le_mul_right ?_ den_pos
    calc num / den * den' * den = num / den * den * den' := Nat.mul_right_comm _ _ _
      _ ≤ num * den' := Nat.mul_le_mul_right _ (Nat.div_mul_le_self num den)
      _ ≤ num' * den := le
  rcases whole.lt_or_eq with less | same
  · exact (roundDiv_le_succ num den).trans (Nat.le_trans less (div_le_roundDiv num' den'))
  · -- Between the same two whole numbers the greater quotient leaves the greater part.
    have left : num % den * den' ≤ num' % den' * den := by
      have parts := Nat.div_add_mod' num den
      have parts' := Nat.div_add_mod' num' den'
      rw [← parts, ← parts', ← same, Nat.add_mul, Nat.add_mul, Nat.mul_right_comm _ den' den] at le
      exact Nat.le_of_add_le_add_left le
    have carries : den < 2 * (num % den) → den' < 2 * (num' % den') := by
      intro more
      refine Nat.lt_of_mul_lt_mul_left (a := den) ?_
      nlinarith
    have reaches : den ≤ 2 * (num % den) → den' ≤ 2 * (num' % den') := by
      intro reaches
      refine Nat.le_of_mul_le_mul_left ?_ den_pos
      nlinarith
    simp only [roundDiv, same]
    split_ifs <;> omega

namespace Binary64

/-- The double has that sign and that magnitude. -/
def Holds (neg : Bool) (q : ℚ) (x : Binary64) : Prop :=
  ∃ m e, x = .finite neg m e ∧ (m : ℚ) * 2 ^ e = q

theorem pow_cast (n : Nat) : ((Nat.pow 2 n : Nat) : ℚ) = 2 ^ (n : Int) := by
  rw [zpow_natCast, Nat.pow_eq]
  norm_cast

theorem scaled_eq (num : Nat) {den : Nat} (positive : 0 < den) (exp : Int) :
    0 < (scaled num den exp).2 ∧
      ((scaled num den exp).1 : ℚ) = num / den / 2 ^ exp * (scaled num den exp).2 := by
  have power : (0 : ℚ) < 2 ^ exp := zpow_pos two_pos exp
  have den_pos : (0 : ℚ) < den := Nat.cast_pos.2 positive
  unfold scaled
  split
  · next nonneg =>
    refine ⟨Nat.mul_pos positive (Nat.pow_pos (by decide)), ?_⟩
    simp only [Nat.cast_mul, pow_cast, Int.toNat_of_nonneg nonneg]
    field_simp
  · next negative =>
    refine ⟨positive, ?_⟩
    simp only [Nat.cast_mul, pow_cast, Int.toNat_of_nonneg (by omega : 0 ≤ -exp), zpow_neg]
    field_simp

/-- Comparing the scaled parts compares the quotient with the power. -/
theorem scaled_le_iff (num : Nat) {den : Nat} (positive : 0 < den) (exp : Int) :
    (scaled num den exp).2 ≤ (scaled num den exp).1 ↔ (2 : ℚ) ^ exp ≤ num / den := by
  obtain ⟨scale_pos, scale⟩ := scaled_eq num positive exp
  have scale_cast : (0 : ℚ) < (scaled num den exp).2 := Nat.cast_pos.2 scale_pos
  rw [← Nat.cast_le (α := ℚ), scale, le_mul_iff_one_le_left scale_cast, one_le_div (zpow_pos two_pos exp)]

/-- Scaled alike, quotients compare as they did. -/
theorem scaled_mono {num num' den den' : Nat} (den_pos : 0 < den) (den_pos' : 0 < den')
    (le : (num : ℚ) / den ≤ num' / den') (exp : Int) :
    (scaled num den exp).1 * (scaled num' den' exp).2 ≤
      (scaled num' den' exp).1 * (scaled num den exp).2 := by
  obtain ⟨-, scale⟩ := scaled_eq num den_pos exp
  obtain ⟨-, scale'⟩ := scaled_eq num' den_pos' exp
  have power : (0 : ℚ) ≤ 2 ^ exp := (zpow_pos two_pos exp).le
  have cast : ((scaled num den exp).1 : ℚ) * (scaled num' den' exp).2 ≤
      (scaled num' den' exp).1 * (scaled num den exp).2 := by
    rw [scale, scale', mul_right_comm _ ((scaled num den exp).2 : ℚ)]
    refine mul_le_mul_of_nonneg_right ?_ (Nat.cast_nonneg _)
    refine mul_le_mul_of_nonneg_right ?_ (Nat.cast_nonneg _)
    exact div_le_div_of_nonneg_right le power
  exact_mod_cast cast

theorem log2_bounds {n : Nat} (positive : 0 < n) :
    (2 : ℚ) ^ (Nat.log2 n : Int) ≤ n ∧ (n : ℚ) < 2 ^ ((Nat.log2 n : Int) + 1) := by
  have low : 2 ^ Nat.log2 n ≤ n := Nat.log2_self_le positive.ne'
  have high : n < 2 ^ (Nat.log2 n + 1) := Nat.lt_log2_self
  constructor
  · rw [zpow_natCast]
    exact_mod_cast low
  · rw [← Nat.cast_succ, zpow_natCast]
    exact_mod_cast high

/-- The exponent is told by the first binary digit of the quotient. -/
theorem exponentOf_eq {num den : Nat} (num_pos : 0 < num) (den_pos : 0 < den) :
    ∃ g : Int, (2 : ℚ) ^ g ≤ num / den ∧ (num : ℚ) / den < 2 ^ (g + 1) ∧
      exponentOf num den = max minExp (g - 52) := by
  have den_cast : (0 : ℚ) < den := Nat.cast_pos.2 den_pos
  obtain ⟨num_low, num_high⟩ := log2_bounds num_pos
  obtain ⟨den_low, den_high⟩ := log2_bounds den_pos
  set guess : Int := (Nat.log2 num : Int) - (Nat.log2 den : Int) with guess_eq
  have power : ∀ k : Int, (0 : ℚ) < 2 ^ k := fun k => zpow_pos two_pos k
  -- The guess is the digit sought or the one above it.
  have above : (num : ℚ) / den < 2 ^ (guess + 1) := by
    rw [div_lt_iff₀ den_cast]
    calc (num : ℚ) < 2 ^ ((Nat.log2 num : Int) + 1) := num_high
      _ = 2 ^ (guess + 1) * 2 ^ (Nat.log2 den : Int) := by
        rw [← zpow_add₀ two_ne_zero]
        congr 1
        omega
      _ ≤ 2 ^ (guess + 1) * den := mul_le_mul_of_nonneg_left den_low (power _).le
  have below : (2 : ℚ) ^ (guess - 1) ≤ num / den := by
    rw [le_div_iff₀ den_cast]
    calc (2 : ℚ) ^ (guess - 1) * den ≤ 2 ^ (guess - 1) * 2 ^ ((Nat.log2 den : Int) + 1) :=
          mul_le_mul_of_nonneg_left den_high.le (power _).le
      _ = 2 ^ (Nat.log2 num : Int) := by
        rw [← zpow_add₀ two_ne_zero]
        congr 1
        omega
      _ ≤ num := num_low
  have decides := scaled_le_iff num den_pos guess
  unfold exponentOf
  simp only [← guess_eq]
  split
  · next reached => exact ⟨guess, decides.1 reached, above, rfl⟩
  · next short =>
    refine ⟨guess - 1, below, ?_, rfl⟩
    rw [Int.sub_add_cancel]
    exact lt_of_not_ge fun reached => short (decides.2 reached)

theorem ofScaled_eq (neg : Bool) (mant : Nat) (exp : Int) : ∃ num den : Nat, 0 < den ∧
    (num : ℚ) / den = mant * 2 ^ exp ∧ ofScaled neg mant exp = ofQuotient neg num den := by
  unfold ofScaled
  split
  · next nonneg =>
    refine ⟨_, _, Nat.one_pos, ?_, rfl⟩
    rw [Nat.cast_mul, pow_cast, Int.toNat_of_nonneg nonneg, Nat.cast_one, div_one]
  · next negative =>
    have den_pos : 0 < Nat.pow 2 (-exp).toNat := Nat.pow_pos (by decide)
    refine ⟨_, _, den_pos, ?_, rfl⟩
    rw [pow_cast, Int.toNat_of_nonneg (by omega : 0 ≤ -exp), zpow_neg, div_inv_eq_mul]

/-! ### To a double -/

/-- The quotient over the exponent that rounding gives it, as a whole number. -/
def mantissa (num den : Nat) : Nat :=
  let fraction := scaled num den (exponentOf num den)
  roundDiv fraction.1 fraction.2

/-- The value to which a quotient is rounded, however large. -/
def rounded (num den : Nat) : ℚ := mantissa num den * 2 ^ exponentOf num den

section

variable {num den num' den' k : Nat} {e : Int}

theorem two_pow_pos (i : Int) : (0 : ℚ) < 2 ^ i := zpow_pos two_pos i

/-- The mantissa has at most 53 binary digits, or is one more than these tell. -/
theorem mantissa_le (num_pos : 0 < num) (den_pos : 0 < den) : mantissa num den ≤ 2 ^ 53 := by
  obtain ⟨g, -, short, exponent⟩ := exponentOf_eq num_pos den_pos
  obtain ⟨scale_pos, scale⟩ := scaled_eq num den_pos (exponentOf num den)
  have fine : g - 52 ≤ exponentOf num den := exponent ▸ le_max_right _ _
  refine roundDiv_le ?_
  have less : (num : ℚ) / den / 2 ^ exponentOf num den < 2 ^ 53 := by
    rw [div_lt_iff₀ (two_pow_pos _)]
    calc (num : ℚ) / den < 2 ^ (g + 1) := short
      _ ≤ 2 ^ (53 + exponentOf num den) := zpow_le_zpow_right₀ one_le_two (by omega)
      _ = 2 ^ 53 * 2 ^ exponentOf num den := by rw [zpow_add₀ two_ne_zero]; norm_cast
  have cast : ((scaled num den (exponentOf num den)).1 : ℚ) <
      2 ^ 53 * (scaled num den (exponentOf num den)).2 := by
    rw [scale]
    exact mul_lt_mul_of_pos_right less (Nat.cast_pos.2 scale_pos)
  exact_mod_cast cast

/-- Above the least exponent the mantissa has all its binary digits. -/
theorem le_mantissa (num_pos : 0 < num) (den_pos : 0 < den) (above : minExp < exponentOf num den) :
    2 ^ 52 ≤ mantissa num den := by
  obtain ⟨g, reached, -, exponent⟩ := exponentOf_eq num_pos den_pos
  obtain ⟨scale_pos, scale⟩ := scaled_eq num den_pos (exponentOf num den)
  have leading : exponentOf num den + 52 = g := by omega
  refine le_trans ((Nat.le_div_iff_mul_le scale_pos).2 ?_) (div_le_roundDiv _ _)
  have enough : (2 : ℚ) ^ 52 ≤ num / den / 2 ^ exponentOf num den := by
    rw [le_div_iff₀ (two_pow_pos _)]
    calc (2 : ℚ) ^ 52 * 2 ^ exponentOf num den = 2 ^ g := by
          rw [← leading, add_comm, zpow_add₀ two_ne_zero]
          norm_cast
      _ ≤ num / den := reached
  have cast : (2 : ℚ) ^ 52 * (scaled num den (exponentOf num den)).2 ≤
      (scaled num den (exponentOf num den)).1 := by
    rw [scale]
    exact mul_le_mul_of_nonneg_right enough (Nat.cast_nonneg _)
  exact_mod_cast cast

theorem minExp_le_exponentOf (num den : Nat) : minExp ≤ exponentOf num den := le_max_left _ _

theorem rounded_nonneg (num den : Nat) : 0 ≤ rounded num den :=
  mul_nonneg (Nat.cast_nonneg _) (two_pow_pos _).le

theorem rounded_zero (den : Nat) : rounded 0 den = 0 := by
  have nothing : ∀ d : Nat, roundDiv 0 d = 0 := by
    intro d
    simp [roundDiv]
  have none_scaled : (scaled 0 den (exponentOf 0 den)).1 = 0 := by
    unfold scaled
    split <;> simp
  rw [rounded, mantissa, none_scaled, nothing]
  simp

/-- Rounding keeps the order. -/
theorem rounded_mono (den_pos : 0 < den) (den_pos' : 0 < den')
    (le : (num : ℚ) / den ≤ num' / den') : rounded num den ≤ rounded num' den' := by
  rcases Nat.eq_zero_or_pos num with rfl | num_pos
  · rw [rounded_zero]
    exact rounded_nonneg num' den'
  have quotient_pos : (0 : ℚ) < num' / den' :=
    (div_pos (Nat.cast_pos.2 num_pos) (Nat.cast_pos.2 den_pos)).trans_le le
  have num_pos' : 0 < num' := by
    refine Nat.pos_of_ne_zero fun nothing => ?_
    rw [nothing, Nat.cast_zero, zero_div] at quotient_pos
    exact lt_irrefl _ quotient_pos
  obtain ⟨g, reached, -, exponent⟩ := exponentOf_eq num_pos den_pos
  obtain ⟨g', -, short', exponent'⟩ := exponentOf_eq num_pos' den_pos'
  have leading : g < g' + 1 :=
    (zpow_lt_zpow_iff_right₀ one_lt_two).1 ((reached.trans le).trans_lt short')
  have exponents : exponentOf num den ≤ exponentOf num' den' := by omega
  rcases exponents.lt_or_eq with less | same
  · -- A mantissa carried over is the least one over the next exponent.
    have least := minExp_le_exponentOf num den
    have most : (mantissa num den : ℚ) ≤ 2 ^ 53 := by exact_mod_cast mantissa_le num_pos den_pos
    have full : (2 : ℚ) ^ 52 ≤ mantissa num' den' := by
      exact_mod_cast le_mantissa num_pos' den_pos' (least.trans_lt less)
    calc rounded num den ≤ 2 ^ 53 * 2 ^ exponentOf num den :=
          mul_le_mul_of_nonneg_right most (two_pow_pos _).le
      _ = 2 ^ 52 * 2 ^ (exponentOf num den + 1) := by
          rw [zpow_add₀ two_ne_zero]
          ring
      _ ≤ 2 ^ 52 * 2 ^ exponentOf num' den' :=
          mul_le_mul_of_nonneg_left (zpow_le_zpow_right₀ one_le_two (by omega)) (by norm_num)
      _ ≤ rounded num' den' := mul_le_mul_of_nonneg_right full (two_pow_pos _).le
  · obtain ⟨scale_pos, -⟩ := scaled_eq num den_pos (exponentOf num den)
    obtain ⟨scale_pos', -⟩ := scaled_eq num' den_pos' (exponentOf num den)
    have mantissas : mantissa num den ≤ mantissa num' den' := by
      simp only [mantissa, ← same]
      exact roundDiv_mono scale_pos scale_pos' (scaled_mono den_pos den_pos' le _)
    rw [rounded, rounded, ← same]
    exact mul_le_mul_of_nonneg_right (Nat.cast_le.2 mantissas) (two_pow_pos _).le

/-- A quotient that has a mantissa and an exponent is not rounded. -/
theorem rounded_exact (den_pos : 0 < den) (small : k < 2 ^ 53) (low : minExp ≤ e)
    (same : (num : ℚ) / den = k * 2 ^ e) : rounded num den = k * 2 ^ e := by
  rcases Nat.eq_zero_or_pos num with rfl | num_pos
  · rw [rounded_zero, ← same, Nat.cast_zero, zero_div]
  obtain ⟨g, reached, -, exponent⟩ := exponentOf_eq num_pos den_pos
  have small_cast : (k : ℚ) < 2 ^ (53 : Int) := by exact_mod_cast small
  have leading : g < 53 + e := by
    have less : (2 : ℚ) ^ g < 2 ^ (53 + e) := by
      calc (2 : ℚ) ^ g ≤ k * 2 ^ e := same ▸ reached
        _ < 2 ^ (53 : Int) * 2 ^ e := mul_lt_mul_of_pos_right small_cast (two_pow_pos e)
        _ = 2 ^ (53 + e) := (zpow_add₀ two_ne_zero _ _).symm
    exact (zpow_lt_zpow_iff_right₀ one_lt_two).1 less
  -- The quotient has no fewer places than the mantissa needs.
  have within : exponentOf num den ≤ e := by omega
  obtain ⟨scale_pos, scale⟩ := scaled_eq num den_pos (exponentOf num den)
  set f := exponentOf num den with f_eq
  set whole := k * Nat.pow 2 (e - f).toNat with whole_eq
  have whole_cast : (whole : ℚ) * 2 ^ f = k * 2 ^ e := by
    rw [whole_eq, Nat.cast_mul, pow_cast, Int.toNat_of_nonneg (Int.sub_nonneg.2 within), mul_assoc,
      ← zpow_add₀ two_ne_zero, Int.sub_add_cancel]
  have divides : (scaled num den f).1 = whole * (scaled num den f).2 := by
    have cast : ((scaled num den f).1 : ℚ) = whole * (scaled num den f).2 := by
      rw [scale, same, ← whole_cast, mul_div_assoc, div_self (two_pow_pos f).ne', mul_one]
    exact_mod_cast cast
  rw [rounded, mantissa, ← f_eq, divides, roundDiv_mul whole scale_pos, whole_cast]

/-- What is at most a value that a double can hold is rounded to at most that value. -/
theorem rounded_le (den_pos : 0 < den) (small : k < 2 ^ 53) (low : minExp ≤ e)
    (le : (num : ℚ) / den ≤ k * 2 ^ e) : rounded num den ≤ k * 2 ^ e := by
  obtain ⟨num', den', den_pos', quotient, -⟩ := ofScaled_eq false k e
  rw [← rounded_exact den_pos' small low quotient]
  exact rounded_mono den_pos den_pos' (le.trans_eq quotient.symm)

/-- What is at least such a value is rounded to at least it. -/
theorem le_rounded (den_pos : 0 < den) (small : k < 2 ^ 53) (low : minExp ≤ e)
    (le : k * 2 ^ e ≤ (num : ℚ) / den) : k * 2 ^ e ≤ rounded num den := by
  obtain ⟨num', den', den_pos', quotient, -⟩ := ofScaled_eq false k e
  rw [← rounded_exact den_pos' small low quotient]
  exact rounded_mono den_pos' den_pos (quotient.trans_le le)

/-- The mantissa and the exponent that a quotient is rounded to, of which the exponent may be too large. -/
theorem ofQuotient_parts (neg : Bool) (num_pos : 0 < num) (den_pos : 0 < den) : ∃ (m : Nat) (e : Int),
    (m : ℚ) * 2 ^ e = rounded num den ∧ m < 2 ^ 53 ∧ (maxExp < e → 2 ^ 52 ≤ m) ∧
      ofQuotient neg num den = if maxExp < e then .infinite neg else .finite neg m e := by
  have unfolded : ofQuotient neg num den =
      let kept := if mantissa num den = Nat.pow 2 53 then
        (Nat.pow 2 52, exponentOf num den + 1) else (mantissa num den, exponentOf num den)
      if maxExp < kept.2 then .infinite neg else .finite neg kept.1 kept.2 := by
    rw [ofQuotient, if_neg num_pos.ne']
    rfl
  rw [unfolded]
  by_cases carried : mantissa num den = Nat.pow 2 53
  · refine ⟨Nat.pow 2 52, exponentOf num den + 1, ?_, by decide, fun _ => le_refl _, ?_⟩
    · rw [rounded, carried, zpow_add₀ two_ne_zero]
      push_cast
      ring
    · simp only [if_pos carried]
  · have short : mantissa num den < 2 ^ 53 := lt_of_le_of_ne (mantissa_le num_pos den_pos) carried
    refine ⟨mantissa num den, exponentOf num den, rfl, short, fun beyond => ?_, ?_⟩
    · exact le_mantissa num_pos den_pos (lt_trans (by decide) beyond)
    · simp only [if_neg carried]

/-- A quotient is the double of the value it is rounded to, unless that is too large. -/
theorem holds_rounded (neg : Bool) (den_pos : 0 < den) (small : rounded num den < 2 ^ 1024) :
    Holds neg (rounded num den) (ofQuotient neg num den) := by
  rcases Nat.eq_zero_or_pos num with rfl | num_pos
  · refine ⟨0, minExp, by rw [ofQuotient, if_pos rfl]; rfl, ?_⟩
    rw [rounded_zero, Nat.cast_zero, zero_mul]
  obtain ⟨m, e, value, -, full, same⟩ := ofQuotient_parts neg num_pos den_pos
  -- What is lost to the range lies from `2 ^ 1024` on.
  have inside : ¬maxExp < e := by
    intro beyond
    refine absurd small (not_lt.2 ?_)
    have full_cast : (2 : ℚ) ^ 52 ≤ m := by exact_mod_cast full beyond
    have last : (2 : ℚ) ^ 1024 = 2 ^ 52 * 2 ^ (maxExp + 1) := by
      have exponent : maxExp + 1 = (972 : Nat) := by decide
      rw [exponent, zpow_natCast, ← pow_add]
    calc (2 : ℚ) ^ 1024 = 2 ^ 52 * 2 ^ (maxExp + 1) := last
      _ ≤ (m : ℚ) * 2 ^ e := by
          refine mul_le_mul full_cast ?_ (two_pow_pos _).le (Nat.cast_nonneg m)
          exact zpow_le_zpow_right₀ one_le_two beyond
      _ = rounded num den := value
  rw [same, if_neg inside]
  exact ⟨m, e, rfl, value⟩

/-- One that is too large has none. -/
theorem ofQuotient_overflow (neg : Bool) (num_pos : 0 < num) (den_pos : 0 < den)
    (large : 2 ^ 1024 ≤ rounded num den) : ofQuotient neg num den = .infinite neg := by
  obtain ⟨m, e, value, short, -, same⟩ := ofQuotient_parts neg num_pos den_pos
  have beyond : maxExp < e := by
    refine Int.not_le.1 fun inside => not_lt.2 large ?_
    have short_cast : (m : ℚ) < 2 ^ 53 := by exact_mod_cast short
    have exponent : maxExp = (971 : Nat) := by decide
    calc rounded num den = m * 2 ^ e := value.symm
      _ < 2 ^ 53 * 2 ^ e := mul_lt_mul_of_pos_right short_cast (two_pow_pos e)
      _ ≤ 2 ^ 53 * 2 ^ maxExp :=
          mul_le_mul_of_nonneg_left (zpow_le_zpow_right₀ one_le_two inside) (by norm_num)
      _ = 2 ^ 1024 := by rw [exponent, zpow_natCast, ← pow_add]
  rw [same, if_pos beyond]

theorem Holds.value {q : ℚ} {x : Binary64} (holds : Holds false q x) :
    x.value = ((q : WithTop ℚ) : WithBot (WithTop ℚ)) := by
  obtain ⟨m, e, rfl, same⟩ := holds
  rw [Binary64.value, ← same]
  rfl

/-- A sum of what is not negative is rounded once. -/
theorem Holds.add {p q : ℚ} {x y : Binary64} (holds : Holds false p x) (holds' : Holds false q y)
    (some_sum : 0 < p + q) : ∃ num den : Nat, 0 < den ∧ (num : ℚ) / den = p + q ∧
      x.add y = ofQuotient false num den := by
  obtain ⟨m, e, rfl, rfl⟩ := holds
  obtain ⟨n, f, rfl, rfl⟩ := holds'
  set a := m * Nat.pow 2 (e - min e f).toNat with a_eq
  set b := n * Nat.pow 2 (f - min e f).toNat with b_eq
  have sum_eq : ((a + b : Nat) : ℚ) * 2 ^ min e f = m * 2 ^ e + n * 2 ^ f := by
    have first := signed_aligned false m (min_le_left e f)
    have second := signed_aligned false n (min_le_right e f)
    rw [← a_eq] at first
    rw [← b_eq] at second
    simp only [signed, Bool.false_eq_true, if_false, Int.cast_natCast] at first second
    rw [first, second, Nat.cast_add, add_mul]
  have some_whole : ((a : Int) + (b : Int)) ≠ 0 := by
    intro nothing
    have none_left : a + b = 0 := by omega
    rw [none_left, Nat.cast_zero, zero_mul] at sum_eq
    exact some_sum.ne sum_eq
  obtain ⟨num, den, den_pos, quotient, scaled⟩ := ofScaled_eq false (a + b) (min e f)
  refine ⟨num, den, den_pos, quotient.trans sum_eq, ?_⟩
  have sign : decide ((a : Int) + (b : Int) < 0) = false := decide_eq_false (by omega)
  have magnitude : ((a : Int) + (b : Int)).natAbs = a + b := by omega
  rw [← scaled]
  simp only [Binary64.add, aligned, signed, Bool.false_eq_true, if_false, ← a_eq, ← b_eq,
    if_neg some_whole, sign, magnitude]

end

/-! ### What is not rounded -/

/-- A quotient that has a mantissa and an exponent within the range is its own double. -/
theorem holds_ofQuotient (neg : Bool) {num den k : Nat} {e : Int} (den_pos : 0 < den)
    (small : k < 2 ^ 53) (low : minExp ≤ e) (high : e ≤ maxExp) (same : (num : ℚ) / den = k * 2 ^ e) :
    Holds neg (k * 2 ^ e) (ofQuotient neg num den) := by
  have exact_value : rounded num den = k * 2 ^ e := rounded_exact den_pos small low same
  rw [← exact_value]
  refine holds_rounded neg den_pos ?_
  have last : (2 : ℚ) ^ 53 * 2 ^ maxExp = 2 ^ 1024 := by
    have exponent : maxExp = (971 : Nat) := by decide
    rw [exponent, zpow_natCast, ← pow_add]
  have small_cast : (k : ℚ) < 2 ^ 53 := by exact_mod_cast small
  calc rounded num den = k * 2 ^ e := exact_value
    _ < 2 ^ 53 * 2 ^ e := mul_lt_mul_of_pos_right small_cast (two_pow_pos e)
    _ ≤ 2 ^ 53 * 2 ^ maxExp :=
        mul_le_mul_of_nonneg_left (zpow_le_zpow_right₀ one_le_two high) (by norm_num)
    _ = 2 ^ 1024 := last

theorem holds_ofScaled (neg : Bool) {mant k : Nat} {exp e : Int} (small : k < 2 ^ 53)
    (low : minExp ≤ e) (high : e ≤ maxExp) (same : (mant : ℚ) * 2 ^ exp = k * 2 ^ e) :
    Holds neg (k * 2 ^ e) (ofScaled neg mant exp) := by
  obtain ⟨num, den, den_pos, quotient, scaled⟩ := ofScaled_eq neg mant exp
  rw [scaled]
  exact holds_ofQuotient neg den_pos small low high (quotient.trans same)

theorem holds_ofInt {n : Nat} (small : n ≤ 2 ^ 53) : Holds false n (ofInt n) := by
  have sign : (decide ((n : Int) < 0)) = false := decide_eq_false (by omega)
  rw [ofInt, sign, Int.natAbs_natCast]
  rcases small.lt_or_eq with less | same
  · have plain : (n : ℚ) / (1 : Nat) = n * 2 ^ (0 : Int) := by simp
    have holds := holds_ofQuotient false Nat.one_pos less (by decide) (by decide) plain
    simpa using holds
  · have power : (n : ℚ) / (1 : Nat) = (2 ^ 52 : Nat) * 2 ^ (1 : Int) := by
      rw [same]
      norm_num
    have holds := holds_ofQuotient false Nat.one_pos (by decide) (by decide) (by decide) power
    rwa [← power, Nat.cast_one, div_one] at holds

theorem signed_not (neg : Bool) (n : Nat) : signed (!neg) n = -signed neg n := by
  cases neg <;> simp [signed]

/-- The least whole number not below a finite double. -/
theorem ceil?_eq (neg : Bool) (mant : Nat) (exp : Int) :
    ceil? (.finite neg mant exp) = some ⌈(signed neg mant : ℚ) * 2 ^ exp⌉ := by
  have quotient : ∀ n d : Nat, -(signed (!neg) n / (d : Int)) = ⌈(signed neg n : ℚ) / d⌉ := by
    intro n d
    rw [signed_not, Rat.ceil_intCast_div_natCast]
  simp only [ceil?, magnitude]
  split
  · next nonneg =>
    rw [quotient, signed_mul, Int.cast_mul, Int.cast_natCast, pow_cast,
      Int.toNat_of_nonneg nonneg, Nat.cast_one, div_one]
  · next negative =>
    rw [quotient, pow_cast, Int.toNat_of_nonneg (by omega : 0 ≤ -exp), zpow_neg, div_inv_eq_mul]

end Binary64

end DesignComponents
