import DesignComponents.Number.Basic
import Mathlib.Algebra.Order.Field.Power
import Mathlib.Algebra.Order.Field.Rat
import Mathlib.Order.WithBot

/-! The order of numbers is that of their values. Whatever is a number at all has one among the
rationals and the two infinities, and comparing compares these. -/

set_option autoImplicit false

namespace DesignComponents

namespace Binary64

/-- The value of a double. What is not a number has none; the least stands in for it. -/
def value : Binary64 → WithBot (WithTop ℚ)
  | .finite neg mant exp => (((signed neg mant : ℚ) * 2 ^ exp : ℚ) : WithTop ℚ)
  | .infinite neg => if neg then ⊥ else ⊤
  | .nan => ⊥

theorem signed_mul (neg : Bool) (m k : Nat) : signed neg (m * k) = signed neg m * k := by
  cases neg <;> simp [signed]

/-- Over a common exponent the value stays. -/
theorem signed_aligned (neg : Bool) (m : Nat) {e g : Int} (below : g ≤ e) :
    (signed neg m : ℚ) * 2 ^ e = (signed neg (m * Nat.pow 2 (e - g).toNat) : ℚ) * 2 ^ g := by
  have exponent : (2 : ℚ) ^ e = 2 ^ (e - g).toNat * 2 ^ g := by
    rw [← zpow_natCast, ← zpow_add₀ two_ne_zero, Int.toNat_of_nonneg (Int.sub_nonneg.2 below),
      Int.sub_add_cancel]
  rw [signed_mul, exponent, Int.cast_mul, mul_assoc]
  norm_cast

theorem compare?_finite (s t : Bool) (m n : Nat) (e f : Int) :
    compare? (.finite s m e) (.finite t n f) =
      some (compare ((signed s m : ℚ) * 2 ^ e) ((signed t n : ℚ) * 2 ^ f)) := by
  have positive : (0 : ℚ) < 2 ^ min e f := zpow_pos two_pos _
  rw [signed_aligned s m (min_le_left e f), signed_aligned t n (min_le_right e f)]
  change some (compare _ _) = some (compare _ _)
  congr 1
  generalize signed s (m * Nat.pow 2 (e - min e f).toNat) = a
  generalize signed t (n * Nat.pow 2 (f - min e f).toNat) = b
  rcases lt_trichotomy a b with less | same | more
  · rw [compare_lt_iff_lt.2 less, compare_lt_iff_lt.2]
    exact mul_lt_mul_of_pos_right (Int.cast_lt.2 less) positive
  · rw [same, compare_eq_iff_eq.2 rfl, compare_eq_iff_eq.2 rfl]
  · rw [compare_gt_iff_gt.2 more, compare_gt_iff_gt.2]
    exact mul_lt_mul_of_pos_right (Int.cast_lt.2 more) positive

theorem compare_coe (a b : ℚ) :
    compare ((a : WithTop ℚ) : WithBot (WithTop ℚ)) ((b : WithTop ℚ) : WithBot (WithTop ℚ)) =
      compare a b := by
  rcases lt_trichotomy a b with less | same | more
  · rw [compare_lt_iff_lt.2 less, compare_lt_iff_lt.2]
    exact WithBot.coe_lt_coe.2 (WithTop.coe_lt_coe.2 less)
  · rw [same, compare_eq_iff_eq.2 rfl, compare_eq_iff_eq.2 rfl]
  · rw [compare_gt_iff_gt.2 more, compare_gt_iff_gt.2]
    exact WithBot.coe_lt_coe.2 (WithTop.coe_lt_coe.2 more)

/-- Numbers compare as their values do. -/
theorem compare?_eq {x y : Binary64} (some_x : x ≠ nan) (some_y : y ≠ nan) :
    x.compare? y = some (compare x.value y.value) := by
  have below : ∀ q : ℚ, (⊥ : WithBot (WithTop ℚ)) < ((q : WithTop ℚ) : WithBot (WithTop ℚ)) :=
    fun q => WithBot.bot_lt_coe _
  have above : ∀ q : ℚ, ((q : WithTop ℚ) : WithBot (WithTop ℚ)) < ⊤ :=
    fun q => WithBot.coe_lt_coe.2 (WithTop.coe_lt_top q)
  have ends : (⊥ : WithBot (WithTop ℚ)) < ⊤ := bot_lt_top
  -- The infinities lie below and above all that is finite.
  cases x with
  | nan => exact absurd rfl some_x
  | infinite s =>
    cases y with
    | nan => exact absurd rfl some_y
    | infinite t =>
      cases s <;> cases t
      · simp [compare?, value]
      · simp [compare?, value, compare_gt_iff_gt.2 ends]
      · simp [compare?, value, compare_lt_iff_lt.2 ends]
      · simp [compare?, value]
    | finite t n f =>
      cases s
      · exact congrArg some (compare_gt_iff_gt.2 (above _)).symm
      · exact congrArg some (compare_lt_iff_lt.2 (below _)).symm
  | finite s m e =>
    cases y with
    | nan => exact absurd rfl some_y
    | infinite t =>
      cases t
      · exact congrArg some (compare_lt_iff_lt.2 (above _)).symm
      · exact congrArg some (compare_gt_iff_gt.2 (below _)).symm
    | finite t n f => rw [compare?_finite, value, value, compare_coe]

section

variable {x y : Binary64} (some_x : x ≠ nan) (some_y : y ≠ nan)

include some_x some_y

theorem lt_iff : x.lt y = true ↔ x.value < y.value := by
  rw [lt, compare?_eq some_x some_y, ← compare_lt_iff_lt]
  simp

theorem le_iff : x.le y = true ↔ x.value ≤ y.value := by
  rw [le, compare?_eq some_x some_y, ← compare_le_iff_le]
  cases compare x.value y.value <;> decide

end

/-! ### Arithmetic that stays among the numbers -/

theorem ofQuotient_ne_nan (neg : Bool) (num den : Nat) : ofQuotient neg num den ≠ nan := by
  simp only [ofQuotient, zero]
  split
  · exact nofun
  -- The mantissa may round up to the next power of two.
  · split <;> split <;> exact nofun

theorem ofScaled_ne_nan (neg : Bool) (mant : Nat) (exp : Int) : ofScaled neg mant exp ≠ nan := by
  unfold ofScaled
  split <;> exact ofQuotient_ne_nan _ _ _

theorem ofInt_ne_nan (n : Int) : ofInt n ≠ nan := ofQuotient_ne_nan _ _ _

theorem ofRatio_ne_nan (num den : Int) : ofRatio num den ≠ nan := ofQuotient_ne_nan _ _ _

/-- A finite number adds to any. -/
theorem add_ne_nan {y : Binary64} (some_y : y ≠ nan) (neg : Bool) (mant : Nat) (exp : Int) :
    (finite neg mant exp).add y ≠ nan := by
  cases y with
  | nan => exact absurd rfl some_y
  | infinite t => exact nofun
  | finite t n f =>
    simp only [add]
    split
    · exact nofun
    · exact ofScaled_ne_nan _ _ _

/-- A finite number other than zero multiplies any. -/
theorem mul_ne_nan {x : Binary64} (some_x : x ≠ nan) (neg : Bool) {mant : Nat} (not_zero : mant ≠ 0)
    (exp : Int) : x.mul (finite neg mant exp) ≠ nan := by
  cases x with
  | nan => exact absurd rfl some_x
  | infinite s =>
    rw [mul, if_neg not_zero]
    exact nofun
  | finite s m e => exact ofScaled_ne_nan _ _ _

/-- A finite number other than zero divides any. -/
theorem div_ne_nan {x : Binary64} (some_x : x ≠ nan) (neg : Bool) {mant : Nat} (not_zero : mant ≠ 0)
    (exp : Int) : x.div (finite neg mant exp) ≠ nan := by
  cases x with
  | nan => exact absurd rfl some_x
  | infinite s => exact nofun
  | finite s m e =>
    simp only [div, if_neg not_zero]
    split <;> exact ofQuotient_ne_nan _ _ _

end Binary64

namespace Number

/-- The value of a number; what is not a number has none. -/
def value (n : Number) : WithBot (WithTop ℚ) := n.exact.value

def IsSome (n : Number) : Prop := n.exact ≠ .nan

instance (n : Number) : Decidable n.IsSome := inferInstanceAs (Decidable (_ ≠ _))

theorem value_int (n : Int) : value (.int n) = (((n : ℚ) : WithTop ℚ) : WithBot (WithTop ℚ)) := by
  have whole : Binary64.signed (n < 0) n.natAbs = n := by
    by_cases negative : n < 0
    · simp only [negative, decide_true, Binary64.signed, if_true]
      omega
    · simp only [negative, decide_false, Binary64.signed, Bool.false_eq_true, if_false]
      omega
  simp only [value, exact, Binary64.value, whole, zpow_zero, mul_one]

section

variable {a b c : Number} (some_a : a.IsSome) (some_b : b.IsSome)

include some_a some_b

theorem lt_iff : a.lt b = true ↔ a.value < b.value := Binary64.lt_iff some_a some_b

theorem le_iff : a.le b = true ↔ a.value ≤ b.value := Binary64.le_iff some_a some_b

/-- What is not below is above. -/
theorem le_of_not_lt (not_below : a.lt b = false) : b.le a = true := by
  rw [le_iff some_b some_a, ← not_lt, ← lt_iff some_a some_b, not_below]
  exact Bool.false_ne_true

theorem le_trans (some_c : c.IsSome) (first : a.le b = true) (second : b.le c = true) :
    a.le c = true := by
  rw [le_iff some_a some_b] at first
  rw [le_iff some_b some_c] at second
  rw [le_iff some_a some_c]
  exact first.trans second

theorem lt_of_le_of_lt (some_c : c.IsSome) (first : a.le b = true) (second : b.lt c = true) :
    a.lt c = true := by
  rw [le_iff some_a some_b] at first
  rw [lt_iff some_b some_c] at second
  rw [lt_iff some_a some_c]
  exact first.trans_lt second

theorem lt_of_lt_of_le (some_c : c.IsSome) (first : a.lt b = true) (second : b.le c = true) :
    a.lt c = true := by
  rw [lt_iff some_a some_b] at first
  rw [le_iff some_b some_c] at second
  rw [lt_iff some_a some_c]
  exact first.trans_le second

theorem le_of_lt (below : a.lt b = true) : a.le b = true := by
  rw [lt_iff some_a some_b] at below
  rw [le_iff some_a some_b]
  exact below.le

theorem min_isSome : (min a b).IsSome := by
  unfold min
  split <;> assumption

theorem min_le : (min a b).le b = true := by
  unfold min
  split
  · exact (le_iff some_b some_b).2 le_rfl
  · next not_below => exact le_of_not_lt some_b some_a (Bool.eq_false_iff.2 not_below)

end

/-- Whole numbers compare as such. -/
theorem lt_int (m n : Int) : lt (.int m) (.int n) = true ↔ m < n := by
  have some_int : ∀ k : Int, IsSome (.int k) := fun _ => nofun
  rw [lt_iff (some_int m) (some_int n), value_int, value_int, WithBot.coe_lt_coe, WithTop.coe_lt_coe,
    Int.cast_lt]

theorem le_int (m n : Int) : le (.int m) (.int n) = true ↔ m ≤ n := by
  have some_int : ∀ k : Int, IsSome (.int k) := fun _ => nofun
  rw [le_iff (some_int m) (some_int n), value_int, value_int, WithBot.coe_le_coe, WithTop.coe_le_coe,
    Int.cast_le]

end Number

end DesignComponents
