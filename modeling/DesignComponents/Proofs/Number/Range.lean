import DesignComponents.Proofs.Number.Rounding
import DesignComponents.Proofs.Number.Reading

/-! What is too large for a double and what is not: below `2 ^ 1023` rounding leaves a number finite, a
numeral of three hundred characters is below that, and a whole number has a double up to half a step
above the greatest. -/

set_option autoImplicit false

namespace DesignComponents

namespace Binary64

/-- The double is finite, and no larger in magnitude than the power of two. -/
def Within (k : Int) (x : Binary64) : Prop :=
  ∃ neg m e, x = .finite neg m e ∧ (m : ℚ) * 2 ^ e ≤ 2 ^ k

theorem within_ofQuotient (neg : Bool) {num den : Nat} {k : Int} (den_pos : 0 < den)
    (low : minExp + 53 ≤ k) (high : k ≤ 1023) (small : (num : ℚ) / den < 2 ^ k) :
    Within k (ofQuotient neg num den) := by
  have power : ((1 : Nat) : ℚ) * 2 ^ k = 2 ^ k := by rw [Nat.cast_one, one_mul]
  have bound : rounded num den ≤ 2 ^ k := by
    rw [← power]
    exact rounded_le den_pos (by decide) (by omega) (small.le.trans_eq power.symm)
  have in_range : rounded num den < 2 ^ 1024 := by
    calc rounded num den ≤ 2 ^ k := bound
      _ ≤ 2 ^ ((1023 : Nat) : Int) := zpow_le_zpow_right₀ one_le_two high
      _ < 2 ^ 1024 := by
          rw [zpow_natCast]
          exact pow_lt_pow_right₀ one_lt_two (by decide)
  obtain ⟨m, e, same, value⟩ := holds_rounded neg den_pos in_range
  exact ⟨neg, m, e, same, value.trans_le bound⟩

theorem within_ofScaled (neg : Bool) {mant : Nat} {exp k : Int} (low : minExp + 53 ≤ k)
    (high : k ≤ 1023) (small : (mant : ℚ) * 2 ^ exp < 2 ^ k) : Within k (ofScaled neg mant exp) := by
  obtain ⟨num, den, den_pos, quotient, scaled⟩ := ofScaled_eq neg mant exp
  rw [scaled]
  exact within_ofQuotient neg den_pos low high (quotient.trans_lt small)

/-- A hundred times a number is seven binary digits longer at most. -/
theorem Within.hundredfold {x : Binary64} {k : Int} (within : Within k x) (low : minExp + 46 ≤ k)
    (high : k ≤ 1016) : Within (k + 7) (x.mul (.ofInt 100)) := by
  obtain ⟨neg, m, e, rfl, bound⟩ := within
  obtain ⟨n, f, hundred, value⟩ := holds_ofInt (n := 100) (by decide)
  have same : (ofInt 100) = .finite false n f := hundred
  rw [same]
  apply within_ofScaled _ (by omega) (by omega)
  calc ((m * n : Nat) : ℚ) * 2 ^ (e + f) = m * 2 ^ e * (n * 2 ^ f) := by
        rw [zpow_add₀ two_ne_zero]
        push_cast
        ring
    _ ≤ 2 ^ k * 100 := by
      rw [value]
      exact mul_le_mul_of_nonneg_right bound (by norm_num)
    _ < 2 ^ k * 2 ^ (7 : Int) := mul_lt_mul_of_pos_left (by norm_num) (zpow_pos two_pos k)
    _ = 2 ^ (k + 7) := (zpow_add₀ two_ne_zero k 7).symm

theorem within_ofDecimal (neg : Bool) {digits k : Nat} {e : Int} (small : digits < 2 ^ k)
    (high : k ≤ 1000) (fraction : e ≤ 0) : Within k (ofDecimal neg digits e) := by
  have zero_within : Within k (zero neg) := ⟨neg, 0, minExp, rfl, by simp⟩
  by_cases nothing : digits = 0
  · rw [ofDecimal, if_pos nothing]
    exact zero_within
  have digits_cast : (digits : ℚ) < 2 ^ (k : Int) := by exact_mod_cast small
  have short : Nat.log2 digits < k := (Nat.log2_lt nothing).2 small
  have not_large : ¬400 < (Nat.log2 digits : Int) / 4 + e := by omega
  have low : minExp + 53 ≤ k := by
    unfold minExp
    omega
  simp only [ofDecimal, if_neg nothing, if_neg not_large]
  split
  · exact zero_within
  · split
    · next nonneg =>
      obtain rfl : e = 0 := le_antisymm fraction nonneg
      apply within_ofQuotient neg Nat.one_pos low (by omega)
      simpa using digits_cast
    · have ten_pos : 0 < Nat.pow 10 (-e).toNat := Nat.pow_pos (by decide)
      apply within_ofQuotient neg ten_pos low (by omega)
      have at_least_one : (1 : ℚ) ≤ (Nat.pow 10 (-e).toNat : Nat) := by exact_mod_cast ten_pos
      exact (div_le_self (Nat.cast_nonneg digits) at_least_one).trans_lt digits_cast

theorem Within.truncate? {x : Binary64} {k : Int} (within : Within k x) :
    ∃ n, x.truncate? = some n := by
  obtain ⟨neg, m, e, rfl, -⟩ := within
  exact ⟨_, rfl⟩

theorem Within.round? {x : Binary64} {k : Int} (within : Within k x) : ∃ n, x.round? = some n := by
  obtain ⟨neg, m, e, rfl, -⟩ := within
  exact ⟨_, rfl⟩

/-! ### The greatest double -/

/-- From half a step above the greatest double on, a whole number has none. -/
def limit : Nat := 2 ^ 1024 - 2 ^ 970

/-- There the mantissa is rounded up, and one before down. -/
theorem mantissa_limit : exponentOf limit 1 = maxExp ∧ mantissa limit 1 = 2 ^ 53 := by
  decide +kernel

theorem mantissa_below_limit :
    exponentOf (limit - 1) 1 = maxExp ∧ mantissa (limit - 1) 1 = 2 ^ 53 - 1 := by
  decide +kernel

theorem rounded_whole (n : Nat) : rounded n 1 < 2 ^ 1024 ↔ n < limit := by
  have exponent : maxExp = (971 : Nat) := by decide
  have last : (2 : ℚ) ^ 53 * 2 ^ maxExp = 2 ^ 1024 := by rw [exponent, zpow_natCast, ← pow_add]
  have mono : ∀ {m n : Nat}, m ≤ n → rounded m 1 ≤ rounded n 1 := fun le =>
    rounded_mono Nat.one_pos Nat.one_pos (by simpa using le)
  constructor
  · intro small
    by_contra large
    obtain ⟨top, full⟩ := mantissa_limit
    have reached : rounded limit 1 = 2 ^ 1024 := by
      rw [rounded, top, full, ← last]
      push_cast
      rfl
    exact not_le.2 small (reached ▸ mono (not_lt.1 large))
  · intro small
    obtain ⟨top, full⟩ := mantissa_below_limit
    calc rounded n 1 ≤ rounded (limit - 1) 1 := mono (Nat.le_sub_one_of_lt small)
      _ = ((2 ^ 53 - 1 : Nat) : ℚ) * 2 ^ maxExp := by rw [rounded, top, full]
      _ < 2 ^ 53 * 2 ^ maxExp := mul_lt_mul_of_pos_right (by norm_num) (two_pow_pos _)
      _ = 2 ^ 1024 := last

theorem ofInt_overflow {n : Int} (large : limit ≤ n.natAbs) : ofInt n = .infinite (n < 0) := by
  have some_n : 0 < n.natAbs := lt_of_lt_of_le (by decide +kernel) large
  exact ofQuotient_overflow _ some_n Nat.one_pos
    (not_lt.1 fun small => not_lt.2 large ((rounded_whole _).1 small))

theorem ofInt_finite {n : Int} (small : n.natAbs < limit) : ∃ neg m e, ofInt n = .finite neg m e := by
  obtain ⟨m, e, same, -⟩ := holds_rounded (n < 0) Nat.one_pos ((rounded_whole _).2 small)
  exact ⟨_, m, e, same⟩

end Binary64

/-! ### Numerals -/

namespace Number

open Text

/-- What a numeral consists of. -/
def isFigure (c : Char) : Bool := isAsciiDigit c || c == '-' || c == '.' || c == '\n'

theorem figure_cases {c : Char} (figure : isFigure c = true) :
    isAsciiDigit c = true ∨ c = '-' ∨ c = '.' ∨ c = '\n' := by
  simpa [isFigure, or_assoc] using figure

theorem ofDigits_lt {ds : List Char} (digits : ∀ c ∈ ds, isAsciiDigit c = true) :
    ofDigits ds < 10 ^ ds.length := by
  have further : ∀ n, ds.foldl (fun n c => n * 10 + (c.toNat - '0'.toNat)) n < (n + 1) * 10 ^ ds.length := by
    -- On the digits, from any number: the next one is tenfold and less than ten more.
    induction ds with
    | nil => simp
    | cons c rest ih =>
      intro n
      have digit := isAsciiDigit_iff.1 (digits c List.mem_cons_self)
      have value : c.toNat - '0'.toNat ≤ 9 := by
        change c.toNat - 48 ≤ 9
        omega
      have others := ih (fun c mem => digits c (List.mem_cons_of_mem _ mem))
        (n * 10 + (c.toNat - '0'.toNat))
      calc _ < (n * 10 + (c.toNat - '0'.toNat) + 1) * 10 ^ rest.length := others
        _ ≤ (n + 1) * 10 * 10 ^ rest.length := Nat.mul_le_mul_right _ (by omega)
        _ = (n + 1) * 10 ^ (c :: rest).length := by rw [List.length_cons, Nat.pow_succ]; ring
  simpa [ofDigits] using further 0

/-- Three decimal places are less than ten binary ones. -/
theorem ofDigits_lt_two_pow {ds : List Char} {n : Nat} (digits : ∀ c ∈ ds, isAsciiDigit c = true)
    (length : ds.length ≤ 3 * n) : ofDigits ds < 2 ^ (10 * n) := by
  calc ofDigits ds < 10 ^ ds.length := ofDigits_lt digits
    _ ≤ 10 ^ (3 * n) := Nat.pow_le_pow_right (by decide) length
    _ = (10 ^ 3) ^ n := Nat.pow_mul 10 3 n
    _ ≤ (2 ^ 10) ^ n := Nat.pow_le_pow_left (by decide) n
    _ = 2 ^ (10 * n) := (Nat.pow_mul 2 10 n).symm

/-- A text is cut after the digits it begins with, given those that were read before it. -/
structure Cut (done text : List Char) (cut : List Char × List Char) : Prop where
  digits : (∀ c ∈ done, isAsciiDigit c = true) → ∀ c ∈ cut.1, isAsciiDigit c = true
  rest : cut.2 <:+ text
  length : cut.1.length + cut.2.length ≤ done.length + text.length

section

variable {done text : List Char} {cut : List Char × List Char} {c : Char}

theorem cut_here (done text : List Char) : Cut done text (done.reverse, text) where
  digits all c mem := all c (List.mem_reverse.1 mem)
  rest := List.suffix_refl text
  length := by rw [List.length_reverse]

theorem Cut.cons (further : Cut (c :: done) text cut) (digit : isAsciiDigit c = true) :
    Cut done (c :: text) cut where
  digits all := further.digits (List.forall_mem_cons.2 ⟨digit, all⟩)
  rest := further.rest.trans (List.suffix_cons c text)
  length := by
    have := further.length
    simp only [List.length_cons] at this ⊢
    omega

theorem Cut.skip (further : Cut done text cut) (c : Char) : Cut done (c :: text) cut where
  digits := further.digits
  rest := further.rest.trans (List.suffix_cons c text)
  length := further.length.trans (Nat.add_le_add_left (Nat.le_succ _) _)

theorem cut_digitRun (done text : List Char) : Cut done text (digitRun done text) := by
  induction done, text using digitRun.induct with
  | case1 done c rest digit ih =>
    rw [digitRun, if_pos digit]
    rw [Bool.and_eq_true] at digit
    exact (ih.cons digit.1).skip '_'
  | case2 done c rest other =>
    rw [digitRun, if_neg other]
    exact cut_here done _
  | case3 done c rest no_gap digit ih =>
    rw [digitRun, if_pos digit]
    · exact ih.cons digit
    · exact no_gap
  | case4 done c rest no_gap other =>
    rw [digitRun, if_neg other]
    · exact cut_here done _
    · exact no_gap
  | case5 done => exact cut_here done []

end

theorem asciiLower_figures {text : List Char} (figures : ∀ c ∈ text, isFigure c = true) :
    'n' ∉ asciiLower text := by
  intro mem
  obtain ⟨c, held, same⟩ := List.mem_map.1 mem
  have figure := figures c held
  have ascii : isAscii c = true := by
    rcases figure_cases figure with digit | rfl | rfl | rfl
    · have := isAsciiDigit_iff.1 digit
      simp only [isAscii, decide_eq_true_eq]
      omega
    all_goals decide
  have other := ascii_induction (motive := fun c => isFigure c = true →
    (if isAsciiUpper c then Char.ofNat (c.toNat + 32) else c) ≠ 'n') (by decide) ascii figure
  exact other same

/-- No exponent is written in figures. -/
theorem readExponent?_figures {text : List Char} {e : Int} (figures : ∀ c ∈ text, isFigure c = true)
    (reads : readExponent? text = some e) : e = 0 := by
  cases text with
  | nil =>
    cases reads
    rfl
  | cons c rest =>
    have other : (c == 'e' || c == 'E') = false := by
      apply Bool.eq_false_iff.2
      intro marked
      simp only [Bool.or_eq_true, beq_iff_eq] at marked
      have figure := figures c List.mem_cons_self
      rcases marked with rfl | rfl
      · exact absurd figure (by decide)
      · exact absurd figure (by decide)
    simp only [readExponent?, other] at reads
    cases reads

theorem readDecimal?_figures {neg : Bool} {body : List Char} {x : Binary64}
    (figures : ∀ c ∈ body, isFigure c = true) (reads : readDecimal? neg body = some x) :
    ∃ ds : List Char, (∀ c ∈ ds, isAsciiDigit c = true) ∧ ds.length ≤ body.length ∧
      ∃ e ≤ 0, x = .ofDecimal neg (ofDigits ds) e := by
  have first := cut_digitRun [] body
  unfold readDecimal? at reads
  generalize digitRun [] body = cut at first reads
  obtain ⟨whole, rest⟩ := cut
  have ends : ∀ {frac left : List Char}, Cut [] rest (frac, left) →
      (if whole.isEmpty && frac.isEmpty then none else (readExponent? left).map fun e =>
        Binary64.ofDecimal neg (ofDigits (whole ++ frac)) (e - frac.length)) = some x →
      ∃ ds : List Char, (∀ c ∈ ds, isAsciiDigit c = true) ∧ ds.length ≤ body.length ∧
        ∃ e ≤ 0, x = .ofDecimal neg (ofDigits ds) e := by
    intro frac left second reads
    split at reads
    · exact nomatch reads
    · obtain ⟨e, exponent, rfl⟩ := Option.map_eq_some_iff.1 reads
      have left_figures : ∀ c ∈ left, isFigure c = true := fun c mem =>
        figures c (first.rest.subset (second.rest.subset mem))
      obtain rfl := readExponent?_figures left_figures exponent
      refine ⟨whole ++ frac, ?_, ?_, _, by omega, rfl⟩
      · exact List.forall_mem_append.2 ⟨first.digits nofun, second.digits nofun⟩
      · have := first.length
        have := second.length
        simp only [List.length_append, List.length_nil] at *
        omega
  simp only at reads
  split at reads
  · next after => exact ends ((cut_digitRun [] after).skip '.') reads
  · exact ends (cut_here [] rest) reads

theorem sign_suffix (text : List Char) : (sign text).2 <:+ text := by
  unfold sign
  split
  · exact List.suffix_cons _ _
  · exact List.suffix_cons _ _
  · exact List.suffix_refl _

/-- A numeral that is not too long is read as a number that is not too large. -/
theorem within_readReal? {text : List Char} {x : Binary64}
    (figures : ∀ c ∈ asciiDigits text, isFigure c = true) (short : text.length ≤ 300)
    (reads : readReal? text = some x) : x.Within 1000 := by
  have inner : trimBy isMargin text <:+: text := infix_trimBy isMargin text
  set body := (sign (asciiDigits (trimBy isMargin text))).2 with body_eq
  have within_text : body <:+: asciiDigits text :=
    (sign_suffix _).isInfix.trans (inner.map _)
  have body_figures : ∀ c ∈ body, isFigure c = true := fun c mem =>
    figures c (within_text.subset mem)
  -- A figure is no letter, so none of the words for what is not finite is read.
  have no_word : ∀ word : String, 'n' ∈ word.toList → String.ofList (asciiLower body) ≠ word := by
    rintro word mem rfl
    rw [String.toList_ofList] at mem
    exact asciiLower_figures body_figures mem
  have decimal : readDecimal? (sign (asciiDigits (trimBy isMargin text))).1 body = some x := by
    have not_inf := no_word "inf" (by decide)
    have not_infinity := no_word "infinity" (by decide)
    have not_nan := no_word "nan" (by decide)
    simpa only [readReal?, ← body_eq, not_inf, not_infinity, not_nan, decide_false, Bool.or_self,
      Bool.false_eq_true, if_false] using reads
  obtain ⟨ds, digits, length, e, fraction, rfl⟩ := readDecimal?_figures body_figures decimal
  -- The digits are some of the text's characters, and three of them are less than ten bits.
  have length_text : ds.length ≤ 3 * 100 := by
    have := within_text.length_le
    rw [asciiDigits, List.length_map] at this
    omega
  have small := ofDigits_lt_two_pow digits length_text
  have within := Binary64.within_ofDecimal (sign (asciiDigits (trimBy isMargin text))).1 small
    (by decide) fraction
  exact within

end Number

end DesignComponents
