import DesignComponents.Proofs.Intake.Plan
import DesignComponents.Proofs.Number.Rounding

/-! How far a reading says that it is. Whatever it reports lies on a ladder of percentages that is
settled by the document: none is below one before it, and each is above it unless the chunks are too
many for doubles to tell apart. -/

set_option autoImplicit false

namespace DesignComponents.Intake

/-! ### How far each chunk is said to bring a reading -/

theorem some_chunkPercent (done total : Nat) : (chunkPercent done total).IsSome := by
  have thirty : Binary64.ofInt 30 = .finite false 8444249301319680 (-48) := by decide
  have share := Binary64.ofRatio_ne_nan (40 * done) total
  rw [chunkPercent, thirty]
  exact Binary64.add_ne_nan share _ _ _

section

open Binary64

variable {done later total : Nat} (some_total : 0 < total) (least : done ≤ total)

include some_total least

theorem rounded_share_le : rounded (40 * done) total ≤ 40 := by
  have whole : ((40 : Nat) : ℚ) * 2 ^ (0 : Int) = 40 := by norm_num
  have bounded : ((40 * done : Nat) : ℚ) / total ≤ (40 : Nat) * 2 ^ (0 : Int) := by
    rw [whole, div_le_iff₀ (Nat.cast_pos.2 some_total)]
    exact_mod_cast Nat.mul_le_mul_left 40 least
  exact (rounded_le some_total (by decide) (by decide) bounded).trans_eq whole

theorem rounded_percent_within {num den : Nat} (den_pos : 0 < den)
    (quotient : (num : ℚ) / den = 30 + rounded (40 * done) total) :
    30 ≤ rounded num den ∧ rounded num den ≤ 70 := by
  have thirty : ((30 : Nat) : ℚ) * 2 ^ (0 : Int) = 30 := by norm_num
  have seventy : ((70 : Nat) : ℚ) * 2 ^ (0 : Int) = 70 := by norm_num
  have share_le := rounded_share_le some_total least
  constructor
  · rw [← thirty]
    refine le_rounded den_pos (by decide) (by decide) ?_
    rw [quotient, thirty]
    exact le_add_of_nonneg_right (rounded_nonneg _ _)
  · rw [← seventy]
    refine rounded_le den_pos (by decide) (by decide) ?_
    rw [quotient, seventy]
    linarith

/-- A chunk's percentage is thirty and its rounded share of forty, rounded once more. -/
theorem chunkPercent_rounded : ∃ num den : Nat, 0 < den ∧
    (num : ℚ) / den = 30 + rounded (40 * done) total ∧
    (chunkPercent done total).value = ((rounded num den : WithTop ℚ) : WithBot (WithTop ℚ)) := by
  have in_range : ∀ {q : ℚ}, q ≤ 70 → q < 2 ^ 1024 := by
    intro q small
    have powers : (2 : ℚ) ^ 7 ≤ 2 ^ 1024 := pow_le_pow_right₀ one_le_two (by decide)
    exact small.trans_lt (lt_of_lt_of_le (by norm_num) powers)
  have share_le := rounded_share_le some_total least
  have share : Holds false (rounded (40 * done) total) (.ofRatio (40 * done) total) := by
    have positive : ((((40 : Int) * done < 0) != ((total : Int) < 0)) : Bool) = false := by
      rw [decide_eq_false (by omega), decide_eq_false (by omega)]
      rfl
    have magnitude : ((40 : Int) * done).natAbs = 40 * done := by omega
    rw [ofRatio, positive, magnitude, Int.natAbs_natCast]
    exact holds_rounded false some_total (in_range (share_le.trans (by norm_num)))
  have thirty : Holds false 30 (.ofInt 30) := holds_ofInt (n := 30) (by decide)
  have some_sum : 0 < 30 + rounded (40 * done) total :=
    add_pos_of_pos_of_nonneg (by norm_num) (rounded_nonneg _ _)
  -- The share is rounded by now, and its sum with thirty is rounded again.
  obtain ⟨num, den, den_pos, quotient, added⟩ := thirty.add share some_sum
  refine ⟨num, den, den_pos, quotient, ?_⟩
  have within := rounded_percent_within some_total least den_pos quotient
  rw [chunkPercent, Number.value, Number.exact, added]
  exact (holds_rounded false den_pos (in_range within.2)).value

/-- Chunks are reported in the band from thirty to seventy. -/
theorem chunkPercent_within :
    Number.le 30 (chunkPercent done total) = true ∧ (chunkPercent done total).le 70 = true := by
  obtain ⟨num, den, den_pos, quotient, value⟩ := chunkPercent_rounded some_total least
  obtain ⟨low, high⟩ := rounded_percent_within some_total least den_pos quotient
  rw [Number.le_iff (by decide) (some_chunkPercent _ _),
    Number.le_iff (some_chunkPercent _ _) (by decide), value]
  constructor
  · exact (Number.value_int 30).trans_le (WithBot.coe_le_coe.2 (WithTop.coe_le_coe.2 low))
  · exact (WithBot.coe_le_coe.2 (WithTop.coe_le_coe.2 high)).trans_eq (Number.value_int 70).symm

end

section

open Binary64

variable {done later total : Nat} (least : later ≤ total)

include least

/-- The percentages of later chunks do not fall. -/
theorem chunkPercent_mono (some_total : 0 < total) (order : done ≤ later) :
    (chunkPercent done total).le (chunkPercent later total) = true := by
  obtain ⟨num, den, den_pos, quotient, value⟩ := chunkPercent_rounded some_total (order.trans least)
  obtain ⟨num', den', den_pos', quotient', value'⟩ := chunkPercent_rounded some_total least
  rw [Number.le_iff (some_chunkPercent _ _) (some_chunkPercent _ _), value, value',
    WithBot.coe_le_coe, WithTop.coe_le_coe]
  refine rounded_mono den_pos den_pos' ?_
  rw [quotient, quotient']
  refine add_le_add_right (rounded_mono some_total some_total ?_) 30
  exact div_le_div_of_nonneg_right (by exact_mod_cast Nat.mul_le_mul_left 40 order)
    (Nat.cast_nonneg total)

/-- Between the shares of two of at most `2 ^ 50` chunks lie two multiples of `2 ^ (-46)`. -/
theorem multiples_between (few : total ≤ 2 ^ 50) (order : done < later) :
    ∃ k : Nat, ((40 * done : Nat) : ℚ) / total ≤ k * 2 ^ (-46 : Int) ∧
      ((k + 1 : Nat) : ℚ) * 2 ^ (-46 : Int) ≤ ((40 * later : Nat) : ℚ) / total ∧
      k + 1 ≤ 40 * 2 ^ 46 := by
  have some_total : 0 < total := by omega
  have total_cast : (0 : ℚ) < total := Nat.cast_pos.2 some_total
  have power : (2 : ℚ) ^ (-46 : Int) = 1 / (2 ^ 46 : Nat) := by norm_num
  have unit_pos : (0 : ℚ) < (2 ^ 46 : Nat) := by norm_num
  have parts := Nat.div_add_mod' (40 * done * 2 ^ 46 + (total - 1)) total
  have left := Nat.mod_lt (40 * done * 2 ^ 46 + (total - 1)) some_total
  -- The least multiple that is not below the lesser share.
  set k := (40 * done * 2 ^ 46 + (total - 1)) / total
  have above : 40 * done * 2 ^ 46 ≤ k * total := by omega
  have below : (k + 1) * total ≤ 40 * later * 2 ^ 46 := by
    rw [Nat.add_mul, Nat.one_mul]
    omega
  refine ⟨k, ?_, ?_, ?_⟩
  · rw [power, mul_one_div, div_le_div_iff₀ total_cast unit_pos]
    exact_mod_cast above
  · rw [power, mul_one_div, div_le_div_iff₀ unit_pos total_cast]
    exact_mod_cast below
  · refine Nat.le_of_mul_le_mul_right (below.trans ?_) some_total
    rw [Nat.mul_right_comm 40]
    exact Nat.mul_le_mul_left _ least

/-- The percentages of up to `2 ^ 50` chunks rise: between any two of them there are two numbers that
rounding leaves alone. -/
theorem chunkPercent_strictMono (few : total ≤ 2 ^ 50) (order : done < later) :
    (chunkPercent done total).lt (chunkPercent later total) = true := by
  have some_total : 0 < total := by omega
  obtain ⟨num, den, den_pos, quotient, value⟩ :=
    chunkPercent_rounded some_total (order.le.trans least)
  obtain ⟨num', den', den_pos', quotient', value'⟩ := chunkPercent_rounded some_total least
  obtain ⟨k, above, below, small⟩ := multiples_between least few order
  have shift : ∀ k : Nat,
      ((30 * 2 ^ 46 + k : Nat) : ℚ) * 2 ^ (-46 : Int) = 30 + k * 2 ^ (-46 : Int) := by
    intro k
    rw [Nat.cast_add, add_mul]
    norm_num
  have low : minExp ≤ -46 := by decide
  have upper : rounded num den ≤ ((30 * 2 ^ 46 + k : Nat) : ℚ) * 2 ^ (-46 : Int) := by
    refine rounded_le den_pos (by omega) low ?_
    rw [quotient, shift]
    exact add_le_add_right (rounded_le some_total (by omega) low above) 30
  have lower : ((30 * 2 ^ 46 + (k + 1) : Nat) : ℚ) * 2 ^ (-46 : Int) ≤ rounded num' den' := by
    refine le_rounded den_pos' (by omega) low ?_
    rw [quotient', shift]
    exact add_le_add_right (le_rounded some_total (by omega) low below) 30
  rw [Number.lt_iff (some_chunkPercent _ _) (some_chunkPercent _ _), value, value',
    WithBot.coe_lt_coe, WithTop.coe_lt_coe]
  calc rounded num den ≤ ((30 * 2 ^ 46 + k : Nat) : ℚ) * 2 ^ (-46 : Int) := upper
    _ < ((30 * 2 ^ 46 + (k + 1) : Nat) : ℚ) * 2 ^ (-46 : Int) := by
        refine mul_lt_mul_of_pos_right ?_ (two_pow_pos _)
        exact_mod_cast Nat.lt_succ_self _
    _ ≤ rounded num' den' := lower

end

/-! ### The ladder -/

def chunkPercents (s : Settings) (document : Json) : List Number :=
  ((largeChunks? s document).map fun chunks =>
    (List.range chunks.length).map fun i => chunkPercent (i + 1) chunks.length).getD []

/-- The percentages that a reading of the document may report before it is done. -/
def ladder (s : Settings) (document : Json) : List Number :=
  [5, 10, 20] ++ chunkPercents s document ++ [80, 95]

section

variable {s : Settings} {document : Json}

/-- Where no chunks are read, these and no more are reported. -/
theorem reported_whole (channel : Channel) (whole : largeChunks? s document = none) :
    List.Sublist ((reported (planOf s channel document).questions).map Progress.percent)
      [5, 10, 20, 80, 95] := by
  have markup : ∀ {c : Checked}, check s document = .ok c → List.Sublist
      ((reported (markupPlan s channel c).questions).map Progress.percent) [5, 10, 20, 80, 95] := by
    intro c checks
    rw [largeChunks?, checks] at whole
    dsimp only at whole
    unfold markupPlan processPlan
    split
    · cases channel <;> exact List.Sublist.refl _
    · next not_small =>
      rw [if_neg not_small] at whole
      rw [whole]
      exact List.Sublist.refl _
  have figma : List.Sublist ((reported (figmaPlan document).questions).map Progress.percent)
      [5, 10, 20, 80, 95] := by
    unfold figmaPlan
    cases Figma.File.ofData document with
    | error t => exact .cons_cons 5 (List.nil_sublist _)
    | ok file => exact List.Sublist.refl _
  -- Layers and markup are read by different plans, with the same reports in the same order.
  unfold planOf
  split
  · cases checkSize s _ with
    | error t => exact List.nil_sublist _
    | ok u => exact figma
  · cases checks : check s document with
    | error t => exact List.nil_sublist _
    | ok c => exact markup checks

theorem planned_sublist (s : Settings) (channel : Channel) (document : Json) : List.Sublist
    ((reported (planOf s channel document).questions).map Progress.percent) (ladder s document) := by
  unfold ladder chunkPercents
  cases large : largeChunks? s document with
  | none => exact reported_whole channel large
  | some chunks =>
    rw [reported_large channel large]
    simp only [List.map_append, chunkReports, List.map_map]
    exact List.Sublist.refl _

end

/-! ### The order of what is reported -/

section

variable {s : Settings} {document : Json}

/-- Each chunk is reported in the band from thirty to seventy. -/
theorem mem_chunkPercents {p : Number} (mem : p ∈ chunkPercents s document) :
    p.IsSome ∧ Number.le 30 p = true ∧ p.le 70 = true := by
  unfold chunkPercents at mem
  cases large : largeChunks? s document with
  | none =>
    rw [large] at mem
    exact nomatch mem
  | some chunks =>
    rw [large] at mem
    obtain ⟨i, inside, rfl⟩ := List.mem_map.1 mem
    have before := List.mem_range.1 inside
    exact ⟨some_chunkPercent _ _, chunkPercent_within (by omega) before⟩

theorem mem_ladder {p : Number} (mem : p ∈ ladder s document) :
    p.IsSome ∧ Number.le 5 p = true ∧ p.lt 100 = true := by
  have low : ∀ a ∈ [5, 10, 20], Number.IsSome a ∧ Number.le 5 a = true ∧ Number.lt a 100 = true := by
    decide
  have high : ∀ b ∈ [80, 95], Number.IsSome b ∧ Number.le 5 b = true ∧ Number.lt b 100 = true := by
    decide
  rcases List.mem_append.1 mem with mem | mem
  · rcases List.mem_append.1 mem with mem | mem
    · exact low p mem
    · obtain ⟨isSome, low, high⟩ := mem_chunkPercents mem
      exact ⟨isSome, Number.le_trans (by decide) (by decide) isSome (by decide) low,
        Number.lt_of_le_of_lt isSome (by decide) (by decide) high (by decide)⟩
  · exact high p mem

/-- A relation that holds wherever one number is less than another holds along the ladder, if it does
along the chunks. -/
theorem ladder_pairwise {R : Number → Number → Prop}
    (less : ∀ {a b : Number}, a.IsSome → b.IsSome → a.lt b = true → R a b)
    (between : (chunkPercents s document).Pairwise R) :
    (ladder s document ++ [100]).Pairwise R := by
  have low : ∀ a ∈ [5, 10, 20], Number.IsSome a ∧ Number.le a 20 = true := by decide
  have high : ∀ b ∈ [80, 95, 100], Number.IsSome b ∧ Number.le 80 b = true := by decide
  -- Across a gap of the ladder, between what is below one end and what is above the other.
  have across : ∀ {a m n b : Number}, a.IsSome → m.IsSome → n.IsSome → b.IsSome →
      a.le m = true → m.lt n = true → n.le b = true → R a b := by
    intro a m n b some_a some_m some_n some_b first second third
    have reached := Number.lt_of_le_of_lt some_a some_m some_n first second
    exact less some_a some_b (Number.lt_of_lt_of_le some_a some_n some_b reached third)
  have rungs : ∀ {numbers : List Number},
      numbers.Pairwise (fun a b => a.IsSome ∧ b.IsSome ∧ a.lt b = true) → numbers.Pairwise R :=
    fun rise => rise.imp fun ⟨some_a, some_b, smaller⟩ => less some_a some_b smaller
  have ladder_eq : ladder s document ++ [100] =
      [5, 10, 20] ++ (chunkPercents s document ++ [80, 95, 100]) := by
    simp [ladder]
  rw [ladder_eq, List.pairwise_append, List.pairwise_append]
  refine ⟨rungs (by decide), ⟨between, rungs (by decide), ?_⟩, ?_⟩
  · intro a mem b mem'
    obtain ⟨some_a, -, most⟩ := mem_chunkPercents mem
    obtain ⟨some_b, least⟩ := high b mem'
    exact across some_a (by decide) (by decide) some_b most (by decide) least
  · intro a mem b mem'
    obtain ⟨some_a, most⟩ := low a mem
    rcases List.mem_append.1 mem' with mem' | mem'
    · obtain ⟨some_b, least, -⟩ := mem_chunkPercents mem'
      exact across some_a (by decide) (by decide) some_b most (by decide) least
    · obtain ⟨some_b, least⟩ := high b mem'
      exact across some_a (by decide) (by decide) some_b most (by decide) least

theorem chunkPercents_pairwise {R : Number → Number → Prop}
    (steps : ∀ {chunks : List (List Char)}, largeChunks? s document = some chunks →
      ∀ {i j : Nat}, i < j → j ≤ chunks.length →
        R (chunkPercent i chunks.length) (chunkPercent j chunks.length)) :
    (chunkPercents s document).Pairwise R := by
  unfold chunkPercents
  cases large : largeChunks? s document with
  | none => exact .nil
  | some chunks =>
    refine List.pairwise_map.2 (List.pairwise_lt_range.imp_of_mem fun _ inside order => ?_)
    exact steps large (Nat.succ_lt_succ order) (List.mem_range.1 inside)

/-- Along the ladder no number falls. -/
theorem ladder_sorted (s : Settings) (document : Json) :
    (ladder s document ++ [100]).Pairwise fun a b : Number => a.le b = true := by
  refine ladder_pairwise Number.le_of_lt (chunkPercents_pairwise fun _ _ _ order least => ?_)
  exact chunkPercent_mono least (by omega) order.le

/-- Along the ladder the numbers rise, where the document is read in at most `2 ^ 50` chunks. -/
theorem ladder_rises
    (few : ∀ chunks, largeChunks? s document = some chunks → chunks.length ≤ 2 ^ 50) :
    (ladder s document ++ [100]).Pairwise fun a b : Number => a.lt b = true := by
  refine ladder_pairwise (fun _ _ less => less) ?_
  refine chunkPercents_pairwise fun large _ _ order least => ?_
  exact chunkPercent_strictMono least (few _ large) order

end

end DesignComponents.Intake
