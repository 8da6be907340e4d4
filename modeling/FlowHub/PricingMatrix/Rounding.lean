import FlowHub.PricingEvaluation.Derived
import FlowHub.PricingMatrix.Arithmetic
import Mathlib.Algebra.Order.Round

/-! Which multiple of its step a value is rounded to, and what follows for a price: a larger
basis is priced wherever a smaller one is, and never lower. -/
namespace FlowHub.PricingMatrix

open PricingEvaluation (DerivedOperator Failure Parameters evaluateOperator intParam)

/-- What a rounding mode asks of the multiple that stands for a value. Halves go away from zero. -/
def Rounds (value : ℚ) (step result : Int) : RoundingMode → Prop
  | .floor => IsGreatest {m : Int | step ∣ m ∧ (m : ℚ) ≤ value} result
  | .ceil => IsLeast {m : Int | step ∣ m ∧ value ≤ m} result
  | .nearest => step ∣ result ∧ ∀ m : Int, step ∣ m → |value - result| ≤ |value - m| ∧
      (|value - m| = |value - result| → |m| ≤ |result|)

/-- The integer nearest to a rational, of two the one farther from zero. -/
def roundAway (x : ℚ) : Int := if 0 ≤ x then round x else -round (-x)

theorem roundAway_neg (x : ℚ) : roundAway (-x) = -roundAway x := by
  unfold roundAway
  by_cases hpos : 0 < x
  · rw [if_neg (by linarith), if_pos hpos.le, neg_neg]
  by_cases hzero : x = 0
  · simp [hzero]
  · have hneg : x < 0 := lt_of_le_of_ne (not_lt.mp hpos) hzero
    rw [if_pos (by linarith), if_neg (by linarith), neg_neg]

theorem roundAway_intCast (n : Int) : roundAway n = n := by
  unfold roundAway
  split
  · exact round_intCast n
  · rw [← Int.cast_neg, round_intCast, neg_neg]

theorem roundAway_nonneg (h : 0 ≤ x) : 0 ≤ roundAway x := by
  rw [roundAway, if_pos h, round_eq]
  exact Int.floor_nonneg.mpr (by linarith)

theorem roundAway_mono (h : x ≤ y) : roundAway x ≤ roundAway y := by
  have hround : ∀ {a b : ℚ}, a ≤ b → round a ≤ round b := by
    intro a b hab
    rw [round_eq, round_eq]
    exact Int.floor_le_floor (by linarith)
  by_cases hx : 0 ≤ x
  · rw [roundAway, roundAway, if_pos hx, if_pos (hx.trans h)]
    exact hround h
  by_cases hy : 0 ≤ y
  · have hleft : 0 ≤ roundAway (-x) := roundAway_nonneg (by linarith)
    have hright := roundAway_nonneg hy
    rw [roundAway_neg] at hleft
    omega
  · rw [roundAway, roundAway, if_neg hx, if_neg hy]
    exact neg_le_neg (hround (neg_le_neg h))

/-- Of two integers equally near to a value that is not negative, the one not taken is the
smaller. -/
theorem roundAway_tie_of_nonneg {x : ℚ} (hx : 0 ≤ x) {n : Int}
    (h : |x - n| = |x - roundAway x|) : |n| ≤ |roundAway x| := by
  have hlow : (roundAway x : ℚ) ≤ x + 1 / 2 := by
    rw [roundAway, if_pos hx, round_eq]
    exact Int.floor_le _
  have hhigh : x + 1 / 2 < roundAway x + 1 := by
    rw [roundAway, if_pos hx, round_eq]
    exact Int.lt_floor_add_one _
  have hnonneg := roundAway_nonneg hx
  rcases abs_eq_abs.mp h with hsame | hother
  · have heq : (n : ℚ) = roundAway x := by linarith
    rw [show n = roundAway x by exact_mod_cast heq]
  -- The two lie on either side of the value, less than one step apart below it.
  have hsum : (n : ℚ) + roundAway x = 2 * x := by linarith
  have hbelow : (n : ℚ) < roundAway x + 1 := by linarith
  have hle : n ≤ roundAway x := by
    have : n < roundAway x + 1 := by exact_mod_cast hbelow
    omega
  have hneg : -roundAway x ≤ n := by
    have : (0 : ℚ) ≤ n + roundAway x := by linarith
    have : (0 : Int) ≤ n + roundAway x := by exact_mod_cast this
    omega
  rw [abs_of_nonneg hnonneg]
  exact abs_le.mpr ⟨hneg, hle⟩

theorem roundAway_nearest (x : ℚ) (n : Int) : |x - roundAway x| ≤ |x - n| := by
  unfold roundAway
  split
  · exact round_le x n
  have h := round_le (-x) (-n)
  rw [← abs_neg (x - n), ← abs_neg (x - _)]
  push_cast at h ⊢
  calc |-(x - -(round (-x) : ℚ))| = |-x - round (-x)| := by ring_nf
    _ ≤ |-x - -n| := h
    _ = |-(x - n)| := by ring_nf

theorem roundAway_tie {x : ℚ} {n : Int} (h : |x - n| = |x - roundAway x|) :
    |n| ≤ |roundAway x| := by
  by_cases hx : 0 ≤ x
  · exact roundAway_tie_of_nonneg hx h
  have hneg : |-x - (-n : Int)| = |-x - roundAway (-x)| := by
    rw [roundAway_neg, ← abs_neg, ← abs_neg (-x - _)]
    push_cast
    calc |-(-x - -(n : ℚ))| = |x - n| := by ring_nf
      _ = |x - roundAway x| := h
      _ = |-(-x - -(roundAway x : ℚ))| := by ring_nf
  have htie := roundAway_tie_of_nonneg (by linarith) hneg
  rwa [roundAway_neg, abs_neg, abs_neg] at htie

/-- Rounding a fraction half up is one floor division. -/
theorem half_units (n : Int) (hd : 0 < d) :
    (if d ≤ n % d * 2 then n / d + 1 else n / d) = (2 * n + d) / (2 * d) := by
  have hdivision := Int.emod_add_mul_ediv n d
  have hrem := Int.emod_nonneg n hd.ne'
  have hlt := Int.emod_lt_of_pos n hd
  have hsplit : 2 * n + d = (2 * (n % d) + d) + 2 * d * (n / d) := by linarith
  rw [hsplit, Int.add_mul_ediv_left _ _ (by omega)]
  by_cases hhalf : d ≤ n % d * 2
  · have hone : (2 * (n % d) + d) / (2 * d) = 1 := by
      rw [show 2 * (n % d) + d = (2 * (n % d) - d) + 2 * d by omega,
        Int.add_ediv_of_dvd_right (dvd_refl _), Int.ediv_self (by omega),
        Int.ediv_eq_zero_of_lt (by omega) (by omega), zero_add]
    rw [if_pos hhalf, hone]
    omega
  · have hzero : (2 * (n % d) + d) / (2 * d) = 0 :=
      Int.ediv_eq_zero_of_lt (by omega) (by omega)
    rw [if_neg hhalf, hzero]
    omega

theorem div_step_abs (value : ℚ) {step : Int} (h : 1 ≤ step) : ⌊|value| / step + 1 / 2⌋ =
      (2 * |value.num| + value.den * step) / (2 * (value.den * step)) := by
  have hden : (0 : ℚ) < value.den := by exact_mod_cast value.den_pos
  have hstep : (0 : ℚ) < step := by exact_mod_cast (by omega : 0 < step)
  have habs : |value| = (|value.num| : Int) / (value.den : ℚ) := by
    conv_lhs => rw [← Rat.num_div_den value]
    rw [abs_div, abs_of_pos hden, Int.cast_abs]
  have hvalue : |value| / step + 1 / 2 = ((2 * |value.num| + value.den * step : Int) : ℚ) /
        ((2 * (value.den * step.toNat) : Nat) : ℚ) := by
    have hcast : ((2 * (value.den * step.toNat) : Nat) : ℚ) = 2 * (value.den * step) := by
      have h := den_mul_step value h
      have : ((value.den * step.toNat : Nat) : ℚ) = value.den * step := by exact_mod_cast h
      push_cast at this ⊢
      rw [this]
    rw [habs, hcast]
    push_cast
    field_simp
  rw [hvalue, Rat.floor_intCast_div_natCast]
  push_cast
  rw [show (value.den : Int) * (step.toNat : Int) = value.den * step by
    rw [Int.toNat_of_nonneg (by omega)]]

theorem roundUnits_nearest (value : ℚ) {step : Int} (h : 1 ≤ step) :
    roundUnits value step .nearest = roundAway (value / step) := by
  have hstep : (0 : ℚ) < step := by exact_mod_cast (by omega : 0 < step)
  have hpos : (0 : Int) < value.den * step := by
    have := value.den_pos
    positivity
  have hunits : roundUnits value step .nearest =
      if 0 ≤ value.num then ⌊|value| / step + 1 / 2⌋ else -⌊|value| / step + 1 / 2⌋ := by
    rw [div_step_abs value h, ← half_units |value.num| hpos]
    rfl
  rw [hunits, roundAway]
  by_cases hnonneg : 0 ≤ value
  · rw [if_pos (Rat.num_nonneg.mpr hnonneg), if_pos (div_nonneg hnonneg hstep.le), round_eq,
      abs_of_nonneg hnonneg]
  · have hneg : value < 0 := not_le.mp hnonneg
    rw [if_neg fun hnum => hnonneg (Rat.num_nonneg.mp hnum),
      if_neg (not_le.mpr (div_neg_of_neg_of_pos hneg hstep)), round_eq, abs_of_neg hneg, neg_div]

section

theorem roundUnits_mono (h : 1 ≤ step) (mode : RoundingMode) (hle : a ≤ b) :
    roundUnits a step mode ≤ roundUnits b step mode := by
  have hstep : (0 : ℚ) < step := by exact_mod_cast (by omega : 0 < step)
  have hdiv : a / step ≤ b / step := div_le_div_of_nonneg_right hle hstep.le
  cases mode with
  | floor =>
    rw [roundUnits_floor a h, roundUnits_floor b h]
    exact Int.floor_le_floor hdiv
  | ceil =>
    rw [roundUnits_ceil a h, roundUnits_ceil b h]
    exact Int.ceil_le_ceil hdiv
  | nearest =>
    rw [roundUnits_nearest a h, roundUnits_nearest b h]
    exact roundAway_mono hdiv

/-- A multiple of the step is kept. -/
theorem roundUnits_multiple (h : 1 ≤ step) (mode : RoundingMode) (units : Int) :
    roundUnits ((units * step : Int) : ℚ) step mode = units := by
  have hstep : (step : ℚ) ≠ 0 := by exact_mod_cast (by omega : step ≠ 0)
  have hdiv : ((units * step : Int) : ℚ) / step = units := by
    push_cast
    field_simp
  cases mode with
  | floor => rw [roundUnits_floor _ h, hdiv, Int.floor_intCast]
  | ceil => rw [roundUnits_ceil _ h, hdiv, Int.ceil_intCast]
  | nearest => rw [roundUnits_nearest _ h, hdiv, roundAway_intCast]

theorem abs_sub_multiple (h : 1 ≤ step) (value : ℚ) (units : Int) :
    |value - ((units * step : Int) : ℚ)| = |value / step - units| * step := by
  have hstep : (0 : ℚ) < step := by exact_mod_cast (by omega : 0 < step)
  rw [← abs_of_pos hstep, ← abs_mul, abs_of_pos hstep, sub_mul, div_mul_cancel₀ _ hstep.ne']
  push_cast
  rfl

theorem roundUnits_rounds (h : 1 ≤ step) (mode : RoundingMode) (value : ℚ) :
    Rounds value step (roundUnits value step mode * step) mode := by
  have hstep : (0 : ℚ) < step := by exact_mod_cast (by omega : 0 < step)
  cases mode with
  | floor =>
    rw [roundUnits_floor value h]
    constructor
    · refine ⟨dvd_mul_left _ _, ?_⟩
      push_cast
      exact (le_div_iff₀ hstep).mp (Int.floor_le _)
    · rintro m ⟨⟨units, rfl⟩, hm⟩
      rw [mul_comm step]
      push_cast at hm
      have hunits : (units : ℚ) ≤ value / step := (le_div_iff₀ hstep).mpr (by linarith)
      exact mul_le_mul_of_nonneg_right (Int.le_floor.mpr hunits) (by omega)
  | ceil =>
    rw [roundUnits_ceil value h]
    constructor
    · refine ⟨dvd_mul_left _ _, ?_⟩
      push_cast
      exact (div_le_iff₀ hstep).mp (Int.le_ceil _)
    · rintro m ⟨⟨units, rfl⟩, hm⟩
      rw [mul_comm step]
      push_cast at hm
      have hunits : value / step ≤ units := (div_le_iff₀ hstep).mpr (by linarith)
      exact mul_le_mul_of_nonneg_right (Int.ceil_le.mpr hunits) (by omega)
  | nearest =>
    rw [roundUnits_nearest value h]
    refine ⟨dvd_mul_left _ _, ?_⟩
    rintro m ⟨units, rfl⟩
    rw [mul_comm step, abs_sub_multiple h, abs_sub_multiple h]
    constructor
    · exact mul_le_mul_of_nonneg_right (roundAway_nearest _ _) hstep.le
    intro htie
    have hunits := roundAway_tie (mul_right_cancel₀ hstep.ne' htie)
    rw [abs_mul, abs_mul]
    exact mul_le_mul_of_nonneg_right hunits (abs_nonneg _)

theorem floorToStep_iff (hstep : intParam parameters "step_minor" = .ok step) :
    evaluateOperator .floorToStep parameters [value] = .ok x ↔
      ∃ amount : Int, roundToStep value step .floor = .ok amount ∧ (amount : ℚ) = x := by
  by_cases hlow : step < 1 <;>
    simp [evaluateOperator, PricingEvaluation.requireSingle, hstep, PricingEvaluation.refuse,
      roundToStep, roundUnits, hlow, bind, Except.bind, pure, Except.pure]

theorem roundUpToStep_iff (hstep : intParam parameters "step_minor" = .ok step) :
    evaluateOperator .roundUpToStep parameters [value] = .ok x ↔
      ∃ amount : Int, roundToStep value step .ceil = .ok amount ∧ (amount : ℚ) = x := by
  by_cases hlow : step < 1 <;>
    simp [evaluateOperator, PricingEvaluation.requireSingle, hstep, PricingEvaluation.refuse,
      roundToStep, roundUnits, hlow, bind, Except.bind, pure, Except.pure]

end

/-- The rate of an accepted rule does not turn a basis around. -/
theorem PricingRule.marked_mono (rule : PricingRule) (h : basis ≤ larger) :
    marked basis rule.toRuleFields ≤ marked larger rule.toRuleFields := by
  obtain ⟨_, hrate, -⟩ := Txn.bind_eq_ok.mp rule.checked
  unfold marked
  cases hmode : rule.rateMode with
  | percentBp =>
    simp only [checkRate, hmode, refuse_ok, Bool.or_eq_false_iff, decide_eq_false_iff_not] at hrate
    have hfactor : (0 : ℚ) ≤ ((10000 + rule.rateValue : Int) : ℚ) / 10000 := by
      have : (0 : ℚ) ≤ ((10000 + rule.rateValue : Int) : ℚ) := by
        exact_mod_cast (by omega : 0 ≤ 10000 + rule.rateValue)
      positivity
    simpa using mul_le_mul_of_nonneg_right h hfactor
  | multiplierPpm =>
    simp only [checkRate, hmode, refuse_ok, Bool.or_eq_false_iff, decide_eq_false_iff_not] at hrate
    have hfactor : (0 : ℚ) ≤ (rule.rateValue : ℚ) / 1000000 := by
      have : (0 : ℚ) ≤ (rule.rateValue : ℚ) := by exact_mod_cast (by omega : 0 ≤ rule.rateValue)
      positivity
    simpa using mul_le_mul_of_nonneg_right h hfactor

theorem PricingRule.finalAmount_mono (rule : PricingRule) (h : basis ≤ larger) :
    finalAmount basis rule.toRuleFields ≤ finalAmount larger rule.toRuleFields := by
  have hmarked := rule.marked_mono h
  have hstep := rule.step_pos
  unfold finalAmount
  cases rule.roundOrder with
  | roundThenSurcharge =>
    have hunits := roundUnits_mono hstep rule.roundMode hmarked
    have := mul_le_mul_of_nonneg_right hunits (by omega : (0 : Int) ≤ rule.roundStepMinor)
    simpa using this
  | surchargeThenRound =>
    have hunits := roundUnits_mono hstep rule.roundMode
      (add_le_add_left hmarked (rule.surchargeMinor : ℚ))
    exact mul_le_mul_of_nonneg_right (by simpa [add_comm] using hunits) (by omega)

/-- A value is rounded to the multiple its mode asks for, a multiple to itself, and a larger
value never to a lower multiple; the derived operators round the same way. A larger basis is
priced wherever a smaller one is, and not below it. -/
theorem rounding_exact_monotone :
    (∀ (value : ℚ) (step : Int) (mode : RoundingMode), 1 ≤ step →
      ∃ amount, roundToStep value step mode = .ok amount ∧ Rounds value step amount mode ∧
        roundToStep amount step mode = .ok amount) ∧
    (∀ (a b : ℚ) (step : Int) (mode : RoundingMode), 1 ≤ step → a ≤ b →
      ∃ low high, roundToStep a step mode = .ok low ∧ roundToStep b step mode = .ok high ∧ low ≤ high) ∧
    (∀ (parameters : Parameters) (step : Int) (value x : ℚ), intParam parameters "step_minor" = .ok step →
      (evaluateOperator .floorToStep parameters [value] = .ok x ↔
        ∃ amount : Int, roundToStep value step .floor = .ok amount ∧ (amount : ℚ) = x) ∧
      (evaluateOperator .roundUpToStep parameters [value] = .ok x ↔
        ∃ amount : Int, roundToStep value step .ceil = .ok amount ∧ (amount : ℚ) = x)) ∧
    ∀ (rule : PricingRule) (basis larger : ℚ) (result : PricingArithmeticResult),
      basis ≤ larger → calculatePrice basis rule = .ok result →
      ∃ next, calculatePrice larger rule = .ok next ∧ result.finalMinor ≤ next.finalMinor := by
  refine ⟨?_, ?_, ?_, ?_⟩
  · intro value step mode hstep
    refine ⟨_, roundToStep_of_pos hstep, roundUnits_rounds hstep mode value, ?_⟩
    rw [roundToStep_of_pos hstep, roundUnits_multiple hstep]
  · intro a b step mode hstep hle
    refine ⟨_, _, roundToStep_of_pos hstep, roundToStep_of_pos hstep, ?_⟩
    exact mul_le_mul_of_nonneg_right (roundUnits_mono hstep mode hle) (by omega)
  · intro parameters step value x hstep
    exact ⟨floorToStep_iff hstep, roundUpToStep_iff hstep⟩
  · intro rule basis larger result hle hprice
    obtain ⟨hbasis, hpos, hamount⟩ := calculatePrice_iff.mp ⟨result, hprice, rfl⟩
    have hmono := rule.finalAmount_mono hle
    obtain ⟨next, hnext, hfinal⟩ := calculatePrice_iff.mpr
      ⟨hbasis.trans hle, lt_of_lt_of_le (by omega) hmono, rfl⟩
    exact ⟨next, hnext, by omega⟩

/-- Ten percent on the basis, rounded to tens with halves away from zero, five on top. -/
def tenPercent : PricingRule where
  rateMode := .percentBp
  rateValue := 1000
  roundMode := .nearest
  roundStepMinor := 10
  surchargeMinor := 5
  checked := by decide

theorem rounding_sample :
    (∃ amount, roundToStep (-25 / 2) 5 .nearest = .ok amount ∧
      Rounds (-25 / 2) 5 amount .nearest ∧ roundToStep amount 5 .nearest = .ok amount) ∧
    (∃ low high, roundToStep (-25 / 2) 5 .ceil = .ok low ∧ roundToStep (1 / 3) 5 .ceil = .ok high ∧
      low ≤ high) ∧
    (evaluateOperator .floorToStep [("step_minor", .int 5)] [-25 / 2] = .ok (-15) ↔
      ∃ amount : Int, roundToStep (-25 / 2) 5 .floor = .ok amount ∧ (amount : ℚ) = -15) ∧
    ∃ next, calculatePrice 101 tenPercent = .ok next ∧ 115 ≤ next.finalMinor := by
  obtain ⟨hrounds, hmono, hoperators, hprice⟩ := rounding_exact_monotone
  obtain ⟨result, hresult, hfinal⟩ : ∃ result, calculatePrice 100 tenPercent = .ok result ∧
      result.finalMinor = 115 :=
    calculatePrice_iff.mpr ⟨by norm_num, by decide, by decide +kernel⟩
  obtain ⟨next, hnext, hle⟩ := hprice tenPercent 100 101 result (by norm_num) hresult
  exact ⟨hrounds _ 5 .nearest (by decide), hmono _ _ 5 .ceil (by decide) (by norm_num),
    (hoperators [("step_minor", .int 5)] 5 _ _ rfl).1, next, hnext, hfinal ▸ hle⟩

end FlowHub.PricingMatrix
