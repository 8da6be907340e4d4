import FlowHub.Txn.Proc
import Mathlib.Data.Rat.Floor
import Mathlib.Tactic.FieldSimp
import Mathlib.Tactic.Linarith

namespace FlowHub.PricingMatrix

open Txn Except

/-- `PricingMatrixError`, by its reason code. -/
structure PricingMatrixError where
  reasonCode : String
  deriving DecidableEq

inductive RateMode where
  | percentBp | multiplierPpm
  deriving DecidableEq

inductive RoundingMode where
  | floor | ceil | nearest
  deriving DecidableEq

inductive RoundOrder where
  | roundThenSurcharge | surchargeThenRound
  deriving DecidableEq

def maxRateBp : Int := 10000000

def maxMultiplierPpm : Int := 1000000000000

def maxAbsoluteAdjustment : Int := 1000000000000000000

def maxRoundStep : Int := 1000000000000000

/-- `if condition: raise PricingMatrixError(...)`. -/
def refuse (condition : Bool) (reasonCode : String) : Except PricingMatrixError Unit :=
  if condition then .error ⟨reasonCode⟩ else .ok ()

@[simp] theorem refuse_ok : refuse condition reasonCode = .ok x ↔ condition = false := by
  cases condition <;> simp [refuse]

/-- The fields of `PricingGuardSet`. -/
structure GuardFields where
  minPriceMinor : Option Int := none
  maxPriceMinor : Option Int := none
  maxIncreaseBp : Option Int := none
  maxDecreaseBp : Option Int := none
  minMarkupBp : Option Int := none
  minMarkupWorstCaseBp : Option Int := none
  maxBasisSpreadBp : Option Int := none

def checkPrice (value : Option Int) : Except PricingMatrixError Unit :=
  refuse (value.any (· < 0)) "guard_value_invalid"

def checkBasisPoints (value : Option Int) : Except PricingMatrixError Unit :=
  refuse (value.any fun v => v < 0 || maxRateBp < v) "guard_value_invalid"

/-- `PricingGuardSet.__post_init__`. -/
def GuardFields.check (g : GuardFields) : Except PricingMatrixError Unit := do
  checkPrice g.minPriceMinor
  checkPrice g.maxPriceMinor
  checkBasisPoints g.maxIncreaseBp
  checkBasisPoints g.maxDecreaseBp
  checkBasisPoints g.minMarkupBp
  checkBasisPoints g.minMarkupWorstCaseBp
  checkBasisPoints g.maxBasisSpreadBp
  refuse (g.minPriceMinor.any fun low => g.maxPriceMinor.any fun high => high < low)
    "guard_range_invalid"

structure PricingGuardSet extends GuardFields where
  checked : toGuardFields.check = .ok ()

instance : Inhabited PricingGuardSet := ⟨{ checked := rfl }⟩

/-- The fields of `PricingRule` besides its guards. -/
structure RuleFields where
  rateMode : RateMode
  rateValue : Int
  fixedAddendMinor : Int := 0
  roundMode : RoundingMode := .floor
  roundStepMinor : Int := 1
  surchargeMinor : Int := 0
  roundOrder : RoundOrder := .roundThenSurcharge

def checkRate (mode : RateMode) (value : Int) : Except PricingMatrixError Unit :=
  match mode with
  | .percentBp => refuse (value < -10000 || maxRateBp < value) "rate_value_invalid"
  | .multiplierPpm => refuse (value < 0 || maxMultiplierPpm < value) "rate_value_invalid"

/-- `PricingRule.__post_init__`. -/
def RuleFields.check (r : RuleFields) : Except PricingMatrixError Unit := do
  checkRate r.rateMode r.rateValue
  refuse (maxAbsoluteAdjustment < |r.fixedAddendMinor|) "fixed_addend_invalid"
  refuse (maxAbsoluteAdjustment < |r.surchargeMinor|) "surcharge_invalid"
  refuse (r.roundStepMinor < 1 || maxRoundStep < r.roundStepMinor) "round_step_invalid"

structure PricingRule extends RuleFields where
  guards : PricingGuardSet := default
  checked : toRuleFields.check = .ok ()

/-- `PricingRule(...)`. -/
def PricingRule.create (fields : RuleFields) (guards : PricingGuardSet) :
    Except PricingMatrixError PricingRule :=
  match h : fields.check with
  | .ok _ => .ok { toRuleFields := fields, guards := guards, checked := h }
  | .error e => .error e

structure PricingArithmeticResult where
  basisNumerator : Int
  basisDenominator : Nat
  exactNumerator : Int
  exactDenominator : Nat
  (roundedMinor finalMinor : Int)
  deriving DecidableEq

/-- How many steps `round_to_step` takes. -/
def roundUnits (value : ℚ) (step : Int) (mode : RoundingMode) : Int :=
  let denominator := value.den * step
  let floorUnits := value.num / denominator
  let remainder := value.num % denominator
  match mode with
  | .floor => floorUnits
  | .ceil => if remainder = 0 then floorUnits else floorUnits + 1
  | .nearest =>
    let absoluteUnits := |value.num| / denominator
    let absoluteRemainder := |value.num| % denominator
    let absoluteUnits := if denominator ≤ absoluteRemainder * 2 then absoluteUnits + 1
      else absoluteUnits
    if 0 ≤ value.num then absoluteUnits else -absoluteUnits

def roundToStep (value : ℚ) (step : Int) (mode : RoundingMode) : Except PricingMatrixError Int :=
  if step < 1 then .error ⟨"round_step_invalid"⟩ else .ok (roundUnits value step mode * step)

/-- The exact amount before surcharge and rounding. -/
def marked (basis : ℚ) (rule : RuleFields) : ℚ :=
  (match rule.rateMode with
    | .percentBp => basis * ((10000 + rule.rateValue : Int) / 10000)
    | .multiplierPpm => basis * (rule.rateValue / 1000000)) + rule.fixedAddendMinor

def calculatePrice (basis : ℚ) (rule : PricingRule) : Except PricingMatrixError PricingArithmeticResult := do
  refuse (decide (basis < 0)) "basis_invalid"
  let surcharged := decide (rule.roundOrder = .surchargeThenRound)
  let exact := if surcharged then marked basis rule.toRuleFields + rule.surchargeMinor
    else marked basis rule.toRuleFields
  let rounded ← roundToStep exact rule.roundStepMinor rule.roundMode
  let final := if surcharged then rounded else rounded + rule.surchargeMinor
  refuse (decide (final ≤ 0)) "nonpositive_price"
  pure {
    basisNumerator := basis.num
    basisDenominator := basis.den
    exactNumerator := exact.num
    exactDenominator := exact.den
    roundedMinor := rounded
    finalMinor := final }

theorem PricingRule.step_pos (rule : PricingRule) : 1 ≤ rule.roundStepMinor := by
  obtain ⟨_, -, h⟩ := bind_eq_ok.mp rule.checked
  obtain ⟨_, -, h⟩ := bind_eq_ok.mp h
  obtain ⟨_, -, h⟩ := bind_eq_ok.mp h
  simp only [refuse_ok, Bool.or_eq_false_iff, decide_eq_false_iff_not] at h
  omega

variable {rule : PricingRule} {step : Int}

theorem PricingRule.create_ok {guards : PricingGuardSet} (h : PricingRule.create fields guards = .ok rule) :
    rule.toRuleFields = fields ∧ rule.guards = guards := by
  unfold PricingRule.create at h
  split at h
  · cases h
    exact ⟨rfl, rfl⟩
  · cases h

theorem PricingRule.create_of_check (guards : PricingGuardSet) (h : fields.check = .ok ()) :
    ∃ rule, PricingRule.create fields guards = .ok rule ∧ rule.toRuleFields = fields := by
  cases hcreate : PricingRule.create fields guards with
  | ok rule => exact ⟨rule, rfl, (PricingRule.create_ok hcreate).1⟩
  | error e =>
    unfold PricingRule.create at hcreate
    split at hcreate
    · cases hcreate
    · rename_i herror
      rw [h] at herror
      cases herror

/-- Quotients of a fraction by a step are quotients of its numerator. -/
theorem div_step (value : ℚ) (h : 1 ≤ step) :
    value / step = (value.num : ℚ) / ((value.den * step.toNat : Nat) : ℚ) := by
  have hstep : ((step.toNat : Nat) : ℚ) = (step : ℚ) := by
    have : ((step.toNat : Int) : ℚ) = (step : ℚ) := by rw [Int.toNat_of_nonneg (by omega)]
    exact_mod_cast this
  rw [Nat.cast_mul, hstep, ← div_div, Rat.num_div_den]

theorem den_mul_step (value : ℚ) (h : 1 ≤ step) :
    ((value.den * step.toNat : Nat) : Int) = value.den * step := by
  rw [Nat.cast_mul, Int.toNat_of_nonneg (by omega)]

theorem roundUnits_floor (value : ℚ) (h : 1 ≤ step) : roundUnits value step .floor = ⌊value / step⌋ := by
  rw [div_step value h, Rat.floor_intCast_div_natCast, den_mul_step value h]
  rfl

theorem roundUnits_ceil (value : ℚ) (h : 1 ≤ step) : roundUnits value step .ceil = ⌈value / step⌉ := by
  have hpos : (0 : Int) < value.den * step := by
    have := value.den_pos
    positivity
  rw [div_step value h, Rat.ceil_intCast_div_natCast, den_mul_step value h]
  change (if value.num % (value.den * step) = 0 then value.num / (value.den * step)
    else value.num / (value.den * step) + 1) = _
  by_cases hrem : value.num % (value.den * step) = 0
  · rw [if_pos hrem, Int.neg_ediv_of_dvd (Int.dvd_of_emod_eq_zero hrem), Int.neg_neg]
  · rw [if_neg hrem, Int.neg_ediv, if_neg fun hdvd => hrem (Int.emod_eq_zero_of_dvd hdvd),
      Int.sign_eq_one_of_pos hpos]
    omega

theorem roundToStep_of_pos (h : 1 ≤ step) :
    roundToStep value step mode = .ok (roundUnits value step mode * step) := by
  rw [roundToStep, if_neg (by omega)]

/-- The price a rule gives a basis, positive or not. -/
def finalAmount (basis : ℚ) (rule : RuleFields) : Int :=
  match rule.roundOrder with
  | .roundThenSurcharge =>
    roundUnits (marked basis rule) rule.roundStepMinor rule.roundMode * rule.roundStepMinor +
      rule.surchargeMinor
  | .surchargeThenRound =>
    roundUnits (marked basis rule + rule.surchargeMinor) rule.roundStepMinor rule.roundMode *
      rule.roundStepMinor

/-- A non-negative basis is priced at its final amount exactly where that is positive. -/
theorem calculatePrice_iff : (∃ result, calculatePrice basis rule = .ok result ∧ result.finalMinor = price) ↔
      0 ≤ basis ∧ 0 < price ∧ finalAmount basis rule.toRuleFields = price := by
  unfold calculatePrice finalAmount
  simp only [bind_eq_ok, refuse_ok, roundToStep_of_pos rule.step_pos, decide_eq_false_iff_not,
    Except.ok.injEq, exists_eq_left', pure, Except.pure, not_lt, not_le]
  cases rule.roundOrder with
  | roundThenSurcharge =>
    constructor
    · rintro ⟨_, ⟨_, hbasis, _, hpos, rfl⟩, rfl⟩
      exact ⟨hbasis, hpos, rfl⟩
    · rintro ⟨hbasis, hpos, rfl⟩
      exact ⟨_, ⟨(), hbasis, (), hpos, rfl⟩, rfl⟩
  | surchargeThenRound =>
    constructor
    · rintro ⟨_, ⟨_, hbasis, _, hpos, rfl⟩, rfl⟩
      exact ⟨hbasis, hpos, rfl⟩
    · rintro ⟨hbasis, hpos, rfl⟩
      exact ⟨_, ⟨(), hbasis, (), hpos, rfl⟩, rfl⟩

/-- A non-negative basis is refused where its final amount is not positive. -/
theorem calculatePrice_nonpositive (hbasis : 0 ≤ basis) (h : finalAmount basis rule.toRuleFields ≤ 0) :
    calculatePrice basis rule = .error ⟨"nonpositive_price"⟩ := by
  have hnonneg : decide (basis < 0) = false := by simpa using hbasis
  unfold calculatePrice finalAmount at *
  cases horder : rule.roundOrder with
  | roundThenSurcharge =>
    rw [horder] at h
    simp [hnonneg, refuse, roundToStep_of_pos rule.step_pos, h, bind, Except.bind]
  | surchargeThenRound =>
    rw [horder] at h
    simp [hnonneg, refuse, roundToStep_of_pos rule.step_pos, h, bind, Except.bind]

end FlowHub.PricingMatrix
