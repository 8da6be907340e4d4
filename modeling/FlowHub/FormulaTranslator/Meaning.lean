import FlowHub.FormulaTranslator.Excel
import FlowHub.FormulaTranslator.Recognition

namespace FlowHub.FormulaTranslator

open Txn Pattern PricingMatrix Python

/-- `intermediate_scale`. -/
def PricingRulePayload.scale (payload : PricingRulePayload) : ℚ :=
  payload.scaleNumerator / payload.scaleDenominator

/-- The addend in intermediate units. -/
def PricingRulePayload.addend (payload : PricingRulePayload) (cell : Value) : ℚ :=
  (match payload.fixedAddendReference with
    | none => payload.fixedAddendWhenNotNumber
    | some _ =>
      match cell with
      | .number value => value
      | _ => payload.fixedAddendWhenNotNumber) * payload.scale

/-- The rule a payload stands for, at a rate in basis points. -/
def PricingRulePayload.fields (payload : PricingRulePayload) (rateBp addend : Int) : RuleFields where
  rateMode := payload.rateMode
  rateValue := rateBp
  fixedAddendMinor := addend
  roundMode := payload.roundMode
  roundStepMinor := payload.roundStepMinor
  surchargeMinor := payload.surchargeMinor
  roundOrder := payload.roundOrder

/-- A payload evaluated by `calculate_price`. A rule takes whole addends only. -/
def PricingRulePayload.evaluate (payload : PricingRulePayload) (basis : ℚ) (rateBp : Int)
    (addend : Value) : Except PricingMatrixError PricingArithmeticResult := do
  refuse (decide ((payload.addend addend).den ≠ 1)) "integer_required"
  let rule ← PricingRule.create (payload.fields rateBp (payload.addend addend).num) default
  calculatePrice (basis * payload.scale) rule

/-- What a cell adds: its number, if it is one. -/
def Value.addend : Value → ℚ
  | .number value => value
  | _ => 0

variable {payload : PricingRulePayload}

theorem addend_of_reference {reference : List Char} (h : payload.fixedAddendReference = some reference)
    (hzero : payload.fixedAddendWhenNotNumber = 0) (cell : Value) :
    payload.addend cell = cell.addend * payload.scale := by
  unfold PricingRulePayload.addend
  rw [h, hzero]
  cases cell <;> rfl

theorem addend_of_none (h : payload.fixedAddendReference = none)
    (hzero : payload.fixedAddendWhenNotNumber = 0) (cell : Value) : payload.addend cell = 0 := by
  unfold PricingRulePayload.addend
  rw [h, hzero, Int.cast_zero, zero_mul]

/-- A rule is made from a payload at rates and addends within the rule's own limits. -/
theorem fields_check {rateBp addend : Int}
    (hmode : payload.rateMode = .percentBp) (hlow : -10000 ≤ rateBp) (hhigh : rateBp ≤ maxRateBp)
    (haddend : |addend| ≤ maxAbsoluteAdjustment)
    (hsurcharge : |payload.surchargeMinor| ≤ maxAbsoluteAdjustment)
    (hstep : 1 ≤ payload.roundStepMinor) (hmax : payload.roundStepMinor ≤ maxRoundStep) :
    (payload.fields rateBp addend).check = .ok () := by
  have hrate : (decide (rateBp < -10000) || decide (maxRateBp < rateBp)) = false := by
    simp only [Bool.or_eq_false_iff, decide_eq_false_iff_not]
    omega
  have hround : (decide (payload.roundStepMinor < 1) ||
      decide (maxRoundStep < payload.roundStepMinor)) = false := by
    simp only [Bool.or_eq_false_iff, decide_eq_false_iff_not]
    omega
  simp [RuleFields.check, PricingRulePayload.fields, hmode, checkRate, refuse, hrate, hround,
    not_lt.mpr haddend, not_lt.mpr hsurcharge, bind, Except.bind]

/-- A payload gives the final amount of its rule where that is positive, and refuses it where
it is not. -/
theorem evaluate_eq {basis : ℚ} {rateBp addend : Int}
    {cell : Value} (hbasis : 0 ≤ basis * payload.scale) (haddend : payload.addend cell = addend)
    (hcheck : (payload.fields rateBp addend).check = .ok ()) {value : ℚ}
    (hvalue : (finalAmount (basis * payload.scale) (payload.fields rateBp addend) : ℚ) = value) :
    (0 < value → ∃ result, payload.evaluate basis rateBp cell = .ok result ∧
      (result.finalMinor : ℚ) = value) ∧
    (value ≤ 0 → payload.evaluate basis rateBp cell = .error ⟨"nonpositive_price"⟩) := by
  obtain ⟨rule, hcreate, hfields⟩ := PricingRule.create_of_check default hcheck
  have hevaluate : payload.evaluate basis rateBp cell = calculatePrice (basis * payload.scale) rule := by
    simp [PricingRulePayload.evaluate, haddend, hcreate, refuse, bind, Except.bind]
  rw [hevaluate]
  constructor
  · intro hpos
    rw [← hvalue] at hpos
    obtain ⟨result, hresult, hfinal⟩ := calculatePrice_iff.mpr
      ⟨hbasis, by exact_mod_cast hpos, by rw [hfields]⟩
    exact ⟨result, hresult, by rw [hfinal, hvalue]⟩
  · intro hneg
    rw [← hvalue] at hneg
    exact calculatePrice_nonpositive hbasis (by rw [hfields]; exact_mod_cast hneg)

section

variable {cells : List Char → Value} {refs : String → List Char} {basis : ℚ} {rateBp : Int}

variable {e : Expression} {b : ℚ}

theorem eval_add (hleft : left.eval cells = .number a) (hright : right.eval cells = .number b) :
    (Expression.add left right).eval cells = .number (a + b) := by
  simp [Expression.eval, hleft, hright, Value.combine, Value.toNumber]

theorem eval_multiply (hleft : left.eval cells = .number a) (hright : right.eval cells = .number b) :
    (Expression.multiply left right).eval cells = .number (a * b) := by
  simp [Expression.eval, hleft, hright, Value.combine, Value.toNumber]

theorem eval_parens (h : e.eval cells = .number a) : (Expression.parens e).eval cells = .number a := h

theorem eval_ifError (h : e.eval cells = .number a) :
    (Expression.ifError e fallback).eval cells = .number a := by
  simp [Expression.eval, h]

variable {payload : PricingRulePayload} {step : Int}

theorem eval_floor (hstep : 0 < step) (h : e.eval cells = .number a) :
    (Expression.floor e (.number step)).eval cells = .number (⌊a / step⌋ * step) := by
  have hpos : (0 : ℚ) < step := by exact_mod_cast hstep
  have hne : ¬((step : ℚ) = 0 ∨ (0 < a ∧ (step : ℚ) < 0)) := by
    rintro (hzero | ⟨-, hneg⟩)
    · exact hpos.ne' hzero
    · exact hpos.not_gt hneg
  simp only [Expression.eval, h, Value.combine, Value.toNumber, floorTo, if_neg hne]

theorem eval_roundUp (h : e.eval cells = .number a) (ha : 0 ≤ a) :
    (Expression.roundUp e (.number (-2))).eval cells = .number (⌈a / 100⌉ * 100) := by
  have hunit : (10 : ℚ) ^ (-(if (0 : ℚ) ≤ ((-2 : Int) : ℚ) then ⌊((-2 : Int) : ℚ)⌋
      else ⌈((-2 : Int) : ℚ)⌉)) = 100 := by
    rw [if_neg (by norm_num), Int.ceil_intCast]
    norm_num
  simp only [Expression.eval, h, Value.combine, Value.toNumber, roundUpTo, hunit, if_pos ha]

theorem eval_markup (hbasis : cells (refs "basis_ref") = .number basis)
    (hrate : cells (refs "rate_ref") = .number (rateBp / 100)) :
    (markup refs).eval cells = .number (basis * (1 + rateBp / 100 / 100)) := by
  simp [markup, Expression.eval, hbasis, hrate, Value.combine, Value.toNumber]

/-- The addend counts where its cell holds a number. -/
theorem eval_addend (reference : List Char) :
    (Expression.choose (.isNumber (.cell reference)) (.cell reference) (.number 0)).eval cells =
      .number (cells reference).addend := by
  cases hcell : cells reference <;> simp [Expression.eval, hcell, Value.addend, Value.toNumber]

/-- A guard that is not empty leaves the price. -/
theorem eval_guarded (h : (cells reference).equal (.text []) = .logical false) :
    (Expression.choose (.equal (.cell reference) (.literal [])) empty e).eval cells = e.eval cells := by
  simp [Expression.eval, h, Value.toNumber]

/-- What a payload rounds: its scaled basis, marked up, and its addend. -/
theorem marked_fields (hmode : payload.rateMode = .percentBp) :
    marked amount (payload.fields rateBp addend) = amount * (1 + rateBp / 100 / 100) + addend := by
  simp only [marked, PricingRulePayload.fields, hmode]
  push_cast
  ring

/-- The multiple a floor comes to is what a floor rule rounds to. -/
theorem floor_amount (hstep : 1 ≤ step) (h : a = b) :
    (⌊a / step⌋ : ℚ) * step = ((roundUnits b step .floor * step : Int) : ℚ) := by
  rw [roundUnits_floor b hstep, h]
  push_cast
  rfl

theorem ceil_amount (hstep : 1 ≤ step) (h : a = b) :
    (⌈a / step⌉ : ℚ) * step = ((roundUnits b step .ceil * step : Int) : ℚ) := by
  rw [roundUnits_ceil b hstep, h]
  push_cast
  rfl

/-- What a pricing shape's expression comes to is the final amount of the rule emitted for it. -/
theorem eval_expression {shape : Shape} {mark : List Char} {e : Expression}
    {captures : Captures} {addend : Int}
    (h : shape.expression refs mark = some e)
    (hpayload : shape.emit captures = .pricingRule payload)
    (hbasis : cells (refs "basis_ref") = .number basis) (hnonneg : 0 ≤ basis)
    (hrate : cells (refs "rate_ref") = .number (rateBp / 100)) (hlow : -10000 ≤ rateBp)
    (haddend : payload.addend (cells (refs "addend_ref")) = addend)
    (hguard : shape = .a1 → (cells (refs "guard_ref")).equal (.text []) = .logical false) :
    e.eval cells = .number
      (finalAmount (basis * payload.scale) (payload.fields rateBp addend) : ℚ) := by
  have hmarkup := eval_markup hbasis hrate
  have hthousand : (Expression.multiply (markup refs) (.number 1000)).eval cells =
      .number (basis * (1 + rateBp / 100 / 100) * 1000) := eval_multiply hmarkup rfl
  cases shape <;> simp only [Shape.expression, Option.some.injEq, reduceCtorEq] at h
  case a1 =>
    subst h
    cases hpayload
    have hscale : (emitA1 captures).scale = 1000000 := by
      norm_num [PricingRulePayload.scale, emitA1]
    have hamount : (addend : ℚ) = (cells (refs "addend_ref")).addend * 1000000 := by
      rw [← haddend, addend_of_reference rfl rfl, hscale]
    have hprice : (Expression.multiply (.parens (.add (markup refs) (.choose
        (.isNumber (.cell (refs "addend_ref"))) (.cell (refs "addend_ref")) (.number 0))))
          (.number 1000000)).eval cells =
        .number ((basis * (1 + rateBp / 100 / 100) + (cells (refs "addend_ref")).addend) *
          1000000) :=
      eval_multiply (eval_parens (eval_add hmarkup (eval_addend (refs "addend_ref")))) rfl
    have hfinal : finalAmount (basis * (emitA1 captures).scale)
        ((emitA1 captures).fields rateBp addend) =
          roundUnits (marked (basis * 1000000) ((emitA1 captures).fields rateBp addend)) 50000
            .floor * 50000 + 0 := by
      rw [hscale]
      rfl
    rw [eval_guarded (hguard rfl), eval_ifError (eval_floor (by norm_num) hprice), hfinal, add_zero]
    congr 1
    apply floor_amount (by norm_num)
    rw [marked_fields rfl, hamount]
    ring
  case a3 =>
    subst h
    cases hpayload
    have hscale : (emitA3 captures).scale = 1000 := by norm_num [PricingRulePayload.scale, emitA3]
    have hzero : (addend : ℚ) = 0 := by rw [← haddend, addend_of_none rfl rfl]
    have hfinal : finalAmount (basis * (emitA3 captures).scale)
        ((emitA3 captures).fields rateBp addend) =
          roundUnits (marked (basis * 1000) ((emitA3 captures).fields rateBp addend)) 100000
            .floor * 100000 + 0 := by
      rw [hscale]
      rfl
    rw [eval_ifError (eval_floor (by norm_num) hthousand), hfinal, add_zero]
    congr 1
    apply floor_amount (by norm_num)
    rw [marked_fields rfl, hzero]
    ring
  case a4 =>
    subst h
    cases hpayload
    have hscale : (emitA4 captures).scale = 1000 := by norm_num [PricingRulePayload.scale, emitA4]
    have hzero : (addend : ℚ) = 0 := by rw [← haddend, addend_of_none rfl rfl]
    have hfinal : finalAmount (basis * (emitA4 captures).scale)
        ((emitA4 captures).fields rateBp addend) =
          roundUnits (marked (basis * 1000) ((emitA4 captures).fields rateBp addend)) 100000
            .floor * 100000 + 500000 := by
      rw [hscale]
      rfl
    rw [eval_ifError (eval_add (eval_floor (by norm_num) hthousand) rfl), hfinal, Int.cast_add]
    congr 2
    apply floor_amount (by norm_num)
    rw [marked_fields rfl, hzero]
    ring
  case a5 =>
    subst h
    cases hpayload
    have hscale : (emitA5 captures).scale = 1 := by norm_num [PricingRulePayload.scale, emitA5]
    have hzero : (addend : ℚ) = 0 := by rw [← haddend, addend_of_none rfl rfl]
    have hfinal : finalAmount (basis * (emitA5 captures).scale)
        ((emitA5 captures).fields rateBp addend) =
          roundUnits (marked (basis * 1) ((emitA5 captures).fields rateBp addend)) 100
            .ceil * 100 + 0 := by
      rw [hscale]
      rfl
    have hrateNonneg : (0 : ℚ) ≤ 1 + rateBp / 100 / 100 := by
      have : (-10000 : ℚ) ≤ rateBp := by exact_mod_cast hlow
      linarith
    rw [eval_ifError (eval_roundUp hmarkup (mul_nonneg hnonneg hrateNonneg)), hfinal, add_zero]
    congr 1
    apply ceil_amount (by norm_num)
    rw [marked_fields rfl, hzero]
    ring
  case a10 =>
    subst h
    cases hpayload
    have hscale : (emitA10 captures).scale = 1000 := by
      norm_num [PricingRulePayload.scale, emitA10, emitA3]
    have hzero : (addend : ℚ) = 0 := by rw [← haddend, addend_of_none rfl rfl]
    have hfinal : finalAmount (basis * (emitA10 captures).scale)
        ((emitA10 captures).fields rateBp addend) =
          roundUnits (marked (basis * 1000) ((emitA10 captures).fields rateBp addend)) 100000
            .floor * 100000 + 0 := by
      rw [hscale]
      rfl
    rw [eval_ifError (eval_floor (by norm_num) (eval_parens hthousand)), hfinal, add_zero]
    congr 1
    apply floor_amount (by norm_num)
    rw [marked_fields rfl, hzero]
    ring
  case a11 =>
    subst h
    cases hpayload
    have hscale : (emitA11 captures).scale = 1000 := by
      norm_num [PricingRulePayload.scale, emitA11]
    have hzero : (addend : ℚ) = 0 := by rw [← haddend, addend_of_none rfl rfl]
    have hfinal : finalAmount (basis * (emitA11 captures).scale)
        ((emitA11 captures).fields rateBp addend) =
          roundUnits (marked (basis * 1000) ((emitA11 captures).fields rateBp addend) + 500000)
            100000 .floor * 100000 := by
      rw [hscale]
      rfl
    rw [eval_ifError (eval_floor (by norm_num) (eval_add (eval_parens hthousand) rfl)), hfinal]
    congr 1
    apply floor_amount (by norm_num)
    rw [marked_fields rfl, hzero]
    ring

/-- Every emitted rule is a rule within its limits. -/
theorem emit_bounds {shape : Shape} {captures : Captures} (h : shape.emit captures = .pricingRule payload) :
    payload.rateMode = .percentBp ∧ |payload.surchargeMinor| ≤ maxAbsoluteAdjustment ∧
      1 ≤ payload.roundStepMinor ∧ payload.roundStepMinor ≤ maxRoundStep ∧ 0 ≤ payload.scale := by
  cases shape <;> cases h
  all_goals
    norm_num [emitA1, emitA3, emitA4, emitA5, emitA10, emitA11, PricingRulePayload.scale,
      maxAbsoluteAdjustment, maxRoundStep]

/-- The rule emitted for a pricing shape prices as its expression does, and refuses what does
not come to a price: at rates and addends within the limits of a rule, with a guard that is not
empty. -/
theorem translated_price {u : Unicode} (law : u.Printable) {shape : Shape}
    {refs : String → Reference u} {mark : List Char} (hmark : mark ∈ marks) {e : Expression}
    (h : shape.expression (fun name => (refs name).1) mark = some e)
    (hbasis : cells (refs "basis_ref").1 = .number basis) (hnonneg : 0 ≤ basis)
    (hrate : cells (refs "rate_ref").1 = .number (rateBp / 100))
    (hlow : -10000 ≤ rateBp) (hhigh : rateBp ≤ maxRateBp)
    (haddend : shape = .a1 → ∃ addend : Int,
      (cells (refs "addend_ref").1).addend * 1000000 = addend ∧ |addend| ≤ maxAbsoluteAdjustment)
    (hguard : shape = .a1 → (cells (refs "guard_ref").1).equal (.text []) = .logical false) :
    ∃ payload value, (translateFormula u (String.ofList e.formula)).outputPayload = .pricingRule payload ∧
      e.eval cells = .number value ∧
      (0 < value → ∃ result, payload.evaluate basis rateBp (cells (refs "addend_ref").1) = .ok result ∧
          (result.finalMinor : ℚ) = value) ∧
      (value ≤ 0 → payload.evaluate basis rateBp (cells (refs "addend_ref").1) =
        .error ⟨"nonpositive_price"⟩) := by
  obtain ⟨w, hw, hspelled⟩ := List.mem_map.mp (expression_spelled hmark h)
  have hpricing : shape ≠ .a2 ∧ shape ≠ .a12 := by
    constructor
    · rintro rfl
      cases h
    · rintro rfl
      cases h
  have hrecognised := recognised_pattern law hpricing.1 hpricing.2 (fun name => (refs name).2) hw
  rw [hspelled] at hrecognised
  have hemit := translateFormula_emits hrecognised.shapeId
  generalize (translateFormula u (String.ofList e.formula)).namedCaptures = captures at hemit
  obtain ⟨payload, hpayload⟩ : ∃ payload, shape.emit captures = .pricingRule payload := by
    cases shape <;> first | exact ⟨_, rfl⟩ | cases h
  obtain ⟨hmode, hsurcharge, hstep, hmax, hscale⟩ := emit_bounds hpayload
  obtain ⟨addend, hamount, hbound⟩ : ∃ addend : Int, payload.addend (cells (refs "addend_ref").1) = addend ∧
        |addend| ≤ maxAbsoluteAdjustment := by
    by_cases h1 : shape = .a1
    · obtain ⟨addend, hamount, hbound⟩ := haddend h1
      subst h1
      cases hpayload
      refine ⟨addend, ?_, hbound⟩
      rw [addend_of_reference rfl rfl, ← hamount]
      norm_num [PricingRulePayload.scale, emitA1]
    · refine ⟨0, ?_, by decide⟩
      rw [Int.cast_zero]
      cases shape <;> first | exact absurd rfl h1 | cases h
      all_goals
        cases hpayload
        exact addend_of_none rfl rfl _
  refine ⟨payload, _, hemit.trans hpayload,
    eval_expression h hpayload hbasis hnonneg hrate hlow hamount hguard, ?_⟩
  exact evaluate_eq (mul_nonneg hnonneg hscale) hamount
    (fields_check hmode hlow hhigh hbound hsurcharge hstep hmax) rfl

theorem isCell_right : isCell .ascii ['R', 'C', '[', '1', ']'] = true := by decide

/-- `RC[1]` for the basis and the guard, `R2C3` for the rate, `R3C6` for the addend. -/
def priceRefs (name : String) : Reference .ascii :=
  if name = "rate_ref" then ⟨['R', '2', 'C', '3'], by decide⟩
  else if name = "addend_ref" then ⟨['R', '3', 'C', '6'], by decide⟩
  else ⟨['R', 'C', '[', '1', ']'], isCell_right⟩

def priceCells (basis rate : ℚ) (addend : Value) (reference : List Char) : Value :=
  if reference = ['R', '2', 'C', '3'] then .number rate
  else if reference = ['R', '3', 'C', '6'] then addend
  else .number basis

theorem translated_price_sample :
    ∃ e payload value, Shape.expression (fun name => (priceRefs name).1) ['\u274c'] .a1 = some e ∧
      (translateFormula .ascii (String.ofList e.formula)).outputPayload = .pricingRule payload ∧
      e.eval (priceCells 250 ((1250 : Int) / 100) (.number 3)) = .number value ∧
      (0 < value → ∃ result, payload.evaluate 250 1250 (.number 3) = .ok result ∧
        (result.finalMinor : ℚ) = value) ∧
      (value ≤ 0 → payload.evaluate 250 1250 (.number 3) = .error ⟨"nonpositive_price"⟩) := by
  have hbasis : priceCells 250 ((1250 : Int) / 100) (.number 3) (priceRefs "basis_ref").1 =
      .number 250 := by decide
  have hrate : priceCells 250 ((1250 : Int) / 100) (.number 3) (priceRefs "rate_ref").1 =
      .number ((1250 : Int) / 100) := rfl
  have haddend : ∃ addend : Int, (priceCells 250 ((1250 : Int) / 100) (.number 3)
      (priceRefs "addend_ref").1).addend * 1000000 = addend ∧ |addend| ≤ maxAbsoluteAdjustment :=
    ⟨3000000, by decide +kernel, by decide⟩
  have hguard : (priceCells 250 ((1250 : Int) / 100) (.number 3)
      (priceRefs "guard_ref").1).equal (.text []) = .logical false := by decide
  obtain ⟨e, he⟩ : ∃ e, Shape.expression (fun name => (priceRefs name).1) ['\u274c'] .a1 = some e := ⟨_, rfl⟩
  obtain ⟨payload, value, h⟩ := translated_price Unicode.ascii_printable List.mem_cons_self he
    hbasis (by decide) hrate (by decide) (by decide) (fun _ => haddend) (fun _ => hguard)
  exact ⟨e, payload, value, he, h⟩

/-- A rate above the limit of a rule: the expression comes to a price, the rule is refused. -/
theorem rate_beyond_limit :
    ∃ e payload, Shape.expression (fun name => (priceRefs name).1) ['\u274c'] .a3 = some e ∧
      (translateFormula .ascii (String.ofList e.formula)).outputPayload = .pricingRule payload ∧
      e.eval (priceCells 1 (10000100 / 100) .blank) = .number 1000000 ∧
      payload.evaluate 1 10000100 .blank = .error ⟨"rate_value_invalid"⟩ := by
  refine ⟨_, emitA3 [("basis_ref", ['R', 'C', '[', '1', ']']), ("rate_ref", ['R', '2', 'C', '3'])],
    rfl, ?_, ?_, ?_⟩
  · decide +kernel
  · decide +kernel
  · decide +kernel

end

end FlowHub.FormulaTranslator
