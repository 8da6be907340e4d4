import FlowHub.PricingMatrix.Guards
import FlowHub.PricingMatrix.Units
import FlowHub.Python.Collections
import FlowHub.Python.IsoFormat
import Mathlib.Data.Prod.Lex
import Mathlib.Data.String.Basic

namespace FlowHub.PricingMatrix

open Txn Python List Option

structure QuoteEvidence (Zone : Type) where
  (quoteRef vendorRef currency : String)
  canonicalAmount : Option Int
  quotedAt : Option (DateTime Zone)

inductive ExclusionReason where
  | absent | zero | undated | futureDated | stale | currencyUnresolved
  deriving DecidableEq

structure QuoteAssessment where
  (quoteRef vendorRef : String)
  eligible : Bool
  exclusionReason : Option ExclusionReason
  valuedNumerator : Option Int
  valuedDenominator : Option Nat

inductive TargetOutcome where
  | priced | guardRejected | currencyUnresolved | insufficientQuotes

structure PricingTargetResult where
  outcome : TargetOutcome
  assessments : List QuoteAssessment
  basisQuoteRef : Option String := none
  basisNumerator : Option Int := none
  basisDenominator : Option Nat := none
  arithmetic : Option PricingArithmeticResult := none
  guardEvaluation : Option GuardEvaluation := none

inductive EvaluationError where
  | valueError (message : String)
  | overflow
  | pricing (error : PricingMatrixError)

/-- The frozen inputs of a target besides its quotes. -/
structure TargetInputs (Zone : Type) where
  computationCurrency : String
  valuationRates : String → Option ℚ
  evaluatedAt : DateTime Zone
  (maxQuoteAgeDays minQuoteCount : Int)
  rule : PricingRule
  previousAppliedMinor : Option Int := none

variable {Zone : Type} [TimeZone Zone] [DecidableEq Zone] (u : Unicode)

/-- The rate into the computation currency. -/
def TargetInputs.rate (inputs : TargetInputs Zone) (currency : String) : Option ℚ :=
  if unitKey u currency = unitKey u inputs.computationCurrency then some 1
  else inputs.valuationRates (unitKey u currency)

/-- What one pass of the loop makes of a quote: its value, or why it is excluded. -/
def TargetInputs.value (inputs : TargetInputs Zone) (cutoff : DateTime Zone)
    (quote : QuoteEvidence Zone) : Except ExclusionReason ℚ :=
  match quote.canonicalAmount, quote.quotedAt with
  | none, _ => .error .absent
  | some amount, quotedAt =>
    if amount ≤ 0 then .error .zero
    else match quotedAt with
      | none => .error .undated
      | some quoted =>
        if quoted.zone = none then .error .undated
        else if inputs.evaluatedAt.before quoted then .error .futureDated
        else if quoted.before cutoff then .error .stale
        else match inputs.rate u quote.currency with
          | none => .error .currencyUnresolved
          | some rate => if rate ≤ 0 then .error .currencyUnresolved else .ok (amount * rate)

def assessment (quote : QuoteEvidence Zone) (valued : Except ExclusionReason ℚ) : QuoteAssessment :=
  match valued with
  | .ok value => ⟨quote.quoteRef, quote.vendorRef, true, none, some value.num, some value.den⟩
  | .error reason => ⟨quote.quoteRef, quote.vendorRef, false, some reason, none, none⟩

/-- The quotes that may set the price, with their values. -/
def TargetInputs.eligible (inputs : TargetInputs Zone) (cutoff : DateTime Zone)
    (quotes : List (QuoteEvidence Zone)) : List (QuoteEvidence Zone × ℚ) :=
  quotes.filterMap fun quote => (inputs.value u cutoff quote).toOption.map (quote, ·)

/-- The key of `min`: the value, then the reference. -/
def basisKey (item : QuoteEvidence Zone × ℚ) : ℚ ×ₗ String := toLex (item.2, item.1.quoteRef)

/-- The outcome where too few quotes are eligible. -/
def shortfall (assessments : List QuoteAssessment) : TargetOutcome :=
  let reasons := assessments.filterMap (·.exclusionReason)
  if reasons ≠ [] ∧ ∀ reason ∈ reasons, reason = .currencyUnresolved then .currencyUnresolved
  else .insufficientQuotes

/-- Pricing over the basis and the values of the eligible quotes. -/
def TargetInputs.price (inputs : TargetInputs Zone) (assessments : List QuoteAssessment)
    (quoteRef : String) (basis : ℚ) (values : List ℚ) :
    Except EvaluationError PricingTargetResult := do
  let arithmetic ← (calculatePrice basis inputs.rule).mapError .pricing
  let guardEvaluation := evaluateGuards arithmetic.finalMinor basis inputs.rule.guards.toGuardFields
    inputs.previousAppliedMinor values.max? values.min? values.max?
  pure {
    outcome := if guardEvaluation.accepted then .priced else .guardRejected
    assessments := assessments
    basisQuoteRef := some quoteRef
    basisNumerator := some basis.num
    basisDenominator := some basis.den
    arithmetic := some arithmetic
    guardEvaluation := some guardEvaluation }

def evaluatePricingTarget (inputs : TargetInputs Zone) (quotes : List (QuoteEvidence Zone)) :
    Except EvaluationError PricingTargetResult :=
  if inputs.evaluatedAt.zone = none then .error (.valueError "evaluated_at must be timezone-aware")
  else if inputs.maxQuoteAgeDays < 0 ∨ inputs.minQuoteCount < 1 then
    .error (.valueError "eligibility bounds are invalid")
  else match inputs.evaluatedAt.minusDays inputs.maxQuoteAgeDays with
    | none => .error .overflow
    | some cutoff =>
      let assessments := quotes.map fun quote => assessment quote (inputs.value u cutoff quote)
      let eligible := inputs.eligible u cutoff quotes
      if eligible.length < inputs.minQuoteCount then
        .ok { outcome := shortfall assessments, assessments := assessments }
      else match eligible.argmin basisKey with
        | none => .error (.valueError "min() arg is an empty sequence")
        | some (quote, basis) =>
          inputs.price assessments quote.quoteRef basis (eligible.map Prod.snd)

/-- A quote that may set the price, and its value: positive, dated in a zone, neither in the
future nor older than the cutoff, and convertible. -/
structure Eligible (inputs : TargetInputs Zone) (quote : QuoteEvidence Zone) (value : ℚ) : Prop where
  valued : ∃ amount rate, quote.canonicalAmount = some amount ∧ 0 < amount ∧
    inputs.rate u quote.currency = some rate ∧ 0 < rate ∧ value = amount * rate
  dated : ∃ quoted cutoff, quote.quotedAt = some quoted ∧ quoted.zone ≠ none ∧
    inputs.evaluatedAt.minusDays inputs.maxQuoteAgeDays = some cutoff ∧
    inputs.evaluatedAt.before quoted = false ∧ quoted.before cutoff = false

/-- Two runs that agree on everything but the assessments, which go with the quotes. -/
def Reordered (quotes quotes' : List (QuoteEvidence Zone)) :
    Except EvaluationError PricingTargetResult → Except EvaluationError PricingTargetResult → Prop
  | .ok a, .ok b =>
    (∃ assess, a.assessments = quotes.map assess ∧ b.assessments = quotes'.map assess) ∧
      { a with assessments := b.assessments } = b
  | .error e, .error e' => e = e'
  | _, _ => False

/-- Two runs that agree on basis, arithmetic and guards. -/
def SamePricing :
    Except EvaluationError PricingTargetResult → Except EvaluationError PricingTargetResult → Prop
  | .ok a, .ok b => { a with outcome := b.outcome, assessments := b.assessments } = b
  | .error e, .error e' => e = e'
  | _, _ => False

variable {u} {inputs : TargetInputs Zone}

variable {quote : QuoteEvidence Zone}

theorem value_eq_ok (hcutoff : inputs.evaluatedAt.minusDays inputs.maxQuoteAgeDays = some cutoff) :
    inputs.value u cutoff quote = .ok value ↔ Eligible u inputs quote value := by
  constructor
  · intro h
    unfold TargetInputs.value at h
    split at h
    · cases h
    rename_i _ _ amount hamount
    split at h
    · cases h
    rename_i hpos
    split at h
    · cases h
    rename_i _ quoted hquotedAt
    split at h
    · cases h
    rename_i hzone
    split at h
    · cases h
    rename_i hfuture
    split at h
    · cases h
    rename_i hstale
    split at h
    · cases h
    rename_i _ rate hrate
    split at h
    · cases h
    rename_i hratePos
    cases h
    exact ⟨⟨amount, rate, hamount, by omega, hrate, by linarith, rfl⟩,
      ⟨quoted, cutoff, hquotedAt, hzone, hcutoff, by simpa using hfuture, by simpa using hstale⟩⟩
  · rintro ⟨⟨amount, rate, hamount, hpos, hrate, hratePos, rfl⟩,
      ⟨quoted, cutoff', hquotedAt, hzone, hcutoff', hfuture, hstale⟩⟩
    obtain rfl : cutoff = cutoff' := by simpa [hcutoff] using hcutoff'
    have hamountPos : ¬amount ≤ 0 := by omega
    have hrateNot : ¬rate ≤ 0 := by linarith
    simp [TargetInputs.value, hamount, hquotedAt, hzone, hfuture, hstale, hrate, hamountPos, hrateNot]

variable {quotes quotes' before : List (QuoteEvidence Zone)} {result : PricingTargetResult}

theorem mem_eligible (hcutoff : inputs.evaluatedAt.minusDays inputs.maxQuoteAgeDays = some cutoff) :
    (quote, value) ∈ inputs.eligible u cutoff quotes ↔ quote ∈ quotes ∧ Eligible u inputs quote value := by
  simp only [TargetInputs.eligible, mem_filterMap, map_eq_some_iff, Prod.mk.injEq]
  constructor
  · rintro ⟨found, hfound, v, hv, rfl, rfl⟩
    refine ⟨hfound, (value_eq_ok hcutoff).mp ?_⟩
    cases hvalue : inputs.value u cutoff found with
    | ok w =>
      rw [hvalue] at hv
      cases hv
      rfl
    | error reason =>
      rw [hvalue] at hv
      cases hv
  · rintro ⟨hmem, helig⟩
    refine ⟨quote, hmem, value, ?_, rfl, rfl⟩
    rw [(value_eq_ok hcutoff).mpr helig]
    rfl

theorem eligible_skip {after : List (QuoteEvidence Zone)}
    (hcutoff : inputs.evaluatedAt.minusDays inputs.maxQuoteAgeDays = some cutoff)
    (h : ¬∃ value, Eligible u inputs quote value) :
    inputs.eligible u cutoff (before ++ quote :: after) = inputs.eligible u cutoff (before ++ after) := by
  have hvalue : (inputs.value u cutoff quote).toOption = none := by
    cases hvalue : inputs.value u cutoff quote with
    | ok value => exact absurd ⟨value, (value_eq_ok hcutoff).mp hvalue⟩ h
    | error reason => rfl
  simp [TargetInputs.eligible, filterMap_append, filterMap_cons, hvalue, map_none]

omit [TimeZone Zone] [DecidableEq Zone] in
/-- Only the outcome's own record carries the assessments. -/
theorem price_assessments (assessments assessments' : List QuoteAssessment) (ref : String)
    (basis : ℚ) (values : List ℚ) :
    inputs.price assessments' ref basis values = (inputs.price assessments ref basis values).map
        fun result => { result with assessments := assessments' } := by
  unfold TargetInputs.price
  cases calculatePrice basis inputs.rule with
  | ok arithmetic => rfl
  | error e => rfl

omit [TimeZone Zone] [DecidableEq Zone] in
theorem price_perm (h : values.Perm values') :
    inputs.price assessments ref basis values = inputs.price assessments ref basis values' := by
  unfold TargetInputs.price
  rw [max?_perm h, min?_perm h]

omit [TimeZone Zone] [DecidableEq Zone] in
theorem price_ok (h : inputs.price assessments ref basis values = .ok result) :
    result.assessments = assessments ∧ result.basisQuoteRef = some ref ∧
      result.basisNumerator = some basis.num ∧ result.basisDenominator = some basis.den := by
  unfold TargetInputs.price at h
  obtain ⟨arithmetic, -, h⟩ := bind_eq_ok.mp h
  cases h
  exact ⟨rfl, rfl, rfl, rfl⟩

omit [TimeZone Zone] [DecidableEq Zone] in
theorem price_reordered (assess : QuoteEvidence Zone → QuoteAssessment) (ref : String) (basis : ℚ)
    (h : values.Perm values') :
    Reordered quotes quotes' (inputs.price (quotes.map assess) ref basis values)
      (inputs.price (quotes'.map assess) ref basis values') := by
  rw [price_assessments (quotes.map assess) (quotes'.map assess), ← price_perm h]
  cases hprice : inputs.price (quotes.map assess) ref basis values with
  | error e => rfl
  | ok result => exact ⟨⟨assess, (price_ok hprice).1, rfl⟩, rfl⟩

theorem shortfall_perm
    (h : assessments.Perm assessments') : shortfall assessments = shortfall assessments' := by
  have hreasons : (assessments.filterMap (·.exclusionReason)).Perm
      (assessments'.filterMap (·.exclusionReason)) := h.filterMap _
  have hnil : assessments.filterMap (·.exclusionReason) = [] ↔
      assessments'.filterMap (·.exclusionReason) = [] := by
    constructor
    · intro hempty
      exact (hempty ▸ hreasons).symm.eq_nil
    · intro hempty
      exact (hempty ▸ hreasons).eq_nil
  simp only [shortfall, ne_eq, hnil, hreasons.mem_iff]

omit [TimeZone Zone] [DecidableEq Zone] in
theorem price_samePricing (assessments assessments' : List QuoteAssessment) (ref : String)
    (basis : ℚ) (values : List ℚ) :
    SamePricing (inputs.price assessments ref basis values)
      (inputs.price assessments' ref basis values) := by
  rw [price_assessments assessments assessments']
  cases inputs.price assessments ref basis values with
  | error e => rfl
  | ok result => rfl

/-- What one target's pricing says, whatever the order: too few quotes, or the price of the
least of the eligible ones. -/
theorem evaluatePricingTarget_reordered (h : quotes.Perm quotes') :
    Reordered quotes quotes' (evaluatePricingTarget u inputs quotes)
      (evaluatePricingTarget u inputs quotes') := by
  unfold evaluatePricingTarget
  by_cases hzone : inputs.evaluatedAt.zone = none
  · rw [if_pos hzone, if_pos hzone]
    rfl
  rw [if_neg hzone, if_neg hzone]
  by_cases hbounds : inputs.maxQuoteAgeDays < 0 ∨ inputs.minQuoteCount < 1
  · rw [if_pos hbounds, if_pos hbounds]
    rfl
  rw [if_neg hbounds, if_neg hbounds]
  cases hcutoff : inputs.evaluatedAt.minusDays inputs.maxQuoteAgeDays with
  | none => rfl
  | some cutoff =>
    let assess := fun quote => assessment quote (inputs.value u cutoff quote)
    have helig : (inputs.eligible u cutoff quotes).Perm (inputs.eligible u cutoff quotes') :=
      h.filterMap _
    have hassess : (quotes.map assess).Perm (quotes'.map assess) := h.map _
    simp only [helig.length_eq]
    by_cases hfew : ((inputs.eligible u cutoff quotes').length : Int) < inputs.minQuoteCount
    · rw [if_pos hfew, if_pos hfew, shortfall_perm hassess]
      exact ⟨⟨assess, rfl, rfl⟩, rfl⟩
    rw [if_neg hfew, if_neg hfew]
    have hkey := argmin_perm basisKey helig
    cases hmin : (inputs.eligible u cutoff quotes).argmin basisKey with
    | none =>
      rw [hmin] at hkey
      rw [map_eq_none_iff.mp hkey.symm]
      rfl
    | some item =>
      rw [hmin] at hkey
      obtain ⟨item', hmin', hitem⟩ := map_eq_some_iff.mp hkey.symm
      rw [hmin']
      -- Equal keys: the same value and the same reference.
      obtain ⟨hbasis, href⟩ := Prod.mk.inj (toLex.injective hitem)
      dsimp only
      rw [hbasis, href]
      exact price_reordered assess _ _ (helig.map Prod.snd)

/-- The basis is the least value among the eligible quotes. -/
theorem evaluatePricingTarget_basis (h : evaluatePricingTarget u inputs quotes = .ok result)
    (houtcome : result.outcome = .priced ∨ result.outcome = .guardRejected) :
    ∃ quote ∈ quotes, ∃ value, Eligible u inputs quote value ∧
      result.basisQuoteRef = some quote.quoteRef ∧ result.basisNumerator = some value.num ∧
      result.basisDenominator = some value.den ∧
      ∀ other ∈ quotes, ∀ v, Eligible u inputs other v → value ≤ v := by
  unfold evaluatePricingTarget at h
  split at h
  · cases h
  split at h
  · cases h
  split at h
  · cases h
  rename_i cutoff hcutoff
  dsimp only at h
  split at h
  · cases h
    unfold shortfall at houtcome
    dsimp only at houtcome
    split at houtcome <;> rcases houtcome with h | h <;> cases h
  split at h
  · cases h
  rename_i quote basis hmin
  obtain ⟨-, href, hnum, hden⟩ := price_ok h
  obtain ⟨hmem, helig⟩ := (mem_eligible hcutoff).mp (argmin_mem hmin)
  refine ⟨quote, hmem, basis, helig, href, hnum, hden, ?_⟩
  intro other hother v hv
  have hle := le_of_mem_argmin ((mem_eligible hcutoff).mpr ⟨hother, hv⟩) hmin
  rcases Prod.Lex.le_iff.mp hle with hlt | ⟨heq, -⟩
  · exact le_of_lt hlt
  · exact le_of_eq heq

/-- A quote that is not eligible leaves basis, arithmetic and guards as they are. -/
theorem evaluatePricingTarget_irrelevant {after : List (QuoteEvidence Zone)}
    (h : ¬∃ value, Eligible u inputs quote value) :
    SamePricing (evaluatePricingTarget u inputs (before ++ after))
      (evaluatePricingTarget u inputs (before ++ quote :: after)) := by
  unfold evaluatePricingTarget
  by_cases hzone : inputs.evaluatedAt.zone = none
  · rw [if_pos hzone, if_pos hzone]
    rfl
  rw [if_neg hzone, if_neg hzone]
  by_cases hbounds : inputs.maxQuoteAgeDays < 0 ∨ inputs.minQuoteCount < 1
  · rw [if_pos hbounds, if_pos hbounds]
    rfl
  rw [if_neg hbounds, if_neg hbounds]
  cases hcutoff : inputs.evaluatedAt.minusDays inputs.maxQuoteAgeDays with
  | none => rfl
  | some cutoff =>
    simp only [eligible_skip hcutoff h]
    by_cases hfew : ((inputs.eligible u cutoff (before ++ after)).length : Int) < inputs.minQuoteCount
    · rw [if_pos hfew, if_pos hfew]
      rfl
    rw [if_neg hfew, if_neg hfew]
    cases (inputs.eligible u cutoff (before ++ after)).argmin basisKey with
    | none => rfl
    | some item =>
      exact price_samePricing _ _ _ _ _

/-- The order of the quotes and the quotes that are not eligible do not matter to a price. -/
theorem pricing_of_eligible_quotes (u : Unicode) (inputs : TargetInputs Zone) :
    (∀ quotes quotes' : List (QuoteEvidence Zone), quotes.Perm quotes' →
      Reordered quotes quotes' (evaluatePricingTarget u inputs quotes)
        (evaluatePricingTarget u inputs quotes')) ∧
    (∀ (quotes : List (QuoteEvidence Zone)) (result : PricingTargetResult),
      evaluatePricingTarget u inputs quotes = .ok result →
      result.outcome = .priced ∨ result.outcome = .guardRejected →
      ∃ quote ∈ quotes, ∃ value, Eligible u inputs quote value ∧
        result.basisQuoteRef = some quote.quoteRef ∧ result.basisNumerator = some value.num ∧
        result.basisDenominator = some value.den ∧
        ∀ other ∈ quotes, ∀ v, Eligible u inputs other v → value ≤ v) ∧
    (∀ (before after : List (QuoteEvidence Zone)) (quote : QuoteEvidence Zone),
      (¬∃ value, Eligible u inputs quote value) →
      SamePricing (evaluatePricingTarget u inputs (before ++ after))
        (evaluatePricingTarget u inputs (before ++ quote :: after))) :=
  ⟨fun _ _ h => evaluatePricingTarget_reordered h,
    fun _ _ h houtcome => evaluatePricingTarget_basis h houtcome,
    fun _ _ _ h => evaluatePricingTarget_irrelevant h⟩

end FlowHub.PricingMatrix
