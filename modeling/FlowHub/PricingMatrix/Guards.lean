import FlowHub.PricingMatrix.Arithmetic
import Mathlib.Data.Int.ConditionallyCompleteOrder

namespace FlowHub.PricingMatrix

open Txn Option

structure GuardEvaluation where
  accepted : Bool
  reasonCodes : List String

/-- `if condition: failures.append(code)`. -/
def failure (condition : Bool) (code : String) : List String := if condition then [code] else []

variable (finalMinor : Int)

def changeFailures (guards : GuardFields) (previousAppliedMinor : Option Int) : List String :=
  match previousAppliedMinor with
  | none => []
  | some previous =>
    if previous ≤ 0 ∧ (guards.maxIncreaseBp.isSome ∨ guards.maxDecreaseBp.isSome) then
      ["previous_price_zero"]
    else
      let delta := finalMinor - previous
      failure (guards.maxIncreaseBp.any fun bp => 0 < delta && previous * bp < delta * 10000)
        "max_increase" ++
      failure (guards.maxDecreaseBp.any fun bp => delta < 0 && previous * bp < -delta * 10000)
        "max_decrease"

/-- Whether the markup over an amount stays below so many basis points of it. -/
def markupBelow (amount : ℚ) (bp : Int) : Bool :=
  decide ((finalMinor - amount) * 10000 < amount * bp)

def markupFailures (basis : ℚ) (guards : GuardFields) : List String :=
  match guards.minMarkupBp with
  | none => []
  | some bp =>
    if basis ≤ 0 then ["basis_zero"] else failure (markupBelow finalMinor basis bp) "min_markup"

def worstCaseFailures (worstCase : Option ℚ) (guards : GuardFields) : List String :=
  match guards.minMarkupWorstCaseBp, worstCase with
  | none, _ => []
  | some _, none => ["worst_case_basis_unavailable"]
  | some bp, some worst =>
    if worst ≤ 0 then ["worst_case_basis_unavailable"]
    else failure (markupBelow finalMinor worst bp) "min_markup_worst_case"

def spreadFailures (lowest highest : Option ℚ) (guards : GuardFields) : List String :=
  match guards.maxBasisSpreadBp, lowest, highest with
  | none, _, _ => []
  | some bp, some low, some high =>
    if low ≤ 0 then ["basis_zero"]
    else failure (decide (low * bp < (high - low) * 10000)) "max_basis_spread"
  | some _, _, _ => ["quote_spread_unavailable"]

def evaluateGuards (basisMinor : ℚ) (guards : GuardFields)
    (previousAppliedMinor : Option Int) (worstCaseQuoteMinor lowestQuoteMinor
    highestQuoteMinor : Option ℚ) : GuardEvaluation :=
  let failures :=
    failure (guards.minPriceMinor.any (finalMinor < ·)) "min_price" ++
    failure (guards.maxPriceMinor.any (· < finalMinor)) "max_price" ++
    changeFailures finalMinor guards previousAppliedMinor ++
    markupFailures finalMinor basisMinor guards ++
    worstCaseFailures finalMinor worstCaseQuoteMinor guards ++
    spreadFailures lowestQuoteMinor highestQuoteMinor guards
  { accepted := failures.isEmpty
    reasonCodes := failures.eraseDups }

@[simp] theorem failure_eq_nil : failure condition code = [] ↔ condition = false := by
  cases condition <;> simp [failure]

/-- The inputs of a guard evaluation besides the price itself. -/
structure GuardInputs where
  basis : ℚ
  previous : Option Int := none
  worstCase : Option ℚ := none
  lowest : Option ℚ := none
  highest : Option ℚ := none

def accepts (guards : GuardFields) (inputs : GuardInputs) (final : Int) : Bool :=
  (evaluateGuards final inputs.basis guards inputs.previous inputs.worstCase inputs.lowest
    inputs.highest).accepted

/-- A share of an amount, in basis points on top of it or below it. -/
def above (amount : ℚ) (bp : Int) : ℚ := amount * (1 + bp / 10000)

def below (amount : ℚ) (bp : Int) : ℚ := amount * (1 - bp / 10000)

/-- A price within every active bound. A guard over an amount asks for a positive one; the limits
of a change ask only of a price that was applied before. -/
structure Within (guards : GuardFields) (inputs : GuardInputs) (final : Int) : Prop where
  minimum : ∀ least ∈ guards.minPriceMinor, least ≤ final
  maximum : ∀ most ∈ guards.maxPriceMinor, final ≤ most
  increase : ∀ bp ∈ guards.maxIncreaseBp, ∀ previous ∈ inputs.previous,
    0 < previous ∧ (final : ℚ) ≤ above previous bp
  decrease : ∀ bp ∈ guards.maxDecreaseBp, ∀ previous ∈ inputs.previous,
    0 < previous ∧ below previous bp ≤ final
  markup : ∀ bp ∈ guards.minMarkupBp, 0 < inputs.basis ∧ above inputs.basis bp ≤ final
  worstCase : ∀ bp ∈ guards.minMarkupWorstCaseBp, ∃ worst ∈ inputs.worstCase,
    0 < worst ∧ above worst bp ≤ final
  spread : ∀ bp ∈ guards.maxBasisSpreadBp, ∃ low ∈ inputs.lowest, ∃ high ∈ inputs.highest,
    0 < low ∧ high ≤ above low bp

variable {inputs : GuardInputs} {final : Int}

theorem markupBelow_iff : markupBelow final amount bp = false ↔ above amount bp ≤ final := by
  rw [markupBelow, decide_eq_false_iff_not, not_lt, above]
  constructor <;> intro h <;> linarith

variable (guards : PricingGuardSet)

theorem PricingGuardSet.bp_nonneg :
    (∀ bp ∈ guards.maxIncreaseBp, 0 ≤ bp) ∧ ∀ bp ∈ guards.maxDecreaseBp, 0 ≤ bp := by
  obtain ⟨_, -, h⟩ := bind_eq_ok.mp guards.checked
  obtain ⟨_, -, h⟩ := bind_eq_ok.mp h
  obtain ⟨_, hincrease, h⟩ := bind_eq_ok.mp h
  obtain ⟨_, hdecrease, -⟩ := bind_eq_ok.mp h
  have hnonneg : ∀ {value : Option Int}, checkBasisPoints value = .ok () → ∀ bp ∈ value, 0 ≤ bp := by
    rintro _ hcheck bp rfl
    simp only [checkBasisPoints, refuse_ok, any_some, Bool.or_eq_false_iff, decide_eq_false_iff_not] at hcheck
    omega
  exact ⟨hnonneg hincrease, hnonneg hdecrease⟩

theorem changeFailures_iff : changeFailures final guards.toGuardFields previous = [] ↔
      (∀ bp ∈ guards.maxIncreaseBp, ∀ p ∈ previous, 0 < p ∧ (final : ℚ) ≤ above p bp) ∧
      ∀ bp ∈ guards.maxDecreaseBp, ∀ p ∈ previous, 0 < p ∧ below p bp ≤ final := by
  obtain ⟨hincrease, hdecrease⟩ := guards.bp_nonneg
  cases previous with
  | none => simp [changeFailures]
  | some previous =>
    by_cases hpos : 0 < previous
    · have hup : ∀ bp, 0 ≤ bp →
          ((decide (0 < final - previous) && decide (previous * bp < (final - previous) * 10000)) =
            false ↔ (final : ℚ) ≤ above previous bp) := by
        intro bp hbp
        have hmul : 0 ≤ previous * bp := mul_nonneg hpos.le hbp
        have hiff : (final : ℚ) ≤ above previous bp ↔ (final - previous) * 10000 ≤ previous * bp := by
          unfold above
          constructor
          · intro h
            have : ((final - previous) * 10000 : ℚ) ≤ previous * bp := by linarith
            exact_mod_cast this
          · intro h
            have : ((final - previous) * 10000 : ℚ) ≤ previous * bp := by exact_mod_cast h
            linarith
        rw [hiff, Bool.and_eq_false_iff, decide_eq_false_iff_not, decide_eq_false_iff_not]
        omega
      have hdown : ∀ bp, 0 ≤ bp →
          ((decide (final - previous < 0) &&
            decide (previous * bp < -(final - previous) * 10000)) = false ↔ below previous bp ≤ final) := by
        intro bp hbp
        have hmul : 0 ≤ previous * bp := mul_nonneg hpos.le hbp
        have hiff : below previous bp ≤ final ↔ -(final - previous) * 10000 ≤ previous * bp := by
          unfold below
          constructor
          · intro h
            have : (-(final - previous) * 10000 : ℚ) ≤ previous * bp := by linarith
            exact_mod_cast this
          · intro h
            have : (-(final - previous) * 10000 : ℚ) ≤ previous * bp := by exact_mod_cast h
            linarith
        rw [hiff, Bool.and_eq_false_iff, decide_eq_false_iff_not, decide_eq_false_iff_not]
        omega
      simp only [changeFailures, not_le.mpr hpos, false_and, if_false, List.append_eq_nil_iff,
        failure_eq_nil, mem_some_iff, forall_eq', hpos, true_and]
      refine and_congr ?_ ?_
      · cases hbp : guards.maxIncreaseBp with
        | none => simp
        | some bp => simpa using hup bp (hincrease bp hbp)
      · cases hbp : guards.maxDecreaseBp with
        | none => simp
        | some bp => simpa using hdown bp (hdecrease bp hbp)
    · have hle : previous ≤ 0 := not_lt.mp hpos
      cases hup : guards.maxIncreaseBp <;> cases hdown : guards.maxDecreaseBp <;>
        simp [changeFailures, hup, hdown, hle, hpos, failure]

theorem accepts_iff (inputs : GuardInputs) (final : Int) :
    accepts guards.toGuardFields inputs final = true ↔ Within guards.toGuardFields inputs final := by
  have hmarkup : markupFailures final inputs.basis guards.toGuardFields = [] ↔
      ∀ bp ∈ guards.minMarkupBp, 0 < inputs.basis ∧ above inputs.basis bp ≤ final := by
    unfold markupFailures
    cases guards.minMarkupBp with
    | none => simp
    | some bp =>
      by_cases hpos : 0 < inputs.basis
      · simp [not_le.mpr hpos, hpos, markupBelow_iff]
      · simp [not_lt.mp hpos, hpos]
  have hworst : worstCaseFailures final inputs.worstCase guards.toGuardFields = [] ↔
      ∀ bp ∈ guards.minMarkupWorstCaseBp, ∃ worst ∈ inputs.worstCase, 0 < worst ∧ above worst bp ≤ final := by
    unfold worstCaseFailures
    cases guards.minMarkupWorstCaseBp with
    | none => simp
    | some bp =>
      cases inputs.worstCase with
      | none => simp
      | some worst =>
        by_cases hpos : 0 < worst
        · simp [not_le.mpr hpos, hpos, markupBelow_iff]
        · simp [not_lt.mp hpos, hpos]
  have hspread : spreadFailures inputs.lowest inputs.highest guards.toGuardFields = [] ↔
      ∀ bp ∈ guards.maxBasisSpreadBp, ∃ low ∈ inputs.lowest, ∃ high ∈ inputs.highest,
        0 < low ∧ high ≤ above low bp := by
    unfold spreadFailures
    cases guards.maxBasisSpreadBp with
    | none => simp
    | some bp =>
      cases inputs.lowest with
      | none => cases inputs.highest <;> simp
      | some low =>
        cases inputs.highest with
        | none => simp
        | some high =>
          by_cases hpos : 0 < low
          · have hiff : (high - low) * 10000 ≤ low * bp ↔ high ≤ above low bp := by
              unfold above
              constructor <;> intro h <;> linarith
            simp [not_le.mpr hpos, hpos, hiff]
          · simp [not_lt.mp hpos, hpos]
  have hmin : failure (guards.minPriceMinor.any (final < ·)) "min_price" = [] ↔
      ∀ least ∈ guards.minPriceMinor, least ≤ final := by
    cases guards.minPriceMinor <;> simp
  have hmax : failure (guards.maxPriceMinor.any (· < final)) "max_price" = [] ↔
      ∀ most ∈ guards.maxPriceMinor, final ≤ most := by
    cases guards.maxPriceMinor <;> simp
  simp only [accepts, evaluateGuards, List.isEmpty_iff, List.append_eq_nil_iff, hmin, hmax,
    changeFailures_iff, hmarkup, hworst, hspread]
  constructor
  · rintro ⟨⟨⟨⟨⟨hleast, hmost⟩, hup, hdown⟩, hbasis⟩, hworse⟩, hwide⟩
    exact ⟨hleast, hmost, hup, hdown, hbasis, hworse, hwide⟩
  · rintro ⟨hleast, hmost, hup, hdown, hbasis, hworse, hwide⟩
    exact ⟨⟨⟨⟨⟨hleast, hmost⟩, hup, hdown⟩, hbasis⟩, hworse⟩, hwide⟩

/-- Bounds at least as strict, and perhaps one where there was none. -/
def Raised (loose tight : Option Int) : Prop := ∀ a ∈ loose, ∃ b ∈ tight, a ≤ b

def Lowered (loose tight : Option Int) : Prop := ∀ a ∈ loose, ∃ b ∈ tight, b ≤ a

structure Tightens (loose tight : GuardFields) : Prop where
  minimum : Raised loose.minPriceMinor tight.minPriceMinor
  maximum : Lowered loose.maxPriceMinor tight.maxPriceMinor
  increase : Lowered loose.maxIncreaseBp tight.maxIncreaseBp
  decrease : Lowered loose.maxDecreaseBp tight.maxDecreaseBp
  markup : Raised loose.minMarkupBp tight.minMarkupBp
  worstCase : Raised loose.minMarkupWorstCaseBp tight.minMarkupWorstCaseBp
  spread : Lowered loose.maxBasisSpreadBp tight.maxBasisSpreadBp

theorem above_mono (h : 0 < amount) (hle : a ≤ b) : above amount a ≤ above amount b := by
  have hcast : (a : ℚ) ≤ b := by exact_mod_cast hle
  have := mul_le_mul_of_nonneg_left hcast h.le
  unfold above
  linarith

theorem below_anti (h : 0 < amount) (hle : b ≤ a) : below amount a ≤ below amount b := by
  have hcast : (b : ℚ) ≤ a := by exact_mod_cast hle
  have := mul_le_mul_of_nonneg_left hcast h.le
  unfold below
  linarith

theorem Within.loosen {loose tight : GuardFields}
    (htight : Tightens loose tight) (h : Within tight inputs final) : Within loose inputs final where
  minimum a ha := by
    obtain ⟨b, hb, hle⟩ := htight.minimum a ha
    exact hle.trans (h.minimum b hb)
  maximum a ha := by
    obtain ⟨b, hb, hle⟩ := htight.maximum a ha
    exact (h.maximum b hb).trans hle
  increase a ha previous hprevious := by
    obtain ⟨b, hb, hle⟩ := htight.increase a ha
    obtain ⟨hpos, hfinal⟩ := h.increase b hb previous hprevious
    exact ⟨hpos, hfinal.trans (above_mono (by exact_mod_cast hpos) hle)⟩
  decrease a ha previous hprevious := by
    obtain ⟨b, hb, hle⟩ := htight.decrease a ha
    obtain ⟨hpos, hfinal⟩ := h.decrease b hb previous hprevious
    exact ⟨hpos, (below_anti (by exact_mod_cast hpos) hle).trans hfinal⟩
  markup a ha := by
    obtain ⟨b, hb, hle⟩ := htight.markup a ha
    obtain ⟨hpos, hfinal⟩ := h.markup b hb
    exact ⟨hpos, (above_mono hpos hle).trans hfinal⟩
  worstCase a ha := by
    obtain ⟨b, hb, hle⟩ := htight.worstCase a ha
    obtain ⟨worst, hworst, hpos, hfinal⟩ := h.worstCase b hb
    exact ⟨worst, hworst, hpos, (above_mono hpos hle).trans hfinal⟩
  spread a ha := by
    obtain ⟨b, hb, hle⟩ := htight.spread a ha
    obtain ⟨low, hlow, high, hhigh, hpos, hwide⟩ := h.spread b hb
    exact ⟨low, hlow, high, hhigh, hpos, hwide.trans (above_mono hpos hle)⟩

/-- Between two prices within the bounds lies no price outside them. -/
theorem Within.between {guards : GuardFields}
    (hlow : Within guards inputs low) (hhigh : Within guards inputs high)
    (hbelow : low ≤ final) (habove : final ≤ high) : Within guards inputs final := by
  have hl : (low : ℚ) ≤ final := by exact_mod_cast hbelow
  have hh : (final : ℚ) ≤ high := by exact_mod_cast habove
  constructor
  · exact fun a ha => (hlow.minimum a ha).trans hbelow
  · exact fun a ha => habove.trans (hhigh.maximum a ha)
  · exact fun a ha p hp => ⟨(hhigh.increase a ha p hp).1, hh.trans (hhigh.increase a ha p hp).2⟩
  · exact fun a ha p hp => ⟨(hlow.decrease a ha p hp).1, (hlow.decrease a ha p hp).2.trans hl⟩
  · exact fun a ha => ⟨(hlow.markup a ha).1, (hlow.markup a ha).2.trans hl⟩
  · intro a ha
    obtain ⟨worst, hworst, hpos, hfinal⟩ := hlow.worstCase a ha
    exact ⟨worst, hworst, hpos, hfinal.trans hl⟩
  · exact hlow.spread

/-- An active guard over amounts of which one is missing or not positive. The limits of a change
are not among those that a missing price holds up. -/
def Starved (guards : GuardFields) (inputs : GuardInputs) : Prop :=
  ((guards.maxIncreaseBp.isSome ∨ guards.maxDecreaseBp.isSome) ∧ ∃ p ∈ inputs.previous, p ≤ 0) ∨
  (guards.minMarkupBp.isSome ∧ inputs.basis ≤ 0) ∨
  (guards.minMarkupWorstCaseBp.isSome ∧ ∀ worst ∈ inputs.worstCase, worst ≤ 0) ∨
  (guards.maxBasisSpreadBp.isSome ∧ ((∀ low ∈ inputs.lowest, low ≤ 0) ∨ ∀ high ∈ inputs.highest, high ≤ 0))

theorem Within.fed {guards : GuardFields}
    (hordered : ∀ low ∈ inputs.lowest, ∀ high ∈ inputs.highest, low ≤ high)
    (h : Within guards inputs final) : ¬Starved guards inputs := by
  rintro (⟨hsome, p, hp, hle⟩ | ⟨hsome, hle⟩ | ⟨hsome, hle⟩ | ⟨hsome, hle⟩)
  · rcases hsome with hsome | hsome
    · obtain ⟨bp, hbp⟩ := isSome_iff_exists.mp hsome
      have := (h.increase bp hbp p hp).1
      omega
    · obtain ⟨bp, hbp⟩ := isSome_iff_exists.mp hsome
      have := (h.decrease bp hbp p hp).1
      omega
  · obtain ⟨bp, hbp⟩ := isSome_iff_exists.mp hsome
    exact (h.markup bp hbp).1.not_ge hle
  · obtain ⟨bp, hbp⟩ := isSome_iff_exists.mp hsome
    obtain ⟨worst, hworst, hpos, -⟩ := h.worstCase bp hbp
    exact hpos.not_ge (hle worst hworst)
  · obtain ⟨bp, hbp⟩ := isSome_iff_exists.mp hsome
    obtain ⟨low, hlow, high, hhigh, hpos, -⟩ := h.spread bp hbp
    rcases hle with hle | hle
    · exact hpos.not_ge (hle low hlow)
    · exact (hpos.trans_le (hordered low hlow high hhigh)).not_ge (hle high hhigh)

/-- Guards accept the prices within every active bound, which are an interval. A stricter guard
set accepts no more, and one with an amount missing accepts none; the limits of a change do not
run on a first price. -/
theorem guards_sound_monotone (guards : PricingGuardSet) (inputs : GuardInputs) :
    (∀ final, accepts guards.toGuardFields inputs final = true ↔ Within guards.toGuardFields inputs final) ∧
    Set.OrdConnected {final | accepts guards.toGuardFields inputs final = true} ∧
    (∀ (tight : PricingGuardSet) (final : Int), Tightens guards.toGuardFields tight.toGuardFields →
      accepts guards.toGuardFields inputs final = false → accepts tight.toGuardFields inputs final = false) ∧
    ((∀ low ∈ inputs.lowest, ∀ high ∈ inputs.highest, low ≤ high) → Starved guards.toGuardFields inputs →
        ∀ final, accepts guards.toGuardFields inputs final = false) := by
  refine ⟨accepts_iff guards inputs, ⟨?_⟩, ?_, ?_⟩
  · intro low hlow high hhigh final hbetween
    exact (accepts_iff guards inputs final).mpr
      (((accepts_iff guards inputs low).mp hlow).between ((accepts_iff guards inputs high).mp hhigh)
        hbetween.1 hbetween.2)
  · intro tight final htight hrejected
    by_contra haccepted
    have hwithin := (accepts_iff tight inputs final).mp (by simpa using haccepted)
    rw [(accepts_iff guards inputs final).mpr (hwithin.loosen htight)] at hrejected
    cases hrejected
  · intro hordered hstarved final
    by_contra haccepted
    exact ((accepts_iff guards inputs final).mp (by simpa using haccepted)).fed hordered hstarved

/-- A tenth up at most, and half of the basis on top of it at least. -/
def tenthUp : PricingGuardSet :=
  { maxIncreaseBp := some 1000, minMarkupBp := some 5000, checked := by decide }

theorem guards_sound_sample :
    (∀ final, accepts tenthUp.toGuardFields ⟨100, some 200, none, some 90, some 110⟩ final = true ↔
      Within tenthUp.toGuardFields ⟨100, some 200, none, some 90, some 110⟩ final) ∧
    ∀ final, accepts tenthUp.toGuardFields ⟨0, some 200, none, some 90, some 110⟩ final = false := by
  constructor
  · exact (guards_sound_monotone tenthUp ⟨100, some 200, none, some 90, some 110⟩).1
  · exact (guards_sound_monotone tenthUp ⟨0, some 200, none, some 90, some 110⟩).2.2.2
      (by norm_num) (.inr (.inl ⟨rfl, le_rfl⟩))

/-- A first price passes the limit of its increase, whatever it is. -/
theorem first_price_accepted : tenthUp.maxIncreaseBp.isSome = true ∧
    accepts tenthUp.toGuardFields { basis := 100 } 1000000 = true := by
  decide +kernel

end FlowHub.PricingMatrix
