import FlowHub.PricingMatrix.Arithmetic
import FlowHub.Python.Text

namespace FlowHub.PricingMatrix

open Txn Python List Except

def maxRawLength : Nat := 32

def maxSignificantDigits : Nat := 18

def maxDecimalPlaces : Nat := 6

def maxQuoteScale : Int := 1000000000

structure CurrencyUnitSpec where
  (currency unit canonicalUnit : String)
  canonicalFactor : Int
  deriving DecidableEq

def registry : List CurrencyUnitSpec := [ ⟨"IRR", "RIAL", "RIAL", 1⟩, ⟨"IRR", "TOMAN", "RIAL", 10⟩,
  ⟨"USD", "USD", "CENT", 100⟩,
  ⟨"EUR", "EUR", "CENT", 100⟩,
  ⟨"AED", "AED", "FILS", 100⟩,
  ⟨"JPY", "JPY", "JPY", 1⟩]

variable (u : Unicode)

def unitKey (text : String) : String := u.upper (String.ofList (strip u text.toList))

def resolveCurrencyUnit (currency unit : String) : Except PricingMatrixError CurrencyUnitSpec :=
  match registry.find? fun spec => spec.currency = unitKey u currency ∧ spec.unit = unitKey u unit with
  | some spec => .ok spec
  | none =>
    if unitKey u currency = "IRR" then .error ⟨"unit_unresolved"⟩
    else .error ⟨"currency_unit_unsupported"⟩

/-- `_RAW_NUMBER.fullmatch`. -/
def rawNumber (raw : List Char) : Bool :=
  let body := (sign raw).2
  let whole := body.takeWhile Char.isDigit
  match body.dropWhile Char.isDigit with
  | [] => !whole.isEmpty
  | '.' :: fraction => fraction.all Char.isDigit && !(whole.isEmpty && fraction.isEmpty)
  | _ => false

/-- The digits before the point and after it. -/
def parts (raw : List Char) : List Char × List Char :=
  let unsigned := raw.dropWhile fun c => c == '+' || c == '-'
  (unsigned.takeWhile (· != '.'), (unsigned.dropWhile (· != '.')).drop 1)

def significantDigits (raw : List Char) : Nat :=
  max 1 (((parts raw).1 ++ (parts raw).2).dropWhile (· == '0')).length

def normalizeRawAmount (rawValue : String) (spec : CurrencyUnitSpec) (quoteScale : Int := 1) :
    Except PricingMatrixError Int := do
  refuse (quoteScale < 1 || maxQuoteScale < quoteScale) "quote_scale_invalid"
  let raw := strip u rawValue.toList
  refuse (maxRawLength < raw.length || !rawNumber raw) "quote_format_invalid"
  let (whole, fraction) := parts raw
  refuse (maxDecimalPlaces < fraction.length || maxSignificantDigits < significantDigits raw)
    "quote_precision_invalid"
  let magnitude : Int := Nat.ofDigitChars 10 (whole ++ fraction) 0
  let digits := if raw.head? = some '-' then -magnitude else magnitude
  let numerator := digits * quoteScale * spec.canonicalFactor
  let denominator : Int := 10 ^ fraction.length
  refuse (decide (numerator % denominator ≠ 0)) "quote_precision_invalid"
  pure (numerator / denominator)

def toChannelUnit (canonicalAmount : Int) (spec : CurrencyUnitSpec) : Except PricingMatrixError Int :=
  if canonicalAmount % spec.canonicalFactor ≠ 0 then .error ⟨"channel_unit_inexact"⟩
  else .ok (canonicalAmount / spec.canonicalFactor)

def validateRuleChannelCompatibility (roundStepMinor surchargeMinor : Int) (roundOrder : RoundOrder)
    (channelSpec : CurrencyUnitSpec) : Except PricingMatrixError Unit := do
  let factor := channelSpec.canonicalFactor
  refuse (decide (roundStepMinor % factor ≠ 0)) "round_step_channel_unit_incompatible"
  refuse (decide (roundOrder = .roundThenSurcharge ∧ surchargeMinor % factor ≠ 0))
    "surcharge_channel_unit_incompatible"

variable {u}

theorem registry_factor_pos : ∀ spec ∈ registry, 0 < spec.canonicalFactor := by decide

variable {spec : CurrencyUnitSpec}

theorem resolveCurrencyUnit_pos
    (h : resolveCurrencyUnit u currency unit = .ok spec) : 0 < spec.canonicalFactor := by
  unfold resolveCurrencyUnit at h
  split at h
  · rename_i found hfound
    cases h
    exact registry_factor_pos _ (mem_of_find?_eq_some hfound)
  · split at h <;> cases h

theorem validateRuleChannelCompatibility_ok :
    validateRuleChannelCompatibility step surcharge order spec = .ok () ↔ spec.canonicalFactor ∣ step ∧
        (order = .roundThenSurcharge → spec.canonicalFactor ∣ surcharge) := by
  simp only [validateRuleChannelCompatibility, bind_eq_ok, refuse_ok, decide_eq_false_iff_not,
    Int.dvd_iff_emod_eq_zero, exists_const]
  constructor
  · rintro ⟨hstep, hsurcharge⟩
    exact ⟨by omega, fun horder => by_contra fun h => hsurcharge ⟨horder, h⟩⟩
  · rintro ⟨hstep, hsurcharge⟩
    exact ⟨by omega, fun h => h.2 (hsurcharge h.1)⟩

/-- Whatever a compatible rule adds and rounds, the channel can be told the amount. -/
theorem factor_dvd_finalAmount (basis : ℚ)
    (h : validateRuleChannelCompatibility rule.roundStepMinor rule.surchargeMinor rule.roundOrder
      spec = .ok ()) : spec.canonicalFactor ∣ finalAmount basis rule := by
  obtain ⟨hstep, hsurcharge⟩ := validateRuleChannelCompatibility_ok.mp h
  unfold finalAmount
  cases horder : rule.roundOrder with
  | roundThenSurcharge => exact Int.dvd_add (Dvd.dvd.mul_left hstep _) (hsurcharge horder)
  | surchargeThenRound => exact Dvd.dvd.mul_left hstep _

theorem toChannelUnit_ok (hfactor : 0 < spec.canonicalFactor) :
    toChannelUnit canonical spec = .ok amount ↔ canonical = amount * spec.canonicalFactor := by
  unfold toChannelUnit
  constructor
  · intro h
    split at h
    · cases h
    · cases h
      rename_i hrem
      rw [Int.ediv_mul_cancel (Int.dvd_of_emod_eq_zero (not_not.mp hrem))]
  · rintro rfl
    rw [if_neg (by simp), Int.mul_ediv_cancel _ (by omega)]

theorem takeWhile_all {p : Char → Bool} {l : List Char} (h : ∀ c ∈ l, p c = true) :
    l.takeWhile p = l ∧ l.dropWhile p = [] :=
  ⟨takeWhile_eq_self_iff.mpr h, dropWhile_eq_nil_iff.mpr h⟩

/-- The decimal digits of a number. -/
theorem digits_repr (n : Nat) : n.repr.toList ≠ [] ∧ ∀ c ∈ n.repr.toList, c.isDigit = true := by
  rw [Nat.toList_repr]
  exact ⟨Nat.toDigits_ne_nil, fun c hc => Nat.isDigit_of_mem_toDigits (by decide) (by decide) hc⟩

theorem parts_repr (n : Nat) : parts n.repr.toList = (n.repr.toList, []) := by
  obtain ⟨hne, hdigits⟩ := digits_repr n
  have hsign : n.repr.toList.dropWhile (fun c => c == '+' || c == '-') = n.repr.toList := by
    cases hrepr : n.repr.toList with
    | nil => rfl
    | cons c rest =>
      have hc : c.isDigit = true := hdigits c (hrepr ▸ mem_cons_self)
      apply dropWhile_cons_of_neg
      intro hmark
      simp only [Bool.or_eq_true, beq_iff_eq] at hmark
      rcases hmark with rfl | rfl <;> exact absurd hc (by decide)
  have hpoint : ∀ c ∈ n.repr.toList, (c != '.') = true := by
    intro c hc
    rw [bne_iff_ne]
    rintro rfl
    exact absurd (hdigits _ hc) (by decide)
  obtain ⟨htake, hdrop⟩ := takeWhile_all hpoint
  simp only [parts, hsign, htake, hdrop, drop_nil]

theorem sign_repr (n : Nat) : (sign n.repr.toList).2 = n.repr.toList ∧ n.repr.toList.head? ≠ some '-' := by
  obtain ⟨-, hdigits⟩ := digits_repr n
  cases hrepr : n.repr.toList with
  | nil => exact ⟨rfl, by simp⟩
  | cons c rest =>
    have hc : c.isDigit = true := hdigits c (hrepr ▸ mem_cons_self)
    constructor
    · unfold sign
      split
      · exact absurd hc (by simp_all)
      · exact absurd hc (by simp_all)
      · rfl
    · simp only [head?_cons, ne_eq, Option.some.injEq]
      rintro rfl
      exact absurd hc (by decide)

theorem rawNumber_repr (n : Nat) : rawNumber n.repr.toList = true := by
  obtain ⟨hne, hdigits⟩ := digits_repr n
  obtain ⟨htake, hdrop⟩ := takeWhile_all hdigits
  simp only [rawNumber, (sign_repr n).1, htake, hdrop]
  cases hrepr : n.repr.toList with
  | nil => exact absurd hrepr hne
  | cons c rest => rfl

/-- A channel amount reads back, within the limits, as the canonical amount it stands for. -/
theorem normalizeRawAmount_repr (visible : u.DigitsVisible) (spec : CurrencyUnitSpec) {n : Nat}
    (hlength : n.repr.length ≤ maxRawLength)
    (hdigits : significantDigits n.repr.toList ≤ maxSignificantDigits) :
    normalizeRawAmount u n.repr spec = .ok (n * spec.canonicalFactor) := by
  have hstrip : strip u n.repr.toList = n.repr.toList :=
    strip_of_visible fun c hc => visible c ((digits_repr n).2 c hc)
  have hvalue : Nat.ofDigitChars 10 (n.repr.toList ++ []) 0 = n := by
    rw [append_nil, Nat.toList_repr, Nat.ofDigitChars_ten_toDigits]
  have hformat : (decide (maxRawLength < n.repr.toList.length) || !rawNumber n.repr.toList) = false := by
    rw [rawNumber_repr, String.length_toList]
    simpa only [Bool.not_true, Bool.or_false, decide_eq_false_iff_not, not_lt] using hlength
  have hprecision : (decide (maxDecimalPlaces < ([] : List Char).length) ||
      decide (maxSignificantDigits < significantDigits n.repr.toList)) = false := by
    simp only [Bool.or_eq_false_iff, decide_eq_false_iff_not, not_lt]
    exact ⟨by decide, hdigits⟩
  simp only [normalizeRawAmount, hstrip, parts_repr, hformat, hprecision, hvalue, bind_eq_ok,
    refuse_ok, if_neg (sign_repr n).2]
  refine ⟨(), by decide, (), trivial, (), trivial, (), by simp, ?_⟩
  simp [pure, Except.pure]

/-- The final amount is a whole number of channel units, and is read back exactly. -/
theorem channel_amount_exact (visible : u.DigitsVisible) {currency unit : String}
    {spec : CurrencyUnitSpec} {rule : PricingRule} {basis : ℚ} {result : PricingArithmeticResult}
    (hspec : resolveCurrencyUnit u currency unit = .ok spec)
    (hcompatible : validateRuleChannelCompatibility rule.roundStepMinor rule.surchargeMinor
      rule.roundOrder spec = .ok ())
    (hprice : calculatePrice basis rule = .ok result) :
    ∃ amount, toChannelUnit result.finalMinor spec = .ok amount ∧
      ((toString amount).length ≤ maxRawLength →
        significantDigits (toString amount).toList ≤ maxSignificantDigits →
        normalizeRawAmount u (toString amount) spec = .ok result.finalMinor) := by
  have hpos := resolveCurrencyUnit_pos hspec
  obtain ⟨-, hfinal, hamount⟩ := calculatePrice_iff.mp ⟨result, hprice, rfl⟩
  obtain ⟨amount, hcanonical⟩ : spec.canonicalFactor ∣ result.finalMinor :=
    hamount ▸ factor_dvd_finalAmount basis hcompatible
  have hnonneg : 0 < amount := by
    by_contra h
    have : spec.canonicalFactor * amount ≤ 0 := mul_nonpos_of_nonneg_of_nonpos hpos.le (by omega)
    omega
  obtain ⟨n, rfl⟩ := Int.eq_ofNat_of_zero_le hnonneg.le
  refine ⟨n, (toChannelUnit_ok hpos).mpr (by rw [hcanonical, mul_comm]), ?_⟩
  intro hlength hdigits
  have htext : toString (n : Int) = n.repr := rfl
  rw [htext] at hlength hdigits ⊢
  rw [normalizeRawAmount_repr visible spec hlength hdigits, hcanonical, mul_comm]

/-- An addend no toman divides, and a surcharge before the rounding. -/
def tomanRule : PricingRule where
  rateMode := .percentBp
  rateValue := 2550
  fixedAddendMinor := 7
  roundStepMinor := 50000
  surchargeMinor := 3
  roundOrder := .surchargeThenRound
  checked := rfl

theorem channel_amount_exact_toman :
    ∃ amount, toChannelUnit 150000 ⟨"IRR", "TOMAN", "RIAL", 10⟩ = .ok amount ∧
      ((toString amount).length ≤ maxRawLength →
        significantDigits (toString amount).toList ≤ maxSignificantDigits →
        normalizeRawAmount .ascii (toString amount) ⟨"IRR", "TOMAN", "RIAL", 10⟩ = .ok 150000) := by
  have hspec : resolveCurrencyUnit .ascii " irr" "toman" = .ok ⟨"IRR", "TOMAN", "RIAL", 10⟩ := by
    decide +kernel
  have hprice : calculatePrice (250001 / 2) tomanRule =
      .ok ⟨250001, 2, 62754251, 400, 150000, 150000⟩ := by decide +kernel
  exact channel_amount_exact Unicode.ascii_digitsVisible hspec (by decide) hprice

/-- An optionally signed decimal numeral: what follows its point is there once the point is. -/
structure Numeral where
  mark : Option Char
  whole : List Char
  fraction : Option (List Char)
  marked : ∀ c ∈ mark, c = '+' ∨ c = '-'
  digits : ∀ c ∈ whole ++ fraction.getD [], c.isDigit = true
  nonempty : whole ++ fraction.getD [] ≠ []

namespace Numeral

def pointed : Option (List Char) → List Char
  | none => []
  | some fraction => '.' :: fraction

def text (n : Numeral) : List Char := n.mark.toList ++ (n.whole ++ pointed n.fraction)

def places (n : Numeral) : Nat := (n.fraction.getD []).length

/-- The limits on length, decimal places and significant digits. -/
def Within (n : Numeral) : Prop :=
  n.text.length ≤ maxRawLength ∧ n.places ≤ maxDecimalPlaces ∧
    ((n.whole ++ n.fraction.getD []).dropWhile (· == '0')).length ≤ maxSignificantDigits

def value (n : Numeral) : ℚ :=
  (if n.mark = some '-' then -1 else 1) * ((Nat.ofDigitChars 10 n.whole 0 : Nat) +
    (Nat.ofDigitChars 10 (n.fraction.getD []) 0 : Nat) / 10 ^ n.places)

variable {n : Numeral}

theorem whole_digits (n : Numeral) : ∀ c ∈ n.whole, c.isDigit = true :=
  fun c hc => n.digits c (mem_append_left _ hc)

theorem fraction_digits (n : Numeral) : ∀ c ∈ n.fraction.getD [], c.isDigit = true :=
  fun c hc => n.digits c (mem_append_right _ hc)

/-- Behind the sign stands a digit or the point. -/
theorem unsigned_head (n : Numeral) : ∀ c ∈ (n.whole ++ pointed n.fraction).head?,
    c.isDigit = true ∨ c = '.' := by
  intro c hc
  cases hwhole : n.whole with
  | cons d rest =>
    rw [hwhole] at hc
    cases hc
    exact .inl (n.whole_digits c (hwhole ▸ mem_cons_self))
  | nil =>
    rw [hwhole] at hc
    cases hfraction : n.fraction with
    | none => simp [hfraction, pointed] at hc
    | some fraction =>
      rw [hfraction] at hc
      cases hc
      exact .inr rfl

theorem sign_text (n : Numeral) : (sign n.text).2 = n.whole ++ pointed n.fraction ∧
      (n.text.head? = some '-' ↔ n.mark = some '-') ∧
      n.text.dropWhile (fun c => c == '+' || c == '-') = n.whole ++ pointed n.fraction := by
  have hhead := n.unsigned_head
  have hkept : (n.whole ++ pointed n.fraction).dropWhile (fun c => c == '+' || c == '-') =
      n.whole ++ pointed n.fraction := by
    cases hbody : n.whole ++ pointed n.fraction with
    | nil => rfl
    | cons c rest =>
      apply dropWhile_cons_of_neg
      intro hmark
      simp only [Bool.or_eq_true, beq_iff_eq] at hmark
      have hc := hhead c (by rw [hbody]; rfl)
      rcases hmark with rfl | rfl <;> exact absurd hc (by decide)
  cases hmark : n.mark with
  | none =>
    rw [text, hmark, Option.toList_none, nil_append]
    cases hbody : n.whole ++ pointed n.fraction with
    | nil => simp [sign]
    | cons c rest =>
      have hc := hhead c (by rw [hbody]; rfl)
      rw [hbody] at hkept
      refine ⟨?_, ?_, hkept⟩
      · unfold sign
        split
        · rename_i heq
          cases heq
          exact absurd hc (by decide)
        · rename_i heq
          cases heq
          exact absurd hc (by decide)
        · rfl
      · simp only [head?_cons, Option.some.injEq, reduceCtorEq, iff_false]
        rintro rfl
        exact absurd hc (by decide)
  | some c =>
    rw [text, hmark, Option.toList_some, singleton_append]
    rcases n.marked c hmark with rfl | rfl
    · exact ⟨rfl, by simp, by rw [dropWhile_cons_of_pos rfl, hkept]⟩
    · exact ⟨rfl, by simp, by rw [dropWhile_cons_of_pos rfl, hkept]⟩

theorem parts_text (n : Numeral) : parts n.text = (n.whole, n.fraction.getD []) := by
  have hpoint : ∀ c ∈ n.whole, (c != '.') = true := by
    intro c hc
    rw [bne_iff_ne]
    rintro rfl
    exact absurd (n.whole_digits _ hc) (by decide)
  simp only [parts, n.sign_text.2.2]
  rw [takeWhile_append_of_pos hpoint, dropWhile_append_of_pos hpoint]
  cases n.fraction <;> simp [pointed]

theorem rawNumber_text (n : Numeral) : rawNumber n.text = true := by
  have hne := n.nonempty
  have hfraction := n.fraction_digits
  simp only [rawNumber, n.sign_text.1]
  rw [takeWhile_append_of_pos n.whole_digits, dropWhile_append_of_pos n.whole_digits]
  cases h : n.fraction with
  | none =>
    rw [h] at hne
    simpa [pointed] using hne
  | some fraction =>
    rw [h] at hne hfraction
    have hpoint : ('.' :: fraction).takeWhile Char.isDigit = [] :=
      takeWhile_cons_of_neg (by decide)
    have hdrop : ('.' :: fraction).dropWhile Char.isDigit = '.' :: fraction :=
      dropWhile_cons_of_neg (by decide)
    simp only [pointed, hpoint, hdrop, append_nil, Bool.and_eq_true, all_eq_true]
    refine ⟨hfraction, ?_⟩
    simpa [List.isEmpty_iff, imp_iff_not_or] using hne

/-- What the pattern matches is a numeral. -/
theorem of_rawNumber (h : rawNumber raw = true) : ∃ n : Numeral, n.text = raw := by
  have hmark : ∃ mark : Option Char, (∀ c ∈ mark, c = '+' ∨ c = '-') ∧ raw = mark.toList ++ (sign raw).2 := by
    unfold sign
    split
    · exact ⟨some '-', by simp, rfl⟩
    · exact ⟨some '+', by simp, rfl⟩
    · exact ⟨none, by simp, rfl⟩
  obtain ⟨mark, hmarked, hraw⟩ := hmark
  unfold rawNumber at h
  simp only at h
  generalize (sign raw).2 = body at h hraw
  have hbody : body.takeWhile Char.isDigit ++ body.dropWhile Char.isDigit = body :=
    takeWhile_append_dropWhile
  have hwhole : ∀ c ∈ body.takeWhile Char.isDigit, c.isDigit = true :=
    fun c hc => mem_takeWhile_imp hc
  generalize body.takeWhile Char.isDigit = whole at h hbody hwhole
  split at h
  · rename_i hdrop
    rw [hdrop, append_nil] at hbody
    refine ⟨⟨mark, whole, none, hmarked, by simpa using hwhole, by simpa using h⟩, ?_⟩
    rw [hraw, ← hbody]
    exact congrArg (mark.toList ++ ·) (append_nil whole)
  · rename_i fraction hdrop
    rw [hdrop] at hbody
    simp only [Bool.and_eq_true, all_eq_true, Bool.not_eq_true', Bool.and_eq_false_iff] at h
    refine ⟨⟨mark, whole, some fraction, hmarked, ?_, ?_⟩, ?_⟩
    · intro c hc
      rcases mem_append.mp hc with hc | hc
      · exact hwhole c hc
      · exact h.1 c hc
    · rcases h.2 with hne | hne <;> simp_all
    · rw [hraw, ← hbody]
      rfl
  · cases h

/-- The digits before the point and after it, as one signed number. -/
def joined (n : Numeral) : Int :=
  if n.text.head? = some '-' then -(Nat.ofDigitChars 10 (n.whole ++ n.fraction.getD []) 0 : Nat)
  else (Nat.ofDigitChars 10 (n.whole ++ n.fraction.getD []) 0 : Nat)

theorem value_joined (n : Numeral) : n.value = n.joined / ((10 ^ n.places : Int) : ℚ) := by
  have hjoined : Nat.ofDigitChars 10 (n.whole ++ n.fraction.getD []) 0 =
      10 ^ n.places * Nat.ofDigitChars 10 n.whole 0 + Nat.ofDigitChars 10 (n.fraction.getD []) 0 := by
    rw [Nat.ofDigitChars_append, Nat.ofDigitChars_eq_ofDigitChars_zero, places]
  rw [value, joined, hjoined]
  by_cases hneg : n.mark = some '-'
  · rw [if_pos hneg, if_pos (n.sign_text.2.1.mpr hneg)]
    push_cast
    field_simp
  · rw [if_neg hneg, if_neg fun h => hneg (n.sign_text.2.1.mp h)]
    push_cast
    field_simp

/-- A text spells one numeral, but for a point with nothing behind it. -/
theorem text_unique {other : Numeral} (h : other.text = n.text) :
    other.value = n.value ∧ (other.Within ↔ n.Within) := by
  have hparts : other.whole = n.whole ∧ other.fraction.getD [] = n.fraction.getD [] := by
    have := other.parts_text.symm.trans ((congrArg parts h).trans n.parts_text)
    exact ⟨congrArg Prod.fst this, congrArg Prod.snd this⟩
  constructor
  · rw [other.value_joined, n.value_joined, joined, joined, places, places, h, hparts.1, hparts.2]
  · rw [Within, Within, places, places, h, hparts.1, hparts.2]

end Numeral

/-- Whole multiples of a power of ten. -/
theorem exact_quotient {amount : Int} : (numerator % 10 ^ places = 0 ∧ numerator / 10 ^ places = amount) ↔
      (numerator : ℚ) / ((10 ^ places : Int) : ℚ) = amount := by
  have hpos : (0 : Int) < 10 ^ places := by positivity
  have hne : ((10 ^ places : Int) : ℚ) ≠ 0 := by exact_mod_cast hpos.ne'
  rw [div_eq_iff hne]
  constructor
  · rintro ⟨hrem, rfl⟩
    exact_mod_cast (Int.ediv_mul_cancel (Int.dvd_of_emod_eq_zero hrem)).symm
  · intro h
    have heq : numerator = amount * 10 ^ places := by exact_mod_cast h
    rw [heq]
    exact ⟨Int.mul_emod_left _ _, Int.mul_ediv_cancel _ hpos.ne'⟩

theorem normalizeRawAmount_iff : normalizeRawAmount u text spec scale = .ok amount ↔
      (1 ≤ scale ∧ scale ≤ maxQuoteScale) ∧ ∃ n : Numeral, n.text = strip u text.toList ∧ n.Within ∧
        n.value * scale * spec.canonicalFactor = amount := by
  have hscale : (decide (scale < 1) || decide (maxQuoteScale < scale)) = false ↔
      1 ≤ scale ∧ scale ≤ maxQuoteScale := by
    simp [Bool.or_eq_false_iff, decide_eq_false_iff_not, not_lt]
  simp only [normalizeRawAmount, bind_eq_ok, refuse_ok, exists_const, hscale]
  refine and_congr_right fun _ => ?_
  by_cases hraw : rawNumber (strip u text.toList) = true
  · obtain ⟨n, hn⟩ := Numeral.of_rawNumber hraw
    have hwithin : (decide (maxRawLength < n.text.length) || !rawNumber n.text) = false ∧
        (decide (maxDecimalPlaces < n.places) ||
          decide (maxSignificantDigits < significantDigits n.text)) = false ↔ n.Within := by
      simp only [n.rawNumber_text, Bool.not_true, Bool.or_false, Bool.or_eq_false_iff,
        decide_eq_false_iff_not, not_lt, significantDigits, n.parts_text, Numeral.Within,
        Nat.max_le, and_congr_right_iff]
      intro _ _
      exact ⟨fun h => h.2, fun h => ⟨by decide, h⟩⟩
    have hvalue : n.value * scale * spec.canonicalFactor = amount ↔
        ((n.joined * scale * spec.canonicalFactor : Int) : ℚ) / ((10 ^ n.places : Int) : ℚ) = amount := by
      rw [n.value_joined]
      push_cast
      rw [div_mul_eq_mul_div, div_mul_eq_mul_div]
    rw [← hn, n.parts_text]
    change (_ ∧ _ ∧ decide (n.joined * scale * spec.canonicalFactor % 10 ^ n.places ≠ 0) = false ∧
      ok (n.joined * scale * spec.canonicalFactor / 10 ^ n.places) = ok amount) ↔ _
    simp only [decide_eq_false_iff_not, not_not, ok.injEq]
    constructor
    · rintro ⟨hformat, hprecision, hexact⟩
      exact ⟨n, rfl, hwithin.mp ⟨hformat, hprecision⟩, hvalue.mpr (exact_quotient.mp hexact)⟩
    · rintro ⟨other, hother, hlimits, hamount⟩
      obtain ⟨hsame, hboth⟩ := Numeral.text_unique hother
      rw [hsame] at hamount
      obtain ⟨hformat, hprecision⟩ := hwithin.mpr (hboth.mp hlimits)
      exact ⟨hformat, hprecision, exact_quotient.mpr (hvalue.mp hamount)⟩
  · constructor
    · rintro ⟨hformat, -⟩
      simp [hraw] at hformat
    · rintro ⟨n, hn, -⟩
      exact absurd (hn ▸ n.rawNumber_text) hraw

/-- An amount is what a numeral within the limits is worth in canonical units, where that is a
whole number, so it depends on the numeral's value alone and adds up as values do. -/
theorem normalization_exact (u : Unicode) (spec : CurrencyUnitSpec) (scale : Int) :
    (∀ (text : String) (amount : Int), normalizeRawAmount u text spec scale = .ok amount ↔
      (1 ≤ scale ∧ scale ≤ maxQuoteScale) ∧ ∃ n : Numeral, n.text = strip u text.toList ∧ n.Within ∧
        n.value * scale * spec.canonicalFactor = amount) ∧
    (∀ (text other : String) (n m : Numeral), n.text = strip u text.toList →
      m.text = strip u other.toList → n.Within → m.Within → n.value = m.value →
      ∀ amount, normalizeRawAmount u text spec scale = .ok amount ↔
        normalizeRawAmount u other spec scale = .ok amount) ∧
    ∀ (x y sum : String) (n m k : Numeral), n.text = strip u x.toList → m.text = strip u y.toList →
      k.text = strip u sum.toList → k.Within → k.value = n.value + m.value →
      ∀ a b, normalizeRawAmount u x spec scale = .ok a → normalizeRawAmount u y spec scale = .ok b →
        normalizeRawAmount u sum spec scale = .ok (a + b) := by
  have hvalue : ∀ {text : String} {n : Numeral} {amount : Int}, n.text = strip u text.toList →
      normalizeRawAmount u text spec scale = .ok amount →
        n.value * scale * spec.canonicalFactor = amount := by
    intro text n amount hn h
    obtain ⟨-, other, hother, -, hamount⟩ := normalizeRawAmount_iff.mp h
    rwa [(Numeral.text_unique (hother.trans hn.symm)).1] at hamount
  refine ⟨fun text amount => normalizeRawAmount_iff, ?_, ?_⟩
  · intro text other n m hn hm hwithin hlimits heq amount
    constructor
    · intro h
      exact normalizeRawAmount_iff.mpr
        ⟨(normalizeRawAmount_iff.mp h).1, m, hm, hlimits, heq ▸ hvalue hn h⟩
    · intro h
      exact normalizeRawAmount_iff.mpr
        ⟨(normalizeRawAmount_iff.mp h).1, n, hn, hwithin, heq ▸ hvalue hm h⟩
  · intro x y sum n m k hn hm hk hlimits hsum a b ha hb
    refine normalizeRawAmount_iff.mpr ⟨(normalizeRawAmount_iff.mp ha).1, k, hk, hlimits, ?_⟩
    have hleft := hvalue hn ha
    have hright := hvalue hm hb
    rw [hsum]
    push_cast
    linarith

theorem normalization_exact_cents :
    normalizeRawAmount .ascii "+012.5" ⟨"USD", "USD", "CENT", 100⟩ = .ok 1250 ∧
      normalizeRawAmount .ascii "11.75" ⟨"USD", "USD", "CENT", 100⟩ = .ok 1175 := by
  obtain ⟨hexact, hagrees, hadds⟩ := normalization_exact .ascii ⟨"USD", "USD", "CENT", 100⟩ 1
  have hspelled : normalizeRawAmount .ascii "12.50" ⟨"USD", "USD", "CENT", 100⟩ = .ok 1250 := by
    decide +kernel
  have hback : normalizeRawAmount .ascii "-.75" ⟨"USD", "USD", "CENT", 100⟩ = .ok (-75) := by
    decide +kernel
  let fifty : Numeral := ⟨none, ['1', '2'], some ['5', '0'], by simp, by simp, by simp⟩
  let padded : Numeral := ⟨some '+', ['0', '1', '2'], some ['5'], by simp, by simp, by simp⟩
  let less : Numeral := ⟨some '-', [], some ['7', '5'], by simp, by simp, by simp⟩
  let sum : Numeral := ⟨none, ['1', '1'], some ['7', '5'], by simp, by simp, by simp⟩
  have hlimits : fifty.Within ∧ padded.Within ∧ sum.Within := by
    simp only [Numeral.Within]
    decide +kernel
  have hvalues : fifty.value = padded.value ∧ sum.value = fifty.value + less.value := by
    simp only [Numeral.value]
    decide +kernel
  exact ⟨(hagrees "12.50" "+012.5" fifty padded (by decide +kernel) (by decide +kernel) hlimits.1
      hlimits.2.1 hvalues.1 1250).mp hspelled,
    hadds "12.50" "-.75" "11.75" fifty less sum (by decide +kernel) (by decide +kernel)
      (by decide +kernel) hlimits.2.2 hvalues.2 1250 (-75) hspelled hback⟩

end FlowHub.PricingMatrix
