import Mathlib.Algebra.Order.Field.Rat
import Mathlib.Data.Nat.Log
import Mathlib.Data.Rat.Cast.Order
import FlowHub.Python.Text

namespace FlowHub.Python

inductive Decimal where
  | finite (negative : Bool) (coefficient : Nat) (exponent : Int)
  | infinity (negative : Bool)
  | nan (signaling negative : Bool) (payload : Nat)
  deriving DecidableEq

/-- A signal that the default context traps. -/
inductive Signal where
  | invalidOperation | overflow
  deriving DecidableEq

namespace Decimal

/-- The default context. -/
def prec : Nat := 28

def emax : Int := 999999

/-- The least exponent of a subnormal result. -/
def etiny : Int := -1000026

def maxEmax : Int := 999999999999999999

def minEtiny : Int := -1999999999999999997

def zero : Decimal := .finite false 0 0

def ofNat (n : Nat) : Decimal := .finite false n 0

def isFinite : Decimal → Bool
  | .finite .. => true
  | _ => false

/-- The number of a finite decimal. -/
def value : Decimal → ℚ
  | .finite negative coefficient exponent =>
    (if negative then -1 else 1) * coefficient * (10 : ℚ) ^ exponent
  | _ => 0

/-- How many digits a coefficient has. -/
def numDigits (n : Nat) : Nat := Nat.log 10 n + 1

/-- A number without its last digits, rounded half to even. -/
def halfEven (n digits : Nat) : Nat :=
  let quotient := n / 10 ^ digits
  let rest := n % 10 ^ digits
  if 10 ^ digits < 2 * rest ∨ (10 ^ digits = 2 * rest ∧ quotient % 2 = 1) then quotient + 1
  else quotient

/-- A result rounded to the context. -/
def fix (negative : Bool) (coefficient : Nat) (exponent : Int) : Except Signal Decimal :=
  if coefficient = 0 then .ok (.finite negative 0 (max etiny (min emax exponent)))
  else
    let least := max (exponent + numDigits coefficient - prec) etiny
    let rounded := if exponent < least then halfEven coefficient (least - exponent).toNat else coefficient
    let exponent := max exponent least
    let (rounded, exponent) := if numDigits rounded = prec + 1 then (rounded / 10, exponent + 1)
      else (rounded, exponent)
    if emax < exponent + numDigits rounded - 1 then .error .overflow
    else .ok (.finite negative rounded exponent)

def isNan : Decimal → Bool
  | .nan .. => true
  | _ => false

def isSignaling : Decimal → Bool
  | .nan true _ _ => true
  | _ => false

/-- A NaN as a result: the payload is cut to the precision. -/
def fixNan : Decimal → Decimal
  | .nan signaling negative payload => .nan signaling negative (payload % 10 ^ prec)
  | a => a

/-- An operand that is not a number: a signaling NaN signals, a quiet one is the result. -/
def propagate (operands : List Decimal) : Option (Except Signal Decimal) :=
  if operands.any isSignaling then some (.error .invalidOperation)
  else (operands.find? isNan).map fun a => .ok a.fixNan

/-- The sum of two finite decimals. -/
def addFinite (negative : Bool) (coefficient : Nat) (exponent : Int) (negative' : Bool)
    (coefficient' : Nat) (exponent' : Int) : Except Signal Decimal :=
  let least := min exponent exponent'
  let signed (negative : Bool) (coefficient : Nat) (exponent : Int) : Int :=
    (if negative then -1 else 1) * (coefficient * 10 ^ (exponent - least).toNat : Nat)
  let sum := signed negative coefficient exponent + signed negative' coefficient' exponent'
  let negativeSum := if sum = 0 then negative && negative' else decide (sum < 0)
  fix negativeSum sum.natAbs least

variable (a : Decimal)

variable (b : Decimal)

def add : Except Signal Decimal :=
  match propagate [a, b], a, b with
  | some result, _, _ => result
  | none, .infinity negative, .infinity negative' =>
    if negative = negative' then .ok a else .error .invalidOperation
  | none, .infinity _, _ => .ok a
  | none, _, .infinity _ => .ok b
  | none, .finite n c e, .finite n' c' e' => addFinite n c e n' c' e'
  | none, .nan .., _ | none, _, .nan .. => .error .invalidOperation

def flip : Decimal → Decimal
  | .finite negative coefficient exponent => .finite (!negative) coefficient exponent
  | .infinity negative => .infinity (!negative)
  | .nan signaling negative payload => .nan signaling (!negative) payload

/-- `a - b`; a NaN keeps its sign. -/
def sub : Except Signal Decimal :=
  match propagate [a, b] with
  | some result => result
  | none => add a b.flip

/-- `-a`: `0 - a`, in the context. -/
def neg : Except Signal Decimal :=
  match propagate [a], a with
  | some result, _ => result
  | none, .finite negative coefficient exponent =>
    fix (if coefficient = 0 then false else !negative) coefficient exponent
  | none, _ => .ok a.flip

def mul : Except Signal Decimal :=
  match propagate [a, b], a, b with
  | some result, _, _ => result
  | none, .finite n c e, .finite n' c' e' => fix (n ^^ n') (c * c') (e + e')
  | none, .infinity n, .finite n' c _ | none, .finite n' c _, .infinity n =>
    if c = 0 then .error .invalidOperation else .ok (.infinity (n ^^ n'))
  | none, .infinity n, .infinity n' => .ok (.infinity (n ^^ n'))
  | none, .nan .., _ | none, _, .nan .. => .error .invalidOperation

/-- The quotient of two coefficients, with one digit more than the context where it is inexact. -/
def divFinite (negative : Bool) (c : Nat) (e : Int) (c' : Nat) (e' : Int) : Except Signal Decimal :=
  if c = 0 then fix negative 0 (e - e')
  else
    let shift : Int := (numDigits c' : Int) - numDigits c + prec + 1
    let numerator := c * 10 ^ shift.toNat
    let denominator := c' * 10 ^ (-shift).toNat
    let quotient := numerator / denominator
    let sticky := if numerator % denominator ≠ 0 ∧ quotient % 5 = 0 then quotient + 1 else quotient
    fix negative sticky (e - e' - shift)

/-- `a / b` where `b` is not zero. -/
def div : Except Signal Decimal :=
  match propagate [a, b], a, b with
  | some result, _, _ => result
  | none, .finite n c e, .finite n' c' e' => divFinite (n ^^ n') c e c' e'
  | none, .infinity _, .infinity _ => .error .invalidOperation
  | none, .infinity n, .finite n' _ _ => .ok (.infinity (n ^^ n'))
  | none, .finite n _ _, .infinity n' => .ok (.finite (n ^^ n') 0 etiny)
  | none, .nan .., _ | none, _, .nan .. => .error .invalidOperation

/-- `a ** n`, correctly rounded. -/
def pow (n : Int) : Except Signal Decimal :=
  match propagate [a], a with
  | some result, _ => result
  | none, .finite negative coefficient exponent =>
    let negative := negative && decide (n % 2 = 1)
    if coefficient = 0 then
      if n = 0 then .error .invalidOperation
      else if n < 0 then .ok (.infinity negative)
      else .ok (.finite negative 0 0)
    else if 0 ≤ n then fix negative (coefficient ^ n.toNat) (exponent * n)
    else divFinite negative 1 0 (coefficient ^ n.natAbs) (exponent * n.natAbs)
  | none, .infinity negative =>
    if n = 0 then .ok (ofNat 1)
    else if n < 0 then .ok (.finite (negative && decide (n % 2 = 1)) 0 0)
    else .ok (.infinity (negative && decide (n % 2 = 1)))
  | none, .nan .. => .error .invalidOperation

/-- The order of two decimals that are numbers. -/
def lessThan : Decimal → Decimal → Bool
  | .infinity negative, b => negative && decide (b ≠ .infinity true)
  | a, .infinity negative => !negative && decide (a ≠ .infinity false)
  | a, b => decide (a.value < b.value)

/-- `a < b`; a NaN has no order. -/
def lt : Except Signal Bool :=
  if a.isNan || b.isNan then .error .invalidOperation else .ok (a.lessThan b)

def le : Except Signal Bool :=
  if a.isNan || b.isNan then .error .invalidOperation else .ok (!b.lessThan a)

/-- `a == b`; a quiet NaN equals nothing. -/
def eq : Except Signal Bool :=
  if a.isSignaling || b.isSignaling then .error .invalidOperation
  else if a.isNan || b.isNan then .ok false
  else .ok (!a.lessThan b && !b.lessThan a)

def truthy : Decimal → Bool
  | .finite _ coefficient _ => decide (coefficient ≠ 0)
  | _ => true

/-- What `int` raises. -/
inductive IntFault where
  | overflowError | valueError

/-- `int(a)`, which drops the digits behind the point. -/
def toInt : Decimal → Except IntFault Int
  | .finite negative coefficient exponent =>
    let whole := coefficient * 10 ^ exponent.toNat / 10 ^ (-exponent).toNat
    .ok (if negative then -(whole : Int) else whole)
  | .infinity _ => .error .overflowError
  | .nan .. => .error .valueError

/-- A number without its last digits, rounded half up. -/
def halfUp (n digits : Nat) : Nat :=
  if 10 ^ digits ≤ 2 * (n % 10 ^ digits) then n / 10 ^ digits + 1 else n / 10 ^ digits

/-- `a.quantize(Decimal(1).scaleb(-places), rounding=ROUND_HALF_UP)`. -/
def quantize (places : Int) : Except Signal Decimal :=
  match propagate [a], a with
  | some result, _ => result
  | none, .finite negative coefficient exponent =>
    let rounded := if -places ≤ exponent then coefficient * 10 ^ (exponent + places).toNat
      else halfUp coefficient (-places - exponent).toNat
    if prec < numDigits rounded then .error .invalidOperation
    else .ok (.finite negative rounded (-places))
  | none, _ => .error .invalidOperation

/-- A coefficient without its trailing zeros. -/
def stripZeros : Nat → Nat → Int → Nat × Int
  | 0, coefficient, exponent => (coefficient, exponent)
  | steps + 1, coefficient, exponent =>
    if coefficient ≠ 0 ∧ coefficient % 10 = 0 then stripZeros steps (coefficient / 10) (exponent + 1)
    else (coefficient, exponent)

def normalize : Except Signal Decimal :=
  match propagate [a], a with
  | some result, _ => result
  | none, .finite negative coefficient exponent =>
    (fix negative coefficient exponent).map fun
      | .finite negative 0 _ => .finite negative 0 0
      | .finite negative coefficient exponent =>
        let (coefficient, exponent) := stripZeros (numDigits coefficient) coefficient exponent
        .finite negative coefficient exponent
      | other => other
  | none, _ => .ok a

/-- `format(a, "f")`. -/
def fixed : Decimal → String
  | .finite negative coefficient exponent =>
    let digits := Nat.toDigits 10 coefficient
    let body := if 0 ≤ exponent then digits ++ List.replicate exponent.toNat '0'
      else
        let places := (-exponent).toNat
        let padded := List.replicate (places + 1 - digits.length) '0' ++ digits
        padded.take (padded.length - places) ++ '.' :: padded.drop (padded.length - places)
    String.ofList (if negative then '-' :: body else body)
  | .infinity negative => if negative then "-Infinity" else "Infinity"
  | .nan signaling negative payload =>
    (if negative then "-" else "") ++ (if signaling then "sNaN" else "NaN") ++
      (if payload = 0 then "" else toString payload)

section Text

variable (u : Unicode)

/-- `digits [. digits] [e exponent]`, where the exponent stays in the range of the type. -/
def ofMagnitude (negative : Bool) (text : List Char) : Option Decimal := do
  let isE := fun c => c == 'e' || c == 'E'
  let mantissa := text.takeWhile (!isE ·)
  let e ← match text.dropWhile (!isE ·) with
    | [] => some 0
    | _ :: rest => Python.exponent u rest
  let whole ← digits u (mantissa.takeWhile (· != '.'))
  let fraction ← digits u ((mantissa.dropWhile (· != '.')).drop 1)
  if whole.isEmpty && fraction.isEmpty then none
  else
    let coefficient := ofDigits (whole ++ fraction)
    let exponent := e - fraction.length
    let adjusted := if coefficient = 0 then exponent else exponent + numDigits coefficient - 1
    if maxEmax < adjusted ∨ exponent < minEtiny then none
    else some (.finite negative coefficient exponent)

/-- A NaN may carry a payload of digits and may be signaling. -/
def ofNan (negative : Bool) (text : List Char) : Option Decimal :=
  let signaling := decide (text.head? = some 's')
  let body := if signaling then text.drop 1 else text
  if body.take 3 = ['n', 'a', 'n'] then
    (digits u (body.drop 3)).map fun payload => .nan signaling negative (ofDigits payload)
  else none

/-- `Decimal(text)`; none where it raises `InvalidOperation`. -/
def ofText (text : String) : Option Decimal :=
  let (negative, body) := sign ((Python.strip u text.toList).filter (· != '_'))
  let lower := body.map Char.toLower
  if String.ofList lower = "inf" ∨ String.ofList lower = "infinity" then some (.infinity negative)
  else match ofNan u negative lower with
    | some result => some result
    | none => ofMagnitude u negative body

end Text

section Order

variable {x : Decimal}

theorem lessThan_finite (hx : x.isFinite = true) (hy : y.isFinite = true) :
    x.lessThan y = decide (x.value < y.value) := by
  cases x with
  | finite =>
    cases y with
    | finite => rfl
    | _ => cases hy
  | _ => cases hx

theorem isNan_of_finite (hx : x.isFinite = true) : x.isNan = false ∧ x.isSignaling = false := by
  cases x with
  | finite => exact ⟨rfl, rfl⟩
  | _ => cases hx

theorem lt_finite (hx : x.isFinite = true) (hy : y.isFinite = true) :
    x.lt y = .ok (decide (x.value < y.value)) := by
  simp [lt, isNan_of_finite hx, isNan_of_finite hy, lessThan_finite hx hy]

theorem le_finite (hx : x.isFinite = true) (hy : y.isFinite = true) :
    x.le y = .ok (decide (x.value ≤ y.value)) := by
  simp [le, isNan_of_finite hx, isNan_of_finite hy, lessThan_finite hy hx, ← decide_not]

theorem eq_finite (hx : x.isFinite = true) (hy : y.isFinite = true) :
    x.eq y = .ok (decide (x.value = y.value)) := by
  have heq : (!x.lessThan y && !y.lessThan x) = decide (x.value = y.value) := by
    rw [lessThan_finite hx hy, lessThan_finite hy hx]
    rcases lt_trichotomy x.value y.value with hlt | heq | hgt
    · simp [hlt, hlt.ne]
    · simp [heq]
    · simp [hgt, hgt.ne']
  simp [eq, isNan_of_finite hx, isNan_of_finite hy, heq]

end Order

def toIntegralValue : Decimal → Decimal
  | .finite negative coefficient exponent =>
    if 0 ≤ exponent then .finite negative coefficient exponent
    else .finite negative (halfEven coefficient (-exponent).toNat) 0
  | other => other

/-- `a == a.to_integral_value()` of a finite decimal. -/
def whole (a : Decimal) : Bool := decide (a.value = a.toIntegralValue.value)

/-- A number that the context holds as it is. -/
def Fits (q : ℚ) : Prop :=
  ∃ (coefficient : Nat) (exponent : Int), coefficient < 10 ^ prec ∧ etiny ≤ exponent ∧
    q = coefficient * (10 : ℚ) ^ exponent

section Rounding

variable {coefficient : Nat} {exponent : Int}

theorem lt_pow_numDigits (n : Nat) : n < 10 ^ numDigits n := Nat.lt_pow_succ_log_self (by decide) n

theorem numDigits_le {n digits : Nat} (hpos : 0 < digits) (h : n < 10 ^ digits) : numDigits n ≤ digits := by
  have hlog := Nat.log_lt_of_lt_pow' (b := 10) (by omega) h
  unfold numDigits
  omega

theorem halfEven_of_dvd {n digits : Nat} (h : 10 ^ digits ∣ n) : halfEven n digits = n / 10 ^ digits := by
  have hrest : n % 10 ^ digits = 0 := Nat.mod_eq_zero_of_dvd h
  have hpos : 0 < 10 ^ digits := Nat.pow_pos (by decide)
  simp only [halfEven, hrest]
  rw [if_neg]
  omega

theorem halfEven_le (n digits : Nat) : halfEven n digits ≤ n / 10 ^ digits + 1 := by
  unfold halfEven
  dsimp only
  split <;> omega

theorem shift_pow (n : Nat) {e least : Int} (h : e ≤ least) :
    ((n * 10 ^ (least - e).toNat : Nat) : ℚ) * (10 : ℚ) ^ e = n * (10 : ℚ) ^ least := by
  have hadd : least = ((least - e).toNat : Int) + e := by omega
  conv_rhs => rw [hadd, zpow_add₀ (by norm_num)]
  push_cast
  rw [zpow_natCast]
  ring

/-- The least exponent that a result with this coefficient can have. -/
def leastExponent (coefficient : Nat) (exponent : Int) : Int :=
  max (exponent + numDigits coefficient - prec) etiny

/-- The digits that a result keeps, before a carry. -/
def kept (coefficient : Nat) (exponent : Int) : Nat :=
  if exponent < leastExponent coefficient exponent then
    halfEven coefficient (leastExponent coefficient exponent - exponent).toNat
  else coefficient

theorem fix_ok (hne : coefficient ≠ 0) (h : fix negative coefficient exponent = .ok d) :
    numDigits (kept coefficient exponent) ≠ prec + 1 ∧ d = .finite negative
        (kept coefficient exponent) (max exponent (leastExponent coefficient exponent)) ∨
      numDigits (kept coefficient exponent) = prec + 1 ∧ d = .finite negative
        (kept coefficient exponent / 10) (max exponent (leastExponent coefficient exponent) + 1) := by
  rw [fix, if_neg hne] at h
  have h : (match (if numDigits (kept coefficient exponent) = prec + 1 then
      (kept coefficient exponent / 10, max exponent (leastExponent coefficient exponent) + 1)
      else (kept coefficient exponent, max exponent (leastExponent coefficient exponent))) with
    | (rounded, exponent) =>
      if emax < exponent + numDigits rounded - 1 then (.error .overflow : Except Signal Decimal)
      else .ok (.finite negative rounded exponent)) = .ok d := h
  by_cases hcarry : numDigits (kept coefficient exponent) = prec + 1
  · right
    rw [if_pos hcarry] at h
    dsimp only at h
    split at h
    · cases h
    · exact ⟨hcarry, (Except.ok.inj h).symm⟩
  · left
    rw [if_neg hcarry] at h
    dsimp only at h
    split at h
    · cases h
    · exact ⟨hcarry, (Except.ok.inj h).symm⟩

theorem cut_lt {digits : Nat} (h : numDigits coefficient ≤ prec + digits) :
    coefficient / 10 ^ digits < 10 ^ prec := by
  apply Nat.div_lt_of_lt_mul
  rw [← Nat.pow_add, Nat.add_comm]
  exact (lt_pow_numDigits coefficient).trans_le (Nat.pow_le_pow_right (by decide) h)

theorem numDigits_le_shift (h : exponent < leastExponent coefficient exponent) :
    numDigits coefficient ≤ prec + (leastExponent coefficient exponent - exponent).toNat := by
  unfold leastExponent at h ⊢
  omega

theorem numDigits_le_prec (h : ¬exponent < leastExponent coefficient exponent) :
    numDigits coefficient ≤ prec := by
  unfold leastExponent at h
  omega

/-- What a result keeps of a number that fits are all its digits. -/
theorem kept_exact (hne : coefficient ≠ 0) (hfits : Fits (coefficient * (10 : ℚ) ^ exponent)) :
    kept coefficient exponent < 10 ^ prec ∧
      (kept coefficient exponent : ℚ) * 10 ^ max exponent (leastExponent coefficient exponent) =
        coefficient * (10 : ℚ) ^ exponent := by
  by_cases hlt : exponent < leastExponent coefficient exponent
  · obtain ⟨m, j, hm, hj, heq⟩ := hfits
    have hdvd : 10 ^ (leastExponent coefficient exponent - exponent).toNat ∣ coefficient := by
      by_cases hle : exponent ≤ j
      · have hwhole : coefficient = m * 10 ^ (j - exponent).toNat := by
          have hshift := shift_pow m hle
          rw [← heq] at hshift
          have hten : (10 : ℚ) ^ exponent ≠ 0 := by positivity
          exact_mod_cast (mul_right_cancel₀ hten hshift).symm
        apply Dvd.dvd.trans (Nat.pow_dvd_pow 10 _) (Dvd.intro_left m hwhole.symm)
        have hbound : 10 ^ (numDigits coefficient - 1) < 10 ^ (prec + (j - exponent).toNat) := by
          calc 10 ^ (numDigits coefficient - 1) ≤ coefficient := by
                simpa [numDigits] using Nat.pow_log_le_self 10 hne
            _ = m * 10 ^ (j - exponent).toNat := hwhole
            _ < 10 ^ prec * 10 ^ (j - exponent).toNat :=
                Nat.mul_lt_mul_of_pos_right hm (Nat.pow_pos (by decide))
            _ = 10 ^ (prec + (j - exponent).toNat) := (Nat.pow_add 10 _ _).symm
        have hdigits := (Nat.pow_lt_pow_iff_right (by decide)).mp hbound
        unfold leastExponent
        omega
      · have hwhole : m = coefficient * 10 ^ (exponent - j).toNat := by
          have hshift := shift_pow coefficient (show j ≤ exponent by omega)
          rw [heq] at hshift
          have hten : (10 : ℚ) ^ j ≠ 0 := by positivity
          exact_mod_cast (mul_right_cancel₀ hten hshift).symm
        have hlarge : prec < numDigits coefficient := by
          unfold leastExponent at hlt
          omega
        have hsmall : coefficient < 10 ^ prec := by
          calc coefficient ≤ coefficient * 10 ^ (exponent - j).toNat :=
                Nat.le_mul_of_pos_right _ (Nat.pow_pos (by decide))
            _ = m := hwhole.symm
            _ < 10 ^ prec := hm
        have := numDigits_le (by decide) hsmall
        omega
    rw [kept, if_pos hlt, halfEven_of_dvd hdvd, max_eq_right hlt.le]
    refine ⟨cut_lt (numDigits_le_shift hlt), ?_⟩
    rw [← shift_pow _ hlt.le, Nat.div_mul_cancel hdvd]
  · rw [kept, if_neg hlt, max_eq_left (not_lt.mp hlt)]
    refine ⟨?_, rfl⟩
    exact (lt_pow_numDigits coefficient).trans_le
      (Nat.pow_le_pow_right (by decide) (numDigits_le_prec hlt))

/-- Rounding keeps what fits. -/
theorem fix_exact (hfits : Fits (coefficient * (10 : ℚ) ^ exponent))
    (h : fix false coefficient exponent = .ok d) : d.value = coefficient * (10 : ℚ) ^ exponent := by
  by_cases hne : coefficient = 0
  · rw [fix, if_pos hne] at h
    cases h
    simp [value, hne]
  · obtain ⟨hlt, hvalue⟩ := kept_exact hne hfits
    rcases fix_ok hne h with ⟨-, rfl⟩ | ⟨hcarry, -⟩
    · simpa [value] using hvalue
    · have := numDigits_le (by decide) hlt
      omega

/-- A result fits. -/
theorem fix_fits (h : fix negative coefficient exponent = .ok d) :
    ∃ coefficient' exponent', d = .finite negative coefficient' exponent' ∧
      coefficient' < 10 ^ prec ∧ etiny ≤ exponent' := by
  by_cases hne : coefficient = 0
  · rw [fix, if_pos hne] at h
    cases h
    exact ⟨0, _, rfl, by decide, le_max_left _ _⟩
  · have hleast : etiny ≤ max exponent (leastExponent coefficient exponent) :=
      (le_max_right _ _).trans (le_max_right _ _)
    have hkept : kept coefficient exponent ≤ 10 ^ prec := by
      by_cases hlt : exponent < leastExponent coefficient exponent
      · rw [kept, if_pos hlt]
        have hle := halfEven_le coefficient (leastExponent coefficient exponent - exponent).toNat
        have hcut := cut_lt (numDigits_le_shift hlt)
        omega
      · rw [kept, if_neg hlt]
        exact ((lt_pow_numDigits coefficient).trans_le
          (Nat.pow_le_pow_right (by decide) (numDigits_le_prec hlt))).le
    rcases fix_ok hne h with ⟨hdigits, rfl⟩ | ⟨-, rfl⟩
    · refine ⟨_, _, rfl, lt_of_le_of_ne hkept ?_, hleast⟩
      intro heq
      rw [heq, numDigits, Nat.log_pow (by decide)] at hdigits
      exact hdigits rfl
    · refine ⟨_, _, rfl, ?_, by omega⟩
      unfold prec at *
      omega

/-- A whole number that is not zero does not round to zero. -/
theorem fix_ne_zero (hint : ∃ n : ℤ, (finite false coefficient exponent).value = n)
    (hne : (finite false coefficient exponent).value ≠ 0)
    (h : fix false coefficient exponent = .ok d) : d.value ≠ 0 := by
  obtain ⟨n, hn⟩ := hint
  have hzero : coefficient ≠ 0 := by
    rintro rfl
    simp [value] at hne
  have hone : 1 ≤ (coefficient : ℚ) * 10 ^ exponent := by
    have hpos : 0 < (coefficient : ℚ) * 10 ^ exponent := by positivity
    have hvalue : (coefficient : ℚ) * 10 ^ exponent = n := by simpa [value] using hn
    rw [hvalue] at hpos ⊢
    exact_mod_cast hpos
  have hsize : 0 < exponent + numDigits coefficient := by
    by_contra hsmall
    have hlt : (coefficient : ℚ) < 10 ^ numDigits coefficient := by exact_mod_cast lt_pow_numDigits coefficient
    have hless : (coefficient : ℚ) * 10 ^ exponent < 1 := by
      calc (coefficient : ℚ) * 10 ^ exponent < 10 ^ (numDigits coefficient : ℤ) * 10 ^ exponent := by
            rw [zpow_natCast]
            gcongr
        _ = 10 ^ (numDigits coefficient + exponent) := (zpow_add₀ (by norm_num) _ _).symm
        _ ≤ 1 := zpow_le_one_of_nonpos₀ (by norm_num) (by omega)
    exact absurd hone (not_le.mpr hless)
  have hkept : 0 < kept coefficient exponent := by
    unfold kept
    split
    · rename_i hlt
      have hdigits : (leastExponent coefficient exponent - exponent).toNat ≤ numDigits coefficient - 1 := by
        unfold leastExponent prec etiny at hlt ⊢
        omega
      have hle : 10 ^ (leastExponent coefficient exponent - exponent).toNat ≤ coefficient := by
        apply (Nat.pow_le_pow_right (by decide) hdigits).trans
        simpa [numDigits] using Nat.pow_log_le_self 10 hzero
      have hcut := Nat.div_pos hle (Nat.pow_pos (by decide))
      have hround : coefficient / 10 ^ (leastExponent coefficient exponent - exponent).toNat ≤
          halfEven coefficient (leastExponent coefficient exponent - exponent).toNat := by
        unfold halfEven
        dsimp only
        split <;> omega
      omega
    · exact Nat.pos_of_ne_zero hzero
  rcases fix_ok hzero h with ⟨-, rfl⟩ | ⟨hcarry, rfl⟩
  · simp only [value, Bool.false_eq_true, if_false]
    positivity
  have hlarge : 0 < kept coefficient exponent / 10 := by
    by_contra hsmall
    have hten : kept coefficient exponent < 10 ^ 1 := by omega
    have := numDigits_le (by decide) hten
    unfold prec at hcarry
    omega
  simp only [value, Bool.false_eq_true, if_false]
  positivity

theorem stripZeros_value (steps : Nat) : ((stripZeros steps coefficient exponent).1 : ℚ) *
      (10 : ℚ) ^ (stripZeros steps coefficient exponent).2 = coefficient * (10 : ℚ) ^ exponent := by
  induction steps generalizing coefficient exponent with
  | zero => rfl
  | succ steps ih =>
    rw [stripZeros]
    split
    · rename_i hdivides
      rw [ih, zpow_add₀ (by norm_num), zpow_one]
      have hten : (coefficient : ℚ) = (coefficient / 10 : Nat) * 10 := by
        exact_mod_cast (Nat.div_mul_cancel (Nat.dvd_of_mod_eq_zero hdivides.2)).symm
      rw [hten]
      ring
    · rfl

/-- `normalize` rounds, and keeps the number that is left. -/
theorem normalize_ok (h : normalize (.finite negative coefficient exponent) = .ok d) :
    ∃ rounded, fix negative coefficient exponent = .ok rounded ∧ d.value = rounded.value ∧
      ∃ coefficient' exponent', d = .finite negative coefficient' exponent' := by
  simp only [normalize, propagate, List.any_cons, isSignaling, List.any_nil, Bool.or_self,
    Bool.false_eq_true, if_false, List.find?_cons, isNan, List.find?_nil, Option.map_none] at h
  cases hfix : fix negative coefficient exponent with
  | error e => simp [hfix, Except.map] at h
  | ok rounded =>
    obtain ⟨m, j, rfl, -, -⟩ := fix_fits hfix
    rw [hfix] at h
    refine ⟨_, rfl, ?_⟩
    cases h
    cases m with
    | zero => simp [value]
    | succ m =>
      simp only [value, mul_assoc, stripZeros_value]
      exact ⟨trivial, _, _, rfl⟩

theorem Fits.scale (h : Fits q) : Fits (q * 10 ^ n) := by
  obtain ⟨m, j, hm, hj, rfl⟩ := h
  refine ⟨m, j + n, hm, by omega, ?_⟩
  rw [zpow_add₀ (by norm_num), zpow_natCast]
  ring

theorem fits_result (h : fix false coefficient exponent = .ok d) : Fits d.value := by
  obtain ⟨m, j, rfl, hm, hj⟩ := fix_fits h
  exact ⟨m, j, hm, hj, by simp [value]⟩

/-- `Decimal(10) ** n` is exact. -/
theorem pow_ten (hn : 0 ≤ n) (h : (ofNat 10).pow n = .ok d) :
    d.value = 10 ^ n.toNat ∧ ∃ coefficient exponent, d = .finite false coefficient exponent := by
  have hpow : fix false (10 ^ n.toNat) 0 = .ok d := by
    simpa [pow, propagate, ofNat, isSignaling, isNan, hn] using h
  obtain ⟨m, j, hd, -, -⟩ := fix_fits hpow
  refine ⟨?_, m, j, hd⟩
  rw [fix_exact ⟨1, n.toNat, by decide, by unfold etiny; omega, by push_cast; rw [← zpow_natCast]; simp⟩ hpow]
  simp

theorem mul_exact
    (hfits : Fits ((finite false coefficient exponent).value * (finite false coefficient' exponent').value))
    (h : (finite false coefficient exponent).mul (.finite false coefficient' exponent') = .ok d) :
    d.value = (finite false coefficient exponent).value * (finite false coefficient' exponent').value := by
  have hmul : fix false (coefficient * coefficient') (exponent + exponent') = .ok d := by
    simpa [mul, propagate, isSignaling, isNan] using h
  have heq : (finite false coefficient exponent).value * (finite false coefficient' exponent').value =
      (coefficient * coefficient' : Nat) * (10 : ℚ) ^ (exponent + exponent') := by
    simp only [value, Bool.false_eq_true, if_false]
    rw [zpow_add₀ (by norm_num)]
    push_cast
    ring
  rw [heq] at hfits ⊢
  exact fix_exact hfits hmul

theorem isFinite_of_mul
    (h : (finite false coefficient exponent).mul (.finite false coefficient' exponent') = .ok d) :
    ∃ coefficient exponent, d = .finite false coefficient exponent := by
  have hmul : fix false (coefficient * coefficient') (exponent + exponent') = .ok d := by
    simpa [mul, propagate, isSignaling, isNan] using h
  obtain ⟨m, j, hd, -, -⟩ := fix_fits hmul
  exact ⟨m, j, hd⟩

theorem int_of_whole (h : (finite negative coefficient exponent).whole = true) :
    ∃ n : ℤ, (finite negative coefficient exponent).value = n := by
  have hint : ∀ m : Nat, ∃ n : ℤ, (if negative then -1 else 1) * (m : ℚ) = n := by
    intro m
    cases negative
    · exact ⟨m, by simp⟩
    · exact ⟨-m, by simp⟩
  have heq := of_decide_eq_true h
  rw [toIntegralValue] at heq
  split at heq
  · rename_i hle
    obtain ⟨n, hn⟩ := hint (coefficient * 10 ^ exponent.toNat)
    refine ⟨n, ?_⟩
    rw [← hn, value]
    push_cast
    rw [mul_assoc, ← zpow_natCast, Int.toNat_of_nonneg hle]
  · obtain ⟨n, hn⟩ := hint (halfEven coefficient (-exponent).toNat)
    refine ⟨n, ?_⟩
    rw [heq, ← hn]
    simp [value]

end Rounding

end Decimal

end FlowHub.Python
