import FlowHub.Domain
import FlowHub.Python.Natural

namespace FlowHub.PricingWorkspace

open Python List

def maxNumericDigits : Nat := 100
def maxNumericScale : Nat := 18

/-- What `trim` takes off. -/
def isWhiteSpace (c : Char) : Bool :=
  decide (c.toNat ∈ [9, 10, 11, 12, 13, 32, 0xA0, 0x1680, 0x2028, 0x2029, 0x202F, 0x205F, 0x3000,
    0xFEFF]) || decide (0x2000 ≤ c.toNat ∧ c.toNat ≤ 0x200A)

def trim (text : String) : List Char :=
  ((text.toList.dropWhile isWhiteSpace).reverse.dropWhile isWhiteSpace).reverse

/-- `/^(\d+)(?:\.(\d+))?$/`. -/
def unsigned (text : List Char) : Option (List Char × List Char) :=
  let whole := text.takeWhile Char.isDigit
  match text.dropWhile Char.isDigit with
  | [] => if whole.isEmpty then none else some (whole, [])
  | '.' :: fraction =>
    if whole.isEmpty || fraction.isEmpty || !fraction.all Char.isDigit then none
    else some (whole, fraction)
  | _ => none

/-- A number `coefficient / 10 ^ scale`. -/
structure Decimal where
  coefficient : ℤ
  scale : ℕ

def natural (digits : List Char) : ℕ := Nat.ofDigitChars 10 digits 0

def parseDecimal (value : String) : Option Decimal :=
  let (negative, body) := sign value.toList
  match unsigned body with
  | none => none
  | some (whole, fraction) =>
    if maxNumericDigits < whole.length + fraction.length ∨ maxNumericScale < fraction.length then none
    else
      let n : ℤ := natural (whole ++ fraction)
      some ⟨if negative then -n else n, fraction.length⟩

def Decimal.scaled (x : Decimal) (scale : ℕ) : ℤ := x.coefficient * 10 ^ (scale - x.scale)

def decimalEqual (left right : Decimal) : Bool :=
  let scale := max left.scale right.scale
  decide (left.scaled scale = right.scaled scale)

/-- `valuesEqual`: numbers by their value where both are read, and texts otherwise. -/
def valuesEqual (left right : Option String) (field : Field) : Bool :=
  let leftText := left.getD ""
  let rightText := right.getD ""
  match field, parseDecimal leftText, parseDecimal rightText with
  | .status, _, _ => decide (leftText = rightText)
  | _, some x, some y => decimalEqual x y
  | _, _, _ => decide (leftText = rightText)

/-- A target that the field takes. -/
def inputValid (field : Field) (target : String) : Bool :=
  let trimmed := trim target
  match field with
  | .status => !trimmed.isEmpty
  | .stock => !trimmed.isEmpty && trimmed.all Char.isDigit
  | .price => (unsigned trimmed).isSome

def addDecimal (left right : Decimal) : Decimal :=
  let scale := max left.scale right.scale
  ⟨left.scaled scale + right.scaled scale, scale⟩

def multiplyDecimal (left right : Decimal) : Decimal :=
  ⟨left.coefficient * right.coefficient, left.scale + right.scale⟩

/-- Halves are rounded away from zero. -/
def roundDecimal (value : Decimal) (scale : ℕ) : Decimal :=
  if value.scale ≤ scale then ⟨value.scaled scale, scale⟩
  else
    let divisor : ℤ := 10 ^ (value.scale - scale)
    let quotient := value.coefficient.tdiv divisor
    let remainder := value.coefficient.tmod divisor
    if remainder < 0 then ⟨quotient - if divisor ≤ remainder * -2 then 1 else 0, scale⟩
    else ⟨quotient + if divisor ≤ remainder * 2 then 1 else 0, scale⟩

def formatDecimal (value : Decimal) : String :=
  let minus := if value.coefficient < 0 then "-" else ""
  let text := Nat.toDigits 10 value.coefficient.natAbs
  let digits := List.replicate (value.scale + 1 - text.length) '0' ++ text
  let whole := digits.take (digits.length - value.scale)
  let fraction := ((digits.drop (digits.length - value.scale)).reverse.dropWhile (· == '0')).reverse
  minus ++ String.ofList (whole ++ if fraction.isEmpty then [] else '.' :: fraction)

def Decimal.value (x : Decimal) : ℚ := x.coefficient / 10 ^ x.scale

theorem Decimal.value_scaled {x : Decimal} {scale : ℕ} (h : x.scale ≤ scale) :
    (x.scaled scale : ℚ) = x.value * 10 ^ scale := by
  obtain ⟨more, rfl⟩ := Nat.exists_eq_add_of_le h
  have hne : (10 : ℚ) ^ x.scale ≠ 0 := pow_ne_zero _ (by norm_num)
  have hmore : x.scale + more - x.scale = more := by omega
  rw [Decimal.scaled, Decimal.value, hmore, pow_add]
  push_cast
  field_simp

/-- The scales that two numbers are written with do not matter. -/
theorem decimalEqual_iff {left right : Decimal} :
    decimalEqual left right = true ↔ left.value = right.value := by
  have hpos : (10 : ℚ) ^ max left.scale right.scale ≠ 0 := pow_ne_zero _ (by norm_num)
  have hleft := Decimal.value_scaled (le_max_left left.scale right.scale)
  have hright := Decimal.value_scaled (le_max_right left.scale right.scale)
  rw [decimalEqual, decide_eq_true_eq, ← @Int.cast_inj ℚ, hleft, hright]
  exact mul_left_inj' hpos

theorem takeWhile_digits {text : List Char} : ∀ c ∈ text.takeWhile Char.isDigit, c.isDigit = true :=
  fun _ hc => mem_takeWhile_imp hc

theorem unsigned_positional
    (h : unsigned text = some (whole, fraction)) : Positional text whole fraction := by
  have hcut : text = text.takeWhile Char.isDigit ++ text.dropWhile Char.isDigit :=
    takeWhile_append_dropWhile.symm
  simp only [unsigned] at h
  split at h
  · rename_i hrest
    split at h
    · cases h
    rename_i hne
    cases h
    rw [hrest] at hcut
    exact ⟨hcut, by simpa using hne, takeWhile_digits, by simp⟩
  · rename_i rest hrest
    split at h
    · cases h
    rename_i hparts
    cases h
    simp only [Bool.or_eq_true, List.isEmpty_iff, Bool.not_eq_true', not_or,
      Bool.not_eq_false, all_eq_true] at hparts
    obtain ⟨⟨hwhole, hfraction⟩, hdigits⟩ := hparts
    rw [hrest] at hcut
    exact ⟨by simpa [hfraction] using hcut, hwhole, takeWhile_digits, hdigits⟩
  · cases h

theorem parseDecimal_some (h : parseDecimal value = some d) :
    ∃ negative text whole fraction, sign value.toList = (negative, text) ∧ Positional text whole fraction ∧
      d.value = (let q := (Nat.ofDigitChars 10 (whole ++ fraction) 0 : ℚ) / 10 ^ fraction.length
        if negative then -q else q) := by
  cases hsign : sign value.toList with
  | mk negative text =>
    simp only [parseDecimal, hsign] at h
    cases hunsigned : unsigned text with
    | none => simp [hunsigned] at h
    | some parts =>
      obtain ⟨whole, fraction⟩ := parts
      simp only [hunsigned] at h
      split at h
      · cases h
      cases h
      refine ⟨negative, text, whole, fraction, rfl, unsigned_positional hunsigned, ?_⟩
      cases negative with
      | false => simp [Decimal.value, natural]
      | true => simp [Decimal.value, natural, neg_div]

example : valuesEqual (some "100") (some "100.00") .price = true := by decide +kernel

end FlowHub.PricingWorkspace
