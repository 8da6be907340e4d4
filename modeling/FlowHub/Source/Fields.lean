import FlowHub.Python.Decimal
import FlowHub.Python.Natural
import FlowHub.Source.Mapping

/-! The business meaning of one Source cell. -/
namespace FlowHub.Source

open Python

inductive AvailabilitySignal where
  | inStock | outOfStock
  deriving DecidableEq, Repr

def AvailabilitySignal.value : AvailabilitySignal → String
  | .inStock => "IN_STOCK"
  | .outOfStock => "OUT_OF_STOCK"

inductive SourceInstruction where
  | set | noInstruction | unavailable | unusable | invalid
  deriving DecidableEq, Repr

structure NormalizedSourceField where
  instruction : SourceInstruction
  rawLexeme : Option String
  target : Option String := none
  availabilitySignal : Option AvailabilitySignal := none
  reasonCode : Option String := none
  warningCode : Option String := none
  blockerCode : Option String := none
  fixApplied : Bool := false
  deriving DecidableEq

/-- `_decimal_text`, of a finite decimal. -/
def decimalText (value : Decimal) : Except Signal String :=
  if value.value ≠ 0 then value.normalize.map Decimal.fixed else .ok "0"

/-- The table of `str.maketrans`. -/
def translation : List (Char × Char) :=
  "۰۱۲۳۴۵۶۷۸۹٠١٢٣٤٥٦٧٨٩٫".toList.zip "01234567890123456789.".toList

def translate (text : List Char) : List Char := text.map fun c => (translation.lookup c).getD c

def rfind (text : List Char) (c : Char) : Int :=
  if c ∈ text then text.length - 1 - text.reverse.idxOf c else -1

variable (u : Unicode)

/-- `text.isdigit()`. -/
def isDigit (text : List Char) : Bool := !text.isEmpty && text.all u.isDigit

/-- The grammar of `_numeric_lexeme`, on a text with something in it. -/
def lexeme (text : List Char) : Except String (List Char) :=
  if 1 < text.count '.' ∨ '.' ∈ text ∧ ',' ∈ text ∧ rfind text '.' < rfind text ',' then
    .error "PRICE_MALFORMED"
  else
    let integer := text.takeWhile (· != '.')
    let separator := (text.dropWhile (· != '.')).take 1
    let fraction := (text.dropWhile (· != '.')).drop 1
    let groups := integer.splitOn ','
    let first := groups.headD []
    if ',' ∈ integer ∧ (first = [] ∨ 3 < first.length ∨
        ∃ group ∈ groups.tail, group.length ≠ 3 ∨ isDigit u group = false) then
      .error "PRICE_MALFORMED"
    else
      let integer := if ',' ∈ integer then groups.flatten else integer
      if ',' ∈ fraction ∨ isDigit u integer = false ∨
          separator ≠ [] ∧ (fraction = [] ∨ isDigit u fraction = false) then
        .error "PRICE_MALFORMED"
      else .ok (integer ++ if separator ≠ [] then '.' :: fraction else [])

variable (raw : Cell)

/-- `_numeric_lexeme`: nothing for a blank cell. -/
def numericLexeme : Except String (Option (List Char)) :=
  match raw with
  | .null => .ok none
  | .bool _ => .error "BOOLEAN_NOT_NUMERIC"
  | raw =>
    let text := strip u raw.str.toList
    if text = [] then .ok none else (lexeme u (translate text)).map some

def decimalFromLexeme : Except String (Option (List Char × Decimal)) := do
  match ← numericLexeme u raw with
  | none => .ok none
  | some lexeme =>
    match Decimal.ofText u (String.ofList lexeme) with
    | none => .error "PRICE_MALFORMED"
    | some value =>
      if value.isFinite then .ok (some (lexeme, value)) else .error "PRICE_NON_FINITE"

/-- `None if raw is None else str(raw).strip()`. -/
def rawLexeme : Option String :=
  match raw with
  | .null => none
  | raw => some (String.ofList (strip u raw.str.toList))

/-- The keyword arguments of `normalize_direct_price`. -/
structure PriceContract where
  (currency unit : Option String)
  monetaryPrecision : Option Int
  fixZeroDecimalPrices : Option Bool := none
  rawScaleAuthoritative : Bool := true
  mapped : Bool := true
  deriving DecidableEq

def upperText (value : Option String) : String := u.upper (canonicalText u (value.getD ""))

def PriceContract.isRialOrToman (contract : PriceContract) : Bool :=
  upperText u contract.currency == "IRR" &&
    decide (upperText u contract.unit ∈ ["RIAL", "TOMAN"])

/-- The precision, where currency and unit are declared as well. -/
def PriceContract.precision (contract : PriceContract) : Option Int :=
  if upperText u contract.currency = "" ∨ upperText u contract.unit = "" then none
  else contract.monetaryPrecision.filter fun precision => decide (0 ≤ precision)

def unavailable (rawLexeme : Option String) (reason : String) : NormalizedSourceField where
  instruction := .unavailable
  rawLexeme
  availabilitySignal := some .outOfStock
  reasonCode := some reason

def unusable (rawLexeme : Option String) (reason : String) : NormalizedSourceField where
  instruction := .unusable
  rawLexeme
  availabilitySignal := some .outOfStock
  reasonCode := some reason
  warningCode := some "UNUSABLE_MAPPED_PRICE"

def invalid (rawLexeme : Option String) (code : String) : NormalizedSourceField where
  instruction := .invalid
  rawLexeme
  reasonCode := some code
  blockerCode := some code

/-- A positive number under a declared contract. -/
def positivePrice (rawLexeme : Option String) (lexeme : List Char) (value : Decimal)
    (contract : PriceContract) (precision : Int) : Except Signal NormalizedSourceField :=
  if contract.isRialOrToman u then
    let effectiveFix := contract.fixZeroDecimalPrices.getD true
    let hasDecimalForm := decide ('.' ∈ lexeme)
    if !effectiveFix && hasDecimalForm && !contract.rawScaleAuthoritative then
      .ok (invalid rawLexeme "SOURCE_PRICE_LEXEME_UNVERIFIABLE")
    else if !value.whole then .ok (unusable rawLexeme "PRICE_FRACTION_NOT_ALLOWED")
    else if hasDecimalForm && !effectiveFix then
      .ok (unusable rawLexeme "PRICE_DECIMAL_LEXEME_NOT_ALLOWED")
    else do
      let target ← decimalText value
      .ok { instruction := .set, rawLexeme, target := some target, availabilitySignal := some .inStock,
            reasonCode := if hasDecimalForm then some "PRICE_ZERO_DECIMAL_FIXED" else none,
            fixApplied := hasDecimalForm }
  else do
    let scaleFactor ← (Decimal.ofNat 10).pow precision
    let scaled ← value.mul scaleFactor
    if !scaled.whole then .ok (unusable rawLexeme "PRICE_PRECISION_NOT_ALLOWED")
    else
      let target ← decimalText value
      .ok { instruction := .set, rawLexeme, target := some target, availabilitySignal := some .inStock }

def normalizeDirectPrice (contract : PriceContract) : Except Signal NormalizedSourceField :=
  if !contract.mapped then .ok { instruction := .noInstruction, rawLexeme := none }
  else
    let rawLexeme := rawLexeme u raw
    if rawLexeme.getD "" = "" then .ok (unavailable rawLexeme "PRICE_UNAVAILABLE_BLANK")
    else if u.casefold (rawLexeme.getD "") = "x" then
      .ok (unavailable rawLexeme "PRICE_UNAVAILABLE_X")
    else
      match decimalFromLexeme u raw with
      | .error failure => .ok (unusable rawLexeme failure)
      | .ok none => .ok (unusable rawLexeme "PRICE_NOT_NUMERIC")
      | .ok (some (lexeme, value)) =>
        if value.value = 0 then .ok (unavailable rawLexeme "PRICE_UNAVAILABLE_ZERO")
        else if value.value < 0 then .ok (unusable rawLexeme "PRICE_NEGATIVE")
        else
          match contract.precision u with
          | none => .ok (invalid rawLexeme "MONETARY_PRECISION_CONTRACT_MISSING")
          | some precision => positivePrice u rawLexeme lexeme value contract precision

def normalizeQuantity (mapped : Bool := true) : Except Signal NormalizedSourceField :=
  if !mapped then .ok { instruction := .noInstruction, rawLexeme := none }
  else
    let rawLexeme := rawLexeme u raw
    if rawLexeme.getD "" = "" then
      .ok { instruction := .noInstruction, rawLexeme, availabilitySignal := some .inStock }
    else
      match decimalFromLexeme u raw with
      | .error _ | .ok none => .ok (invalid rawLexeme "INVALID_QUANTITY")
      | .ok (some (_, value)) =>
        if value.value < 0 || !value.whole then .ok (invalid rawLexeme "INVALID_QUANTITY")
        else do
          let target ← decimalText value
          .ok { instruction := .set, rawLexeme, target := some target,
                availabilitySignal := some (if value.value = 0 then .outOfStock else .inStock) }

def normalizeStockStatus (mapped : Bool := true) : NormalizedSourceField :=
  if !mapped then { instruction := .noInstruction, rawLexeme := none }
  else
    let rawLexeme := rawLexeme u raw
    if rawLexeme.getD "" = "" then
      { instruction := .set, rawLexeme, target := some AvailabilitySignal.inStock.value,
        availabilitySignal := some .inStock }
    else if ',' ∈ (rawLexeme.getD "").toList then invalid rawLexeme "INVALID_STOCK_STATUS"
    else
      match decimalFromLexeme u raw with
      | .error _ | .ok none => invalid rawLexeme "INVALID_STOCK_STATUS"
      | .ok (some (_, value)) =>
        if value.value ≠ 0 ∧ value.value ≠ 1 then invalid rawLexeme "INVALID_STOCK_STATUS"
        else
          let signal := if value.value = 0 then AvailabilitySignal.outOfStock else .inStock
          { instruction := .set, rawLexeme, target := some signal.value, availabilitySignal := some signal }

/-- `resolve_availability`: the signal that wins, and the blockers. -/
def resolveAvailability (fields : List NormalizedSourceField) : Option AvailabilitySignal × List String :=
  let blockers := fields.filterMap (·.blockerCode)
  let signals : List (Option AvailabilitySignal) := fields.map (·.availabilitySignal)
  if blockers ≠ [] then (none, blockers)
  else if some .outOfStock ∈ signals then (some .outOfStock, [])
  else if some .inStock ∈ signals then (some .inStock, [])
  else (none, [])

example : (normalizeDirectPrice .ascii (.text " ۱۲,۵۰۰٫۵۰ ")
    { currency := some "EUR", unit := some "EUR", monetaryPrecision := some 2 }).map (·.target) =
      .ok (some "12500.5") := by decide +kernel

end FlowHub.Source
