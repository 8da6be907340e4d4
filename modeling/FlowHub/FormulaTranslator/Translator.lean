import FlowHub.Pattern
import FlowHub.PricingMatrix.Arithmetic
import FlowHub.Python.Text

namespace FlowHub.FormulaTranslator

open Pattern PricingMatrix Python

inductive FormulaTranslationStatus where
  | translated | reviewRequired | unsupported | quarantined
  deriving DecidableEq

inductive FormulaTranslationReason where
  | matchedSupported | reviewRequired | shapeUnsupported | unknownShape | brokenReference
  | anomalousFormula | semanticGap

inductive Shape where
  | a1 | a2 | a3 | a4 | a5 | a6 | a7 | a8 | a9 | a10 | a11 | a12 | a13
  deriving DecidableEq

/-- The shapes in the order of `_SHAPE_DEFINITIONS`. -/
def Shape.all : List Shape := [.a1, .a2, .a3, .a4, .a5, .a6, .a7, .a8, .a9, .a10, .a11, .a12, .a13]

/-- The payload of `_emit_pricing_rule`. -/
structure PricingRulePayload where
  rateMode : RateMode := .percentBp
  (basisReference rateReference : List Char)
  fixedAddendReference : Option (List Char) := none
  fixedAddendWhenNotNumber : Int := 0
  roundMode : RoundingMode := .floor
  roundStepMinor : Int
  surchargeMinor : Int := 0
  roundOrder : RoundOrder := .roundThenSurcharge
  scaleNumerator : Int := 1
  scaleDenominator : Int := 1
  deriving DecidableEq

inductive OutputPayload where
  | pricingRule (rule : PricingRulePayload)
  | basisSelection (startRef endRef : List Char)
  | empty
  deriving DecidableEq

structure FormulaTranslationOutcome where
  formulaShapeId : Option Shape
  translationStatus : FormulaTranslationStatus
  reasonCode : FormulaTranslationReason
  formula : List Char
  namedCaptures : Captures
  outputPayload : OutputPayload

def capturedText (captures : Captures) (name : String) : List Char := (captures.lookup name).getD []

def emitA1 (captures : Captures) : PricingRulePayload where
  basisReference := capturedText captures "basis_ref"
  rateReference := capturedText captures "rate_ref"
  fixedAddendReference := some (capturedText captures "addend_ref")
  roundStepMinor := 50000
  scaleNumerator := 1000000

def emitA2 (captures : Captures) : OutputPayload :=
  .basisSelection (capturedText captures "range_start") (capturedText captures "range_end")

def emitA3 (captures : Captures) : PricingRulePayload where
  basisReference := capturedText captures "basis_ref"
  rateReference := capturedText captures "rate_ref"
  roundStepMinor := 100000
  scaleNumerator := 1000

def emitA4 (captures : Captures) : PricingRulePayload where
  basisReference := capturedText captures "basis_ref"
  rateReference := capturedText captures "rate_ref"
  roundStepMinor := 100000
  surchargeMinor := 500000
  roundOrder := .roundThenSurcharge
  scaleNumerator := 1000

def emitA5 (captures : Captures) : PricingRulePayload where
  basisReference := capturedText captures "basis_ref"
  rateReference := capturedText captures "rate_ref"
  roundStepMinor := 100
  roundMode := .ceil

def emitA10 (captures : Captures) : PricingRulePayload := emitA3 captures

def emitA11 (captures : Captures) : PricingRulePayload where
  basisReference := capturedText captures "basis_ref"
  rateReference := capturedText captures "rate_ref"
  roundStepMinor := 100000
  surchargeMinor := 500000
  roundOrder := .surchargeThenRound
  scaleNumerator := 1000

def Shape.emit (captures : Captures) : Shape → OutputPayload
  | .a1 => .pricingRule (emitA1 captures)
  | .a2 => emitA2 captures
  | .a3 => .pricingRule (emitA3 captures)
  | .a4 => .pricingRule (emitA4 captures)
  | .a5 => .pricingRule (emitA5 captures)
  | .a10 => .pricingRule (emitA10 captures)
  | .a11 => .pricingRule (emitA11 captures)
  | .a6 | .a7 | .a8 | .a9 | .a12 | .a13 => .empty

def Shape.status : Shape → FormulaTranslationStatus
  | .a1 | .a2 | .a3 | .a4 | .a5 | .a10 | .a11 => .translated
  | .a7 => .unsupported
  | .a8 => .reviewRequired
  | .a6 | .a9 | .a12 | .a13 => .quarantined

def Shape.reason : Shape → FormulaTranslationReason
  | .a1 | .a2 | .a3 | .a4 | .a5 | .a10 | .a11 => .matchedSupported
  | .a6 => .semanticGap
  | .a7 => .shapeUnsupported
  | .a8 => .reviewRequired
  | .a9 | .a13 => .brokenReference
  | .a12 => .anomalousFormula

variable (u : Unicode)

/-- `\d+`. -/
def isDecimals (text : List Char) : Bool :=
  !text.isEmpty && text.all fun c => (u.decimal c).isSome

/-- `(?:\[\-?\d+\]|\d+)?`. -/
def isIndex : List Char → Bool
  | [] => true
  | '[' :: '-' :: rest => decide (rest.getLast? = some ']') && isDecimals u rest.dropLast
  | '[' :: rest => decide (rest.getLast? = some ']') && isDecimals u rest.dropLast
  | text => isDecimals u text

/-- `_CELL`: a row and a column. -/
def isCell : List Char → Bool
  | 'R' :: rest =>
    match rest.dropWhile (· != 'C') with
    | _ :: column => isIndex u (rest.takeWhile (· != 'C')) && isIndex u column
    | [] => false
  | _ => false

def text (literal : String) : Piece := .text literal.toList

/-- `_MARK_CROSS`, within its quotes: the sign itself, or its escape. -/
def markCross : Piece := .either ['\u274c'] "\\u274c".toList

def xlfnOptional (function : String) : List Piece :=
  [.either "_xlfn._xlws.".toList [], text function]

def Shape.pattern : Shape → List Piece
  | .a1 => [
    text "=IF(", .capture "guard_ref", text "=\"\",\"x\",IFERROR(FLOOR((",
    .capture "basis_ref", text "*(1+", .capture "rate_ref", text "/100)+IF(ISNUMBER(",
    .capture "addend_ref", text "),", .again "addend_ref", text ",0))*1000000,50000),\"x\"))"]
  | .a2 => text "=IFERROR(MIN(" :: xlfnOptional "FILTER" ++ [
    text "(", .capture "range_start", text ":", .capture "range_end", text ",",
    .again "range_start", text ":", .again "range_end", text "<>0),\"", markCross, text "\")"]
  | .a3 => [
    text "=IFERROR(FLOOR(", .capture "basis_ref", text "*(1+", .capture "rate_ref",
    text "/100)*1000,100000),\"", markCross, text "\")"]
  | .a4 => [
    text "=IFERROR(FLOOR(", .capture "basis_ref", text "*(1+", .capture "rate_ref",
    text "/100)*1000,100000)+500000,\"", markCross, text "\")"]
  | .a5 => [
    text "=IFERROR(ROUNDUP(", .capture "basis_ref", text "*(1+", .capture "rate_ref",
    text "/100),-2),\"", markCross, text "\")"]
  | .a6 => [
    text "=IF(", .capture "guard_ref", text "=\"\",\"x\",IFERROR(FLOOR(",
    .capture "multiplier_ref", text "*", .capture "basis_ref", text ",50000)/10,\"x\"))"]
  | .a7 => [
    text "=IFERROR(", .capture "numerator_ref", text "/", .capture "denominator_ref",
    text ",\"x\")"]
  | .a8 => [text "=", .capture "manual_ref"]
  | .a9 => [
    text "=IF(", .capture "guard_ref", text "=\"\",\"x\",IFERROR(FLOOR((", .capture "basis_ref",
    text "*(1+#REF!/100)+IF(ISNUMBER(#REF!),#REF!,0))*1000000,50000),\"x\"))"]
  | .a10 => [
    text "=IFERROR(FLOOR((", .capture "basis_ref", text "*(1+", .capture "rate_ref",
    text "/100)*1000),100000),\"", markCross, text "\")"]
  | .a11 => [
    text "=IFERROR(FLOOR((", .capture "basis_ref", text "*(1+", .capture "rate_ref",
    text "/100)*1000)+500000,100000),\"", markCross, text "\")"]
  | .a12 => text "=IFNA(MIN(" :: xlfnOptional "FILTER" ++ [
    text "(", .capture "range_start", text ":", .capture "range_end", text ",",
    .again "range_start", text ":", .again "range_end", text "<>0),\"", markCross, text "\")"]
  | .a13 => [
    text "=IFERROR(FLOOR((#REF!*(1+", .capture "rate_ref", text "/100)*1000),100000),\"",
    markCross, text "\")"]

/-- `definition.pattern.match(formula)`. -/
def Shape.match? (shape : Shape) (formula : List Char) : Option Captures :=
  (run (isCell u) shape.pattern [] formula).head?

def findShape (formula : List Char) : Option (Shape × Captures) :=
  Shape.all.findSome? fun shape => (shape.match? u formula).map (shape, ·)

def translateFormula (formula : String) : FormulaTranslationOutcome :=
  let formulaText := strip u formula.toList
  match findShape u formulaText with
  | none => {
      formulaShapeId := none
      translationStatus := .quarantined
      reasonCode := .unknownShape
      formula := formulaText
      namedCaptures := []
      outputPayload := .empty }
  | some (shape, captures) => {
      formulaShapeId := some shape
      translationStatus := shape.status
      reasonCode := shape.reason
      formula := formulaText
      namedCaptures := captures
      outputPayload := shape.emit captures }

end FlowHub.FormulaTranslator
