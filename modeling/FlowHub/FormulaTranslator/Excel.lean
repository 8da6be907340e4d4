import FlowHub.FormulaTranslator.Translator

namespace FlowHub.FormulaTranslator

open Pattern PricingMatrix List

/-- What a cell holds, or an expression comes to. -/
inductive Value where
  | number (value : ℚ)
  | text (value : List Char)
  | logical (value : Bool)
  | blank | error
  deriving DecidableEq

/-- The expressions of the pricing shapes. -/
inductive Expression where
  | cell (reference : List Char)
  | number (value : Int)
  | literal (value : List Char)
  | parens (inner : Expression)
  | add (left right : Expression)
  | multiply (left right : Expression)
  | divide (left right : Expression)
  | equal (left right : Expression)
  | isNumber (value : Expression)
  | choose (condition positive negative : Expression)
  | ifError (value fallback : Expression)
  | floor (value significance : Expression)
  | roundUp (value digits : Expression)

/-- `name` and an opening parenthesis. -/
def opening (name : String) (rest : List Char) : List Char := name.toList ++ '(' :: rest

/-- An expression as it is written, before what follows it. -/
def Expression.spell : Expression → List Char → List Char
  | .cell reference, rest => reference ++ rest
  | .number value, rest => (toString value).toList ++ rest
  | .literal value, rest => '"' :: (value ++ '"' :: rest)
  | .parens inner, rest => '(' :: inner.spell (')' :: rest)
  | .add left right, rest => left.spell ('+' :: right.spell rest)
  | .multiply left right, rest => left.spell ('*' :: right.spell rest)
  | .divide left right, rest => left.spell ('/' :: right.spell rest)
  | .equal left right, rest => left.spell ('=' :: right.spell rest)
  | .isNumber value, rest => opening "ISNUMBER" (value.spell (')' :: rest))
  | .choose condition positive negative, rest =>
    opening "IF" (condition.spell (',' :: positive.spell (',' :: negative.spell (')' :: rest))))
  | .ifError value fallback, rest =>
    opening "IFERROR" (value.spell (',' :: fallback.spell (')' :: rest)))
  | .floor value significance, rest =>
    opening "FLOOR" (value.spell (',' :: significance.spell (')' :: rest)))
  | .roundUp value digits, rest =>
    opening "ROUNDUP" (value.spell (',' :: digits.spell (')' :: rest)))

/-- The formula an expression is the body of. -/
def Expression.formula (e : Expression) : List Char := '=' :: e.spell []

/-- A value where a number is expected. -/
def Value.toNumber : Value → Option ℚ
  | .number value => some value
  | .logical value => some (if value then 1 else 0)
  | .blank => some 0
  | .text _ | .error => none

def Value.combine (operation : ℚ → ℚ → Value) (left right : Value) : Value :=
  match left.toNumber, right.toNumber with
  | some a, some b => operation a b
  | _, _ => .error

/-- `left = right`; a blank cell equals the empty text. -/
def Value.equal : Value → Value → Value
  | .error, _ | _, .error => .error
  | .blank, .text value | .text value, .blank => .logical (decide (value = []))
  | .blank, .number value | .number value, .blank => .logical (decide (value = 0))
  | .blank, .logical value | .logical value, .blank => .logical (!value)
  | left, right => .logical (decide (left = right))

/-- `FLOOR`: down to a multiple of the significance. -/
def floorTo (value significance : ℚ) : Value :=
  if significance = 0 ∨ (0 < value ∧ significance < 0) then .error
  else .number (⌊value / significance⌋ * significance)

/-- `ROUNDUP`: away from zero, at so many decimal digits. -/
def roundUpTo (value digits : ℚ) : Value :=
  let unit := (10 : ℚ) ^ (-(if 0 ≤ digits then ⌊digits⌋ else ⌈digits⌉))
  .number (if 0 ≤ value then ⌈value / unit⌉ * unit else -(⌈-value / unit⌉ * unit))

def Expression.eval (cells : List Char → Value) : Expression → Value
  | .cell reference => cells reference
  | .number value => .number value
  | .literal value => .text value
  | .parens inner => inner.eval cells
  | .add left right => .combine (fun a b => .number (a + b)) (left.eval cells) (right.eval cells)
  | .multiply left right =>
    .combine (fun a b => .number (a * b)) (left.eval cells) (right.eval cells)
  | .divide left right =>
    .combine (fun a b => if b = 0 then .error else .number (a / b)) (left.eval cells)
      (right.eval cells)
  | .equal left right => (left.eval cells).equal (right.eval cells)
  | .isNumber value =>
    match value.eval cells with
    | .number _ => .logical true
    | _ => .logical false
  | .choose condition positive negative =>
    match condition.eval cells with
    | .text _ | .error => .error
    | value => if value.toNumber = some 0 then negative.eval cells else positive.eval cells
  | .ifError value fallback =>
    match value.eval cells with
    | .error => fallback.eval cells
    | value => value
  | .floor value significance =>
    .combine floorTo (value.eval cells) (significance.eval cells)
  | .roundUp value digits => .combine roundUpTo (value.eval cells) (digits.eval cells)

example : (Expression.ifError (.add (.number 1) (.literal [])) (.number 2)).eval (fun _ => .blank) =
    .number 2 := by
  simp [Expression.eval, Value.combine, Value.toNumber]

def markup (refs : String → List Char) : Expression :=
  .multiply (.cell (refs "basis_ref"))
    (.parens (.add (.number 1) (.divide (.cell (refs "rate_ref")) (.number 100))))

/-- The expression each pricing shape is recorded with. -/
def Shape.expression (refs : String → List Char) (mark : List Char) : Shape → Option Expression
  | .a1 => some (.choose (.equal (.cell (refs "guard_ref")) (.literal [])) (.literal ['x'])
      (.ifError (.floor (.multiply (.parens (.add (markup refs)
          (.choose (.isNumber (.cell (refs "addend_ref"))) (.cell (refs "addend_ref")) (.number 0))))
        (.number 1000000)) (.number 50000)) (.literal ['x'])))
  | .a3 => some (.ifError (.floor (.multiply (markup refs) (.number 1000)) (.number 100000))
      (.literal mark))
  | .a4 => some (.ifError (.add (.floor (.multiply (markup refs) (.number 1000)) (.number 100000))
      (.number 500000)) (.literal mark))
  | .a5 => some (.ifError (.roundUp (markup refs) (.number (-2))) (.literal mark))
  | .a10 => some (.ifError (.floor (.parens (.multiply (markup refs) (.number 1000)))
      (.number 100000)) (.literal mark))
  | .a11 => some (.ifError (.floor (.add (.parens (.multiply (markup refs) (.number 1000)))
      (.number 500000)) (.number 100000)) (.literal mark))
  | _ => none

/-- The two spellings of the cross. -/
def marks : List (List Char) := [['\u274c'], "\\u274c".toList]

theorem numerals : (toString (0 : Int)).toList = ['0'] ∧ (toString (1 : Int)).toList = ['1'] ∧
    (toString (-2 : Int)).toList = ['-', '2'] ∧
    (toString (100 : Int)).toList = ['1', '0', '0'] ∧
    (toString (1000 : Int)).toList = ['1', '0', '0', '0'] ∧
    (toString (50000 : Int)).toList = ['5', '0', '0', '0', '0'] ∧
    (toString (100000 : Int)).toList = ['1', '0', '0', '0', '0', '0'] ∧
    (toString (500000 : Int)).toList = ['5', '0', '0', '0', '0', '0'] ∧
    (toString (1000000 : Int)).toList = ['1', '0', '0', '0', '0', '0', '0'] := by
  decide +kernel

/-- The expression of a shape is written as the shape is recorded. -/
theorem expression_spelled {shape : Shape} (hmark : mark ∈ marks) (h : shape.expression refs mark = some e) :
    e.formula ∈ (variants shape.pattern).map (fill refs) := by
  obtain ⟨h0, h1, h2, h100, h1000, h50000, h100000, h500000, h1000000⟩ := numerals
  have hmarks : mark = ['\u274c'] ∨ mark = ['\\', 'u', '2', '7', '4', 'c'] := by
    rw [marks, String.toList_ofList] at hmark
    simpa using hmark
  cases shape <;> simp only [Shape.expression, Option.some.injEq, reduceCtorEq] at h
  all_goals
    subst h
    simp only [Shape.pattern, Expression.formula, Expression.spell, markup, opening, markCross,
      text, h0, h1, h2, h100, h1000, h50000, h100000, h500000, h1000000, -String.reduceToList]
    repeat rw [String.toList_ofList]
    simp only [variants, consText, map, fill, cons_append, nil_append]
    rcases hmarks with rfl | rfl
    · exact mem_cons_self
    · first
      | exact mem_cons_of_mem _ mem_cons_self
      | exact mem_cons_self

end FlowHub.FormulaTranslator
