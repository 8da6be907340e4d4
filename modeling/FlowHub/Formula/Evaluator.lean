import FlowHub.Demand
import FlowHub.Formula.Syntax
import FlowHub.Python.Collections
import FlowHub.Python.Json

namespace FlowHub.Formula

open Python Demand

/-- A `FormulaValue`. -/
inductive Value where
  | decimal (d : Decimal)
  | bool (b : Bool)
  | text (s : String)
  | absent
  | range (items : List (Option String))
  deriving DecidableEq

/-- An exception that `evaluate` does not catch. -/
inductive Escape where
  | overflow | overflowError | valueError
  deriving DecidableEq

/-- What resolving a reference raises. -/
inductive Failure where
  | formulaError (code : String)
  | escape (e : Escape)
  deriving DecidableEq

/-- What evaluating a node raises; `calculation` stands for `SyntaxError`, `InvalidOperation` and the
divisions by zero. -/
inductive Raised where
  | failure (f : Failure)
  | calculation
  deriving DecidableEq

/-- What a reference is resolved to. -/
abbrev Answer := Except Failure (Option String)

structure EvalState where
  dependencies : List Ref
  steps : Nat

/-- An evaluation, which asks for the values of references. -/
def Eval (α : Type) : Type := EvalState → Prog Ref Answer (Except Raised α × EvalState)

namespace Eval

variable {α β : Type}

def of (r : Except Raised α) : Eval α := fun s => .done (r, s)

def bind (x : Eval α) (f : α → Eval β) : Eval β := fun s => (x s).bind fun
    | (.ok a, s) => f a s
    | (.error e, s) => .done (.error e, s)

instance : Monad Eval where
  pure a := of (.ok a)
  bind := Eval.bind

end Eval

def formulaError {α : Type} (code : String) : Except Raised α := .error (.failure (.formulaError code))

def escape {α : Type} (e : Escape) : Except Raised α := .error (.failure (.escape e))

/-- A signal of the decimal context as an exception. -/
def signalled {α : Type} : Except Signal α → Except Raised α
  | .ok a => .ok a
  | .error .invalidOperation => .error .calculation
  | .error .overflow => escape .overflow

def intOf (d : Decimal) : Except Raised Int :=
  match d.toInt with
  | .ok n => .ok n
  | .error .overflowError => escape .overflowError
  | .error .valueError => escape .valueError

def tick : Eval Unit := fun s =>
  let s := { s with steps := s.steps + 1 }
  if maxEvaluationSteps < s.steps then .done (formulaError "EVALUATION_LIMIT", s) else .done (.ok (), s)

def addDependencies (references : List Ref) : Eval Unit := fun s =>
  let s := { s with dependencies := (s.dependencies ++ references).dedup }
  if maxDependencies < s.dependencies.length then .done (formulaError "DEPENDENCY_LIMIT", s)
  else .done (.ok (), s)

section

variable (u : Unicode)

/-- `self._resolver(reference)`; the resolver takes the upper case of it. -/
def resolver (reference : Ref) : Eval (Option String) := fun s =>
  .ask (u.upper reference) fun
    | .ok value => .done (.ok value, s)
    | .error f => .done (.error (.failure f), s)

def resolveAll : List Ref → Eval (List (Option String))
  | [] => pure []
  | reference :: rest => do
    let value ← resolver u reference
    let values ← resolveAll rest
    pure (value :: values)

/-- What a cell holds, as a value. -/
def Value.ofCell : Option String → Value
  | some s => .text s
  | none => .absent

/-- `_decimal`. -/
def toDecimal : Value → Except Raised Decimal
  | .decimal d => .ok d
  | .bool b => .ok (.ofNat (if b then 1 else 0))
  | .absent => .ok .zero
  | .range _ => formulaError "RANGE_NOT_ALLOWED_HERE"
  | .text s =>
    if s = "" then .ok .zero
    else match Decimal.ofText u (withoutCommas s) with
      | some d => .ok d
      | none => formulaError "NON_NUMERIC_VALUE"

def Value.truthy : Value → Bool
  | .decimal d => d.truthy
  | .bool b => b
  | .text s => s ≠ ""
  | .absent => false
  | .range items => !items.isEmpty

/-- `left == right`. -/
def equalValues : Value → Value → Except Raised Bool
  | .decimal a, .decimal b => signalled (a.eq b)
  | .decimal a, .bool b => signalled (a.eq (.ofNat (if b then 1 else 0)))
  | .bool a, .decimal b => signalled (Decimal.eq (.ofNat (if a then 1 else 0)) b)
  | .bool a, .bool b => .ok (a == b)
  | .text s, .text t => .ok (s == t)
  | .absent, .absent => .ok true
  | .range items, .range items' => .ok (items == items')
  | _, _ => .ok false

def literal : Constant → Except Raised Value
  | .bool b => .ok (.bool b)
  | .int n => .ok (.decimal (.ofNat n))
  | .float x =>
    match Decimal.ofText u (floatRepr x) with
    | some d => .ok (.decimal d)
    | none => .error .calculation
  | .str s => .ok (.text s)
  | .other => formulaError "UNSUPPORTED_LITERAL"

def unary : UnaryOp → Decimal → Except Raised Decimal
  | .uAdd, d => .ok d
  | .uSub, d => signalled d.neg

def power (left right : Decimal) : Except Raised Decimal := do
  let exponent ← intOf right
  if right.value ≠ exponent ∨ 20 < exponent.natAbs then formulaError "POWER_LIMIT"
  else signalled (left.pow exponent)

def divide (left right : Decimal) : Except Raised Decimal := do
  if ← signalled (right.eq (.ofNat 0)) then formulaError "DIVISION_BY_ZERO"
  else signalled (left.div right)

def binary : BinaryOp → Decimal → Decimal → Except Raised Decimal
  | .add, left, right => signalled (left.add right)
  | .sub, left, right => signalled (left.sub right)
  | .mult, left, right => signalled (left.mul right)
  | .div, left, right => divide left right
  | .pow, left, right => power left right

def ordered (compare : Decimal → Decimal → Except Signal Bool) (left right : Value) : Except Raised Bool := do
  let a ← toDecimal u left
  let b ← toDecimal u right
  signalled (compare a b)

def comparison : CompareOp → Value → Value → Except Raised Bool
  | .gt, left, right => ordered u (fun a b => b.lt a) left right
  | .gtE, left, right => ordered u (fun a b => b.le a) left right
  | .lt, left, right => ordered u Decimal.lt left right
  | .ltE, left, right => ordered u Decimal.le left right
  | .eq, left, right => equalValues left right
  | .notEq, left, right => (equalValues left right).map (!·)
  | .other, _, _ => formulaError "UNSUPPORTED_COMPARISON"

def cell : List Value → Eval Value
  | [.text reference] => do
    addDependencies [u.upper reference]
    let value ← resolver u (u.upper reference)
    pure (.ofCell value)
  | _ => .of (formulaError "INVALID_REFERENCE")

def range : List Value → Eval Value
  | [.text start, .text stop] => do
    let references ← .of ((expandRange u start stop).mapError fun code => .failure (.formulaError code))
    addDependencies references
    let values ← resolveAll u references
    pure (.range values)
  | _ => .of (formulaError "INVALID_REFERENCE")

def conditional : List Value → Except Raised Value
  | [condition, first, second] => .ok (if condition.truthy then first else second)
  | _ => formulaError "INVALID_ARGUMENT_COUNT"

def roundTo (number : Value) (digits : Int) : Except Raised Value := do
  if digits < -12 ∨ 12 < digits then formulaError "ROUND_LIMIT"
  else
    let d ← toDecimal u number
    let rounded ← signalled (d.quantize digits)
    pure (.decimal rounded)

def round : List Value → Except Raised Value
  | [number] => roundTo u number 0
  | [number, places] => do
    let d ← toDecimal u places
    let digits ← intOf d
    roundTo u number digits
  | _ => formulaError "INVALID_ARGUMENT_COUNT"

def flatten (values : List Value) : List Value :=
  values.flatMap fun
    | .range items => items.map .ofCell
    | value => [value]

/-- The least decimal under a comparison, from left to right. -/
def extreme (before : Decimal → Decimal → Except Signal Bool) (first : Decimal) (rest : List Decimal) :
    Except Raised Decimal :=
  rest.foldlM (fun best d => do
    let better ← signalled (before d best)
    pure (if better then d else best)) first

def total (values : List Decimal) : Except Raised Decimal :=
  values.foldlM (fun sum d => signalled (sum.add d)) .zero

def reduce (name : String) (first : Decimal) (rest : List Decimal) : Except Raised Decimal :=
  if name = "SUM" then total (first :: rest)
  else if name = "MIN" then extreme Decimal.lt first rest
  else if name = "MAX" then extreme (fun d best => best.lt d) first rest
  else formulaError "UNSUPPORTED_FUNCTION"

/-- A function of the decimals in a list of values. -/
def aggregate (name : String) (arguments : List Value) : Except Raised Value := do
  match ← (flatten arguments).mapM (toDecimal u) with
  | [] => formulaError "EMPTY_RANGE"
  | first :: rest => (reduce name first rest).map .decimal

/-- `_call`. -/
def callFunction (name : String) (arguments : List Value) : Eval Value :=
  if name = "CELL" then cell u arguments
  else if name = "RANGE" then range u arguments
  else if name = "IF" then .of (conditional arguments)
  else if name = "ROUND" then .of (round u arguments)
  else .of (aggregate u name arguments)

def allowedFunctions : List String := ["ROUND", "IF", "MIN", "MAX", "SUM", "CELL", "RANGE"]

mutual

def node : Expr → Eval Value
  | .constant c => do
    tick
    .of (literal u c)
  | .unaryOp op operand => do
    tick
    let value ← node operand
    .of (do
      let d ← toDecimal u value
      let result ← unary op d
      pure (.decimal result))
  | .binOp op left right => do
    tick
    let leftValue ← node left
    let a ← .of (toDecimal u leftValue)
    let rightValue ← node right
    .of (do
      let b ← toDecimal u rightValue
      let result ← binary op a b
      pure (.decimal result))
  | .compare op left right => do
    tick
    let leftValue ← node left
    let rightValue ← node right
    .of ((comparison u op leftValue rightValue).map .bool)
  | .call name args keywords => do
    tick
    if u.upper name ∉ allowedFunctions ∨ keywords = true then
      .of (formulaError "UNSUPPORTED_FUNCTION")
    else
      let arguments ← nodes args
      callFunction u (u.upper name) arguments
  | .other => do
    tick
    .of (formulaError "UNSUPPORTED_EXPRESSION")

def nodes : List Expr → Eval (List Value)
  | [] => pure []
  | e :: rest => do
    let value ← node e
    let values ← nodes rest
    pure (value :: values)

end

def serialize : Value → Except Raised (Option String)
  | .absent => .ok none
  | .range _ => formulaError "RANGE_RESULT_NOT_ALLOWED"
  | .bool b => .ok (some (if b then "TRUE" else "FALSE"))
  | .decimal d => do
    let normalized ← signalled d.normalize
    let text := normalized.fixed
    .ok (some (if text = "-0" ∨ text = "" then "0" else text))
  | .text s => .ok (some s)

structure FormulaResult where
  value : Option String
  dependencies : List Ref
  error : Option String
  deriving DecidableEq

/-- The exceptions that `evaluate` catches become errors of the result. -/
def finish : Except Raised (Option String) × EvalState → Except Escape FormulaResult
  | (.ok value, s) => .ok ⟨value, sortedSet s.dependencies, none⟩
  | (.error (.failure (.formulaError code)), s) => .ok ⟨none, sortedSet s.dependencies, some code⟩
  | (.error .calculation, s) => .ok ⟨none, sortedSet s.dependencies, some "CALCULATION_ERROR"⟩
  | (.error (.failure (.escape e)), _) => .error e

section

-- `ast.parse` in mode `eval`; none where it raises `SyntaxError`
variable (parse : String → Option Expr)

def parsed (expression : String) : Except Raised Expr :=
  match translate u expression with
  | .error code => formulaError code
  | .ok text => match parse text with
    | some tree => .ok tree
    | none => .error .calculation

def formula (expression : String) : Eval (Option String) := do
  let tree ← .of (parsed u parse expression)
  let value ← node u tree
  .of (serialize value)

def evaluate (expression : String) : Prog Ref Answer (Except Escape FormulaResult) :=
  (formula u parse expression ⟨[], 0⟩).bind fun r => .done (finish r)

end

end

end FlowHub.Formula
