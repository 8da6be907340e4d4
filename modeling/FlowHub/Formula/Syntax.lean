import FlowHub.Python.Decimal

namespace FlowHub.Formula

open Python

def maxFormulaLength : Nat := 2000

def maxDependencies : Nat := 1000

def maxEvaluationSteps : Nat := 10000

/-- A cell reference, as `A1`. -/
abbrev Ref := String

inductive Constant where
  | bool (b : Bool)
  | int (n : Nat)
  | float (x : Float64)
  | str (s : String)
  | other

inductive UnaryOp where
  | uAdd | uSub

inductive BinaryOp where
  | add | sub | mult | div | pow

inductive CompareOp where
  | gt | gtE | lt | ltE | eq | notEq | other

/-- The nodes of an `ast` expression that `_node` tells apart; a comparison has one operator, and a call
a name for its function. -/
inductive Expr where
  | constant (value : Constant)
  | unaryOp (op : UnaryOp) (operand : Expr)
  | binOp (op : BinaryOp) (left right : Expr)
  | compare (op : CompareOp) (left right : Expr)
  | call (name : String) (args : List Expr) (keywords : Bool)
  | other

section

variable (u : Unicode)

/-- The letters of `[A-Z]` under `re.I`. -/
def isLetter (c : Char) : Bool :=
  (decide ('a' ≤ c ∧ c ≤ 'z')) || (decide ('A' ≤ c ∧ c ≤ 'Z')) || ['İ', 'ı', 'ſ', 'K'].contains c

/-- `[A-Z0-9_"']`. -/
def isWord (c : Char) : Bool :=
  isLetter c || c.isDigit || c == '_' || c == '"' || c == '\''

def dropDollar : List Char → List Char
  | '$' :: rest => rest
  | text => text

/-- `\$?([A-Z]{1,3})\$?([1-9][0-9]{0,6})` at the start of a text: the reference, and what follows. -/
def cellAt (text : List Char) : Option (Ref × List Char) :=
  let body := dropDollar text
  let letters := body.takeWhile isLetter
  let rest := dropDollar (body.dropWhile isLetter)
  let digits := (rest.take 7).takeWhile Char.isDigit
  if letters = [] ∨ 3 < letters.length ∨ digits = [] ∨ digits.head? = some '0' then none
  else some (u.upper (String.ofList letters) ++ String.ofList digits, rest.drop digits.length)

/-- `_RANGE` at the start of a text. -/
def rangeAt (text : List Char) : Option (String × List Char) := do
  let (first, rest) ← cellAt u text
  match rest.dropWhile u.isSpace with
  | ':' :: rest =>
    let (last, rest) ← cellAt u (rest.dropWhile u.isSpace)
    some ("RANGE(\"" ++ first ++ "\",\"" ++ last ++ "\")", rest)
  | _ => none

/-- `_CELL` at a place of a text, behind the character before it. -/
def referenceAt (previous : Option Char) (text : List Char) : Option (String × List Char) := do
  let (reference, rest) ← cellAt u text
  if previous.any isWord || rest.head?.any isWord then none
  else some ("CELL(\"" ++ reference ++ "\")", rest)

/-- `pattern.sub`, where the pattern sees the character before a place. -/
def substitute (pattern : Option Char → List Char → Option (String × List Char)) :
    Nat → Option Char → List Char → List Char
  | 0, _, text => text
  | _ + 1, _, [] => []
  | steps + 1, previous, c :: rest =>
    match pattern previous (c :: rest) with
    | some (replacement, after) =>
      let matched := (c :: rest).take ((c :: rest).length - after.length)
      replacement.toList ++ substitute pattern steps matched.getLast? after
    | none => c :: substitute pattern steps (some c) rest

/-- `text.replace("^", "**").replace("<>", "!=")`. -/
def replaceOperators : List Char → List Char
  | '^' :: rest => '*' :: '*' :: replaceOperators rest
  | '<' :: '>' :: rest => '!' :: '=' :: replaceOperators rest
  | c :: rest => c :: replaceOperators rest
  | [] => []

/-- `re.sub(r"(?<![<>!=])=(?!=)", "==", text)`. -/
def doubleEquals : Option Char → List Char → List Char
  | previous, '=' :: rest =>
    if previous.any (fun c => ['<', '>', '!', '='].contains c) ∨ rest.head? = some '=' then
      '=' :: doubleEquals (some '=') rest
    else '=' :: '=' :: doubleEquals (some '=') rest
  | _, c :: rest => c :: doubleEquals (some c) rest
  | _, [] => []

/-- `_translate`: a text of Python, or the code of a `FormulaError`. -/
def translate (expression : String) : Except String String :=
  let text := strip u expression.toList
  if text.head? ≠ some '=' then .error "FORMULA_PREFIX_REQUIRED"
  else if maxFormulaLength < text.length then .error "FORMULA_TOO_LONG"
  else
    let text := replaceOperators (strip u (text.drop 1))
    let text := doubleEquals none text
    let text := substitute (fun _ => rangeAt u) text.length none text
    .ok (String.ofList (substitute (referenceAt u) text.length none text))

end

/-- `column_number`; the letters are those of the pattern in upper case. -/
def columnNumber (name : List Char) : Except String Nat :=
  name.foldlM (fun n c => if 'A' ≤ c ∧ c ≤ 'Z' then .ok (n * 26 + (c.toNat - 64))
    else .error "INVALID_REFERENCE") 0

/-- The letters of a column, from the last. -/
def columnLetters : Nat → Nat → List Char
  | 0, _ => []
  | _ + 1, 0 => []
  | steps + 1, n + 1 => Char.ofNat (65 + n % 26) :: columnLetters steps (n / 26)

def columnName (number : Nat) : Except String String :=
  if number < 1 ∨ 18278 < number then .error "INVALID_REFERENCE"
  else .ok (String.ofList (columnLetters 3 number).reverse)

/-- `([A-Z]{1,3})([1-9][0-9]{0,6})` as a whole. -/
def splitReference (reference : String) : Except String (List Char × Nat) :=
  let isUpper (c : Char) : Bool := decide ('A' ≤ c ∧ c ≤ 'Z')
  let letters := reference.toList.takeWhile isUpper
  let digits := reference.toList.dropWhile isUpper
  if letters = [] ∨ 3 < letters.length ∨ digits = [] ∨ 7 < digits.length ∨
      digits.head? = some '0' ∨ digits.any (fun c => !c.isDigit) then .error "INVALID_REFERENCE"
  else .ok (letters, Nat.ofDigitChars 10 digits 0)

/-- The cells of a rectangle, row by row. -/
def rectangle (left right top bottom : Nat) : Except String (List Ref) :=
  ((List.range' top (bottom + 1 - top)).flatMap fun row =>
    (List.range' left (right + 1 - left)).map fun column => (column, row)).mapM
      fun (column, row) => (columnName column).map fun name => name ++ toString row

def expandRange (u : Unicode) (start stop : String) : Except String (List Ref) := do
  let (startLetters, startRow) ← splitReference (u.upper start)
  let (stopLetters, stopRow) ← splitReference (u.upper stop)
  let startColumn ← columnNumber startLetters
  let stopColumn ← columnNumber stopLetters
  let references ← rectangle (min startColumn stopColumn) (max startColumn stopColumn)
    (min startRow stopRow) (max startRow stopRow)
  if maxDependencies < references.length then .error "DEPENDENCY_LIMIT" else .ok references

end FlowHub.Formula
