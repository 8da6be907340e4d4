import FlowHub.Float.Float64

namespace FlowHub.Python

/-- The `n` significant digits nearest to a positive number, as an integer, and the
power of ten its first digit counts. -/
def significant (n : Nat) (q : ℚ) : Nat × Int :=
  let e := Int.log 10 q
  let d := (Binary64.halfEven (q / (10 : ℚ) ^ (e - n + 1))).toNat
  if d = 10 ^ n then (10 ^ (n - 1), e + 1) else (d, e)

def zeros (n : Nat) : List Char := List.replicate n '0'

def withoutTrailingZeros (digits : List Char) : List Char :=
  (digits.reverse.dropWhile (· == '0')).reverse

/-- Digits around the point, the point only where a fraction follows. -/
def positional (digits : List Char) (e : Int) : List Char :=
  if e < 0 then '0' :: '.' :: zeros (-e - 1).toNat ++ digits
  else
    let whole := e.toNat + 1
    let fraction := digits.drop whole
    digits.take whole ++ zeros (whole - digits.length) ++ (if fraction.isEmpty then [] else '.' :: fraction)

def scientific (digits : List Char) (e : Int) : List Char :=
  let fraction := digits.drop 1
  let power := (toString e.natAbs).toList
  digits.take 1 ++ (if fraction.isEmpty then [] else '.' :: fraction) ++
    'e' :: (if e < 0 then '-' else '+') :: zeros (2 - power.length) ++ power

/-- `format(value, ".15g")` of a positive number. -/
def general15 (q : ℚ) : List Char :=
  let (d, e) := significant 15 q
  let digits := withoutTrailingZeros (toString d).toList
  if -4 ≤ e ∧ e < 15 then positional digits e else scientific digits e

/-- The fewest digits that read back as the same double, at most 17. Above a power
of two the nearest digits can miss where the next ones do not. -/
def shortest (x : Float64) (q : ℚ) : Nat × Int :=
  let candidates := (List.range 16).flatMap fun n =>
    let (d, e) := significant (n + 1) q
    [(d, e), (d + 1, e)]
  (candidates.find? fun (d, e) =>
      Float64.ofRat (d * (10 : ℚ) ^ (e - (toString d).length + 1)) = x)
    |>.getD (significant 17 q)

def nonFinite (x : Float64) : String :=
  match x with
  | .infinite true => "-inf"
  | .infinite false => "inf"
  | _ => "nan"

def signed (q : ℚ) (text : ℚ → List Char) : String :=
  String.ofList (if q < 0 then '-' :: text (-q) else text q)

/-- `repr(value)`. -/
def floatRepr (x : Float64) : String :=
  match x with
  | .finite b => if b.val = 0 then "0.0" else signed b.val fun q =>
    let (d, e) := shortest (.ofRat q) q
    let digits := withoutTrailingZeros (toString d).toList
    if e < -4 ∨ 16 ≤ e then scientific digits e
    else if (digits.length : Int) ≤ e + 1 then positional digits e ++ ['.', '0']
    else positional digits e
  | x => nonFinite x

def numberText (x : Float64) : String :=
  match x with
  | .finite b => if b.val.isInt then toString b.val.num else signed b.val general15
  | x => nonFinite x

end FlowHub.Python

namespace FlowHub.Python

/-- A JSON document whose object keys are in the order `sort_keys` gives them. -/
inductive Json where
  | null
  | bool (b : Bool)
  | int (n : Int)
  | float (x : Float64)
  | str (s : String)
  | arr (items : List Json)
  | obj (fields : List (String × Json))

namespace Json

def ofOption {α : Type} (f : α → Json) : Option α → Json
  | some a => f a
  | none => .null

def hexDigit (n : Nat) : Char := "0123456789abcdef".toList.getD n '0'

def escape (c : Char) : List Char :=
  if c = '"' then ['\\', '"']
  else if c = '\\' then ['\\', '\\']
  else if c = '\n' then ['\\', 'n']
  else if c = '\r' then ['\\', 'r']
  else if c = '\t' then ['\\', 't']
  else if c.toNat = 8 then ['\\', 'b']
  else if c.toNat = 12 then ['\\', 'f']
  else if c.toNat < 32 then ['\\', 'u', '0', '0', hexDigit (c.toNat / 16), hexDigit (c.toNat % 16)]
  else [c]

def quote (s : String) : String := "\"" ++ String.ofList (s.toList.flatMap escape) ++ "\""

mutual

/-- `stable_json`. -/
def render : Json → String
  | .null => "null"
  | .bool b => if b then "true" else "false"
  | .int n => toString n
  | .float x => floatRepr x
  | .str s => quote s
  | .arr items => "[" ++ ",".intercalate (renderItems items) ++ "]"
  | .obj fields => "\x7b" ++ ",".intercalate (renderFields fields) ++ "\x7d"

def renderItems : List Json → List String
  | [] => []
  | item :: rest => render item :: renderItems rest

def renderFields : List (String × Json) → List String
  | [] => []
  | (key, value) :: rest => (quote key ++ ":" ++ render value) :: renderFields rest

end

end Json

/-- SHA-256 of a text, and of the canonical text of a document. -/
structure Hashing where
  text : String → String
  json : Json → String

end FlowHub.Python

namespace FlowHub.Python.Json

/-- The number of a document; `False` and `True` are numbers, a NaN equals none. -/
def numeric : Json → Option (ℚ ⊕ Bool)
  | .bool b => some (.inl (if b then 1 else 0))
  | .int n => some (.inl n)
  | .float (.finite x) => some (.inl x.val)
  | .float (.infinite negative) => some (.inr negative)
  | _ => none

def sameNumber (a b : Json) : Bool :=
  match a.numeric, b.numeric with
  | some x, some y => decide (x = y)
  | _, _ => false

mutual

def same : Json → Json → Bool
  | .null, .null => true
  | .str s, .str t => decide (s = t)
  | .arr items, .arr items' => sameItems items items'
  | .obj fields, .obj fields' => sameFields fields fields'
  | a, b => sameNumber a b

def sameItems : List Json → List Json → Bool
  | [], [] => true
  | item :: rest, item' :: rest' => same item item' && sameItems rest rest'
  | _, _ => false

def sameFields : List (String × Json) → List (String × Json) → Bool
  | [], [] => true
  | (key, value) :: rest, (key', value') :: rest' =>
    decide (key = key') && (same value value' && sameFields rest rest')
  | _, _ => false

end

/-- `bool(document)`. -/
def truthy : Json → Bool
  | .null => false
  | .bool b => b
  | .int n => decide (n ≠ 0)
  | .float (.finite x) => decide (x.val ≠ 0)
  | .float _ => true
  | .str s => decide (s ≠ "")
  | .arr items => !items.isEmpty
  | .obj fields => !fields.isEmpty

end FlowHub.Python.Json
