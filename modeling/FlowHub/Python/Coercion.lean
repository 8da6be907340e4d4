import FlowHub.Python.Json
import FlowHub.Python.Text

namespace FlowHub.Python

/-- `value.get(key)` of a dictionary. -/
def Json.get : Json → String → Json
  | .obj fields, key => ((fields.find? fun f => decide (f.1 = key)).map Prod.snd).getD .null
  | _, _ => .null

/-- What a conversion to a number raises. -/
inductive NumberError where
  | value | type | overflow

def hexDigits (width n : Nat) : List Char :=
  (List.range width).reverse.map fun i => Json.hexDigit (n / 16 ^ i % 16)

/-- One character of `repr(text)` between quotes. `str.isprintable` decides what is escaped. -/
def reprChar (printable : Char → Bool) (quote c : Char) : List Char :=
  if c = quote ∨ c = '\\' then ['\\', c]
  else if c = '\n' then ['\\', 'n']
  else if c = '\r' then ['\\', 'r']
  else if c = '\t' then ['\\', 't']
  else if printable c then [c]
  else if c.toNat < 256 then '\\' :: 'x' :: hexDigits 2 c.toNat
  else if c.toNat < 65536 then '\\' :: 'u' :: hexDigits 4 c.toNat
  else '\\' :: 'U' :: hexDigits 8 c.toNat

def reprText (printable : Char → Bool) (s : String) : String :=
  let quote := if s.toList.contains '\'' && !s.toList.contains '"' then '"' else '\''
  String.ofList (quote :: s.toList.flatMap (reprChar printable quote) ++ [quote])

mutual

/-- `repr(value)`. -/
def repr (printable : Char → Bool) : Json → String
  | .null => "None"
  | .bool b => if b then "True" else "False"
  | .int n => toString n
  | .float x => floatRepr x
  | .str s => reprText printable s
  | .arr items => "[" ++ ", ".intercalate (reprItems printable items) ++ "]"
  | .obj fields => "\x7b" ++ ", ".intercalate (reprFields printable fields) ++ "\x7d"

def reprItems (printable : Char → Bool) : List Json → List String
  | [] => []
  | item :: rest => repr printable item :: reprItems printable rest

def reprFields (printable : Char → Bool) : List (String × Json) → List String
  | [] => []
  | (key, value) :: rest =>
    (reprText printable key ++ ": " ++ repr printable value) :: reprFields printable rest

end

def str (printable : Char → Bool) : Json → String
  | .str s => s
  | value => repr printable value

/-- `bool(value)`. -/
def truthy : Json → Bool
  | .null => false
  | .bool b => b
  | .int n => decide (n ≠ 0)
  | .float x => decide (x ≠ Float64.zero)
  | .str s => decide (s ≠ "")
  | .arr items => !items.isEmpty
  | .obj fields => !fields.isEmpty

/-- The first value that is true, as `or` picks it; the last one where none is. -/
def firstTrue : List Json → Json
  | [] => .null
  | [value] => value
  | value :: rest => if truthy value then value else firstTrue rest

def intText (u : Unicode) (text : String) : Option Int := do
  let body := strip u text.toList
  if underscoresOk u body then
    let (negative, ds) := sign (body.filter (· != '_'))
    let ds ← digits u ds
    if ds.isEmpty then none
    else pure (if negative then -(ofDigits ds : Int) else ofDigits ds)
  else none

def intOf (u : Unicode) : Json → Except NumberError Int
  | .bool b => .ok (if b then 1 else 0)
  | .int n => .ok n
  | .float (.finite x) => .ok (Int.tdiv x.val.num x.val.den)
  | .float (.infinite _) => .error .overflow
  | .float .nan => .error .value
  | .str s => (intText u s).elim (.error .value) .ok
  | _ => .error .type

def floatOf (u : Unicode) : Json → Except NumberError Float64
  | .bool b => .ok (.ofRat (if b then 1 else 0))
  | .int n => if (Float64.ofRat n).isFinite then .ok (.ofRat n) else .error .overflow
  | .float x => .ok x
  | .str s => (float u s).elim (.error .value) .ok
  | _ => .error .type

end FlowHub.Python
