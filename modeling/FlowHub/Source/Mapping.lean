import FlowHub.Domain
import FlowHub.Python.Json

namespace FlowHub.Source

open Python

/-- A value of a Source cell. -/
inductive Cell where
  | null
  | bool (b : Bool)
  | int (n : Int)
  | float (x : Float64)
  | text (s : String)
  deriving DecidableEq

/-- `str(value)`, and the empty text for None. -/
def Cell.str : Cell → String
  | .null => ""
  | .bool b => if b then "True" else "False"
  | .int n => toString n
  | .float x => floatRepr x
  | .text s => s

/-- `value not in {None, ""}` fails. -/
def Cell.blank : Cell → Bool
  | .null => true
  | .text s => s == ""
  | _ => false

/-- `value or ""`. -/
def Cell.orEmpty (cell : Cell) : Cell :=
  match cell with
  | .null | .bool false | .int 0 => .text ""
  | .float (.finite b) => if b.val = 0 then .text "" else cell
  | _ => cell

def Cell.ofOption : Option String → Cell
  | none => .null
  | some s => .text s

/-- `SOURCE_FIELDS`. -/
inductive SourceField where
  | name | sourceKey | category | brand | cost
  deriving DecidableEq

/-- `CHANNEL_FIELDS`. -/
inductive ChannelField where
  | externalId | price | stock | status
  deriving DecidableEq

inductive ReferenceType where
  | columnLetter | headerName | columnId | disabled
  deriving DecidableEq

/-- Which column a mapped field is read from. -/
structure Reference where
  type : ReferenceType
  value : Option String := none
  deriving DecidableEq

structure SourceFieldMapping where
  field : SourceField
  reference : Reference
  required : Bool := false
  deriving DecidableEq

structure ChannelFieldMapping where
  field : ChannelField
  reference : Reference
  deriving DecidableEq

structure ChannelMapping where
  channelId : Id
  worksheetName : Option String := none
  enabled : Bool := true
  fields : List ChannelFieldMapping
  deriving DecidableEq

/-- The keys of a value policy that rows and targets are read with. -/
structure ValuePolicy where
  formulaBlocked : Bool := false
  fixZeroDecimalPrices : List (Id × Bool) := []
  deriving DecidableEq

structure WorksheetRule where
  worksheetName : String
  enabled : Bool := true
  dataStartRow : Nat := 2
  valuePolicy : ValuePolicy := {}
  sourceFields : List SourceFieldMapping
  channels : List ChannelMapping
  deriving DecidableEq

inductive RuleMode where
  | shared | perWorksheet
  deriving DecidableEq

inductive DuplicatePolicy where
  | block | lastSheetWins
  deriving DecidableEq

/-- What `_worksheet_rule_configs` loads of a Mapping. -/
structure RuleSet where
  mode : RuleMode := .shared
  duplicateProductPolicy : DuplicatePolicy := .block
  rules : List WorksheetRule := []
  deriving DecidableEq

inductive WorksheetMode where
  | all | selected
  deriving DecidableEq

structure SheetColumn where
  (columnKey name : String)
  position : Nat

structure SheetCell where
  columnKey : String
  calculatedValue : Option String
  calculationError : Option String := none
  formulaExpression : Option String := none

structure SheetRow where
  rowKey : String
  position : Nat
  cells : List SheetCell

/-- The worksheets of an acquired workbook, in order. -/
abbrev Workbook := List (String × List (List Cell))

end FlowHub.Source
