import FlowHub.Domain
import FlowHub.Python.Text
import FlowHub.Table
import FlowHub.Txn.Proc
import Mathlib.Data.List.Sort

namespace FlowHub.Sheets

open Python

def maxSheetRows : Nat := 10000

def maxSheetColumns : Nat := 200

inductive Fault where
  | unprocessable (code : String)
  | conflict (code : String)
  | formulaError (code : String)
  | runtimeError (message : String)
  | integrityError | notFound
  /-- What the formula engine lets through. -/
  | uncaught
  deriving DecidableEq

/-- A column of a request; an absent key and an empty one are drawn anew. -/
structure ColumnInput where
  columnKey : Option String := none
  name : String
  position : Int
  dataType : String := "text"
  deriving DecidableEq

/-- A row of a request, with its cell values as `str` gives them. -/
structure RowInput where
  rowKey : Option String := none
  position : Int
  values : List (String × Option String) := []
  deriving DecidableEq

structure Column where
  (columnKey name : String)
  position : Nat
  dataType : String
  deriving DecidableEq

structure NormalRow where
  rowKey : String
  position : Nat
  values : List (String × Option String)

structure Cell where
  columnKey : String
  (rawValue calculatedValue formulaExpression : Option String)
  formulaDependencies : List String
  calculationError : Option String
  deriving DecidableEq

structure Row where
  rowKey : String
  position : Nat
  cells : List Cell
  deriving DecidableEq

structure Revision where
  version : Nat
  columns : List Column
  rows : List Row
  deriving DecidableEq

structure FormulaResult where
  value : Option String
  dependencies : List String
  error : Option String := none

/-- `calculate_sheet`, of the raw values by reference. -/
abbrev Engine := List (String × Option String) → Except Fault (List (String × FormulaResult))

/-- The ids that a request draws for its columns, for its rows and for rows it appends. -/
structure Draws where
  (columns rows appended : Nat → Id)

/-- `column_name`, of a number in range. -/
def letters : Nat → Nat → List Char → List Char
  | 0, _, acc => acc
  | fuel + 1, n, acc =>
    if n = 0 then acc else letters fuel ((n - 1) / 26) (Char.ofNat (65 + (n - 1) % 26) :: acc)

def columnName (number : Nat) : Except Fault String :=
  if number < 1 ∨ 18278 < number then .error (.formulaError "INVALID_REFERENCE")
  else .ok (String.ofList (letters number number []))

section

variable (u : Unicode)

/-- `" ".join(text.strip().split())`. -/
def singleSpaced (text : List Char) : List Char := List.intercalate [' '] (words u (strip u text))

def cleanName (value fallback : String) : String :=
  let text := (singleSpaced u value.toList).take 240
  if text = [] then fallback else String.ofList text

def keyOf (given : Option String) (drawn : Id) : String :=
  let key := match given with
    | none => drawn
    | some key => if key = "" then drawn else key
  String.ofList (strip u key.toList)

def positionOf (given : Int) (index : Nat) : Int := if given = 0 then index else given

def dataTypeOf (given : String) : String :=
  String.ofList ((if given = "" then "text" else given).toList.take 30)

variable (ids : Nat → Id)

def addColumn (done : List Column) (item : ColumnInput × Nat) : Except Fault (List Column) :=
  let key := keyOf u item.1.columnKey (ids item.2)
  let position := positionOf item.1.position item.2
  if key = "" ∨ 36 < key.length ∨ key ∈ done.map Column.columnKey ∨
      position.toNat ∈ done.map Column.position ∨ position < 1 then
    .error (.unprocessable "SHEET_COLUMN_INVALID")
  else (columnName position.toNat).map fun name =>
    done ++ [{ columnKey := key
               name := cleanName u item.1.name ("Column " ++ name)
               position := position.toNat
               dataType := dataTypeOf item.1.dataType }]

def normalizeColumns (columns : List ColumnInput) : Except Fault (List Column) :=
  if columns = [] ∨ maxSheetColumns < columns.length then
    .error (.unprocessable "SHEET_COLUMNS_INVALID")
  else ((columns.zipIdx 1).foldlM (addColumn u ids) []).map fun done =>
    done.insertionSort fun a b => a.position ≤ b.position

def addRow (columnKeys : List String) (done : List NormalRow)
    (item : RowInput × Nat) : Except Fault (List NormalRow) :=
  let key := keyOf u item.1.rowKey (ids item.2)
  let position := positionOf item.1.position item.2
  if key ∈ done.map NormalRow.rowKey ∨ position.toNat ∈ done.map NormalRow.position ∨ position < 1 then
    .error (.unprocessable "SHEET_ROW_INVALID")
  else if item.1.values.any fun v => decide (v.1 ∉ columnKeys) then
    .error (.unprocessable "SHEET_CELL_COLUMN_INVALID")
  else .ok (done ++ [{ rowKey := key, position := position.toNat, values := item.1.values }])

def normalizeRows (rows : List RowInput) (columns : List Column) : Except Fault (List NormalRow) :=
  if maxSheetRows < rows.length then .error (.unprocessable "SHEET_ROW_LIMIT")
  else ((rows.zipIdx 1).foldlM (addRow u ids (columns.map Column.columnKey)) []).map fun done =>
    done.insertionSort fun a b => a.position ≤ b.position

end

/-- The cell of a column in a row. -/
def reference (columns : List Column) (columnKey : String) (position : Nat) : String :=
  let number := ((columns.find? fun c => decide (c.columnKey = columnKey)).map Column.position).getD 0
  String.ofList (letters number number []) ++ toString position

/-- The values that `_calculate` hands to the engine. -/
def sheetValues (columns : List Column) (rows : List NormalRow) : List (String × Option String) :=
  rows.flatMap fun row => row.values.map fun v => (reference columns v.1 row.position, v.2)

/-- A raw value that is a formula. -/
def formulaOf (u : Unicode) (raw : Option String) : Option String :=
  raw.filter fun text => decide ((text.toList.dropWhile u.isSpace).head? = some '=')

def cellOf (u : Unicode) (results : List (String × FormulaResult)) (columns : List Column)
    (position : Nat) (value : String × Option String) : Cell :=
  let result := results.lookup (reference columns value.1 position)
  { columnKey := value.1
    rawValue := value.2
    calculatedValue := match result with
      | some result => result.value
      | none => value.2
    formulaExpression := formulaOf u value.2
    formulaDependencies := (result.map FormulaResult.dependencies).getD []
    calculationError := result.bind FormulaResult.error }

def rowOf (u : Unicode) (results : List (String × FormulaResult)) (columns : List Column)
    (row : NormalRow) : Row where
  rowKey := row.rowKey
  position := row.position
  cells := row.values.map (cellOf u results columns row.position)

/-- What `save_sheet_revision` writes for a request, under a version. -/
def buildRevision (u : Unicode) (engine : Engine) (draws : Draws) (version : Nat)
    (columns : List ColumnInput) (rows : List RowInput) : Except Fault Revision := do
  let columns ← normalizeColumns u draws.columns columns
  let rows ← normalizeRows u draws.rows rows columns
  let results ← engine (sheetValues columns rows)
  .ok { version := version, columns := columns, rows := rows.map (rowOf u results columns) }

namespace Revision

/-- The values of a row, as a request carries them. -/
def valuesOf (row : Row) : List (String × Option String) :=
  row.cells.map fun c => (c.columnKey, c.rawValue)

/-- The rows of a revision without what has been calculated. -/
def normalRows (revision : Revision) : List NormalRow :=
  revision.rows.map fun row =>
    { rowKey := row.rowKey, position := row.position, values := valuesOf row }

end Revision

structure CellPatch where
  (rowKey columnKey : String)
  value : Option String

def setValue (key : String) (value : Option String) :
    List (String × Option String) → List (String × Option String)
  | [] => [(key, value)]
  | v :: rest => if v.1 = key then (key, value) :: rest else v :: setValue key value rest

/-- The cells of a patch, set one after the other. -/
def patchCells (rowKeys columnKeys : List String) : List (String × String) → List NormalRow →
    List CellPatch → Except Fault (List NormalRow)
  | _, rows, [] => .ok rows
  | seen, rows, change :: rest =>
    if change.rowKey ∉ rowKeys ∨ change.columnKey ∉ columnKeys ∨ (change.rowKey, change.columnKey) ∈ seen then
      .error (.unprocessable "SHEET_PATCH_IDENTITY_INVALID")
    else
      patchCells rowKeys columnKeys ((change.rowKey, change.columnKey) :: seen)
        (Table.set NormalRow.rowKey rows change.rowKey fun row =>
          { row with values := setValue change.columnKey change.value row.values })
        rest

def columnInput (column : Column) : ColumnInput where
  columnKey := some column.columnKey
  name := column.name
  position := column.position
  dataType := column.dataType

def rowInput (row : NormalRow) : RowInput where
  rowKey := some row.rowKey
  position := row.position
  values := row.values

def renamed (u : Unicode) (columnNames : List (String × String)) (column : Column) : Column :=
  match columnNames.lookup column.columnKey with
  | none => column
  | some replacement => { column with name := cleanName u replacement column.name }

/-- What `patch_sheet_revision` asks `save_sheet_revision` to save. -/
def patchRequest (u : Unicode) (revision : Revision) (changes : List CellPatch)
    (columnNames : List (String × String)) : Except Fault (List ColumnInput × List RowInput) := do
  let columnKeys := revision.columns.map Column.columnKey
  if columnNames.any fun n => decide (n.1 ∉ columnKeys) then
    .error (.unprocessable "SHEET_COLUMN_IDENTITY_INVALID")
  else
    let rows ← patchCells (revision.rows.map Row.rowKey) columnKeys [] revision.normalRows changes
    .ok ((revision.columns.map (renamed u columnNames)).map columnInput, rows.map rowInput)

def lastPosition (revision : Revision) : Nat := (revision.rows.map Row.position).foldr max 0

def appendedRows (draws : Draws) (last count : Nat) : List RowInput :=
  (List.range count).map fun offset =>
    { rowKey := some (draws.appended offset), position := (last + (offset + 1) : Nat) }

/-- What `append_sheet_rows` asks `save_sheet_revision` to save. -/
def appendRequest (draws : Draws) (revision : Revision) (count : Int) :
    Except Fault (List ColumnInput × List RowInput) :=
  if count < 1 ∨ maxSheetRows < revision.rows.length + count then
    .error (.unprocessable "SHEET_ROW_LIMIT")
  else .ok (revision.columns.map columnInput,
    revision.normalRows.map rowInput ++ appendedRows draws (lastPosition revision) count.toNat)

/-- What a call asks of a sheet. -/
inductive Request where
  | save (columns : List ColumnInput) (rows : List RowInput)
  | patch (changes : List CellPatch) (columnNames : List (String × String))
  | append (count : Int)

structure Call where
  request : Request
  expectedVersion : Nat
  draws : Draws

/-- The columns and rows that a call hands to `save_sheet_revision`. -/
def prepare (u : Unicode) (call : Call) (latest : Option Revision) :
    Except Fault (List ColumnInput × List RowInput) :=
  match call.request, latest with
  | .save columns rows, _ => .ok (columns, rows)
  | _, none => .error (.unprocessable "SHEET_REVISION_REQUIRED")
  | .patch changes columnNames, some revision => patchRequest u revision changes columnNames
  | .append count, some revision => appendRequest call.draws revision count

def saveSheetRevision (u : Unicode) (engine : Engine) (revisions : List Revision) (loaded : Nat)
    (call : Call) (columns : List ColumnInput) (rows : List RowInput) : Except Fault Revision :=
  if loaded ≠ call.expectedVersion then .error (.conflict "SHEET_VERSION_CONFLICT")
  else match buildRevision u engine call.draws (loaded + 1) columns rows with
    | .error fault => .error fault
    | .ok revision =>
      if revisions.any fun r => decide (r.version = revision.version) then .error .integrityError
      else .ok revision

end FlowHub.Sheets
