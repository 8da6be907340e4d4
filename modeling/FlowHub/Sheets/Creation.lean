import FlowHub.Sheets.RoundTrip
import Mathlib.Data.UInt

namespace FlowHub.Sheets

open Python Txn

inductive SourceKind where
  | flowhubSheet | importedSheet
  deriving DecidableEq

structure SourceProfile where
  id : Id
  name : String
  sourceKind : SourceKind
  worksheetName : String
  dataStartRow : Int
  ownerUserId : Nat
  active : Bool
  deriving DecidableEq

structure FlowHubSheet where
  (id sourceId : Id)
  name : String
  (ownerUserId currentVersion : Nat)
  revisions : List Revision
  deriving DecidableEq

structure SheetImportJob where
  sheetId : Id
  (sourceType sourceFilename worksheetName : String)
  importedRowCount : Nat
  sourceChecksum : String
  availableWorksheets : List String
  deriving DecidableEq

/-- What is committed. -/
structure Db where
  sources : List SourceProfile := []
  sheets : List FlowHubSheet := []
  importJobs : List SheetImportJob := []
  deriving DecidableEq

/-- The ids of the Source and of the Sheet that a call creates. -/
structure NewIds where
  (source sheet : Id)

/-- No row goes by a new id. -/
structure NewIds.Fresh (ids : NewIds) (db : Db) : Prop where
  source : ∀ s ∈ db.sources, s.id ≠ ids.source
  sheet : ∀ s ∈ db.sheets, s.id ≠ ids.sheet
  owned : ∀ s ∈ db.sheets, s.sourceId ≠ ids.source

/-- A call that raises leaves nothing behind. -/
def Atomic {α : Type} (db : Db) (outcome : Except Fault α × Db) : Prop :=
  (∃ fault, outcome.1 = .error fault) → outcome.2 = db

section

variable (u : Unicode)

/-- `_validate_worksheet`, of a selected worksheet. -/
def validateWorksheet (worksheetName : String) (dataStartRow : Int) : Except Fault Unit :=
  if strip u worksheetName.toList = [] then .error (.unprocessable "WORKSHEET_REQUIRED")
  else if dataStartRow < 1 ∨ 1000000 < dataStartRow then
    .error (.unprocessable "DATA_START_ROW_INVALID")
  else .ok ()

/-- `create_source` for a FlowHub Sheet; it commits. -/
def createSource (ids : NewIds) (kind : SourceKind) (name worksheetName : String)
    (dataStartRow : Int) (user : Nat) (db : Db) : Except Fault SourceProfile × Db :=
  match validateWorksheet u worksheetName dataStartRow with
  | .error fault => (.error fault, db)
  | .ok () =>
    let source : SourceProfile :=
      { id := ids.source, name := cleanName u name "FlowHub Source", sourceKind := kind
        worksheetName := worksheetName, dataStartRow := dataStartRow, ownerUserId := user
        active := true }
    let sheet : FlowHubSheet :=
      { id := ids.sheet, sourceId := ids.source, name := source.name, ownerUserId := user
        currentVersion := 0, revisions := [] }
    (.ok source, { db with sources := db.sources ++ [source], sheets := db.sheets ++ [sheet] })

/-- `save_sheet_revision` by itself; it commits. -/
def saveRevision (engine : Engine) (draws : Draws) (sheetId : Id) (expectedVersion : Nat)
    (columns : List ColumnInput) (rows : List RowInput) (user : Nat) (db : Db) :
    Except Fault Revision × Db :=
  match Table.get FlowHubSheet.id db.sheets sheetId with
  | none => (.error .notFound, db)
  | some sheet =>
    if sheet.ownerUserId ≠ user then (.error .notFound, db)
    else match Table.get SourceProfile.id db.sources sheet.sourceId with
      | none => (.error .notFound, db)
      | some source =>
        if source.ownerUserId ≠ user then (.error .notFound, db)
        else if !source.active then (.error (.conflict "SOURCE_DISABLED"), db)
        else match saveSheetRevision u engine sheet.revisions sheet.currentVersion
            { request := .save columns rows, expectedVersion := expectedVersion, draws := draws }
            columns rows with
          | .error fault => (.error fault, db)
          | .ok revision =>
            (.ok revision, { db with sheets := Table.set FlowHubSheet.id db.sheets sheetId fun s =>
              { s with currentVersion := revision.version, revisions := s.revisions ++ [revision] } })

def createSheet (engine : Engine) (draws : Draws) (ids : NewIds) (name : String)
    (columns : List ColumnInput) (user : Nat) (db : Db) : Except Fault Id × Db :=
  match createSource u ids .flowhubSheet name "Sheet1" 1 user db with
  | (.error fault, db) => (.error fault, db)
  | (.ok source, db) =>
    match db.sheets.find? fun s => decide (s.sourceId = source.id) with
    | none => (.error (.runtimeError "Sheet persistence failed"), db)
    | some sheet =>
      if columns = [] then (.ok sheet.id, db)
      else match saveRevision u engine draws sheet.id 0 columns [] user db with
        | (.error fault, db) => (.error fault, db)
        | (.ok _, db) => (.ok sheet.id, db)

end

/-- A value of an imported cell: its `str`, and whether it is true. -/
structure ImportedValue where
  text : String
  truthy : Bool

/-- The rows of an imported worksheet, `none` for an empty cell. -/
abbrev Grid := List (List (Option ImportedValue))

/-- What decodes a file. -/
structure Readers where
  b64decode : String → Option (List UInt8)
  checksum : List UInt8 → String
  decode : String → List UInt8 → Option String
  csvReader : String → Except Fault (List (List String))
  loadWorkbook : List UInt8 → Option (List (String × Grid))

def maxImportBytes : Nat := 20 * 1024 * 1024

structure ImportRequest where
  (name filename contentBase64 worksheetName expectedChecksum : String)
  dataStartRow : Int := 2

section

variable (u : Unicode) (readers : Readers)

def decodeImport (contentBase64 : String) : Except Fault (List UInt8) :=
  match readers.b64decode contentBase64 with
  | none => .error (.unprocessable "IMPORT_ENCODING_INVALID")
  | some content =>
    if content = [] ∨ maxImportBytes < content.length then
      .error (.unprocessable "IMPORT_SIZE_INVALID")
    else .ok content

def textCell (text : String) : Option ImportedValue := some ⟨text, text != ""⟩

def readImport (filename : String) (content : List UInt8) : Except Fault (List (String × Grid)) :=
  let lowered := (u.lower filename).toList
  if ".csv".toList.isSuffixOf lowered then
    match ["utf-8-sig", "utf-8", "cp1256"].findSome? fun encoding => readers.decode encoding content with
    | none => .error (.unprocessable "CSV_ENCODING_INVALID")
    | some text => (readers.csvReader text).map fun rows => [("Sheet1", rows.map (·.map textCell))]
  else if ".xlsx".toList.isSuffixOf lowered then
    match readers.loadWorkbook content with
    | none => .error (.unprocessable "XLSX_INVALID")
    | some worksheets => .ok worksheets
  else .error (.unprocessable "IMPORT_FORMAT_UNSUPPORTED")

/-- What `import_sheet` reads before it writes. -/
def acquireImport (request : ImportRequest) : Except Fault (Grid × List (String × Grid) × String) := do
  let content ← decodeImport readers request.contentBase64
  let sourceChecksum := readers.checksum content
  if sourceChecksum ≠ request.expectedChecksum then .error (.conflict "IMPORT_CONTENT_CHANGED")
  else
    let sheets ← readImport u readers request.filename content
    match sheets.lookup request.worksheetName with
    | none => .error (.unprocessable "WORKSHEET_NOT_FOUND")
    | some grid => .ok (grid, sheets, sourceChecksum)

end

def gridWidth (grid : Grid) : Nat := (grid.map List.length).foldr max 0

/-- `column_name(index).lower()`: the letters are ASCII. -/
def importedKey (index : Nat) : String :=
  "col-" ++ String.ofList ((letters index index []).map Char.toLower)

def headerText : Option (Option ImportedValue) → String
  | some (some value) => if value.truthy then value.text else ""
  | _ => ""

def importedColumn (u : Unicode) (grid : Grid) (index : Nat) : Except Fault ColumnInput :=
  (columnName index).map fun name =>
    { columnKey := some (importedKey index)
      name := cleanName u (headerText (grid.head?.bind fun row => row[index - 1]?)) ("Column " ++ name)
      position := index }

def importedColumns (u : Unicode) (grid : Grid) : Except Fault (List ColumnInput) :=
  (List.range' 1 (gridWidth grid)).mapM (importedColumn u grid)

def importedRow (draws : Draws) (row : List (Option ImportedValue)) (index : Nat) : RowInput where
  rowKey := some (draws.appended index)
  position := index
  values := (row.zipIdx 1).filterMap fun item =>
    item.1.map fun value => (importedKey item.2, some value.text)

def importedRows (draws : Draws) (grid : Grid) : List RowInput :=
  (grid.zipIdx 1).map fun item => importedRow draws item.1 item.2

def importSheet (u : Unicode) (engine : Engine) (readers : Readers) (draws : Draws) (ids : NewIds)
    (request : ImportRequest) (user : Nat) (db : Db) : Except Fault Revision × Db :=
  match acquireImport u readers request with
  | .error fault => (.error fault, db)
  | .ok (grid, sheets, sourceChecksum) =>
    match createSource u ids .importedSheet request.name request.worksheetName
        request.dataStartRow user db with
    | (.error fault, db) => (.error fault, db)
    | (.ok source, db) =>
      match db.sheets.find? fun s => decide (s.sourceId = source.id) with
      | none => (.error (.runtimeError "Imported sheet persistence failed"), db)
      | some sheet =>
        match importedColumns u grid with
        | .error fault => (.error fault, db)
        | .ok columns =>
          match saveRevision u engine draws sheet.id 0 columns (importedRows draws grid) user db with
          | (.error fault, db) => (.error fault, db)
          | (.ok revision, db) =>
            let job : SheetImportJob :=
              { sheetId := sheet.id
                sourceType := if ".xlsx".toList.isSuffixOf (u.lower request.filename).toList then "xlsx"
                  else "csv"
                sourceFilename := String.ofList (request.filename.toList.take 500)
                worksheetName := request.worksheetName
                importedRowCount := grid.length
                sourceChecksum := sourceChecksum
                availableWorksheets := sheets.map Prod.fst }
            (.ok revision, { db with importJobs := db.importJobs ++ [job] })

end FlowHub.Sheets
