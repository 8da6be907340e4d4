import FlowHub.Sheets.Revision
import FlowHub.Store

namespace FlowHub.Source

open Python

inductive IssueCategory where
  | formulaError | formulaBlocked | missingChannelWorksheet | missingMappingIdentity
  | missingSourceProductKey | duplicateSourceProductSuperseded | duplicateSourceProduct
  | duplicateSourceProductKey
  deriving DecidableEq

inductive Severity where
  | blocked | warning

inductive IssueDetails where
  | row (place : String)
  | conflict (conflictingRows : List String) (keyValue : String)

structure RowIssue where
  category : IssueCategory
  severity : Severity := .blocked
  channelId : Option Id := none
  message : String
  details : Option IssueDetails := none

structure ChannelValues where
  channelId : Id
  fields : List (ChannelField × Cell)
  deriving DecidableEq

/-- What a reader derives from one row. -/
structure MappedRecord where
  rowKey : String
  rowNumber : Nat
  worksheetName : String
  (recognized sourceKeyRequired : Bool)
  sourceProduct : List (SourceField × Cell)
  channels : List ChannelValues
  valuePolicy : ValuePolicy
  issues : List RowIssue

/-- `bool(value)`. -/
def Cell.truthy (cell : Cell) : Bool := decide (cell.orEmpty ≠ .text "")

/-- The last item under a key, as a dictionary built from the items has it. -/
def dictGet {α β : Type} [BEq α] (items : List (α × β)) (key : α) : Option β :=
  items.reverse.lookup key

section Identity

variable (u : Unicode)

def identityText (value : Cell) : String := String.ofList (strip u value.str.toList)

def normalizeSourceProductKey (value : Cell) : String := u.casefold (identityText u value)

namespace MappedRecord

variable (record : MappedRecord)

def identityValue : Cell :=
  let key := (record.sourceProduct.lookup .sourceKey).getD .null
  if key.truthy then key
  else if record.sourceKeyRequired then .text ""
  else (record.sourceProduct.lookup .name).getD .null

def identity : String := normalizeSourceProductKey u record.identityValue

/-- The record without its Channels, and why. -/
def withdrawn (issue : RowIssue) : MappedRecord :=
  { record with recognized := false, channels := [], issues := record.issues ++ [issue] }

def place : String := record.worksheetName ++ "!" ++ toString record.rowNumber

end MappedRecord

def supersededIssue : RowIssue where
  category := .duplicateSourceProductSuperseded
  severity := .warning
  message := "A later participating worksheet explicitly replaces this Source Product."

def duplicateIssue (authoritativeKey : Bool) (found : List MappedRecord) : RowIssue where
  category := if authoritativeKey then .duplicateSourceProductKey else .duplicateSourceProduct
  message := "Source Product Key must be unique within this Source."
  details := some (.conflict (found.map MappedRecord.place)
    (String.ofList (((found.head?.map fun record =>
      identityText u ((record.sourceProduct.lookup .sourceKey).getD .null)).getD "").toList.take 240)))

/-- What becomes of a record among those with its identity, which is the last of them or is not. -/
def resolveDuplicate (policy : DuplicatePolicy) (found : List MappedRecord) (last : Bool)
    (record : MappedRecord) : MappedRecord :=
  let authoritativeKey := found.any MappedRecord.sourceKeyRequired
  if record.identity u = "" ∨ found.length < 2 then record
  else if !authoritativeKey ∧ (found.map MappedRecord.worksheetName).dedup.length < 2 then record
  else if !authoritativeKey ∧ policy = .lastSheetWins then
    if last then record else record.withdrawn supersededIssue
  else record.withdrawn (duplicateIssue u authoritativeKey found)

/-- `_apply_cross_worksheet_duplicate_policy`: each group is settled by itself. -/
def applyCrossWorksheetDuplicatePolicy (records : List MappedRecord) (policy : DuplicatePolicy) :
    List MappedRecord :=
  records.zipIdx.map fun item =>
    let same := records.zipIdx.filter fun other => other.1.identity u = item.1.identity u
    resolveDuplicate u policy (same.map Prod.fst) (same.getLast?.map Prod.snd = some item.2) item.1

end Identity

/-- The issues and the Channels of a row, while its Channels are read. -/
structure RowState where
  issues : List RowIssue := []
  channels : List ChannelValues := []
  channelValuePresent : Bool := false

/-- A Channel that the mapping and the Channel itself enable. -/
def participates (channels : List WorkspaceChannel) (channel : ChannelMapping) : Bool :=
  channel.enabled && match Table.get WorkspaceChannel.id channels channel.channelId with
    | none => false
    | some current => current.enabled && current.implementationState == "implemented"

def missingIdentityIssue (channelId : Id) : RowIssue where
  category := .missingMappingIdentity
  channelId := some channelId
  message := "Channel values exist but External Listing ID is missing."

def missingKeyIssue (place : String) : RowIssue where
  category := .missingSourceProductKey
  message := "Source Product Key is required."
  details := some (.row place)

def requireSourceKey (rule : WorksheetRule) : Bool :=
  rule.sourceFields.any fun field => field.field == .sourceKey && field.required

section External

variable (u : Unicode) (columnIndexFromString : String → Option Nat) (channels : List WorkspaceChannel)
  (worksheets : Workbook)

/-- The worksheet of a workbook, empty where there is none. -/
def rowsOf (worksheet : String) : List (List Cell) := (worksheets.lookup worksheet).getD []

/-- `column_index`, counted from 0. -/
def columnIndex (worksheet : String) (dataStartRow : Nat) (reference : Reference) : Option Nat :=
  match reference.type with
  | .columnLetter => (columnIndexFromString (reference.value.getD "")).map (· - 1)
  | .headerName =>
    let normalized := u.casefold (String.ofList (strip u (reference.value.getD "").toList))
    let headerRows := (rowsOf worksheets worksheet).take (dataStartRow - 1)
    headerRows.reverse.findSome? fun headerRow => headerRow.findIdx? fun value =>
      u.casefold (String.ofList (strip u value.orEmpty.str.toList)) = normalized
  | _ => none

/-- `read`. -/
def readExternal (worksheet : String) (rowNumber dataStartRow : Nat) (reference : Reference) : Cell :=
  match columnIndex u columnIndexFromString worksheets worksheet dataStartRow reference with
  | none => .null
  | some index =>
    if rowNumber < 1 then .null
    else (((rowsOf worksheets worksheet)[rowNumber - 1]?).bind fun row => row[index]?).getD .null

variable (worksheetName : String)

/-- `channel.get("worksheetName") or worksheet_name`. -/
def channelWorksheet (channel : ChannelMapping) : String :=
  match channel.worksheetName with
  | none => worksheetName
  | some name => if name = "" then worksheetName else name

def externalChannel (rule : WorksheetRule) (rowNumber : Nat)
    (state : RowState) (channel : ChannelMapping) : RowState :=
  if !participates channels channel then state
  else
    if worksheets.lookup (channelWorksheet worksheetName channel) = none then
      { state with issues := state.issues ++
          [{ category := .missingChannelWorksheet
             channelId := some channel.channelId
             message := "The worksheet selected for this Channel is unavailable." }] }
    else
      let fields := (channel.fields.filter fun item => item.reference.type ≠ .disabled).map fun item =>
        (item.field, readExternal u columnIndexFromString worksheets
          (channelWorksheet worksheetName channel) rowNumber rule.dataStartRow item.reference)
      let present := fields.any fun item => !item.2.blank
      let externalId := identityText u ((fields.lookup .externalId).getD .null)
      { issues := if externalId = "" ∧ present then
            state.issues ++ [missingIdentityIssue channel.channelId]
          else state.issues
        channels := if externalId = "" then state.channels
          else state.channels ++ [{ channelId := channel.channelId, fields := fields }]
        channelValuePresent := state.channelValuePresent || present }

def externalRecord (rule : WorksheetRule) (rowNumber : Nat) : MappedRecord :=
  let sourceData := (rule.sourceFields.filter fun field => field.reference.type ≠ .disabled).map
    fun field => (field.field, readExternal u columnIndexFromString worksheets worksheetName rowNumber
      rule.dataStartRow field.reference)
  let sourceKey := identityText u ((sourceData.lookup .sourceKey).getD .null)
  let state := rule.channels.foldl
    (externalChannel u columnIndexFromString channels worksheets worksheetName rule rowNumber) {}
  let hasProductData := (sourceData.any fun item => item.1 ≠ .name && !item.2.blank) ||
    state.channelValuePresent
  { rowKey := "external:" ++ worksheetName ++ ":" ++ toString rowNumber
    rowNumber := rowNumber
    worksheetName := worksheetName
    recognized := (sourceKey ≠ "" || !requireSourceKey rule) && !state.channels.isEmpty
    sourceKeyRequired := requireSourceKey rule
    sourceProduct := sourceData
    channels := state.channels
    valuePolicy := rule.valuePolicy
    issues := if requireSourceKey rule && sourceKey = "" && hasProductData then
        state.issues ++ [missingKeyIssue (worksheetName ++ "!" ++ toString rowNumber)]
      else state.issues }

end External

/-- What `_mapped_external_records` raises. -/
inductive ReadFault where
  | worksheetNotFound (message : String) (worksheets : List String)
  | indexError
  deriving DecidableEq

variable (rules : List WorksheetRule)

/-- The rule under a name, as a dictionary by name has it. -/
def ruleNamed (name : String) : Option WorksheetRule :=
  dictGet (rules.map fun rule => (rule.worksheetName, rule)) name

/-- The enabled rules whose worksheets a workbook lacks. -/
def missingWorksheets (worksheets : Workbook) : List String :=
  ((rules.map WorksheetRule.worksheetName).dedup).filter fun name =>
    (ruleNamed rules name).any WorksheetRule.enabled && (worksheets.lookup name).isNone

/-- The worksheets with enabled rules of their own. -/
def ruledWorksheets (worksheets : Workbook) : List (String × WorksheetRule) :=
  worksheets.filterMap fun worksheet =>
    ((ruleNamed rules worksheet.1).filter WorksheetRule.enabled).map fun rule => (worksheet.1, rule)

def ruleWork (mapping : SourceMappingRevision) (worksheets : Workbook) :
    Except ReadFault (List (String × WorksheetRule)) :=
  let rules := mapping.ruleSet.rules
  match mapping.ruleSet.mode with
  | .shared =>
    let explicitRules := rules.filter fun rule => rule.worksheetName ≠ "*"
    if explicitRules ≠ [] then
      let missing := missingWorksheets explicitRules worksheets
      if missing ≠ [] then
        .error (.worksheetNotFound "A selected worksheet is not present in the acquired workbook." missing)
      else .ok (ruledWorksheets explicitRules worksheets)
    else
      let worksheetNames := match mapping.worksheetMode with
        | .selected => [mapping.worksheetName.getD ""]
        | .all => worksheets.map Prod.fst
      let missing := worksheetNames.filter fun name => (worksheets.lookup name).isNone
      if missing ≠ [] then
        .error (.worksheetNotFound
          "The configured Source worksheet is not present in the acquired workbook." missing)
      else if worksheetNames = [] then .ok []
      else match rules.head? with
        | none => .error .indexError
        | some rule => .ok (worksheetNames.map fun name => (name, rule))
  | .perWorksheet =>
    let missing := missingWorksheets rules worksheets
    if missing ≠ [] then
      .error (.worksheetNotFound "A configured worksheet is not present in the acquired workbook." missing)
    else .ok (ruledWorksheets rules worksheets)

def mappedExternalRecords (u : Unicode) (columnIndexFromString : String → Option Nat)
    (channels : List WorkspaceChannel) (worksheets : Workbook) (mapping : SourceMappingRevision) :
    Except ReadFault (List MappedRecord) :=
  if worksheets = [] then .ok []
  else (ruleWork mapping worksheets).map fun work =>
    let records := work.flatMap fun item =>
      let last := (rowsOf worksheets item.1).length
      (List.range' item.2.dataStartRow (last + 1 - item.2.dataStartRow)).map
        (externalRecord u columnIndexFromString channels worksheets item.1 item.2)
    applyCrossWorksheetDuplicatePolicy u records mapping.ruleSet.duplicateProductPolicy

section Sheet

variable (u : Unicode) (channels : List WorkspaceChannel) (columns : List SheetColumn)

def mappedKey (reference : Reference) : Option String :=
  match reference.type with
  | .columnId => reference.value.filter fun key => columns.any fun column => column.columnKey == key
  | .columnLetter =>
    dictGet (columns.map fun column =>
      (String.ofList (Sheets.letters column.position column.position []), column.columnKey))
      (u.upper (reference.value.getD ""))
  | .headerName =>
    dictGet (columns.map fun column => (u.casefold column.name, column.columnKey))
      (u.casefold (reference.value.getD ""))
  | .disabled => none

def formulaErrorIssue (error : String) : RowIssue where
  category := .formulaError
  message := "Formula calculation failed: " ++ error ++ "."

def formulaBlockedIssue : RowIssue where
  category := .formulaBlocked
  message := "Formula values are blocked by the Source policy."

/-- The cell that `read` finds. -/
def cellAt (row : SheetRow) (reference : Reference) : Option SheetCell :=
  dictGet (row.cells.map fun cell => (cell.columnKey, cell))
    ((mappedKey u columns reference).getD "")

/-- What `read` returns. -/
def readSheet (row : SheetRow) (reference : Reference) : Cell :=
  match cellAt u columns row reference with
  | none => .null
  | some cell => .ofOption cell.calculatedValue

/-- What `read` adds to the issues. -/
def readIssues (policy : ValuePolicy) (row : SheetRow) (reference : Reference) : List RowIssue :=
  match cellAt u columns row reference with
  | none => []
  | some cell => match cell.calculationError.filter (· ≠ "") with
    | some error => [formulaErrorIssue error]
    | none =>
      if (cell.formulaExpression.filter (· ≠ "")).isSome ∧ policy.formulaBlocked then
        [formulaBlockedIssue]
      else []

def sheetChannel (rule : WorksheetRule) (row : SheetRow) (state : RowState) (channel : ChannelMapping) :
    RowState :=
  if !participates channels channel then state
  else
    let items := channel.fields.filter fun item => item.reference.type ≠ .disabled
    let fields := items.map fun item => (item.field, readSheet u columns row item.reference)
    let issues := state.issues ++
      items.flatMap fun item => readIssues u columns rule.valuePolicy row item.reference
    let present := fields.any fun item => !item.2.blank
    let externalId := identityText u ((fields.lookup .externalId).getD .null)
    { issues := if externalId = "" ∧ present then
          issues ++ [missingIdentityIssue channel.channelId]
        else issues
      channels := if externalId = "" then state.channels
        else state.channels ++ [{ channelId := channel.channelId, fields := fields }]
      channelValuePresent := state.channelValuePresent || present }

def sheetRecord (worksheetName : String) (rule : WorksheetRule) (row : SheetRow) : MappedRecord :=
  let items := rule.sourceFields.filter fun field => field.reference.type ≠ .disabled
  let sourceData := items.map fun field => (field.field, readSheet u columns row field.reference)
  let issues := items.flatMap fun field => readIssues u columns rule.valuePolicy row field.reference
  let sourceKey := identityText u ((sourceData.lookup .sourceKey).getD .null)
  let state := rule.channels.foldl (sheetChannel u channels columns rule row) { issues := issues }
  let hasProductData := (sourceData.any fun item => item.1 ≠ .name && !item.2.blank) ||
    state.channelValuePresent
  { rowKey := row.rowKey
    rowNumber := row.position
    worksheetName := worksheetName
    recognized := (sourceKey ≠ "" || !requireSourceKey rule) && !state.channels.isEmpty
    sourceKeyRequired := requireSourceKey rule
    sourceProduct := sourceData
    channels := state.channels
    valuePolicy := rule.valuePolicy
    issues := if requireSourceKey rule && sourceKey = "" && hasProductData then
        state.issues ++ [missingKeyIssue (toString row.position)]
      else state.issues }

end Sheet

def internalName (mapping : SourceMappingRevision) : String :=
  match mapping.worksheetName with
  | none => "Sheet1"
  | some name => if name = "" then "Sheet1" else name

/-- The rule that a FlowHub Sheet is read with. -/
def selectedRule (mapping : SourceMappingRevision) : Option WorksheetRule :=
  mapping.ruleSet.rules.find? fun rule => rule.enabled && match mapping.ruleSet.mode with
    | .shared => rule.worksheetName == "*" || rule.worksheetName == internalName mapping
    | .perWorksheet => rule.worksheetName == internalName mapping

def mappedSheetRecords (u : Unicode) (channels : List WorkspaceChannel) (revision : SheetRevision)
    (mapping : SourceMappingRevision) : List MappedRecord :=
  match selectedRule mapping with
  | none => []
  | some rule =>
    let rows := revision.rows.filter fun row => rule.dataStartRow ≤ row.position
    applyCrossWorksheetDuplicatePolicy u
      (rows.map (sheetRecord u channels revision.columns (internalName mapping) rule)) .block

end FlowHub.Source
