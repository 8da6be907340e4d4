import FlowHub.Sheets.Atomicity
import FlowHub.Source.Scope

namespace FlowHub.Source

open Python List

/-- What a record says of its row, the wording of its issues apart. -/
structure Reading where
  rowNumber : Nat
  (recognized sourceKeyRequired : Bool)
  sourceProduct : List (SourceField × Cell)
  channels : List ChannelValues
  categories : List IssueCategory
  deriving DecidableEq

namespace MappedRecord

def reading (record : MappedRecord) : Reading where
  rowNumber := record.rowNumber
  recognized := record.recognized
  sourceKeyRequired := record.sourceKeyRequired
  sourceProduct := record.sourceProduct
  channels := record.channels
  categories := record.issues.map RowIssue.category

end MappedRecord

namespace Reading

/-- The identity of the record with a reading. -/
def identity (u : Unicode) (reading : Reading) : String :=
  let key := (reading.sourceProduct.lookup .sourceKey).getD .null
  normalizeSourceProductKey u
    (if key.truthy then key
    else if reading.sourceKeyRequired then .text ""
    else (reading.sourceProduct.lookup .name).getD .null)

/-- What the duplicate policy makes of a reading among those of one worksheet. -/
def settled (u : Unicode) (readings : List Reading) (reading : Reading) : Reading :=
  let found := readings.filter fun other => other.identity u = reading.identity u
  if reading.identity u = "" ∨ found.length < 2 ∨ !found.any Reading.sourceKeyRequired then reading
  else { reading with
    recognized := false
    channels := []
    categories := reading.categories ++ [.duplicateSourceProductKey] }

end Reading

section Duplicates

theorem identity_reading (record : MappedRecord) : record.reading.identity u = record.identity u := rfl

theorem dedup_const [DecidableEq α] {l : List α} (h : ∀ b ∈ l, b = a) : l.dedup.length < 2 := by
  have hsub : l.dedup ⊆ [a] := by
    intro b hb
    rw [mem_dedup] at hb
    rw [h b hb]
    exact mem_singleton_self a
  have hlength := (subperm_of_subset (nodup_dedup l) hsub).length_le
  rw [length_singleton] at hlength
  omega

theorem resolveDuplicate_reading (policy : DuplicatePolicy) {records : List MappedRecord}
    {worksheetName : String} (hname : ∀ r ∈ records, r.worksheetName = worksheetName)
    (last : Bool) (record : MappedRecord) :
    (resolveDuplicate u policy (records.filter fun other => other.identity u = record.identity u) last
      record).reading = record.reading.settled u (records.map MappedRecord.reading) := by
  have hfound : (records.map MappedRecord.reading).filter
      (fun other => other.identity u = record.reading.identity u) =
        (records.filter fun other => other.identity u = record.identity u).map
          MappedRecord.reading := by
    rw [filter_map]
    rfl
  have hnames : ((records.filter fun other => other.identity u = record.identity u).map
      MappedRecord.worksheetName).dedup.length < 2 := by
    apply dedup_const
    intro name hmem
    obtain ⟨other, hother, rfl⟩ := mem_map.mp hmem
    exact hname other (mem_of_mem_filter hother)
  have hany : ((records.filter fun other => other.identity u = record.identity u).map
      MappedRecord.reading).any Reading.sourceKeyRequired =
        (records.filter fun other => other.identity u = record.identity u).any
          MappedRecord.sourceKeyRequired := by
    rw [any_map]
    rfl
  simp only [resolveDuplicate, Reading.settled, hfound, hany, length_map, hnames, and_true]
  rw [identity_reading]
  by_cases hsmall : record.identity u = "" ∨
      (records.filter fun other => other.identity u = record.identity u).length < 2
  · rw [if_pos hsmall, if_pos (by tauto)]
  rw [not_or] at hsmall
  simp only [hsmall.1, hsmall.2, false_or]
  cases (records.filter fun other => other.identity u = record.identity u).any
      MappedRecord.sourceKeyRequired with
  | false => simp
  | true => simp [MappedRecord.withdrawn, MappedRecord.reading, duplicateIssue]

/-- Of one worksheet, the duplicate policy and the wording of issues decide nothing. -/
theorem applyPolicy_reading (policy : DuplicatePolicy) {records : List MappedRecord}
    (hname : ∀ r ∈ records, r.worksheetName = worksheetName) :
    (applyCrossWorksheetDuplicatePolicy u records policy).map MappedRecord.reading =
      (records.map MappedRecord.reading).map
        (Reading.settled u (records.map MappedRecord.reading)) := by
  have hsame : ∀ item : MappedRecord × Nat,
      (records.zipIdx.filter fun other => other.1.identity u = item.1.identity u).map Prod.fst =
        records.filter fun other => other.identity u = item.1.identity u := by
    intro item
    have hfst : records.zipIdx.map Prod.fst = records := by simp
    conv_rhs => rw [← hfst, filter_map]
    rfl
  simp only [applyCrossWorksheetDuplicatePolicy, map_map, Function.comp_def, hsame,
    resolveDuplicate_reading policy hname]
  have hfst : records.zipIdx.map Prod.fst = records := by simp
  conv_rhs => rw [← hfst, map_map]
  simp [Function.comp_def]

end Duplicates

/-- A worksheet of text cells, `none` for an empty one. -/
abbrev TextGrid := List (List (Option String))

namespace TextGrid

/-- The worksheet as it is acquired. -/
def worksheet (grid : TextGrid) : List (List Cell) := grid.map fun row => row.map Cell.ofOption

/-- The worksheet as it is imported. -/
def imported (grid : TextGrid) : Sheets.Grid :=
  grid.map fun row => row.map fun cell => cell.bind Sheets.textCell

/-- No cell is a formula. -/
def Plain (u : Unicode) (grid : TextGrid) : Prop :=
  ∀ row ∈ grid, ∀ text, some text ∈ row → Sheets.formulaOf u (some text) = none

end TextGrid

def storedRow (row : Sheets.Row) : SheetRow where
  rowKey := row.rowKey
  position := row.position
  cells := row.cells.map fun cell =>
    { columnKey := cell.columnKey
      calculatedValue := cell.calculatedValue
      calculationError := cell.calculationError
      formulaExpression := cell.formulaExpression }

/-- A saved revision as the reader loads it. -/
def storedRevision (id sheetId : Id) (checksum : String) (revision : Sheets.Revision) : SheetRevision where
  id := id
  sheetId := sheetId
  version := revision.version
  checksum := checksum
  columns := revision.columns.map fun column =>
    { columnKey := column.columnKey, name := column.name, position := column.position }
  rows := revision.rows.map storedRow

/-- What `column_index_from_string` does: it numbers the columns A to ZZZ, in either case. -/
structure ColumnLetters (u : Unicode) (columnIndexFromString : String → Option Nat) : Prop where
  number : ∀ text index, columnIndexFromString text = some index ↔
    (1 ≤ index ∧ index ≤ 18278) ∧ String.ofList (Sheets.letters index index []) = u.upper text

/-- What `calculate_sheet` does: it evaluates the formulas and nothing else. -/
def EvaluatesFormulas (u : Unicode) (engine : Sheets.Engine) : Prop :=
  ∀ values, (∀ v ∈ values, Sheets.formulaOf u v.2 = none) → engine values = .ok []

section Rows

variable {u : Unicode} {columnIndexFromString : String → Option Nat}

/-- The columns of an imported worksheet as the reader loads them. -/
def importedColumns (u : Unicode) (grid : Sheets.Grid) : List SheetColumn :=
  ((List.range' 1 (Sheets.gridWidth grid)).map (Sheets.importedColumnOf u grid)).map fun column =>
    { columnKey := column.columnKey, name := column.name, position := column.position }

/-- The cell that an imported text is saved in. -/
def importedCell (index : Nat) (text : String) : SheetCell where
  columnKey := Sheets.importedKey index
  calculatedValue := some text

/-- An imported row as the reader loads it. -/
def importedRow (draws : Sheets.Draws) (row : List (Option String)) (position : Nat) : SheetRow where
  rowKey := draws.appended position
  position := position
  cells := (Sheets.cellsOf (row.map fun cell => cell.bind Sheets.textCell)).map fun cell =>
    importedCell cell.1 cell.2.text

theorem mem_cellsOf_texts {row : List (Option String)} :
    cell ∈ Sheets.cellsOf (row.map fun cell => cell.bind Sheets.textCell) ↔
      1 ≤ cell.1 ∧ ∃ text, row[cell.1 - 1]? = some (some text) ∧ cell.2 = ⟨text, text != ""⟩ := by
  rw [Sheets.mem_cellsOf, getElem?_map]
  cases hcell : row[cell.1 - 1]? with
  | none => simp
  | some value =>
    cases value with
    | none => simp
    | some text => simp [Sheets.textCell, eq_comm]

theorem cellsOf_indices (row : List (Option Sheets.ImportedValue)) :
    ((Sheets.cellsOf row).map Prod.fst).Nodup := by
  have hsub : ∀ items : List (Option Sheets.ImportedValue × Nat),
      ((items.filterMap fun item => item.1.map fun value => (item.2, value)).map Prod.fst).Sublist
        (items.map Prod.snd) := by
    intro items
    induction items with
    | nil => simp
    | cons item rest ih =>
      obtain ⟨value, index⟩ := item
      cases value with
      | none => simpa using ih.cons index
      | some value => simpa using ih
  have hrange := zipIdx_map_snd 1 row
  have hcells := hsub (row.zipIdx 1)
  rw [hrange] at hcells
  exact hcells.nodup nodup_range'

theorem mappedKey_letter {grid : Sheets.Grid} (letters : ColumnLetters u columnIndexFromString)
    (hfew : Sheets.gridWidth grid ≤ Sheets.maxSheetColumns) (value : Option String) :
    mappedKey u (importedColumns u grid) { type := .columnLetter, value := value } =
      match columnIndexFromString (value.getD "") with
      | none => none
      | some index =>
        if index ≤ Sheets.gridWidth grid then some (Sheets.importedKey index) else none := by
  have hitems : (importedColumns u grid).map (fun column =>
      (String.ofList (Sheets.letters column.position column.position []), column.columnKey)) =
        (range' 1 (Sheets.gridWidth grid)).map fun index =>
          (String.ofList (Sheets.letters index index []), Sheets.importedKey index) := by
    simp only [importedColumns, map_map]
    rfl
  have hnames : (((range' 1 (Sheets.gridWidth grid)).map fun index =>
      (String.ofList (Sheets.letters index index []), Sheets.importedKey index)).map
        Prod.fst).Nodup := by
    rw [map_map]
    apply Nodup.map _ nodup_range'
    intro i j h
    exact Sheets.letters_inj (String.ofList_inj.mp h)
  simp only [mappedKey, hitems]
  simp only [Sheets.maxSheetColumns] at hfew
  have habsent : (∀ j, 1 ≤ j → j ≤ Sheets.gridWidth grid →
      String.ofList (Sheets.letters j j []) ≠ u.upper (value.getD "")) →
      dictGet ((range' 1 (Sheets.gridWidth grid)).map fun index =>
        (String.ofList (Sheets.letters index index []), Sheets.importedKey index))
          (u.upper (value.getD "")) = none := by
    intro h
    apply dictGet_none
    intro hmem
    rw [map_map] at hmem
    obtain ⟨j, hj, heq⟩ := mem_map.mp hmem
    rw [mem_range'_1] at hj
    exact h j hj.1 (by omega) heq
  cases hindex : columnIndexFromString (value.getD "") with
  | none =>
    apply habsent
    intro j hlow hhigh heq
    have hsome := (letters.number (value.getD "") j).mpr ⟨⟨hlow, by omega⟩, heq⟩
    rw [hindex] at hsome
    cases hsome
  | some index =>
    obtain ⟨hrange, heq⟩ := (letters.number _ _).mp hindex
    by_cases hinside : index ≤ Sheets.gridWidth grid
    · simp only [hinside, if_true]
      rw [← heq]
      apply dictGet_of_mem hnames
      exact mem_map.mpr ⟨index, mem_range'_1.mpr ⟨hrange.1, by omega⟩, rfl⟩
    · simp only [hinside, if_false]
      apply habsent
      intro j hlow hhigh hsame
      have hij := Sheets.letters_inj (String.ofList_inj.mp (hsame.trans heq.symm))
      omega

/-- The cell under the key of an imported column. -/
theorem cell_at_index {row : List (Option String)} (hlow : 1 ≤ index) :
    dictGet ((importedRow draws row position).cells.map fun cell => (cell.columnKey, cell))
        (Sheets.importedKey index) = (row[index - 1]?).join.map (importedCell index) := by
  have hitems : (importedRow draws row position).cells.map (fun cell => (cell.columnKey, cell)) =
      (Sheets.cellsOf (row.map fun cell => cell.bind Sheets.textCell)).map fun cell =>
        (Sheets.importedKey cell.1, importedCell cell.1 cell.2.text) := by
    simp only [importedRow, map_map]
    rfl
  rw [hitems]
  cases hvalue : (row[index - 1]?).join with
  | none =>
    apply dictGet_none
    intro hmem
    rw [map_map] at hmem
    obtain ⟨cell, hcell, heq⟩ := mem_map.mp hmem
    have hsame := Sheets.importedKey_inj heq
    obtain ⟨-, text, hget, -⟩ := mem_cellsOf_texts.mp hcell
    rw [hsame] at hget
    rw [hget] at hvalue
    cases hvalue
  | some text =>
    have hget : row[index - 1]? = some (some text) := Option.join_eq_some_iff.mp hvalue
    apply dictGet_of_mem
    · rw [map_map]
      have hnodup := cellsOf_indices (row.map fun cell => cell.bind Sheets.textCell)
      have hkeys := Nodup.map (fun _ _ h => Sheets.importedKey_inj h) hnodup
      rw [map_map] at hkeys
      exact hkeys
    · refine mem_map.mpr ⟨(index, ⟨text, text != ""⟩), ?_, rfl⟩
      exact mem_cellsOf_texts.mpr ⟨hlow, text, hget, rfl⟩

theorem no_empty_key {row : List (Option String)} :
    dictGet ((importedRow draws row position).cells.map fun cell => (cell.columnKey, cell)) "" = none := by
  apply dictGet_none
  intro hmem
  rw [map_map] at hmem
  obtain ⟨cell, hcell, heq⟩ := mem_map.mp hmem
  obtain ⟨source, -, rfl⟩ := mem_map.mp hcell
  exact Sheets.importedKey_ne_empty source.1 heq

/-- A reference to a column letter, or to nothing. -/
def Reference.Letter (reference : Reference) : Prop :=
  reference.type = .columnLetter ∨ reference.type = .disabled

/-- A letter finds the text of the row, in a cell without a formula. -/
theorem cellAt_imported {grid : TextGrid} {draws : Sheets.Draws}
    (letters : ColumnLetters u columnIndexFromString)
    (hfew : Sheets.gridWidth grid.imported ≤ Sheets.maxSheetColumns) {row : List (Option String)}
    (hrow : row ∈ grid) (position : Nat) {reference : Reference}
    (hletter : reference.type = .columnLetter) :
    cellAt u (importedColumns u grid.imported) (importedRow draws row position) reference =
      (columnIndexFromString (reference.value.getD "")).bind fun index =>
        (row[index - 1]?).join.map (importedCell index) := by
  obtain ⟨type, value⟩ := reference
  obtain rfl : type = .columnLetter := hletter
  have hwidth : row.length ≤ Sheets.gridWidth grid.imported := by
    have hmem : (row.map fun cell => cell.bind Sheets.textCell) ∈ grid.imported :=
      mem_map_of_mem hrow
    simpa using Sheets.length_le_gridWidth hmem
  simp only [cellAt, mappedKey_letter letters hfew]
  cases hindex : columnIndexFromString (value.getD "") with
  | none => simp [no_empty_key]
  | some index =>
    have hrange := ((letters.number _ _).mp hindex).1
    by_cases hinside : index ≤ Sheets.gridWidth grid.imported
    · simp only [hinside, if_true, Option.getD_some, Option.bind_some]
      exact cell_at_index hrange.1
    · have hnone : row[index - 1]? = none := getElem?_eq_none (by omega)
      simp [hinside, no_empty_key, hnone]

section

variable {grid : TextGrid} {draws : Sheets.Draws} {row : List (Option String)} {position : Nat}
  {worksheetName : String} {dataStartRow : Nat} {reference : Reference}

/-- Both readers read the same value. -/
theorem readSheet_imported (letters : ColumnLetters u columnIndexFromString)
    (hfew : Sheets.gridWidth grid.imported ≤ Sheets.maxSheetColumns)
    (hrow : grid[position - 1]? = some row) (hlow : 1 ≤ position)
    (hletter : reference.type = .columnLetter) :
    readSheet u (importedColumns u grid.imported) (importedRow draws row position) reference =
      readExternal u columnIndexFromString [(worksheetName, grid.worksheet)] worksheetName position
        dataStartRow reference := by
  have hmem : row ∈ grid := mem_of_getElem? hrow
  have hrows : rowsOf [(worksheetName, grid.worksheet)] worksheetName = grid.worksheet := by
    simp [rowsOf]
  have hget : grid.worksheet[position - 1]? = some (row.map Cell.ofOption) := by
    rw [TextGrid.worksheet, getElem?_map, hrow]
    rfl
  simp only [readSheet, cellAt_imported letters hfew hmem position hletter, readExternal, columnIndex,
    hletter, hrows, hget]
  cases columnIndexFromString (reference.value.getD "") with
  | none => rfl
  | some index =>
    have hpositive : ¬ position < 1 := by omega
    simp only [Option.bind_some, Option.map_some, hpositive, if_false, getElem?_map]
    cases row[index - 1]? with
    | none => rfl
    | some value => cases value <;> rfl

theorem readIssues_imported (letters : ColumnLetters u columnIndexFromString)
    (hfew : Sheets.gridWidth grid.imported ≤ Sheets.maxSheetColumns) (hrow : row ∈ grid)
    (policy : ValuePolicy) (hletter : reference.type = .columnLetter) :
    readIssues u (importedColumns u grid.imported) policy (importedRow draws row position) reference =
      [] := by
  simp only [readIssues, cellAt_imported letters hfew hrow position hletter]
  cases columnIndexFromString (reference.value.getD "") with
  | none => rfl
  | some index =>
    rw [Option.bind_some]
    cases (row[index - 1]?).join with
    | none => rfl
    | some text => rfl

end

end Rows

/-- The references of a rule are column letters. -/
structure WorksheetRule.Letters (rule : WorksheetRule) : Prop where
  source : ∀ field ∈ rule.sourceFields, field.reference.Letter
  channels : ∀ channel ∈ rule.channels, ∀ item ∈ channel.fields, item.reference.Letter

/-- A Channel that is read from the worksheet of its rule. -/
def ChannelMapping.Own (worksheetName : String) (channel : ChannelMapping) : Prop :=
  channel.worksheetName = none ∨ channel.worksheetName = some "" ∨ channel.worksheetName = some worksheetName

/-- Two states of a row, the wording of their issues apart. -/
structure RowState.Alike (state other : RowState) : Prop where
  categories : state.issues.map RowIssue.category = other.issues.map RowIssue.category
  channels : state.channels = other.channels
  present : state.channelValuePresent = other.channelValuePresent

section Records

variable {u : Unicode} {columnIndexFromString : String → Option Nat} {channels : List WorkspaceChannel}
  {grid : TextGrid} {draws : Sheets.Draws} {row : List (Option String)} {position : Nat}
  {worksheetName : String} {rule : WorksheetRule}

/-- Both readers find the same in the fields that are named by a letter, and no fault. -/
theorem fields_alike {α β : Type} (field : α → β) (reference : α → Reference) {items : List α}
    (letters : ColumnLetters u columnIndexFromString)
    (hfew : Sheets.gridWidth grid.imported ≤ Sheets.maxSheetColumns)
    (hrow : grid[position - 1]? = some row) (hlow : 1 ≤ position)
    (hletters : ∀ item ∈ items, (reference item).Letter) :
    ((items.filter fun item => (reference item).type ≠ .disabled).map fun item =>
      (field item, readExternal u columnIndexFromString [(worksheetName, grid.worksheet)] worksheetName
        position rule.dataStartRow (reference item))) =
      ((items.filter fun item => (reference item).type ≠ .disabled).map fun item =>
        (field item, readSheet u (importedColumns u grid.imported) (importedRow draws row position)
          (reference item))) ∧
    (items.filter fun item => (reference item).type ≠ .disabled).flatMap (fun item =>
      readIssues u (importedColumns u grid.imported) rule.valuePolicy (importedRow draws row position)
        (reference item)) = [] := by
  have hletter : ∀ item ∈ items.filter (fun item => (reference item).type ≠ .disabled),
      (reference item).type = .columnLetter := by
    intro item hitem
    obtain ⟨hfield, henabled⟩ := mem_filter.mp hitem
    rcases hletters item hfield with heq | heq
    · exact heq
    · simp [heq] at henabled
  constructor
  · apply map_congr_left
    intro item hitem
    rw [readSheet_imported letters hfew hrow hlow (hletter item hitem)]
  · apply flatMap_eq_nil_iff.mpr
    intro item hitem
    exact readIssues_imported letters hfew (mem_of_getElem? hrow) _ (hletter item hitem)

theorem channel_alike (letters : ColumnLetters u columnIndexFromString)
    (hfew : Sheets.gridWidth grid.imported ≤ Sheets.maxSheetColumns)
    (hrow : grid[position - 1]? = some row) (hlow : 1 ≤ position)
    (hletters : ∀ item ∈ channel.fields, item.reference.Letter)
    (hown : participates channels channel = true → channel.Own worksheetName)
    (h : state.Alike other) :
    (externalChannel u columnIndexFromString channels [(worksheetName, grid.worksheet)] worksheetName
      rule position state channel).Alike
        (sheetChannel u channels (importedColumns u grid.imported) rule
          (importedRow draws row position) other channel) := by
  simp only [externalChannel, sheetChannel]
  cases hpart : participates channels channel with
  | false => exact h
  | true =>
    have hworksheet : channelWorksheet worksheetName channel = worksheetName := by
      rcases hown hpart with heq | heq | heq
      · simp [channelWorksheet, heq]
      · simp [channelWorksheet, heq]
      · simp [channelWorksheet, heq]
    obtain ⟨hfields, hissues⟩ := @fields_alike _ _ grid draws row position worksheetName rule _ _
      (·.field) (·.reference) channel.fields letters hfew hrow hlow hletters
    have hlookup : [(worksheetName, grid.worksheet)].lookup worksheetName ≠ none := by simp
    simp only [hworksheet, hlookup, if_false, hfields, hissues, append_nil, Bool.not_true, Bool.false_eq_true]
    refine ⟨?_, ?_, ?_⟩
    · split
      · simp [h.categories]
      · exact h.categories
    · simp [h.channels]
    · simp [h.present]

variable (draws rule) in
theorem channels_alike (letters : ColumnLetters u columnIndexFromString)
    (hfew : Sheets.gridWidth grid.imported ≤ Sheets.maxSheetColumns)
    (hrow : grid[position - 1]? = some row) (hlow : 1 ≤ position) {mappings : List ChannelMapping}
    (hletters : ∀ channel ∈ mappings, ∀ item ∈ channel.fields, item.reference.Letter)
    (hown : ∀ channel ∈ mappings, participates channels channel = true → channel.Own worksheetName)
    {state other : RowState} (h : state.Alike other) :
    (mappings.foldl (externalChannel u columnIndexFromString channels [(worksheetName, grid.worksheet)]
      worksheetName rule position) state).Alike
        (mappings.foldl (sheetChannel u channels (importedColumns u grid.imported) rule
          (importedRow draws row position)) other) := by
  induction mappings generalizing state other with
  | nil => exact h
  | cons channel rest ih =>
    rw [forall_mem_cons] at hletters hown
    rw [foldl_cons, foldl_cons]
    exact ih hletters.2 hown.2 (channel_alike letters hfew hrow hlow hletters.1 hown.1 h)

/-- Both readers derive the same reading from a row. -/
theorem record_alike (letters : ColumnLetters u columnIndexFromString)
    (hfew : Sheets.gridWidth grid.imported ≤ Sheets.maxSheetColumns)
    (hrow : grid[position - 1]? = some row) (hlow : 1 ≤ position) (hletters : rule.Letters)
    (hown : ∀ channel ∈ rule.channels, participates channels channel = true →
      channel.Own worksheetName) (internal : String) :
    (externalRecord u columnIndexFromString channels [(worksheetName, grid.worksheet)] worksheetName
      rule position).reading =
        (sheetRecord u channels (importedColumns u grid.imported) internal rule
          (importedRow draws row position)).reading := by
  obtain ⟨hfields, hissues⟩ := @fields_alike _ _ grid draws row position worksheetName rule _ _
    (·.field) (·.reference) rule.sourceFields letters hfew hrow hlow hletters.source
  have hempty : RowState.Alike {} {} := ⟨rfl, rfl, rfl⟩
  have hstate := channels_alike draws rule letters hfew hrow hlow hletters.channels hown hempty
  simp only [externalRecord, sheetRecord, MappedRecord.reading, hfields, hissues, hstate.channels,
    hstate.present]
  congr 1
  split
  · simp [hstate.categories, missingKeyIssue]
  · exact hstate.categories

end Records

theorem filter_zipIdx (l : List α) (start k : Nat) : (l.zipIdx k).filter (fun item => start ≤ item.2) =
      (l.drop (start - k)).zipIdx (max start k) := by
  induction l generalizing k with
  | nil => simp
  | cons a rest ih =>
    rw [zipIdx_cons, filter_cons, ih]
    by_cases hle : start ≤ k
    · have hzero : start - k = 0 := by omega
      have hzero' : start - (k + 1) = 0 := by omega
      have hmax' : max start (k + 1) = k + 1 := by omega
      simp [hle, hzero, hzero', hmax', zipIdx_cons]
    · have hdrop : start - k = (start - (k + 1)) + 1 := by omega
      have hmax : max start k = max start (k + 1) := by omega
      simp [hle, hdrop, hmax]

section Import

variable {u : Unicode} {draws : Sheets.Draws} {grid : TextGrid}

/-- A plain row is read back as it was imported. -/
theorem storedRow_imported (plain : grid.Plain u) (columns : List Sheets.Column)
    {row : List (Option String)} (hrow : row ∈ grid) (position : Nat) :
    storedRow (Sheets.rowOf u [] columns (Sheets.importedRowOf draws
      (row.map fun cell => cell.bind Sheets.textCell, position))) = importedRow draws row position := by
  simp only [storedRow, Sheets.rowOf, Sheets.importedRowOf, importedRow, map_map, SheetRow.mk.injEq, true_and]
  apply map_congr_left
  intro cell hcell
  obtain ⟨-, text, hget, hvalue⟩ := mem_cellsOf_texts.mp hcell
  have hformula := plain row hrow text (mem_of_getElem? hget)
  simp [Function.comp_apply, Sheets.cellOf, importedCell, lookup_nil, Option.bind_none, hvalue, hformula]

/-- The grid in a saved revision. -/
theorem storedRevision_imported (draws : Sheets.Draws) (plain : grid.Plain u) (id sheetId : Id) (checksum : String) :
    (storedRevision id sheetId checksum (Sheets.importedRevision u draws [] grid.imported)).columns =
        importedColumns u grid.imported ∧
      (storedRevision id sheetId checksum (Sheets.importedRevision u draws [] grid.imported)).rows =
        (grid.zipIdx 1).map fun item => importedRow draws item.1 item.2 := by
  refine ⟨rfl, ?_⟩
  simp only [storedRevision, Sheets.importedRevision, TextGrid.imported, zipIdx_map, map_map]
  apply map_congr_left
  intro item hitem
  exact storedRow_imported plain _ (fst_mem_of_mem_zipIdx hitem) item.2

theorem gridValues_plain (plain : grid.Plain u) :
    ∀ v ∈ Sheets.gridValues grid.imported, Sheets.formulaOf u v.2 = none := by
  intro v hv
  simp only [Sheets.gridValues, TextGrid.imported, zipIdx_map, flatMap_map] at hv
  obtain ⟨item, hitem, hv⟩ := mem_flatMap.mp hv
  obtain ⟨cell, hcell, rfl⟩ := mem_map.mp hv
  obtain ⟨-, text, hget, hvalue⟩ := mem_cellsOf_texts.mp hcell
  rw [hvalue]
  exact plain item.1 (fst_mem_of_mem_zipIdx hitem) text (mem_of_getElem? hget)

end Import

section Agreement

variable {u : Unicode} {columnIndexFromString : String → Option Nat} {engine : Sheets.Engine}
  {readers : Sheets.Readers} {draws : Sheets.Draws} {ids : Sheets.NewIds} {db : Sheets.Db}

/-- A worksheet without formulas is read alike from its import and by itself, with every saved mapping
by column letters that reads the worksheet and no other. -/
theorem readers_agree (law : u.Printable) (letters : ColumnLetters u columnIndexFromString)
    (evaluates : EvaluatesFormulas u engine) (distinct : draws.Distinct u) (fresh : ids.Fresh db)
    (channels : List WorkspaceChannel) {request : Sheets.ImportRequest} {user : Nat} {grid : TextGrid}
    (plain : grid.Plain u) {sheets : List (String × Sheets.Grid)} {sourceChecksum : String}
    (hacquire : Sheets.acquireImport u readers request = .ok (grid.imported, sheets, sourceChecksum))
    {revision : Sheets.Revision}
    (himport : (Sheets.importSheet u engine readers draws ids request user db).1 = .ok revision)
    (id sheetId : Id) (checksum : String) {mapping : SourceMappingRevision} (saved : Saved u mapping)
    (hletters : ∀ rule ∈ mapping.ruleSet.rules, rule.Letters)
    (hown : ∀ rule ∈ mapping.ruleSet.rules, ∀ channel ∈ rule.channels,
      participates channels channel = true → channel.Own request.worksheetName)
    {records : List MappedRecord}
    (hread : mappedExternalRecords u columnIndexFromString channels
      [(request.worksheetName, grid.worksheet)] mapping = .ok records) :
    (mappedSheetRecords u channels (storedRevision id sheetId checksum revision) mapping).map
      MappedRecord.reading = records.map MappedRecord.reading := by
  obtain ⟨hfew, results, hresults, rfl⟩ := Sheets.importSheet_ok law fresh distinct hacquire himport
  rw [evaluates _ (gridValues_plain plain)] at hresults
  cases hresults
  obtain ⟨hcolumns, hrows⟩ := storedRevision_imported draws plain id sheetId checksum
  obtain ⟨work, hwork, rfl⟩ := Txn.map_eq_ok.mp hread
  obtain ⟨rule, selects⟩ := selects_of_saved saved hwork
  obtain rfl := selects.external
  have hstart := selects.start
  have hown' := hown rule selects.mem
  have hletters' := hletters rule selects.mem
  have hlength : (rowsOf [(request.worksheetName, grid.worksheet)] request.worksheetName).length =
      grid.length := by
    simp [rowsOf, TextGrid.worksheet]
  -- The rows from the start row on, with their numbers.
  have hkept : (grid.zipIdx 1).filter (fun item => rule.dataStartRow ≤ item.2) =
      (grid.drop (rule.dataStartRow - 1)).zipIdx rule.dataStartRow := by
    rw [filter_zipIdx, max_eq_left hstart]
  have hnumbers : range' rule.dataStartRow (grid.length + 1 - rule.dataStartRow) =
      ((grid.zipIdx 1).filter fun item => rule.dataStartRow ≤ item.2).map Prod.snd := by
    have hcount : grid.length + 1 - rule.dataStartRow = grid.length - (rule.dataStartRow - 1) := by
      omega
    rw [hkept, zipIdx_map_snd, length_drop, hcount]
  have hsheet : (storedRevision id sheetId checksum
      (Sheets.importedRevision u draws [] grid.imported)).rows.filter
        (fun row => rule.dataStartRow ≤ row.position) =
      ((grid.zipIdx 1).filter fun item => rule.dataStartRow ≤ item.2).map fun item =>
        importedRow draws item.1 item.2 := by
    rw [hrows, filter_map]
    rfl
  have hreadings : (((grid.zipIdx 1).filter fun item => rule.dataStartRow ≤ item.2).map fun item =>
      sheetRecord u channels (importedColumns u grid.imported) (internalName mapping) rule
        (importedRow draws item.1 item.2)).map MappedRecord.reading =
      (((grid.zipIdx 1).filter fun item => rule.dataStartRow ≤ item.2).map fun item =>
        externalRecord u columnIndexFromString channels [(request.worksheetName, grid.worksheet)]
          request.worksheetName rule item.2).map MappedRecord.reading := by
    rw [map_map, map_map]
    apply map_congr_left
    intro item hitem
    obtain ⟨hlow, hget⟩ := mem_zipIdx_iff_le_and_getElem?_sub.mp (mem_of_mem_filter hitem)
    exact (record_alike letters hfew hget hlow hletters' hown' (internalName mapping)).symm
  have hinternal : ∀ record ∈ ((grid.zipIdx 1).filter fun item => rule.dataStartRow ≤ item.2).map
      (fun item => sheetRecord u channels (importedColumns u grid.imported) (internalName mapping) rule
        (importedRow draws item.1 item.2)), record.worksheetName = internalName mapping := by
    intro record hrecord
    obtain ⟨item, -, rfl⟩ := mem_map.mp hrecord
    rfl
  have hexternal : ∀ record ∈ ((grid.zipIdx 1).filter fun item => rule.dataStartRow ≤ item.2).map
      (fun item => externalRecord u columnIndexFromString channels
        [(request.worksheetName, grid.worksheet)] request.worksheetName rule item.2),
      record.worksheetName = request.worksheetName := by
    intro record hrecord
    obtain ⟨item, -, rfl⟩ := mem_map.mp hrecord
    rfl
  have hpolicy := applyPolicy_reading (u := u) .block hinternal
  rw [hreadings, ← applyPolicy_reading mapping.ruleSet.duplicateProductPolicy hexternal] at hpolicy
  simp only [mappedSheetRecords, selects.sheet, hsheet, hcolumns, hlength, hnumbers,
    flatMap_cons, flatMap_nil, append_nil, map_map, Function.comp_def] at hpolicy ⊢
  exact hpolicy

end Agreement

namespace Sample

/-- The number of the column with the letters of a text. -/
def columnIndexFromString (text : String) : Option Nat :=
  (List.range' 1 18278).find? fun index =>
    String.ofList (Sheets.letters index index []) = Unicode.ascii.upper text

/-- An engine that finds one in every formula. -/
def engine : Sheets.Engine := fun values => .ok (values.filterMap fun v =>
  (Sheets.formulaOf .ascii v.2).map fun _ => (v.1, { value := some "1", dependencies := [] }))

def channels : List WorkspaceChannel := [{ id := "c" }]

def letter (text : String) : Reference where
  type := .columnLetter
  value := some text

def sourceFields : List SourceFieldMapping :=
  [{ field := .name, reference := letter "A", required := true },
   { field := .sourceKey, reference := letter "A", required := true }]

/-- The identifier of a Channel in B. -/
def channelMapping (worksheetName : Option String) : ChannelMapping where
  channelId := "c"
  worksheetName := worksheetName
  fields := [{ field := .externalId, reference := letter "B" }]

def request (worksheetName : String) (channelWorksheet : Option String) : ScopeRequest where
  worksheetMode := .selected
  worksheetName := some worksheetName
  shared :=
    { worksheetName := worksheetName
      sourceFields := sourceFields
      channels := [channelMapping channelWorksheet] }

def mapping (worksheetName : String) (channelWorksheet : Option String) : SourceMappingRevision where
  id := "mapping"
  sourceId := "source"
  checksum := "checksum"
  version := 1
  worksheetMode := .selected
  worksheetName := some worksheetName
  ruleSet := { rules := [ruleUnder worksheetName (request worksheetName channelWorksheet).shared] }

def grid (rows : List (List String)) : TextGrid := rows.map fun row => row.map some

/-- What the reader of sheets makes of the rows, imported as a file. -/
def sheetReadings (rows : List (List String)) (mapping : SourceMappingRevision) : List Reading :=
  match (Sheets.importSheet .ascii engine (Sheets.SampleImport.readers rows) Sheets.SampleImport.draws
      Sheets.SampleImport.newIds Sheets.SampleImport.request 1 {}).1 with
  | .error _ => []
  | .ok revision => (mappedSheetRecords .ascii channels
      (storedRevision "revision" "sheet" "checksum" revision) mapping).map MappedRecord.reading

/-- What the reader of workbooks makes of them. -/
def externalReadings (rows : List (List String)) (mapping : SourceMappingRevision) :
    Except ReadFault (List Reading) :=
  (mappedExternalRecords .ascii columnIndexFromString channels [("Sheet1", (grid rows).worksheet)]
    mapping).map fun records => records.map MappedRecord.reading

theorem columnLetters : ColumnLetters .ascii columnIndexFromString where
  number text index := by
    constructor
    · intro h
      have hmem := mem_range'_1.mp (mem_of_find?_eq_some h)
      have hletters := find?_some h
      exact ⟨⟨hmem.1, by omega⟩, by simpa using hletters⟩
    · rintro ⟨hrange, hletters⟩
      cases hfound : columnIndexFromString text with
      | none =>
        have hall := find?_eq_none.mp hfound index (mem_range'_1.mpr ⟨hrange.1, by omega⟩)
        exact absurd hletters (by simpa using hall)
      | some other =>
        have hother := find?_some hfound
        have hsame : String.ofList (Sheets.letters other other []) = Unicode.ascii.upper text := by
          simpa using hother
        rw [Sheets.letters_inj (String.ofList_inj.mp (hsame.trans hletters.symm))]

theorem saved : Saved .ascii (mapping "Sheet1" none) := by
  have hstored : saveScope .ascii (request "Sheet1" none) =
      .ok (some "Sheet1", (mapping "Sheet1" none).ruleSet) := by decide +kernel
  exact .current hstored rfl

theorem rule_letters : ∀ rule ∈ (mapping "Sheet1" none).ruleSet.rules, rule.Letters := by
  intro rule hrule
  obtain rfl := mem_singleton.mp hrule
  constructor
  · intro field hfield
    have hfield : field ∈ sourceFields := hfield
    simp only [sourceFields, mem_cons, not_mem_nil, or_false] at hfield
    rcases hfield with rfl | rfl
    · exact .inl rfl
    · exact .inl rfl
  · intro channel hchannel item hitem
    obtain rfl := mem_singleton.mp hchannel
    obtain rfl := mem_singleton.mp hitem
    exact .inl rfl

theorem channels_own : ∀ rule ∈ (mapping "Sheet1" none).ruleSet.rules, ∀ channel ∈ rule.channels,
    participates channels channel = true → channel.Own "Sheet1" := by
  intro rule hrule channel hchannel _
  obtain rfl := mem_singleton.mp hrule
  obtain rfl := mem_singleton.mp hchannel
  exact .inl rfl

theorem evaluates : EvaluatesFormulas .ascii engine := by
  intro values h
  have hnone : values.filterMap (fun v => (Sheets.formulaOf .ascii v.2).map fun _ =>
      (v.1, ({ value := some "1", dependencies := [] } : Sheets.FormulaResult))) = [] := by
    apply filterMap_eq_nil_iff.mpr
    intro v hv
    rw [h v hv]
    rfl
  rw [engine, hnone]

end Sample

open Sample

/-- Two rows under one key, the second in other letters. -/
theorem duplicates_alike : ∃ revision records,
    (Sheets.importSheet .ascii engine (Sheets.SampleImport.readers [["sku", "7"], ["SKU", "8"]])
      Sheets.SampleImport.draws Sheets.SampleImport.newIds Sheets.SampleImport.request 1 {}).1 =
        .ok revision ∧
    mappedExternalRecords .ascii columnIndexFromString channels
      [("Sheet1", (grid [["sku", "7"], ["SKU", "8"]]).worksheet)]
        (mapping "Sheet1" none) = .ok records ∧
    (mappedSheetRecords .ascii channels (storedRevision "revision" "sheet" "checksum" revision)
      (mapping "Sheet1" none)).map MappedRecord.reading = records.map MappedRecord.reading := by
  have hacquire : Sheets.acquireImport .ascii
      (Sheets.SampleImport.readers [["sku", "7"], ["SKU", "8"]]) Sheets.SampleImport.request =
        .ok ((grid [["sku", "7"], ["SKU", "8"]]).imported,
          [("Sheet1", (grid [["sku", "7"], ["SKU", "8"]]).imported)], "checksum") := rfl
  have hplain : (grid [["sku", "7"], ["SKU", "8"]]).Plain .ascii := by
    have hall : ∀ row ∈ grid [["sku", "7"], ["SKU", "8"]], ∀ cell ∈ row,
        Sheets.formulaOf .ascii cell = none := by decide +kernel
    intro row hrow text htext
    exact hall row hrow (some text) htext
  cases himport : (Sheets.importSheet .ascii engine
      (Sheets.SampleImport.readers [["sku", "7"], ["SKU", "8"]]) Sheets.SampleImport.draws
      Sheets.SampleImport.newIds Sheets.SampleImport.request 1 {}).1 with
  | error fault =>
    have hok : (Sheets.importSheet .ascii engine
      (Sheets.SampleImport.readers [["sku", "7"], ["SKU", "8"]]) Sheets.SampleImport.draws
      Sheets.SampleImport.newIds Sheets.SampleImport.request 1 {}).1.isOk = true := by decide +kernel
    rw [himport] at hok
    cases hok
  | ok revision =>
    cases hread : mappedExternalRecords .ascii columnIndexFromString channels
        [("Sheet1", (grid [["sku", "7"], ["SKU", "8"]]).worksheet)]
          (mapping "Sheet1" none) with
    | error fault =>
      have hok : (mappedExternalRecords .ascii columnIndexFromString channels
        [("Sheet1", (grid [["sku", "7"], ["SKU", "8"]]).worksheet)]
          (mapping "Sheet1" none)).isOk = true := by decide +kernel
      rw [hread] at hok
      cases hok
    | ok records =>
      refine ⟨revision, records, rfl, rfl, ?_⟩
      exact readers_agree Unicode.ascii_printable Sample.columnLetters evaluates
        Sheets.SampleImport.draws_distinct Sheets.SampleImport.newIds_fresh channels hplain
        hacquire himport "revision" "sheet" "checksum" Sample.saved rule_letters
        channels_own hread

/-- A text whose first character but blanks is an equals sign, a Channel on another worksheet, and a
mapping of another worksheet. -/
theorem readers_differ : externalReadings [[" =1", "7"]] (Sample.mapping "Sheet1" none) ≠
      .ok (sheetReadings [[" =1", "7"]] (Sample.mapping "Sheet1" none)) ∧
    externalReadings [["sku", "7"]] (Sample.mapping "Sheet1" (some "Prices")) ≠
      .ok (sheetReadings [["sku", "7"]] (Sample.mapping "Sheet1" (some "Prices"))) ∧
    externalReadings [["sku", "7"]] (Sample.mapping "Prices" none) ≠
      .ok (sheetReadings [["sku", "7"]] (Sample.mapping "Prices" none)) := by
  refine ⟨by decide +kernel, by decide +kernel, by decide +kernel⟩

end FlowHub.Source
