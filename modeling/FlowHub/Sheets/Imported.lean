import FlowHub.Related
import FlowHub.Sheets.Creation

namespace FlowHub.Sheets

open Python Txn List

theorem toLower_visible {c : Char} (h : 65 ≤ c.toNat ∧ c.toNat < 91) :
    33 ≤ c.toLower.toNat ∧ c.toLower.toNat < 127 := by
  have hall : ∀ n ∈ range' 65 26,
      33 ≤ (Char.ofNat n).toLower.toNat ∧ (Char.ofNat n).toLower.toNat < 127 := by decide
  have hc := hall c.toNat (mem_range'_1.mpr ⟨h.1, by omega⟩)
  rwa [Char.ofNat_toNat] at hc

theorem importedKey_toList (index : Nat) :
    (importedKey index).toList = "col-".toList ++ (letters index index []).map Char.toLower := by
  simp [importedKey]

theorem importedKey_visible (index : Nat) :
    ∀ c ∈ (importedKey index).toList, 33 ≤ c.toNat ∧ c.toNat < 127 := by
  intro c hc
  rw [importedKey_toList] at hc
  rcases mem_append.mp hc with hc | hc
  · have hprefix : ∀ c ∈ "col-".toList, 33 ≤ c.toNat ∧ c.toNat < 127 := by simp
    exact hprefix c hc
  · obtain ⟨letter, hletter, rfl⟩ := mem_map.mp hc
    exact toLower_visible (letters_visible (by simp) letter hletter)

theorem importedKey_ne_empty (index : Nat) : importedKey index ≠ "" := by
  intro h
  have hlist := congrArg String.toList h
  rw [importedKey_toList] at hlist
  exact absurd (append_eq_nil_iff.mp hlist).1 (by decide)

theorem importedKey_brief (h : index ≤ maxSheetColumns) : (importedKey index).length ≤ 36 := by
  have hbound : index < 26 ^ 2 := by
    simp only [maxSheetColumns] at h
    omega
  have hletters : (letters index index []).length ≤ [].length + 2 := letters_length [] hbound
  have hword : "col-".toList.length = 4 := by decide
  rw [← String.length_toList, importedKey_toList, length_append, length_map]
  rw [length_nil] at hletters
  omega

/-- The number that letters stand for, behind what has been read of them. -/
def lettersValue (n : Nat) (cs : List Char) : Nat := cs.foldl (fun n c => 26 * n + (c.toNat - 64)) n

theorem lettersValue_letters (acc : List Char) (h : n ≤ fuel) :
    lettersValue 0 (letters fuel n acc) = lettersValue n acc := by
  induction fuel generalizing n acc with
  | zero =>
    obtain rfl := Nat.le_zero.mp h
    rfl
  | succ fuel ih =>
    rw [letters]
    split
    · rename_i hzero
      rw [hzero]
    have hvalid : Nat.isValidChar (65 + (n - 1) % 26) := by
      left
      omega
    have hcode : (Char.ofNat (65 + (n - 1) % 26)).toNat = 65 + (n - 1) % 26 := by
      rw [Char.ofNat, dif_pos hvalid]
      rfl
    rw [ih _ (by omega), lettersValue, foldl_cons, hcode]
    have hdigit : 26 * ((n - 1) / 26) + (65 + (n - 1) % 26 - 64) = n := by omega
    rw [hdigit]
    rfl

/-- A position is told by its letters. -/
theorem letters_inj (h : letters i i [] = letters j j []) : i = j := by
  have hvalue := congrArg (lettersValue 0) h
  rw [lettersValue_letters [] (le_refl i), lettersValue_letters [] (le_refl j)] at hvalue
  exact hvalue

theorem toUpper_toLower {c : Char} (h : 65 ≤ c.toNat ∧ c.toNat < 91) : c.toLower.toUpper = c := by
  have hall : ∀ n ∈ range' 65 26, (Char.ofNat n).toLower.toUpper = Char.ofNat n := by decide
  have hc := hall c.toNat (mem_range'_1.mpr ⟨h.1, by omega⟩)
  rwa [Char.ofNat_toNat] at hc

theorem importedKey_inj (h : importedKey i = importedKey j) : i = j := by
  have hupper : ∀ n, ((letters n n []).map Char.toLower).map Char.toUpper = letters n n [] := by
    intro n
    rw [map_map]
    refine (map_congr_left ?_).trans (map_id _)
    intro c hc
    exact toUpper_toLower (letters_visible (by simp) c hc)
  have hlist := congrArg String.toList h
  rw [importedKey_toList, importedKey_toList] at hlist
  have hlower := congrArg (map Char.toUpper) (append_cancel_left hlist)
  rw [hupper, hupper] at hlower
  exact letters_inj hlower

/-- The columns of an import are all under keys of their own. -/
theorem importedKeys_nodup (width : Nat) : ((range' 1 width).map importedKey).Nodup :=
  Nodup.map (fun _ _ h => importedKey_inj h) nodup_range'

section Columns

variable {u : Unicode}

variable {grid : Grid} {index : Nat}

/-- The column that `import_sheet` asks for at an index. -/
def importedInput (u : Unicode) (grid : Grid) (index : Nat) : ColumnInput where
  columnKey := some (importedKey index)
  name := cleanName u (headerText (grid.head?.bind fun row => row[index - 1]?)) (defaultName index)
  position := index

theorem importedColumn_ok (hlow : 1 ≤ index) (hhigh : index ≤ 18278) :
    importedColumn u grid index = .ok (importedInput u grid index) := by
  rw [importedColumn, columnName, if_neg (by omega)]
  rfl

theorem importedColumns_of_width (h : gridWidth grid ≤ 18278) : importedColumns u grid =
      .ok ((range' 1 (gridWidth grid)).map (importedInput u grid)) := by
  rw [importedColumns, mapM_ok, forall₂_map_right_iff]
  apply forall₂_same.mpr
  intro index hindex
  rw [mem_range'_1] at hindex
  exact importedColumn_ok hindex.1 (by omega)

theorem importedColumns_ok (h : importedColumns u grid = .ok inputs) :
    inputs = (range' 1 (gridWidth grid)).map (importedInput u grid) := by
  by_cases hwidth : gridWidth grid ≤ 18278
  · rw [importedColumns_of_width hwidth] at h
    exact (Except.ok.inj h).symm
  · have hmem : 18279 ∈ range' 1 (gridWidth grid) := mem_range'_1.mpr (by omega)
    obtain ⟨input, hinput⟩ := forall₂_right (mapM_ok.mp h) hmem
    cases hinput

/-- The column that is saved of an imported one. -/
def importedColumnOf (u : Unicode) (grid : Grid) (index : Nat) : Column where
  columnKey := importedKey index
  name := cleanName u (importedInput u grid index).name (defaultName index)
  position := index
  dataType := "text"

theorem importedKey_stripped (law : u.Printable) (index : Nat) :
    strip u (importedKey index).toList = (importedKey index).toList := by
  apply strip_of_visible
  intro c hc
  have hcode := importedKey_visible index c hc
  exact law.isSpace_ascii c hcode.1 hcode.2

theorem columnOf_imported (law : u.Printable) (hlow : 1 ≤ index) (i : Nat) :
    columnOf u ids (importedInput u grid index, i) = importedColumnOf u grid index := by
  have hkey : keyOf u (some (importedKey index)) (ids i) = importedKey index :=
    keyOf_of_stripped (importedKey_ne_empty index) (importedKey_stripped law index) _
  have hposition : positionOf (index : Int) i = index := positionOf_nat hlow i
  have htype : dataTypeOf "text" = "text" := by decide
  simp [columnOf, importedInput, importedColumnOf, hkey, hposition, Int.toNat_natCast, htype]

theorem columnsOf_imported (law : u.Printable) (grid : Grid) (ids : Nat → Id) :
    ((((range' 1 (gridWidth grid)).map (importedInput u grid)).zipIdx 1).map (columnOf u ids)) =
      (range' 1 (gridWidth grid)).map (importedColumnOf u grid) := by
  apply map_zipIdx
  intro index hindex i
  rw [mem_range'_1] at hindex
  exact columnOf_imported law hindex.1 i

theorem importedColumnOf_keys (grid : Grid) (indices : List Nat) :
    (indices.map (importedColumnOf u grid)).map Column.columnKey = indices.map importedKey := by
  rw [map_map]
  rfl

theorem importedColumnOf_positions (grid : Grid) (indices : List Nat) :
    (indices.map (importedColumnOf u grid)).map Column.position = indices := by
  rw [map_map]
  exact map_id indices

theorem acceptable_imported (law : u.Printable) (grid : Grid) (ids : Nat → Id) :
    Acceptable u ids ((range' 1 (gridWidth grid)).map (importedInput u grid)) ↔
      1 ≤ gridWidth grid ∧ gridWidth grid ≤ maxSheetColumns := by
  constructor
  · intro h
    have hnonempty := h.nonempty
    have hfew := h.few
    rw [length_map, length_range'] at hfew
    refine ⟨?_, hfew⟩
    by_contra hzero
    have hwidth : gridWidth grid = 0 := by omega
    simp [hwidth] at hnonempty
  · intro h
    refine ⟨?_, by simpa using h.2, ?_⟩
    · rw [ne_eq, map_eq_nil_iff, range'_eq_nil_iff]
      omega
    rw [columnsOf_imported law]
    refine ⟨?_, ?_, ?_⟩
    · intro column hcolumn
      obtain ⟨index, hindex, rfl⟩ := mem_map.mp hcolumn
      rw [mem_range'_1] at hindex
      have hfew : index ≤ 200 := by
        have hwidth := h.2
        simp only [maxSheetColumns] at hwidth
        omega
      have hhigh : index ≤ 18278 := by omega
      have htype : "text" ≠ "" ∧ "text".toList.take 30 = "text".toList := by decide
      exact ⟨importedKey_ne_empty index, importedKey_stripped law index, importedKey_brief hfew,
        hindex.1, hhigh, htype.1, htype.2⟩
    · rw [importedColumnOf_keys]
      exact importedKeys_nodup _
    · rw [importedColumnOf_positions]
      exact nodup_range'

/-- The columns of an import are saved in their order. -/
theorem normalizeColumns_imported (law : u.Printable) (ids : Nat → Id)
    (hlow : 1 ≤ gridWidth grid) (hfew : gridWidth grid ≤ maxSheetColumns) :
    normalizeColumns u ids ((range' 1 (gridWidth grid)).map (importedInput u grid)) =
      .ok ((range' 1 (gridWidth grid)).map (importedColumnOf u grid)) := by
  obtain ⟨columns, hcolumns⟩ :=
    normalizeColumns_iff.mpr ((acceptable_imported law grid ids).mpr ⟨hlow, hfew⟩)
  have hsorted := (normalizeColumns_ok hcolumns).2
  rw [columnsOf_imported law, Pairwise.insertionSort_eq] at hsorted
  · rw [hcolumns, hsorted]
  · rw [pairwise_map]
    exact (pairwise_lt_range' 1).imp fun h => Nat.le_of_lt h

end Columns

/-- What `uuid4` draws: texts of their own, with no whitespace around them. -/
structure Draws.Distinct (u : Unicode) (draws : Draws) : Prop where
  nonempty : ∀ i, draws.appended i ≠ ""
  stripped : ∀ i, strip u (draws.appended i).toList = (draws.appended i).toList
  distinct : ∀ i j, draws.appended i = draws.appended j → i = j

section Rows

variable {draws : Draws}

variable {grid : Grid}

theorem length_le_gridWidth (h : row ∈ grid) : row.length ≤ gridWidth grid := by
  induction grid with
  | nil => cases h
  | cons first rest ih =>
    simp only [gridWidth, map_cons, foldr_cons] at ih ⊢
    rcases mem_cons.mp h with rfl | h
    · exact Nat.le_max_left _ _
    · exact le_trans (ih h) (Nat.le_max_right _ _)

/-- The cells of an imported row, under the indices of their columns. -/
def cellsOf (row : List (Option ImportedValue)) : List (Nat × ImportedValue) :=
  (row.zipIdx 1).filterMap fun item => item.1.map fun value => (item.2, value)

theorem mem_cellsOf : cell ∈ cellsOf row ↔ 1 ≤ cell.1 ∧ row[cell.1 - 1]? = some (some cell.2) := by
  simp only [cellsOf, mem_filterMap, Prod.exists, mem_zipIdx_iff_le_and_getElem?_sub, Option.map_eq_some_iff]
  constructor
  · rintro ⟨_, index, ⟨hlow, hget⟩, value, rfl, rfl⟩
    exact ⟨hlow, hget⟩
  · rintro ⟨hlow, hget⟩
    exact ⟨some cell.2, cell.1, ⟨hlow, hget⟩, cell.2, rfl, rfl⟩

/-- The row that is saved of an imported one. -/
def importedRowOf (draws : Draws) (item : List (Option ImportedValue) × Nat) : NormalRow where
  rowKey := draws.appended item.2
  position := item.2
  values := (cellsOf item.1).map fun cell => (importedKey cell.1, some cell.2.text)

theorem importedRow_values (row : List (Option ImportedValue)) (index : Nat) :
    (importedRow draws row index).values =
      (cellsOf row).map fun cell => (importedKey cell.1, some cell.2.text) := by
  simp only [importedRow, cellsOf, map_filterMap, Option.map_map]
  rfl

theorem rowsOf_imported (distinct : draws.Distinct u) (grid : Grid) (ids : Nat → Id) :
    ((importedRows draws grid).zipIdx 1).map (rowOfInput u ids) =
      (grid.zipIdx 1).map (importedRowOf draws) := by
  apply map_zipIdx
  intro item hitem i
  have hlow : 1 ≤ item.2 := (mem_zipIdx hitem).1
  have hkey : keyOf u (some (draws.appended item.2)) (ids i) = draws.appended item.2 :=
    keyOf_of_stripped (distinct.nonempty _) (distinct.stripped _) _
  have hposition : positionOf (item.2 : Int) i = item.2 := positionOf_nat hlow i
  simp only [rowOfInput, importedRow_values, importedRowOf]
  simp [importedRow, hkey, hposition, Int.toNat_natCast]

theorem importedRowOf_positions (grid : Grid) (k : Nat) :
    ((grid.zipIdx k).map (importedRowOf draws)).map NormalRow.position = range' k grid.length := by
  rw [map_map]
  exact zipIdx_map_snd k grid

theorem importedRowOf_keys (grid : Grid) (k : Nat) :
    ((grid.zipIdx k).map (importedRowOf draws)).map NormalRow.rowKey =
      (range' k grid.length).map draws.appended := by
  have hkeys : ((grid.zipIdx k).map (importedRowOf draws)).map NormalRow.rowKey =
      ((grid.zipIdx k).map Prod.snd).map draws.appended := by
    rw [map_map, map_map]
    rfl
  rw [hkeys, zipIdx_map_snd]

/-- The rows of an import are saved in their order, unless they are too many. -/
theorem normalizeRows_imported (distinct : draws.Distinct u) (ids : Nat → Id) :
    normalizeRows u ids (importedRows draws grid)
        ((range' 1 (gridWidth grid)).map (importedColumnOf u grid)) =
      if maxSheetRows < grid.length then .error (.unprocessable "SHEET_ROW_LIMIT")
      else .ok ((grid.zipIdx 1).map (importedRowOf draws)) := by
  have hlength : (importedRows draws grid).length = grid.length := by simp [importedRows]
  rw [normalizeRows, hlength]
  split
  · rfl
  have hknown : ∀ item ∈ (importedRows draws grid).zipIdx 1, RowOk u (rowOfInput u ids item) ∧
      ∀ v ∈ item.1.values, v.1 ∈ ((range' 1 (gridWidth grid)).map (importedColumnOf u grid)).map
          Column.columnKey := by
    intro item hitem
    have hrow : rowOfInput u ids item ∈ (grid.zipIdx 1).map (importedRowOf draws) := by
      rw [← rowsOf_imported distinct grid ids]
      exact mem_map_of_mem hitem
    obtain ⟨⟨row, index⟩, hmem, heq⟩ := mem_map.mp hrow
    have hplace := mem_zipIdx hmem
    rw [← heq]
    refine ⟨⟨distinct.stripped index, hplace.1⟩, ?_⟩
    intro v hv
    have hvalues : v ∈ (importedRowOf draws (row, index)).values := by
      rw [heq]
      exact hv
    obtain ⟨cell, hcell, rfl⟩ := mem_map.mp hvalues
    obtain ⟨hlow, hget⟩ := mem_cellsOf.mp hcell
    obtain ⟨hbound, -⟩ := List.getElem?_eq_some_iff.mp hget
    have hwidth := length_le_gridWidth (fst_mem_of_mem_zipIdx hmem)
    rw [importedColumnOf_keys]
    exact mem_map_of_mem (mem_range'_1.mpr ⟨hlow, by omega⟩)
  have hkeys : (((importedRows draws grid).zipIdx 1).map (rowOfInput u ids)).map
      NormalRow.rowKey |>.Nodup := by
    rw [rowsOf_imported distinct, importedRowOf_keys]
    exact Nodup.map (fun i j h => distinct.distinct i j h) nodup_range'
  have hpositions : (((importedRows draws grid).zipIdx 1).map (rowOfInput u ids)).map
      NormalRow.position |>.Nodup := by
    rw [rowsOf_imported distinct, importedRowOf_positions]
    exact nodup_range'
  have hfold : ((importedRows draws grid).zipIdx 1).foldlM (addRow u ids
      (((range' 1 (gridWidth grid)).map (importedColumnOf u grid)).map Column.columnKey)) [] =
        .ok ([] ++ ((importedRows draws grid).zipIdx 1).map (rowOfInput u ids)) :=
    foldlM_distinct (fun _ _ hok hkey hposition => addRow_of_ok hok.1 hok.2 hkey hposition) hknown
      (by simpa [Function.comp_def] using hkeys)
      (by simpa [Function.comp_def] using hpositions)
  rw [hfold, nil_append, rowsOf_imported distinct]
  have hsorted : ((grid.zipIdx 1).map (importedRowOf draws)).Pairwise
      fun a b => a.position ≤ b.position := by
    have hpairs : (((grid.zipIdx 1).map (importedRowOf draws)).map NormalRow.position).Pairwise
        (· < ·) := by
      rw [importedRowOf_positions]
      exact pairwise_lt_range' 1
    exact (pairwise_map.mp hpairs).imp fun h => Nat.le_of_lt h
  exact congrArg Except.ok (Pairwise.insertionSort_eq hsorted)

/-- The values of an imported grid by reference. -/
def gridValues (grid : Grid) : List (String × Option String) :=
  (grid.zipIdx 1).flatMap fun item => (cellsOf item.1).map fun cell =>
    (String.ofList (letters cell.1 cell.1 []) ++ toString item.2, some cell.2.text)

theorem find_importedColumn (hlow : 1 ≤ index) (hindex : index ≤ gridWidth grid) :
    ((range' 1 (gridWidth grid)).map (importedColumnOf u grid)).find?
        (fun c => decide (c.columnKey = importedKey index)) = some (importedColumnOf u grid index) := by
  have hkeys : (((range' 1 (gridWidth grid)).map (importedColumnOf u grid)).map
      Column.columnKey).Nodup := by
    rw [importedColumnOf_keys]
    exact importedKeys_nodup _
  have hmem : importedColumnOf u grid index ∈
      (range' 1 (gridWidth grid)).map (importedColumnOf u grid) :=
    mem_map_of_mem (mem_range'_1.mpr ⟨hlow, by omega⟩)
  exact Table.get_of_mem hkeys hmem

theorem reference_imported (hlow : 1 ≤ index) (hindex : index ≤ gridWidth grid) (position : Nat) :
    reference ((range' 1 (gridWidth grid)).map (importedColumnOf u grid)) (importedKey index)
      position = String.ofList (letters index index []) ++ toString position := by
  rw [reference, find_importedColumn hlow hindex]
  rfl

theorem sheetValues_imported (grid : Grid) :
    sheetValues ((range' 1 (gridWidth grid)).map (importedColumnOf u grid))
      ((grid.zipIdx 1).map (importedRowOf draws)) = gridValues grid := by
  rw [sheetValues, flatMap_map, gridValues]
  apply flatMap_congr
  intro item hitem
  simp only [importedRowOf, map_map]
  apply map_congr_left
  intro cell hcell
  obtain ⟨hlow, hget⟩ := mem_cellsOf.mp hcell
  obtain ⟨hbound, -⟩ := List.getElem?_eq_some_iff.mp hget
  have hwidth := length_le_gridWidth (fst_mem_of_mem_zipIdx hitem)
  simp only [Function.comp_apply]
  rw [reference_imported hlow (by omega)]

end Rows

/-- The revision that an import saves. -/
def importedRevision (u : Unicode) (draws : Draws) (results : List (String × FormulaResult))
    (grid : Grid) : Revision :=
  let columns := (List.range' 1 (gridWidth grid)).map (importedColumnOf u grid)
  { version := 1
    columns := columns
    rows := ((grid.zipIdx 1).map (importedRowOf draws)).map (rowOf u results columns) }

/-- A grid whose revision can be saved. -/
structure Importable (engine : Engine) (grid : Grid) : Prop where
  nonempty : 1 ≤ gridWidth grid
  columns : gridWidth grid ≤ maxSheetColumns
  rows : grid.length ≤ maxSheetRows
  evaluated : ∃ results, engine (gridValues grid) = .ok results

theorem buildRevision_imported (law : u.Printable) (distinct : draws.Distinct u) :
    buildRevision u engine draws 1 ((range' 1 (gridWidth grid)).map (importedInput u grid))
        (importedRows draws grid) = .ok revision ↔
      (1 ≤ gridWidth grid ∧ gridWidth grid ≤ maxSheetColumns) ∧ grid.length ≤ maxSheetRows ∧
        ∃ results, engine (gridValues grid) = .ok results ∧
          revision = importedRevision u draws results grid := by
  simp only [buildRevision, bind_eq_ok]
  constructor
  · rintro ⟨columns, hcolumns, rows, hrows, results, hresults, hrevision⟩
    have hwidth := (acceptable_imported law grid draws.columns).mp
      (normalizeColumns_iff.mp ⟨columns, hcolumns⟩)
    rw [normalizeColumns_imported law draws.columns hwidth.1 hwidth.2] at hcolumns
    cases hcolumns
    rw [normalizeRows_imported distinct] at hrows
    split at hrows
    · cases hrows
    cases hrows
    rw [sheetValues_imported] at hresults
    cases hrevision
    exact ⟨hwidth, by omega, results, hresults, rfl⟩
  · rintro ⟨hwidth, hrows, results, hresults, rfl⟩
    refine ⟨_, normalizeColumns_imported law draws.columns hwidth.1 hwidth.2, _,
      (normalizeRows_imported distinct draws.rows).trans (if_neg (by omega)), results, ?_, rfl⟩
    rw [sheetValues_imported]
    exact hresults

theorem importable_iff (law : u.Printable) (distinct : draws.Distinct u) :
    (∃ revision, buildRevision u engine draws 1
        ((range' 1 (gridWidth grid)).map (importedInput u grid))
        (importedRows draws grid) = .ok revision) ↔ Importable engine grid := by
  constructor
  · rintro ⟨revision, h⟩
    obtain ⟨hwidth, hrows, results, hresults, -⟩ := (buildRevision_imported law distinct).mp h
    exact ⟨hwidth.1, hwidth.2, hrows, results, hresults⟩
  · intro h
    obtain ⟨results, hresults⟩ := h.evaluated
    exact ⟨_, (buildRevision_imported law distinct).mpr
      ⟨⟨h.nonempty, h.columns⟩, h.rows, results, hresults, rfl⟩⟩

end FlowHub.Sheets
