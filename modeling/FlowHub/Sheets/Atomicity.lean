import FlowHub.Sheets.Imported

namespace FlowHub.Sheets

open Python Txn

section

variable {u : Unicode} {engine : Engine} {draws : Draws} {ids : NewIds} {db : Db}

section Created

variable (u : Unicode) (ids : NewIds) (kind : SourceKind) (name worksheetName : String)
  (dataStartRow : Int) (user : Nat) (db : Db)

def createdSource : SourceProfile where
  id := ids.source
  name := cleanName u name "FlowHub Source"
  sourceKind := kind
  worksheetName := worksheetName
  dataStartRow := dataStartRow
  ownerUserId := user
  active := true

def createdSheet : FlowHubSheet where
  id := ids.sheet
  sourceId := ids.source
  name := cleanName u name "FlowHub Source"
  ownerUserId := user
  currentVersion := 0
  revisions := []

/-- What `create_source` has committed. -/
def created : Db :=
  { db with
    sources := db.sources ++ [createdSource u ids kind name worksheetName dataStartRow user]
    sheets := db.sheets ++ [createdSheet u ids name user] }

end Created

section

theorem created_ne : created u ids kind name worksheetName dataStartRow user db ≠ db := by
  intro h
  have hlength := congrArg (fun d => d.sources.length) h
  simp [created] at hlength

theorem createSource_ok (h : validateWorksheet u worksheetName dataStartRow = .ok ()) :
    createSource u ids kind name worksheetName dataStartRow user db =
      (.ok (createdSource u ids kind name worksheetName dataStartRow user),
        created u ids kind name worksheetName dataStartRow user db) := by
  simp only [createSource, h]
  rfl

theorem createSource_error (h : validateWorksheet u worksheetName dataStartRow = .error fault) :
    createSource u ids kind name worksheetName dataStartRow user db = (.error fault, db) := by
  simp [createSource, h]

theorem find_created (fresh : ids.Fresh db) (kind : SourceKind) (name worksheetName : String)
    (dataStartRow : Int) (user : Nat) :
    (created u ids kind name worksheetName dataStartRow user db).sheets.find?
      (fun s => decide (s.sourceId = ids.source)) = some (createdSheet u ids name user) := by
  have hnone : db.sheets.find? (fun s => decide (s.sourceId = ids.source)) = none := by
    simpa using fresh.owned
  rw [created, List.find?_append, hnone]
  simp [createdSheet]

/-- The first revision of a sheet that has just been created. -/
theorem saveRevision_created (engine : Engine) (draws : Draws) (fresh : ids.Fresh db)
    (kind : SourceKind) (name worksheetName : String) (dataStartRow : Int) (user : Nat)
    (columns : List ColumnInput) (rows : List RowInput) :
    (∃ fault, buildRevision u engine draws 1 columns rows = .error fault ∧
      saveRevision u engine draws ids.sheet 0 columns rows user
        (created u ids kind name worksheetName dataStartRow user db) =
          (.error fault, created u ids kind name worksheetName dataStartRow user db)) ∨
    ∃ revision after, buildRevision u engine draws 1 columns rows = .ok revision ∧
      saveRevision u engine draws ids.sheet 0 columns rows user
        (created u ids kind name worksheetName dataStartRow user db) = (.ok revision, after) := by
  have hsheet : Table.get FlowHubSheet.id
      (created u ids kind name worksheetName dataStartRow user db).sheets ids.sheet =
        some (createdSheet u ids name user) := by
    rw [created, Table.get_append_of_none (Table.get_none.mpr fresh.sheet)]
    simp [Table.get, createdSheet]
  have hsource : Table.get SourceProfile.id
      (created u ids kind name worksheetName dataStartRow user db).sources
        (createdSheet u ids name user).sourceId =
          some (createdSource u ids kind name worksheetName dataStartRow user) := by
    have hnone : Table.get SourceProfile.id db.sources ids.source = none :=
      Table.get_none.mpr fresh.source
    rw [created, createdSheet, Table.get_append_of_none hnone]
    simp [Table.get, createdSource]
  have howner : (createdSheet u ids name user).ownerUserId = user := rfl
  have howner' : (createdSource u ids kind name worksheetName dataStartRow user).ownerUserId = user := rfl
  have hactive : (createdSource u ids kind name worksheetName dataStartRow user).active = true := rfl
  simp only [saveRevision, hsheet, hsource, howner, howner', hactive, saveSheetRevision]
  cases hbuild : buildRevision u engine draws 1 columns rows with
  | error fault =>
    refine .inl ⟨fault, rfl, ?_⟩
    simp [createdSheet, hbuild]
  | ok revision =>
    refine .inr ⟨revision, ?_⟩
    simp [createdSheet, hbuild]

end

theorem Atomic.of_ok : Atomic db (.ok a, after) := by
  rintro ⟨fault, hfault⟩
  cases hfault

theorem Atomic.of_same : Atomic db (outcome, db) := fun _ => rfl

theorem not_atomic (h : after ≠ db) :
    ¬ Atomic db ((.error fault : Except Fault α), after) := fun hatomic => h (hatomic ⟨fault, rfl⟩)

theorem validateWorksheet_sheet (law : u.Printable) : validateWorksheet u "Sheet1" 1 = .ok () := by
  have hvisible : ∀ c ∈ "Sheet1".toList, u.isSpace c = false := by
    intro c hc
    have hcode : ∀ c ∈ "Sheet1".toList, 33 ≤ c.toNat ∧ c.toNat < 127 := by simp
    exact law.isSpace_ascii c (hcode c hc).1 (hcode c hc).2
  have hne : strip u "Sheet1".toList ≠ [] := by
    rw [strip_of_visible hvisible]
    decide
  rw [validateWorksheet, if_neg hne, if_neg (by omega)]

/-- A first revision without rows can be saved when its columns are accepted. -/
theorem buildRevision_empty (draws : Draws) :
    (∃ revision, buildRevision u engine draws 1 columns [] = .ok revision) ↔
      Acceptable u draws.columns columns ∧ ∃ results, engine [] = .ok results := by
  have hrows : ∀ columns, normalizeRows u draws.rows [] columns = .ok [] := fun _ => rfl
  rw [← normalizeColumns_iff]
  simp only [buildRevision, bind_eq_ok]
  constructor
  · rintro ⟨revision, columns, hcolumns, rows, h, results, hresults, -⟩
    rw [hrows] at h
    cases h
    exact ⟨⟨columns, hcolumns⟩, results, hresults⟩
  · rintro ⟨⟨columns, hcolumns⟩, results, hresults⟩
    exact ⟨_, columns, hcolumns, [], hrows columns, results, hresults, rfl⟩

/-- `create_sheet` is atomic for the column lists that the first revision takes. -/
theorem createSheet_atomic (law : u.Printable) (fresh : ids.Fresh db) (name : String)
    (columns : List ColumnInput) (user : Nat) :
    Atomic db (createSheet u engine draws ids name columns user db) ↔
      columns = [] ∨ (Acceptable u draws.columns columns ∧ ∃ results, engine [] = .ok results) := by
  simp only [createSheet, createSource_ok (validateWorksheet_sheet law)]
  have hfind := find_created (u := u) fresh .flowhubSheet name "Sheet1" 1 user
  have hsource : (createdSource u ids .flowhubSheet name "Sheet1" 1 user).id = ids.source := rfl
  simp only [hsource, hfind]
  by_cases hempty : columns = []
  · simp only [hempty, if_true, true_or, iff_true]
    exact Atomic.of_ok
  have hid : (createdSheet u ids name user).id = ids.sheet := rfl
  simp only [hempty, if_false, false_or, hid, ← buildRevision_empty draws]
  rcases saveRevision_created (u := u) engine draws fresh .flowhubSheet name "Sheet1" 1 user columns []
    with ⟨fault, hbuild, hsave⟩ | ⟨revision, after, hbuild, hsave⟩
  · rw [hsave, hbuild]
    exact iff_of_false (not_atomic created_ne) (by simp)
  · rw [hsave, hbuild]
    exact iff_of_true Atomic.of_ok ⟨revision, rfl⟩

/-- An import that stops before its Source is created. -/
def StopsEarly (u : Unicode) (readers : Readers) (request : ImportRequest) : Prop :=
  (∃ fault, acquireImport u readers request = .error fault) ∨
    ∃ fault, validateWorksheet u request.worksheetName request.dataStartRow = .error fault

/-- `import_sheet` is atomic for the requests that it refuses before it creates the Source, and for
the worksheets that the first revision takes. -/
theorem importSheet_atomic (law : u.Printable) (fresh : ids.Fresh db) (distinct : draws.Distinct u)
    (readers : Readers) (request : ImportRequest) (user : Nat) :
    Atomic db (importSheet u engine readers draws ids request user db) ↔
      StopsEarly u readers request ∨ ∃ grid sheets sourceChecksum,
        acquireImport u readers request = .ok (grid, sheets, sourceChecksum) ∧ Importable engine grid := by
  simp only [importSheet, StopsEarly]
  cases hacquire : acquireImport u readers request with
  | error fault => exact iff_of_true Atomic.of_same (.inl (.inl ⟨fault, rfl⟩))
  | ok acquired =>
    obtain ⟨grid, sheets, sourceChecksum⟩ := acquired
    simp only
    cases hworksheet : validateWorksheet u request.worksheetName request.dataStartRow with
    | error fault =>
      rw [createSource_error hworksheet]
      exact iff_of_true Atomic.of_same (.inl (.inr ⟨fault, rfl⟩))
    | ok _ =>
      have hfind := find_created (u := u) fresh .importedSheet request.name
        request.worksheetName request.dataStartRow user
      have hsource : (createdSource u ids .importedSheet request.name request.worksheetName
        request.dataStartRow user).id = ids.source := rfl
      have hid : (createdSheet u ids request.name user).id = ids.sheet := rfl
      have hlate : (∃ fault, (.ok (grid, sheets, sourceChecksum) :
          Except Fault (Grid × List (String × Grid) × String)) = .error fault) ∨
          (∃ fault, (.ok () : Except Fault Unit) = .error fault) ↔ False := by simp
      simp only [createSource_ok hworksheet, hsource, hfind, hid, hlate, false_or]
      have hgrid : (∃ grid' sheets' sourceChecksum', (.ok (grid, sheets, sourceChecksum) :
          Except Fault (Grid × List (String × Grid) × String)) =
            .ok (grid', sheets', sourceChecksum') ∧ Importable engine grid') ↔
          Importable engine grid := by
        constructor
        · rintro ⟨_, _, _, heq, himport⟩
          cases heq
          exact himport
        · intro himport
          exact ⟨grid, sheets, sourceChecksum, rfl, himport⟩
      rw [hgrid]
      cases hcolumns : importedColumns u grid with
      | error fault =>
        refine iff_of_false (not_atomic created_ne) ?_
        intro himport
        have hwidth := himport.columns
        simp only [maxSheetColumns] at hwidth
        rw [importedColumns_of_width (by omega)] at hcolumns
        cases hcolumns
      | ok columns =>
        obtain rfl := importedColumns_ok hcolumns
        rw [← importable_iff law distinct]
        rcases saveRevision_created (u := u) engine draws fresh .importedSheet request.name
          request.worksheetName request.dataStartRow user
          ((List.range' 1 (gridWidth grid)).map (importedInput u grid))
          (importedRows draws grid) with ⟨fault, hbuild, hsave⟩ | ⟨revision, after, hbuild, hsave⟩
        · simp only [hsave, hbuild]
          exact iff_of_false (not_atomic created_ne) (by simp)
        · simp only [hsave, hbuild]
          exact iff_of_true Atomic.of_ok ⟨revision, rfl⟩

/-- The first revision of an imported sheet holds the grid. -/
theorem importSheet_ok (law : u.Printable) (fresh : ids.Fresh db) (distinct : draws.Distinct u)
    (hacquire : acquireImport u readers request = .ok (grid, sheets, sourceChecksum))
    (h : (importSheet u engine readers draws ids request user db).1 = .ok revision) :
    gridWidth grid ≤ maxSheetColumns ∧ ∃ results, engine (gridValues grid) = .ok results ∧
      revision = importedRevision u draws results grid := by
  simp only [importSheet, hacquire] at h
  cases hworksheet : validateWorksheet u request.worksheetName request.dataStartRow with
  | error fault =>
    rw [createSource_error hworksheet] at h
    cases h
  | ok _ =>
    have hfind := find_created (u := u) fresh .importedSheet request.name
      request.worksheetName request.dataStartRow user
    have hsource : (createdSource u ids .importedSheet request.name request.worksheetName
      request.dataStartRow user).id = ids.source := rfl
    have hid : (createdSheet u ids request.name user).id = ids.sheet := rfl
    simp only [createSource_ok hworksheet, hsource, hfind, hid] at h
    cases hcolumns : importedColumns u grid with
    | error fault =>
      rw [hcolumns] at h
      cases h
    | ok columns =>
      obtain rfl := importedColumns_ok hcolumns
      simp only [hcolumns] at h
      rcases saveRevision_created (u := u) engine draws fresh .importedSheet request.name
        request.worksheetName request.dataStartRow user
        ((List.range' 1 (gridWidth grid)).map (importedInput u grid))
        (importedRows draws grid) with ⟨fault, -, hsave⟩ | ⟨saved, after, hbuild, hsave⟩
      · rw [hsave] at h
        cases h
      · rw [hsave] at h
        cases h
        obtain ⟨hwidth, -, hresults⟩ := (buildRevision_imported law distinct).mp hbuild
        exact ⟨hwidth.2, hresults⟩

/-- A call that creates a Sheet or imports one leaves nothing behind when it raises, exactly where
it stops before the Source is created or the first revision takes what it is given. -/
theorem creation_atomic (law : u.Printable) (engine : Engine) (readers : Readers)
    (distinct : draws.Distinct u) (fresh : ids.Fresh db) (user : Nat) :
    (∀ name columns, Atomic db (createSheet u engine draws ids name columns user db) ↔
      columns = [] ∨ (Acceptable u draws.columns columns ∧ ∃ results, engine [] = .ok results)) ∧
    (∀ request, Atomic db (importSheet u engine readers draws ids request user db) ↔
      StopsEarly u readers request ∨ ∃ grid sheets sourceChecksum,
        acquireImport u readers request = .ok (grid, sheets, sourceChecksum) ∧ Importable engine grid) :=
  ⟨fun name columns => createSheet_atomic law fresh name columns user,
    fun request => importSheet_atomic law fresh distinct readers request user⟩

end

namespace SampleImport

/-- An engine of sheets without formulas. -/
def engine : Engine := fun _ => .ok []

def readers (rows : List (List String)) : Readers where
  b64decode _ := some [10]
  checksum _ := "checksum"
  decode _ _ := some "\n"
  csvReader _ := .ok rows
  loadWorkbook _ := none

def draws : Draws where
  columns _ := "column"
  rows _ := "row"
  appended n := String.ofList (List.replicate (n + 1) 'r')

def newIds : NewIds where
  source := "source"
  sheet := "sheet"

def request : ImportRequest where
  name := "Prices"
  filename := "prices.csv"
  contentBase64 := "Cg=="
  worksheetName := "Sheet1"
  expectedChecksum := "checksum"

/-- Two columns under one key. -/
def columns : List ColumnInput :=
  [{ columnKey := some "p", name := "Price", position := 1 },
   { columnKey := some "p", name := "Stock", position := 2 }]

theorem draws_distinct : draws.Distinct .ascii where
  nonempty i h := by
    have hlist := congrArg String.toList h
    simp [draws] at hlist
  stripped i := by
    apply strip_of_visible
    intro c hc
    simp only [draws, String.toList_ofList, List.mem_replicate] at hc
    rw [hc.2]
    decide
  distinct i j h := by
    have hlist := congrArg (fun s => s.toList.length) h
    simpa [draws] using hlist

theorem newIds_fresh : newIds.Fresh {} := ⟨by simp, by simp, by simp⟩

end SampleImport

/-- A Sheet without columns, and an import of one cell. -/
theorem imported_or_nothing :
    Atomic {} (createSheet .ascii SampleImport.engine SampleImport.draws SampleImport.newIds "Prices" [] 1
      {}) ∧
    Atomic {} (importSheet .ascii SampleImport.engine (SampleImport.readers [["SKU"]])
      SampleImport.draws SampleImport.newIds SampleImport.request 1 {}) := by
  have hatomic := creation_atomic Unicode.ascii_printable SampleImport.engine
    (SampleImport.readers [["SKU"]]) SampleImport.draws_distinct SampleImport.newIds_fresh 1
  refine ⟨(hatomic.1 "Prices" []).mpr (.inl rfl), (hatomic.2 SampleImport.request).mpr (.inr ?_)⟩
  have hacquire : acquireImport .ascii (SampleImport.readers [["SKU"]]) SampleImport.request =
      .ok ([[textCell "SKU"]], [("Sheet1", [[textCell "SKU"]])], "checksum") := rfl
  exact ⟨_, _, _, hacquire, by decide, by decide, by decide, [], rfl⟩

/-- Two columns under one key, and a file with one empty line: both calls raise, and the Source and
its Sheet remain. -/
theorem refused_left_behind :
    ¬ Atomic {} (createSheet .ascii SampleImport.engine SampleImport.draws SampleImport.newIds "Prices"
      SampleImport.columns 1 {}) ∧
    ¬ Atomic {} (importSheet .ascii SampleImport.engine (SampleImport.readers [[]])
      SampleImport.draws SampleImport.newIds SampleImport.request 1 {}) := by
  constructor
  · intro h
    have hsame := h ⟨.unprocessable "SHEET_COLUMN_INVALID", by decide +kernel⟩
    exact absurd hsame (by decide +kernel)
  · intro h
    have hsame := h ⟨.unprocessable "SHEET_COLUMNS_INVALID", by decide +kernel⟩
    exact absurd hsame (by decide +kernel)

end FlowHub.Sheets
