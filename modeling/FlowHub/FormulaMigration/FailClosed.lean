import FlowHub.FormulaMigration.Projection

namespace FlowHub.FormulaMigration

open Python FormulaTranslator ShadowValidation List Option

section

variable {batch : FormulaMigrationPreviewBatch} {cell : FormulaMigrationPreviewCell} {found : Lookup}

/-- The checksums of a row look like checksums, its status and reason are known. -/
structure Formed (batch : FormulaMigrationPreviewBatch) (cell : FormulaMigrationPreviewCell) : Prop where
  report : looksLikeChecksum batch.reportChecksum = true
  manifest : looksLikeChecksum cell.bindingManifestChecksum = true
  fingerprint : looksLikeChecksum cell.translationFingerprint = true
  checksum : looksLikeChecksum cell.registryChecksum = true
  row : looksLikeChecksum cell.reportRowChecksum = true
  status : FormulaTranslationStatus.ofValue cell.translationStatus ≠ none
  reason : cell.reasonCode ∈ reasonValues

/-- The copies that a batch and its cell hold are the same. -/
structure BatchAgrees (batch : FormulaMigrationPreviewBatch) (cell : FormulaMigrationPreviewCell) : Prop where
  evidenceVersion : ∀ v ∈ cell.fixtureEvidence.registryVersion, v = cell.registryVersion
  evidenceChecksum : ∀ v ∈ cell.fixtureEvidence.registryChecksum, v = cell.registryChecksum
  version : cell.registryVersion = batch.registryVersion
  checksum : cell.registryChecksum = batch.registryChecksum
  translator : cell.translatorVersion = batch.translatorVersion

/-- The copies that a cell and its translation result hold are the same. -/
structure ResultAgrees (cell : FormulaMigrationPreviewCell) (result : FormulaTranslationResult) : Prop where
  identity : result.formulaRuleIdentity = cell.formulaRuleIdentity
  shape : result.formulaShapeId = cell.formulaShapeId
  status : result.translationStatus = cell.translationStatus
  reason : result.reasonCode = cell.reasonCode
  fingerprint : result.translationFingerprint = cell.translationFingerprint
  translator : result.translatorVersion = cell.translatorVersion
  version : result.registryVersion = cell.registryVersion
  checksum : result.registryChecksum = cell.registryChecksum

theorem recordReasons_eq_nil :
    recordReasons batch cell = [] ↔ Formed batch cell ∧ BatchAgrees batch cell := by
  simp only [recordReasons, append_eq_nil_iff, note_eq_nil, Option.any_eq_true,
    bne_iff_ne, not_not, not_exists, not_and]
  constructor
  · rintro ⟨⟨⟨⟨⟨⟨⟨⟨⟨⟨⟨report, version⟩, checksum⟩, manifest⟩, fingerprint⟩, registry⟩, row⟩,
      batchVersion⟩, batchChecksum⟩, translator⟩, status⟩, reason⟩
    exact ⟨⟨report, manifest, fingerprint, registry, row, status, reason⟩,
      ⟨version, checksum, batchVersion, batchChecksum, translator⟩⟩
  · rintro ⟨formed, agrees⟩
    exact ⟨⟨⟨⟨⟨⟨⟨⟨⟨⟨⟨formed.report, agrees.evidenceVersion⟩, agrees.evidenceChecksum⟩,
      formed.manifest⟩, formed.fingerprint⟩, formed.checksum⟩, formed.row⟩, agrees.version⟩,
      agrees.checksum⟩, agrees.translator⟩, formed.status⟩, formed.reason⟩

theorem resultReasons_eq_nil :
    resultReasons cell result = [] ↔ ∃ r, result = some r ∧ ResultAgrees cell r := by
  cases result with
  | none => simp [resultReasons]
  | some result =>
    simp only [resultReasons, append_eq_nil_iff, note_eq_nil, not_not, some.injEq, exists_eq_left']
    constructor
    · rintro ⟨⟨⟨⟨⟨⟨⟨identity, shape⟩, status⟩, reason⟩, fingerprint⟩, translator⟩, version⟩, checksum⟩
      exact ⟨identity, shape, status, reason, fingerprint, translator, version, checksum⟩
    · intro h
      exact ⟨⟨⟨⟨⟨⟨⟨h.identity, h.shape⟩, h.status⟩, h.reason⟩, h.fingerprint⟩, h.translator⟩,
        h.version⟩, h.checksum⟩

/-- What a row that may count has behind it. -/
structure Backed (batch : FormulaMigrationPreviewBatch) (cell : FormulaMigrationPreviewCell)
    (found : Lookup) : Prop where
  price : cell.shapeIsPriceTarget = true
  contract : found.contract.isSome = true
  ready : cell.status = .translated ∨ (cell.reviewRequired = true ∧ (approval found.latest).isSome = true)
  inactive : cell.blockingOperationallyActive = false
  formed : Formed batch cell
  agrees : BatchAgrees batch cell
  result : ∃ r, found.result = some r ∧ ResultAgrees cell r

theorem shapeEntry_isSome (h : cell.shapeIsPriceTarget = true) : cell.shapeEntry.isSome = true := by
  cases hentry : cell.shapeEntry with
  | none => simp [FormulaMigrationPreviewCell.shapeIsPriceTarget, hentry] at h
  | some entry => rfl

theorem mayCount_iff : (draftOf batch cell found).mayCount = true ↔ Backed batch cell found := by
  simp only [draftOf, reasons, Bool.and_eq_true, Bool.or_eq_true, decide_eq_true_eq,
    Bool.not_eq_true', List.isEmpty_iff, append_eq_nil_iff, recordReasons_eq_nil,
    resultReasons_eq_nil, shapeReasons, reviewReasons, note_eq_nil]
  constructor
  · rintro ⟨⟨⟨price, ready⟩, inactive⟩, ⟨⟨⟨formed, agrees⟩, ⟨-, contract⟩⟩, result⟩, review⟩
    refine ⟨price, ?_, ?_, inactive, formed, agrees, result⟩
    · simpa [price, isSome_iff_ne_none] using contract
    · rcases ready with translated | required
      · exact .inl translated
      · exact .inr ⟨required, by simpa [required, isSome_iff_ne_none] using review⟩
  · intro h
    have hentry := shapeEntry_isSome h.price
    refine ⟨⟨⟨h.price, ?_⟩, h.inactive⟩, ⟨⟨⟨h.formed, h.agrees⟩, ?_, ?_⟩, h.result⟩, ?_⟩
    · exact h.ready.imp_right And.left
    · simp [isNone_iff_eq_none, isSome_iff_ne_none.mp hentry]
    · simp [isNone_iff_eq_none, isSome_iff_ne_none.mp h.contract]
    · rcases h.ready with translated | ⟨-, approved⟩
      · simp [FormulaMigrationPreviewCell.reviewRequired, translated]
      · simp [isNone_iff_eq_none, isSome_iff_ne_none.mp approved]

/-- A row that may count has no reason against it and no block. -/
theorem not_blocked (h : Backed batch cell found) : (draftOf batch cell found).blocked = false := by
  have hcount := mayCount_iff.mpr h
  simp only [draftOf, Bool.and_eq_true] at hcount
  simp [draftOf, hcount.2, h.inactive]

inductive BatchField where
  | translatorVersion | registryVersion | registryChecksum | reportChecksum

def BatchField.get (batch : FormulaMigrationPreviewBatch) : BatchField → String
  | translatorVersion => batch.translatorVersion
  | registryVersion => batch.registryVersion
  | registryChecksum => batch.registryChecksum
  | reportChecksum => batch.reportChecksum

def BatchField.set (value : String) (batch : FormulaMigrationPreviewBatch) :
    BatchField → FormulaMigrationPreviewBatch
  | translatorVersion => { batch with translatorVersion := value }
  | registryVersion => { batch with registryVersion := value }
  | registryChecksum => { batch with registryChecksum := value }
  | reportChecksum => { batch with reportChecksum := value }

inductive CellField where
  | translationStatus | reasonCode | translationFingerprint | bindingManifestChecksum
  | translatorVersion | registryVersion | registryChecksum | reportRowChecksum

def CellField.get (cell : FormulaMigrationPreviewCell) : CellField → String
  | translationStatus => cell.translationStatus
  | reasonCode => cell.reasonCode
  | translationFingerprint => cell.translationFingerprint
  | bindingManifestChecksum => cell.bindingManifestChecksum
  | translatorVersion => cell.translatorVersion
  | registryVersion => cell.registryVersion
  | registryChecksum => cell.registryChecksum
  | reportRowChecksum => cell.reportRowChecksum

def CellField.set (value : String) (cell : FormulaMigrationPreviewCell) :
    CellField → FormulaMigrationPreviewCell
  | translationStatus => { cell with translationStatus := value }
  | reasonCode => { cell with reasonCode := value }
  | translationFingerprint => { cell with translationFingerprint := value }
  | bindingManifestChecksum => { cell with bindingManifestChecksum := value }
  | translatorVersion => { cell with translatorVersion := value }
  | registryVersion => { cell with registryVersion := value }
  | registryChecksum => { cell with registryChecksum := value }
  | reportRowChecksum => { cell with reportRowChecksum := value }

inductive ResultField where
  | translationStatus | reasonCode | translationFingerprint | translatorVersion | registryVersion
  | registryChecksum

def ResultField.get (result : FormulaTranslationResult) : ResultField → String
  | translationStatus => result.translationStatus
  | reasonCode => result.reasonCode
  | translationFingerprint => result.translationFingerprint
  | translatorVersion => result.translatorVersion
  | registryVersion => result.registryVersion
  | registryChecksum => result.registryChecksum

def ResultField.set (value : String) (result : FormulaTranslationResult) :
    ResultField → FormulaTranslationResult
  | translationStatus => { result with translationStatus := value }
  | reasonCode => { result with reasonCode := value }
  | translationFingerprint => { result with translationFingerprint := value }
  | translatorVersion => { result with translatorVersion := value }
  | registryVersion => { result with registryVersion := value }
  | registryChecksum => { result with registryChecksum := value }

/-- A new value of one evidence field of a batch, of a cell or of its translation result. -/
inductive Change where
  | batch (field : BatchField) (value : String)
  | cell (field : CellField) (value : String)
  | result (field : ResultField) (value : String)
  | targetFragment (value : Json)
  | translationPayload (value : Json)

namespace Change

def batchOf : Change → FormulaMigrationPreviewBatch → FormulaMigrationPreviewBatch
  | .batch field value, record => field.set value record
  | _, record => record

def cellOf : Change → FormulaMigrationPreviewCell → FormulaMigrationPreviewCell
  | .cell field value, record => field.set value record
  | .targetFragment value, record => { record with targetFragment := value }
  | _, record => record

def resultOf : Change → FormulaTranslationResult → FormulaTranslationResult
  | .result field value, record => field.set value record
  | .translationPayload value, record => { record with translationPayload := value }
  | _, record => record

/-- The value is another one than the record holds. -/
def Differs (batch : FormulaMigrationPreviewBatch) (cell : FormulaMigrationPreviewCell)
    (result : FormulaTranslationResult) : Change → Prop
  | .batch field value => field.get batch ≠ value
  | .cell field value => field.get cell ≠ value
  | .result field value => field.get result ≠ value
  | .targetFragment value => cell.targetFragment ≠ value
  | .translationPayload value => result.translationPayload ≠ value

/-- The field has a second copy to be compared with, or the new value is no checksum at all. -/
def Detected : Change → Prop
  | .batch .reportChecksum value => ¬ looksLikeChecksum value
  | .cell .bindingManifestChecksum value => ¬ looksLikeChecksum value
  | .cell .reportRowChecksum value => ¬ looksLikeChecksum value
  | .targetFragment _ => False
  | .translationPayload _ => False
  | _ => True

/-- The three records after the change. -/
def apply (change : Change) (cell : FormulaMigrationPreviewCell) (db : Db) : Db :=
  { db with
    batches := Table.set FormulaMigrationPreviewBatch.id db.batches cell.previewBatchId change.batchOf
    cells := Table.set FormulaMigrationPreviewCell.id db.cells cell.id change.cellOf
    results := Table.set FormulaTranslationResult.id db.results cell.resultId change.resultOf }

variable (change : Change)

@[simp] theorem batchOf_id (batch : FormulaMigrationPreviewBatch) : (change.batchOf batch).id = batch.id := by
  cases change with
  | batch field value => cases field <;> rfl
  | _ => rfl

@[simp] theorem resultOf_id (result : FormulaTranslationResult) :
    (change.resultOf result).id = result.id := by
  cases change with
  | result field value => cases field <;> rfl
  | _ => rfl

/-- What finds the other records of a cell is no evidence. -/
theorem cellOf_keeps (cell : FormulaMigrationPreviewCell) : (change.cellOf cell).id = cell.id ∧
    (change.cellOf cell).previewBatchId = cell.previewBatchId ∧
    (change.cellOf cell).formulaShapeId = cell.formulaShapeId ∧
    (change.cellOf cell).fixtureEvidence = cell.fixtureEvidence ∧
    (change.cellOf cell).blockingOperationallyActive = cell.blockingOperationallyActive := by
  cases change with
  | cell field value => cases field <;> exact ⟨rfl, rfl, rfl, rfl, rfl⟩
  | _ => exact ⟨rfl, rfl, rfl, rfl, rfl⟩

/-- The records that are looked up for a cell, after a change. -/
def lookupOf (found : Lookup) : Lookup := { found with result := found.result.map change.resultOf }

theorem lookup_apply (db : Db) :
    lookup (change.apply cell db) (change.cellOf cell) = change.lookupOf (lookup db cell) := by
  obtain ⟨hid, -, hshape, hevidence, -⟩ := change.cellOf_keeps cell
  have hprice : (change.cellOf cell).shapeIsPriceTarget = cell.shapeIsPriceTarget := by
    simp [FormulaMigrationPreviewCell.shapeIsPriceTarget, FormulaMigrationPreviewCell.shapeEntry, hshape]
  have hresult : (change.cellOf cell).resultId = cell.resultId := by
    simp [FormulaMigrationPreviewCell.resultId, hevidence]
  simp only [lookup, lookupOf, hprice, hshape, hresult, hid, decisionsOf, apply]
  congr 1
  by_cases hempty : cell.resultId = ""
  · simp [hempty]
  · simp [hempty, Table.get_set change.resultOf_id]

section

variable {result : FormulaTranslationResult}

theorem result_after (hresult : found.result = some result)
    (h : Backed (change.batchOf batch) (change.cellOf cell) (change.lookupOf found)) :
    ResultAgrees (change.cellOf cell) (change.resultOf result) := by
  obtain ⟨r, hr, hagrees⟩ := h.result
  simp only [lookupOf, hresult, map_some, some.injEq] at hr
  exact hr ▸ hagrees

/-- A value that has a copy elsewhere cannot change alone. -/
theorem detected {change : Change} (hresult : found.result = some result)
    (hcount : Backed batch cell found) (hdiffers : change.Differs batch cell result)
    (hdetected : change.Detected) :
    ¬ Backed (change.batchOf batch) (change.cellOf cell) (change.lookupOf found) := by
  intro h
  have hafter := result_after change hresult h
  have hbefore : ResultAgrees cell result := by
    obtain ⟨r, hr, hagrees⟩ := hcount.result
    exact (some.inj (hresult.symm.trans hr)) ▸ hagrees
  cases change with
  | batch field value =>
    cases field with
    | translatorVersion => exact hdiffers (hcount.agrees.translator.symm.trans h.agrees.translator)
    | registryVersion => exact hdiffers (hcount.agrees.version.symm.trans h.agrees.version)
    | registryChecksum => exact hdiffers (hcount.agrees.checksum.symm.trans h.agrees.checksum)
    | reportChecksum => exact hdetected h.formed.report
  | cell field value =>
    cases field with
    | translationStatus => exact hdiffers (hbefore.status.symm.trans hafter.status)
    | reasonCode => exact hdiffers (hbefore.reason.symm.trans hafter.reason)
    | translationFingerprint => exact hdiffers (hbefore.fingerprint.symm.trans hafter.fingerprint)
    | bindingManifestChecksum => exact hdetected h.formed.manifest
    | translatorVersion => exact hdiffers (hbefore.translator.symm.trans hafter.translator)
    | registryVersion => exact hdiffers (hbefore.version.symm.trans hafter.version)
    | registryChecksum => exact hdiffers (hbefore.checksum.symm.trans hafter.checksum)
    | reportRowChecksum => exact hdetected h.formed.row
  | result field value =>
    cases field with
    | translationStatus => exact hdiffers (hbefore.status.trans hafter.status.symm)
    | reasonCode => exact hdiffers (hbefore.reason.trans hafter.reason.symm)
    | translationFingerprint => exact hdiffers (hbefore.fingerprint.trans hafter.fingerprint.symm)
    | translatorVersion => exact hdiffers (hbefore.translator.trans hafter.translator.symm)
    | registryVersion => exact hdiffers (hbefore.version.trans hafter.version.symm)
    | registryChecksum => exact hdiffers (hbefore.checksum.trans hafter.checksum.symm)
  | targetFragment value => exact hdetected
  | translationPayload value => exact hdetected

/-- What has no copy is not missed. -/
theorem undetected {change : Change} (hcount : Backed batch cell found) (hdetected : ¬ change.Detected) :
    Backed (change.batchOf batch) (change.cellOf cell) (change.lookupOf found) := by
  obtain ⟨price, contract, ready, inactive, formed, agrees, result, hfound, hagrees⟩ := hcount
  have hresult : (change.lookupOf found).result = some (change.resultOf result) := by
    simp [lookupOf, hfound]
  cases change with
  | batch field value =>
    cases field with
    | reportChecksum =>
      have hvalue : looksLikeChecksum value = true := not_not.mp hdetected
      exact ⟨price, contract, ready, inactive, { formed with report := hvalue },
        { agrees with }, result, hresult, hagrees⟩
    | _ => exact absurd trivial hdetected
  | cell field value =>
    cases field with
    | bindingManifestChecksum =>
      have hvalue : looksLikeChecksum value = true := not_not.mp hdetected
      exact ⟨price, contract, ready, inactive, { formed with manifest := hvalue },
        { agrees with }, result, hresult, { hagrees with }⟩
    | reportRowChecksum =>
      have hvalue : looksLikeChecksum value = true := not_not.mp hdetected
      exact ⟨price, contract, ready, inactive, { formed with row := hvalue },
        { agrees with }, result, hresult, { hagrees with }⟩
    | _ => exact absurd trivial hdetected
  | result field value => exact absurd trivial hdetected
  | targetFragment value =>
    exact ⟨price, contract, ready, inactive, { formed with }, { agrees with }, result, hresult,
      { hagrees with }⟩
  | translationPayload value =>
    exact ⟨price, contract, ready, inactive, formed, agrees, _, hresult, { hagrees with }⟩

end

end Change

/-- A call of `add_review_decision`, with its clock and the id it draws. -/
structure ReviewCall where
  decision : ReviewDecisionRecord
  now : Time
  id : Id

/-- A call that raises records nothing. -/
def review (u : Unicode) (db : Db) (call : ReviewCall) : Db :=
  match addReviewDecision u db call.decision call.now call.id with
  | .ok db' => db'
  | .error _ => db

def reviewed (u : Unicode) (db : Db) (calls : List ReviewCall) : Db := calls.foldl (review u) db

/-- The moment and the id of a call come after those of the decisions on its cell. -/
def Timely (db : Db) (call : ReviewCall) : Prop :=
  ∀ cell, resolveCell db call.decision.previewBatchId call.decision.inventoryCellId = some cell →
    ∀ d ∈ decisionsOf db cell.id, d.createdAt < call.now ∨ (d.createdAt = call.now ∧ d.id < call.id)

def AllTimely (u : Unicode) : Db → List ReviewCall → Prop
  | _, [] => True
  | db, call :: rest => Timely db call ∧ AllTimely u (review u db call) rest

/-- The decisions on each cell stand in the order that `_project_cell` reads. -/
def Ordered (db : Db) : Prop := ∀ cellId, (decisionsOf db cellId).Pairwise Later

section

variable {u : Unicode} {db : Db}

theorem review_cases (u : Unicode) (db : Db) (call : ReviewCall) : review u db call = db ∨ ∃ cell row,
    resolveCell db call.decision.previewBatchId call.decision.inventoryCellId = some cell ∧
    review u db call = { db with decisions := db.decisions ++ [row] } ∧
    row.previewCellId = cell.id ∧ row.createdAt = call.now ∧ row.id = call.id := by
  by_cases hactor : strip u call.decision.actor.toList = []
  · exact .inl (by simp [review, addReviewDecision, hactor])
  by_cases hreason : strip u call.decision.reason.toList = []
  · exact .inl (by simp [review, addReviewDecision, hactor, hreason])
  cases hcell : resolveCell db call.decision.previewBatchId call.decision.inventoryCellId with
  | none => exact .inl (by simp [review, addReviewDecision, hactor, hreason, hcell])
  | some cell =>
    exact .inr ⟨cell, call.decision.row cell.id call.now call.id, rfl,
      by simp [review, addReviewDecision, hactor, hreason, hcell], rfl, rfl, rfl⟩

theorem review_ordered (timely : Timely db call) (h : Ordered db) : Ordered (review u db call) := by
  intro cellId
  rcases review_cases u db call with hsame | ⟨cell, row, hcell, hnew, howner, hmoment, hid⟩
  · rw [hsame]
    exact h cellId
  rw [hnew]
  simp only [decisionsOf, filter_append]
  by_cases hof : row.previewCellId = cellId
  · simp only [filter_singleton, hof, decide_true, cond_true]
    apply pairwise_append.mpr
    refine ⟨h cellId, pairwise_singleton _ _, ?_⟩
    intro d hd e he
    obtain rfl := mem_singleton.mp he
    rw [← hof, howner] at hd
    have := timely cell hcell d hd
    rwa [← hmoment, ← hid] at this
  · simp only [filter_singleton, hof, decide_false, cond_false, append_nil]
    exact h cellId

theorem latestDecision_of_pairwise
    (h : decisions.Pairwise Later) : latestDecision decisions = decisions.getLast? := by
  induction decisions using reverseRecOn with
  | nil => rfl
  | append_singleton past decision ih =>
    rw [pairwise_append] at h
    have hpast := ih h.1
    simp only [latestDecision] at hpast
    simp only [latestDecision, foldl_append, foldl_cons, foldl_nil, hpast, getLast?_concat]
    cases hlast : past.getLast? with
    | none => rfl
    | some b =>
      have hlater : Later b decision :=
        h.2.2 b (mem_of_getLast? hlast) decision (mem_singleton_self _)
      simp [hlater]

/-- Reviews change the decisions and no other table. -/
structure SameEvidence (db db' : Db) : Prop where
  batches : db'.batches = db.batches
  cells : db'.cells = db.cells
  results : db'.results = db.results
  contracts : db'.contracts = db.contracts

theorem review_evidence (u : Unicode) (db : Db) (call : ReviewCall) : SameEvidence db (review u db call) := by
  rcases review_cases u db call with hsame | ⟨cell, row, -, hnew, -⟩
  · rw [hsame]
    exact ⟨rfl, rfl, rfl, rfl⟩
  · rw [hnew]
    exact ⟨rfl, rfl, rfl, rfl⟩

theorem reviewed_ordered {calls : List ReviewCall} (timely : AllTimely u db calls)
    (h : Ordered db) : Ordered (reviewed u db calls) := by
  induction calls generalizing db with
  | nil => exact h
  | cons call rest ih => exact ih timely.2 (review_ordered timely.1 h)

theorem reviewed_evidence (u : Unicode) (db : Db) (calls : List ReviewCall) : SameEvidence db (reviewed u db calls) := by
  induction calls generalizing db with
  | nil => exact ⟨rfl, rfl, rfl, rfl⟩
  | cons call rest ih =>
    have hone := review_evidence u db call
    have hrest := ih (review u db call)
    exact ⟨hrest.batches.trans hone.batches, hrest.cells.trans hone.cells,
      hrest.results.trans hone.results, hrest.contracts.trans hone.contracts⟩

/-- What a row that may count says of the stored records. -/
structure Counts (db : Db) (batch : FormulaMigrationPreviewBatch)
    (cell : FormulaMigrationPreviewCell) : Prop where
  price : ∃ entry ∈ formulaShapeRegistry,
    cell.formulaShapeId = some entry.shapeId ∧ entry.isPriceTarget = true
  contract : ∃ contract ∈ db.contracts,
    cell.formulaShapeId = some contract.shapeId ∧ contract.isCurrent = true
  approved : cell.translationStatus = "translated" ∨
    ∃ d, (decisionsOf db cell.id).getLast? = some d ∧ d.action = .approved
  agrees : BatchAgrees batch cell
  result : ∃ result ∈ db.results,
    cell.fixtureEvidence.formulaTranslationResultId = some result.id ∧ ResultAgrees cell result

theorem status_translated (h : cell.status = .translated) : cell.translationStatus = "translated" := by
  simp only [FormulaMigrationPreviewCell.status, FormulaTranslationStatus.ofValue] at h
  split at h
  · assumption
  · cases h
  · cases h
  · cases h
  · cases h

theorem priceTarget (h : cell.shapeIsPriceTarget = true) : ∃ entry ∈ formulaShapeRegistry,
    cell.formulaShapeId = some entry.shapeId ∧ entry.isPriceTarget = true := by
  cases hshape : cell.formulaShapeId with
  | none => simp [FormulaMigrationPreviewCell.shapeIsPriceTarget, FormulaMigrationPreviewCell.shapeEntry, hshape] at h
  | some shapeId =>
    cases hentry : getRegistryEntry shapeId with
    | none =>
      simp [FormulaMigrationPreviewCell.shapeIsPriceTarget,
        FormulaMigrationPreviewCell.shapeEntry, hshape, hentry] at h
    | some entry =>
      obtain ⟨hmem, hid⟩ := Table.get_some hentry
      refine ⟨entry, hmem, by rw [hid], ?_⟩
      simpa [FormulaMigrationPreviewCell.shapeIsPriceTarget,
        FormulaMigrationPreviewCell.shapeEntry, hshape, hentry] using h

theorem lookupShapeContract_some (h : lookupShapeContract db shapeId = some contract) :
    contract ∈ db.contracts ∧ contract.shapeId = shapeId ∧ contract.isCurrent = true := by
  have hmem := mem_of_mem_head? h
  simpa using hmem

theorem counts_of_backed (ordered : Ordered db) (h : Backed batch cell (lookup db cell)) :
    Counts db batch cell where
  price := priceTarget h.price
  contract := by
    obtain ⟨contract, hcontract⟩ := isSome_iff_exists.mp h.contract
    simp only [lookup, h.price, if_true, bind_eq_some_iff] at hcontract
    obtain ⟨shapeId, hshape, hlookup⟩ := hcontract
    obtain ⟨hmem, hid, hcurrent⟩ := lookupShapeContract_some hlookup
    exact ⟨contract, hmem, by rw [hshape, hid], hcurrent⟩
  approved := by
    rcases h.ready with translated | ⟨-, happroved⟩
    · exact .inl (status_translated translated)
    obtain ⟨d, hd⟩ := isSome_iff_exists.mp happroved
    simp only [approval, lookup, latestDecision_of_pairwise (ordered cell.id),
      filter_eq_some_iff, decide_eq_true_eq] at hd
    exact .inr ⟨d, hd.1, hd.2⟩
  agrees := h.agrees
  result := by
    obtain ⟨result, hresult, hagrees⟩ := h.result
    simp only [lookup] at hresult
    by_cases hempty : cell.resultId = ""
    · simp [hempty] at hresult
    rw [if_neg hempty] at hresult
    obtain ⟨hmem, hid⟩ := Table.get_some hresult
    refine ⟨result, hmem, ?_, hagrees⟩
    rw [hid]
    cases hevidence : cell.fixtureEvidence.formulaTranslationResultId with
    | none => exact absurd (by simp [FormulaMigrationPreviewCell.resultId, hevidence]) hempty
    | some resultId => simp [FormulaMigrationPreviewCell.resultId, hevidence]

theorem project_apply {hash : Hashing} (keys : (db.cells.map FormulaMigrationPreviewCell.id).Nodup)
    {batchId : Id} (hbatch : Table.get FormulaMigrationPreviewBatch.id db.batches batchId = some batch)
    (hcell : cell ∈ db.cells) (hof : cell.previewBatchId = batch.id) (change : Change) :
    ∃ projection, project hash (change.apply cell db) batchId = .ok projection ∧
      ∀ row ∈ projection.rows, row.previewCellId = cell.id → row.toCellProjectionDraft =
        draftOf (change.batchOf batch) (change.cellOf cell) (change.lookupOf (lookup db cell)) := by
  have hid := (Table.get_some hbatch).2
  have hchanged : Table.get FormulaMigrationPreviewBatch.id (change.apply cell db).batches batchId =
      some (change.batchOf batch) := by
    simp [Change.apply, Table.get_set change.batchOf_id, hof, hid, if_true, hbatch, map_some]
  cases hproject : project hash (change.apply cell db) batchId with
  | error e => simp [project, hchanged] at hproject
  | ok projection =>
    refine ⟨projection, rfl, ?_⟩
    intro row hrow howner
    obtain ⟨batch', cell', hget, hmem, -, rfl⟩ := (mem_project hproject).mp hrow
    obtain rfl := some.inj (hchanged.symm.trans hget)
    have howner' : cell'.id = cell.id := howner
    rcases Table.mem_set.mp hmem with ⟨q, hq, hqid, rfl⟩ | ⟨-, hne⟩
    · obtain rfl := inj_on_of_nodup_map keys hq hcell hqid
      rw [← change.lookup_apply db]
      rfl
    · exact absurd howner' hne

/-- Reviews that come in the order of their moments and ids leave a projection that fails closed. -/
theorem projection_fails_closed (u : Unicode) (hash : Hashing) (start : Db)
    (unreviewed : start.decisions = [])
    (keys : (start.cells.map FormulaMigrationPreviewCell.id).Nodup) (calls : List ReviewCall)
    (timely : AllTimely u start calls) (batchId : Id)
    (projection : FormulaMigrationPreviewProjection)
    (h : project hash (reviewed u start calls) batchId = .ok projection)
    (row : FormulaMigrationPreviewEvidenceProjection) (hrow : row ∈ projection.rows) :
    ¬ (row.mayCount = true ∧ row.blocked = true) ∧ ∃ batch cell,
      Table.get FormulaMigrationPreviewBatch.id start.batches batchId = some batch ∧
      cell ∈ start.cells ∧ cell.previewBatchId = batchId ∧
      row = evidenceRow hash (projectCell (reviewed u start calls) batch cell) ∧
      (row.mayCount = true → Counts (reviewed u start calls) batch cell ∧
        ∀ (change : Change) (result : FormulaTranslationResult),
          Table.get FormulaTranslationResult.id start.results cell.resultId = some result →
          change.Differs batch cell result →
          ∃ projection', project hash (change.apply cell (reviewed u start calls)) batchId = .ok projection' ∧
            ∀ row' ∈ projection'.rows, row'.previewCellId = row.previewCellId →
              (row'.mayCount = false ↔ change.Detected)) := by
  have same := reviewed_evidence u start calls
  have ordered : Ordered (reviewed u start calls) := by
    apply reviewed_ordered timely
    intro cellId
    simp [decisionsOf, unreviewed]
  rw [← same.cells] at keys
  generalize reviewed u start calls = db at *
  obtain ⟨batch, cell, hbatch, hcell, hof, rfl⟩ := (mem_project h).mp hrow
  have hcount : (evidenceRow hash (projectCell db batch cell)).mayCount = true ↔
      Backed batch cell (lookup db cell) := mayCount_iff
  refine ⟨?_, batch, cell, same.batches ▸ hbatch, same.cells ▸ hcell,
    hof.trans (Table.get_some hbatch).2, rfl, ?_⟩
  · rintro ⟨counts, blocked⟩
    have hopen : (evidenceRow hash (projectCell db batch cell)).blocked = false :=
      not_blocked (hcount.mp counts)
    rw [hopen] at blocked
    cases blocked
  · intro counts
    have backed := hcount.mp counts
    refine ⟨counts_of_backed ordered backed, ?_⟩
    intro change result hresult hdiffers
    have hlookup : (lookup db cell).result = some result := by
      obtain ⟨r, hr, -⟩ := backed.result
      simp only [lookup, same.results] at hr ⊢
      by_cases hempty : cell.resultId = ""
      · simp [hempty] at hr
      · rw [if_neg hempty, hresult]
    obtain ⟨projection', hproject, hrows⟩ := project_apply keys hbatch hcell hof change
    refine ⟨projection', hproject, ?_⟩
    intro row' hrow' howner
    rw [hrows row' hrow' howner]
    constructor
    · intro hnot
      by_contra hdetected
      have := mayCount_iff.mpr (Change.undetected backed hdetected)
      rw [hnot] at this
      cases this
    · intro hdetected
      apply Bool.eq_false_iff.mpr
      intro hcounts
      exact Change.detected hlookup backed hdiffers hdetected (mayCount_iff.mp hcounts)

theorem project_ok {hash : Hashing}
    (hbatch : Table.get FormulaMigrationPreviewBatch.id db.batches batchId = some batch)
    (hcell : cell ∈ db.cells) (hof : cell.previewBatchId = batch.id) :
    ∃ projection, project hash db batchId = .ok projection ∧
      evidenceRow hash (projectCell db batch cell) ∈ projection.rows := by
  cases hproject : project hash db batchId with
  | error e => simp [project, hbatch] at hproject
  | ok projection =>
    exact ⟨projection, rfl, (mem_project hproject).mpr ⟨batch, cell, hbatch, hcell, hof, rfl⟩⟩

end

end

namespace Sample

def checksumOf (c : Char) : String := String.ofList (List.replicate 64 c)

def batch : FormulaMigrationPreviewBatch where
  id := "batch"
  translatorVersion := "t1"
  registryVersion := "r1"
  registryChecksum := checksumOf 'a'
  reportChecksum := checksumOf 'b'

def cell : FormulaMigrationPreviewCell where
  id := "cell"
  previewBatchId := "batch"
  formulaRuleIdentity := "rule"
  inventoryCellId := "D4"
  formulaShapeId := some "A1"
  translationStatus := "review_required"
  reasonCode := "review_required"
  translationFingerprint := checksumOf 'c'
  targetFragment := .obj []
  bindingManifestChecksum := checksumOf 'd'
  fixtureEvidence := { formulaTranslationResultId := some "result" }
  translatorVersion := "t1"
  registryVersion := "r1"
  registryChecksum := checksumOf 'a'
  blockingOperationallyActive := false
  reportRowChecksum := checksumOf 'e'

def result : FormulaTranslationResult where
  id := "result"
  formulaRuleIdentity := "rule"
  formulaShapeId := some "A1"
  translationStatus := "review_required"
  reasonCode := "review_required"
  translatorVersion := "t1"
  registryVersion := "r1"
  registryChecksum := checksumOf 'a'
  translationPayload := .obj []
  translationFingerprint := checksumOf 'c'

def contract : ShapeComparisonContract where
  id := "contract"
  shapeId := "A1"
  contractRevision := "1"
  contractChecksum := checksumOf 'f'
  targetKind := .priceTarget
  stableRuleIdentity := .null
  requiredInputIdentity := .null
  requiredOutputLanes := .null
  canonicalContext := .null
  requiredTraceComponents := .null
  acceptanceEffect := .mayCount
  classificationMapping := []
  isCurrent := true

def db : Db where
  batches := [batch]
  cells := [cell]
  results := [result]
  contracts := [contract]

def hash : Hashing := ⟨id, Json.render⟩

def call (action : FormulaMigrationReviewAction) (now : Time) (id : Id) : ReviewCall where
  decision :=
    { previewBatchId := "batch", inventoryCellId := "D4", action := action, actor := "reviewer"
      reason := "checked" }
  now := now
  id := id

/-- An approval and a rejection of one moment, the second with the smaller id. -/
def crossed : Db := reviewed .ascii db [call .approved 5 "2", call .rejected 5 "1"]

def unseen : List Change :=
  [.batch .reportChecksum (checksumOf '0'), .cell .bindingManifestChecksum (checksumOf '0'),
   .cell .reportRowChecksum (checksumOf '0'), .targetFragment (.int 1), .translationPayload (.int 1)]

end Sample

open Sample

theorem approved_counts : ∃ projection,
    project hash (reviewed .ascii db [Sample.call .approved 5 "1"]) "batch" =
      .ok projection ∧ ∃ row ∈ projection.rows, row.mayCount = true ∧ row.blocked = false := by
  have hbatch : Table.get FormulaMigrationPreviewBatch.id
      (reviewed .ascii db [Sample.call .approved 5 "1"]).batches "batch" = some Sample.batch :=
    rfl
  have hcell : Sample.cell ∈ (reviewed .ascii db [Sample.call .approved 5 "1"]).cells :=
    mem_singleton_self _
  obtain ⟨projection, hproject, hrow⟩ := project_ok hbatch hcell rfl
  have hcounts : (projectCell (reviewed .ascii db [Sample.call .approved 5 "1"]) Sample.batch
      Sample.cell).mayCount = true := by decide +kernel
  have timely : AllTimely .ascii db [Sample.call .approved 5 "1"] := by
    refine ⟨?_, trivial⟩
    intro cell _ d hd
    cases hd
  have closed := projection_fails_closed .ascii hash db rfl (by decide)
    [Sample.call .approved 5 "1"] timely "batch" projection hproject _ hrow
  refine ⟨projection, hproject, _, hrow, hcounts, ?_⟩
  apply Bool.eq_false_iff.mpr
  intro blocked
  exact closed.1 ⟨hcounts, blocked⟩

/-- A row counts although the last decision is a rejection, and after changes that go unseen. -/
theorem rejected_counts : (decisionsOf crossed "cell").getLast?.map (fun d => d.action) = some .rejected ∧
    (orderedRows crossed batch).map (fun row => row.mayCount) = [true] ∧
    (Sample.unseen.all fun change =>
      ((orderedRows (change.apply Sample.cell crossed)
        (change.batchOf batch)).map fun row => row.mayCount) == [true]) = true := by
  refine ⟨by decide +kernel, by decide +kernel, ?_⟩
  simp only [Sample.unseen, all_cons, all_nil, Bool.and_true, Bool.and_eq_true]
  exact ⟨by decide +kernel, by decide +kernel, by decide +kernel, by decide +kernel, by decide +kernel⟩

end FlowHub.FormulaMigration
