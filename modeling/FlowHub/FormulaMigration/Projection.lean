import FlowHub.FormulaTranslator.Translator
import FlowHub.ShadowValidation.Comparison

namespace FlowHub.FormulaTranslator

def FormulaTranslationStatus.ofValue : String → Option FormulaTranslationStatus
  | "translated" => some .translated
  | "review_required" => some .reviewRequired
  | "unsupported" => some .unsupported
  | "quarantined" => some .quarantined
  | _ => none

def reasonValues : List String :=
  ["matched_supported", "review_required", "shape_unsupported", "unknown_shape",
   "broken_reference", "broken_value", "anomalous_formula", "semantic_gap"]

structure FormulaShapeEntry where
  shapeId : String
  isPriceTarget : Bool

def formulaShapeRegistry : List FormulaShapeEntry :=
  [⟨"A1", true⟩, ⟨"A2", false⟩, ⟨"A3", true⟩, ⟨"A4", true⟩, ⟨"A5", true⟩, ⟨"A6", true⟩,
   ⟨"A7", false⟩, ⟨"A8", false⟩, ⟨"A9", true⟩, ⟨"A10", true⟩, ⟨"A11", true⟩, ⟨"A12", false⟩,
   ⟨"A13", true⟩]

/-- `get_registry_entry`, `none` where it raises. -/
def getRegistryEntry (shapeId : String) : Option FormulaShapeEntry :=
  Table.get FormulaShapeEntry.shapeId formulaShapeRegistry shapeId

end FlowHub.FormulaTranslator

namespace FlowHub.FormulaMigration

open Python FormulaTranslator ShadowValidation

inductive FormulaMigrationReviewAction where
  | approved | rejected | note
  deriving DecidableEq

inductive FormulaMigrationProjectionReason where
  | bindingManifestChecksumMissing | comparisonContractMissing | fingerprintMismatch
  | previewRowChecksumMismatch | previewReportChecksumMismatch | registryChecksumMismatch
  | registryVersionMismatch | reviewRequiredApprovalMissing | shapeTargetMismatch
  | translationResultMissing | translatorVersionMismatch | staleOrInconsistentResult

def FormulaMigrationProjectionReason.value : FormulaMigrationProjectionReason → String
  | bindingManifestChecksumMissing => "binding_manifest_checksum_missing"
  | comparisonContractMissing => "comparison_contract_missing"
  | fingerprintMismatch => "translation_fingerprint_mismatch"
  | previewRowChecksumMismatch => "preview_row_checksum_mismatch"
  | previewReportChecksumMismatch => "preview_report_checksum_mismatch"
  | registryChecksumMismatch => "registry_checksum_mismatch"
  | registryVersionMismatch => "registry_version_mismatch"
  | reviewRequiredApprovalMissing => "review_required_approval_missing"
  | shapeTargetMismatch => "shape_target_mismatch"
  | translationResultMissing => "translation_result_missing"
  | translatorVersionMismatch => "translator_version_mismatch"
  | staleOrInconsistentResult => "stale_or_inconsistent_result"

structure FormulaMigrationPreviewBatch where
  id : Id
  (translatorVersion registryVersion registryChecksum reportChecksum : String)

/-- The entries of `fixture_registry_evidence_json` that are texts. -/
structure FixtureEvidence where
  registryVersion : Option String := none
  registryChecksum : Option String := none
  formulaTranslationResultId : Option Id := none

structure FormulaMigrationPreviewCell where
  (id previewBatchId : Id)
  (formulaRuleIdentity inventoryCellId : String)
  formulaShapeId : Option String
  (translationStatus reasonCode translationFingerprint : String)
  targetFragment : Json
  bindingManifestChecksum : String
  fixtureEvidence : FixtureEvidence
  (translatorVersion registryVersion registryChecksum : String)
  blockingOperationallyActive : Bool
  reportRowChecksum : String

structure FormulaTranslationResult where
  id : Id
  formulaRuleIdentity : String
  formulaShapeId : Option String
  (translationStatus reasonCode translatorVersion registryVersion registryChecksum : String)
  translationPayload : Json
  translationFingerprint : String

structure FormulaMigrationReviewDecision where
  (id previewCellId : Id)
  actorName : String
  actorUserId : Option Nat
  action : FormulaMigrationReviewAction
  reason : String
  evidence : Json
  createdAt : Time

/-- The decisions stand in the order in which they were recorded. -/
structure Db where
  batches : List FormulaMigrationPreviewBatch := []
  cells : List FormulaMigrationPreviewCell := []
  results : List FormulaTranslationResult := []
  contracts : List ShapeComparisonContract := []
  decisions : List FormulaMigrationReviewDecision := []

def looksLikeChecksum (value : String) : Bool :=
  value.length == 64 && value.toList.all fun c => "0123456789abcdefABCDEF".toList.contains c

def Later (a b : FormulaMigrationReviewDecision) : Prop :=
  a.createdAt < b.createdAt ∨ (a.createdAt = b.createdAt ∧ a.id < b.id)

instance (a b : FormulaMigrationReviewDecision) : Decidable (Later a b) :=
  inferInstanceAs (Decidable (_ ∨ _))

/-- The last decision by ascending moment and id. -/
def latestDecision (decisions : List FormulaMigrationReviewDecision) :
    Option FormulaMigrationReviewDecision :=
  decisions.foldl (fun best decision => match best with
    | none => some decision
    | some b => if Later b decision then some decision else some b) none

def decisionsOf (db : Db) (cellId : Id) : List FormulaMigrationReviewDecision :=
  db.decisions.filter fun d => decide (d.previewCellId = cellId)

/-- `_lookup_shape_contract`: the first current contract by revision and id. -/
def lookupShapeContract (db : Db) (shapeId : String) : Option ShapeComparisonContract :=
  (sortedBy (fun c => [c.contractRevision, c.id])
    (db.contracts.filter fun c => decide (c.shapeId = shapeId) && c.isCurrent)).head?

structure ReviewDecisionRecord where
  previewBatchId : Id
  inventoryCellId : String
  action : FormulaMigrationReviewAction
  actor : String
  actorUserId : Option Nat := none
  reason : String
  evidence : Json := .obj []

def ReviewDecisionRecord.row (decision : ReviewDecisionRecord) (cellId : Id) (now : Time) (id : Id) :
    FormulaMigrationReviewDecision where
  id := id
  previewCellId := cellId
  actorName := decision.actor
  actorUserId := decision.actorUserId
  action := decision.action
  reason := decision.reason
  evidence := decision.evidence
  createdAt := now

/-- `_resolve_cell_for_batch_or_raise`. -/
def resolveCell (db : Db) (batchId : Id) (inventoryCellId : String) : Option FormulaMigrationPreviewCell :=
  db.cells.find? fun c =>
    decide (c.previewBatchId = batchId) && decide (c.inventoryCellId = inventoryCellId)

def addReviewDecision (u : Unicode) (db : Db) (decision : ReviewDecisionRecord) (now : Time)
    (id : Id) : Except String Db :=
  if strip u decision.actor.toList = [] then .error "actor_required"
  else if strip u decision.reason.toList = [] then .error "reason_required"
  else match resolveCell db decision.previewBatchId decision.inventoryCellId with
    | none => .error "preview_cell_missing"
    | some cell => .ok { db with decisions := db.decisions ++ [decision.row cell.id now id] }

/-- `reasons.add` under a condition. -/
def note (condition : Prop) [Decidable condition] (reason : FormulaMigrationProjectionReason) :
    List FormulaMigrationProjectionReason :=
  if condition then [reason] else []

@[simp] theorem note_eq_nil [Decidable condition] : note condition reason = [] ↔ ¬ condition := by
  by_cases h : condition
  · simp [note, h]
  · simp [note, h]

/-- What `_project_cell` looks up for a cell. -/
structure Lookup where
  contract : Option ShapeComparisonContract
  result : Option FormulaTranslationResult
  latest : Option FormulaMigrationReviewDecision

namespace FormulaMigrationPreviewCell

variable (cell : FormulaMigrationPreviewCell)

/-- `translation_status`, unsupported where the column names no status. -/
def status : FormulaTranslationStatus :=
  (FormulaTranslationStatus.ofValue cell.translationStatus).getD .unsupported

def shapeEntry : Option FormulaShapeEntry := cell.formulaShapeId.bind getRegistryEntry

def shapeIsPriceTarget : Bool := cell.shapeEntry.any FormulaShapeEntry.isPriceTarget

/-- `result_id`, empty where the evidence holds none. -/
def resultId : Id := cell.fixtureEvidence.formulaTranslationResultId.getD ""

def reviewRequired : Bool := decide (cell.status = .reviewRequired)

end FormulaMigrationPreviewCell

/-- The reasons found in the cell and its batch. -/
def recordReasons (batch : FormulaMigrationPreviewBatch) (cell : FormulaMigrationPreviewCell) :
    List FormulaMigrationProjectionReason :=
  note (¬ looksLikeChecksum batch.reportChecksum) .previewReportChecksumMismatch ++
  note (cell.fixtureEvidence.registryVersion.any (· != cell.registryVersion))
    .staleOrInconsistentResult ++
  note (cell.fixtureEvidence.registryChecksum.any (· != cell.registryChecksum))
    .staleOrInconsistentResult ++
  note (¬ looksLikeChecksum cell.bindingManifestChecksum) .bindingManifestChecksumMissing ++
  note (¬ looksLikeChecksum cell.translationFingerprint) .fingerprintMismatch ++
  note (¬ looksLikeChecksum cell.registryChecksum) .registryChecksumMismatch ++
  note (¬ looksLikeChecksum cell.reportRowChecksum) .previewRowChecksumMismatch ++
  note (cell.registryVersion ≠ batch.registryVersion) .registryVersionMismatch ++
  note (cell.registryChecksum ≠ batch.registryChecksum) .registryChecksumMismatch ++
  note (cell.translatorVersion ≠ batch.translatorVersion) .translatorVersionMismatch ++
  note (FormulaTranslationStatus.ofValue cell.translationStatus = none)
    .staleOrInconsistentResult ++
  note (cell.reasonCode ∉ reasonValues) .staleOrInconsistentResult

/-- The reasons found in the shape and its contract. -/
def shapeReasons (cell : FormulaMigrationPreviewCell) (contract : Option ShapeComparisonContract) :
    List FormulaMigrationProjectionReason :=
  note (cell.shapeEntry.isNone) .shapeTargetMismatch ++
  note (cell.shapeIsPriceTarget ∧ contract.isNone) .comparisonContractMissing

/-- The reasons found in the translation result. -/
def resultReasons (cell : FormulaMigrationPreviewCell) :
    Option FormulaTranslationResult → List FormulaMigrationProjectionReason
  | none => [.translationResultMissing]
  | some result =>
    note (result.formulaRuleIdentity ≠ cell.formulaRuleIdentity) .staleOrInconsistentResult ++
    note (result.formulaShapeId ≠ cell.formulaShapeId) .shapeTargetMismatch ++
    note (result.translationStatus ≠ cell.translationStatus) .staleOrInconsistentResult ++
    note (result.reasonCode ≠ cell.reasonCode) .staleOrInconsistentResult ++
    note (result.translationFingerprint ≠ cell.translationFingerprint) .fingerprintMismatch ++
    note (result.translatorVersion ≠ cell.translatorVersion) .translatorVersionMismatch ++
    note (result.registryVersion ≠ cell.registryVersion) .registryVersionMismatch ++
    note (result.registryChecksum ≠ cell.registryChecksum) .registryChecksumMismatch

def approval (latest : Option FormulaMigrationReviewDecision) : Option FormulaMigrationReviewDecision :=
  latest.filter fun d => decide (d.action = .approved)

def reviewReasons (cell : FormulaMigrationPreviewCell)
    (latest : Option FormulaMigrationReviewDecision) : List FormulaMigrationProjectionReason :=
  note (cell.reviewRequired ∧ (approval latest).isNone) .reviewRequiredApprovalMissing

def reasons (batch : FormulaMigrationPreviewBatch) (cell : FormulaMigrationPreviewCell)
    (found : Lookup) : List FormulaMigrationProjectionReason :=
  recordReasons batch cell ++ shapeReasons cell found.contract ++ resultReasons cell found.result ++
    reviewReasons cell found.latest

structure CellProjectionDraft where
  (previewBatchId previewCellId : Id)
  (inventoryCellId formulaRuleIdentity : String)
  formulaShapeId : Option String
  formulaTranslationResultId : Id
  (translationStatus reasonCode translationFingerprint translatorVersion registryVersion : String)
  (registryChecksum bindingManifestChecksum previewBatchReportChecksum previewRowChecksum : String)
  shapeIsPriceTarget : Bool
  shapeComparisonContractId : Option Id
  (shapeComparisonContractRevision shapeComparisonContractRevisionChecksum : Option String)
  reviewDecisionId : Option Id
  (mayCount reviewRequired blocked nonPriceEvidenceOnly : Bool)
  failReasons : List String

def lookup (db : Db) (cell : FormulaMigrationPreviewCell) : Lookup where
  contract := if cell.shapeIsPriceTarget then cell.formulaShapeId.bind (lookupShapeContract db) else none
  result := if cell.resultId = "" then none
    else Table.get FormulaTranslationResult.id db.results cell.resultId
  latest := latestDecision (decisionsOf db cell.id)

/-- `_project_cell`, of what it has looked up. -/
def draftOf (batch : FormulaMigrationPreviewBatch) (cell : FormulaMigrationPreviewCell)
    (found : Lookup) : CellProjectionDraft where
  previewBatchId := batch.id
  previewCellId := cell.id
  inventoryCellId := cell.inventoryCellId
  formulaRuleIdentity := cell.formulaRuleIdentity
  formulaShapeId := cell.formulaShapeId
  formulaTranslationResultId := cell.resultId
  translationStatus := cell.translationStatus
  reasonCode := cell.reasonCode
  translationFingerprint := cell.translationFingerprint
  translatorVersion := cell.translatorVersion
  registryVersion := cell.registryVersion
  registryChecksum := cell.registryChecksum
  bindingManifestChecksum := cell.bindingManifestChecksum
  previewBatchReportChecksum := batch.reportChecksum
  previewRowChecksum := cell.reportRowChecksum
  shapeIsPriceTarget := cell.shapeIsPriceTarget
  shapeComparisonContractId := found.contract.map ShapeComparisonContract.id
  shapeComparisonContractRevision := found.contract.map ShapeComparisonContract.contractRevision
  shapeComparisonContractRevisionChecksum :=
    found.contract.map ShapeComparisonContract.contractChecksum
  reviewDecisionId := if cell.reviewRequired then (approval found.latest).map (fun d => d.id) else none
  mayCount := cell.shapeIsPriceTarget && (decide (cell.status = .translated) || cell.reviewRequired) &&
    !cell.blockingOperationallyActive && (reasons batch cell found).isEmpty
  reviewRequired := cell.reviewRequired
  blocked := !(reasons batch cell found).isEmpty ||
    (decide (cell.status = .quarantined) && cell.blockingOperationallyActive)
  nonPriceEvidenceOnly := !cell.shapeIsPriceTarget
  failReasons := sortedSet ((reasons batch cell found).map FormulaMigrationProjectionReason.value)

def projectCell (db : Db) (batch : FormulaMigrationPreviewBatch)
    (cell : FormulaMigrationPreviewCell) : CellProjectionDraft :=
  draftOf batch cell (lookup db cell)

structure FormulaMigrationPreviewEvidenceProjection extends CellProjectionDraft where
  projectionRowChecksum : String

structure FormulaMigrationPreviewProjection where
  batchId : Id
  batchReportChecksum : String
  rows : List FormulaMigrationPreviewEvidenceProjection
  projectionChecksum : String

/-- The payload of `compute_projection_row_checksum`. -/
def rowPayload (row : CellProjectionDraft) : Json :=
  .obj [("batch_id", .str row.previewBatchId),
    ("binding_manifest_checksum", .str row.bindingManifestChecksum),
    ("blocked", .bool row.blocked),
    ("cell_id", .str row.previewCellId),
    ("comparison_contract_id", .ofOption .str row.shapeComparisonContractId),
    ("comparison_contract_revision", .ofOption .str row.shapeComparisonContractRevision),
    ("comparison_contract_revision_checksum", .ofOption .str row.shapeComparisonContractRevisionChecksum),
    ("fail_reasons", .arr (row.failReasons.map .str)),
    ("formula_rule_identity", .str row.formulaRuleIdentity),
    ("formula_shape_id", .ofOption .str row.formulaShapeId),
    ("inventory_cell_id", .str row.inventoryCellId),
    ("may_count", .bool row.mayCount),
    ("non_price_evidence_only", .bool row.nonPriceEvidenceOnly),
    ("preview_batch_report_checksum", .str row.previewBatchReportChecksum),
    ("preview_row_checksum", .str row.previewRowChecksum),
    ("reason_code", .str row.reasonCode),
    ("registry_checksum", .str row.registryChecksum),
    ("registry_version", .str row.registryVersion),
    ("review_decision_id", .ofOption .str row.reviewDecisionId),
    ("review_required", .bool row.reviewRequired),
    ("shape_is_price_target", .bool row.shapeIsPriceTarget),
    ("translation_fingerprint", .str row.translationFingerprint),
    ("translation_status", .str row.translationStatus),
    ("translator_version", .str row.translatorVersion)]

def evidenceRow (hash : Hashing) (row : CellProjectionDraft) : FormulaMigrationPreviewEvidenceProjection :=
  { row with projectionRowChecksum :=
      hash.json (.obj [("projection_row", .str (rowPayload row).render)]) }

def orderedRows (db : Db) (batch : FormulaMigrationPreviewBatch) : List CellProjectionDraft :=
  sortedBy (fun row => [row.inventoryCellId, row.previewCellId])
    ((sortedBy (fun c => [c.inventoryCellId, c.id])
      (db.cells.filter fun c => decide (c.previewBatchId = batch.id))).map (projectCell db batch))

def project (hash : Hashing) (db : Db) (batchId : Id) : Except String FormulaMigrationPreviewProjection :=
  match Table.get FormulaMigrationPreviewBatch.id db.batches batchId with
  | none => .error "preview_batch_missing"
  | some batch =>
    let rows := (orderedRows db batch).map (evidenceRow hash)
    .ok { batchId := batch.id
          batchReportChecksum := batch.reportChecksum
          rows := rows
          projectionChecksum := hash.json (.obj
            [("batch_id", .str batch.id), ("batch_report_checksum", .str batch.reportChecksum),
             ("rows", .arr (rows.map fun row => .str row.projectionRowChecksum))]) }

theorem mem_project {hash : Hashing} (h : project hash db batchId = .ok projection) :
    row ∈ projection.rows ↔ ∃ batch cell,
      Table.get FormulaMigrationPreviewBatch.id db.batches batchId = some batch ∧
      cell ∈ db.cells ∧ cell.previewBatchId = batch.id ∧
      row = evidenceRow hash (projectCell db batch cell) := by
  cases hbatch : Table.get FormulaMigrationPreviewBatch.id db.batches batchId with
  | none => simp [project, hbatch] at h
  | some batch =>
    simp only [project, hbatch, Except.ok.injEq] at h
    subst h
    simp only [orderedRows, List.mem_map, mem_sortedBy, List.mem_filter, decide_eq_true_eq]
    constructor
    · rintro ⟨_, ⟨cell, ⟨hmem, hof⟩, rfl⟩, rfl⟩
      exact ⟨batch, cell, rfl, hmem, hof, rfl⟩
    · rintro ⟨found, cell, hfound, hmem, hof, rfl⟩
      cases hfound
      exact ⟨_, ⟨cell, ⟨hmem, hof⟩, rfl⟩, rfl⟩

end FlowHub.FormulaMigration
