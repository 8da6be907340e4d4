import FlowHub.PricingEvaluation.Package
import FlowHub.Python.Coercion
import FlowHub.Store

namespace FlowHub.ShadowValidation

open Python Txn PricingEvaluation

inductive ComparisonConfidence where
  | verified | partly | unavailable
  deriving DecidableEq

inductive ComparisonPrimaryClassification where
  | notPossible | exactMatch | acceptedExpectedRounding | acceptedDocumentedSemanticDifference
  | reviewRequired | criticalDivergence | contractUnavailable | outputUnavailable | contextMismatch
  deriving DecidableEq

namespace ComparisonPrimaryClassification

def all : List ComparisonPrimaryClassification :=
  [notPossible, exactMatch, acceptedExpectedRounding, acceptedDocumentedSemanticDifference,
    reviewRequired, criticalDivergence, contractUnavailable, outputUnavailable, contextMismatch]

def value : ComparisonPrimaryClassification → String
  | notPossible => "comparison_not_possible"
  | exactMatch => "exact_match"
  | acceptedExpectedRounding => "accepted_expected_rounding"
  | acceptedDocumentedSemanticDifference => "accepted_documented_semantic_difference"
  | reviewRequired => "review_required"
  | criticalDivergence => "critical_divergence"
  | contractUnavailable => "comparison_contract_unavailable"
  | outputUnavailable => "comparison_output_unavailable"
  | contextMismatch => "comparison_context_mismatch"

end ComparisonPrimaryClassification

inductive ShapeTargetKind where
  | priceTarget | nonPrice | quarantined | broken
  deriving DecidableEq

inductive ShapeAcceptanceEffect where
  | mayCount | diagnosticOnly | blocksReadiness
  deriving DecidableEq

inductive OutputLane where
  | candidate | effective | both
  deriving DecidableEq

inductive ShadowValidationWindowState where
  | collecting | accepted | invalidated | closed
  deriving DecidableEq

/-- Reason codes of comparisons, by their text. -/
abbrev ReasonCode := String

inductive Fault where
  | shadowValidationError (code : String)
  | multipleResultsFound | typeError | attributeError | integrityError
  deriving DecidableEq

structure ShadowValidationWindow where
  (id channelId : Id)
  (scopeManifestChecksum formulaInventoryChecksum acceptancePolicyRevision : String)
  (pricingPolicyRevisionId pricingPolicyActivationId : Option Id)
  pricingAuthorityEventId : Id
  pricingAuthorityHeadVersion : Nat
  closesAt : Option Moment
  evidenceFreshnessSeconds : Option Nat
  requiredDistinctMatches : Nat
  configurationChecksum : String
  deriving DecidableEq

structure ShadowValidationWindowHead where
  channelId : Id
  currentWindowId : Option Id
  currentState : ShadowValidationWindowState
  headVersion : Nat
  deriving DecidableEq

structure ShapeComparisonContract where
  id : Id
  (shapeId contractRevision contractChecksum : String)
  targetKind : ShapeTargetKind
  (stableRuleIdentity requiredInputIdentity requiredOutputLanes canonicalContext : Json)
  requiredTraceComponents : Json
  acceptanceEffect : ShapeAcceptanceEffect
  /-- `classification_mapping_json`, empty where it is null. -/
  classificationMapping : List (String × Json)
  isCurrent : Bool

structure LegacyFormulaCapture where
  (id channelId frozenEvaluationPackageId : Id)
  (formulaShapeId formulaRuleIdentity inputManifestChecksum : String)
  pricingAuthorityEventId : Id
  pricingAuthorityHeadVersion : Nat
  candidate : ℚ
  effective : ℚ
  (candidateCurrency candidateUnit effectiveCurrency effectiveUnit : Option String)
  outputContext : Json
  captureChecksum : String

/-- A package with the moment its row was written. -/
structure StoredPackage extends FrozenEvaluationPackage where
  createdAt : Moment

inductive Finding where
  | outputContextDivergence | effectiveValueDivergence | candidateValueDivergence | traceDivergence
  | critical
  deriving DecidableEq

def Finding.name : Finding → String
  | outputContextDivergence => "output_context_divergence"
  | effectiveValueDivergence => "effective_value_divergence"
  | candidateValueDivergence => "candidate_value_divergence"
  | traceDivergence => "trace_divergence"
  | critical => "critical_divergence"

structure ShadowValidationComparison where
  (id channelId validationWindowId frozenEvaluationPackageId legacyFormulaCaptureId : Id)
  shapeId : String
  comparisonContractId : Id
  (stableRuleIdentity comparisonContractRevision comparisonContractRevisionChecksum : String)
  (comparisonAlgorithmVersion comparisonIdentityChecksum frozenEvaluationPackageChecksum : String)
  (legacyCaptureChecksum translatorVersion : String)
  requiredOutputLanes : OutputLane
  confidence : ComparisonConfidence
  primaryClassification : ComparisonPrimaryClassification
  secondaryClassifications : List ComparisonPrimaryClassification
  findings : List Finding
  reasonCode : Option ReasonCode
  createdAt : Moment
  deriving DecidableEq

structure Db where
  windows : List ShadowValidationWindow := []
  windowHeads : List ShadowValidationWindowHead := []
  contracts : List ShapeComparisonContract := []
  captures : List LegacyFormulaCapture := []
  comparisons : List ShadowValidationComparison := []
  packages : List StoredPackage := []
  manualPins : List PackageManualInputPin := []
  overrides : List PackagePriceOverride := []
  manualDecisions : List ManualInputDecision := []
  authorityHeads : List ChannelPricingAuthorityHead := []
  policyHeads : List ChannelPricingPolicyHead := []
  policyEvents : List PricingPolicyLifecycleEvent := []

def found {α : Type} (code : String) : Option α → Except Fault α
  | some a => .ok a
  | none => .error (.shadowValidationError code)

/-- `if condition: raise ShadowValidationError(code)`. -/
def refuse (condition : Bool) (code : String) : Except Fault Unit :=
  if condition then .error (.shadowValidationError code) else .ok ()

def oneOrNone {α : Type} : List α → Except Fault (Option α)
  | [] => .ok none
  | [a] => .ok (some a)
  | _ => .error .multipleResultsFound

@[simp] theorem found_ok : found code o = .ok a ↔ o = some a := by
  cases o <;> simp [found]

@[simp] theorem refuse_ok : refuse condition code = .ok x ↔ condition = false := by
  cases condition <;> simp [refuse]

theorem oneOrNone_some : oneOrNone rows = .ok (some a) ↔ rows = [a] := by
  match rows with
  | [] => simp [oneOrNone]
  | [b] => simp [oneOrNone]
  | b :: c :: rest => simp [oneOrNone]

namespace Finding

open ComparisonPrimaryClassification

/-- `_FINDING_TO_CLASSIFICATION`. -/
def classification : Finding → ComparisonPrimaryClassification
  | outputContextDivergence => reviewRequired
  | effectiveValueDivergence => acceptedExpectedRounding
  | candidateValueDivergence => reviewRequired
  | traceDivergence => acceptedDocumentedSemanticDifference
  | critical => criticalDivergence

end Finding

namespace ShapeComparisonContract

/-- What a finding is filed under: the contract's own label, or the common one. -/
def label (contract : ShapeComparisonContract) (finding : Finding) : Json :=
  (contract.classificationMapping.lookup finding.name).getD (.str finding.classification.value)

/-- The classification of a label. An unknown label has none. -/
def classificationOf : Json → Except Fault (Option ComparisonPrimaryClassification)
  | .str s => .ok (ComparisonPrimaryClassification.all.find? fun c => decide (c.value = s))
  | .arr _ | .obj _ => .error .typeError
  | _ => .ok none

end ShapeComparisonContract

def classificationPrecedence : List ComparisonPrimaryClassification :=
  [.criticalDivergence, .acceptedDocumentedSemanticDifference, .reviewRequired,
    .acceptedExpectedRounding, .exactMatch]

def classifyFindings (findings : List Finding) (contract : ShapeComparisonContract) :
    Except Fault ComparisonPrimaryClassification := do
  let labels ← findings.mapM fun finding =>
    ShapeComparisonContract.classificationOf (contract.label finding)
  let mapped := labels.filterMap id
  match mapped with
  | [] => pure .exactMatch
  | first :: _ => pure ((classificationPrecedence.find? fun c => decide (c ∈ mapped)).getD first)

variable (printable : Char → Bool)

def normalizeOutputLanes (lanes : Json) : Except Fault OutputLane :=
  let unsupported := .error (.shadowValidationError "shadow_validation_output_lanes_invalid")
  match lanes with
  | .arr items =>
    let normalized := sortedSet (items.map (str printable))
    if normalized = ["candidate"] then .ok .candidate
    else if normalized = ["effective"] then .ok .effective
    else if normalized = ["candidate", "effective"] then .ok .both
    else unsupported
  | _ => unsupported

/-- Every key names an identity with the expected text. -/
def identityHolds (actual : List (String × String)) (expected : List (String × Json)) : Bool :=
  expected.all fun (key, value) => decide (actual.lookup key = some (str printable value))

def assessProvenance (fep : StoredPackage) (capture : LegacyFormulaCapture)
    (contract : ShapeComparisonContract) : ComparisonConfidence × Option ReasonCode :=
  let partly := (ComparisonConfidence.partly, some "comparison_provenance_partial")
  match contract.requiredInputIdentity with
  | .obj required =>
    let actualInputIdentity := [("shape_id", capture.formulaShapeId),
      ("formula_shape_id", capture.formulaShapeId),
      ("formula_rule_identity", capture.formulaRuleIdentity),
      ("input_manifest_checksum", capture.inputManifestChecksum),
      ("fep_dependency_fingerprint", fep.dependencyFingerprint),
      ("pricing_policy_revision_id", fep.pricingPolicyRevisionId.getD ""),
      ("translator_version", fep.translatorVersion)]
    let actualStableRuleIdentity := [("formula_shape_id", capture.formulaShapeId),
      ("formula_rule_identity", capture.formulaRuleIdentity),
      ("fep_formula_shape_id", fep.formulaShapeId)]
    let stable := match contract.stableRuleIdentity with
      | .obj fields => identityHolds printable actualStableRuleIdentity fields
      | _ => true
    if !stable || !identityHolds printable actualInputIdentity required then partly
    else if fep.translatorVersion = "" ∨ fep.checksum = "" ∨ capture.captureChecksum = "" then
      (.unavailable, some "comparison_provenance_unavailable")
    else (.verified, none)
  | _ => partly

def compareContext (window : ShadowValidationWindow) (contract : ShapeComparisonContract)
    (capture : LegacyFormulaCapture) (fep : StoredPackage) : Option Finding :=
  match contract.canonicalContext with
  | .obj canonical =>
    let observed := [("candidate_currency", capture.candidateCurrency),
      ("candidate_unit", capture.candidateUnit),
      ("effective_currency", capture.effectiveCurrency),
      ("effective_unit", capture.effectiveUnit),
      ("formula_shape_id", some capture.formulaShapeId),
      ("fep_formula_shape_id", some fep.formulaShapeId),
      ("window_policy_revision", window.pricingPolicyRevisionId),
      ("translator_version", some fep.translatorVersion),
      ("pricing_policy_revision_id", fep.pricingPolicyRevisionId),
      ("currency_unit_registry_version", some fep.currencyUnitRegistryVersion),
      ("arithmetic_version", some fep.arithmeticVersion)]
    let text := fun key => ((observed.lookup key).map (·.getD "None")).getD ""
    if canonical.all fun (key, expected) => decide (text key = str printable expected) then none
    else some .outputContextDivergence
  | _ => none

/-- The findings of one lane, and whether the package has no output for it. -/
def compareLane (finding : Finding) (legacy : ℚ) (package : Option ℚ) : List Finding × Bool :=
  match package with
  | none => ([], true)
  | some value => (if legacy = value then [] else [finding], false)

/-- `_compare_values`. A package without an override row has no outputs. -/
def compareValues (capture : LegacyFormulaCapture) (override : Option PackagePriceOverride)
    (lanes : OutputLane) : List Finding × Bool :=
  let candidate := if lanes = .effective then ([], false)
    else compareLane .candidateValueDivergence capture.candidate
      (override.map (·.calculatedCandidate))
  let effective := if lanes = .candidate then ([], false)
    else compareLane .effectiveValueDivergence capture.effective (override.map (·.effectiveOutput))
  (candidate.1 ++ effective.1, candidate.2 || effective.2)

/-- `map(str, observed or [])` of what a document holds. -/
def iterated (observed : Json) : Except Fault (List String) :=
  if truthy observed = false then .ok []
  else match observed with
    | .arr items => .ok (items.map (str printable))
    | .str s => .ok (s.toList.map fun c => String.singleton c)
    | .obj fields => .ok (fields.map Prod.fst)
    | _ => .error .typeError

def compareTraces (capture : LegacyFormulaCapture) (contract : ShapeComparisonContract) :
    Except Fault (Option Finding) :=
  if truthy contract.requiredTraceComponents = false then .ok none
  else match contract.requiredTraceComponents with
    | .arr required =>
      match capture.outputContext with
      | .obj _ => do
        let observed ← iterated printable (capture.outputContext.get "trace_components")
        pure (if sortedBy (fun s => [s]) (required.map (str printable)) =
          sortedBy (fun s => [s]) observed then none else some .traceDivergence)
      | _ => .error .attributeError
    | _ => .ok (some .traceDivergence)

/-- The arguments of `assemble`, with the id that the new row draws. -/
structure AssembleRequest where
  (id validationWindowId frozenEvaluationPackageId legacyFormulaCaptureId : Id)
  comparisonContractId : Option Id := none
  expectedHeadVersion : ℤ := 0
  comparisonAlgorithmVersion : String := "shadow-validation-comparison-v1"
  createdAt : Moment

/-- The rows that a comparison is made of. -/
structure Evidence where
  window : ShadowValidationWindow
  fep : StoredPackage
  capture : LegacyFormulaCapture
  contract : ShapeComparisonContract
  lanes : OutputLane
  override : Option PackagePriceOverride

def isLower (c : Char) : Bool := decide ('a' ≤ c ∧ c ≤ 'z')

/-- `_version`: a text that `_VERSION` matches. -/
def version (u : Unicode) (value : String) : Except Fault String :=
  let normalized := strip u value.toList
  let matched := match normalized with
    | [] => false
    | c :: rest => isLower c && decide (rest.length ≤ 39) &&
      rest.all fun d => isLower d || d.isDigit || d == '_' || d == '-'
  if matched then .ok (String.ofList normalized)
  else .error (.shadowValidationError "comparison_algorithm_version_invalid")

def windowOf (db : Db) (windowId : Id) : Option ShadowValidationWindow :=
  Table.get ShadowValidationWindow.id db.windows windowId

def headOf (db : Db) (channelId : Id) : Option ShadowValidationWindowHead :=
  Table.get ShadowValidationWindowHead.channelId db.windowHeads channelId

def packageOf (db : Db) (packageId : Id) : Option StoredPackage :=
  Table.get (fun p => p.id) db.packages packageId

def contractOf (db : Db) (contractId : Id) : Option ShapeComparisonContract :=
  Table.get ShapeComparisonContract.id db.contracts contractId

/-- `query.filter_by(shape_id=..., is_current=True).one_or_none()`. -/
def currentContract (db : Db) (shapeId : String) : Except Fault (Option ShapeComparisonContract) :=
  oneOrNone (db.contracts.filter fun c => decide (c.shapeId = shapeId) && c.isCurrent)

/-- The override row of a package. -/
def overrideOf (db : Db) (packageId : Id) : Except Fault (Option PackagePriceOverride) :=
  oneOrNone (db.overrides.filter fun o => decide (o.packageId = packageId))

/-- `_contract`, where there is one. -/
def namedContract (db : Db) (contractId : Option Id) (shapeId : String) :
    Except Fault (Option ShapeComparisonContract) :=
  match contractId with
  | none => currentContract db shapeId
  | some contractId => .ok (contractOf db contractId)

/-- What `assemble` reads before it looks at the head. -/
def gather (db : Db) (request : AssembleRequest) : Except Fault Evidence := do
  let window ← found "shadow_validation_window_not_found" (windowOf db request.validationWindowId)
  let fep ← found "shadow_validation_fep_not_found" (packageOf db request.frozenEvaluationPackageId)
  let capture ← found "shadow_validation_capture_not_found"
    (Table.get LegacyFormulaCapture.id db.captures request.legacyFormulaCaptureId)
  refuse (window.channelId != fep.channelId) "shadow_validation_window_channel_mismatch"
  refuse (window.channelId != capture.channelId) "shadow_validation_capture_channel_mismatch"
  refuse (fep.id != capture.frozenEvaluationPackageId) "shadow_validation_fep_capture_mismatch"
  let named ← namedContract db request.comparisonContractId capture.formulaShapeId
  let contract ← found "shadow_validation_contract_not_found" named
  refuse (contract.shapeId != fep.formulaShapeId || contract.shapeId != capture.formulaShapeId)
    "shadow_validation_fep_capture_mismatch"
  refuse (contract.targetKind != .priceTarget) "shadow_validation_unsupported_shape"
  refuse (!contract.isCurrent) "shadow_validation_contract_unapproved"
  let lanes ← normalizeOutputLanes printable contract.requiredOutputLanes
  let override ← overrideOf db fep.id
  pure ⟨window, fep, capture, contract, lanes, override⟩

def validateCollectionHead (head : Option ShadowValidationWindowHead) (windowId : Id)
    (expectedHeadVersion : ℤ) : Except Fault Unit := do
  let head ← found "shadow_validation_window_not_found" head
  refuse (head.currentWindowId != some windowId) "comparison_cas_conflict"
  refuse (head.currentState != .collecting) "comparison_cas_conflict"
  refuse ((head.headVersion : ℤ) != expectedHeadVersion) "comparison_cas_conflict"

def orNone (value : Option String) : Option String := value.filter fun s => decide (s ≠ "")

def validateAuthorityAndPolicy (e : Evidence) : Except Fault Unit := do
  refuse (e.capture.pricingAuthorityEventId != e.window.pricingAuthorityEventId ||
      e.capture.pricingAuthorityHeadVersion != e.window.pricingAuthorityHeadVersion)
    "shadow_validation_authority_mismatch"
  refuse (orNone e.fep.pricingPolicyRevisionId != orNone e.window.pricingPolicyRevisionId)
    "shadow_validation_policy_mismatch"

/-- The findings of a comparison with whole provenance, and whether an output is missing. -/
def findingsOf (e : Evidence) : Except Fault (List Finding × Bool) := do
  let (values, missing) := compareValues e.capture e.override e.lanes
  let trace ← compareTraces printable e.capture e.contract
  let apart := values.contains .effectiveValueDivergence && values.contains .candidateValueDivergence
  pure ((compareContext printable e.window e.contract e.capture e.fep).toList ++ values ++
    trace.toList ++ if apart then [.critical] else [], missing)

/-- How a comparison comes out. -/
structure Outcome where
  confidence : ComparisonConfidence
  primary : ComparisonPrimaryClassification
  secondary : List ComparisonPrimaryClassification
  findings : List Finding
  reasonCode : Option ReasonCode

def dedupe (items : List ComparisonPrimaryClassification) : List ComparisonPrimaryClassification :=
  items.foldl (fun output item => if item ∈ output then output else output ++ [item]) []

/-- The outcome of findings under a classification of them. -/
def filed (confidence : ComparisonConfidence) (reason : Option ReasonCode)
    (primary : ComparisonPrimaryClassification) (findings : List Finding) : Outcome :=
  if confidence ≠ .verified ∧ primary ≠ .notPossible then
    ⟨confidence, .notPossible, [.notPossible], findings, reason⟩
  else if primary = .exactMatch then ⟨confidence, primary, [], findings, none⟩
  else ⟨confidence, primary, dedupe (primary :: findings.map Finding.classification), findings, reason⟩

def primaryOf (findings : List Finding) (contract : ShapeComparisonContract) :
    Except Fault ComparisonPrimaryClassification :=
  if findings.isEmpty then .ok .exactMatch else classifyFindings findings contract

def outcomeOf (e : Evidence) : Except Fault Outcome :=
  match assessProvenance printable e.fep e.capture e.contract with
  | (.verified, _) => do
    let (findings, missing) ← findingsOf printable e
    let primary ← primaryOf findings e.contract
    pure (if missing then filed .unavailable (some "comparison_output_unavailable") primary findings
      else filed .verified none primary findings)
  | (confidence, reason) => .ok (filed confidence reason .notPossible [])

variable (hash : Hashing)

/-- `compute_comparison_identity_checksum`. -/
def comparisonIdentityChecksum (e : Evidence) (stableRuleIdentity algorithm : String) : String :=
  hash.json (.obj [("channel_id", .str e.window.channelId), ("comparison_algorithm_version", .str algorithm),
    ("comparison_contract_checksum", .str e.contract.contractChecksum),
    ("comparison_contract_id", .str e.contract.id),
    ("frozen_evaluation_package_checksum", .str e.fep.checksum),
    ("frozen_evaluation_package_id", .str e.fep.id),
    ("legacy_formula_capture_checksum", .str e.capture.captureChecksum),
    ("legacy_formula_capture_id", .str e.capture.id),
    ("stable_rule_identity", .str stableRuleIdentity)])

def comparisonOf (e : Evidence) (algorithm : String) (request : AssembleRequest)
    (outcome : Outcome) : ShadowValidationComparison :=
  let stableRuleIdentity := hash.json (.obj [("value", e.contract.stableRuleIdentity)])
  { id := request.id
    channelId := e.window.channelId
    validationWindowId := e.window.id
    frozenEvaluationPackageId := e.fep.id
    legacyFormulaCaptureId := e.capture.id
    shapeId := e.contract.shapeId
    comparisonContractId := e.contract.id
    stableRuleIdentity
    comparisonContractRevision := e.contract.contractRevision
    comparisonContractRevisionChecksum := e.contract.contractChecksum
    comparisonAlgorithmVersion := algorithm
    comparisonIdentityChecksum := comparisonIdentityChecksum hash e stableRuleIdentity algorithm
    frozenEvaluationPackageChecksum := e.fep.checksum
    legacyCaptureChecksum := e.capture.captureChecksum
    translatorVersion := e.fep.translatorVersion
    requiredOutputLanes := e.lanes
    confidence := outcome.confidence
    primaryClassification := outcome.primary
    secondaryClassifications := outcome.secondary
    findings := outcome.findings
    reasonCode := outcome.reasonCode
    createdAt := request.createdAt }

variable (u : Unicode)

/-- The comparison that `assemble` makes of the rows it reads, if the head that it finds lets
it. -/
def compared (db : Db) (head : Option ShadowValidationWindowHead) (request : AssembleRequest) :
    Except Fault ShadowValidationComparison := do
  let algorithm ← version u request.comparisonAlgorithmVersion
  let e ← gather printable db request
  validateCollectionHead head e.window.id request.expectedHeadVersion
  validateAuthorityAndPolicy e
  let outcome ← outcomeOf printable e
  pure (comparisonOf hash e algorithm request outcome)

/-- The transaction that stores a comparison. -/
def storeComparison (comparison : ShadowValidationComparison) (db : Db) : Except Fault Db :=
  if Table.has ShadowValidationComparison.id db.comparisons comparison.id then .error .integrityError
  else .ok { db with comparisons := db.comparisons ++ [comparison] }

end FlowHub.ShadowValidation
