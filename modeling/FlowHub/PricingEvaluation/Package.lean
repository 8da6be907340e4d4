import FlowHub.PricingEvaluation.Derived
import FlowHub.Python.Text
import FlowHub.Table

namespace FlowHub.PricingEvaluation

open Txn Python

structure SourceRequirement where
  sourceRole : String
  sourceId : Id
  policy : SelectionPolicy
  candidates : List ObservationCandidate
  /-- The resolved numeric leaf value for this Observation. -/
  value : ℚ
  resourceBindingRevisionId : Option Id := none
  selectionPolicyVersion : Option String := none
  schemaUnitContext : Parameters := []

structure ManualInputRequirement where
  manualInputRevisionId : Id
  key : String
  value : ℚ

structure OverrideRequest where
  overrideValue : ℚ
  manualInputDecisionId : Id

/-- The arguments of `create_package`. -/
structure PackageRequest where
  channelId : Id
  productRef : String
  workspaceId : Option Id := none
  /-- `workspace_pricing_evaluated_at.isoformat()`. -/
  (workspacePricingEvaluatedAt formulaShapeId translatorVersion : String)
  pricingPolicyRevisionId : Option Id := none
  currencyUnitRegistryVersion : String
  fxSnapshotId : Option Id := none
  channelConfigRevisionId : Option Id := none
  mappingRevisionId : Option Id := none
  productMetadataFingerprint : Option String := none
  sourceRequirements : List SourceRequirement
  manualInputRequirements : List ManualInputRequirement := []
  crossSourceSkewTolerance : Option Int := none
  derivedDefinitions : List DefinitionDraft := []
  calculatedCandidate : Option ℚ := none
  override : Option OverrideRequest := none
  createdByUserId : Option Nat := none
  now : Moment

structure ManualInputRevision where
  id : Id
  kind : String
  channelId : Option Id := none
  productRef : Option String := none
  currency : Option String := none
  unit : Option String := none
  expiresAt : Option Moment := none

structure SourceBindingContext where
  (currency unit : String)
  (scaleNumerator scaleDenominator : Int)

structure PackageSourceObservationPin where
  (id packageId : Id)
  sourceRole : String
  sourceId : Id
  resourceBindingRevisionId : Option Id
  observationId : Id
  observationChecksum : String
  observedAt : Moment
  policy : SelectionPolicy
  selectionPolicyVersion : Option String
  freshnessResult : FreshnessResult
  crossSourceSkewResult : SkewResult
  schemaUnitContext : Parameters

structure PackageManualInputPin where
  (id packageId manualInputRevisionId manualInputDecisionId : Id)

/-- A reference with the id of the definition it was resolved to. -/
structure ResolvedRef where
  kind : DependencyRefKind
  key : String

structure DerivedValueDefinition where
  id : Id
  operator : DerivedOperator
  parameters : Parameters
  dependencyRefs : List ResolvedRef
  checksum : String

structure DerivedValueEvaluation where
  (id packageId definitionId : Id)
  evaluationOrder : Nat
  resultNumerator : Int
  resultDenominator : Nat
  refs : List ResolvedRef
  values : List ℚ
  checksum : String

structure PackagePriceOverride where
  (id packageId : Id)
  calculatedCandidate : ℚ
  overrideValue : Option ℚ
  overrideManualInputDecisionId : Option Id
  effectiveOutput : ℚ
  effectiveOutputSource : String

structure FrozenEvaluationPackage where
  id : Id
  workspaceId : Option Id
  channelId : Id
  (productRef workspacePricingEvaluatedAt : String)
  pricingPolicyRevisionId : Option Id
  (formulaShapeId translatorVersion : String)
  fxSnapshotId : Option Id
  currencyUnitRegistryVersion : String
  (channelConfigRevisionId mappingRevisionId : Option Id)
  productMetadataFingerprint : Option String
  (arithmeticVersion dependencyFingerprint checksum : String)
  createdByUserId : Option Nat

structure Tables where
  channels : List Id := []
  manualInputRevisions : List ManualInputRevision := []
  manualInputDecisions : List ManualInputDecision := []
  definitions : List DerivedValueDefinition := []
  packages : List FrozenEvaluationPackage := []
  sourcePins : List PackageSourceObservationPin := []
  manualPins : List PackageManualInputPin := []
  evaluations : List DerivedValueEvaluation := []
  overrides : List PackagePriceOverride := []

/-- The ids a call draws. -/
structure PackageIds where
  package : Id
  (sourcePin manualPin definition evaluation : Nat → Id)
  override : Id

section Sources

variable (u : Unicode)

def coerceNonEmptyStr (value : Option Json) (reason : String) : Except Failure String :=
  match value with
  | some (.str text) =>
    if (strip u text.toList).isEmpty then .error (.dependencyResolution reason)
    else .ok (String.ofList (strip u text.toList))
  | _ => .error (.dependencyResolution reason)

def coercePositiveInt (value : Option Json) (reason : String) : Except Failure Int :=
  match value with
  | some (.int n) => if n ≤ 0 then .error (.dependencyResolution reason) else .ok n
  | _ => .error (.dependencyResolution reason)

def extractSourceBindingContext (context : Parameters) : Except Failure SourceBindingContext := do
  let currency ← coerceNonEmptyStr u (context.lookup "currency") "source_currency_unresolved"
  let unit ← coerceNonEmptyStr u (context.lookup "unit") "source_unit_unresolved"
  match context.lookup "scale" with
  | some (.obj scale) =>
    let numerator ← coercePositiveInt (scale.lookup "numerator") "source_scale_unresolved"
    let denominator ← coercePositiveInt (scale.lookup "denominator") "source_scale_unresolved"
    pure ⟨u.upper currency, u.upper unit, numerator, denominator⟩
  | _ => .error (.dependencyResolution "source_scale_unresolved")

structure SelectedSource where
  position : Nat
  requirement : SourceRequirement
  resourceBindingRevisionId : Id
  result : SelectionResult
  context : SourceBindingContext

def SelectedSource.role (s : SelectedSource) : String := s.requirement.sourceRole

/-- The loop of section B from a position on, with the roles selected before it. -/
def selectSources (now : Moment) : Nat → List String → List SourceRequirement →
    Except Failure (List SelectedSource)
  | _, _, [] => .ok []
  | position, roles, requirement :: rest => do
    refuse (roles.contains requirement.sourceRole) (.dependencyResolution "source_role_duplicate")
    let context ← extractSourceBindingContext u requirement.schemaUnitContext
    match requirement.resourceBindingRevisionId with
    | none => .error (.dependencyResolution "source_binding_revision_missing")
    | some revisionId =>
      let result ← selectObservation requirement.policy requirement.candidates now
      let selected ← selectSources now (position + 1) (requirement.sourceRole :: roles) rest
      pure (⟨position, requirement, revisionId, result, context⟩ :: selected)

/-- Section B. -/
def pinSources (request : PackageRequest) : Except Failure (List SelectedSource × SkewResult) := do
  let selected ← selectSources u request.now 0 [] request.sourceRequirements
  let skew := evaluateCrossSourceSkew (selected.map fun s => s.result.candidate.observedAt)
    request.crossSourceSkewTolerance
  refuse (decide (skew = .violation)) (.dependencyResolution "cross_source_skew_violation")
  pure (selected, skew)

end Sources

structure PinnedManualInput where
  requirement : ManualInputRequirement
  decision : ManualInputDecision

def resolveManualInput (tables : Tables) (revision : ManualInputRevision) (now : Moment) :
    Except Failure ManualInputDecision :=
  resolveCurrentDecision (tables.manualInputDecisions.filter fun d =>
    decide (d.manualInputRevisionId = revision.id)) now revision.expiresAt

def manualInputScopeMismatch : Failure := .dependencyResolution "manual_input_scope_mismatch"

/-- The checks of section C on one manual input. -/
def pinManualInput (tables : Tables) (request : PackageRequest)
    (requirement : ManualInputRequirement) : Except Failure PinnedManualInput :=
  match Table.get ManualInputRevision.id tables.manualInputRevisions
      requirement.manualInputRevisionId with
  | none => .error (.dependencyResolution "manual_input_missing")
  | some revision => do
    refuse (decide (revision.kind = "manual_metadata") &&
      (revision.currency.isNone || revision.unit.isNone)) manualInputScopeMismatch
    refuse (revision.channelId.any fun channelId => decide (channelId ≠ request.channelId))
      manualInputScopeMismatch
    refuse (revision.productRef.any fun productRef => decide (productRef ≠ request.productRef))
      manualInputScopeMismatch
    let decision ← resolveManualInput tables revision request.now
    pure ⟨requirement, decision⟩

/-- Section C, with the keys seen so far. -/
def pinManualInputs (tables : Tables) (request : PackageRequest) : List String →
    List ManualInputRequirement → Except Failure (List PinnedManualInput)
  | _, [] => .ok []
  | keys, requirement :: rest => do
    refuse (keys.contains requirement.key) (.dependencyResolution "manual_input_key_duplicate")
    let pinned ← pinManualInput tables request requirement
    let more ← pinManualInputs tables request (requirement.key :: keys) rest
    pure (pinned :: more)

def fractionText (value : ℚ) : String :=
  if value.den = 1 then toString value.num else toString value.num ++ "/" ++ toString value.den

def ResolvedRef.json (ref : ResolvedRef) : Json :=
  .obj [("key", .str ref.key), ("kind", .str ref.kind.value)]

/-- What the checksum of a definition is taken of. -/
def definitionPayload (operator : DerivedOperator) (parameters : Parameters)
    (refs : List ResolvedRef) : Json :=
  .obj [("dependency_refs", .arr (refs.map ResolvedRef.json)), ("operator", .str operator.value),
    ("parameters", .obj parameters)]

def evaluationPayload (packageId definitionId : Id) (inputs : List ℚ) (result : ℚ) : Json :=
  .obj [("definition_id", .str definitionId),
    ("inputs", .arr (inputs.map fun v => .str (fractionText v))), ("package_id", .str packageId),
    ("result", .str (fractionText result))]

/-- What section E has built after some of the definitions. The latest entry of a name is the
one that stands. -/
structure Derivation where
  definitions : List DerivedValueDefinition
  definitionIds : List (String × Id) := []
  results : List (String × ℚ)
  evaluations : List DerivedValueEvaluation := []

/-- One reference: what it resolves to, and the value read. -/
def Derivation.read (state : Derivation) (ref : DependencyRef) : Except Failure (ResolvedRef × ℚ) :=
  match ref.kind with
  | .derived =>
    match state.definitionIds.lookup ref.key, state.results.lookup ref.key with
    | some definitionId, some value => .ok (⟨.derived, definitionId⟩, value)
    | _, _ => .error .keyError
  | kind =>
    match state.results.lookup ref.key with
    | some value => .ok (⟨kind, ref.key⟩, value)
    | none => .error (.derivedValue "derived_dependency_missing")

variable (hash : Hashing)

/-- The definition with a content: the row there is, or one added. Adding it flushes the pins. -/
def Derivation.define (state : Derivation) (draft : DefinitionDraft) (refs : List ResolvedRef)
    (newId : Id) (pinsClash : Bool) : Except Failure (List DerivedValueDefinition × Id) :=
  let checksum := hash.json (definitionPayload draft.operator draft.parameters refs)
  match state.definitions.find? fun d => decide (d.checksum = checksum) with
  | some existing => .ok (state.definitions, existing.id)
  | none => do
    refuse pinsClash .integrity
    pure (state.definitions ++ [⟨newId, draft.operator, draft.parameters, refs, checksum⟩], newId)

/-- One turn of the loop over the definitions. -/
def Derivation.evaluate (ids : PackageIds) (pinsClash : Bool) (state : Derivation) (index : Nat)
    (key : String) (draft : DefinitionDraft) : Except Failure Derivation := do
  let inputs ← draft.dependencies.mapM state.read
  let refs := inputs.map Prod.fst
  let values := inputs.map Prod.snd
  let (definitions, definitionId) ← state.define hash draft refs (ids.definition index) pinsClash
  let result ← evaluateOperator draft.operator draft.parameters values
  pure {
    definitions := definitions
    definitionIds := (key, definitionId) :: state.definitionIds
    results := (key, result) :: state.results
    evaluations := state.evaluations ++ [{
      id := ids.evaluation index
      packageId := ids.package
      definitionId := definitionId
      evaluationOrder := index
      resultNumerator := result.num
      resultDenominator := result.den
      refs := refs
      values := values
      checksum := hash.json (evaluationPayload ids.package definitionId values result) }] }

/-- The loop from an index on. -/
def Derivation.run (ids : PackageIds) (pinsClash : Bool) (drafts : List DefinitionDraft) :
    Nat → List String → Derivation → Except Failure Derivation
  | _, [], state => .ok state
  | index, key :: keys, state =>
    match draftByKey drafts key with
    | none => .error .keyError
    | some draft => do
      let state ← state.evaluate hash ids pinsClash index key draft
      Derivation.run ids pinsClash drafts (index + 1) keys state

def SelectedSource.leaf (s : SelectedSource) : String × ℚ := (s.role, s.requirement.value)

def PinnedManualInput.leaf (p : PinnedManualInput) : String × ℚ :=
  (p.requirement.key, p.requirement.value)

/-- `leaf_values`: manual inputs over sources. -/
def leafValues (sources : List SelectedSource) (manual : List PinnedManualInput) : List (String × ℚ) :=
  manual.map PinnedManualInput.leaf ++ sources.map SelectedSource.leaf

/-- Section E. -/
def derive (ids : PackageIds) (pinsClash : Bool) (drafts : List DefinitionDraft)
    (definitions : List DerivedValueDefinition) (leaves : List (String × ℚ)) :
    Except Failure Derivation := do
  validateDag drafts
  Derivation.run hash ids pinsClash drafts 0 (topologicalOrder drafts)
    { definitions := definitions, results := leaves }

def fitsBigInteger (n : Int) : Bool := decide (-2 ^ 63 ≤ n) && decide (n < 2 ^ 63)

def DerivedValueEvaluation.fits (e : DerivedValueEvaluation) : Bool :=
  fitsBigInteger e.resultNumerator && fitsBigInteger e.resultDenominator

def PackagePriceOverride.fits (o : PackagePriceOverride) : Bool :=
  ([o.calculatedCandidate, o.effectiveOutput] ++ o.overrideValue.toList).all fun v =>
    fitsBigInteger v.num && fitsBigInteger v.den

/-- Section D. -/
def priceOverride (ids : PackageIds) (request : PackageRequest) : Option PackagePriceOverride :=
  request.calculatedCandidate.map fun candidate =>
    match request.override with
    | some override =>
      { id := ids.override, packageId := ids.package, calculatedCandidate := candidate
        overrideValue := some override.overrideValue
        overrideManualInputDecisionId := some override.manualInputDecisionId
        effectiveOutput := override.overrideValue, effectiveOutputSource := "override_value" }
    | none =>
      { id := ids.override, packageId := ids.package, calculatedCandidate := candidate
        overrideValue := none, overrideManualInputDecisionId := none
        effectiveOutput := candidate, effectiveOutputSource := "calculated_candidate" }

/-- An item of `source_pins`. -/
def SelectedSource.pinJson (s : SelectedSource) : Json :=
  .arr [.int s.position, .str s.role, .str s.requirement.sourceId, .str s.resourceBindingRevisionId,
    .str s.result.candidate.observationId, .str s.result.candidate.checksum, .str s.context.currency,
    .str s.context.unit, .int s.context.scaleNumerator, .int s.context.scaleDenominator]

/-- An item of `manual_input_pins`. -/
structure ManualPinTuple where
  (manualInputRevisionId decisionId : Id)
  key : String
  numerator : Int
  denominator : Nat

def PinnedManualInput.tuple (p : PinnedManualInput) : ManualPinTuple where
  manualInputRevisionId := p.requirement.manualInputRevisionId
  decisionId := p.decision.id
  key := p.requirement.key
  numerator := p.requirement.value.num
  denominator := p.requirement.value.den

/-- The order of tuples. -/
def ManualPinTuple.le (a b : ManualPinTuple) : Bool :=
  if a.manualInputRevisionId ≠ b.manualInputRevisionId then
    decide (a.manualInputRevisionId < b.manualInputRevisionId)
  else if a.decisionId ≠ b.decisionId then decide (a.decisionId < b.decisionId)
  else if a.key ≠ b.key then decide (a.key < b.key)
  else if a.numerator ≠ b.numerator then decide (a.numerator < b.numerator)
  else decide (a.denominator ≤ b.denominator)

def ManualPinTuple.json (t : ManualPinTuple) : Json :=
  .arr [.str t.manualInputRevisionId, .str t.decisionId, .str t.key, .int t.numerator, .int t.denominator]

def arithmeticVersion : String := "pricing-evaluation-arithmetic-v1"

/-- The payload of `compute_dependency_fingerprint`. -/
def fingerprintPayload (request : PackageRequest) (sources : List SelectedSource)
    (manual : List PinnedManualInput) (definitionIds : List Id) : Json :=
  .obj [("arithmetic_version", .str arithmeticVersion),
    ("channel_config_revision_id", .ofOption .str request.channelConfigRevisionId),
    ("channel_id", .str request.channelId),
    ("currency_unit_registry_version", .str request.currencyUnitRegistryVersion),
    ("derived_definition_ids", .arr ((definitionIds.insertionSort (· ≤ ·)).map .str)),
    ("formula_shape_id", .str request.formulaShapeId),
    ("fx_snapshot_id", .ofOption .str request.fxSnapshotId),
    ("manual_input_pins", .arr (((manual.map PinnedManualInput.tuple).mergeSort
      ManualPinTuple.le).map ManualPinTuple.json)),
    ("mapping_revision_id", .ofOption .str request.mappingRevisionId),
    ("pricing_policy_revision_id", .ofOption .str request.pricingPolicyRevisionId),
    ("product_metadata_fingerprint", .ofOption .str request.productMetadataFingerprint),
    ("product_ref", .str request.productRef),
    ("source_pins", .arr (sources.map SelectedSource.pinJson)),
    ("translator_version", .str request.translatorVersion)]

/-- The payload of `compute_package_checksum`. -/
def packagePayload (request : PackageRequest) (fingerprint : String) : Json :=
  .obj [("channel_id", .str request.channelId), ("dependency_fingerprint", .str fingerprint),
    ("product_ref", .str request.productRef),
    ("workspace_id", .ofOption .str request.workspaceId),
    ("workspace_pricing_evaluated_at", .str request.workspacePricingEvaluatedAt)]

def SelectedSource.pin (ids : PackageIds) (skew : SkewResult) (s : SelectedSource) :
    PackageSourceObservationPin where
  id := ids.sourcePin s.position
  packageId := ids.package
  sourceRole := s.role
  sourceId := s.requirement.sourceId
  resourceBindingRevisionId := s.requirement.resourceBindingRevisionId
  observationId := s.result.candidate.observationId
  observationChecksum := s.result.candidate.checksum
  observedAt := s.result.candidate.observedAt
  policy := { s.requirement.policy with
    businessCycleIdentity := s.result.candidate.businessCycleIdentity }
  selectionPolicyVersion := s.requirement.selectionPolicyVersion
  freshnessResult := s.result.freshnessResult
  crossSourceSkewResult := skew
  schemaUnitContext := s.requirement.schemaUnitContext

def PinnedManualInput.pin (ids : PackageIds) (index : Nat) (p : PinnedManualInput) :
    PackageManualInputPin where
  id := ids.manualPin index
  packageId := ids.package
  manualInputRevisionId := p.requirement.manualInputRevisionId
  manualInputDecisionId := p.decision.id

def frozenPackage (ids : PackageIds) (request : PackageRequest) (fingerprint : String) :
    FrozenEvaluationPackage where
  id := ids.package
  workspaceId := request.workspaceId
  channelId := request.channelId
  productRef := request.productRef
  workspacePricingEvaluatedAt := request.workspacePricingEvaluatedAt
  pricingPolicyRevisionId := request.pricingPolicyRevisionId
  formulaShapeId := request.formulaShapeId
  translatorVersion := request.translatorVersion
  fxSnapshotId := request.fxSnapshotId
  currencyUnitRegistryVersion := request.currencyUnitRegistryVersion
  channelConfigRevisionId := request.channelConfigRevisionId
  mappingRevisionId := request.mappingRevisionId
  productMetadataFingerprint := request.productMetadataFingerprint
  arithmeticVersion := arithmeticVersion
  dependencyFingerprint := fingerprint
  checksum := hash.json (packagePayload request fingerprint)
  createdByUserId := request.createdByUserId

/-- What a call returns. -/
structure PackageResult where
  package : FrozenEvaluationPackage
  sourcePins : List PackageSourceObservationPin
  manualInputPins : List PackageManualInputPin
  derivedEvaluations : List DerivedValueEvaluation
  override : Option PackagePriceOverride

/-- Whether two manual pins of one package have one revision, which its unique key refuses. -/
def revisionsClash (manual : List PinnedManualInput) : Bool :=
  decide ¬(manual.map fun p => p.requirement.manualInputRevisionId).Nodup

/-- `create_package`; where it raises nothing is stored. -/
def createPackage (u : Unicode) (ids : PackageIds) (request : PackageRequest) (tables : Tables) :
    Except Failure (Tables × PackageResult) := do
  refuse (!tables.channels.contains request.channelId)
    (.dependencyResolution "pricing_evaluation_channel_not_found")
  let (sources, skew) ← pinSources u request
  let manual ← pinManualInputs tables request [] request.manualInputRequirements
  let derivation ← derive hash ids (revisionsClash manual) request.derivedDefinitions
    tables.definitions (leafValues sources manual)
  let override := priceOverride ids request
  let fingerprint := hash.json (fingerprintPayload request sources manual
    (derivation.definitionIds.map Prod.snd))
  -- the last flush: unique keys, and integers of 64 bits
  refuse (revisionsClash manual) .integrity
  refuse (!decide (derivation.evaluations.map DerivedValueEvaluation.definitionId).Nodup) .integrity
  refuse (!derivation.evaluations.all DerivedValueEvaluation.fits) .outOfRange
  refuse (override.any fun o => !o.fits) .outOfRange
  let result : PackageResult := {
    package := frozenPackage hash ids request fingerprint
    sourcePins := sources.map (SelectedSource.pin ids skew)
    manualInputPins := manual.mapIdx fun index p => p.pin ids index
    derivedEvaluations := derivation.evaluations
    override := override }
  pure ({ tables with
    definitions := derivation.definitions
    packages := tables.packages ++ [result.package]
    sourcePins := tables.sourcePins ++ result.sourcePins
    manualPins := tables.manualPins ++ result.manualInputPins
    evaluations := tables.evaluations ++ result.derivedEvaluations
    overrides := tables.overrides ++ override.toList }, result)

end FlowHub.PricingEvaluation
