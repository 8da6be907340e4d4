import FlowHub.PricingMatrix.Arithmetic
import FlowHub.Python.Json
import FlowHub.Source.Mapping
import FlowHub.Table
import FlowHub.Txn.Logic

namespace FlowHub

structure ProviderWriteAttempt where
  id : Id
  sourceWorkflow : String
  (operationId logicalItemId : Id)
  applyJobId : Option Id
  (listingId channelId : Id)
  normalizedPayload : WorkspaceWriteIntent
  (payloadHash providerIdempotencyKey : String)
  attemptNumber : Nat

structure ProviderWriteAttemptEvent where
  attemptId : Id
  outcome : WriteOutcome
  errorCategory : Option String := none
  errorMessage : Option String := none

structure ApplyJob where
  (id workspaceId snapshotId draftRevisionId reviewId : Id)
  (idempotencyKey logicalOperationKey selectionChecksum : String)
  status : ApplyState
  createdAt : Time
  startedAt : Option Time := none
  heartbeatAt : Option Time := none
  workerId : Option String := none
  fencingToken : Nat := 0
  leaseToken : Option String := none
  leaseExpiresAt : Option Time := none
  recoveryAttempts : Nat := 0
  manifestChecksum : Option String := none
  completedAt : Option Time := none
  deriving DecidableEq

/-- The keys of `capabilities_json` that Source analysis reads. -/
structure ChannelContract where
  supportsMultipleListings : Bool := false
  currency : Option String := none
  unit : Option String := none
  monetaryPrecision : Option Int := none

structure WorkspaceChannel where
  id : Id
  enabled : Bool := true
  implementationState : String := "implemented"
  capabilitiesJson : ChannelContract := {}

/-- `source_metadata_json` of a Snapshot. -/
structure SourceMetadata where
  sourceId : Option String := none
  sourceVersion : Option Nat := none
  mappingRevisionId : Option String := none
  mappingChecksum : Option String := none
  sheetRevisionId : Option String := none
  sheetRevisionChecksum : Option String := none

structure UnifiedWorkspace where
  id : Id
  entryPoint : EntryPoint
  ownerUserId : Nat

structure WorkspaceSnapshot where
  (id workspaceId : Id)
  entryPoint : EntryPoint
  contentChecksum : String
  currencyProfileId : Id
  sourceMetadata : SourceMetadata := {}

structure WorkspaceSourceBinding where
  workspaceId : Id
  sourceVersion : Nat

inductive SourceStatus where
  | active | disabled | archived | deleted

structure SourceProfile where
  id : Id
  version : Nat
  status : SourceStatus := .active
  ownerUserId : Nat
  externalSourceId : Option String := none

structure SourceMappingRevision where
  (id sourceId : Id)
  checksum : String
  version : Nat
  worksheetMode : Source.WorksheetMode := .all
  worksheetName : Option String := none
  identityAuthority : Option String := none
  identityPolicyVersion : Nat := 2
  ruleSet : Source.RuleSet := {}

structure SheetRevision where
  (id sheetId : Id)
  version : Nat
  checksum : String
  columns : List Source.SheetColumn := []
  rows : List Source.SheetRow := []

structure FlowHubSheet where
  (id sourceId : Id)
  currentVersion : Nat

/-- A dataset with the version of the observation it was captured by. -/
structure SourceObservationDataset where
  (id observationId : Id)
  observationVersion : Nat
  sourceId : Id
  (resourceScope bindingFingerprint : String)
  (sourceSnapshotId sourceSnapshotVersion : Nat)
  workbookChecksum : String
  worksheets : Source.Workbook
  createdAt : Time

structure SourceProductIdentity where
  (id sourceId : Id)
  (sourceKeyHash normalizedSourceKey normalizationVersion : String)
  canonicalProductId : Id

structure CurrencyProfile where
  id : Id
  (scope scopeReference : String)
  version : Nat
  checksum : String
  enabled : Bool

structure CanonicalProduct where
  id : Id
  productType : String
  parentId : Option Id := none

structure Listing where
  (id canonicalProductId channelId : Id)
  externalPrimaryId : String
  sku : Option String := none
  mappingState : MappingState
  mappingVersion : Nat
  enabled : Bool

/-- `stockQuantity` is the text of the stored decimal. -/
structure ChannelCache where
  listingId : Id
  priceRaw : Option String
  priceCurrency : Option String := none
  priceUnit : Option String := none
  (stockQuantity status : Option String)
  manageStock : Option Bool := none
  cacheVersion : Nat
  (checksum freshness fetchStatus : String)
  fetchedAt : Time

structure SnapshotRow where
  (snapshotId listingId : Id)

structure Draft where
  (id workspaceId : Id)
  currentRevisionId : Option Id
  version : Nat
  status : DraftState

structure DraftRevision where
  (id draftId workspaceId snapshotId : Id)
  revisionNumber : Nat
  parentRevisionId : Option Id
  checksum : String

structure DraftRevisionChange where
  (id revisionId canonicalProductId listingId channelId : Id)
  field : Field
  targetValue : String
  (currency unit : Option String)

structure Review where
  (id workspaceId snapshotId draftRevisionId : Id)
  status : ReviewState
  (rulesetVersion capabilityDigest currencyDigest : String)
  currencyProfileId : Id
  currencyProfileVersion : Nat
  (currencyProfileChecksum currencySourceReference : String)
  currencyChannelReferences : List String
  (currencyRulesetVersion mappingDigest checksum : String)
  invalidatedAt : Option Time := none
  staleReason : Option String := none
  selectionVersion : Nat := 0
  selectionChecksum : Option String := none
  selectedChannelIds : List Id := []

structure ReviewItem where
  (id reviewId draftChangeId canonicalProductId listingId channelId : Id)
  field : Field
  currentValue : Option String
  targetValue : String
  (normalizedCurrency normalizedUnit : Option String)
  (warnings errors : List String)
  eligible : Bool

structure ReviewCacheVersion where
  (reviewId listingId channelId : Id)
  cacheVersion : Nat
  cacheChecksum : String
  mappingVersion : Nat
  capabilityVersion : String

structure ReviewSelection where
  (reviewId reviewItemId : Id)
  selectedByUserId : Nat
  deriving DecidableEq

structure DryRun where
  (id reviewId : Id)
  selectionVersion : Nat
  selectionChecksum : String
  status : DryRunStatus
  evidenceChecksum : String
  createdAt : Time

structure DryRunScope where
  (dryRunId reviewItemId listingId channelId : Id)
  disposition : Disposition
  reasonCode : Option String
  (expectedBefore observedLive : Evidence)
  liveFingerprint : Option String

structure ApplyManifest where
  (id reviewId : Id)
  dryRunId : Option Id
  selectionVersion : Nat
  (selectionChecksum manifestChecksum : String)

structure ApplyManifestOperation where
  (manifestId reviewItemId listingId channelId : Id)
  field : Field
  currentValue : Option String
  targetValue : String
  (currency unit : Option String)
  listingPayloadHash : String

structure ApplyJobItem where
  (id applyJobId reviewItemId listingId channelId : Id)
  field : Field
  status : ItemStatus
  attemptNumber : Nat := 0
  retryEligible : Bool := false
  externalResponseId : Option String := none
  errorCategory : Option String := none
  errorMessage : Option String := none
  cacheSyncStatus : Option String := none
  startedAt : Option Time := none
  completedAt : Option Time := none

structure WorkspaceLock where
  (workspaceId channelId listingId applyJobId : Id)
  (acquiredAt expiresAt : Time)

structure WorkspacePricingBinding where
  (id workspaceId channelId policyRevisionId pricingPolicyActivationId channelConfigRevisionId : Id)
  pricingAuthorityEventId : Option Id
  pricingAuthorityHeadVersion : Option Nat
  expectedPricingAuthority : Option PricingAuthority
  cacheMaxAgeMinutes : Nat
  workspacePricingEvaluatedAt : Time

structure ChannelPricingPolicyHead where
  channelId : Id
  currentEventId : Option Id := none
  effectiveActivationId : Option Id := none
  headVersion : Nat := 0
  deriving DecidableEq

structure PricingPolicyLifecycleEvent where
  (id channelId : Id)
  eventKind : String
  (predecessorEventId effectiveActivationId policyRevisionId channelConfigRevisionId : Option Id)
  supersedesActivationId : Option Id

structure PricingPolicyRevision where
  id : Id
  computationCurrency : String
  roundOrder : PricingMatrix.RoundOrder

structure PricingRuleEntry where
  policyRevisionId : Id
  channelId : Option Id
  (roundStepMinor surchargeMinor : Int)

structure PricingChannelConfigRevision where
  (id channelId : Id)
  revisionNumber : Nat
  (currency currencyUnit : String)

structure UserWorkspacePreference where
  userId : Nat
  (visibleChannelIds channelOrder : List Id)
  displayNameSource : String
  version : Nat

structure ChannelPricingAuthorityHead where
  channelId : Id
  currentAuthority : PricingAuthority
  effectiveEventId : Id
  headVersion : Nat
  deriving DecidableEq

inductive BatchStatus where
  | dryRunReady | approved | executing | applied | reconciliationRequired | partiallyFailed | failed
  deriving DecidableEq

structure WriteBatch where
  (id channelId : Id)
  operationType : String
  status : BatchStatus
  (sourcePreviewId batchHash : String)
  itemCount : Nat
  (currency createdBy : String)
  approvedBy : Option String := none
  approvedAt : Option Time := none
  executedAt : Option Time := none
  deriving DecidableEq

inductive WriteItemStatus where
  | pending | applied | failed | reconciliationRequired
  deriving DecidableEq

structure WriteItem where
  id : Nat
  batchId : Id
  (channelProductId sku : String)
  (currentPrice proposedPrice : Float64)
  (currency itemType : String)
  (parentProductId variationId : Option String)
  sourceFingerprint : String
  status : WriteItemStatus := .pending
  errorCode : Option String := none
  errorMessage : Option String := none

/-- Where a preview row came from: the keys of its `source` object. -/
structure PreviewSource where
  previewId : Option String
  fingerprint : String

/-- `dry_run_change` of a preview row; `keys` are its keys beyond the fields here. -/
structure WritePipelinePriceChange where
  productId : String
  productName : String := ""
  sku : String := ""
  (currentPrice proposedPrice : Float64)
  currency : String := "EUR"
  source : Option PreviewSource := none
  eligibleForDryRun : Bool := false
  status : Option String := none
  validationStatus : Option String := none
  itemType : String := "simple"
  parentProductId : Option String := none
  variationId : Option String := none
  keys : List String := []

structure PreviewRow where
  id : String
  (eligibleForDryRun hasErrors : Bool)
  dryRunChange : Option WritePipelinePriceChange

structure DlWorkspacePreview where
  (id sourceId : Id)
  sourceSnapshotId : Nat
  sourceIntegrityHash : String
  ownerUserId : Nat
  previewHash : String
  rows : List PreviewRow
  rowHashes : List (String × String)
  expiresAt : Time

structure DlSourceSnapshot where
  id : Nat
  integrityHash : String

structure DlProductCache where
  connectorId : Id
  productId : String
  exists_ : Bool
  salePrice : Option String := none
  regularPrice : Option String := none
  price : Option String := none
  lastPrice : Option String := none

structure IntegrationConnectorInstance where
  id : Id
  readOnly : Bool

structure FlowHubUser where
  id : Nat
  (username role : String)

/-- The tables, each in insertion order. -/
structure Db where
  attempts : List ProviderWriteAttempt := []
  attemptEvents : List ProviderWriteAttemptEvent := []
  applyJobs : List ApplyJob := []
  channels : List WorkspaceChannel := []
  authorityHeads : List ChannelPricingAuthorityHead := []
  writeBatches : List WriteBatch := []
  writeItems : List WriteItem := []
  previews : List DlWorkspacePreview := []
  sourceSnapshots : List DlSourceSnapshot := []
  productCache : List DlProductCache := []
  connectorInstances : List IntegrationConnectorInstance := []
  workspaces : List UnifiedWorkspace := []
  snapshots : List WorkspaceSnapshot := []
  sourceBindings : List WorkspaceSourceBinding := []
  sourceProfiles : List SourceProfile := []
  sourceMappings : List SourceMappingRevision := []
  sheetRevisions : List SheetRevision := []
  sheets : List FlowHubSheet := []
  observationDatasets : List SourceObservationDataset := []
  sourceIdentities : List SourceProductIdentity := []
  currencyProfiles : List CurrencyProfile := []
  products : List CanonicalProduct := []
  listings : List Listing := []
  channelCache : List ChannelCache := []
  snapshotRows : List SnapshotRow := []
  drafts : List Draft := []
  draftRevisions : List DraftRevision := []
  draftChanges : List DraftRevisionChange := []
  reviews : List Review := []
  reviewItems : List ReviewItem := []
  reviewCacheVersions : List ReviewCacheVersion := []
  reviewSelections : List ReviewSelection := []
  dryRuns : List DryRun := []
  dryRunScopes : List DryRunScope := []
  applyManifests : List ApplyManifest := []
  applyManifestOperations : List ApplyManifestOperation := []
  applyJobItems : List ApplyJobItem := []
  workspaceLocks : List WorkspaceLock := []
  pricingBindings : List WorkspacePricingBinding := []
  pricingPolicyHeads : List ChannelPricingPolicyHead := []
  pricingPolicyEvents : List PricingPolicyLifecycleEvent := []
  pricingPolicyRevisions : List PricingPolicyRevision := []
  pricingRuleEntries : List PricingRuleEntry := []
  pricingChannelConfigs : List PricingChannelConfigRevision := []
  preferences : List UserWorkspacePreference := []

/-- The names of the transactions, with what they were called for. -/
inductive Tag where
  | assertWorkspaceFence (command : WorkspaceWriteBatchCommand)
  | recordIntents (command : WorkspaceWriteBatchCommand)
  | dispatch (command : WorkspaceWriteBatchCommand) (channelId : Id)
  | recordResults (command : WorkspaceWriteBatchCommand) (results : List WorkspaceWriteResult)
  | createDryRun (previewId : Id) (rowIds : List String)
  | approveBatch (batchId : Id)
  | startBatch (batchId : Id)
  | finishBatch (batchId : Id) (results : List WorkspaceWriteResult)
  | generateReview (reviewId : Id)
  | selectReviewItems (reviewId : Id)
  | savePreference (userId : Nat)
  | saveDraft (workspaceId : Id)
  | restoreRevision (workspaceId : Id)
  | openDryRun (reviewId : Id)
  | readListing (listingId : Id)
  | closeDryRun (dryRunId : Id)
  | requestApply (jobId : Id)
  | findApply (key : String)
  | acquireLocks (jobId : Id)
  | lockFailed (jobId : Id)
  | startApply (jobId : Id)
  | checkApply (jobId : Id)
  | readScope (dryRunId reviewItemId : Id)
  | planApply (jobId : Id)
  | recordOutcomes (jobId : Id) (results : List WorkspaceWriteResult)
  | finishApply (jobId : Id)
  | abortApply (jobId : Id)
  | readApply (jobId : Id)
  | beginReconcile (jobId : Id)
  | finishReconcile (jobId : Id) (results : List WorkspaceWriteResult)
  | recoverJob (jobId : Id)
  | recoverStaleApplies
  | saveMapping (sourceId : Id)
  | createSourceWorkspace (sourceId : Id)

/-- What a connector is given to read one Listing back; nothing in it is to be written. -/
structure LiveProbe where
  (listingId channelId : Id)
  externalPrimaryId : String
  sku : Option String
  productType : String
  (parentExternalId price stock status currency unit : Option String)
  (mappingVersion cacheVersion : Nat)
  (cacheChecksum capabilityVersion currencyDigest idempotencyKey payloadHash : String)
  governedFields : List Field

/-- `response["verification"]`: `observed` when it is a dictionary, and whether
there is an `error`. -/
structure LiveVerification where
  observed : Option Evidence
  error : Bool

/-- Everything asked of code that runs outside the database. -/
inductive Query where
  | acquire (channelId : Id)
  | applyUpdates (command : WorkspaceWriteBatchCommand) (channelId : Id)
      (intents : List WorkspaceWriteIntent)
  | verifyUpdates (command : WorkspaceWriteBatchCommand) (channelId : Id)
      (intents : List WorkspaceWriteIntent)
  | transportReports (channelId : Id) (results : List WorkspaceWriteResult)
  | readLive (channelId : Id) (probe : LiveProbe)

def Query.Answer : Query → Type
  | .acquire _ | .transportReports _ _ => Unit
  | .applyUpdates _ _ _ | .verifyUpdates _ _ _ => List WorkspaceWriteResult
  | .readLive _ _ => LiveVerification

abbrev service : Txn.Interface where
  State := Db
  Tag := Tag
  Query := Query
  Answer := Query.Answer
  Fault := Fault

abbrev Program := Txn.Proc service

abbrev ask (q : Query) : Program q.Answer := @Txn.Proc.request service q

namespace Db

def applyJob (db : Db) (id : Id) : Option ApplyJob := Table.get ApplyJob.id db.applyJobs id

/-- Events of one attempt, oldest first. -/
def eventsOf (db : Db) (attemptId : Id) : List ProviderWriteAttemptEvent :=
  db.attemptEvents.filter fun e => decide (e.attemptId = attemptId)

end Db

end FlowHub
