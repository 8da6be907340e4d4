import FlowHub.Workspace.Intent
import FlowHub.Workspace.Recovery

namespace FlowHub.Workspace

open Python Txn WritePipeline

section

variable (u : Unicode) (hash : Hashing) (settings : Settings)

/-- The arguments of a call to `apply_selected`. -/
structure ApplyRequest where
  (workspaceId reviewId : Id)
  (idempotencyKey expectedSelectionChecksum : String)
  manifestId : Id
  expectedManifestChecksum : String
  confirmed : Bool
  correlationId : String

/-- Identities, lease tokens and moments of a call to `apply_selected`. -/
structure ApplyFresh where
  job : Id
  item : Nat → Id
  (recoveryToken token : String)
  authorityEvent : Id → Id
  attempts : WritePipeline.Fresh
  (requested locked started checked recorded finished aborted : Time)

/-- What the request has settled once its job is committed. -/
structure Approved where
  job : ApplyJob
  workspace : UnifiedWorkspace
  snapshot : WorkspaceSnapshot
  manifest : ApplyManifest
  selectedIds : List Id
  selectionChecksum : String
  items : List ReviewItem
  lockScope : List (Id × Id)

inductive Requested where
  | existing (jobId : Id)
  | stale (fault : Fault)
  | approved (a : Approved)

def selectedIdsOf (db : Db) (reviewId : Id) : List Id :=
  ((selectionsOf db reviewId).map (·.reviewItemId)).insertionSort (· ≤ ·)

/-- The selection a request confirms. -/
structure Confirmed where
  selectedIds : List Id
  items : List ReviewItem
  selectionChecksum : String

def confirmedSelection (review : Review) (expected : String) (db : Db) : Except Fault Confirmed := do
  let selectedIds := selectedIdsOf db review.id
  refuse selectedIds.isEmpty (unprocessable "APPLY_SELECTION_REQUIRED")
  let items := reviewItemsIn db review.id selectedIds
  refuse (items.length != selectedIds.length ||
    items.any fun i => !i.eligible || !i.errors.isEmpty) (unprocessable "APPLY_SELECTION_INELIGIBLE")
  refuse (sortedSet (items.map (·.channelId)) != review.selectedChannelIds.insertionSort (· ≤ ·))
    (conflict "SELECTION_CHANGED")
  let selectionChecksum := hash.json (selectionDocument review items)
  let expected := canonicalText u expected
  refuse (expected == "" || expected != selectionChecksum ||
    review.selectionChecksum != some selectionChecksum)
    (conflict "APPLY_SELECTION_CHECKSUM_MISMATCH")
  pure ⟨selectedIds, items, selectionChecksum⟩

def dryRunOf (db : Db) (dryRunId : Option Id) : Option DryRun :=
  dryRunId.bind (Table.get DryRun.id db.dryRuns)

def stands (dryRun : DryRun) (review : Review) (selectionChecksum : String) : Bool :=
  dryRun.status == .passed && dryRun.selectionChecksum == selectionChecksum &&
    dryRun.selectionVersion == review.selectionVersion

/-- The items a manifest writes. -/
def manifestItems (db : Db) (reviewId manifestId : Id) : List ReviewItem :=
  reviewItemsIn db reviewId
    ((db.applyManifestOperations.filter fun o => decide (o.manifestId = manifestId)).map
      (·.reviewItemId))

/-- The manifest a request confirms, and the items it writes. -/
def confirmedManifest (request : ApplyRequest) (review : Review) (selectionChecksum : String)
    (db : Db) : Except Fault (ApplyManifest × List ReviewItem) := do
  let missing := notFound "APPLY_MANIFEST_NOT_FOUND"
  let stale := conflict "MANIFEST_STALE"
  let manifest ← found missing
    (Table.get ApplyManifest.id db.applyManifests (canonicalText u request.manifestId))
  refuse (manifest.reviewId != review.id) missing
  refuse (manifest.dryRunId.getD "" == "") stale
  let dryRun ← found stale (dryRunOf db manifest.dryRunId)
  refuse (!stands dryRun review selectionChecksum || dryRun.reviewId != review.id) stale
  let expected := canonicalText u request.expectedManifestChecksum
  refuse (expected == "" || expected != manifest.manifestChecksum)
    (conflict "APPLY_MANIFEST_CHECKSUM_MISMATCH")
  refuse (manifest.selectionVersion != review.selectionVersion ||
    manifest.selectionChecksum != selectionChecksum) (conflict "STALE_APPLY_MANIFEST")
  let items := manifestItems db review.id manifest.id
  refuse items.isEmpty stale
  let (document, _) ← manifestDocument settings db review items dryRun.id dryRun.evidenceChecksum
  refuse (hash.json document != manifest.manifestChecksum) (conflict "STALE_APPLY_MANIFEST")
  pure (manifest, items)

/-- The request of a write, whatever key it comes under. -/
def logicalOperationKey (workspaceId snapshotId : Id) (review : Review)
    (selectionChecksum manifestChecksum : String) : String :=
  hash.json (.obj [ ("draft_revision", .str review.draftRevisionId), ("manifest", .str manifestChecksum),
    ("operation_version", .str "workspace-apply-v3"),
    ("review", .str review.id),
    ("selection", .str selectionChecksum),
    ("snapshot", .str snapshotId),
    ("workspace", .str workspaceId)])

def newJobItem (jobId itemId : Id) (item : ReviewItem) : ApplyJobItem where
  id := itemId
  applyJobId := jobId
  reviewItemId := item.id
  listingId := item.listingId
  channelId := item.channelId
  field := item.field
  status := .pending

def jobClashes (a b : ApplyJob) : Bool :=
  decide (a.id = b.id) || decide (a.idempotencyKey = b.idempotencyKey) ||
    decide (a.logicalOperationKey = b.logicalOperationKey)

def insertJob (job : ApplyJob) (items : List ApplyJobItem) (db : Db) : Except Fault Db :=
  if db.applyJobs.any (jobClashes job) ||
      items.any (fun i => Table.has ApplyJobItem.id db.applyJobItems i.id) ||
      !decide (items.map ApplyJobItem.id).Nodup then .error .integrityError
  else .ok { db with
    applyJobs := db.applyJobs ++ [job]
    applyJobItems := db.applyJobItems ++ items }

/-- The Channel and Listing of each item, in lock order. -/
def lockScopeOf (db : Db) (items : List ReviewItem) : Except Fault (List (Id × Id)) := do
  let pairs ← items.mapM fun item => do
    let listing ← found (.keyError item.listingId) (listingOf db item.listingId)
    pure (listing.channelId, item.listingId)
  pure (sortedBy (fun (channelId, listingId) => [channelId, listingId]) pairs.dedup)

variable (fresh : ApplyFresh)

def newJob (request : ApplyRequest) (workspaceId snapshotId : Id)
    (review : Review) (manifest : ApplyManifest) (selectionChecksum logicalKey : String) :
    ApplyJob where
  id := fresh.job
  workspaceId := workspaceId
  snapshotId := snapshotId
  draftRevisionId := review.draftRevisionId
  reviewId := review.id
  idempotencyKey := canonicalText u request.idempotencyKey
  logicalOperationKey := logicalKey
  selectionChecksum := selectionChecksum
  status := .pending
  createdAt := fresh.requested
  manifestChecksum := some manifest.manifestChecksum

def jobByKey (db : Db) (key : String) : Option ApplyJob :=
  db.applyJobs.find? fun j => decide (j.idempotencyKey = key)

def jobByOperation (db : Db) (key : String) : Option ApplyJob :=
  db.applyJobs.find? fun j => decide (j.logicalOperationKey = key)

/-- A job found instead of made is recovered if its worker is gone. -/
def reuse (request : ApplyRequest) (job : ApplyJob) (db : Db) : Except Fault (Db × Requested) :=
  (recoverJobIfStale hash job.id request.correlationId fresh.recoveryToken fresh.requested db).map
    (·, .existing job.id)

/-- The job of a request under a new key, or the one that does the same already. -/
def approve (request : ApplyRequest) (workspace : UnifiedWorkspace)
    (snapshot : WorkspaceSnapshot) (review : Review) (c : Confirmed) (manifest : ApplyManifest)
    (items : List ReviewItem) (db : Db) : Except Fault (Db × Requested) :=
  let logicalKey := logicalOperationKey hash workspace.id snapshot.id review c.selectionChecksum
    manifest.manifestChecksum
  match jobByOperation db logicalKey with
  | some existing => reuse hash fresh request existing db
  | none => do
    let lockScope ← lockScopeOf db items
    let job := newJob u fresh request workspace.id snapshot.id review manifest c.selectionChecksum
      logicalKey
    let db ← insertJob job (items.mapIdx fun n i => newJobItem job.id (fresh.item n) i) db
    pure (db, .approved
      ⟨job, workspace, snapshot, manifest, c.selectedIds, c.selectionChecksum, items, lockScope⟩)

/-- The Review of a request, on the current Draft Revision of its Workspace. -/
def currentReview (workspace : UnifiedWorkspace) (reviewId : Id) (db : Db) :
    Except Fault (Review × WorkspaceSnapshot) := do
  let missing := notFound "REVIEW_NOT_FOUND"
  let review ← found missing (reviewOf db reviewId)
  refuse (review.workspaceId != workspace.id) missing
  let mismatch := conflict "APPLY_REVISION_MISMATCH"
  let draft ← found mismatch (draftOf db workspace.id)
  let snapshot ← found mismatch (snapshotOf db workspace.id)
  refuse (draft.currentRevisionId != some review.draftRevisionId ||
    review.snapshotId != snapshot.id) mismatch
  pure (review, snapshot)

/-- The tests of a request under a key no job has. A Review found stale is marked so. -/
def requestNew (request : ApplyRequest) (workspace : UnifiedWorkspace)
    (db : Db) : Except Fault (Db × Requested) := do
  let current ← currentReview workspace request.reviewId db
  let c ← confirmedSelection u hash current.1 request.expectedSelectionChecksum db
  let planned ← confirmedManifest u hash settings request current.1 c.selectionChecksum db
  match assertReviewFresh hash settings fresh.authorityEvent fresh.requested current.1 db with
  | (db, .error fault) => pure (db, .stale fault)
  | (db, .ok ()) =>
    approve u hash fresh request workspace current.2 current.1 c planned.1 planned.2 db

/-- The first transaction of `apply_selected`. -/
def requestApply (request : ApplyRequest) (user : FlowHubUser) (db : Db) : Except Fault (Db × Requested) := do
  let workspace ← editableWorkspace db request.workspaceId user
  refuse (!hasPermission user "apply.execute") (.httpException 403 "WORKSPACE_PERMISSION_DENIED")
  refuse (!request.confirmed) (unprocessable "APPLY_CONFIRMATION_REQUIRED")
  let key := canonicalText u request.idempotencyKey
  refuse (key == "" || decide (255 < key.length)) (unprocessable "IDEMPOTENCY_KEY_INVALID")
  match jobByKey db key with
  | some existing => reuse hash fresh request existing db
  | none => requestNew u hash settings fresh request workspace db

/-- After a lost race for a key, the job that won it. -/
def requestedJob (request : ApplyRequest) (user : FlowHubUser) : Program Requested :=
  (Proc.transact (I := service) (.requestApply fresh.job)
    (requestApply u hash settings fresh request user)).rescue fun e =>
      if e = .integrityError then
        Proc.consult (.findApply request.idempotencyKey) fun db =>
          match jobByKey db (canonicalText u request.idempotencyKey) with
          | some existing => .ok (.existing existing.id)
          | none => .error e
      else .raise e

def unfinished (status : ApplyState) : Bool :=
  match status with
  | .pending | .running | .reconciliationRequired => true
  | _ => false

def lockOf (db : Db) (channelId listingId : Id) : Option WorkspaceLock :=
  db.workspaceLocks.find? fun l =>
    decide (l.channelId = channelId) && decide (l.listingId = listingId)

def acquireLock (workspaceId jobId : Id) (now : Time) (channelId listingId : Id) (db : Db) :
    Except Fault Db := do
  let listing ← found (conflict "APPLY_LISTING_IDENTITY_CHANGED") (listingOf db listingId)
  refuse (listing.channelId != channelId) (conflict "APPLY_LISTING_IDENTITY_CHANGED")
  match lockOf db channelId listingId with
  | none => pure ()
  | some lock =>
    refuse (decide (now < lock.expiresAt)) (conflict "APPLY_SCOPE_LOCKED")
    refuse (((db.applyJob lock.applyJobId).map fun j => unfinished j.status).getD false)
      (conflict "APPLY_SCOPE_RECONCILIATION_REQUIRED")
  let others := db.workspaceLocks.filter fun l =>
    !(decide (l.channelId = channelId) && decide (l.listingId = listingId))
  let lock : WorkspaceLock :=
    ⟨workspaceId, channelId, listingId, jobId, now, now + minutes lockMinutes⟩
  pure { db with workspaceLocks := others ++ [lock] }

/-- `_acquire_listing_locks`. -/
def acquireLocks (workspaceId jobId : Id) (now : Time) : List (Id × Id) → Db → Except Fault Db
  | [], db => .ok db
  | (channelId, listingId) :: rest, db => do
    let db ← acquireLock workspaceId jobId now channelId listingId db
    acquireLocks workspaceId jobId now rest db

def lockListings (a : Approved) (now : Time) : Program Unit :=
  (Proc.transact (I := service) (.acquireLocks a.job.id) fun db =>
    (acquireLocks a.workspace.id a.job.id now a.lockScope db).map (·, ())).rescue fun e =>
      .raise (if e = .integrityError then conflict "APPLY_SCOPE_LOCKED" else e)

/-- A job that got no locks has failed. -/
def lockFailed (a : Approved) (now : Time) : Program Unit :=
  Proc.transact (.lockFailed a.job.id) fun db => .ok (updateJob db a.job.id fun j =>
    { j with status := .failed, completedAt := some now }, ())

/-- The selection is the one confirmed, as its checksum over the items to write has it. -/
def selectionStands (a : Approved) (review : Review) (db : Db) : Bool :=
  decide (selectedIdsOf db review.id = a.selectedIds) &&
    hash.json (selectionDocument review a.items) == a.selectionChecksum

variable (workerId : String)

/-- The transaction after which the job is running, under the worker's lease. -/
def startApply (a : Approved) (db : Db) : Except Fault (Db × Except Fault Unit) := do
  let review ← found (conflict "REVIEW_NOT_READY") (reviewOf db a.job.reviewId)
  refuse (review.status != .ready) (conflict "REVIEW_NOT_READY")
  match assertReviewFresh hash settings fresh.authorityEvent fresh.started review db with
  | (db, .error fault) => pure (db, .error fault)
  | (db, .ok ()) =>
    refuse (!selectionStands hash a review db) (conflict "APPLY_SELECTION_CHECKSUM_MISMATCH")
    let draft ← found (conflict "APPLY_REVISION_MISMATCH") (draftOf db a.workspace.id)
    refuse (draft.currentRevisionId != some review.draftRevisionId)
      (conflict "APPLY_REVISION_MISMATCH")
    let dryRun ← found (conflict "MANIFEST_STALE") (dryRunOf db a.manifest.dryRunId)
    refuse (!stands dryRun review a.selectionChecksum || dryRun.reviewId != review.id)
      (conflict "MANIFEST_STALE")
    let running := fun j : ApplyJob => claimJobLease workerId fresh.token fresh.started
      { j with status := .running, startedAt := some fresh.started, heartbeatAt := some fresh.started }
    pure (updateJob db a.job.id running, .ok ())

/-- The Apply ends stale: its Review with it, its locks gone. -/
def endStale (a : Approved) (reviewId : Id) (reason : String) (now : Time) (db : Db) : Db :=
  let db := updateReview db reviewId (markStale now reason)
  let db := updateJob db a.job.id fun j =>
    { dropLease j with status := .stale, completedAt := some now }
  releaseListingLocks db a.job.id

inductive Checked where
  | stale
  | ready (review : Review) (dryRun : DryRun)

/-- The authorization is read again once the job is committed. -/
def checkApply (a : Approved) (db : Db) : Except Fault (Db × Checked) := do
  let stale := conflict "MANIFEST_STALE"
  let review ← found stale (reviewOf db a.job.reviewId)
  let dryRun ← found stale (dryRunOf db a.manifest.dryRunId)
  refuse (!stands dryRun review a.selectionChecksum || !selectionStands hash a review db) stale
  assertSourceEvidenceCurrent u a.workspace a.snapshot db
  match pricingBindingIssues fresh.authorityEvent review db with
  | (db, []) =>
    refuse (decide (dryRun.createdAt + minutes staleApplyMinutes < fresh.checked)) stale
    pure (db, .ready review dryRun)
  | (db, issues) =>
    let reason := "pricing:" ++ ";".intercalate
      (issues.map fun (channelId, issue) => channelId ++ ":" ++ issue)
    pure (endStale a review.id reason fresh.checked db, .stale)

def scopeRow (db : Db) (dryRunId itemId : Id) : Option DryRunScope :=
  (db.dryRunScopes.filter fun s =>
    decide (s.dryRunId = dryRunId) && decide (s.reviewItemId = itemId)).getLast?

def LiveValue.option : Option LiveValue → Option String
  | none | some .null => none
  | some value => some value.str

/-- What the last read before dispatch asks about one item. -/
structure Recheck where
  scope : DryRunScope
  channelId : Id
  probe : LiveProbe

def recheckProbe (item : ReviewItem) (scope : DryRunScope) (listing : Listing)
    (cache : ChannelCache) (product : CanonicalProduct) (capabilities : ChannelCapabilities) :
    LiveProbe where
  listingId := listing.id
  channelId := listing.channelId
  externalPrimaryId := listing.externalPrimaryId
  sku := listing.sku
  productType := match LiveValue.option (scope.expectedBefore.lookup "product_type") with
    | none | some "" => product.productType
    | some productType => productType
  parentExternalId := LiveValue.option (scope.expectedBefore.lookup "parent_external_id")
  price := LiveValue.option (scope.observedLive.lookup "price")
  stock := LiveValue.option (scope.observedLive.lookup "stock")
  status := LiveValue.option (scope.observedLive.lookup "status")
  currency := LiveValue.option (scope.expectedBefore.lookup "currency")
  unit := LiveValue.option (scope.expectedBefore.lookup "unit")
  mappingVersion := listing.mappingVersion
  cacheVersion := cache.cacheVersion
  cacheChecksum := cache.checksum
  capabilityVersion := capabilities.version
  currencyDigest := ""
  idempotencyKey := "apply-live-recheck"
  payloadHash := "apply-live-recheck"
  governedFields := [item.field]

def openRecheck (dryRunId : Id) (item : ReviewItem) (db : Db) : Except Fault Recheck := do
  let unverifiable := conflict "CHANNEL_STATE_UNVERIFIABLE"
  let scope ← found unverifiable (scopeRow db dryRunId item.id)
  let (listing, cache, product) ← found unverifiable (listingState db item.listingId)
  let capabilities ← settings.capabilitiesOf listing.channelId
  pure ⟨scope, listing.channelId, recheckProbe item scope listing cache product capabilities⟩

/-- The observation is the very one the Dry Run had. -/
def recheck (scope : DryRunScope) (observed : Evidence) (error : Bool) : Except Fault Unit := do
  refuse (error || observed.isEmpty || unverifiable u observed scope.expectedBefore)
    (conflict "CHANNEL_STATE_UNVERIFIABLE")
  refuse (drifted u observed scope.expectedBefore) (conflict "CHANNEL_DRIFT")
  refuse (some (hash.json (evidenceJson observed)) != scope.liveFingerprint)
    (conflict "CHANNEL_DRIFT")

/-- `_reverify_dry_run_live`. -/
def reverifyLive (dryRunId : Id) : List ReviewItem → Program Unit
  | [] => pure ()
  | item :: rest => do
    let r ← Proc.consult (.readScope dryRunId item.id) (openRecheck settings dryRunId item)
    let (observed, error) ← readLive r.channelId r.probe
    Proc.ofExcept (recheck u hash r.scope observed error)
    reverifyLive dryRunId rest

inductive Planned where
  | stale
  | dispatch (command : WorkspaceWriteBatchCommand)

def applyCommand (a : Approved) (job : ApplyJob) (intents : List WorkspaceWriteIntent)
    (workerId token : String) (user : FlowHubUser) : WorkspaceWriteBatchCommand where
  workspaceId := a.workspace.id
  snapshotId := a.snapshot.id
  draftRevisionId := job.draftRevisionId
  reviewId := job.reviewId
  selectionChecksum := a.selectionChecksum
  correlationId := workerId
  requestedBy := user.username
  intents := intents
  fencingToken := some job.fencingToken
  leaseToken := some token
  pricingOrigin := some .pricingMatrix

/-- The manifest is drawn up once more; where it still is the confirmed one, its intents
are what is dispatched. -/
def planApply (user : FlowHubUser) (a : Approved)
    (review : Review) (dryRun : DryRun) (db : Db) : Except Fault (Db × Planned) := do
  let (document, _) ← manifestDocument settings db review a.items dryRun.id dryRun.evidenceChecksum
  let job ← found .noResultFound (db.applyJob a.job.id)
  if some (hash.json document) ≠ job.manifestChecksum then
    pure (endStale a review.id "apply_manifest_drift" fresh.checked db, .stale)
  else
    let intents ← writeIntents u hash settings db job a.items a.selectionChecksum
    pure (db, .dispatch (applyCommand a job intents workerId fresh.token user))

/-- The items an Apply ended with, by outcome. -/
structure Tally where
  successful : Nat := 0
  failed : Nat := 0
  reconciliation : Nat := 0

def recordResult (job : ApplyJob) (items : List ReviewItem) (now : Time)
    (result : WorkspaceWriteResult) (db : Db) (t : Tally) : Except Fault (Db × Tally) :=
  let affected := items.filter fun i => decide (i.listingId = result.listingId)
  let n := affected.length
  match result.outcome with
  | .verifiedApplied => (recordListingSuccess hash job result affected now db).map
      (·, { t with successful := t.successful + n })
  | .reconciliationRequired => (recordListingReconciliation job result affected now db).map
      (·, { t with reconciliation := t.reconciliation + n })
  | _ => (recordListingFailure job result affected now db).map
      (·, { t with failed := t.failed + n })

def recordAll (job : ApplyJob) (items : List ReviewItem) (now : Time) :
    List WorkspaceWriteResult → Db → Tally → Except Fault (Db × Tally)
  | [], db, t => .ok (db, t)
  | result :: rest, db, t => do
    let (db, t) ← recordResult hash job items now result db t
    recordAll job items now rest db t

/-- The transaction that writes the results to items and cache. -/
def recordOutcomes (a : Approved)
    (results : List WorkspaceWriteResult) (db : Db) : Except Fault (Db × Tally) := do
  let fenced := conflict "APPLY_WORKER_FENCED"
  let job ← found fenced (db.applyJob a.job.id)
  -- `_assert_job_fence` is given the tokens of the row it compares them with.
  refuse (job.leaseToken.getD "" != "" && job.workerId.isNone) fenced
  assertJobLease db job.id workerId fresh.token
  let db := updateJob db job.id fun j =>
    { j with heartbeatAt := some fresh.recorded,
             leaseExpiresAt := some (fresh.recorded + minutes leaseMinutes) }
  recordAll hash job a.items fresh.recorded results db {}

def Tally.status (t : Tally) : ApplyState :=
  if 0 < t.reconciliation then .reconciliationRequired
  else if t.failed = 0 then .applied
  else if 0 < t.successful then .partiallyApplied
  else .failed

/-- The last transaction of an Apply. -/
def finishApply (a : Approved) (t : Tally) (now : Time) (db : Db) : Db :=
  let db := updateJob db a.job.id fun j =>
    { dropLease j with status := t.status, completedAt := some now }
  let db := if t.status = .applied then markApplied db a.workspace.id else db
  if t.reconciliation = 0 then releaseListingLocks db a.job.id else db

/-- An event of one of the job's attempts that says its write was sent. -/
def dispatchEvidence (db : Db) (jobId : Id) : Bool :=
  db.attemptEvents.any fun e =>
    decide (e.outcome ∈ [WriteOutcome.dispatched, .providerAccepted, .verifiedApplied,
      .reconciliationRequired]) &&
    db.attempts.any fun a => decide (a.id = e.attemptId) && decide (a.applyJobId = some jobId)

/-- The error handler. The row it compares the worker's fencing token with is the same
object, so nobody is turned away here. -/
def abortApply (jobId : Id) (now : Time) (db : Db) : Db :=
  let dispatched := dispatchEvidence db jobId
  let db := updateJob db jobId fun j =>
    { j with
      status := if dispatched then .reconciliationRequired else .failed
      completedAt := some now }
  if dispatched then db else releaseListingLocks db jobId

def abort (a : Approved) (now : Time) (e : Fault) : Program α := do
  Proc.transact (I := service) (.abortApply a.job.id) fun db => .ok (abortApply a.job.id now db, ())
  .raise e

/-- What is dispatched, recorded and closed. -/
def dispatchApply (a : Approved) (command : WorkspaceWriteBatchCommand) : Program Unit := do
  let results ← executeWorkspace fresh.attempts command false
  let tally ← Proc.transact (.recordOutcomes a.job.id results)
    (recordOutcomes hash fresh workerId a results)
  Proc.transact (.finishApply a.job.id) fun db => .ok (finishApply a tally fresh.finished db, ())

/-- The body of the `try`: the job's shape where it ends stale, nothing where it is done. -/
def runApply (user : FlowHubUser) (a : Approved) : Program (Option ApplyJob) := do
  let started ← Proc.transact (.startApply a.job.id) (startApply hash settings fresh workerId a)
  Proc.ofExcept started
  let checked ← Proc.transact (.checkApply a.job.id) (checkApply u hash fresh a)
  match checked with
  | .stale => (applyShape a.job.id user).bind fun job => pure (some job)
  | .ready review dryRun =>
    reverifyLive u hash settings dryRun.id a.items
    let planned ← Proc.transact (.planApply a.job.id)
      (planApply u hash settings fresh workerId user a review dryRun)
    match planned with
    | .stale => (applyShape a.job.id user).bind fun job => pure (some job)
    | .dispatch command =>
      dispatchApply hash fresh workerId a command
      pure none

def workApply (user : FlowHubUser) (a : Approved) : Program ApplyJob :=
  (runApply u hash settings fresh workerId user a).tryElse
    (fun ended => match ended with
      | some job => pure job
      | none => applyShape a.job.id user)
    (abort a fresh.aborted)

def applySelected (request : ApplyRequest) (user : FlowHubUser) : Program ApplyJob := do
  let requested ← requestedJob u hash settings fresh request user
  match requested with
  | .existing jobId => applyShape jobId user
  | .stale fault => .raise fault
  | .approved a =>
    (lockListings a fresh.locked).tryElse
      (fun _ => workApply u hash settings fresh request.correlationId user a)
      (fun e => (lockFailed a fresh.locked).bind fun _ => .raise e)

end

namespace Sample

/-- The Dry Run of a selection, of Listings that show `live`. -/
def verified (live : Id → Field → String) (cells : List Cell) (itemIds : List Id) : World service :=
  (replay (reports live) 20 (runDryRun .ascii documents settings dryRunFresh "workspace" "review"
    owner 1 1) (.initial (selected cells itemIds).state)).2

/-- What the Dry Run returned, confirmed. -/
def request (db : Db) : ApplyRequest where
  workspaceId := "workspace"
  reviewId := "review"
  idempotencyKey := "key"
  expectedSelectionChecksum := ((reviewOf db "review").bind (·.selectionChecksum)).getD ""
  manifestId := "manifest"
  expectedManifestChecksum := (db.applyManifests.map (·.manifestChecksum)).headD ""
  confirmed := true
  correlationId := "worker"

def applyFresh : ApplyFresh where
  job := "job"
  item n := "job item" ++ toString n
  recoveryToken := "recovery"
  token := "lease"
  authorityEvent channelId := "authority:" ++ channelId
  attempts := ⟨fun n => "attempt" ++ toString n, fun channelId => "authority:" ++ channelId⟩
  requested := 1
  locked := 1
  started := 1
  checked := 1
  recorded := 1
  finished := 1
  aborted := 1

/-- At most `n` steps of the Apply of a verified selection. -/
def applied (live : Id → Field → String) (cells : List Cell) (itemIds : List Id) (n : Nat) :
    Program ApplyJob × World service :=
  replay (reports live) n (applySelected .ascii documents settings applyFresh
    (request (verified live cells itemIds).state) owner) (.initial (verified live cells itemIds).state)

end Sample

end FlowHub.Workspace
