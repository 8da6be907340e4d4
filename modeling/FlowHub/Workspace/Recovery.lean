import FlowHub.Workspace.Freshness
import FlowHub.Workspace.Outcome
import FlowHub.WritePipeline.Execute

namespace FlowHub.Workspace

open Python Txn WritePipeline

variable (u : Unicode) (hash : Hashing)

/-- `_workspace_for_user(..., edit=False)`, and the job's row. -/
def readJob (jobId : Id) (user : FlowHubUser) (db : Db) : Except Fault ApplyJob := do
  let job ← found (notFound "APPLY_NOT_FOUND") (db.applyJob jobId)
  let workspace ← found (notFound "WORKSPACE_NOT_FOUND")
    (Table.get UnifiedWorkspace.id db.workspaces job.workspaceId)
  refuse (workspace.ownerUserId != user.id && !hasPermission user "workspace.admin")
    (.httpException 403 "WORKSPACE_ACCESS_DENIED")
  refuse (!hasPermission user "workspace.read") (.httpException 403 "WORKSPACE_PERMISSION_DENIED")
  pure job

def applyShape (jobId : Id) (user : FlowHubUser) : Program ApplyJob :=
  Proc.consult (.readApply jobId) (readJob jobId user)

def attemptsOf (db : Db) (jobId : Id) : List ProviderWriteAttempt :=
  sortedBy (fun a => [a.listingId]) (db.attempts.filter fun a => decide (a.applyJobId = some jobId))

/-- What an attempt's latest event proves. -/
inductive Evidenced where
  | verified | uncertain | undispatched

def evidenced (db : Db) (attempt : ProviderWriteAttempt) : Evidenced :=
  match (db.eventsOf attempt.id).getLast?.map ProviderWriteAttemptEvent.outcome with
  | some .verifiedApplied => .verified
  | some .dispatched | some .providerAccepted | some .reconciliationRequired | some .recovering =>
    .uncertain
  | _ => .undispatched

def attemptItems (db : Db) (attempt : ProviderWriteAttempt) : List ApplyJobItem :=
  attempt.normalizedPayload.applyItemIds.filterMap (Table.get ApplyJobItem.id db.applyJobItems)

/-- The result an attempt known to be verified stands for. -/
def recoveredResult (intent : WorkspaceWriteIntent) : WorkspaceWriteResult where
  listingId := intent.listingId
  outcome := .verifiedApplied
  providerAccepted := true
  acceptedPrice := intent.targetPrice
  acceptedStock := intent.targetStock
  acceptedStatus := intent.targetStatus

/-- `stale_before_dispatch`: what was never sent has failed. -/
def failUndispatched (itemIds : List Id) (db : Db) : Db :=
  { db with applyJobItems := db.applyJobItems.map fun i =>
      if i.id ∈ itemIds ∧ i.status ≠ .applied then
        { i with
          status := .failed
          errorCategory := some "stale_before_dispatch"
          errorMessage := some "Worker stopped before provider dispatch."
          retryEligible := false }
      else i }

/-- One attempt of the job, and the items it leaves uncertain. -/
def recoverAttempt (job : ApplyJob) (now : Time) (attempt : ProviderWriteAttempt) (db : Db) :
    Except Fault (Db × List Id) :=
  let items := attemptItems db attempt
  match evidenced db attempt with
  | .verified =>
    if items.all fun i => decide (i.status = .applied) then .ok (db, [])
    else
      let affected := db.reviewItems.filter fun r => decide (r.id ∈ items.map (·.reviewItemId))
      (recordListingSuccess hash job (recoveredResult attempt.normalizedPayload) affected now
        db).map (·, [])
  | .uncertain => .ok (db, attempt.normalizedPayload.applyItemIds)
  | .undispatched => .ok (failUndispatched (items.map (·.id)) db, [])

def recoverAttempts (job : ApplyJob) (now : Time) :
    List ProviderWriteAttempt → Db → Except Fault (Db × List Id)
  | [], db => .ok (db, [])
  | attempt :: rest, db => do
    let (db, itemIds) ← recoverAttempt hash job now attempt db
    let (db, more) ← recoverAttempts job now rest db
    pure (db, itemIds ++ more)

/-- What may have been dispatched is left to reconciliation. -/
def markUncertain (jobId : Id) (itemIds : List Id) (db : Db) : Db :=
  { db with applyJobItems := db.applyJobItems.map fun i =>
      if i.applyJobId = jobId ∧ i.id ∈ itemIds ∧
          i.status ≠ .applied ∧ i.status ≠ .failed ∧ i.status ≠ .cancelled then
        { i with status := .reconciliationRequired, retryEligible := false }
      else i }

/-- A worker that gave no sign for five minutes. -/
def gone (job : ApplyJob) (now : Time) : Bool :=
  (job.status == .pending || job.status == .running) &&
    decide (((job.heartbeatAt.or job.startedAt).getD job.createdAt) + minutes staleApplyMinutes < now)

/-- The end of a recovered job that had attempts. -/
def settleRecovered (jobId : Id) (now : Time) (db : Db) : Db :=
  let status := applyStatusFromItems db jobId
  let db := updateJob db jobId fun j =>
    { dropLease j with
      status := status
      heartbeatAt := some now
      completedAt := if status = .reconciliationRequired then j.completedAt else some now }
  if status = .reconciliationRequired then db else releaseListingLocks db jobId

/-- `_recover_job_if_stale`, of a job that is stale. -/
def recoverJob (job : ApplyJob) (workerId token : String) (now : Time) (db : Db) : Except Fault Db := do
  let attempts := attemptsOf db job.id
  let claimed := updateJob db job.id (claimJobLease workerId token now)
  if attempts.isEmpty then
    pure (releaseListingLocks (updateJob claimed job.id fun j =>
      { j with status := .failed, completedAt := some now }) job.id)
  else
    let (db, itemIds) ← recoverAttempts hash job now attempts claimed
    pure (settleRecovered job.id now (markUncertain job.id itemIds db))

def recoverJobIfStale (jobId : Id) (workerId token : String) (now : Time) (db : Db) : Except Fault Db :=
  match db.applyJob jobId with
  | none => .ok db
  | some job => if gone job now then recoverJob hash job workerId token now db else .ok db

def recoverIfStale (jobId : Id) (workerId token : String) (now : Time) : Program Unit :=
  Proc.transact (.recoverJob jobId) fun db =>
    (recoverJobIfStale hash jobId workerId token now db).map (·, ())

/-- The jobs `recover_stale_applies` looks at: their lease, or without one their
heartbeat or creation, has run out. -/
def candidates (now : Time) (db : Db) : List Id :=
  let overdue := fun t : Time => decide (t + minutes staleApplyMinutes < now)
  let out := fun job : ApplyJob => match job.leaseExpiresAt with
    | some t => decide (t < now)
    | none => overdue (job.heartbeatAt.getD job.createdAt)
  ((db.applyJobs.filter fun job =>
    (job.status == .pending || job.status == .running) && out job).map (·.id)).insertionSort (· ≤ ·)

def recoverAll (workerId : String) (token : Id → String) (now : Time) : List Id → Program Unit
  | [] => pure ()
  | jobId :: rest => do
    recoverIfStale hash jobId workerId (token jobId) now
    recoverAll workerId token now rest

def recoverStaleApplies (workerId : String) (token : Id → String) (user : FlowHubUser)
    (now : Time) : Program Unit := do
  let jobIds ← Proc.consult .recoverStaleApplies fun db => do
    refuse (!hasPermission user "apply.execute") (.httpException 403 "Apply permission is required.")
    pure (candidates now db)
  recoverAll hash workerId token now jobIds

/-- `_intent_from_immutable_attempt`. -/
def intentFromAttempt (db : Db) (jobId listingId : Id) : Except Fault WorkspaceWriteIntent := do
  let attempt ← found (conflict "APPLY_ATTEMPT_MISSING") (newestAttempt (db.attempts.filter fun a =>
    decide (a.applyJobId = some jobId) && decide (a.listingId = listingId)))
  pure attempt.normalizedPayload

/-- What `reconcile_apply` goes on with once its lease is committed. -/
structure Reconciling where
  job : ApplyJob
  items : List ReviewItem
  intents : List WorkspaceWriteIntent

/-- The job of a Workspace, for one who may apply. -/
def reconcilable (workspaceId jobId : Id) (user : FlowHubUser) (db : Db) : Except Fault ApplyJob := do
  let workspace ← editableWorkspace db workspaceId user
  refuse (!hasPermission user "apply.execute") (.httpException 403 "Apply permission is required.")
  let job ← found (notFound "APPLY_NOT_FOUND") (db.applyJob jobId)
  refuse (job.workspaceId != workspace.id) (notFound "APPLY_NOT_FOUND")
  pure job

/-- The transaction that takes the uncertain items in hand. -/
def beginReconcile (jobId : Id) (workerId token : String) (now : Time) (db : Db) :
    Except Fault (Db × Reconciling) := do
  let job ← found (notFound "APPLY_NOT_FOUND") (db.applyJob jobId)
  refuse (job.status != .reconciliationRequired) (conflict "APPLY_RECONCILIATION_NOT_REQUIRED")
  let openItems := (jobItems db job.id).filter uncertain
  refuse openItems.isEmpty (conflict "APPLY_RECONCILIATION_EMPTY")
  let items := db.reviewItems.filter fun r => decide (r.id ∈ openItems.map (·.reviewItemId))
  let intents ← (sortedSet (items.map (·.listingId))).mapM (intentFromAttempt db job.id)
  let db := updateJob db job.id (claimJobLease workerId token now)
  let db := { db with applyJobItems := db.applyJobItems.map fun i =>
    if i.applyJobId = job.id ∧ uncertain i then { i with status := .recovering } else i }
  pure (db, ⟨claimJobLease workerId token now job, items, intents⟩)

def reconcileCommand (r : Reconciling) (workerId token : String) (user : FlowHubUser) :
    WorkspaceWriteBatchCommand where
  workspaceId := r.job.workspaceId
  snapshotId := r.job.snapshotId
  draftRevisionId := r.job.draftRevisionId
  reviewId := r.job.reviewId
  selectionChecksum := r.job.selectionChecksum
  correlationId := workerId
  requestedBy := user.username
  intents := r.intents
  fencingToken := some r.job.fencingToken
  leaseToken := some token
  pricingOrigin := some .pricingMatrix

/-- A reconciled Listing is verified, or stays open whatever else its result says. -/
def recordReconciled (job : ApplyJob) (items : List ReviewItem) (now : Time) :
    List WorkspaceWriteResult → Db → Except Fault Db
  | [], db => .ok db
  | result :: rest, db => do
    let affected := items.filter fun i => decide (i.listingId = result.listingId)
    let db ← if result.outcome = .verifiedApplied then
        recordListingSuccess hash job result affected now db
      else recordListingReconciliation job result affected now db
    recordReconciled job items now rest db

def markApplied (db : Db) (workspaceId : Id) : Db :=
  { db with drafts := Table.set Draft.workspaceId db.drafts workspaceId fun d =>
      { d with status := .applied } }

/-- The transaction that records what reconciliation found. -/
def finishReconcile (r : Reconciling) (workerId token : String)
    (results : List WorkspaceWriteResult) (now : Time) (db : Db) : Except Fault Db := do
  assertJobLease db r.job.id workerId token
  let db ← recordReconciled hash r.job r.items now results db
  let status := applyStatusFromItems db r.job.id
  let ended := status = .applied ∨ status = .partiallyApplied ∨ status = .failed
  let db := updateJob db r.job.id fun j =>
    { j with status := status, completedAt := if ended then some now else j.completedAt }
  if status = .applied then pure (releaseListingLocks (markApplied db r.job.workspaceId) r.job.id)
  else pure db

/-- Lease tokens, identities and moments of a reconciliation. -/
structure ReconcileFresh where
  (recoveryToken token : String)
  attempts : WritePipeline.Fresh
  (opened begun finished : Time)

def reconcileApply (fresh : ReconcileFresh) (workspaceId jobId : Id) (user : FlowHubUser)
    (workerId : String) : Program ApplyJob := do
  Proc.transact (I := service) (.recoverJob jobId) fun db => do
    let job ← reconcilable workspaceId jobId user db
    (recoverJobIfStale hash job.id workerId fresh.recoveryToken fresh.opened db).map (·, ())
  let r ← Proc.transact (.beginReconcile jobId)
    (beginReconcile jobId workerId fresh.token fresh.begun)
  let results ← executeWorkspace fresh.attempts (reconcileCommand r workerId fresh.token user) true
  Proc.transact (I := service) (.finishReconcile jobId results) fun db =>
    (finishReconcile hash r workerId fresh.token results fresh.finished db).map (·, ())
  applyShape jobId user

def invalidateSourceReviews (sourceId : Id) (now : Time) (db : Db) : Db :=
  let snapshotIds := (db.snapshots.filter fun s => decide (s.entryPoint = .source) &&
    decide (s.sourceMetadata.sourceId.getD "" = sourceId)).map (·.id)
  let hit := fun r : Review => decide (r.snapshotId ∈ snapshotIds) && decide (r.status ≠ .stale)
  let reviewIds := (db.reviews.filter hit).map (·.id)
  { db with
    reviews := db.reviews.map fun r =>
      if hit r then
        { markStale now "source_mapping_revision_changed" r with selectionChecksum := none }
      else r
    applyJobs := db.applyJobs.map fun j =>
      if j.reviewId ∈ reviewIds ∧ j.status = .pending then
        { j with status := .stale, completedAt := some now }
      else j }

/-- What `save_mapping` does to Reviews and jobs that rest on the older mapping. -/
def saveMapping (sourceId : Id) (now : Time) : Program Unit :=
  Proc.transact (.saveMapping sourceId) fun db => .ok (invalidateSourceReviews sourceId now db, ())

end FlowHub.Workspace
