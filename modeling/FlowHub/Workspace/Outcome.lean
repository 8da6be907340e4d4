import FlowHub.Workspace.Values

namespace FlowHub.Workspace

open Python Txn

def staleApplyMinutes : Nat := 5

def leaseMinutes : Nat := 15

def lockMinutes : Nat := 15

def updateJob (db : Db) (jobId : Id) (f : ApplyJob → ApplyJob) : Db :=
  { db with applyJobs := Table.set ApplyJob.id db.applyJobs jobId f }

/-- `ApplyRepository.items`. -/
def jobItems (db : Db) (jobId : Id) : List ApplyJobItem :=
  db.applyJobItems.filter fun i => decide (i.applyJobId = jobId)

/-- `filter_by(apply_job_id=job_id, review_item_id=item_id).one()`, updated. -/
def updateJobItem (db : Db) (jobId reviewItemId : Id) (f : ApplyJobItem → ApplyJobItem) : Except Fault Db :=
  if (jobItems db jobId).any fun i => decide (i.reviewItemId = reviewItemId) then
    .ok { db with applyJobItems := db.applyJobItems.map fun i =>
      if i.applyJobId = jobId ∧ i.reviewItemId = reviewItemId then f i else i }
  else .error .noResultFound

def updateJobItems (db : Db) (jobId : Id) (f : ApplyJobItem → ApplyJobItem) :
    List ReviewItem → Except Fault Db
  | [] => .ok db
  | item :: rest => do
    let db ← updateJobItem db jobId item.id f
    updateJobItems db jobId f rest

def claimJobLease (workerId token : String) (now : Time) (job : ApplyJob) : ApplyJob :=
  { job with
    workerId := some workerId
    leaseToken := some token
    fencingToken := job.fencingToken + 1
    leaseExpiresAt := some (now + minutes (staleApplyMinutes * 2))
    recoveryAttempts := job.recoveryAttempts + 1 }

/-- The worker is gone from the job. -/
def dropLease (job : ApplyJob) : ApplyJob :=
  { job with workerId := none, leaseToken := none, leaseExpiresAt := none }

def assertJobLease (db : Db) (jobId : Id) (workerId token : String) : Except Fault Unit :=
  refuse (!db.applyJobs.any fun job => decide (job.id = jobId) &&
    decide (job.workerId = some workerId) && decide (job.leaseToken = some token))
    (conflict "APPLY_WORKER_FENCED")

def releaseListingLocks (db : Db) (jobId : Id) : Db :=
  { db with workspaceLocks := db.workspaceLocks.filter fun l => decide (l.applyJobId ≠ jobId) }

/-- An item whose write may or may not have happened. -/
def uncertain (item : ApplyJobItem) : Bool :=
  match item.status with
  | .reconciliationRequired | .recovering | .dispatched | .providerAccepted => true
  | _ => false

def applyStatusFromItems (db : Db) (jobId : Id) : ApplyState :=
  let items := jobItems db jobId
  if !items.isEmpty && items.all fun i => decide (i.status = .applied) then .applied
  else if items.any uncertain then .reconciliationRequired
  else if items.any fun i => decide (i.status = .applied) then .partiallyApplied
  else .failed

def succeeded (job : ApplyJob) (result : WorkspaceWriteResult) (now : Time)
    (item : ApplyJobItem) : ApplyJobItem :=
  { item with
    status := .applied
    attemptNumber := item.attemptNumber + 1
    externalResponseId := result.externalResponseId
    retryEligible := false
    cacheSyncStatus := some "patched_verified"
    startedAt := job.startedAt
    completedAt := some now }

def failedItem (job : ApplyJob) (result : WorkspaceWriteResult) (now : Time)
    (item : ApplyJobItem) : ApplyJobItem :=
  { item with
    status := .failed
    attemptNumber := item.attemptNumber + 1
    errorCategory := result.errorCategory
    errorMessage := result.errorMessage
    retryEligible := result.retryEligible
    cacheSyncStatus := some "not_updated"
    startedAt := job.startedAt
    completedAt := some now }

def unreconciled (job : ApplyJob) (result : WorkspaceWriteResult) (now : Time)
    (item : ApplyJobItem) : ApplyJobItem :=
  { item with
    status := .reconciliationRequired
    attemptNumber := item.attemptNumber + 1
    externalResponseId := result.externalResponseId
    errorCategory := some (match result.errorCategory with
      | none | some "" => "provider_unknown"
      | some category => category)
    errorMessage := result.errorMessage
    retryEligible := false
    cacheSyncStatus := some "reconciliation_required"
    startedAt := job.startedAt
    completedAt := some now }

/-- The field of one applied item is patched where the connector says what it accepted. -/
def patchField (result : WorkspaceWriteResult) (cache : ChannelCache) : Field → Option ChannelCache
  | .price => result.acceptedPrice.map fun x => { cache with priceRaw := some (numberText x) }
  | .stock => result.acceptedStock.map fun x => { cache with stockQuantity := some (floatRepr x) }
  | .status => result.acceptedStatus.map fun s => { cache with status := some s }

/-- The patches in turn, and whether there was one. -/
def patchFields (result : WorkspaceWriteResult) : List ReviewItem → ChannelCache → ChannelCache × Bool
  | [], cache => (cache, false)
  | item :: rest, cache =>
    match patchField result cache item.field with
    | some patched => ((patchFields result rest patched).1, true)
    | none => patchFields result rest cache

variable (hash : Hashing)

/-- The version and checksum of a patched row. -/
def restamp (jobId : Id) (now : Time) (cache : ChannelCache) : ChannelCache :=
  { cache with
    cacheVersion := cache.cacheVersion + 1
    checksum := hash.json (.obj [("apply", .str jobId), ("listing", .str cache.listingId),
      ("price", .ofOption .str cache.priceRaw), ("status", .ofOption .str cache.status),
      ("stock", .str (cache.stockQuantity.getD "None"))])
    freshness := "fresh"
    fetchStatus := "success"
    fetchedAt := now }

def patched (jobId : Id) (result : WorkspaceWriteResult) (affected : List ReviewItem)
    (now : Time) (cache : ChannelCache) : ChannelCache :=
  let (fields, any) := patchFields result affected cache
  if any then restamp hash jobId now fields else cache

def patchCache (db : Db) (jobId : Id) (result : WorkspaceWriteResult) (affected : List ReviewItem)
    (now : Time) : Db :=
  let rows := Table.set ChannelCache.listingId db.channelCache result.listingId
    (patched hash jobId result affected now)
  { db with channelCache := rows }

def recordListingSuccess (job : ApplyJob) (result : WorkspaceWriteResult)
    (affected : List ReviewItem) (now : Time) (db : Db) : Except Fault Db := do
  let db ← updateJobItems db job.id (succeeded job result now) affected
  pure (patchCache hash db job.id result affected now)

def recordListingFailure (job : ApplyJob) (result : WorkspaceWriteResult)
    (affected : List ReviewItem) (now : Time) (db : Db) : Except Fault Db :=
  updateJobItems db job.id (failedItem job result now) affected

def recordListingReconciliation (job : ApplyJob) (result : WorkspaceWriteResult)
    (affected : List ReviewItem) (now : Time) (db : Db) : Except Fault Db :=
  updateJobItems db job.id (unreconciled job result now) affected

end FlowHub.Workspace
