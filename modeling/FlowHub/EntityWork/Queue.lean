import FlowHub.Webhooks.Lifecycle

namespace FlowHub.EntityWork

open Webhooks (HTTPException transientErrors backoff seconds)

inductive Status where
  | pending | running | completed | failed
  deriving DecidableEq

structure ChannelEntityWork where
  id : Nat
  connectorId : Id
  (entityType entityId : String)
  parentEntityId : Option String
  status : Status
  (reason latestReason : String)
  workerId : Option String
  leaseExpiresAt : Option Time
  latestEventAt : Time
  latestProviderEventId : Option String
  (supersededAt nextAttemptAt : Option Time)
  (attemptCount maxAttempts : Nat)
  (startedAt completedAt failedAt : Option Time)
  errorCategory : Option String
  deriving DecidableEq

structure ChannelEntityWorkReceipt where
  (workId receiptId : Nat)
  deriving DecidableEq

structure Db where
  works : List ChannelEntityWork := []
  links : List ChannelEntityWorkReceipt := []
  webhooks : Webhooks.Db := {}

namespace Db

def work (db : Db) (id : Nat) : Option ChannelEntityWork := Table.get ChannelEntityWork.id db.works id

def update (db : Db) (id : Nat) (f : ChannelEntityWork → ChannelEntityWork) : Db :=
  { db with works := Table.set ChannelEntityWork.id db.works id f }

def nextId (db : Db) : Nat := (db.works.map ChannelEntityWork.id).foldr max 0 + 1

def receiptsOf (db : Db) (workId : Nat) : List Nat :=
  (db.links.filter fun l => decide (l.workId = workId)).map ChannelEntityWorkReceipt.receiptId

end Db

def ChannelEntityWork.active (work : ChannelEntityWork) : Bool :=
  decide (work.status = .pending) || decide (work.status = .running)

def defaultMaxAttempts : Nat := 5

/-- The evidence of one call of `enqueue_entity_work`. -/
structure NewWork where
  connectorId : Id
  (entityType entityId reason : String)
  eventAt : Time
  (parentEntityId providerEventId : Option String)
  receiptId : Option Nat

def NewWork.row (new : NewWork) (id : Nat) : ChannelEntityWork where
  id := id
  connectorId := new.connectorId
  entityType := new.entityType
  entityId := new.entityId
  parentEntityId := new.parentEntityId
  status := .pending
  reason := new.reason
  latestReason := new.reason
  workerId := none
  leaseExpiresAt := none
  latestEventAt := new.eventAt
  latestProviderEventId := new.providerEventId
  supersededAt := none
  nextAttemptAt := none
  attemptCount := 0
  maxAttempts := defaultMaxAttempts
  startedAt := none
  completedAt := none
  failedAt := none
  errorCategory := none

def NewWork.existing (new : NewWork) (db : Db) : Option ChannelEntityWork :=
  db.works.find? fun row => decide (row.connectorId = new.connectorId ∧
    row.entityType = new.entityType ∧ row.entityId = new.entityId) && row.active

def NewWork.coalesce (new : NewWork) (now : Time) (row : ChannelEntityWork) : ChannelEntityWork :=
  let newer := decide (row.latestEventAt ≤ new.eventAt)
  { row with
    latestEventAt := if newer then new.eventAt else row.latestEventAt
    latestReason := if newer then new.reason else row.latestReason
    latestProviderEventId :=
      if newer then new.providerEventId.or row.latestProviderEventId else row.latestProviderEventId
    supersededAt := if row.status = .running then some now else row.supersededAt }

def linkReceipt (workId : Nat) (receiptId : Option Nat) (db : Db) : Db :=
  match receiptId with
  | none => db
  | some receiptId =>
    if ⟨workId, receiptId⟩ ∈ db.links then db
    else { db with links := db.links ++ [⟨workId, receiptId⟩] }

/-- `enqueue_entity_work`, with the id of the row that has the evidence. The insertion is refused
where the entity has an active row, which then takes the evidence in; `now` is read before. -/
def enqueueEntityWork (new : NewWork) (now : Time) (db : Db) : Db × Nat :=
  match new.existing db with
  | none =>
    let row := new.row db.nextId
    (linkReceipt row.id new.receiptId { db with works := db.works ++ [row] }, row.id)
  | some existing =>
    (linkReceipt existing.id new.receiptId (db.update existing.id (new.coalesce now)), existing.id)

def ChannelEntityWork.due (now : Time) (work : ChannelEntityWork) : Bool :=
  decide (work.status = .pending) && work.nextAttemptAt.all fun t => decide (t ≤ now)

def ChannelEntityWork.claimed (worker : String) (leaseSeconds : Nat) (now : Time)
    (work : ChannelEntityWork) : ChannelEntityWork :=
  { work with
    status := .running
    workerId := some worker
    startedAt := some (work.startedAt.getD now)
    leaseExpiresAt := some (now + seconds leaseSeconds)
    attemptCount := work.attemptCount + 1
    supersededAt := none }

/-- The rows a claim takes: due, the oldest evidence first, skipping the rows others have
locked. -/
def claimCandidates (limit : Nat) (locked : List Nat) (now : Time) (db : Db) : List ChannelEntityWork :=
  ((db.works.filter fun row => row.due now && decide (row.id ∉ locked)).insertionSort
    fun a b => a.latestEventAt ≤ b.latestEventAt).take limit

def claimEntityWork (worker : String) (limit leaseSeconds : Nat) (now : Time) (locked : List Nat)
    (db : Db) : Db × List ChannelEntityWork :=
  let candidates := claimCandidates limit locked now db
  ({ db with works := db.works.map fun row =>
      if row ∈ candidates then row.claimed worker leaseSeconds now else row },
    candidates.map (·.claimed worker leaseSeconds now))

/-- Another active row of the same entity, which the partial unique index keeps out. -/
def Db.hasOther (db : Db) (row : ChannelEntityWork) : Bool :=
  db.works.any fun r => decide (r.id ≠ row.id ∧ r.connectorId = row.connectorId ∧
    r.entityType = row.entityType ∧ r.entityId = row.entityId) && r.active

/-- What `complete_entity_work` is told. -/
inductive Outcome where
  | completed
  | failed (category : String)
  deriving DecidableEq

/-- How a claim of a row ends. -/
inductive Ending where
  | requeue
  | retry (category : String) (attempts : Nat)
  | completed
  | failed (category : String)
  deriving DecidableEq

/-- Fresher evidence has arrived since the row was started. -/
def ChannelEntityWork.superseded (work : ChannelEntityWork) : Bool :=
  work.supersededAt.any fun s => work.startedAt.all fun t => decide (t < s)

/-- The branch of `complete_entity_work`, from the object its session holds. -/
def endingOf (work : ChannelEntityWork) : Outcome → Ending
  | .completed => if work.superseded then .requeue else .completed
  | .failed category =>
    if category ∈ transientErrors ∧ work.attemptCount < work.maxAttempts then
      .retry category work.attemptCount
    else .failed category

/-- Only a final ending flips the linked receipts. -/
def Ending.flips : Ending → Bool
  | .requeue | .retry .. => false
  | .completed | .failed _ => true

def Ending.apply (now : Time) (work : ChannelEntityWork) : Ending → ChannelEntityWork
  | .requeue => { work with
      status := .pending, leaseExpiresAt := none, workerId := none, nextAttemptAt := none }
  | .retry category attempts => { work with
      status := .pending
      leaseExpiresAt := none
      workerId := none
      nextAttemptAt := some (now + backoff attempts)
      errorCategory := some category }
  | .completed => { work with
      status := .completed, completedAt := some now, leaseExpiresAt := none, errorCategory := none }
  | .failed category => { work with
      status := .failed, failedAt := some now, leaseExpiresAt := none
      errorCategory := some category }

/-- The row's own commit of an ending, by its id alone. A row made pending again may stand in the
way of a younger one. -/
def settle (ending : Ending) (workId : Nat) (now : Time) (db : Db) : Option Db :=
  if !ending.flips && ((db.work workId).any fun row => db.hasOther row) then none
  else some (db.update workId fun row => ending.apply now row)

/-- The turn of one receipt in `flip_linked_receipts`. -/
def flipReceipt (ending : Ending) (receiptId : Nat) (now : Time) (db : Db) : Except HTTPException Db :=
  match ending with
  | .failed category =>
    (Webhooks.markWoocommerceReceiptFailed now receiptId
      (if category = "" then "internal_error" else category) db.webhooks).map
      fun r => { db with webhooks := r.1 }
  | _ => (Webhooks.markWoocommerceReceiptProcessed now receiptId db.webhooks).map
      fun r => { db with webhooks := r.1 }

def ChannelEntityWork.expired (now : Time) (work : ChannelEntityWork) : Bool :=
  decide (work.status = .running) && work.leaseExpiresAt.any fun t => decide (t < now)

def ChannelEntityWork.recovered (now : Time) (work : ChannelEntityWork) : ChannelEntityWork :=
  if work.attemptCount < work.maxAttempts then
    { work with
      status := .pending, workerId := none, leaseExpiresAt := none, nextAttemptAt := none }
  else
    { work with
      status := .failed, failedAt := some now, leaseExpiresAt := none
      errorCategory := some "execution_lease_expired" }

def startedBefore (a b : ChannelEntityWork) : Bool :=
  decide (a.startedAt.getD 0 < b.startedAt.getD 0) ||
    decide (a.startedAt.getD 0 = b.startedAt.getD 0) && decide (a.id ≤ b.id)

/-- The rows a recovery looks at: the first of those running. -/
def recoveryCandidates (limit : Nat) (db : Db) : List ChannelEntityWork :=
  ((db.works.filter fun row => decide (row.status = .running)).insertionSort
    fun a b => startedBefore a b).take limit

def recoverable (limit : Nat) (now : Time) (db : Db) : List ChannelEntityWork :=
  (recoveryCandidates limit db).filter (·.expired now)

/-- The commit of `recover_expired_entity_work`, with the rows it leaves failed, whose receipts
are flipped afterwards. -/
def recoverExpiredEntityWork (limit : Nat) (now : Time) (db : Db) : Db × List Nat :=
  let expired := recoverable limit now db
  ({ db with works := db.works.map fun row => if row ∈ expired then row.recovered now else row },
    (expired.filter fun row => decide ((row.recovered now).status = .failed)).map
      ChannelEntityWork.id)

end FlowHub.EntityWork
