import FlowHub.PricingAuthority

namespace FlowHub

namespace WritePipeline

/-- Identities the call draws: one per intent, one per Channel without a head. -/
structure Fresh where
  attempt : Nat → Id
  authorityEvent : Id → Id

/-- The write a worker must never repeat. -/
structure LogicalItem where
  sourceWorkflow : String
  (operationId logicalItemId : Id)
  deriving DecidableEq

end WritePipeline

def ProviderWriteAttempt.logicalItem (a : ProviderWriteAttempt) : WritePipeline.LogicalItem :=
  ⟨a.sourceWorkflow, a.operationId, a.logicalItemId⟩

namespace WritePipeline

open Txn

/-- `_assert_workspace_fence`: a command without tokens is not fenced. -/
def fenceHolds (command : WorkspaceWriteBatchCommand) (db : Db) : Bool :=
  match command.fencingToken, command.leaseToken with
  | some fencing, some lease =>
    if lease = "" then true
    else match command.intents.head?.bind fun i => db.applyJob i.applyJobId with
      | none => false
      | some job =>
        decide (job.fencingToken = fencing) && decide (job.leaseToken = some lease) &&
          job.workerId.isSome
  | _, _ => true

def assertWorkspaceFence (command : WorkspaceWriteBatchCommand) : Program Unit :=
  Proc.consult (.assertWorkspaceFence command) fun db =>
    if fenceHolds command db then .ok ()
    else .error (.runtimeError "workspace_apply_worker_fenced")

/-- `order_by(attempt_number.desc()).first()`. -/
def newestAttempt (rows : List ProviderWriteAttempt) : Option ProviderWriteAttempt :=
  rows.foldl (fun best a => match best with
    | none => some a
    | some b => if b.attemptNumber < a.attemptNumber then some a else some b) none

def existingAttempt (db : Db) (workflow : String) (intent : WorkspaceWriteIntent)
    (itemId : Id) : Option ProviderWriteAttempt :=
  newestAttempt (db.attempts.filter fun a =>
    decide (a.logicalItem = ⟨workflow, intent.applyJobId, itemId⟩) &&
      decide (a.payloadHash = intent.payloadHash))

def newAttempt (id : Id) (workflow : String) (intent : WorkspaceWriteIntent) (itemId : Id) :
    ProviderWriteAttempt where
  id := id
  sourceWorkflow := workflow
  operationId := intent.applyJobId
  logicalItemId := itemId
  applyJobId := if workflow = "unified_workspace" then some intent.applyJobId else none
  listingId := intent.listingId
  channelId := intent.channelId
  normalizedPayload := intent
  payloadHash := intent.payloadHash
  providerIdempotencyKey := intent.idempotencyKey
  attemptNumber := 1

/-- The primary key and the two unique constraints of the attempt table. -/
def clashes (a b : ProviderWriteAttempt) : Bool :=
  decide (a.id = b.id) ||
    (decide (a.logicalItem = b.logicalItem) && decide (a.attemptNumber = b.attemptNumber)) ||
    decide (a.providerIdempotencyKey = b.providerIdempotencyKey)

def insertAttempt (db : Db) (a : ProviderWriteAttempt) : Except Fault Db :=
  if db.attempts.any (clashes a) then .error .integrityError
  else .ok { db with
    attempts := db.attempts ++ [a]
    attemptEvents := db.attemptEvents ++ [{ attemptId := a.id, outcome := .dispatchIntentRecorded }] }

/-- What the first loop leaves: `attempts[listing_id]`, the latest assignment
first, and `prior_attempts`. -/
structure Recorded where
  attempts : List (Id × Id) := []
  priorAttempts : List Id := []

def Recorded.attemptOf (recorded : Recorded) (listingId : Id) : Except Fault Id :=
  match recorded.attempts.lookup listingId with
  | some id => .ok id
  | none => .error (.keyError listingId)

def recordIntent (workflow : String) (reconcileOnly : Bool) (id : Id)
    (intent : WorkspaceWriteIntent) (db : Db) (recorded : Recorded) :
    Except Fault (Db × Recorded) :=
  match intent.applyItemIds with
  | [] => .error .indexError
  | itemId :: _ =>
    match existingAttempt db workflow intent itemId with
    | some existing => .ok (db,
        { attempts := (intent.listingId, existing.id) :: recorded.attempts
          priorAttempts := intent.listingId :: recorded.priorAttempts })
    | none =>
      if reconcileOnly then
        .error (.valueError
          ("No durable dispatch intent exists for Listing " ++ intent.listingId ++ "."))
      else do
        let db ← insertAttempt db (newAttempt id workflow intent itemId)
        .ok (db, { recorded with attempts := (intent.listingId, id) :: recorded.attempts })

def recordIntents (workflow : String) (reconcileOnly : Bool) (fresh : Nat → Id) :
    Nat → List WorkspaceWriteIntent → Db → Recorded → Except Fault (Db × Recorded)
  | _, [], db, recorded => .ok (db, recorded)
  | n, intent :: rest, db, recorded => do
    let (db, recorded) ← recordIntent workflow reconcileOnly (fresh n) intent db recorded
    recordIntents workflow reconcileOnly fresh (n + 1) rest db recorded

/-- `grouped.setdefault(channel_id, []).append(intent)`. -/
def addToGroup (intent : WorkspaceWriteIntent) :
    List (Id × List WorkspaceWriteIntent) → List (Id × List WorkspaceWriteIntent)
  | [] => [(intent.channelId, [intent])]
  | (channelId, intents) :: rest =>
    if channelId = intent.channelId then (channelId, intents ++ [intent]) :: rest
    else (channelId, intents) :: addToGroup intent rest

def grouped (intents : List WorkspaceWriteIntent) : List (Id × List WorkspaceWriteIntent) :=
  intents.foldl (fun groups intent => addToGroup intent groups) []

/-- The Channels of `WorkspaceConnectorFactory`. -/
def implementedChannels : List Id :=
  ["woocommerce:primary", "snappshop:main", "tapsishop:main", "technolife:main"]

def connectorFor (workflow : String) (channelId : Id) : Except Fault Unit :=
  if channelId ∈ implementedChannels then .ok ()
  else if workflow = "product_pricing" then
    .error (.workspaceDomainError ("Channel " ++ channelId ++ " has no approved write strategy."))
  else
    .error (.workspaceDomainError
      ("Channel " ++ channelId ++ " is Coming Soon and cannot participate in Workspace Apply."))

def connectorApply (command : WorkspaceWriteBatchCommand) (channelId : Id)
    (intents : List WorkspaceWriteIntent) : Program (List WorkspaceWriteResult) :=
  ask (.applyUpdates command channelId intents)

/-- What the Channel's connector is asked to read back. -/
def connectorVerify (command : WorkspaceWriteBatchCommand) (channelId : Id)
    (intents : List WorkspaceWriteIntent) : Program (List WorkspaceWriteResult) :=
  ask (.verifyUpdates command channelId intents)

def acquireAll (channelId : Id) : List WorkspaceWriteIntent → Program Unit
  | [] => pure ()
  | _ :: rest => do
    ask (.acquire channelId)
    acquireAll channelId rest

def rateLimited (e : Fault) (intent : WorkspaceWriteIntent) : WorkspaceWriteResult where
  listingId := intent.listingId
  outcome := .failed
  errorCategory := some "rate_limit"
  errorMessage := some e.message
  retryEligible := true

def providerUnknown (e : Fault) (intent : WorkspaceWriteIntent) : WorkspaceWriteResult where
  listingId := intent.listingId
  outcome := .reconciliationRequired
  errorCategory := some "provider_unknown"
  errorMessage := some e.message

def pricingRejected (code : String) (intent : WorkspaceWriteIntent) : WorkspaceWriteResult where
  listingId := intent.listingId
  outcome := .failed
  errorCategory := some "pricing_authority"
  errorMessage := some code

/-- `_pricing_authority_issue`, with the head it may have created on the way. -/
def pricingAuthorityIssue (command : WorkspaceWriteBatchCommand) (eventId : Id)
    (intent : WorkspaceWriteIntent) (db : Db) : Db × Option String :=
  match command.pricingOrigin, intent.pricingOrigin, intent.expectedPricingAuthority with
  | some commanded, some origin, some expected =>
    if commanded ≠ origin ∨ expected ≠ origin.authority then
      (db, some "pricing_origin_not_authorized")
    else match PricingAuthority.snapshot db intent.channelId eventId with
      | .error code => (db, some code)
      | .ok (db, head) => (db, PricingAuthority.assertWriteAuthorized head origin
          intent.pricingAuthorityEventId intent.pricingAuthorityHeadVersion)
  | _, _, _ => (db, some "pricing_origin_not_authorized")

def filterAuthorizedPriceIntents (command : WorkspaceWriteBatchCommand) (fresh : Id → Id) :
    List WorkspaceWriteIntent → Db → Db × List WorkspaceWriteIntent × List WorkspaceWriteResult
  | [], db => (db, [], [])
  | intent :: rest, db =>
    match intent.targetPrice with
    | none =>
      let (db, allowed, rejected) := filterAuthorizedPriceIntents command fresh rest db
      (db, intent :: allowed, rejected)
    | some _ =>
      let (db, issue) := pricingAuthorityIssue command (fresh intent.channelId) intent db
      let (db, allowed, rejected) := filterAuthorizedPriceIntents command fresh rest db
      match issue with
      | none => (db, intent :: allowed, rejected)
      | some code => (db, allowed, pricingRejected code intent :: rejected)

def dispatchedEvents (recorded : Recorded) :
    List WorkspaceWriteIntent → Except Fault (List ProviderWriteAttemptEvent)
  | [] => .ok []
  | intent :: rest => do
    let id ← recorded.attemptOf intent.listingId
    let events ← dispatchedEvents recorded rest
    .ok ({ attemptId := id, outcome := .dispatched } :: events)

/-- The transaction that ends in `DISPATCHED`: authority filter, events, commit. -/
def dispatchIntents (fresh : Fresh) (command : WorkspaceWriteBatchCommand) (recorded : Recorded)
    (pending : List WorkspaceWriteIntent) (db : Db) :
    Except Fault (Db × List WorkspaceWriteIntent × List WorkspaceWriteResult) := do
  let (db, allowed, rejected) :=
    filterAuthorizedPriceIntents command fresh.authorityEvent pending db
  let events ← dispatchedEvents recorded allowed
  .ok ({ db with attemptEvents := db.attemptEvents ++ events }, allowed, rejected)

def applyUpdates (command : WorkspaceWriteBatchCommand) (channelId : Id)
    (dispatchable : List WorkspaceWriteIntent) : Program (List WorkspaceWriteResult) :=
  if dispatchable.isEmpty then pure []
  else (connectorApply command channelId dispatchable).rescue fun e =>
    pure (dispatchable.map (providerUnknown e))

def dispatchPending (fresh : Fresh) (command : WorkspaceWriteBatchCommand) (recorded : Recorded)
    (channelId : Id) (pending : List WorkspaceWriteIntent) :
    Program (List WorkspaceWriteResult) :=
  (acquireAll channelId pending).tryElse
    (fun _ => do
      assertWorkspaceFence command
      let (dispatchable, rejected) ← Proc.transact (.dispatch command channelId)
        (dispatchIntents fresh command recorded pending)
      let applied ← applyUpdates command channelId dispatchable
      pure (rejected ++ applied))
    (fun e => pure (pending.map (rateLimited e)))

def resultEvents (attemptId : Id) (result : WorkspaceWriteResult) : List ProviderWriteAttemptEvent :=
  (if result.providerAccepted then [{ attemptId, outcome := .providerAccepted }] else []) ++
    [{ attemptId, outcome := result.outcome, errorCategory := result.errorCategory,
       errorMessage := result.errorMessage }]

/-- The loop over a Channel's results: ownership is checked again for each. -/
def gatherEvents (command : WorkspaceWriteBatchCommand) (recorded : Recorded) :
    List WorkspaceWriteResult → Program (List ProviderWriteAttemptEvent)
  | [] => pure []
  | result :: rest => do
    assertWorkspaceFence command
    let id ← Proc.ofExcept (recorded.attemptOf result.listingId)
    let events ← gatherEvents command recorded rest
    pure (resultEvents id result ++ events)

def pendingIntents (recorded : Recorded) (intents : List WorkspaceWriteIntent) : List WorkspaceWriteIntent :=
  intents.filter fun i => decide (i.listingId ∉ recorded.priorAttempts)

def priorIntents (recorded : Recorded) (intents : List WorkspaceWriteIntent) : List WorkspaceWriteIntent :=
  intents.filter fun i => decide (i.listingId ∈ recorded.priorAttempts)

def dispatchChannel (fresh : Fresh) (command : WorkspaceWriteBatchCommand)
    (reconcileOnly : Bool) (recorded : Recorded) (channelId : Id)
    (intents : List WorkspaceWriteIntent) : Program (List WorkspaceWriteResult) :=
  if (pendingIntents recorded intents).isEmpty || reconcileOnly then pure []
  else dispatchPending fresh command recorded channelId (pendingIntents recorded intents)

def verifyChannel (command : WorkspaceWriteBatchCommand) (reconcileOnly : Bool)
    (recorded : Recorded) (channelId : Id) (intents : List WorkspaceWriteIntent) :
    Program (List WorkspaceWriteResult) :=
  if reconcileOnly then connectorVerify command channelId intents
  else if (priorIntents recorded intents).isEmpty then pure []
  else connectorVerify command channelId (priorIntents recorded intents)

def recordResults (command : WorkspaceWriteBatchCommand) (results : List WorkspaceWriteResult)
    (events : List ProviderWriteAttemptEvent) : Program Unit :=
  Proc.transact (.recordResults command results) fun db =>
    .ok ({ db with attemptEvents := db.attemptEvents ++ events }, ())

def runChannel (fresh : Fresh) (command : WorkspaceWriteBatchCommand) (reconcileOnly : Bool)
    (recorded : Recorded) (channelId : Id) (intents : List WorkspaceWriteIntent) :
    Program (List WorkspaceWriteResult) := do
  Proc.ofExcept (connectorFor command.workflow channelId)
  let dispatched ← dispatchChannel fresh command reconcileOnly recorded channelId intents
  let verified ← verifyChannel command reconcileOnly recorded channelId intents
  ask (.transportReports channelId (dispatched ++ verified))
  let events ← gatherEvents command recorded (dispatched ++ verified)
  recordResults command (dispatched ++ verified) events
  pure (dispatched ++ verified)

def runChannels (fresh : Fresh) (command : WorkspaceWriteBatchCommand) (reconcileOnly : Bool)
    (recorded : Recorded) :
    List (Id × List WorkspaceWriteIntent) → Program (List WorkspaceWriteResult)
  | [] => pure []
  | (channelId, intents) :: rest => do
    let results ← runChannel fresh command reconcileOnly recorded channelId intents
    let more ← runChannels fresh command reconcileOnly recorded rest
    pure (results ++ more)

/-- Sole provider-dispatch authority for immutable Workspace intents. -/
def executeWorkspace (fresh : Fresh) (command : WorkspaceWriteBatchCommand)
    (reconcileOnly : Bool) : Program (List WorkspaceWriteResult) := do
  assertWorkspaceFence command
  let recorded ← Proc.transact (.recordIntents command) fun db =>
    recordIntents command.workflow reconcileOnly fresh.attempt 0 command.intents db {}
  runChannels fresh command reconcileOnly recorded (grouped command.intents)

end WritePipeline

end FlowHub
