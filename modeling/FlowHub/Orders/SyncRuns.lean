import FlowHub.Orders.ReceiptQueue

namespace FlowHub.Orders

open Python Webhooks

/-- An order as a run stages it, with the event that it came with. -/
structure Upsert where
  order : ChannelOrder
  (sourceEventId eventType : Option String)
  existing : Bool
  row : ChannelOrderRecord
  effects : List ChannelInventoryEffectRecord

/-- What a page or the queue gives a run to do. -/
inductive Item where
  | event (event : ChannelOrderEvent)
  | receipt (receipt : WebhookReceipt) (webhook : TapsiShopWebhook)
  | order (order : ChannelOrder)

/-- A page of events, with the cursor it was asked for with and the next one. -/
structure Page where
  asked : Option String
  items : List Item
  next : Option String

/-- What a session stages. -/
inductive Write where
  | event (row : ChannelOrderEventRecord)
  | order (upsert : Upsert)
  | receipt (receipt : WebhookReceipt)
  | cursor (page : Page)

/-- The tables, with the cursor of the checkpoint of the events. -/
structure Store where
  db : Db := {}
  cursor : Option String := none

namespace Write

def into (s : Store) : Write → Store
  | .event row => { s with db := s.db.addEvent row }
  | .order upsert =>
    { s with db := { s.db.saveOrder upsert.row with effects := s.db.effects ++ upsert.effects } }
  | .receipt r =>
    { s with db := { s.db with webhooks := recordAttempt r none false s.db.webhooks } }
  | .cursor page => { s with cursor := page.next }

local instance : LawfulBEq (Id × String × String × EventType) := inferInstance

/-- No unique key stands in the way. -/
def fits (s : Store) : Write → Bool
  | .event row => !s.db.recorded row.channelId row.providerEventId
  | .order upsert =>
    (upsert.existing || (s.db.order upsert.row.channelId upsert.row.providerOrderId).isNone) &&
      upsert.effects.all fun e => decide (e.key ∉ s.db.effects.map ChannelInventoryEffectRecord.key)
  | .receipt _ | .cursor _ => true

end Write

/-- What a session that has staged writes sees, and what its commit leaves. -/
def session (s : Store) : List Write → Option Store
  | [] => some s
  | write :: rest => if write.fits s then session (write.into s) rest else none

/-- What `upsert_order` stages. -/
def upsertWrites (rt : Runtime) (order : ChannelOrder) (source : Source)
    (sourceEventId eventType : Option String) (occurredAt : Option Int) (now : Int) (db : Db) :
    Except Fault (List Write) :=
  let existing := db.order order.channelId (providerOrderId rt order)
  let incoming := incomingVersion order occurredAt
  if outOfOrder existing incoming then .ok []
  else do
    let state ← orderState rt order eventType
    let effects ← createInventoryEffects rt db.effects order sourceEventId eventType
    .ok [.order {
      order, sourceEventId, eventType
      existing := existing.isSome
      row := orderRow rt existing order state source incoming now
      effects }]

/-- The lease of a channel. -/
structure Lease where
  owner : Option Nat := none
  expiresAt : Option Time := none

namespace Lease

/-- The condition of `acquire_checkpoint_lease`. -/
def free (l : Lease) (now : Time) : Bool := l.expiresAt.all fun t => decide (t ≤ now)

/-- The condition of `_update_active_lease`. -/
def current (l : Lease) (owner : Nat) (now : Time) : Bool :=
  decide (l.owner = some owner) && l.expiresAt.any fun t => decide (now < t)

end Lease

/-- Where a run is in the loop over its pages or receipts. -/
inductive Position where
  | polling (cursor : Option String)
  | webhook (receiptIds : List Nat)
  | reconciliation

/-- How far a run has come. In `listing` it waits for a page, in `awaiting` for an order. -/
inductive Phase where
  | ready (pos : Position)
  | listing (pos : Position)
  | working (pos : Position) (page : Page) (rest : List Item)
  | awaiting (pos : Position) (page : Page) (item : Item) (rest : List Item)
  | failing | exiting | ended

/-- A run of one of the three services. Its owner is the uuid of its lease, and `expiresAt` what it
last wrote to the lease. -/
structure Run where
  owner : Nat
  expiresAt : Time
  staged : List Write
  phase : Phase

/-- A commit, with what the lease's row was when its transaction came to update it. -/
structure Commit where
  owner : Nat
  writes : List Write
  found : Lease
  time : Time

/-- A channel: its tables, its lease, the runs, and the commits so far. -/
structure World where
  clock : Time := 0
  store : Store := {}
  lease : Lease := {}
  runs : List Run := []
  commits : List Commit := []

/-- What a connector answers when it is asked for a page. -/
inductive Answer where
  | events (items : List ChannelOrderEvent) (next : Option String)
  | orders (items : List ChannelOrder)
  | raises

/-- A step of a run ends at its next commit or at its next wait. -/
inductive Action where
  | tick (duration : Time)
  | arrive (providerEventId payloadHash : String) (webhook : TapsiShopWebhook)
  | acquire (route : Route) (leaseSeconds limit : Nat)
  | heartbeat (owner leaseSeconds : Nat)
  | page (owner : Nat) (answer : Answer)
  | take (owner : Nat)
  | order (owner : Nat) (answer : Option ChannelOrder)
  | progress (owner : Nat) (more : Bool)
  | raise (owner : Nat)
  | fail (owner : Nat)
  | cancel (owner : Nat)
  | release (owner : Nat)
  | crash (owner : Nat)

namespace World

variable (w : World)

def run (owner : Nat) : Option Run := Table.get Run.owner w.runs owner

def put (r : Run) : World :=
  { w with runs := Table.set Run.owner w.runs r.owner fun _ => r }

def enter (r : Run) (phase : Phase) : World := w.put { r with phase }

/-- The rollback of a session and what comes after it. -/
def rollback (r : Run) (phase : Phase) : World := w.put { r with staged := [], phase }

/-- The commit of a session, with the lease it leaves; a unique key in the way rolls it back. -/
def commit (r : Run) (writes : List Write) (lease : Lease) (expiresAt : Time)
    (done refused : Phase) : World :=
  match session w.store writes with
  | some store =>
    { w.put { r with expiresAt, staged := [], phase := done } with
      store, lease, commits := w.commits ++ [⟨r.owner, writes, w.lease, w.clock⟩] }
  | none => w.rollback r refused

def expiry (leaseSeconds : Nat) : Time := w.clock + seconds (max 1 leaseSeconds)

end World

section

variable (rt : Runtime) (channelId : Id)

namespace World

variable (w : World)

/-- `acquire_checkpoint_lease`, and what the run reads before its first heartbeat. -/
def acquire (route : Route) (leaseSeconds limit : Nat) : World :=
  if w.lease.free w.clock then
    let owner := w.runs.length
    let pos : Position := match route with
      | .polling => .polling w.store.cursor
      | .webhook => .webhook (receiptIds channelId limit w.store.db)
      | .reconciliation => .reconciliation
    { w with
      lease := ⟨some owner, some (w.expiry leaseSeconds)⟩
      runs := w.runs ++ [⟨owner, w.expiry leaseSeconds, [], .ready pos⟩] }
  else w

variable (r : Run)

/-- `heartbeat_checkpoint_lease`. -/
def heartbeat (leaseSeconds : Nat) : World :=
  match r.phase with
  | .ready pos =>
    if w.lease.current r.owner w.clock then
      w.commit r r.staged { w.lease with expiresAt := some (w.expiry leaseSeconds) }
        (w.expiry leaseSeconds) (.listing pos) .failing
    else w.rollback r .failing
  | _ => w

/-- What a run that is through with a receipt does next. -/
def afterReceipt : List Nat → Phase
  | [] => .exiting
  | receiptIds => .ready (.webhook receiptIds)

/-- The page is there, or the next receipt is read. -/
def page (answer : Answer) : World :=
  match r.phase with
  | .listing (.polling cursor) =>
    match answer with
    | .events items next =>
      w.enter r (.working (.polling cursor) ⟨cursor, items.map .event, next⟩ (items.map .event))
    | _ => w.enter r .failing
  | .listing .reconciliation =>
    match answer with
    | .orders items =>
      w.enter r (.working .reconciliation ⟨none, items.map .order, none⟩ (items.map .order))
    | _ => w.enter r .failing
  | .listing (.webhook []) => w.enter r (.working (.webhook []) ⟨none, [], none⟩ [])
  | .listing (.webhook (receiptId :: rest)) =>
    match w.store.db.webhooks.receipt receiptId with
    | none => w.enter r (afterReceipt rest)
    | some receipt =>
      match pending receipt, receipt.normalizedEvent with
      | true, .tapsishop webhook =>
        w.enter r (.working (.webhook rest) ⟨none, [.receipt receipt webhook], none⟩
          [.receipt receipt webhook])
      | _, _ => w.enter r (afterReceipt rest)
  | _ => w

/-- A run takes up an item: the event is recorded, and a receipt whose event is recorded already is
through. -/
def take : World :=
  match r.phase with
  | .working pos page (item :: rest) =>
    match session w.store r.staged, item with
    | none, _ => w.enter r .failing
    | some s, .event event =>
      if s.db.recorded event.channelId event.eventId then w.enter r (.working pos page rest)
      else w.put { r with
        staged := r.staged ++ [.event (eventRow rt event .snappshopPoll)]
        phase := .awaiting pos page item rest }
    | some s, .receipt receipt webhook =>
      let event := eventFromTapsishopReceipt receipt.channelId receipt.providerEventId webhook
      if s.db.recorded event.channelId event.eventId then
        w.put { r with
          staged := r.staged ++ [.receipt (receipt.finished w.clock)]
          phase := .working pos page rest }
      else w.put { r with
        staged := r.staged ++ [.event (eventRow rt event .tapsishopWebhook)]
        phase := .awaiting pos page item rest }
    | some _, .order _ => w.enter r (.awaiting pos page item rest)
  | _ => w

/-- What `upsert_order` stages for an item with the order that the connector answers. A receipt makes
its own order up where the request fails, and is through then. -/
def upserts (s : Store) (item : Item) (answer : Option ChannelOrder) : Option (List Write) :=
  match item, answer with
  | .event event, some order =>
    (upsertWrites rt order .snappshopPoll (some event.eventId) (some event.eventType)
      (parseDt event.occurredAt) w.clock s.db).toOption
  | .receipt receipt webhook, answer =>
    let event := eventFromTapsishopReceipt receipt.channelId receipt.providerEventId webhook
    let order := answer.getD (orderOfPayload receipt.channelId receipt.providerEventId webhook)
    ((upsertWrites rt order .tapsishopWebhook (some event.eventId) (some event.eventType)
      (parseDt event.occurredAt) w.clock s.db).toOption).map (· ++ [.receipt (receipt.finished w.clock)])
  | .order _, some order =>
    (upsertWrites rt order .reconciliation (some ("reconcile:" ++ providerOrderId rt order)) none none
      w.clock s.db).toOption
  | _, none => none

/-- The order is there, or the request for it has failed. -/
def order (answer : Option ChannelOrder) : World :=
  match r.phase with
  | .awaiting pos page item rest =>
    match (session w.store r.staged).bind fun s => w.upserts rt s item answer with
    | some writes => w.put { r with staged := r.staged ++ writes, phase := .working pos page rest }
    | none => w.enter r .failing
  | _ => w

/-- `_commit_checkpoint_progress`, and what the run does then. -/
def progress (more : Bool) : World :=
  match r.phase with
  | .working pos page [] =>
    let writes := match pos with
      | .polling _ => r.staged ++ [.cursor page]
      | _ => r.staged
    let next : Phase := match pos with
      | .polling _ => if more then .ready (.polling page.next) else .exiting
      | .webhook rest => afterReceipt rest
      | .reconciliation => if more then .ready .reconciliation else .exiting
    if w.lease.current r.owner w.clock then w.commit r writes w.lease r.expiresAt next .failing
    else w.rollback r .failing
  | _ => w

/-- An exception leaves the loop. -/
def raise : World :=
  match r.phase with
  | .failing | .exiting | .ended => w
  | _ => w.enter r .failing

/-- `_mark_checkpoint_failure`, which does not touch the lease. -/
def fail : World :=
  match r.phase with
  | .failing => w.rollback r .exiting
  | _ => w

/-- The cancellation of the task at a wait: no handler catches it, and the `finally` runs. -/
def cancel : World :=
  match r.phase with
  | .listing (.polling _) | .listing .reconciliation | .awaiting .. => w.enter r .exiting
  | _ => w

/-- `release_checkpoint_lease`: its commit is that of the session. -/
def release : World :=
  match r.phase with
  | .exiting =>
    w.commit r r.staged (if w.lease.owner = some r.owner then ⟨none, none⟩ else w.lease) r.expiresAt
      .ended .ended
  | _ => w

def crash : World := w.rollback r .ended

def arrive (providerEventId payloadHash : String) (webhook : TapsiShopWebhook) : World :=
  let webhooks := w.store.db.webhooks
  let receipt := acceptedReceipt webhooks.nextId channelId .tapsishop providerEventId payloadHash
    (.tapsishop webhook) w.clock
  { w with store := { w.store with db := { w.store.db with
    webhooks := { webhooks with receipts := webhooks.receipts ++ [receipt] } } } }

def withRun (owner : Nat) (step : Run → World) : World :=
  match w.run owner with
  | some r => step r
  | none => w

def step : Action → World
  | .tick duration => { w with clock := w.clock + duration }
  | .arrive providerEventId payloadHash webhook =>
    w.arrive channelId providerEventId payloadHash webhook
  | .acquire route leaseSeconds limit => w.acquire channelId route leaseSeconds limit
  | .heartbeat owner leaseSeconds => w.withRun owner fun r => w.heartbeat r leaseSeconds
  | .page owner answer => w.withRun owner fun r => w.page r answer
  | .take owner => w.withRun owner fun r => w.take rt r
  | .order owner answer => w.withRun owner fun r => w.order rt r answer
  | .progress owner more => w.withRun owner fun r => w.progress r more
  | .raise owner => w.withRun owner w.raise
  | .fail owner => w.withRun owner w.fail
  | .cancel owner => w.withRun owner w.cancel
  | .release owner => w.withRun owner w.release
  | .crash owner => w.withRun owner w.crash

def after (actions : List Action) : World := actions.foldl (step rt channelId) {}

end World

/-- Every step of a run meets a condition on it and on the world before it. -/
def Along (condition : World → Action → Prop) : World → List Action → Prop
  | _, [] => True
  | w, a :: rest => condition w a ∧ Along condition (w.step rt channelId a) rest

end

/-- The run whose code a step is of. -/
def Action.owner : Action → Option Nat
  | .tick _ | .arrive .. | .acquire .. => none
  | .heartbeat owner _ | .page owner _ | .take owner | .order owner _ | .progress owner _
  | .raise owner | .fail owner | .cancel owner | .release owner | .crash owner => some owner

section

variable {rt : Runtime} {db : Db} {order : ChannelOrder} {source : Source}

end

end FlowHub.Orders
