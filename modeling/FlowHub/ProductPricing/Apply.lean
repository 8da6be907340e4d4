import FlowHub.ProductPricing.Operations

namespace FlowHub.ProductPricing

open Python Connectors Channels

/-- What a call of `apply` meets: who calls it, when its writes are verified, the Listing and the
pricing authority of an item, and what the durable engine answers. An item that is not prepared
raises before the engine is asked. -/
inductive Answer where
  | unprepared (e : Fault)
  | engine (answer : Except Fault (List WorkspaceWriteResult))

structure Surroundings where
  actor : String
  verifiedAt : Nat → Time
  listing : Nat → Option Id
  authority : Nat → Id × Nat
  answer : Nat → Answer

section

variable (rt : Runtime) (env : Surroundings)

/-- The Listing of an item, or an identity in its place. -/
def listingId (item : ProductPriceOperationItem) : Id :=
  (env.listing item.id).getD (item.channelId ++ ":" ++ item.channelProductId)

/-- `item.proposed_status_value` for a status, a number otherwise. -/
def fieldJson (item : ProductPriceOperationItem) (number : Option Float64) : Json :=
  if item.field = .status then .ofOption .str item.proposedStatusValue else .ofOption .float number

/-- The payload of an item's intent, keys sorted. -/
def payload (item : ProductPriceOperationItem) : Json :=
  .obj [ ("actor", .str env.actor), ("channel_id", .str item.channelId),
    ("expected_cache_token", .str item.staleToken),
    ("external_primary_id", .str item.channelProductId),
    ("field_changes", .obj [(item.field.name, fieldJson item item.proposedValue)]),
    ("listing_id", .str (listingId env item)),
    ("normalized_target", .obj [("currency", .str item.currency),
      (item.field.name, fieldJson item item.outboundValue), ("unit", .str item.outboundUnit)]),
    ("operation_id", .str item.operationId),
    ("sku", if item.sku = "" then .null else .str item.sku),
    ("source_workflow", .str "product_pricing")]

/-- The intent of `execute_product_pricing_item`. -/
def intentOf (item : ProductPriceOperationItem) (row : Option DlProductCache) : WorkspaceWriteIntent :=
  let payloadHash := rt.hash.json (payload env item)
  { applyJobId := item.operationId
    applyItemIds := [toString item.id]
    workspaceId := "product-pricing:" ++ item.operationId
    snapshotId := item.staleToken
    draftRevisionId := item.operationId
    reviewId := item.operationId
    selectionChecksum := payloadHash
    listingId := listingId env item
    channelId := item.channelId
    externalPrimaryId := item.channelProductId
    sku := if item.sku = "" then none else some item.sku
    productType := "simple"
    parentExternalId := none
    currentPrice := row.bind (price rt)
    currentStock := row.bind stock
    currentStatus := row.bind (·.stockStatus)
    targetPrice := if item.field = .price then item.outboundValue else none
    targetStock := if item.field = .stock then item.outboundValue else none
    targetStatus := if item.field = .status then item.proposedStatusValue else none
    currency := some item.currency
    unit := some item.outboundUnit
    mappingVersion := 0
    cacheVersion := 0
    cacheChecksum := item.staleToken
    capabilityVersion := "product-pricing-v1"
    currencyDigest := rt.hash.text item.currency
    idempotencyKey := rt.hash.text
      ("product-pricing:" ++ item.operationId ++ ":" ++ toString item.id ++ ":" ++ payloadHash)
    payloadHash
    pricingOrigin := some .legacyFormulaEngine
    expectedPricingAuthority := some .legacyFormulaEngine
    pricingAuthorityEventId := some (env.authority item.id).1
    pricingAuthorityHeadVersion := some (env.authority item.id).2 }

def commandOf (item : ProductPriceOperationItem) (row : Option DlProductCache) : WorkspaceWriteBatchCommand :=
  let intent := intentOf rt env item row
  { workspaceId := intent.workspaceId
    snapshotId := intent.snapshotId
    draftRevisionId := intent.draftRevisionId
    reviewId := intent.reviewId
    selectionChecksum := intent.selectionChecksum
    correlationId := "product-pricing:" ++ item.operationId
    requestedBy := env.actor
    intents := [intent]
    sourceWorkflow := "product_pricing"
    pricingOrigin := some .legacyFormulaEngine }

/-- The one result of the engine's answer. An exception of the engine is ambiguous. -/
def engineResult (listingId : Id) : Except Fault (List WorkspaceWriteResult) → WorkspaceWriteResult
  | .ok [result] => result
  | .ok _ =>
    { listingId
      outcome := .reconciliationRequired
      errorCategory := some "provider_contract"
      errorMessage := some "Provider returned an ambiguous item count." }
  | .error e =>
    { listingId
      outcome := .reconciliationRequired
      errorCategory := some "provider_unknown"
      errorMessage := some e.message }

/-- `stored_price`. Of `None`, `float` raises a `TypeError`. -/
def storedPrice : Option Float64 → Except Fault String
  | none => .error (.runtimeError
      "float() argument must be a string or a real number, not 'NoneType'")
  | some (.finite x) => .ok (if x.val.den = 1 then toString x.val.num else floatRepr (.finite x))
  | some x => .ok (floatRepr x)

/-- The end of `execute_product_pricing_item` on the cached row. -/
def DlProductCache.patched (stored : String) (verifiedAt : Time) (row : DlProductCache) : DlProductCache :=
  { row with
    regularPrice := some stored
    price := some stored
    freshness := "fresh"
    lastSuccessfulRead := some verifiedAt
    recordHash := some (rt.hash.text
      ("|".intercalate [row.productId, row.sku.getD "", stored, stored])) }

/-- `execute_product_pricing_item`: the result, and the cached row that it leaves. -/
def executeProductPricingItem (item : ProductPriceOperationItem) (row : Option DlProductCache) :
    Except Fault (WorkspaceWriteResult × Option DlProductCache) :=
  match env.answer item.id with
  | .unprepared e => .error e
  | .engine answer =>
    let result := engineResult (listingId env item) answer
    match decide (result.outcome = .verifiedApplied), row with
    | true, some row => do
      let stored ← storedPrice item.proposedValue
      .ok (result, some (row.patched rt stored (env.verifiedAt item.id)))
    | _, _ => .ok (result, row)

def ItemStatus.ofOutcome : WriteOutcome → ItemStatus
  | .verifiedApplied => .applied
  | .failed => .failed
  | .reconciliationRequired => .reconciliationRequired
  | .pending => .pending
  | outcome => .unsettled outcome

/-- The counters of a call. -/
structure Counters where
  success : Nat := 0
  failure : Nat := 0
  reconciliation : Nat := 0

def Counters.count (counters : Counters) : ItemStatus → Counters
  | .applied => { counters with success := counters.success + 1 }
  | .reconciliationRequired => { counters with reconciliation := counters.reconciliation + 1 }
  | _ => { counters with failure := counters.failure + 1 }

/-- A round of the loop of `apply`: the item's new status and its row. -/
def applyItem (item : ProductPriceOperationItem) (row : Option DlProductCache) :
    ItemStatus × Option DlProductCache :=
  match executeProductPricingItem rt env item row with
  | .error _ => (.failed, row)
  | .ok (result, row) => (.ofOutcome result.outcome, row)

def cachedRow (cache : Cache) (item : ProductPriceOperationItem) : Option DlProductCache :=
  cache.row item.channelId item.channelProductId

/-- A row that has been changed is written. -/
def Cache.put (cache : Cache) (item : ProductPriceOperationItem) (row : Option DlProductCache) : Cache :=
  if row = cachedRow cache item then cache
  else match row with
    | some row => Table.set DlProductCache.key cache (item.channelId, item.channelProductId)
        fun _ => row
    | none => cache

/-- A command that the engine was given, and its answer. -/
abbrev Asked := WorkspaceWriteBatchCommand × Except Fault (List WorkspaceWriteResult)

/-- What the loop leaves, and what it has asked of the engine. -/
structure Applied where
  items : List ProductPriceOperationItem
  cache : Cache
  counters : Counters
  asked : List Asked

/-- The command of a prepared item. -/
def asks (item : ProductPriceOperationItem) (row : Option DlProductCache) : List Asked :=
  match env.answer item.id with
  | .unprepared _ => []
  | .engine answer => [(commandOf rt env item row, answer)]

/-- The loop of `apply` over the eligible items. -/
def applyItems (eligible : ProductPriceOperationItem → Bool) :
    List ProductPriceOperationItem → Cache → Counters → Applied
  | [], cache, counters => ⟨[], cache, counters, []⟩
  | item :: rest, cache, counters =>
    if eligible item then
      let row := cachedRow cache item
      let (status, row') := applyItem rt env item row
      let after := applyItems eligible rest (cache.put item row') (counters.count status)
      { after with
        items := { item with status } :: after.items
        asked := asks rt env item row ++ after.asked }
    else
      let after := applyItems eligible rest cache counters
      { after with items := item :: after.items }

/-- The status that `apply` folds from its counters. -/
def Counters.status (counters : Counters) : OperationStatus :=
  if counters.reconciliation ≠ 0 then .reconciliationRequired
  else if counters.failure = 0 then .applied
  else if counters.success ≠ 0 then .partiallyFailed
  else .failed

def staleChannel (channelId : Id) : Fault :=
  .httpException 409 (channelId ++ " changed after Dry Run.")

/-- The stale token that `load` shows of a channel. -/
def tokenIn (states : List ChannelState) (channelId : Id) : Option String :=
  (states.find? fun c => decide (c.channel.channelId = channelId)).map (·.staleToken)

/-- `_assert_still_current`: the first item whose channel has changed is refused. -/
def assertStillCurrent (shop : Shop) (op : ProductPriceOperation) : Except Fault Unit := do
  let states ← load rt shop op.productId
  match op.items.find? fun item =>
      decide (tokenIn states item.channelId ≠ some item.staleToken) with
  | some item => .error (staleChannel item.channelId)
  | none => .ok ()

/-- `approve`, of an operation whose channels are as the dry run saw them. -/
def approve (shop : Shop) (op : ProductPriceOperation) : Except Fault ProductPriceOperation :=
  if op.status = .dryRunReady then do
    assertStillCurrent rt shop op
    .ok { op with status := .approved }
  else .error (.httpException 409 "Only a completed Dry Run can be approved.")

def eligible (op : ProductPriceOperation) (item : ProductPriceOperationItem) : Bool :=
  decide (op.status = .approved) || decide (item.status = .reconciliationRequired)

def apply (shop : Shop) (op : ProductPriceOperation) : Except Fault (ProductPriceOperation × Applied) :=
  if op.status = .approved ∨ op.status = .reconciliationRequired then do
    assertStillCurrent rt shop op
    let after := applyItems rt env (eligible op) op.items shop.cache {}
    .ok ({ op with status := after.counters.status, items := after.items }, after)
  else .error (.httpException 409 "Apply requires a separate approved Dry Run.")

end

end FlowHub.ProductPricing
