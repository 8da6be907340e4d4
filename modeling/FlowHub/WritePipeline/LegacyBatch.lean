import FlowHub.Python.Text
import FlowHub.WritePipeline.Spec
import Mathlib.Data.List.Sort

namespace FlowHub.WritePipeline

open Python Txn

/-- `_row_hashes` and `calculate_preview_hash`, over SHA-256 of canonical JSON. -/
structure PreviewHashing where
  row : PreviewRow → String
  preview : DlWorkspacePreview → List (String × String) → String

variable (u : Unicode) (digest : PreviewHashing) (hash : Hashing)

def cachedPrice (product : Option DlProductCache) : Option Float64 :=
  match product with
  | none => none
  | some p => [p.salePrice, p.regularPrice, p.price, p.lastPrice].findSome? fun value =>
    match value with
    | none | some "" => none
    | some text => float u (withoutCommas text)

def rowHashes : List PreviewRow → List (String × String) → Except Fault (List (String × String))
  | [], hashes => .ok hashes
  | row :: rest, hashes =>
    if row.id = "" then .error (.httpException 422 "PREVIEW_ROW_ID_INVALID")
    else if row.id ∈ hashes.map Prod.fst then
      .error (.httpException 422 "PREVIEW_ROW_ID_DUPLICATE")
    else rowHashes rest (hashes ++ [(row.id, digest.row row)])

/-- What `validate_selection` demands of one selected row. -/
def selectedChange (db : Db) (preview : DlWorkspacePreview) (rowId : String) :
    Except Fault WritePipelinePriceChange :=
  match Table.get PreviewRow.id preview.rows rowId with
  | none => .error (.httpException 422 "PREVIEW_ROW_NOT_FOUND")
  | some row =>
    if !row.eligibleForDryRun || row.hasErrors then
      .error (.httpException 422 "PREVIEW_ROW_NOT_ELIGIBLE")
    else match row.dryRunChange with
      | none => .error (.httpException 422 "PREVIEW_ROW_NOT_ELIGIBLE")
      | some change =>
        if !change.eligibleForDryRun then
          .error (.httpException 422 "PREVIEW_ROW_NOT_ELIGIBLE")
        else
          let product := db.productCache.find? fun p =>
            decide (p.connectorId = "woocommerce:primary") &&
              decide (p.productId = change.productId) && p.exists_
          match cachedPrice u product with
          | none => .error (.httpException 409 "PREVIEW_HASH_MISMATCH")
          | some current =>
            if current.eq change.currentPrice then .ok change
            else .error (.httpException 409 "PREVIEW_HASH_MISMATCH")

def validateSelection (db : Db) (previewId : Id) (rowIds : List String) (user : FlowHubUser)
    (now : Time) : Except Fault (List WritePipelinePriceChange) :=
  match Table.get DlWorkspacePreview.id db.previews previewId with
  | none => .error (.httpException 404 "PREVIEW_NOT_FOUND")
  | some preview =>
    if preview.ownerUserId ≠ user.id then
      .error (.httpException 403 "PREVIEW_OWNERSHIP_MISMATCH")
    else if preview.expiresAt ≤ now then .error (.httpException 409 "PREVIEW_EXPIRED")
    else if rowIds.isEmpty || !decide rowIds.Nodup then
      .error (.httpException 422 "PREVIEW_ROW_NOT_ELIGIBLE")
    else do
      let calculated ← rowHashes digest preview.rows []
      let snapshot := Table.get DlSourceSnapshot.id db.sourceSnapshots preview.sourceSnapshotId
      if preview.rowHashes ≠ calculated ∨ preview.previewHash ≠ digest.preview preview calculated ∨
          snapshot.map DlSourceSnapshot.integrityHash ≠ some preview.sourceIntegrityHash then
        .error (.httpException 409 "PREVIEW_HASH_MISMATCH")
      else rowIds.mapM (selectedChange u db preview)

def maxItems : Nat := 100

def maxDeltaPercent : Float64 := .ofNat 50 (by norm_num)

def forbiddenStockKeys : List String :=
  ["stock", "stock_status", "stockstatus", "stock_quantity", "stockquantity", "inventory",
    "manage_stock", "managestock"]

def stockOperationTypes : List String :=
  ["stock_update", "inventory_update", "write_inventory", "update_stock"]

def automaticApplyKeys : List String :=
  ["automaticApply", "automatic_apply", "applyNow", "apply_now", "scheduler", "scheduled"]

/-- A zero current price has no percentage, and counts as no change. -/
def deltaPercent (current proposed : Float64) : Float64 :=
  if current.eq .zero then .zero
  else (Float64.percentChange current proposed).getD .nan

def validateItem (change : WritePipelinePriceChange) : Except Fault Unit :=
  if !isDigits u change.productId then
    .error (.httpException 422 "WooCommerce product ID must be numeric.")
  else if change.itemType = "variation" ∧ !isDigits u (change.parentProductId.getD "") then
    .error (.httpException 422
      "WooCommerce variation rows require a numeric parent product ID.")
  else .ok ()

/-- The tests of `_validate_changes` on one change, in their order. -/
def validateChange (previewId : String) (change : WritePipelinePriceChange) : Except Fault Unit :=
  if change.source.bind PreviewSource.previewId ≠ some previewId then
    .error (.httpException 422 "Dry Run changes must come from the active Workspace preview.")
  else if !change.eligibleForDryRun then
    .error (.httpException 422 "Rows with validation errors cannot enter Dry Run.")
  else if change.status = some "error" ∨ change.validationStatus = some "error" then
    .error (.httpException 422 "Rows with validation errors cannot enter Dry Run.")
  else if change.keys.any fun k => decide (u.lower k ∈ forbiddenStockKeys) then
    .error (.httpException 403 "Stock updates are blocked in FlowHub 1.0.0.")
  else if !change.currentPrice.isFinite || !change.proposedPrice.isFinite then
    .error (.httpException 422 "Prices must be finite numbers.")
  else if change.currentPrice.lt .zero || !Float64.zero.lt change.proposedPrice then
    .error (.httpException 422 "Prices must be positive.")
  else if maxDeltaPercent.lt (deltaPercent change.currentPrice change.proposedPrice).abs then
    .error (.httpException 422 "Price change exceeds the 50% safety gate.")
  else validateItem u change

def validateChanges (previewId : String) (changes : List WritePipelinePriceChange) : Except Fault Unit := do
  if maxItems < changes.length then
    .error (.httpException 422 "Dry Run is limited to 100 items.")
  else if previewId = "" then
    .error (.httpException 422 "Dry Run requires a Workspace preview ID.")
  else do
    changes.forM (validateChange u previewId)
    if 1 < (changes.map (·.currency)).dedup.length then
      .error (.httpException 422 "Dry Run must use a single currency.")
    else .ok ()

/-- The request body beyond `previewId` and `selectedRowIds`. -/
def validateRequestControls (extras : List (String × String)) : Except Fault Unit :=
  let operation := u.lower ((extras.lookup "operationType").getD "")
  if extras.any fun e => decide (e.1 ∈ automaticApplyKeys) then
    .error (.httpException 403 "automatic_apply_disabled")
  else if (extras.lookup "channelId").getD "woocommerce:primary" ≠ "woocommerce:primary" then
    .error (.httpException 403 "unsupported_channel_write")
  else if operation ∈ stockOperationTypes then
    .error (.httpException 403 "stock_writes_disabled")
  else if extras.any fun e => decide (u.lower e.1 ∈ forbiddenStockKeys) then
    .error (.httpException 403 "stock_writes_disabled")
  else if !extras.isEmpty then
    .error (.httpException 422
      "DRY_RUN_REQUEST_FIELDS_INVALID: submit only previewId and selectedRowIds.")
  else .ok ()

/-- `f"\x7bx:.4f\x7d"`. -/
def fixed4 : Float64 → String
  | .finite x =>
    let n := (Binary64.halfEven (|x.val| * 10000)).toNat
    let fraction := toString (n % 10000)
    (if x.val < 0 then "-" else "") ++ toString (n / 10000) ++ "." ++
      String.ofList (List.replicate (4 - fraction.length) '0') ++ fraction
  | .infinite negative => if negative then "-inf" else "inf"
  | .nan => "nan"

/-- What one row contributes to the batch hash. -/
structure HashedRow where
  productId : String
  (currentPrice proposedPrice : Float64)
  (currency sourceFingerprint itemType parentProductId variationId : String)

def HashedRow.text (row : HashedRow) : String :=
  "|".intercalate [row.productId, fixed4 row.currentPrice, fixed4 row.proposedPrice, row.currency,
    row.sourceFingerprint, row.itemType, row.parentProductId, row.variationId]

def hashOfRows (channelId operationType : String) (rows : List HashedRow) : String :=
  hash.text ("\n".intercalate (channelId :: operationType ::
    (rows.insertionSort fun a b => a.productId ≤ b.productId).map HashedRow.text))

def changeRow (change : WritePipelinePriceChange) : HashedRow where
  productId := change.productId
  currentPrice := change.currentPrice
  proposedPrice := change.proposedPrice
  currency := change.currency
  sourceFingerprint := (change.source.map PreviewSource.fingerprint).getD ""
  itemType := change.itemType
  parentProductId := change.parentProductId.getD ""
  variationId := change.variationId.getD ""

def itemRow (item : WriteItem) : HashedRow where
  productId := item.channelProductId
  currentPrice := item.currentPrice
  proposedPrice := item.proposedPrice
  currency := item.currency
  sourceFingerprint := item.sourceFingerprint
  itemType := item.itemType
  parentProductId := item.parentProductId.getD ""
  variationId := item.variationId.getD ""

/-- `_batch_hash_from_row`, over the rows as stored. -/
def batchHashFromRow (batch : WriteBatch) (items : List WriteItem) : String :=
  hashOfRows hash batch.channelId batch.operationType (items.map itemRow)

variable (batchId : Id)

def newItem (id : Nat) (change : WritePipelinePriceChange) : WriteItem where
  id := id
  batchId := batchId
  channelProductId := change.productId
  sku := change.sku
  currentPrice := change.currentPrice
  proposedPrice := change.proposedPrice
  currency := change.currency
  itemType := change.itemType
  parentProductId := change.parentProductId
  variationId := change.variationId
  sourceFingerprint := (change.source.map PreviewSource.fingerprint).getD ""

/-- The autoincrement key after every key in use. -/
def nextItemId (items : List WriteItem) : Nat := (items.map WriteItem.id).foldr max 0 + 1

def newItems (batchId : Id) : Nat → List WritePipelinePriceChange → List WriteItem
  | _, [] => []
  | id, change :: rest => newItem batchId id change :: newItems batchId (id + 1) rest

structure DryRunRequest where
  previewId : String
  selectedRowIds : List String
  extras : List (String × String) := []

/-- The batch and its items as `create_dry_run` inserts them. -/
def insertBatch (request : DryRunRequest) (user : FlowHubUser)
    (changes : List WritePipelinePriceChange) (db : Db) : Except Fault Db :=
  if Table.has WriteBatch.id db.writeBatches batchId then .error .integrityError
  else .ok { db with
    writeBatches := db.writeBatches ++ [{
      id := batchId
      channelId := "woocommerce:primary"
      operationType := "price_update"
      status := .dryRunReady
      sourcePreviewId := request.previewId
      batchHash := hashOfRows hash "woocommerce:primary" "price_update"
        (changes.map changeRow)
      itemCount := changes.length
      currency := (changes.head?.map (·.currency)).getD ""
      createdBy := user.username }]
    writeItems := db.writeItems ++ newItems batchId (nextItemId db.writeItems) changes }

def createDryRun (batchId : Id) (request : DryRunRequest) (user : FlowHubUser) (now : Time) : Program Unit :=
  Proc.transact (.createDryRun request.previewId request.selectedRowIds) fun db => do
    validateRequestControls u request.extras
    let changes ← validateSelection u digest db request.previewId request.selectedRowIds user now
    validateChanges u request.previewId changes
    let db ← insertBatch hash batchId request user changes db
    .ok (db, ())

/-- `batch.items`. -/
def itemsOfBatch (db : Db) (batchId : Id) : List WriteItem :=
  db.writeItems.filter fun i => decide (i.batchId = batchId)

def getBatch (db : Db) (batchId : Id) : Except Fault WriteBatch :=
  match Table.get WriteBatch.id db.writeBatches batchId with
  | some batch => .ok batch
  | none => .error (.httpException 404 "Dry Run not found.")

def assertBatchHashMatches (db : Db) (batch : WriteBatch) : Except Fault Unit :=
  if batchHashFromRow hash batch (itemsOfBatch db batch.id) = batch.batchHash then .ok ()
  else .error (.httpException 409 "approval_hash_mismatch")

def updateBatch (db : Db) (batchId : Id) (f : WriteBatch → WriteBatch) : Db :=
  { db with writeBatches := Table.set WriteBatch.id db.writeBatches batchId f }

def approve (user : FlowHubUser) (now : Time) : Program Unit :=
  Proc.transact (.approveBatch batchId) fun db => do
    let batch ← getBatch db batchId
    if batch.status ≠ .dryRunReady then
      .error (.httpException 409 "Only a completed Dry Run can be approved.")
    else do
      assertBatchHashMatches hash db batch
      .ok (updateBatch db batchId fun b =>
        { b with status := .approved, approvedBy := some user.username, approvedAt := some now }, ())

def adapterFor (channelId operationType : String) : Except Fault Unit :=
  if operationType ∈ stockOperationTypes then .error (.httpException 403 "stock_writes_disabled")
  else if channelId = "woocommerce:primary" ∧ operationType = "price_update" then .ok ()
  else .error (.httpException 403 "unsupported_channel_write")

def legacyListingId (item : WriteItem) (channelId : Id) : Id :=
  "legacy:" ++ (if channelId = "" then "woocommerce:primary" else channelId) ++ ":" ++ item.channelProductId

def legacyWorkflow : String := "legacy_write_pipeline"

def payloadSeed (batch : WriteBatch) (item : WriteItem) : Json :=
  .obj [("batch_id", .str batch.id), ("channel_id", .str batch.channelId),
    ("currency", .str item.currency), ("external_primary_id", .str item.channelProductId),
    ("field", .str "price"), ("item_id", .str (toString item.id)),
    ("listing_id", .str (legacyListingId item batch.channelId)),
    ("source_fingerprint", .str item.sourceFingerprint),
    ("target_price", .float item.proposedPrice)]

def legacyIntent (batch : WriteBatch) (authority : ChannelPricingAuthorityHead)
    (item : WriteItem) : WorkspaceWriteIntent where
  applyJobId := batch.id
  applyItemIds := [toString item.id]
  workspaceId := "legacy:" ++ batch.id
  snapshotId := if batch.sourcePreviewId = "" then batch.batchHash else batch.sourcePreviewId
  draftRevisionId := batch.id
  reviewId := if batch.sourcePreviewId = "" then batch.id else batch.sourcePreviewId
  selectionChecksum := batch.batchHash
  listingId := legacyListingId item batch.channelId
  channelId := batch.channelId
  externalPrimaryId := item.channelProductId
  sku := if item.sku = "" then none else some item.sku
  productType := item.itemType
  parentExternalId := if item.parentProductId = some "" then none else item.parentProductId
  currentPrice := some item.currentPrice
  currentStock := none
  currentStatus := none
  targetPrice := some item.proposedPrice
  targetStock := none
  targetStatus := none
  currency := some item.currency
  unit := some item.currency
  mappingVersion := 0
  cacheVersion := 0
  cacheChecksum := item.sourceFingerprint
  capabilityVersion := "legacy-write-pipeline-v1"
  currencyDigest := hash.text item.currency
  idempotencyKey := hash.text ("legacy-write-pipeline:" ++ batch.id ++ ":" ++ toString item.id ++
    ":" ++ hash.json (payloadSeed batch item))
  payloadHash := hash.json (payloadSeed batch item)
  pricingOrigin := some .legacyFormulaEngine
  expectedPricingAuthority := some .legacyFormulaEngine
  pricingAuthorityEventId := some authority.effectiveEventId
  pricingAuthorityHeadVersion := some authority.headVersion

def legacyBatchCommand (batch : WriteBatch) (items : List WriteItem)
    (authority : ChannelPricingAuthorityHead) (user : FlowHubUser) (correlationId : String) :
    WorkspaceWriteBatchCommand where
  workspaceId := "legacy:" ++ batch.id
  snapshotId := if batch.sourcePreviewId = "" then batch.batchHash else batch.sourcePreviewId
  draftRevisionId := batch.id
  reviewId := if batch.sourcePreviewId = "" then batch.id else batch.sourcePreviewId
  selectionChecksum := batch.batchHash
  correlationId := correlationId
  requestedBy := user.username
  intents := items.map (legacyIntent hash batch authority)
  sourceWorkflow := legacyWorkflow
  pricingOrigin := some .legacyFormulaEngine

/-- `_ensure_authority_channel`: seeding adds the four implemented Channels. -/
def ensureAuthorityChannel (db : Db) (channelId : Id) : Db :=
  if Table.has WorkspaceChannel.id db.channels channelId then db
  else { db with channels := db.channels ++
    ((implementedChannels.filter fun c => !Table.has WorkspaceChannel.id db.channels c).map
      fun c => { id := c }) }

def assertChannelWriteEnabled (db : Db) (channelId : Id) : Except Fault Unit :=
  match Table.get IntegrationConnectorInstance.id db.connectorInstances channelId with
  | some connector =>
    if connector.readOnly then .error (.httpException 403 "channel_write_access_disabled")
    else .ok ()
  | none => .error (.httpException 403 "channel_write_access_disabled")

/-- Verification stays possible when the Channel has been switched to read-only. -/
def writeGate (reconcileOnly : Bool) (db : Db) (channelId : Id) : Except Fault Unit :=
  if reconcileOnly then .ok () else assertChannelWriteEnabled db channelId

def resumable (status : BatchStatus) : Bool :=
  decide (status = .executing) || decide (status = .reconciliationRequired)

def hasAttempts (db : Db) (batchId : Id) : Bool :=
  db.attempts.any fun a =>
    decide (a.sourceWorkflow = legacyWorkflow) && decide (a.operationId = batchId)

structure Started where
  command : WorkspaceWriteBatchCommand
  reconcileOnly : Bool
  recorded : Recorded

/-- The guards of `execute` on the batch itself. -/
def admitBatch (db : Db) : Except Fault WriteBatch := do
  let batch ← getBatch db batchId
  if batch.status ≠ .approved ∧ resumable batch.status = false then
    .error (.httpException 409 "Apply requires a separate approved Dry Run.")
  else do
    assertBatchHashMatches hash db batch
    adapterFor batch.channelId batch.operationType
    .ok batch

/-- A batch that is not being resumed is marked as executing. -/
def markExecuting (batch : WriteBatch) (db : Db) : Db :=
  if resumable batch.status then db
  else updateBatch db batch.id fun b => { b with status := .executing }

def batchAuthority (fresh : Fresh) (batch : WriteBatch) (db : Db) :
    Except Fault (Db × ChannelPricingAuthorityHead) :=
  match PricingAuthority.snapshot (ensureAuthorityChannel db batch.channelId) batch.channelId
      (fresh.authorityEvent batch.channelId) with
  | .error code => .error (.workspaceDomainError code)
  | .ok seeded => .ok seeded

/-- `execute` up to the first commit, which stores the status and the attempts
together. -/
def startBatch (fresh : Fresh) (batchId : Id) (user : FlowHubUser)
    (correlationId : String) (db : Db) : Except Fault (Db × Started) := do
  let batch ← admitBatch hash batchId db
  let (seeded, authority) ← batchAuthority fresh batch (markExecuting batch db)
  let command := legacyBatchCommand hash batch (itemsOfBatch db batch.id) authority user
    correlationId
  let reconcileOnly := resumable batch.status && hasAttempts db batch.id
  writeGate reconcileOnly seeded batch.channelId
  let (db, recorded) ← recordIntents command.workflow reconcileOnly fresh.attempt 0
    command.intents seeded {}
  .ok (db, { command, reconcileOnly, recorded })

variable (results : List WorkspaceWriteResult)

/-- `{result.listing_id: result for result in results}.get(listing_id)`. -/
def resultFor (listingId : Id) : Option WorkspaceWriteResult :=
  results.reverse.find? fun r => decide (r.listingId = listingId)

def finishItem (channelId : Id) (item : WriteItem) : WriteItem :=
  match resultFor results (legacyListingId item channelId) with
  | none => { item with
      status := .failed
      errorCode := some "provider_contract"
      errorMessage := some "Shared Write Pipeline returned no result for the item." }
  | some result =>
    match result.outcome with
    | .verifiedApplied => { item with status := .applied, errorCode := none, errorMessage := none }
    | .reconciliationRequired => { item with
        status := .reconciliationRequired
        errorCode := some (result.errorCategory.getD "read_back_unverified")
        errorMessage := some (result.errorMessage.getD "Provider state requires reconciliation.") }
    | _ => { item with
        status := .failed
        errorCode := some (result.errorCategory.getD "provider_error")
        errorMessage := some (result.errorMessage.getD "Provider write failed.") }

def batchStatus (success failure reconciliation : Nat) : BatchStatus :=
  if failure = 0 ∧ reconciliation = 0 then .applied
  else if reconciliation ≠ 0 ∧ success = 0 then .reconciliationRequired
  else if success ≠ 0 then .partiallyFailed
  else .failed

def countStatus (items : List WriteItem) (status : WriteItemStatus) : Nat :=
  items.countP fun i => decide (i.status = status)

def finishItems (channelId : Id) (results : List WorkspaceWriteResult)
    (items : List WriteItem) : List WriteItem :=
  items.map fun i => if i.batchId = batchId then finishItem results channelId i else i

/-- `execute` after provider I/O: item statuses from the results, and the batch
status from their counts. -/
def finishBatch (now : Time) (db : Db) : Except Fault (Db × Unit) := do
  let batch ← getBatch db batchId
  let finished := (itemsOfBatch db batchId).map (finishItem results batch.channelId)
  let status := batchStatus (countStatus finished .applied) (countStatus finished .failed)
    (countStatus finished .reconciliationRequired)
  let db := updateBatch db batchId fun b => { b with status := status, executedAt := some now }
  .ok ({ db with writeItems := finishItems batchId batch.channelId results db.writeItems }, ())

def finish (now : Time) : Program Unit :=
  Proc.transact (.finishBatch batchId results) (finishBatch batchId results now)

def execute (fresh : Fresh) (batchId : Id) (user : FlowHubUser)
    (correlationId : String) (now : Time) : Program Unit := do
  let started ← Proc.transact (.startBatch batchId)
    (startBatch hash fresh batchId user correlationId)
  let results ← runChannels fresh started.command started.reconcileOnly started.recorded
    (grouped started.command.intents)
  finish batchId results now

end FlowHub.WritePipeline
