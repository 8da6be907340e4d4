import FlowHub.Connectors.CurrentState
import FlowHub.Txn.Proc

namespace FlowHub.Connectors

open Python Channels Txn

variable (u : Unicode)

/-- Error codes of the WooCommerce adapter. -/
inductive ConnectorErrorCode where
  | authFailed | notFound | rateLimited | timeout | network | permission | providerError | unknown
  deriving DecidableEq

def ConnectorErrorCode.value : ConnectorErrorCode → String
  | .authFailed => "auth_failed"
  | .notFound => "not_found"
  | .rateLimited => "rate_limited"
  | .timeout => "timeout"
  | .network => "network"
  | .permission => "permission"
  | .providerError => "provider_error"
  | .unknown => "unknown"

/-- A rejection by the provider, after which nothing changed there. -/
def ConnectorErrorCode.deterministic : ConnectorErrorCode → Bool
  | .authFailed | .permission | .notFound | .providerError => true
  | _ => false

inductive ConnectorFault where
  | connectorError (code : ConnectorErrorCode) (message : String) (retryable : Bool)
  | raised (fault : Fault)

/-- `str(exc)`. -/
def ConnectorFault.message : ConnectorFault → String
  | .connectorError code message _ => "[woocommerce] " ++ code.value ++ ": " ++ message
  | .raised fault => fault.message

/-- Error categories of the marketplace connectors. -/
inductive ConnectorErrorCategory where
  | authentication | authorization | validation | rateLimit | timeout | upstreamUnavailable
  | notFound | conflict | unsupportedCapability | unexpectedResponse

def ConnectorErrorCategory.value : ConnectorErrorCategory → String
  | .authentication => "authentication"
  | .authorization => "authorization"
  | .validation => "validation"
  | .rateLimit => "rate_limit"
  | .timeout => "timeout"
  | .upstreamUnavailable => "upstream_unavailable"
  | .notFound => "not_found"
  | .conflict => "conflict"
  | .unsupportedCapability => "unsupported_capability"
  | .unexpectedResponse => "unexpected_response"

structure ConnectorError where
  category : ConnectorErrorCategory
  message : String
  safeToRetry : Bool := false

structure ChannelIdentifierSet where
  externalProductId : Option String := none
  sku : Option String := none
  productNumber : Option String := none
  parentProductNumber : Option String := none

structure ChannelProductUpdate where
  channelId : Id
  identifiers : ChannelIdentifierSet
  (price stockQuantity : Option Float64)
  (currency priceUnit idempotencyKey : String)

structure ChannelProductUpdateResult where
  identifiers : ChannelIdentifierSet
  success : Bool
  error : Option ConnectorError := none
  raw : Evidence := []

structure WooWriteItem where
  channelProductId : String
  proposedPrice : Option Float64
  proposedStock : Option Int
  proposedStockStatus : Option String
  itemType : String
  parentProductId : Option String

/-- What the connectors ask of the provider adapters: the two kinds of write, and a read. -/
inductive AdapterCall where
  | executeItem (item : WooWriteItem)
  | updateProducts (updates : List ChannelProductUpdate)
  | fetchCurrentState (request : CurrentStateRequest)

def AdapterCall.Answer : AdapterCall → Type
  | .executeItem _ => Evidence
  | .updateProducts _ => List ChannelProductUpdateResult
  | .fetchCurrentState _ => CurrentStateResult

def AdapterCall.writes : AdapterCall → Bool
  | .fetchCurrentState _ => false
  | _ => true

/-- The connectors keep no state of their own. -/
abbrev adapters : Interface where
  State := Unit
  Tag := Unit
  Query := AdapterCall
  Answer := AdapterCall.Answer
  Fault := ConnectorFault

abbrev Program (α : Type) := Proc adapters α

/-- What a connector is built over: the channel's switch for writes, whether the channel is
configured, and the text that an exception is shown by. -/
structure Setup where
  (writeEnabled configured : Bool)
  safeError : ConnectorFault → String

def check {α : Type} (x : Except Fault α) : Program α := .ofExcept (x.mapError .raised)

def wooCommercePolicy : ProductWritePolicy where
  channelName := "WooCommerce"
  writePrice := true
  writeStock := true
  writeStatus := true
  numericIdentifier := true

def snappShopPolicy : ProductWritePolicy where
  channelName := "SnappShop"
  writePrice := true
  writeStock := true
  requireCompletePriceStock := true
  currency := some "IRR"
  unit := some "TOMAN"

def tapsiShopPolicy : ProductWritePolicy where
  channelName := "TapsiShop"
  writePrice := true
  writeStock := true
  requireCompletePriceStock := true
  supportsVariations := false
  currency := some "IRR"
  unit := some "RIAL"

def technolifePolicy : ProductWritePolicy where
  channelName := "Technolife"
  writePrice := true
  writeStock := true
  currency := some "IRR"
  unit := some "RIAL"

def domainError (refused : Bool) (message : String) : Except Fault Unit :=
  if refused then .error (.workspaceDomainError message) else .ok ()

def validateUpdate : Connector → WorkspaceWriteIntent → Except Fault Unit
  | .wooCommerce, update => do
    validateProductWrite u wooCommercePolicy update
    domainError (decide (update.productType = "variation") &&
      !isDigits u (update.parentExternalId.getD ""))
      "WooCommerce variation writes require a mapped numeric parent product ID."
  | .snappShop, update => validateProductWrite u snappShopPolicy update
  | .tapsiShop, update => validateProductWrite u tapsiShopPolicy update
  | .technolife, update => do
    validateProductWrite u technolifePolicy update
    domainError (strip u (update.parentExternalId.getD "").toList).isEmpty
      "Technolife writes require the parent productCode for read-back verification."

def responseId (response : Evidence) : Option String :=
  (["id", "request_id", "reference", "referenceCode"].filterMap fun key =>
    match response.lookup key with
    | none | some .null | some (.text "") => none
    | some value => some value.str).head?

/-- `_fetch_current_state`: a read that fails is an answer with errors only. -/
def fetchCurrentState (safeError : ConnectorFault → String) (request : CurrentStateRequest) :
    Program CurrentStateResult :=
  if request.entities.isEmpty then
    .done (failedCurrentState request "verification" "No current-state entities were requested.")
  else
    (Proc.request (I := adapters) (.fetchCurrentState request)).rescue fun e =>
      .done (failedCurrentState request "verification" (safeError e))

def truncated : Float64 → Except Fault Int
  | .finite x => .ok (if 0 ≤ x.val then ⌊x.val⌋ else ⌈x.val⌉)
  | _ => .error (.valueError "cannot convert float to integer")

def wooWriteItem (update : WorkspaceWriteIntent) : Except Fault WooWriteItem := do
  let proposedStock ← update.targetStock.mapM truncated
  pure {
    channelProductId := update.externalPrimaryId
    proposedPrice := update.targetPrice
    proposedStock
    proposedStockStatus := update.targetStatus.bind (wooStockStatus u)
    itemType := update.productType
    parentProductId := update.parentExternalId }

/-- What the write loop of WooCommerce has gathered. The dictionaries read their newest entry. -/
structure WooProgress where
  completed : List (Id × WorkspaceWriteResult) := []
  responses : List (Id × Evidence) := []
  successful : List WorkspaceWriteIntent := []

def WooProgress.accepted (progress : WooProgress) (update : WorkspaceWriteIntent)
    (response : Evidence) : WooProgress :=
  { progress with
    responses := (update.listingId, response) :: progress.responses
    successful := progress.successful ++ [update] }

variable (setup : Setup)

def refusedResult (update : WorkspaceWriteIntent) (e : ConnectorFault) : WorkspaceWriteResult :=
  match e with
  | .connectorError code _ retryable =>
    { listingId := update.listingId
      outcome := if code.deterministic then .failed else .reconciliationRequired
      errorCategory := some code.value
      errorMessage := some (setup.safeError e)
      retryEligible := retryable }
  | .raised _ =>
    { listingId := update.listingId
      outcome := .reconciliationRequired
      errorCategory := some "provider"
      errorMessage := some (setup.safeError e) }

def WooProgress.refused (progress : WooProgress) (update : WorkspaceWriteIntent)
    (e : ConnectorFault) : WooProgress :=
  { progress with
    completed := (update.listingId, refusedResult setup update e) :: progress.completed }

def wooWrites (setup : Setup) : List WorkspaceWriteIntent → WooProgress → Program WooProgress
  | [], progress => .done progress
  | update :: rest, progress =>
    (check (validateUpdate u .wooCommerce update)).bind fun _ =>
      Proc.tryElse
        ((check (wooWriteItem u update)).bind fun item =>
          Proc.request (I := adapters) (.executeItem item))
        (fun response => wooWrites setup rest (progress.accepted update response))
        fun e => wooWrites setup rest (progress.refused setup update e)

/-- The result of a write that the provider accepted, from what a read says of it. -/
def wooResult (state : CurrentStateResult) (responses : List (Id × Evidence))
    (update : WorkspaceWriteIntent) : WorkspaceWriteResult :=
  let error := state.errors.lookup update.listingId
  let matched := verified u .wooCommerce update state
  { listingId := update.listingId
    outcome := if matched then .verifiedApplied else .reconciliationRequired
    providerAccepted := true
    externalResponseId := responseId ((responses.lookup update.listingId).getD [])
    errorCategory := error.map fun _ => "verification"
    errorMessage := error.map (·.message)
    retryEligible := error.any (·.retryEligible)
    acceptedPrice := if matched then update.targetPrice else none }

/-- `WooCommerceWorkspaceConnector.apply_updates`. -/
def wooCommerceApply (updates : List WorkspaceWriteIntent) : Program (List WorkspaceWriteResult) := do
  let progress ← wooWrites u setup updates {}
  let request ← check (currentStateRequest .wooCommerce progress.successful)
  let state ← fetchCurrentState setup.safeError request
  let completed := progress.successful.reverse.map (fun update =>
    (update.listingId, wooResult u state progress.responses update)) ++ progress.completed
  check (updates.mapM fun update => match completed.lookup update.listingId with
    | some result => .ok result
    | none => .error (.keyError update.listingId))

/-- The two guards before a marketplace is written to. -/
def assertWritable (name : String) : Except Fault Unit := do
  domainError (!setup.writeEnabled)
    (name ++ " is Read-only. Enable channel writes before Apply.")
  domainError (!setup.configured) (name ++ " connector is not configured.")

/-- A request that carries price and stock whole. -/
def combinedRequest (connector : Connector) (priceUnit : String) (update : WorkspaceWriteIntent) :
    ChannelProductUpdate where
  channelId := connector.channelId
  identifiers := { externalProductId := some update.externalPrimaryId, sku := update.sku }
  price := priceSent update
  stockQuantity := stockSent update
  currency := "IRR"
  priceUnit := priceUnit
  idempotencyKey := update.idempotencyKey

def snappShopRequest : WorkspaceWriteIntent → ChannelProductUpdate :=
  combinedRequest .snappShop "toman"

def tapsiShopRequest : WorkspaceWriteIntent → ChannelProductUpdate :=
  combinedRequest .tapsiShop "rial"

def technolifeRequest (update : WorkspaceWriteIntent) : ChannelProductUpdate where
  channelId := Connector.technolife.channelId
  identifiers := {
    externalProductId := some update.externalPrimaryId
    sku := update.sku
    productNumber := update.parentExternalId
    parentProductNumber := update.parentExternalId }
  price := update.targetPrice
  stockQuantity := update.targetStock
  currency := "IRR"
  priceUnit := "RIAL"
  idempotencyKey := update.idempotencyKey

/-- `updates[offset : offset + size]` for every offset of `range(0, len(updates), size)`. -/
def batchesOf {α : Type} (size : Nat) (updates : List α) : List (List α) :=
  (List.range ((updates.length + size - 1) / size)).map fun i =>
    (updates.drop (i * size)).take size

/-- `zip(xs, ys, strict=True)`. -/
def zipStrict {α β : Type} (xs : List α) (ys : List β) : Except Fault (List (α × β)) :=
  if xs.length = ys.length then .ok (xs.zip ys)
  else .error (.valueError "zip() arguments have different lengths")

def validateAll (connector : Connector) : List WorkspaceWriteIntent → Except Fault Unit
  | [] => .ok ()
  | update :: rest => do
    validateUpdate u connector update
    validateAll connector rest

def maximumBatch : Nat := 50

abbrev ProviderOutcome := WorkspaceWriteIntent × ChannelProductUpdateResult

def snappShopWrites : List (List WorkspaceWriteIntent) → List ProviderOutcome → Program (List ProviderOutcome)
  | [], outcomes => .done outcomes
  | batch :: rest, outcomes =>
    (check (validateAll u .snappShop batch)).bind fun _ =>
      (Proc.request (I := adapters) (.updateProducts (batch.map snappShopRequest))).bind
        fun results => (check (zipStrict batch results)).bind fun paired =>
          snappShopWrites rest (outcomes ++ paired)

/-- The result that SnappShop and Technolife make of a provider's own. -/
def combinedResult (connector : Connector) (state : CurrentStateResult)
    (outcome : ProviderOutcome) : WorkspaceWriteResult :=
  let (update, result) := outcome
  let stateError := if result.success then state.errors.lookup update.listingId else none
  let matched := result.success && verified u connector update state
  { listingId := update.listingId
    outcome := if matched then .verifiedApplied
      else if result.success then .reconciliationRequired else .failed
    providerAccepted := result.success
    externalResponseId := responseId result.raw
    errorCategory := match result.error with
      | some error => some error.category.value
      | none => stateError.map fun _ => "verification"
    errorMessage := match result.error with
      | some error => some error.message
      | none => stateError.map (·.message)
    retryEligible := match result.error with
      | some error => error.safeToRetry
      | none => stateError.any (·.retryEligible)
    acceptedPrice := if matched then update.targetPrice else none
    acceptedStock := if matched then update.targetStock else none }

/-- The read after a write, of the updates the provider took, and the results. -/
def combinedResults (connector : Connector) (outcomes : List ProviderOutcome) :
    Program (List WorkspaceWriteResult) := do
  let successful := (outcomes.filter (·.2.success)).map (·.1)
  let request ← check (currentStateRequest connector successful)
  let state ← fetchCurrentState ConnectorFault.message request
  pure (outcomes.map (combinedResult u connector state))

/-- `SnappShopWorkspaceConnector.apply_updates`. -/
def snappShopApply (updates : List WorkspaceWriteIntent) : Program (List WorkspaceWriteResult) := do
  check (assertWritable setup "SnappShop")
  let outcomes ← snappShopWrites u (batchesOf maximumBatch updates) []
  combinedResults u .snappShop outcomes

def ambiguous (name : String) (update : WorkspaceWriteIntent) : WorkspaceWriteResult where
  listingId := update.listingId
  outcome := .reconciliationRequired
  errorCategory := some "provider_contract"
  errorMessage := some (name ++ " returned an ambiguous item count.")

def tapsiShopResult (update : WorkspaceWriteIntent) : List ChannelProductUpdateResult → WorkspaceWriteResult
  | [result] =>
    { listingId := update.listingId
      outcome := if result.success then .reconciliationRequired else .failed
      providerAccepted := result.success
      externalResponseId := responseId result.raw
      errorCategory := result.error.map (·.category.value)
      errorMessage := some <| match result.error with
        | some error => error.message
        | none => "TapsiShop accepted the write but exact read-back is unavailable." }
  | _ => ambiguous "TapsiShop" update

def tapsiShopWrites : List WorkspaceWriteIntent → List WorkspaceWriteResult →
    Program (List WorkspaceWriteResult)
  | [], output => .done output
  | update :: rest, output =>
    (check (validateUpdate u .tapsiShop update)).bind fun _ =>
      (Proc.request (I := adapters) (.updateProducts [tapsiShopRequest update])).bind
        fun results => tapsiShopWrites rest (output ++ [tapsiShopResult update results])

/-- `TapsiShopWorkspaceConnector.apply_updates`. The request of the read is built before the
writes, and the read itself asks nobody. -/
def tapsiShopApply (updates : List WorkspaceWriteIntent) : Program (List WorkspaceWriteResult) := do
  check (assertWritable setup "TapsiShop")
  let _ ← check (currentStateRequest .tapsiShop updates)
  tapsiShopWrites u updates []

/-- `TechnolifeWorkspaceConnector.apply_updates`. -/
def technolifeApply (updates : List WorkspaceWriteIntent) : Program (List WorkspaceWriteResult) := do
  check (assertWritable setup "Technolife")
  check (validateAll u .technolife updates)
  let results ← Proc.request (I := adapters) (.updateProducts (updates.map technolifeRequest))
  if results.length = updates.length then combinedResults u .technolife (updates.zip results)
  else pure (updates.map (ambiguous "Technolife"))

def applyUpdates : Connector → List WorkspaceWriteIntent → Program (List WorkspaceWriteResult)
  | .wooCommerce => wooCommerceApply u setup
  | .snappShop => snappShopApply u setup
  | .tapsiShop => tapsiShopApply u setup
  | .technolife => technolifeApply u setup

/-- The result of a verification alone. -/
def verifyResult (connector : Connector) (state : CurrentStateResult)
    (update : WorkspaceWriteIntent) : WorkspaceWriteResult :=
  let error := state.errors.lookup update.listingId
  let matched := verified u connector update state
  { listingId := update.listingId
    outcome := if matched then .verifiedApplied else .reconciliationRequired
    errorCategory := error.map fun _ => "verification"
    errorMessage := error.map (·.message)
    retryEligible := error.any (·.retryEligible)
    acceptedPrice := if matched then update.targetPrice else none
    acceptedStock := if matched && decide (connector ≠ .wooCommerce) then update.targetStock
      else none }

def unverifiable (update : WorkspaceWriteIntent) : WorkspaceWriteResult where
  listingId := update.listingId
  outcome := .reconciliationRequired
  providerAccepted := true
  errorCategory := some "verification_unavailable"
  errorMessage := some "TapsiShop has no exact product read-back endpoint."

/-- `verify_updates` of a connector that reads back, once it has what it needs to ask. -/
def readBack (connector : Connector) (safeError : ConnectorFault → String)
    (updates : List WorkspaceWriteIntent) : Program (List WorkspaceWriteResult) := do
  let request ← check (currentStateRequest connector updates)
  let state ← fetchCurrentState safeError request
  pure (updates.map (verifyResult u connector state))

def verifyUpdates : Connector → List WorkspaceWriteIntent → Program (List WorkspaceWriteResult)
  | .wooCommerce, updates => readBack u .wooCommerce setup.safeError updates
  | .snappShop, updates => do
    check (domainError (!setup.configured) "SnappShop connector is not configured.")
    readBack u .snappShop ConnectorFault.message updates
  | .tapsiShop, updates => do
    let _ ← check (currentStateRequest .tapsiShop updates)
    pure (updates.map unverifiable)
  | .technolife, updates => do
    check (domainError (!setup.configured) "Technolife connector is not configured.")
    readBack u .technolife ConnectorFault.message updates

end FlowHub.Connectors
