import FlowHub.Connectors.CurrentState
import FlowHub.Python.Coercion
import FlowHub.Table

namespace FlowHub.ProductPricing

open Python Connectors Channels

/-- What the service takes from the libraries and the configuration: `currency` is `server.currency`,
or EUR, and `timeText` is `str` of a datetime. -/
structure Runtime where
  unicode : Unicode
  printable : Char → Bool
  hash : Hashing
  timeText : Time → String
  currency : String

structure DlProductCache where
  connectorId : Id
  productId : String
  (sku price lastPrice regularPrice salePrice : Option String)
  stockQty : Option Int
  stockStatus : Option String
  freshness : String
  lastSuccessfulRead : Option Time
  recordHash : Option String
  deriving DecidableEq

/-- The rows in the order of their ids. -/
abbrev Cache := List DlProductCache

def DlProductCache.key (row : DlProductCache) : Id × String := (row.connectorId, row.productId)

def Cache.row (cache : Cache) (connectorId : Id) (productId : String) : Option DlProductCache :=
  Table.get DlProductCache.key cache (connectorId, productId)

structure IntegrationConnectorInstance where
  (enabled readOnly : Bool)

/-- What the editor reads. -/
structure Shop where
  cache : Cache
  instances : Connector → Option IntegrationConnectorInstance

/-- A price or a quantity, or a status. -/
inductive FieldValue where
  | number (x : Float64)
  | text (s : String)

def FieldValue.number? : FieldValue → Option Float64
  | .number x => some x
  | .text _ => none

def FieldValue.text? : FieldValue → Option String
  | .number _ => none
  | .text s => some s

inductive ValidationState where
  | valid | error | readOnly | disconnected
  deriving DecidableEq

structure FieldState where
  canWrite : Bool
  validationState : ValidationState
  validationMessage : Option String
  (currentValue proposedValue : Option FieldValue)
  (currency unit : String)
  outboundValue : Option FieldValue
  outboundUnit : String
  pendingChange : Bool

structure ChannelState where
  channel : Connector
  (channelProductId sku staleToken : String)
  fields : Field → FieldState

/-- The channels that products are read from, in the order of the registry. -/
def directory : List Connector := [.wooCommerce, .snappShop, .tapsiShop, .technolife]

def writes : Connector → Field → Bool
  | .wooCommerce, _ => true
  | _, field => decide (field ≠ .status)

section

variable (rt : Runtime)

/-- `_currency_unit_for`. -/
def currencyUnit : Connector → String × String
  | .wooCommerce => (rt.currency, rt.currency)
  | .snappShop => ("IRR", "TOMAN")
  | .tapsiShop => ("IRR", "RIAL")
  | .technolife => ("IRR", "RIAL")

def price (row : DlProductCache) : Option Float64 :=
  [row.regularPrice, row.price, row.lastPrice].findSome? fun raw =>
    raw.bind fun text => float rt.unicode (withoutCommas text)

def stock (row : DlProductCache) : Option Float64 := row.stockQty.map fun n => .ofRat n

/-- `str(value or "")`, of a quantity and of a time. -/
def quantityText : Option Int → String
  | none | some 0 => ""
  | some n => toString n

def staleToken : Option DlProductCache → String
  | none => "missing"
  | some row => rt.hash.text ("|".intercalate [row.connectorId, row.productId, row.sku.getD "",
      row.regularPrice.getD "", row.price.getD "", row.salePrice.getD "", quantityText row.stockQty,
      row.stockStatus.getD "", row.freshness, (row.lastSuccessfulRead.map rt.timeText).getD "",
      row.recordHash.getD ""])

def fieldBase (row : Option DlProductCache) (instance_ : Option IntegrationConnectorInstance)
    (supported : Bool) (value : Option FieldValue) (currency unit : String) : FieldState :=
  let writable := instance_.any fun i => i.enabled && !i.readOnly
  let canWrite := row.isSome && writable && supported
  { canWrite
    validationState :=
      if !supported then .readOnly
      else if canWrite then .valid
      else if row.isSome then .readOnly else .disconnected
    validationMessage :=
      if !supported then some "Channel does not support writing this field."
      else if canWrite then none
      else if row.isSome then some "Channel is disabled, disconnected, or read-only."
      else some "Channel has no synchronized product row."
    currentValue := value
    proposedValue := value
    currency
    unit
    outboundValue := value
    outboundUnit := unit
    pendingChange := false }

def statusValues : List String := ["instock", "outofstock"]

def fieldState (channel : Connector) (row : Option DlProductCache)
    (instance_ : Option IntegrationConnectorInstance) : Field → FieldState
  | .price =>
    let (currency, unit) := currencyUnit rt channel
    fieldBase row instance_ (writes channel .price) ((row.bind (price rt)).map .number) currency unit
  | .stock =>
    fieldBase row instance_ (writes channel .stock) ((row.bind stock).map .number) "" "units"
  | .status =>
    let current := (row.bind (·.stockStatus)).filter (· ∈ statusValues)
    fieldBase row instance_ (writes channel .status) (current.map .text) "" ""

def canonicalRow (cache : Cache) (productId : String) : Option DlProductCache :=
  let rows := cache.filter fun row => decide (row.productId = productId)
  (rows.find? fun row => decide (row.connectorId = "woocommerce:primary")).or rows.head?

def channelRow (cache : Cache) (canonical : DlProductCache) (channel : Connector) : Option DlProductCache :=
  let candidates := cache.filter fun row => decide (row.connectorId = channel.channelId)
  (candidates.find? fun row => decide (row.productId = canonical.productId)).or
    (candidates.find? fun row => decide (canonical.sku.getD "" ≠ "") && decide (row.sku = canonical.sku))

def channelState (shop : Shop) (canonical : DlProductCache) (channel : Connector) : ChannelState :=
  let row := channelRow shop.cache canonical channel
  { channel
    channelProductId := (row.map (·.productId)).getD ""
    sku := (row.bind (·.sku)).getD ""
    staleToken := staleToken rt row
    fields := fieldState rt channel row (shop.instances channel) }

def notFound (message : String) : Fault := .httpException 404 message

def unprocessable (message : String) : Fault := .httpException 422 message

def load (shop : Shop) (productId : String) : Except Fault (List ChannelState) :=
  match canonicalRow shop.cache productId with
  | none => .error (notFound "Product not found.")
  | some canonical => .ok (directory.map (channelState rt shop canonical))

def version (channels : List ChannelState) : String :=
  rt.hash.text ("|".intercalate (channels.map fun c => c.channel.channelId ++ ":" ++ c.staleToken))

end

/-- What a change proposes for its field. -/
inductive Proposal where
  | price (value : Float64)
  | stock (value : Float64)
  | status (value : String)

def Proposal.field : Proposal → Field
  | .price _ => .price
  | .stock _ => .stock
  | .status _ => .status

structure FieldProposal where
  channelId : Id
  proposal : Proposal
  staleToken : String
  unit : Option String
  specialPrice : Option Float64

section

variable (rt : Runtime)

def textOr (raw : Json) (key default : String) : String :=
  let value := raw.get key
  if truthy value then str rt.printable value else default

def stripped (text : String) : String := String.ofList (strip rt.unicode text.toList)

/-- `float(value)`, or the answer that it is not a number. -/
def numeric (name : String) (value : Json) : Except Fault Float64 :=
  match floatOf rt.unicode value with
  | .ok x => .ok x
  | .error .overflow => .error (.runtimeError "int too large to convert to float")
  | .error _ => .error (unprocessable (name ++ " must be numeric."))

/-- The field and the value of a change. -/
def proposalOf (raw : Json) : Except Fault Proposal :=
  let field := stripped rt (textOr rt raw "field" "price")
  if field = "status" then .ok (.status (stripped rt (textOr rt raw "proposedValue" "")))
  else if field = "price" then (numeric rt field (raw.get "proposedValue")).map .price
  else if field = "stock" then (numeric rt field (raw.get "proposedValue")).map .stock
  else .error (unprocessable ("Unsupported field: " ++ field))

def specialPrice (raw : Json) : Except Fault (Option Float64) :=
  match raw.get "specialPrice" with
  | .null | .str "" => .ok none
  | value => (numeric rt "Special price" value).map some

def proposals (changes : List Json) : Except Fault (List FieldProposal) :=
  changes.mapM fun raw => do
    let proposal ← proposalOf rt raw
    let special ← specialPrice rt raw
    let unit := stripped rt (textOr rt raw "unit" "")
    pure {
      channelId := textOr rt raw "channelId" ""
      proposal
      staleToken := textOr rt raw "staleToken" ""
      unit := if unit = "" then none else some unit
      specialPrice := special }

/-- `int(value) != value` and `int(value) % 10` of a finite number. -/
def fractional (x : Float64) : Bool := !isInteger x

def lastDigit : Float64 → Int
  | .finite x => Int.tdiv x.val.num x.val.den % 10
  | _ => 0

def when (condition : Bool) (message : String) : List String := if condition then [message] else []

def tapsiShopErrors (value : Float64) : List String :=
  if fractional value then ["TapsiShop rial values must be whole numbers."]
  else when (decide (lastDigit value ≠ 0))
    "TapsiShop rial values must preserve toman/rial precision and be divisible by 10."

def above (special : Option Float64) (value : Float64) : Bool := special.any fun x => value.lt x

variable (proposal : FieldProposal)

/-- The errors of `_validate_price_proposal`. -/
def priceErrors (value : Float64) (field : FieldState) : List String :=
  (if notAmount value then ["Price must be numeric and non-negative."]
    else when (fractional value) "Price must be a whole number.") ++
  when (above proposal.specialPrice value) "Special price must not exceed regular price." ++
  when (proposal.unit.any fun unit =>
      decide (unit ≠ "") && decide (rt.unicode.upper unit ≠ rt.unicode.upper field.unit))
    ("Expected " ++ field.unit ++ " for " ++ proposal.channelId ++ ".") ++
  (if value.isFinite && decide (proposal.channelId = "snappshop:main") then
    when (fractional value) "SnappShop toman values must be whole numbers." else []) ++
  (if value.isFinite && decide (proposal.channelId = "tapsishop:main") then tapsiShopErrors value
    else [])

def stockErrors (value : Float64) : List String :=
  when (notAmount value || fractional value) "Stock quantity must be a non-negative whole number."

def statusErrors (value : String) : List String :=
  when (decide (value ∉ statusValues)) "Stock status must be exactly 'instock' or 'outofstock'."

def outboundPrice (channelId : Id) (value : Float64) : Except Fault Float64 :=
  if channelId = "snappshop:main" then
    if fractional value then .error (unprocessable "SnappShop toman values must be integers.")
    else .ok value
  else if channelId = "tapsishop:main" then
    if fractional value then .error (unprocessable "TapsiShop rial values must be integers.")
    else if lastDigit value ≠ 0 then
      .error (unprocessable "TapsiShop rial values must be divisible by 10.")
    else .ok value
  else .ok value

def numberChanges (current : Option FieldValue) (value : Float64) : Bool :=
  match current.bind FieldValue.number? with
  | none => true
  | some x => (Float64.ofRat (1 / 10000)).lt (x.sub value).abs

def statusChanges (current : Option FieldValue) (value : String) : Bool :=
  decide (current.bind FieldValue.text? ≠ some value)

def refused : List String :=
  ["Channel does not support writing this field, or is disabled/disconnected/read-only."]

/-- What the validation of a proposal makes of it. -/
structure Verdict where
  errors : List String
  (proposed outbound : FieldValue)
  pending : Bool

/-- The three validations of `_apply_field_proposal`. -/
def verdict (field : FieldState) : Except Fault Verdict :=
  let base := if field.canWrite then [] else refused
  match proposal.proposal with
  | .price value =>
    let errors := base ++ priceErrors rt proposal value field
    (if errors.isEmpty then outboundPrice proposal.channelId value else .ok value).map
      fun outbound => ⟨errors, .number value, .number outbound, numberChanges field.currentValue value⟩
  | .stock value => .ok ⟨base ++ stockErrors value, .number value, .number value,
      numberChanges field.currentValue value⟩
  | .status value => .ok ⟨base ++ statusErrors value, .text value, .text value,
      statusChanges field.currentValue value⟩

def applyFieldProposal (field : FieldState) : Except Fault FieldState :=
  (verdict rt proposal field).map fun v => { field with
    proposedValue := some v.proposed
    outboundValue := some v.outbound
    pendingChange := v.pending
    validationState := if v.errors.isEmpty then .valid else .error
    validationMessage := if v.errors.isEmpty then none else some ("; ".intercalate v.errors) }

def stale (channelId : Id) : Fault :=
  .httpException 409 (channelId ++ " changed after the editor was opened.")

/-- One round of `_validate_proposals`. -/
def validateProposal (channels : List ChannelState) (proposal : FieldProposal) :
    Except Fault (List ChannelState) :=
  match channels.find? fun c => decide (c.channel.channelId = proposal.channelId) with
  | none => .error (unprocessable ("Unknown channel: " ++ proposal.channelId))
  | some channel =>
    if proposal.staleToken ≠ channel.staleToken then .error (stale proposal.channelId)
    else do
      let field ← applyFieldProposal rt proposal (channel.fields proposal.proposal.field)
      .ok (channels.map fun c =>
        if c.channel = channel.channel then
          { c with fields := Function.update c.fields proposal.proposal.field field }
        else c)

def validateProposals (channels : List ChannelState) (proposals : List FieldProposal) :
    Except Fault (List ChannelState) :=
  proposals.foldlM (validateProposal rt) channels

end

inductive ItemStatus where
  | pending | applied | failed | reconciliationRequired
  | unsettled (outcome : WriteOutcome)
  deriving DecidableEq

structure ProductPriceOperationItem where
  id : Nat
  (operationId channelId : Id)
  (channelProductId sku : String)
  field : Field
  (currentValue proposedValue : Option Float64)
  (currentStatusValue proposedStatusValue : Option String)
  (currency unit : String)
  outboundValue : Option Float64
  (outboundUnit staleToken : String)
  status : ItemStatus := .pending
  deriving DecidableEq

inductive OperationStatus where
  | dryRunReady | approved | reconciliationRequired | applied | partiallyFailed | failed
  deriving DecidableEq

structure ProductPriceOperation where
  id : Id
  productId : String
  status : OperationStatus
  items : List ProductPriceOperationItem
  deriving DecidableEq

/-- A field of `_flatten_changed_fields`. -/
def ChannelState.changed (c : ChannelState) (field : Field) : Bool :=
  (c.fields field).pendingChange && decide ((c.fields field).validationState = .valid)

def flattenChangedFields (channels : List ChannelState) : List (ChannelState × Field) :=
  channels.flatMap fun c => ([.price, .stock, .status].filter c.changed).map (c, ·)

/-- The row that `dry_run` adds of a changed field. -/
def newItem (operationId : Id) (id : Nat) (c : ChannelState) (field : Field) : ProductPriceOperationItem :=
  let state := c.fields field
  let numbers (value : Option FieldValue) :=
    if field = .status then none else value.bind FieldValue.number?
  let texts (value : Option FieldValue) :=
    if field = .status then value.bind FieldValue.text? else none
  { id
    operationId
    channelId := c.channel.channelId
    channelProductId := c.channelProductId
    sku := c.sku
    field
    currentValue := numbers state.currentValue
    proposedValue := numbers state.proposedValue
    currentStatusValue := texts state.currentValue
    proposedStatusValue := texts state.proposedValue
    currency := state.currency
    unit := state.unit
    outboundValue := numbers state.outboundValue
    outboundUnit := state.outboundUnit
    staleToken := c.staleToken }

/-- `dry_run`, whose items take the ids from `firstId` on. -/
def dryRun (rt : Runtime) (shop : Shop) (productId opened : String) (changes : List Json)
    (operationId : Id) (firstId : Nat) : Except Fault ProductPriceOperation := do
  let states ← load rt shop productId
  let proposals ← proposals rt changes
  if opened ≠ version rt states then
    .error (.httpException 409 "Product Channel fields changed after the editor was opened.")
  else
    let validated ← validateProposals rt states proposals
    let changed := flattenChangedFields validated
    if changed.isEmpty then
      .error (unprocessable "No valid Channel field changes were submitted.")
    else .ok {
      id := operationId
      productId := ((canonicalRow shop.cache productId).map (·.productId)).getD ""
      status := .dryRunReady
      items := changed.zipIdx.map fun (c, i) => newItem operationId (firstId + i) c.1 c.2 }

end FlowHub.ProductPricing
