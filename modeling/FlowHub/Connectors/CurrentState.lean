import FlowHub.Domain
import FlowHub.Python.Json
import FlowHub.Python.Text

namespace FlowHub.Channels

open Python

variable (u : Unicode)

structure ProductWritePolicy where
  channelName : String
  (writePrice writeStock : Bool)
  writeStatus : Bool := false
  requireCompletePriceStock : Bool := false
  supportsVariations : Bool := true
  currency : Option String := none
  unit : Option String := none
  numericIdentifier : Bool := false
  requirePrice : Bool := false

variable (policy : ProductWritePolicy)

/-- `raise WorkspaceDomainError` under the channel's name. -/
def ProductWritePolicy.refuse (refused : Bool) (text : String) : Except Fault Unit :=
  if refused then .error (.workspaceDomainError (policy.channelName ++ " " ++ text)) else .ok ()

variable (update : WorkspaceWriteIntent)

/-- `update.target_price if update.target_price is not None else update.current_price`. -/
def priceSent : Option Float64 :=
  update.targetPrice.or update.currentPrice

def stockSent : Option Float64 :=
  update.targetStock.or update.currentStock

/-- `not math.isfinite(x) or x < 0`. -/
def notAmount (x : Float64) : Bool := !x.isFinite || x.lt .zero

def isInteger : Float64 → Bool
  | .finite x => decide (x.val.den = 1)
  | _ => false

def unlike (required : String) (text : Option String) : Bool :=
  decide (u.upper (text.getD "") ≠ u.upper required)

/-- The currency and the unit that a policy asks of a new price. -/
def validatePriceUnit (currency : String) : Except Fault Unit := do
  policy.refuse (unlike u currency update.currency) ("prices require currency " ++ currency ++ ".")
  match policy.unit with
  | some unit => policy.refuse (unlike u unit update.unit) ("prices require unit " ++ unit ++ ".")
  | none => pure ()

def validateProductWrite : Except Fault Unit := do
  let identifier := String.ofList (strip u update.externalPrimaryId.toList)
  policy.refuse (identifier.isEmpty) "product identifier is required."
  policy.refuse (policy.numericIdentifier && !isDigits u identifier)
    "primary identifier must be numeric."
  policy.refuse (!policy.supportsVariations &&
    (decide (update.productType = "variation") || update.parentExternalId.isSome))
    "variation writes are unavailable."
  policy.refuse (update.targetPrice.isSome && !policy.writePrice) "price writes are unavailable."
  policy.refuse (update.targetStock.isSome && !policy.writeStock) "stock writes are unavailable."
  policy.refuse (update.targetStatus.isSome && !policy.writeStatus)
    "status writes are unavailable."
  policy.refuse (policy.requirePrice && update.targetPrice.isNone)
    "update requires a target price."
  policy.refuse (policy.requireCompletePriceStock &&
    ((priceSent update).isNone || (stockSent update).isNone))
    "updates require explicit price and stock state."
  policy.refuse ((priceSent update).any notAmount) "price must be a non-negative finite number."
  policy.refuse ((stockSent update).any fun stock => notAmount stock || !isInteger stock)
    "stock must be a non-negative integer."
  match update.targetPrice, policy.currency with
  | some _, some currency => validatePriceUnit u policy update currency
  | _, _ => pure ()

end FlowHub.Channels

namespace FlowHub.Connectors

open Python Channels List

variable (u : Unicode)

/-- The connectors of the workspace. -/
inductive Connector where
  | wooCommerce | snappShop | tapsiShop | technolife
  deriving DecidableEq

def Connector.channelId : Connector → Id
  | .wooCommerce => "woocommerce:primary"
  | .snappShop => "snappshop:main"
  | .tapsiShop => "tapsishop:main"
  | .technolife => "technolife:main"

structure CurrentStateIdentity where
  key : Id
  externalId : String
  (parentExternalId sku : Option String)

/-- A request names each of its entities once, and each by an identifier of the provider. -/
structure CurrentStateRequest where
  channelId : Id
  entities : List CurrentStateIdentity
  requiredFields : List Field
  keyed : ∀ entity ∈ entities, entity.key ≠ ""
  distinct : (entities.map CurrentStateIdentity.key).Nodup
  identified : ∀ entity ∈ entities, entity.externalId ≠ ""

structure CurrentStateRecord where
  (provider externalId : String)
  parentExternalId : Option String := none
  price : Option ℚ := none
  stock : Option Float64 := none
  status : Option String := none
  currency : Option String := none
  unit : Option String := none
  productType : Option String := none
  deriving DecidableEq

structure CurrentStateError where
  (category message : String)
  retryEligible : Bool := false
  deriving DecidableEq

/-- No entity has both a record and an error. -/
structure CurrentStateResult where
  records : List (Id × CurrentStateRecord)
  errors : List (Id × CurrentStateError)
  disjoint : ∀ key ∈ records.map Prod.fst, key ∉ errors.map Prod.fst

/-- `failed_current_state` and `unsupported_current_state`. -/
def failedCurrentState (request : CurrentStateRequest) (category message : String) : CurrentStateResult where
  records := []
  errors := request.entities.map fun entity => (entity.key, { category, message })
  disjoint _ h := absurd h not_mem_nil

/-- `canonical_decimal` of a float: the number that its shortest text spells. -/
def canonicalDecimal (value : Float64) : Option ℚ :=
  match decimal u (withoutCommas (floatRepr value)) with
  | some (.finite q) => some q
  | _ => none

variable (update : WorkspaceWriteIntent)

/-- `target is not None`, field by field. -/
def targeted : Field → Bool
  | .price => update.targetPrice.isSome
  | .stock => update.targetStock.isSome
  | .status => update.targetStatus.isSome

/-- `_governed_fields`: the fields some update targets, and all three where none does. An intent
has no marker of its own for them. -/
def governedFields (updates : List WorkspaceWriteIntent) : List Field :=
  let fields := [Field.price, .stock, .status].filter fun field => updates.any (targeted · field)
  if fields.isEmpty then [.price, .stock, .status] else fields

def identityOf : CurrentStateIdentity where
  key := update.listingId
  externalId := update.externalPrimaryId
  parentExternalId := update.parentExternalId
  sku := update.sku

def currentStateRequest (connector : Connector) (updates : List WorkspaceWriteIntent) :
    Except Fault CurrentStateRequest :=
  let entities := updates.map identityOf
  if keyed : ∀ entity ∈ entities, entity.key ≠ "" then
    if distinct : (entities.map CurrentStateIdentity.key).Nodup then
      if identified : ∀ entity ∈ entities, entity.externalId ≠ "" then
        .ok ⟨connector.channelId, entities, governedFields updates, keyed, distinct, identified⟩
      else .error (.valueError "Current-state external identifiers are required.")
    else .error (.valueError "Current-state entity keys must be unique.")
  else .error (.valueError "Current-state entity keys are required.")

def wooStockStatus (value : String) : Option String :=
  match u.casefold (String.ofList (strip u value.toList)) with
  | "in_stock" | "instock" => some "instock"
  | "out_of_stock" | "outofstock" => some "outofstock"
  | _ => none

def sameStock : Option Float64 → Option Float64 → Bool
  | none, none => true
  | some a, some b => a.eq b
  | _, _ => false

def wooCommerceMatches (record : CurrentStateRecord) : Bool :=
  let expectedParent :=
    if update.productType = "variation" then update.parentExternalId else none
  let fields := governedFields [update]
  decide (record.provider = "woocommerce") &&
    decide (record.externalId = update.externalPrimaryId) &&
    decide (record.parentExternalId = expectedParent) &&
    (record.productType.isNone || decide (record.productType = some update.productType)) &&
    (decide (.price ∉ fields) ||
      decide (record.price = update.targetPrice.bind (canonicalDecimal u))) &&
    (decide (.stock ∉ fields) || sameStock record.stock update.targetStock) &&
    (decide (.status ∉ fields) ||
      decide (record.status = update.targetStatus.bind (wooStockStatus u)))

/-- What `_snappshop_state_matches` and `_technolife_state_matches` have in common: both compare
price and stock whole. -/
def combinedMatches (provider : String) (unitMatches : String → Bool)
    (update : WorkspaceWriteIntent) (record : CurrentStateRecord) : Bool :=
  decide (record.provider = provider) &&
    decide (record.externalId = update.externalPrimaryId) &&
    decide (record.parentExternalId = update.parentExternalId) &&
    decide (record.price = (priceSent update).bind (canonicalDecimal u)) &&
    sameStock record.stock (stockSent update) &&
    decide (record.currency = some "IRR") &&
    unitMatches (record.unit.getD "")

def snappShopMatches : WorkspaceWriteIntent → CurrentStateRecord → Bool :=
  combinedMatches u "snappshop" fun unit => decide (u.lower unit = "toman")

def technolifeMatches : WorkspaceWriteIntent → CurrentStateRecord → Bool :=
  combinedMatches u "technolife" fun unit => decide (u.upper unit = "RIAL")

/-- The match of a connector that reads back. TapsiShop does not. -/
def stateMatches : Connector → WorkspaceWriteIntent → CurrentStateRecord → Bool
  | .wooCommerce => wooCommerceMatches u
  | .snappShop => snappShopMatches u
  | .technolife => technolifeMatches u
  | .tapsiShop => fun _ _ => false

/-- The match against what a read answered for the update's own listing. -/
def verified (connector : Connector) (update : WorkspaceWriteIntent) (state : CurrentStateResult) : Bool :=
  (state.records.lookup update.listingId).any (stateMatches u connector update)

def CurrentStateResult.postInit (records : List (Id × CurrentStateRecord))
    (errors : List (Id × CurrentStateError)) (entitiesRequested entitiesReturned : Nat) :
    Except Fault CurrentStateResult :=
  if disjoint : ∀ key ∈ records.map Prod.fst, key ∉ errors.map Prod.fst then
    if records.length + errors.length ≠ entitiesRequested then
      .error (.valueError "Current-state results require one record or error per entity.")
    else if records.length ≠ entitiesReturned then
      .error (.valueError "Current-state transport returned count does not match records.")
    else .ok ⟨records, errors, disjoint⟩
  else .error (.valueError "Current-state entities cannot have both a record and an error.")

/-- Each entity of a request has one record or one error. -/
def CurrentStateResult.OneEach (request : CurrentStateRequest) (result : CurrentStateResult) : Prop :=
  (result.records.map Prod.fst ++ result.errors.map Prod.fst).Perm
    (request.entities.map CurrentStateIdentity.key)

theorem CurrentStateResult.postInit_oneEach
    {records : List (Id × CurrentStateRecord)} {errors : List (Id × CurrentStateError)}
    (h : (records.map Prod.fst ++ errors.map Prod.fst).Perm
      (request.entities.map CurrentStateIdentity.key)) :
    ∃ result, CurrentStateResult.postInit records errors request.entities.length records.length =
      .ok result ∧ result.records = records ∧ result.errors = errors ∧ result.OneEach request := by
  have hdisjoint : ∀ key ∈ records.map Prod.fst, key ∉ errors.map Prod.fst :=
    fun key hrecord herror =>
      disjoint_of_nodup_append (h.nodup_iff.mpr request.distinct) hrecord herror
  have hlength : records.length + errors.length = request.entities.length := by
    simpa using h.length_eq
  refine ⟨⟨records, errors, hdisjoint⟩, ?_, rfl, rfl, h⟩
  unfold CurrentStateResult.postInit
  rw [dif_pos hdisjoint, if_neg (not_not.mpr hlength), if_neg (not_not.mpr rfl)]

/-- The request for one of its entities alone. -/
def CurrentStateRequest.only (request : CurrentStateRequest) {e : CurrentStateIdentity}
    (he : e ∈ request.entities) : CurrentStateRequest where
  channelId := request.channelId
  entities := [e]
  requiredFields := request.requiredFields
  keyed := by
    intro entity hentity
    rw [mem_singleton.mp hentity]
    exact request.keyed e he
  distinct := nodup_singleton _
  identified := by
    intro entity hentity
    rw [mem_singleton.mp hentity]
    exact request.identified e he

/-- What a result has under a key. -/
def CurrentStateResult.Gives (result : CurrentStateResult) (key : Id) :
    Except CurrentStateError CurrentStateRecord → Prop
  | .ok record => (key, record) ∈ result.records
  | .error error => (key, error) ∈ result.errors

end FlowHub.Connectors
