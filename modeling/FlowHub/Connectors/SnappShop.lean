import FlowHub.Channels.Contracts
import FlowHub.Loop
import FlowHub.Python.Coercion

namespace FlowHub.Connectors

open Python Channels

namespace SnappShop

/-- The tables of Python's texts, and the first `page` among the parameters of a link, which raises for
what is no address. -/
structure Runtime where
  unicode : Unicode
  printable : Char → Bool
  pageOfLink : String → Except Unit (Option String)

variable (rt : Runtime)

/-- Why no connection came about. -/
inductive ConnectionFailure where
  | dns | tls | other

/-- What comes of a request: a response with its status and its body as JSON, if it is, or what the
client raises. -/
inductive Exchange where
  | response (status : Nat) (body : Option Json)
  | timeout
  | unconnected (failure : ConnectionFailure)
  | httpError | raises

/-- A `SnappShopConnectorError`, or any other exception. -/
inductive Failure where
  | connectorError (category : ConnectorErrorCategory) (message : String) (retryable : Bool := false)
  | raised

/-- `_error`. -/
def unexpected (message : String) : Failure := .connectorError .unexpectedResponse message

def ConnectionFailure.message : ConnectionFailure → String
  | .dns => "SnappShop DNS resolution failed."
  | .tls => "SnappShop TLS connection failed."
  | .other => "SnappShop connection failed."

def isDict : Json → Bool
  | .obj _ => true
  | _ => false

/-- The errors of `_decode_response` for a status. -/
def statusError (status : Nat) : Option Failure :=
  if status = 401 then some (.connectorError .authentication "SnappShop authentication failed.")
  else if status = 403 then some (.connectorError .authorization "SnappShop authorization failed.")
  else if status = 404 then some (.connectorError .notFound "SnappShop resource was not found.")
  else if status = 409 then some (.connectorError .conflict "SnappShop reported a state conflict.")
  else if status = 422 then
    some (.connectorError .validation "SnappShop rejected the request validation.")
  else if status = 429 then some (.connectorError .rateLimit "SnappShop rate limit was reached." true)
  else if 500 ≤ status then
    some (.connectorError .upstreamUnavailable "SnappShop is unavailable." true)
  else if 400 ≤ status then some (unexpected "SnappShop request failed.")
  else none

def decodeResponse (status : Nat) (body : Option Json) : Except Failure Json :=
  match body with
  | none => .error (unexpected "SnappShop returned a malformed JSON response.")
  | some payload =>
    if !isDict payload then .error (unexpected "SnappShop returned a malformed response.")
    else
      match statusError status, payload.get "status" with
      | some failure, _ => .error failure
      | none, .bool false => .error (unexpected "SnappShop returned an unsuccessful response.")
      | none, _ => .ok payload

def request : Exchange → Except Failure Json
  | .response status body => decodeResponse status body
  | .timeout => .error (.connectorError .timeout "SnappShop request timed out." true)
  | .unconnected failure => .error (.connectorError .upstreamUnavailable failure.message true)
  | .httpError => .error (.connectorError .upstreamUnavailable "SnappShop request failed." true)
  | .raises => .error .raised

def expectList (payload : Json) (message : String) : Except Failure (List Json) :=
  match payload.get "data" with
  | .arr data => .ok (data.filter isDict)
  | _ => .error (unexpected message)

/-- `payload.get(key)` if it is a dictionary, else an empty one. -/
def dictOf (payload : Json) (key : String) : Json :=
  match payload.get key with
  | .obj fields => .obj fields
  | _ => .obj []

def pageMeta (payload : Json) : Json := dictOf (dictOf payload "meta") "pagination"

/-- `_optional_int`: an infinite float raises. -/
def optionalInt (value : Json) : Except Failure (Option Int) :=
  match value, intOf rt.unicode value with
  | .null, _ => .ok none
  | _, .ok n => .ok (some n)
  | _, .error .overflow => .error .raised
  | _, .error _ => .ok none

/-- `_optional_float`: too large an integer raises. -/
def optionalFloat (value : Json) : Except Failure (Option Float64) :=
  match value, floatOf rt.unicode value with
  | .null, _ => .ok none
  | _, .ok x => .ok (some x)
  | _, .error .overflow => .error .raised
  | _, .error _ => .ok none

def string (value : Json) : Option String :=
  match value with
  | .null => none
  | _ =>
    let text := String.ofList (strip rt.unicode (str rt.printable value).toList)
    if text = "" then none else some text

def intOr (value : Json) (default : Int) : Except Failure Int :=
  if truthy value then
    match intOf rt.unicode value with
    | .ok n => .ok n
    | .error _ => .error .raised
  else .ok default

def nextPageFromLink (pagination : Json) : Except Failure (Option Int) :=
  match (dictOf pagination "links").get "next" with
  | .str link =>
    if (strip rt.unicode link.toList).isEmpty then .ok none
    else
      match rt.pageOfLink link with
      | .ok page => .ok (page.bind (intText rt.unicode))
      | .error _ => .error .raised
  | _ => .ok none

def activity : Json → Option String
  | .bool true => some "active"
  | .bool false => some "inactive"
  | _ => none

def productFromPayload (item : Json) : Except Failure ChannelProduct := do
  let currentPrice ← optionalFloat rt (item.get "price")
  let stockQuantity ← optionalFloat rt (item.get "stock")
  pure {
    identifiers := {
      externalProductId := string rt (item.get "id")
      sku := string rt (item.get "sku")
      productNumber := string rt (item.get "product_number")
      parentProductNumber := string rt (item.get "parent_product_number") }
    name := (string rt (firstTrue [item.get "title_en", item.get "title", item.get "id"])).getD ""
    currentPrice
    currency := some "IRR"
    priceUnit := some "toman"
    stockQuantity
    status := activity (item.get "active") }

/-- What the provider answers: to the request for its vendors, and to that for a page of products. -/
structure Provider where
  vendors : Exchange
  products : String → Int → Exchange

def selectedVendorId (provider : Provider) (configured : Option String) : Except Failure String :=
  if configured.getD "" ≠ "" then .ok (configured.getD "")
  else do
    let payload ← request provider.vendors
    let data ← expectList payload "Malformed vendor list response."
    let vendor := data.headD .null
    if truthy (vendor.get "id") then .ok (str rt.printable (vendor.get "id"))
    else .error (unexpected "No authorized SnappShop vendor id was returned.")

def listProductsPage (provider : Provider) (vendorId : String) (page : Int) :
    Except Failure (PaginatedResult ChannelProduct) := do
  let payload ← request (provider.products vendorId page)
  let data ← expectList payload "Malformed product list response."
  let pageMeta := pageMeta payload
  let nextPage ← nextPageFromLink rt pageMeta
  let currentPage ← intOr rt (pageMeta.get "current_page") page
  let totalPages ← optionalInt rt (pageMeta.get "total_pages")
  let items ← data.mapM (productFromPayload rt)
  let pageSize ← intOr rt (pageMeta.get "per_page") 50
  let total ← optionalInt rt (pageMeta.get "total")
  pure {
    items
    pagination := .page {
      page := currentPage
      pageSize
      total
      totalPages
      hasMore := nextPage.isSome || totalPages.any fun last => decide (currentPage < last)
      nextPage } }

/-- The external id of a product, as the scan compares it. -/
def externalId (product : ChannelProduct) : String := product.identifiers.externalProductId.getD ""

def currentStateRecord (product : ChannelProduct) : CurrentStateRecord where
  provider := "snappshop"
  externalId := externalId product
  parentExternalId := product.identifiers.parentProductNumber
  price := product.currentPrice.bind (canonicalDecimal rt.unicode)
  stock := product.stockQuantity
  status := product.status
  currency := product.currency
  unit := product.priceUnit

/-- Where a scan is: its page, the pages that it has asked for, the last one first, the entities that it
has not found, and the records of the others. -/
structure Scan where
  page : Int
  visited : List Int
  pending : List CurrentStateIdentity
  records : List (Id × CurrentStateRecord)

/-- `pending.pop(external_id)`, with a record for each entity. -/
def Scan.found (s : Scan) (product : ChannelProduct) : Scan where
  page := s.page
  visited := s.visited
  pending := s.pending.filter fun e => decide (e.externalId ≠ externalId product)
  records := s.records ++ (s.pending.filter fun e => decide (e.externalId = externalId product)).map
    fun e => (e.key, currentStateRecord rt product)

/-- The body of the loop. The scan leaves it with what the request for a page has raised. -/
def scanPage (provider : Provider) (vendorId : String) (s : Scan) : Scan ⊕ (Scan × Option Failure) :=
  if s.pending.isEmpty || decide (s.page ∈ s.visited) then .inr (s, none)
  else
    let visited := s.page :: s.visited
    match listProductsPage rt provider vendorId s.page with
    | .error failure => .inr ({ s with visited }, some failure)
    | .ok result =>
      let s := result.items.foldl (Scan.found rt) { s with visited }
      match result.pagination.onward s.page with
      | some page => .inl { s with page }
      | none => .inr (s, none)

def notFound : CurrentStateError :=
  { category := "not_found", message := "SnappShop product was not found in the current collection." }

/-- The error of the entities that are still to be found. -/
def errorOf : Option Failure → CurrentStateError
  | some (.connectorError category message retryable) =>
    { category := category.value, message, retryEligible := retryable }
  | some .raised =>
    { category := "unexpected_response", message := "SnappShop current-state retrieval failed." }
  | none => notFound

/-- The end of `fetch_current_state`. -/
def report (req : CurrentStateRequest) (s : Scan) (failure : Option Failure) :
    Except Fault CurrentStateResult :=
  CurrentStateResult.postInit s.records (s.pending.map fun e => (e.key, errorOf failure))
    req.entities.length s.records.length

def scanStart (req : CurrentStateRequest) : Scan := ⟨1, [], req.entities, []⟩

/-- `fetch_current_state` with the pages it asks for, where the scan ends within so many rounds. -/
def fetchCurrentState (channelId : Id) (configured : Option String) (provider : Provider)
    (req : CurrentStateRequest) (fuel : Nat) : Option (List Int × Except Fault CurrentStateResult) :=
  if req.channelId ≠ channelId then
    some ([], .ok (failedCurrentState req "validation"
      "Current-state request channel does not match SnappShop."))
  else
    match selectedVendorId rt provider configured with
    | .error failure => some ([], report req (scanStart req) (some failure))
    | .ok vendorId =>
      (loop (scanPage rt provider vendorId) fuel (scanStart req)).map fun (s, failure) =>
        (s.visited.reverse, report req s failure)

end SnappShop

end FlowHub.Connectors
