import FlowHub.Batches
import FlowHub.Connectors.Updates
import FlowHub.Python.Coercion

namespace FlowHub.Connectors.WooCommerce

open Python Channels

/-- The tables of Python's texts. -/
structure Runtime where
  unicode : Unicode
  printable : Char → Bool

variable (rt : Runtime)

/-- A `ConnectorError`, or any other exception. -/
inductive Failure where
  | connectorError (code : ConnectorErrorCode) (message : String) (httpStatus : Option Nat)
      (retryable : Bool)
  | raised

/-- What the store answers to a request for products, and to one for variations of a parent. -/
structure Provider where
  products : List Int → Except Failure (List Json)
  variations : Int → List Int → Except Failure (List Json)

/-- `int(text)` of a text of digits; one of more than 4300 raises. -/
def numberOf (text : String) : Option Int :=
  if 4300 < text.length then none else intText rt.unicode text

def canonicalDecimal : Json → Option ℚ
  | .null | .bool _ => none
  | value =>
    match decimal rt.unicode (withoutCommas (str rt.printable value)) with
    | some (.finite q) => some q
    | _ => none

def strOr (value : Json) : String := if truthy value then str rt.printable value else ""

def productType (item : Json) : Option String :=
  let value := rt.unicode.lower
    (String.ofList (strip rt.unicode (strOr rt (item.get "type")).toList))
  if value = "" then none else some value

/-- The stock of an item; none where it raises. -/
def stockOf (item : Json) : Option (Option Float64) :=
  match item.get "stock_quantity" with
  | .null => some none
  | value => (floatOf rt.unicode value).toOption.map some

def recordOf (parentId : Option Int) (item : Json) : Option CurrentStateRecord := do
  let stock ← stockOf rt item
  pure {
    provider := "woocommerce"
    externalId := strOr rt (item.get "id")
    parentExternalId := parentId.map toString
    price := canonicalDecimal rt (item.get "regular_price")
    stock
    status := if strOr rt (item.get "stock_status") = "" then none
      else some (strOr rt (item.get "stock_status"))
    productType := if parentId.isSome then some "variation" else productType rt item }

structure Tables where
  records : List (Id × CurrentStateRecord) := []
  errors : List (Id × CurrentStateError) := []

/-- A record or an error of an entity. -/
abbrev State := Except CurrentStateError CurrentStateRecord

def Tables.add (t : Tables) (key : Id) : State → Tables
  | .ok record => { t with records := t.records ++ [(key, record)] }
  | .error error => { t with errors := t.errors ++ [(key, error)] }

/-- Whether `by_id` keeps an item under an id. -/
def keptAt (externalId : String) (item : Json) : Bool :=
  match item.get "id" with
  | .null => false
  | id => decide (str rt.printable id = externalId)

def byId (payload : List Json) (externalId : String) : Option Json :=
  (payload.filter (keptAt rt externalId)).getLast?

def notReturned : CurrentStateError :=
  { category := "not_found"
    message := "WooCommerce product was not returned by the current-state batch." }

/-- What an entity finds in the answer for its batch. -/
def stateIn (payload : List Json) (parentId : Option Int) (e : CurrentStateIdentity) : Option State :=
  match byId rt payload e.externalId with
  | none => some (.error notReturned)
  | some item => (recordOf rt parentId item).map .ok

/-- `load_simple` and `load_variations`. -/
def load (ask : List Int → Except Failure (List Json)) (batch : List CurrentStateIdentity) :
    Except Failure (List Json) :=
  match batch.mapM fun e => numberOf rt e.externalId with
  | none => .error .raised
  | some ids => ask ids

/-- An error of single items, which goes away with them. -/
def isolatable (code : ConnectorErrorCode) (httpStatus : Option Nat) : Bool :=
  decide (code = .providerError) && httpStatus.any fun status => decide (400 ≤ status ∧ status < 500)

def errorOf (code : ConnectorErrorCode) (message : String) (retryable : Bool) : CurrentStateError :=
  { category := code.value, message, retryEligible := retryable }

def fetchStateBatchIsolated (ask : List Int → Except Failure (List Json)) (parentId : Option Int)
    (entities : List CurrentStateIdentity) (t : Tables) : Option Tables :=
  if entities.isEmpty then some t
  else
    match load rt ask entities with
    | .error .raised => none
    | .error (.connectorError code message httpStatus retryable) =>
      if isolatable code httpStatus ∧ 1 < entities.length then
        (fetchStateBatchIsolated ask parentId (entities.take (entities.length / 2)) t).bind
          (fetchStateBatchIsolated ask parentId (entities.drop (entities.length / 2)))
      else some (entities.foldl (fun t e => t.add e.key (.error (errorOf code message retryable))) t)
    | .ok payload => entities.foldlM (fun t e => (stateIn rt payload parentId e).map (t.add e.key)) t
termination_by entities.length
decreasing_by
  · rw [List.length_take]
    omega
  · rw [List.length_drop]
    omega

def fetchStateBatches (ask : List Int → Except Failure (List Json)) (parentId : Option Int)
    (entities : List CurrentStateIdentity) (t : Tables) : Option Tables :=
  (slices 100 entities).foldlM (fun t batch => fetchStateBatchIsolated rt ask parentId batch t) t

/-- The entities that need no request, those without a parent, and the others by their parents. -/
structure Parts where
  tables : Tables := {}
  simple : List CurrentStateIdentity := []
  variations : List (Int × List CurrentStateIdentity) := []

/-- `variations.setdefault(parent, []).append(entity)`. -/
def addVariation (parent : Int) (e : CurrentStateIdentity) :
    List (Int × List CurrentStateIdentity) → List (Int × List CurrentStateIdentity)
  | [] => [(parent, [e])]
  | (p, es) :: rest => if p = parent then (p, es ++ [e]) :: rest else (p, es) :: addVariation parent e rest

def notNumeric (what : String) : CurrentStateError :=
  { category := "validation", message := "WooCommerce " ++ what ++ " ID must be numeric." }

/-- Where an entity goes; none where `int` raises. -/
def Parts.place (p : Parts) (e : CurrentStateIdentity) : Option Parts :=
  if !isDigits rt.unicode e.externalId then
    some { p with tables := p.tables.add e.key (.error (notNumeric "product")) }
  else
    match e.parentExternalId with
    | none => some { p with simple := p.simple ++ [e] }
    | some parent =>
      if !isDigits rt.unicode parent then
        some { p with tables := p.tables.add e.key (.error (notNumeric "parent product")) }
      else
        (numberOf rt parent).map fun id =>
          { p with variations := addVariation id e p.variations }

/-- The two dictionaries of `fetch_current_state`. -/
def fetchTables (provider : Provider) (entities : List CurrentStateIdentity) : Option Tables := do
  let parts ← entities.foldlM (Parts.place rt) {}
  let t ← fetchStateBatches rt provider.products none parts.simple parts.tables
  parts.variations.foldlM
    (fun t (parent, es) => fetchStateBatches rt (provider.variations parent) (some parent) es t) t

/-- `fetch_current_state` of a connected connector; none where it raises other than in the check of its
result. -/
def fetchCurrentState (provider : Provider) (req : CurrentStateRequest) :
    Option (Except Fault CurrentStateResult) :=
  if req.channelId ≠ "woocommerce:primary" then
    some (.ok (failedCurrentState req "validation"
      "Current-state request channel does not match WooCommerce."))
  else
    (fetchTables rt provider req.entities).map fun t =>
      CurrentStateResult.postInit t.records t.errors req.entities.length t.records.length

end FlowHub.Connectors.WooCommerce
