import FlowHub.Python.Coercion
import FlowHub.Python.IsoFormat
import FlowHub.Domain

namespace FlowHub.Orders

open Python

/-- What the language brings along: the Unicode tables, `str.isprintable` and SHA-256. -/
structure Runtime where
  unicode : Unicode
  printable : Char → Bool
  hash : Hashing

/-- What leaves `upsert_order` where it does not return. -/
inductive Fault where
  | overflow | integrity
  deriving DecidableEq

inductive ConnectorType where
  | woocommerce | snappshop | tapsishop | technolife
  deriving DecidableEq

structure ChannelIdentifierSet where
  externalProductId : Option String := none
  sku : Option String := none
  productNumber : Option String := none
  parentProductNumber : Option String := none
  orderNumber : Option String := none
  channelReferenceCode : Option String := none

structure ChannelOrderItem where
  identifiers : ChannelIdentifierSet
  name : String
  quantity : Float64
  unitPrice : Option Float64
  raw : Json

structure ChannelOrder where
  channelId : Id
  connectorType : ConnectorType
  identifiers : ChannelIdentifierSet
  status : String
  (createdAt updatedAt : Option String)
  items : List ChannelOrderItem
  total : Option Float64
  currency : Option String
  raw : Json

structure ChannelOrderEvent where
  channelId : Id
  connectorType : ConnectorType
  (eventId eventType : String)
  occurredAt : Option String
  orderIdentifiers : ChannelIdentifierSet

inductive EventType where
  | purchase | cancellation | statusChange
  deriving DecidableEq

def orText (a : Option String) (b : String) : String :=
  match a with
  | none | some "" => b
  | some text => text

/-- `a or b` of texts that may be missing. -/
def orElseText : Option String → Option String → Option String
  | none, b | some "", b => b
  | some text, _ => some text

/-- `a or b` of numbers: zero gives way. -/
def orNumber (a : Option Float64) (b : Float64) : Float64 :=
  match a with
  | none => b
  | some x => if x = Float64.zero then b else x

/-- `datetime.fromisoformat(str(value).replace("Z", "+00:00"))`; none where it is not a time. -/
def parseIso : Option String → Option (DateTime Int)
  | none | some "" => none
  | some text => Iso.fromIsoFormat (Iso.zuluAsOffset text)

/-- `_parse_dt`: the wall time, without its offset. -/
def parseDt (value : Option String) : Option Int := (parseIso value).map (·.wall)

section

variable (rt : Runtime)

def toStr (value : Json) : Option String :=
  match value with
  | .null | .str "" => none
  | value => some (str rt.printable value)

/-- `_to_float`; a number past every double raises. -/
def toFloat (value : Json) : Except Fault (Option Float64) :=
  match value with
  | .null | .str "" => .ok none
  | value =>
    match floatOf rt.unicode value with
    | .ok x => .ok (some x)
    | .error .overflow => .error .overflow
    | .error _ => .ok none

def strFromRaw (raw : Json) (keys : List String) : Option String :=
  (keys.filterMap fun key => toStr rt (raw.get key)).head?

def floatFromRaw (raw : Json) : List String → Except Fault (Option Float64)
  | [] => .ok none
  | key :: rest => do
    match ← toFloat rt (raw.get key) with
    | some x => .ok (some x)
    | none => floatFromRaw raw rest

def providerOrderId (order : ChannelOrder) : String :=
  let raw := fun key => toStr rt (order.raw.get key)
  orText (orElseText order.identifiers.externalProductId
    (orElseText order.identifiers.channelReferenceCode
      (orElseText order.identifiers.orderNumber
        (orElseText (raw "id") (orElseText (raw "orderId") (raw "order_number")))))) "unknown"

def snappshopStatusMap : List (String × String) :=
  [("NEW_ORDER", "new"), ("CANCELLATION", "cancelled"), ("CHANGE_STATUS", "updated"),
    ("DELIVERED", "fulfilled"), ("CANCELLED", "cancelled"), ("CANCELED", "cancelled")]

def tapsishopStatusMap : List (String × String) :=
  [("1", "new"), ("2", "processing"), ("3", "fulfilled"), ("4", "cancelled"), ("PURCHASE", "new"),
    ("CANCELLATION", "cancelled")]

def woocommerceStatusMap : List (String × String) :=
  [("PENDING", "pending"), ("PROCESSING", "processing"), ("ON-HOLD", "on_hold"),
    ("COMPLETED", "fulfilled"), ("CANCELLED", "cancelled"), ("REFUNDED", "refunded"),
    ("FAILED", "failed"), ("TRASH", "cancelled")]

def normalizeStatus (connectorType : ConnectorType) (statusValue : String) : String :=
  let key := rt.unicode.upper statusValue
  let raw := orText (some (rt.unicode.lower key)) "unknown"
  let map := match connectorType with
    | .snappshop => snappshopStatusMap
    | .woocommerce => woocommerceStatusMap
    | .tapsishop => tapsishopStatusMap
    | .technolife => []
  (map.lookup key).getD raw

def normalizeEventType (connectorType : ConnectorType) (eventType : String) : EventType :=
  let key := rt.unicode.upper eventType
  if connectorType = .snappshop ∧ key = "NEW_ORDER" then .purchase
  else if connectorType = .snappshop ∧ key = "CANCELLATION" then .cancellation
  else if connectorType = .snappshop ∧ key = "CHANGE_STATUS" then .statusChange
  else if key ∈ ["1", "PURCHASE", "NEW_ORDER"] then .purchase
  else if key ∈ ["2", "CANCELLATION", "CANCELLED", "CANCELED"] then .cancellation
  else .statusChange

def customerReference (raw : Json) : Option String :=
  let customer : Json := match raw.get "customer" with
    | .obj fields => .obj fields
    | _ => raw.get "customerInfo"
  match customer with
  | .obj _ =>
    let seed := "|".intercalate (["id", "customerId", "phone", "nationalId", "nationalCode"].map
      fun key => if truthy (customer.get key) then str rt.printable (customer.get key) else "")
    if seed.toList.all (· == '|') then none
    else some (String.ofList ((rt.hash.text seed).toList.take 32))
  | _ => none

end

end FlowHub.Orders
