import FlowHub.Python.Coercion
import FlowHub.Python.Collections
import FlowHub.Txn.Proc

namespace FlowHub.Webhooks

open Python

/-- A payload is refused with the text of a `ValueError`; an infinite number raises
`OverflowError` instead. -/
inductive PayloadError where
  | invalid (message : String)
  | overflow
  deriving DecidableEq

structure TapsiShopItem where
  (requestId orderItemId orderId tapsiShopProductId sku : String)
  (quantity changeType : Int)
  (finalPrice originalPrice : Option Float64)
  createdOnTimestamp : Option String
  deriving DecidableEq

/-- A normalized webhook. -/
structure TapsiShopWebhook where
  orderId : String
  changeType : Int
  (orderNumber createdOnTimestamp : Option String)
  items : List TapsiShopItem
  nonempty : items ≠ []
  distinct : (items.map TapsiShopItem.requestId).Nodup
  deriving DecidableEq

namespace TapsiShopWebhook

variable (w : TapsiShopWebhook)

def requestIds : List String := w.items.map TapsiShopItem.requestId

def changeTypeLabel : String :=
  if w.changeType = 1 then "deducted_due_to_purchase" else "added_due_to_cancellation"

def occurredAt : Option String := w.createdOnTimestamp

end TapsiShopWebhook

def batchEventId (hash : Hashing) (requestIds : List String) : String :=
  "tapsishop-batch:" ++ hash.text ("\x1f".intercalate requestIds)

/-- `requestId`: the item's own, or the key of the batch. -/
def eventId (hash : Hashing) : List String → String
  | [requestId] => requestId
  | requestIds => batchEventId hash (requestIds.insertionSort (· ≤ ·))

def TapsiShopWebhook.requestId (hash : Hashing) (w : TapsiShopWebhook) : String :=
  eventId hash w.requestIds

section

variable (u : Unicode) (printable : Char → Bool)

variable (value : Json)

def string : Option String :=
  match value with
  | .null => none
  | value =>
    let text := String.ofList (strip u (str printable value).toList)
    if text = "" then none else some text

variable (field : String)

def webhookDict : Except PayloadError Json :=
  match value with
  | .obj fields => .ok (.obj fields)
  | _ => .error (.invalid (field ++ " must be an object."))

def webhookRequiredStr : Except PayloadError String :=
  match string u printable value with
  | some text => .ok text
  | none => .error (.invalid (field ++ " is required."))

def webhookRequiredInt : Except PayloadError Int :=
  match value with
  | .bool _ => .error (.invalid (field ++ " must be an integer."))
  | value =>
    match intOf u value with
    | .ok n => .ok n
    | .error .overflow => .error .overflow
    | .error _ => .error (.invalid (field ++ " must be an integer."))

def webhookSignedQuantity (changeType : Int) : Except PayloadError Int := do
  let parsed ← webhookRequiredInt u value "quantity"
  let expected : Int := if changeType = 1 then -1 else 1
  if parsed ≠ expected then
    .error (.invalid ("quantity must be " ++ toString expected ++ " for TapsiShop changeType " ++
      toString changeType ++ "."))
  else .ok parsed

def webhookOptionalNumber : Except PayloadError (Option Float64) :=
  match value with
  | .null | .str "" => .ok none
  | .bool _ => .error (.invalid (field ++ " must be numeric."))
  | value =>
    match floatOf u value with
    | .ok parsed =>
      if !parsed.isFinite || parsed.lt .zero then
        .error (.invalid (field ++ " must be a non-negative finite number."))
      else .ok (some parsed)
    | .error .overflow => .error .overflow
    | .error _ => .error (.invalid (field ++ " must be numeric."))

def normalizeTapsishopWebhookItem (orderId : String) (changeType : Int) (raw : Json) :
    Except PayloadError TapsiShopItem := do
  let item ← webhookDict raw "items[]"
  let requestId ← webhookRequiredStr u printable (item.get "requestId") "items[].requestId"
  let orderItemId ← webhookRequiredStr u printable (item.get "orderItemId") "items[].orderItemId"
  let itemOrderId ← webhookRequiredStr u printable (item.get "orderId") "items[].orderId"
  if itemOrderId ≠ orderId then
    .error (.invalid "TapsiShop item orderId must match orderDetail.orderId.")
  else
    let externalProductId ← webhookRequiredStr u printable (item.get "tapsiShopProductId")
      "items[].tapsiShopProductId"
    let sellerSku ← webhookRequiredStr u printable (item.get "productId") "items[].productId"
    let itemChangeType ← webhookRequiredInt u (item.get "changeType") "items[].changeType"
    if itemChangeType ≠ changeType then
      .error (.invalid "TapsiShop item changeType must match orderDetail.changeType.")
    else
      let quantity ← webhookSignedQuantity u (item.get "quantity") changeType
      let finalPrice ← webhookOptionalNumber u (item.get "finalPrice") "finalPrice"
      let originalPrice ← webhookOptionalNumber u (item.get "originalPrice") "originalPrice"
      .ok {
        requestId, orderItemId, orderId := itemOrderId, tapsiShopProductId := externalProductId,
        sku := sellerSku, quantity, changeType := itemChangeType, finalPrice, originalPrice,
        createdOnTimestamp := string u printable (item.get "createdOnTimestamp") }

/-- The items of a payload, once they are a list with something in it. -/
def webhookItems : Json → Except PayloadError (List Json)
  | .arr (item :: rest) => .ok (item :: rest)
  | _ => .error (.invalid "items are required.")

def normalizeTapsishopWebhookPayload (payload : Json) : Except PayloadError TapsiShopWebhook := do
  let orderDetail ← webhookDict (payload.get "orderDetail") "orderDetail"
  let orderId ← webhookRequiredStr u printable (orderDetail.get "orderId") "orderDetail.orderId"
  let changeType ← webhookRequiredInt u (orderDetail.get "changeType") "orderDetail.changeType"
  if changeType ≠ 1 ∧ changeType ≠ 2 then
    .error (.invalid "Unsupported TapsiShop changeType.")
  else
    let rawItems ← webhookItems (payload.get "items")
    let items ← rawItems.mapM (normalizeTapsishopWebhookItem u printable orderId changeType)
    if h : items ≠ [] ∧ (items.map TapsiShopItem.requestId).Nodup then
      .ok {
        orderId, changeType, items,
        orderNumber := string u printable (orderDetail.get "orderNumber")
        createdOnTimestamp := string u printable (orderDetail.get "createdOnTimestamp")
        nonempty := h.1
        distinct := h.2 }
    else .error (.invalid "TapsiShop webhook item requestId values must be unique.")

end

section

variable {u : Unicode} {printable : Char → Bool} {orderId : String} {changeType : Int} {raw : Json}

theorem webhookSignedQuantity_ok (h : webhookSignedQuantity u raw changeType = .ok quantity) :
    quantity = if changeType = 1 then -1 else 1 := by
  obtain ⟨parsed, -, h⟩ := Txn.bind_eq_ok.mp h
  by_cases hparsed : parsed = if changeType = 1 then -1 else 1
  · simp only [hparsed, ne_eq, not_true_eq_false, if_false] at h
    exact (Except.ok.inj h).symm
  · simp only [ne_eq, hparsed, not_false_eq_true, if_true] at h
    cases h

/-- Every item kept is of the order and the change its payload reports, and counts one. -/
theorem normalizeTapsishopWebhookItem_ok
    (h : normalizeTapsishopWebhookItem u printable orderId changeType raw = .ok item) :
    item.orderId = orderId ∧ item.changeType = changeType ∧
      item.quantity = if changeType = 1 then -1 else 1 := by
  simp only [normalizeTapsishopWebhookItem, Txn.bind_eq_ok] at h
  obtain ⟨_, -, requestId, -, orderItemId, -, itemOrderId, -, h⟩ := h
  split at h
  · cases h
  rename_i hOrder
  simp only [Txn.bind_eq_ok] at h
  obtain ⟨externalProductId, -, sellerSku, -, itemChangeType, -, h⟩ := h
  split at h
  · cases h
  rename_i hChange
  simp only [Txn.bind_eq_ok] at h
  obtain ⟨quantity, hquantity, finalPrice, -, originalPrice, -, h⟩ := h
  cases h
  exact ⟨not_not.mp hOrder, not_not.mp hChange, webhookSignedQuantity_ok hquantity⟩

theorem normalizeTapsishopWebhookPayload_ok
    (h : normalizeTapsishopWebhookPayload u printable raw = .ok webhook) :
    ∀ item ∈ webhook.items, item.orderId = webhook.orderId ∧ item.changeType = webhook.changeType ∧
      item.quantity = if webhook.changeType = 1 then -1 else 1 := by
  simp only [normalizeTapsishopWebhookPayload, Txn.bind_eq_ok] at h
  obtain ⟨_, -, orderId, -, changeType, -, h⟩ := h
  split at h
  · cases h
  simp only [Txn.bind_eq_ok] at h
  obtain ⟨rawItems, -, items, hitems, h⟩ := h
  split at h
  · cases h
    intro item hitem
    obtain ⟨raw, -, hraw⟩ := Txn.mem_of_mapM hitems hitem
    exact normalizeTapsishopWebhookItem_ok hraw
  · cases h

end

end FlowHub.Webhooks
