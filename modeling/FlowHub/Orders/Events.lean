import FlowHub.Orders.Upsert

namespace FlowHub.Orders

open Python Webhooks

inductive Route where
  | polling | webhook | reconciliation

section

variable (rt : Runtime)

/-- `_order_detail_from_payload` of TapsiShop: the detail has no quantities, so no items. -/
def orderDetailFromPayload (channelId : Id) (data : Json) (requestedOrderId : String) :
    Except Fault ChannelOrder := do
  let order : Json := match data.get "order" with
    | .obj fields => .obj fields
    | _ => .obj []
  let text := fun value => string rt.unicode rt.printable value
  let total ← toFloat rt (firstOf order ["amountAfterDiscount", "originalAmount"])
  .ok {
    channelId
    connectorType := .tapsishop
    identifiers := {
      orderNumber := text (order.get "orderNumber")
      externalProductId :=
        some (orText (text (firstOf order ["id", "orderId"])) requestedOrderId) }
    status := orText (text (order.get "status")) "UNKNOWN"
    createdAt := text (order.get "orderDate")
    updatedAt := none
    items := []
    total
    currency := some "IRR"
    raw := data }

end

/-- An item as the normalized payload has it. -/
def itemPayload (item : TapsiShopItem) : Json :=
  .obj [("requestId", .str item.requestId), ("orderItemId", .str item.orderItemId),
    ("orderId", .str item.orderId), ("tapsiShopProductId", .str item.tapsiShopProductId),
    ("sku", .str item.sku), ("quantity", .int item.quantity), ("changeType", .int item.changeType),
    ("finalPrice", Json.ofOption .float item.finalPrice),
    ("originalPrice", Json.ofOption .float item.originalPrice),
    ("createdOnTimestamp", Json.ofOption .str item.createdOnTimestamp)]

/-- `normalized_event_json`. -/
def normalizedPayload (requestId : String) (webhook : TapsiShopWebhook) : Json :=
  .obj [("requestId", .str requestId), ("requestIds", .arr (webhook.requestIds.map .str)),
    ("orderId", .str webhook.orderId), ("changeType", .int webhook.changeType),
    ("changeTypeLabel", .str webhook.changeTypeLabel),
    ("occurredAt", Json.ofOption .str webhook.occurredAt),
    ("orderDetail", .obj [("orderId", .str webhook.orderId),
      ("orderNumber", Json.ofOption .str webhook.orderNumber),
      ("createdOnTimestamp", Json.ofOption .str webhook.createdOnTimestamp)]),
    ("items", .arr (webhook.items.map itemPayload))]

def eventFromTapsishopReceipt (channelId : Id) (providerEventId : String)
    (webhook : TapsiShopWebhook) : ChannelOrderEvent where
  channelId := channelId
  connectorType := .tapsishop
  eventId := providerEventId
  eventType := if webhook.changeType = 1 then "PURCHASE" else if webhook.changeType = 2 then
    "CANCELLATION" else toString webhook.changeType
  occurredAt := orElseText webhook.occurredAt none
  orderIdentifiers := {
    externalProductId := orElseText (some webhook.orderId) none
    orderNumber := orElseText webhook.orderNumber none }

/-- An item of the order that a receipt makes up. -/
def payloadItem (item : TapsiShopItem) : ChannelOrderItem where
  identifiers := {
    externalProductId := orElseText (some item.tapsiShopProductId) none
    sku := orElseText (some item.sku) none
    channelReferenceCode := orElseText (some item.orderItemId) none }
  name := item.sku
  quantity := (Float64.ofRat item.quantity).abs
  unitPrice := match item.finalPrice with
    | some x => if x = Float64.zero then item.originalPrice else some x
    | none => item.originalPrice
  raw := itemPayload item

/-- The order that a receipt itself makes up. -/
def orderOfPayload (channelId : Id) (providerEventId : String) (webhook : TapsiShopWebhook) :
    ChannelOrder where
  channelId := channelId
  connectorType := .tapsishop
  identifiers := {
    externalProductId := some webhook.orderId
    orderNumber := orElseText webhook.orderNumber none }
  status := toString webhook.changeType
  createdAt := orElseText webhook.occurredAt (orElseText webhook.createdOnTimestamp none)
  updatedAt := orElseText webhook.occurredAt (orElseText webhook.createdOnTimestamp none)
  items := webhook.items.map payloadItem
  total := none
  currency := some "IRR"
  raw := normalizedPayload providerEventId webhook

/-- `_order_for_tapsishop_receipt`: the connector's detail where the request succeeds, else the
receipt's own items. -/
def orderForTapsishopReceipt (rt : Runtime) (channelId : Id) (providerEventId : String)
    (webhook : TapsiShopWebhook) (detail : Option Json) : ChannelOrder :=
  match detail.map fun data => orderDetailFromPayload rt channelId data webhook.orderId with
  | some (.ok order) => order
  | _ => orderOfPayload channelId providerEventId webhook

section

variable (rt : Runtime)

def Db.recorded (db : Db) (channelId : Id) (eventId : String) : Bool :=
  db.events.any fun row => decide (row.channelId = channelId) && decide (row.providerEventId = eventId)

def eventRow (event : ChannelOrderEvent) (source : Source) : ChannelOrderEventRecord where
  channelId := event.channelId
  providerEventId := event.eventId
  connectorType := event.connectorType
  providerOrderId := event.orderIdentifiers.externalProductId
  orderNumber := event.orderIdentifiers.orderNumber
  eventType := event.eventType
  normalizedEventType := normalizeEventType rt event.connectorType event.eventType
  occurredAt := parseDt event.occurredAt
  source := source

def Db.addEvent (db : Db) (row : ChannelOrderEventRecord) : Db :=
  { db with events := db.events ++ [row] }

/-- `_record_event`, with whether the event is a duplicate. -/
def recordEvent (event : ChannelOrderEvent) (source : Source) (db : Db) : Db × Bool :=
  if db.recorded event.channelId event.eventId then (db, true)
  else (db.addEvent (eventRow rt event source), false)

/-- What becomes of an event whose order has been fetched. -/
def upsertOrderOf (event : ChannelOrderEvent) (order : ChannelOrder) (source : Source) (now : Int)
    (db : Db) : Except Fault Db :=
  upsertOrder rt order source (some event.eventId) (some event.eventType)
    (parseDt event.occurredAt) now db

/-- An order of a page of `reconcile_recent_orders`. -/
def reconcileOrder (order : ChannelOrder) (now : Int) (db : Db) : Except Fault Db :=
  upsertOrder rt order .reconciliation (some ("reconcile:" ++ providerOrderId rt order)) none none now db

/-- One event of a page, or the event of a receipt, with the order that is fetched for it. -/
def processEvent (event : ChannelOrderEvent) (order : ChannelOrder) (source : Source) (now : Int)
    (db : Db) : Except Fault Db :=
  match recordEvent rt event source db with
  | (db, true) => .ok db
  | (db, false) => upsertOrderOf rt event order source now db

end

section

variable (rt : Runtime) {db : Db} {event : ChannelOrderEvent} (order : ChannelOrder)
  (source : Source) (now : Int)

theorem processEvent_recorded (h : db.recorded event.channelId event.eventId = true) :
    processEvent rt event order source now db = .ok db := by
  rw [processEvent, recordEvent, if_pos h]

theorem processEvent_new (h : db.recorded event.channelId event.eventId = false) :
    processEvent rt event order source now db =
      upsertOrderOf rt event order source now (db.addEvent (eventRow rt event source)) := by
  rw [processEvent, recordEvent, h, if_neg Bool.false_ne_true]

end

end FlowHub.Orders
