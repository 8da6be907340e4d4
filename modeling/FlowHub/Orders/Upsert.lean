import FlowHub.Orders.Values
import FlowHub.Webhooks.Receipts

namespace FlowHub.Orders

open Python Option

structure ChannelOrderItemRecord where
  providerItemId : String
  (externalProductId sku productNumber parentProductNumber : Option String)
  name : String
  (quantity canceledQuantity : Float64)
  (deliverableQuantity originalPrice finalPrice : Option Float64)
  (itemStatus cancellationReason : Option String)
  deriving DecidableEq

structure ChannelShipmentRecord where
  shipmentNumber : String
  (statusCode statusTitle deliveryMethod pickupOrSendWindow : Option String)
  deriving DecidableEq

structure ChannelInvoiceRecord where
  invoiceNumber : String
  amount : Option Float64
  currency : Option String
  deriving DecidableEq

/-- The status and the amounts of an order, with its rows in the tables that hang on it. -/
structure OrderState where
  (providerStatus normalizedStatus : String)
  (originalAmount finalAmount serviceFee discountAmount : Option Float64)
  items : List ChannelOrderItemRecord
  shipments : List ChannelShipmentRecord
  invoices : List ChannelInvoiceRecord
  deriving DecidableEq

inductive Source where
  | snappshopPoll | tapsishopWebhook | reconciliation
  deriving DecidableEq

/-- A row is named by its channel and provider order id. -/
structure ChannelOrderRecord where
  channelId : Id
  providerOrderId : String
  connectorType : ConnectorType
  orderNumber : Option String
  state : OrderState
  (createdAtProvider updatedAtProvider : Option Int)
  (deliveryType currency customerReference : Option String)
  (firstSeenAt lastSeenAt : Int)
  lastProviderEventAt : Option Int
  eventSource : Source
  deriving DecidableEq

structure ChannelInventoryEffectRecord where
  channelId : Id
  (orderId sourceEventId providerItemId : String)
  (sku externalProductId : Option String)
  effectType : EventType
  quantityDelta : Float64
  deriving DecidableEq

/-- `uq_channel_inventory_effect`. -/
def ChannelInventoryEffectRecord.key (e : ChannelInventoryEffectRecord) : Id × String × String × EventType :=
  (e.channelId, e.sourceEventId, e.providerItemId, e.effectType)

structure ChannelOrderEventRecord where
  channelId : Id
  providerEventId : String
  connectorType : ConnectorType
  (providerOrderId orderNumber : Option String)
  eventType : String
  normalizedEventType : EventType
  occurredAt : Option Int
  source : Source
  deriving DecidableEq

/-- The orders of the channels, and what belongs to them. -/
structure Db where
  orders : List ChannelOrderRecord := []
  events : List ChannelOrderEventRecord := []
  effects : List ChannelInventoryEffectRecord := []
  webhooks : Webhooks.Db := {}
  deriving DecidableEq

def ChannelOrderRecord.key (row : ChannelOrderRecord) : Id × String :=
  (row.channelId, row.providerOrderId)

namespace Db

def order (db : Db) (channelId : Id) (providerOrderId : String) : Option ChannelOrderRecord :=
  Table.get ChannelOrderRecord.key db.orders (channelId, providerOrderId)

def saveOrder (db : Db) (row : ChannelOrderRecord) : Db :=
  { db with orders := match db.order row.channelId row.providerOrderId with
      | some _ => Table.set ChannelOrderRecord.key db.orders row.key fun _ => row
      | none => db.orders ++ [row] }

end Db

section

variable (rt : Runtime)

/-- The value of the first key that has a true one. -/
def firstOf (raw : Json) (keys : List String) : Json := firstTrue (keys.map raw.get)

/-- The number of an item in `_replace_items`. -/
def itemNumber (orderId : String) (index : Nat) (item : ChannelOrderItem) : String :=
  orText (orElseText item.identifiers.channelReferenceCode (toStr rt (firstOf item.raw
    ["orderItemId", "order_item_id", "id", "vendor_product_info_id"])))
    (orderId ++ ":item:" ++ toString index)

/-- Its number in `_create_inventory_effects`, which does not look at `order_item_id`. -/
def effectItemNumber (orderId : String) (index : Nat) (item : ChannelOrderItem) : String :=
  orText (orElseText item.identifiers.channelReferenceCode (toStr rt (firstOf item.raw
    ["orderItemId", "id", "vendor_product_info_id"])))
    (orderId ++ ":item:" ++ toString index)

/-- `_to_float(raw.get("canceled_quantity") or raw.get("total_canceled_quantity"))`. -/
def canceledQuantity (item : ChannelOrderItem) : Except Fault (Option Float64) :=
  toFloat rt (firstOf item.raw ["canceled_quantity", "total_canceled_quantity"])

/-- `a or b` of a value and the number that stands in for it. -/
def orPrice (value : Json) (price : Option Float64) : Json :=
  if truthy value then value else Json.ofOption Json.float price

def itemRow (orderId : String) (index : Nat) (item : ChannelOrderItem) :
    Except Fault ChannelOrderItemRecord := do
  let raw := item.raw
  let canceled ← canceledQuantity rt item
  let deliverableQuantity ← toFloat rt (raw.get "deliverable_quantity")
  let originalPrice ← toFloat rt
    (orPrice (firstOf raw ["original_price", "originalPrice"]) item.unitPrice)
  let finalPrice ← toFloat rt (orPrice (firstOf raw ["final_price", "finalPrice"]) item.unitPrice)
  .ok {
    providerItemId := itemNumber rt orderId index item
    externalProductId := item.identifiers.externalProductId
    sku := item.identifiers.sku
    productNumber := item.identifiers.productNumber
    parentProductNumber := item.identifiers.parentProductNumber
    name := item.name
    quantity := item.quantity
    canceledQuantity := orNumber canceled Float64.zero
    deliverableQuantity, originalPrice, finalPrice
    itemStatus := toStr rt (firstOf raw ["item_status", "status", "statusCode"])
    cancellationReason := toStr rt (firstOf raw ["cancellation_reason", "cancellationReason"]) }

def indexed {α β : Type} (row : Nat → α → Except Fault β) (values : List α) : Except Fault (List β) :=
  values.zipIdx.mapM fun value => row value.2 value.1

def replaceItems (orderId : String) (order : ChannelOrder) : Except Fault (List ChannelOrderItemRecord) :=
  indexed (itemRow rt orderId) order.items

/-- A list of documents, or one document, under the first key that has any. -/
def documents (raw : Json) (keys : List String) : List (Nat × Json) :=
  let values := match firstOf raw keys with
    | .arr values => values
    | .obj (field :: fields) => [.obj (field :: fields)]
    | _ => []
  values.zipIdx.filterMap fun value =>
    match value.1 with
    | .obj fields => some (value.2, .obj fields)
    | _ => none

def replaceShipments (orderId : String) (raw : Json) : List ChannelShipmentRecord :=
  (documents raw ["shipments", "shipment", "bundles"]).map fun (index, shipment) => {
    shipmentNumber := orText (toStr rt (firstOf shipment ["shipmentNumber", "bundleId", "id"]))
      (orderId ++ ":shipment:" ++ toString index)
    statusCode := toStr rt (firstOf shipment ["statusCode", "shippingStatusType"])
    statusTitle := toStr rt (firstOf shipment ["statusTitle", "status"])
    deliveryMethod := toStr rt (firstOf shipment ["deliveryMethod", "delivery_method"])
    pickupOrSendWindow := toStr rt (firstOf shipment ["pickupWindow", "sendWindow"]) }

def replaceInvoices (orderId : String) (raw : Json) (currency : Option String) :
    Except Fault (List ChannelInvoiceRecord) :=
  (documents raw ["invoices", "invoice"]).mapM fun (index, invoice) => do
    let amount ← toFloat rt (firstOf invoice ["amount", "total"])
    .ok {
      invoiceNumber := orText (toStr rt (firstOf invoice ["invoiceNumber", "number", "id"]))
        (orderId ++ ":invoice:" ++ toString index)
      amount
      currency := orElseText (toStr rt (invoice.get "currency")) currency }

/-- No two rows of a table under the order have one number. -/
def OrderState.storable (s : OrderState) : Bool :=
  decide (s.items.map (·.providerItemId)).Nodup && decide (s.shipments.map (·.shipmentNumber)).Nodup &&
    decide (s.invoices.map (·.invoiceNumber)).Nodup

/-- What an order leaves in its row and in the tables under it. -/
def orderState (order : ChannelOrder) (eventType : Option String) : Except Fault OrderState := do
  let orderId := providerOrderId rt order
  let providerStatus := orText (some order.status) "UNKNOWN"
  let originalAmount ← floatFromRaw rt order.raw
    ["original_amount", "originalAmount", "original_price"]
  let serviceFee ← floatFromRaw rt order.raw ["service_fee", "serviceFee"]
  let discountAmount ← floatFromRaw rt order.raw ["discount_amount", "discountAmount"]
  let items ← replaceItems rt orderId order
  let invoices ← replaceInvoices rt orderId order.raw order.currency
  let state : OrderState := {
    providerStatus
    normalizedStatus := normalizeStatus rt order.connectorType (orText eventType providerStatus)
    originalAmount
    finalAmount := order.total
    serviceFee, discountAmount, items
    shipments := replaceShipments rt orderId order.raw
    invoices }
  if state.storable then .ok state else .error .integrity

/-- What an event of a kind does to the inventory of an item. -/
def effectRow (order : ChannelOrder) (sourceEventId : String) (normalized : EventType) (index : Nat)
    (item : ChannelOrderItem) : Except Fault ChannelInventoryEffectRecord := do
  let orderId := providerOrderId rt order
  let quantity ← match normalized with
    | .cancellation => do .ok (orNumber (← canceledQuantity rt item) item.quantity)
    | _ => .ok item.quantity
  .ok {
    channelId := order.channelId, orderId, sourceEventId
    providerItemId := effectItemNumber rt orderId index item
    sku := item.identifiers.sku
    externalProductId := item.identifiers.externalProductId
    effectType := normalized
    quantityDelta := Float64.mul (.ofRat (if normalized = .purchase then -1 else 1)) quantity }

/-- The effects that are not there yet. -/
def newEffects (effects : List ChannelInventoryEffectRecord) :
    List ChannelInventoryEffectRecord → List ChannelInventoryEffectRecord
  | [] => []
  | effect :: rest =>
    if effect.key ∈ effects.map ChannelInventoryEffectRecord.key then newEffects effects rest
    else effect :: newEffects (effects ++ [effect]) rest

def createInventoryEffects (effects : List ChannelInventoryEffectRecord) (order : ChannelOrder)
    (sourceEventId eventType : Option String) : Except Fault (List ChannelInventoryEffectRecord) :=
  match sourceEventId with
  | none | some "" => .ok []
  | some sourceEventId =>
    let normalized := normalizeEventType rt order.connectorType (orText eventType order.status)
    if normalized = .statusChange then .ok []
    else (indexed (effectRow rt order sourceEventId normalized) order.items).map (newEffects effects)

/-- The version an order is compared by. -/
def incomingVersion (order : ChannelOrder) (occurredAt : Option Int) : Option Int :=
  ((parseDt order.updatedAt).or occurredAt).or (parseDt order.createdAt)

/-- An older version than the stored one is recorded without overwriting it. -/
def outOfOrder (existing : Option ChannelOrderRecord) (incoming : Option Int) : Bool :=
  existing.any fun row => row.lastProviderEventAt.any fun last =>
    incoming.any fun incoming => decide (incoming < last)

/-- The row that an order leaves. -/
def orderRow (existing : Option ChannelOrderRecord) (order : ChannelOrder) (state : OrderState)
    (source : Source) (incoming : Option Int) (now : Int) : ChannelOrderRecord where
  channelId := order.channelId
  providerOrderId := providerOrderId rt order
  connectorType := (existing.map (·.connectorType)).getD order.connectorType
  orderNumber := order.identifiers.orderNumber
  state := state
  createdAtProvider := parseDt order.createdAt
  updatedAtProvider := (parseDt order.updatedAt).or incoming
  deliveryType := strFromRaw rt order.raw ["delivery_type", "deliveryMethod", "delivery_method"]
  currency := order.currency
  customerReference := customerReference rt order.raw
  firstSeenAt := (existing.map (·.firstSeenAt)).getD now
  lastSeenAt := now
  lastProviderEventAt := some (incoming.getD now)
  eventSource := source

def upsertOrder (order : ChannelOrder) (source : Source) (sourceEventId eventType : Option String)
    (occurredAt : Option Int) (now : Int) (db : Db) : Except Fault Db :=
  let existing := db.order order.channelId (providerOrderId rt order)
  let incoming := incomingVersion order occurredAt
  if outOfOrder existing incoming then .ok db
  else do
    let state ← orderState rt order eventType
    let effects ← createInventoryEffects rt db.effects order sourceEventId eventType
    .ok { db.saveOrder (orderRow rt existing order state source incoming now) with
      effects := db.effects ++ effects }

end

section

theorem order_saveOrder (db : Db) (row : ChannelOrderRecord) (channelId : Id) (orderId : String) :
    (db.saveOrder row).order channelId orderId =
      if (channelId, orderId) = row.key then some row else db.order channelId orderId := by
  simp only [Db.saveOrder, Db.order]
  cases hrow : Table.get ChannelOrderRecord.key db.orders (row.channelId, row.providerOrderId) with
  | none =>
    by_cases hkey : (channelId, orderId) = row.key
    · rw [if_pos hkey, hkey]
      refine (Table.get_append_of_none hrow).trans ?_
      simp [Table.get, ChannelOrderRecord.key]
    · rw [if_neg hkey]
      simp only [Table.get, List.find?_append, List.find?_singleton]
      have hne : row.key ≠ (channelId, orderId) := fun h => hkey h.symm
      simp [hne]
  | some old =>
    rw [Table.get_set_row rfl, ChannelOrderRecord.key, hrow, map_some]

theorem upsertOrder_old (h : outOfOrder (db.order order.channelId (providerOrderId rt order))
    (incomingVersion order occurredAt) = true) :
    upsertOrder rt order source sourceEventId eventType occurredAt now db = .ok db := by
  rw [upsertOrder, if_pos h]

theorem upsertOrder_new (h : outOfOrder (db.order order.channelId (providerOrderId rt order))
    (incomingVersion order occurredAt) = false) :
    upsertOrder rt order source sourceEventId eventType occurredAt now db = .ok next ↔
      ∃ state, orderState rt order eventType = .ok state ∧
        ∃ effects, createInventoryEffects rt db.effects order sourceEventId eventType = .ok effects ∧
          next = { db.saveOrder (orderRow rt (db.order order.channelId (providerOrderId rt order))
              order state source (incomingVersion order occurredAt) now) with
            effects := db.effects ++ effects } := by
  rw [upsertOrder, h, if_neg Bool.false_ne_true]
  simp [Txn.bind_eq_ok, Except.ok.injEq, eq_comm (a := next)]

theorem createInventoryEffects_named (h : eventId ≠ "")
    (effects : List ChannelInventoryEffectRecord) (kind : Option String) :
    createInventoryEffects rt effects order (some eventId) kind =
      if normalizeEventType rt order.connectorType (orText kind order.status) = .statusChange then
        .ok [] else (indexed (effectRow rt order eventId (normalizeEventType rt order.connectorType
        (orText kind order.status))) order.items).map (newEffects effects) := by
  unfold createInventoryEffects
  split
  · rename_i hnone
    cases hnone
  · rename_i hempty
    exact absurd (some.inj hempty) h
  · rename_i hsome
    rw [some.inj hsome]

variable {row : ChannelOrderItemRecord} {item : ChannelOrderItem} {orderId : String} {index : Nat}

/-- Rows that can be made up can be stored where no two of a table have one number. -/
theorem orderState_ok {amount : Option Float64}
    (hamount : floatFromRaw rt order.raw ["original_amount", "originalAmount", "original_price"] =
      .ok amount) (hfee : floatFromRaw rt order.raw ["service_fee", "serviceFee"] = .ok fee)
    (hdiscount : floatFromRaw rt order.raw ["discount_amount", "discountAmount"] = .ok discount)
    (hitems : replaceItems rt (providerOrderId rt order) order = .ok items)
    (hinvoices : replaceInvoices rt (providerOrderId rt order) order.raw order.currency =
      .ok invoices) : (∃ state, orderState rt order eventType = .ok state) ↔
      (items.map (·.providerItemId)).Nodup ∧
        ((replaceShipments rt (providerOrderId rt order) order.raw).map (·.shipmentNumber)).Nodup ∧
          (invoices.map (·.invoiceNumber)).Nodup := by
  unfold orderState
  dsimp only
  rw [hamount, hfee, hdiscount, hitems, hinvoices]
  simp only [Bind.bind, Except.bind, OrderState.storable, Bool.and_eq_true, decide_eq_true_eq, and_assoc]
  constructor
  · rintro ⟨state, hstate⟩
    split at hstate
    · assumption
    · cases hstate
  · intro h
    exact ⟨_, if_pos h⟩

theorem itemRow_number (h : itemRow rt orderId index item = .ok row) :
    row.providerItemId = itemNumber rt orderId index item := by
  simp only [itemRow, Txn.bind_eq_ok] at h
  obtain ⟨_, -, _, -, _, -, _, -, h⟩ := h
  cases h
  rfl

/-- An order that can be stored has its effects. -/
theorem createInventoryEffects_ok (h : orderState rt order eventType = .ok state)
    (effects : List ChannelInventoryEffectRecord) (sourceEventId kind : Option String) :
    ∃ created, createInventoryEffects rt effects order sourceEventId kind = .ok created := by
  simp only [orderState, Txn.bind_eq_ok] at h
  obtain ⟨_, -, _, -, _, -, items, hitems, -⟩ := h
  have hrows : ∀ value ∈ order.items.zipIdx, ∃ row, itemRow rt (providerOrderId rt order) value.2
      value.1 = .ok row ∧ True :=
    Txn.mapM_ok_iff.mp ⟨items, hitems, List.forall₂_iff_get.mpr ⟨(Txn.mapM_ok.mp hitems).length_eq,
      fun _ _ _ => trivial⟩⟩
  have heffects : ∀ sourceEventId normalized, ∃ proposed,
      indexed (effectRow rt order sourceEventId normalized) order.items = .ok proposed := by
    intro sourceEventId normalized
    refine Exists.imp (fun _ h => h.1) (Txn.mapM_ok_iff (R := fun _ _ => True) |>.mpr ?_)
    intro value hvalue
    obtain ⟨row, hrow, -⟩ := hrows value hvalue
    obtain ⟨x, hx, -⟩ := Txn.bind_eq_ok.mp hrow
    cases normalized with
    | cancellation => exact ⟨_, by simp only [effectRow, hx]; rfl, trivial⟩
    | purchase => exact ⟨_, rfl, trivial⟩
    | statusChange => exact ⟨_, rfl, trivial⟩
  unfold createInventoryEffects
  split
  · exact ⟨_, rfl⟩
  · exact ⟨_, rfl⟩
  · dsimp only
    split
    · exact ⟨_, rfl⟩
    · obtain ⟨proposed, hproposed⟩ := heffects _ _
      rw [hproposed]
      exact ⟨_, rfl⟩

/-- An order that can be stored is, unless it is older than the stored one. -/
theorem upsertOrder_ok (hstate : orderState rt order eventType = .ok state)
    (h : outOfOrder (db.order order.channelId (providerOrderId rt order))
      (incomingVersion order occurredAt) = false) :
    ∃ next, upsertOrder rt order source sourceEventId eventType occurredAt now db = .ok next := by
  obtain ⟨effects, heffects⟩ := createInventoryEffects_ok hstate db.effects sourceEventId eventType
  exact ⟨_, (upsertOrder_new h).mpr ⟨state, hstate, effects, heffects, rfl⟩⟩

end

end FlowHub.Orders
