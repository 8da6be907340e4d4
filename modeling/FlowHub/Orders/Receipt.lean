import FlowHub.Orders.Quantities

namespace FlowHub.Orders

open Python Webhooks List Except

theorem webhookRequiredStr_ok (h : webhookRequiredStr u printable value field = .ok text) : text ≠ "" := by
  unfold webhookRequiredStr at h
  split at h
  · rename_i text' hstring
    cases h
    unfold string at hstring
    split at hstring
    · cases hstring
    dsimp only at hstring
    split at hstring
    · cases hstring
    · rename_i hne
      rw [← Option.some.inj hstring]
      exact hne
  · cases h

/-- A webhook as normalization leaves it. -/
structure Normalized (webhook : TapsiShopWebhook) : Prop where
  changeType : webhook.changeType = 1 ∨ webhook.changeType = 2
  orderId : webhook.orderId ≠ ""
  items : ∀ item ∈ webhook.items, item.orderItemId ≠ "" ∧
    item.quantity = if webhook.changeType = 1 then -1 else 1

theorem normalizeTapsishopWebhookItem_number
    (h : normalizeTapsishopWebhookItem u printable orderId changeType raw = .ok item) :
    item.orderItemId ≠ "" := by
  simp only [normalizeTapsishopWebhookItem, Txn.bind_eq_ok] at h
  obtain ⟨_, -, _, -, orderItemId, hnumber, _, -, h⟩ := h
  split at h
  · cases h
  simp only [Txn.bind_eq_ok] at h
  obtain ⟨_, -, _, -, _, -, h⟩ := h
  split at h
  · cases h
  simp only [Txn.bind_eq_ok] at h
  obtain ⟨_, -, _, -, _, -, h⟩ := h
  cases h
  exact webhookRequiredStr_ok hnumber

theorem normalized
    (h : normalizeTapsishopWebhookPayload u printable raw = .ok webhook) : Normalized webhook := by
  have hitems := normalizeTapsishopWebhookPayload_ok h
  simp only [normalizeTapsishopWebhookPayload, Txn.bind_eq_ok] at h
  obtain ⟨_, -, orderId, horderId, changeType, -, h⟩ := h
  split at h
  · cases h
  rename_i hchange
  simp only [Txn.bind_eq_ok] at h
  obtain ⟨rawItems, -, items, hrows, h⟩ := h
  split at h
  · cases h
    constructor
    case changeType =>
      by_cases hone : changeType = 1
      · exact .inl hone
      · refine .inr ?_
        by_contra htwo
        exact hchange ⟨hone, htwo⟩
    case orderId => exact webhookRequiredStr_ok horderId
    case items =>
      intro item hitem
      obtain ⟨raw, -, hraw⟩ := Txn.mem_of_mapM hrows hitem
      exact ⟨normalizeTapsishopWebhookItem_number hraw, (hitems item hitem).2.2⟩
  · cases h

section

variable {rt : Runtime} {webhook : TapsiShopWebhook} {item : TapsiShopItem}

theorem toFloat_price (x : Option Float64) : toFloat rt (Json.ofOption .float x) = .ok x := by
  cases x with
  | none => rfl
  | some x => rfl

theorem canceledQuantity_payload (item : TapsiShopItem) :
    canceledQuantity rt (payloadItem item) = .ok none := rfl

theorem toFloat_orPrice (x y : Option Float64) :
    ∃ z, toFloat rt (orPrice (Json.ofOption .float x) y) = .ok z := by
  unfold orPrice
  split
  · exact ⟨x, toFloat_price x⟩
  · exact ⟨y, toFloat_price y⟩

theorem itemRow_payload (orderId : String) (index : Nat) (hne : item.orderItemId ≠ "") :
    ∃ row, itemRow rt orderId index (payloadItem item) = .ok row ∧ row.providerItemId = item.orderItemId := by
  obtain ⟨original, horiginal⟩ := @toFloat_orPrice rt item.originalPrice
    (payloadItem item).unitPrice
  obtain ⟨final, hfinal⟩ := @toFloat_orPrice rt item.finalPrice (payloadItem item).unitPrice
  have hdeliverable : toFloat rt ((payloadItem item).raw.get "deliverable_quantity") = .ok none := rfl
  have hraw : firstOf (payloadItem item).raw ["original_price", "originalPrice"] =
      Json.ofOption .float item.originalPrice := rfl
  have hraw' : firstOf (payloadItem item).raw ["final_price", "finalPrice"] =
      Json.ofOption .float item.finalPrice := rfl
  have hrow : ∃ row, itemRow rt orderId index (payloadItem item) = .ok row := by
    rw [itemRow, canceledQuantity_payload, hdeliverable, hraw, hraw', horiginal, hfinal]
    exact ⟨_, rfl⟩
  obtain ⟨row, hrow⟩ := hrow
  refine ⟨row, hrow, (itemRow_number hrow).trans ?_⟩
  simp [itemNumber, payloadItem, orElseText, orText]

/-- What each item of a receipt is given by its own number, all are. -/
theorem numbers_payload (normal : Normalized webhook) {number : ChannelOrderItem × Nat → String}
    (h : ∀ (item : TapsiShopItem) (index : Nat), item.orderItemId ≠ "" →
      number (payloadItem item, index) = item.orderItemId) :
    (webhook.items.map payloadItem).zipIdx.map number = webhook.items.map (·.orderItemId) := by
  rw [zipIdx_map, map_map]
  have hfst : webhook.items.map (·.orderItemId) =
      webhook.items.zipIdx.map ((fun item : TapsiShopItem => item.orderItemId) ∘ Prod.fst) := by
    rw [← map_map, zipIdx_map_fst]
  rw [hfst]
  refine map_congr_left fun item hitem => ?_
  have hmem := mem_of_getElem? (mem_zipIdx_iff_getElem?.mp hitem)
  exact h item.1 item.2 (normal.items item.1 hmem).1

variable {channelId : Id} {providerEventId : String} {db : Db} {detail : Option Json} {now : Int}

/-- The order of a receipt can be stored exactly where its items have different numbers. -/
theorem orderState_payload (normal : Normalized webhook) (kind : Option String) :
    (∃ state, orderState rt (orderOfPayload channelId providerEventId webhook) kind = .ok state) ↔
      (webhook.items.map (·.orderItemId)).Nodup := by
  have hrows : ∃ rows, replaceItems rt (providerOrderId rt
      (orderOfPayload channelId providerEventId webhook))
      (orderOfPayload channelId providerEventId webhook) = .ok rows ∧
        rows.map (·.providerItemId) = webhook.items.map (·.orderItemId) := by
    have hall : ∀ value ∈ (webhook.items.map payloadItem).zipIdx, ∃ row,
        itemRow rt (providerOrderId rt (orderOfPayload channelId providerEventId webhook)) value.2
          value.1 = .ok row ∧ itemNumber rt (providerOrderId rt
            (orderOfPayload channelId providerEventId webhook)) value.2 value.1 = row.providerItemId := by
      intro value hvalue
      rw [zipIdx_map] at hvalue
      obtain ⟨item, hitem, rfl⟩ := mem_map.mp hvalue
      have hmem := mem_of_getElem? (mem_zipIdx_iff_getElem?.mp hitem)
      obtain ⟨row, hrow, -⟩ := @itemRow_payload rt item.1 (providerOrderId rt
        (orderOfPayload channelId providerEventId webhook)) item.2 (normal.items item.1 hmem).1
      exact ⟨row, hrow, (itemRow_number hrow).symm⟩
    obtain ⟨rows, hrows, hnumbers⟩ := Txn.mapM_ok_iff.mpr hall
    refine ⟨rows, hrows, ?_⟩
    rw [← forall₂_map_eq hnumbers]
    refine numbers_payload normal fun item index hne => ?_
    simp [itemNumber, payloadItem, orElseText, orText]
  obtain ⟨rows, hrows, hnumbers⟩ := hrows
  have horiginal : floatFromRaw rt (orderOfPayload channelId providerEventId webhook).raw
      ["original_amount", "originalAmount", "original_price"] = .ok none := rfl
  have hfee : floatFromRaw rt (orderOfPayload channelId providerEventId webhook).raw
      ["service_fee", "serviceFee"] = .ok none := rfl
  have hdiscount : floatFromRaw rt (orderOfPayload channelId providerEventId webhook).raw
      ["discount_amount", "discountAmount"] = .ok none := rfl
  have hinvoices : replaceInvoices rt (providerOrderId rt
      (orderOfPayload channelId providerEventId webhook))
      (orderOfPayload channelId providerEventId webhook).raw
      (orderOfPayload channelId providerEventId webhook).currency = .ok [] := rfl
  have hshipments : replaceShipments rt (providerOrderId rt
      (orderOfPayload channelId providerEventId webhook))
      (orderOfPayload channelId providerEventId webhook).raw = [] := rfl
  rw [orderState_ok horiginal hfee hdiscount hrows hinvoices, hshipments, hnumbers]
  simp

/-- The step that the processing of a receipt is. -/
def receiptStep (rt : Runtime) (channelId : Id) (providerEventId : String)
    (webhook : TapsiShopWebhook) (detail : Option Json) (now : Int) : OrderStep where
  event := eventFromTapsishopReceipt channelId providerEventId webhook
  order := orderForTapsishopReceipt rt channelId providerEventId webhook detail
  source := .tapsishopWebhook
  now := now

def kindOf (webhook : TapsiShopWebhook) : EventType :=
  if webhook.changeType = 1 then .purchase else .cancellation

/-- Every item of the payload has its effect. -/
def Yields (rt : Runtime) (channelId : Id) (providerEventId : String) (webhook : TapsiShopWebhook)
    (detail : Option Json) (now : Int) (db : Db) : Prop :=
  ∃ final, processEvent rt (eventFromTapsishopReceipt channelId providerEventId webhook)
      (orderForTapsishopReceipt rt channelId providerEventId webhook detail) .tapsishopWebhook now
      db = .ok final ∧
    ∀ item ∈ webhook.items, ∃ e ∈ final.effects,
      e.key = (channelId, providerEventId, item.orderItemId, kindOf webhook) ∧
        amount e.quantityDelta = item.quantity

/-- The request for the detail is not made or fails. -/
def NoDetail (rt : Runtime) (channelId : Id) (webhook : TapsiShopWebhook) (detail : Option Json) : Prop :=
  ∀ data order, detail = some data → orderDetailFromPayload rt channelId data webhook.orderId ≠ .ok order

theorem orderFor_none (h : NoDetail rt channelId webhook detail) :
    orderForTapsishopReceipt rt channelId providerEventId webhook detail =
      orderOfPayload channelId providerEventId webhook := by
  unfold orderForTapsishopReceipt
  cases detail with
  | none => rfl
  | some data =>
    cases hdetail : orderDetailFromPayload rt channelId data webhook.orderId with
    | ok order => exact absurd hdetail (h data order rfl)
    | error e => simp only [Option.map_some, hdetail]

theorem orderFor_some {data : Json} {order : ChannelOrder}
    (h : orderDetailFromPayload rt channelId data webhook.orderId = .ok order) :
    orderForTapsishopReceipt rt channelId providerEventId webhook (some data) = order ∧ order.items = [] := by
  constructor
  · simp [orderForTapsishopReceipt, Option.map_some, h]
  simp only [orderDetailFromPayload, Txn.bind_eq_ok] at h
  obtain ⟨total, -, h⟩ := h
  cases h
  rfl

/-- Without items, or out of order, an event adds no effect. -/
theorem nothing_added {s : OrderStep} {final : Db}
    (hnew : db.recorded s.event.channelId s.event.eventId = false)
    (h : s.order.items = [] ∨ outOfOrder (db.order s.order.channelId (providerOrderId rt s.order))
      (incomingVersion s.order (parseDt s.event.occurredAt)) = true)
    (hfinal : processEvent rt s.event s.order s.source s.now db = .ok final) :
    final.effects = db.effects := by
  have hprocess := processEvent_new rt s.order s.source s.now hnew
  rw [hprocess, upsertOrderOf] at hfinal
  cases hold : outOfOrder ((db.addEvent (eventRow rt s.event s.source)).order s.order.channelId
      (providerOrderId rt s.order)) (incomingVersion s.order (parseDt s.event.occurredAt)) with
  | true =>
    rw [upsertOrder_old hold] at hfinal
    cases hfinal
    rfl
  | false =>
    have hitems := h.resolve_right (by
      intro htrue
      exact absurd (htrue.symm.trans hold) (by decide))
    obtain ⟨state, -, effects, heffects, rfl⟩ := (upsertOrder_new hold).mp hfinal
    have hnil : effects = [] := by
      unfold createInventoryEffects at heffects
      rw [hitems] at heffects
      split at heffects
      · exact (ok.inj heffects).symm
      · exact (ok.inj heffects).symm
      · dsimp only at heffects
        split at heffects
        · exact (ok.inj heffects).symm
        · exact (ok.inj heffects).symm
    rw [hnil]
    exact append_nil _

theorem incoming_payload : incomingVersion (orderOfPayload channelId providerEventId webhook)
    (parseDt (eventFromTapsishopReceipt channelId providerEventId webhook).occurredAt) =
      parseDt webhook.occurredAt := by
  cases hat : webhook.createdOnTimestamp with
  | none => simp [incomingVersion, orderOfPayload, eventFromTapsishopReceipt, orElseText,
      TapsiShopWebhook.occurredAt, hat, parseDt, parseIso]
  | some text =>
    by_cases hempty : text = ""
    · simp [incomingVersion, orderOfPayload, eventFromTapsishopReceipt, orElseText,
        TapsiShopWebhook.occurredAt, hat, hempty, parseDt, parseIso]
    · simp [incomingVersion, orderOfPayload, eventFromTapsishopReceipt, orElseText,
        TapsiShopWebhook.occurredAt, hat]

theorem providerOrderId_payload (normal : Normalized webhook) :
    providerOrderId rt (orderOfPayload channelId providerEventId webhook) = webhook.orderId := by
  have hne := normal.orderId
  simp [providerOrderId, orderOfPayload, orElseText, orText]

theorem kind_payload (normal : Normalized webhook) (order : ChannelOrder)
    (tapsishop : order.connectorType = .tapsishop)
    (upper : ∀ text ∈ ["PURCHASE", "CANCELLATION"], rt.unicode.upper text = text) :
    normalizeEventType rt order.connectorType (orText
      (some (eventFromTapsishopReceipt channelId providerEventId webhook).eventType) order.status) =
      kindOf webhook := by
  have hpurchase := upper "PURCHASE" (by simp)
  have hcancellation := upper "CANCELLATION" (by simp)
  rw [tapsishop]
  rcases normal.changeType with h | h
  · simp [eventFromTapsishopReceipt, kindOf, orText, normalizeEventType, h, hpurchase]
  · simp [eventFromTapsishopReceipt, kindOf, orText, normalizeEventType, h, hcancellation]

/-- An effect is one piece, taken by a purchase and given back by a cancellation. -/
theorem amount_payload (normal : Normalized webhook) (hitem : item ∈ webhook.items) :
    (kindOf webhook = .purchase → -amount (payloadItem item).quantity = item.quantity) ∧
      (kindOf webhook = .cancellation → amount (payloadItem item).quantity = item.quantity) := by
  have hone : amount (payloadItem item).quantity = 1 := by
    have hq := (normal.items item hitem).2
    rw [payloadItem, amount_abs, amount_ofRat]
    · split at hq
      · rw [hq]
        norm_num
      · rw [hq]
        norm_num
    · apply unit_double
      split at hq
      · exact .inr (by rw [hq]; norm_num)
      · exact .inl (by rw [hq]; norm_num)
  have hq := (normal.items item hitem).2
  rw [hone]
  unfold kindOf
  split at hq
  · rename_i hchange
    rw [if_pos hchange, hq]
    exact ⟨fun _ => by norm_num, nofun⟩
  · rename_i hchange
    rw [if_neg hchange, hq]
    exact ⟨nofun, fun _ => by norm_num⟩

/-- A receipt yields the effects of its items exactly where no detail stands in for them. -/
theorem yields_iff (normal : Normalized webhook)
    (upper : ∀ text ∈ ["PURCHASE", "CANCELLATION"], rt.unicode.upper text = text)
    (named : providerEventId ≠ "") (fresh : db.recorded channelId providerEventId = false)
    (unseen : ∀ e ∈ db.effects, e.channelId = channelId → e.sourceEventId ≠ providerEventId) :
    Yields rt channelId providerEventId webhook detail now db ↔
      NoDetail rt channelId webhook detail ∧ (webhook.items.map (·.orderItemId)).Nodup ∧
        outOfOrder (db.order channelId webhook.orderId) (parseDt webhook.occurredAt) = false := by
  obtain ⟨item, hitem⟩ := exists_mem_of_ne_nil _ webhook.nonempty
  let s := receiptStep rt channelId providerEventId webhook detail now
  have hadds : Yields rt channelId providerEventId webhook detail now db →
      s.order.items ≠ [] ∧ outOfOrder (db.order s.order.channelId (providerOrderId rt s.order))
        (incomingVersion s.order (parseDt s.event.occurredAt)) = false := by
    rintro ⟨final, hfinal, hall⟩
    obtain ⟨e, he, hkey, -⟩ := hall item hitem
    obtain ⟨hchannel, hrest⟩ := Prod.mk.inj hkey
    by_contra hnot
    have hcase : s.order.items = [] ∨ outOfOrder (db.order s.order.channelId
        (providerOrderId rt s.order)) (incomingVersion s.order (parseDt s.event.occurredAt)) = true := by
      by_cases hempty : s.order.items = []
      · exact .inl hempty
      · exact .inr (Bool.eq_true_of_not_eq_false fun h => hnot ⟨hempty, h⟩)
    rw [nothing_added (s := s) fresh hcase hfinal] at he
    exact unseen e he hchannel (Prod.mk.inj hrest).1
  constructor
  · intro hyields
    obtain ⟨hitems, hinOrder⟩ := hadds hyields
    have hdetail : NoDetail rt channelId webhook detail := by
      intro data order hdata hok
      have hsome := @orderFor_some rt webhook channelId providerEventId data order hok
      have hstep : s.order = order := by
        rw [← hsome.1, ← hdata]
        rfl
      exact hitems (hstep ▸ hsome.2)
    have horder : s.order = orderOfPayload channelId providerEventId webhook := orderFor_none hdetail
    obtain ⟨final, hfinal, -⟩ := hyields
    have hnew : db.recorded s.event.channelId s.event.eventId = false := fresh
    have hprocess := processEvent_new rt s.order s.source s.now hnew
    have hupsert := hprocess.symm.trans hfinal
    rw [upsertOrderOf, horder] at hupsert
    rw [horder] at hinOrder
    have hnotOld : outOfOrder ((db.addEvent (eventRow rt s.event s.source)).order
        (orderOfPayload channelId providerEventId webhook).channelId
        (providerOrderId rt (orderOfPayload channelId providerEventId webhook)))
        (incomingVersion (orderOfPayload channelId providerEventId webhook)
          (parseDt s.event.occurredAt)) = false := hinOrder
    obtain ⟨state, hstate, -⟩ := (upsertOrder_new hnotOld).mp hupsert
    have hnodup := (orderState_payload normal _).mp ⟨state, hstate⟩
    have hversion : incomingVersion (orderOfPayload channelId providerEventId webhook)
        (parseDt s.event.occurredAt) = parseDt webhook.occurredAt := incoming_payload
    rw [providerOrderId_payload normal, hversion] at hinOrder
    exact ⟨hdetail, hnodup, hinOrder⟩
  · rintro ⟨hdetail, hnodup, hinOrder⟩
    have horder : s.order = orderOfPayload channelId providerEventId webhook := orderFor_none hdetail
    have hkind : s.kind rt = kindOf webhook := by
      rw [OrderStep.kind]
      refine kind_payload normal s.order ?_ upper
      rw [horder]
      rfl
    have hchange : s.kind rt ≠ .statusChange := by
      rw [hkind, kindOf]
      split
      · intro h
        cases h
      · intro h
        cases h
    have hversion : incomingVersion (orderOfPayload channelId providerEventId webhook)
        (parseDt s.event.occurredAt) = parseDt webhook.occurredAt := incoming_payload
    have hof : s.Of rt channelId webhook.orderId := by
      refine ⟨rfl, ?_, ?_⟩
      · rw [horder]
        rfl
      · rw [horder, providerOrderId_payload normal]
    have hnumber : ∀ (item : TapsiShopItem) (index : Nat), item.orderItemId ≠ "" →
        effectItemNumber rt (providerOrderId rt s.order) index (payloadItem item) = item.orderItemId := by
      intro item index hne
      simp [effectItemNumber, payloadItem, orElseText, orText]
    have happlies : Applies rt channelId webhook.orderId db s := by
      constructor
      case fresh => exact fresh
      case inOrder =>
        rw [horder, hversion]
        exact hinOrder
      case storable =>
        rw [horder]
        exact (orderState_payload normal _).mpr hnodup
      case named => exact named
      case unseen => exact unseen
      case numbers =>
        have hnumbers : s.numbers rt = webhook.items.map (·.orderItemId) := by
          have hall : (webhook.items.map payloadItem).zipIdx.map (fun value =>
              effectItemNumber rt (providerOrderId rt s.order) value.2 value.1) =
                webhook.items.map (·.orderItemId) := numbers_payload normal hnumber
          rw [← hall, OrderStep.numbers, horder]
          rfl
        rw [hnumbers]
        exact hnodup
    obtain ⟨rows, next, hrows, hnext, hadds⟩ := performed_rows hof hchange happlies
    refine ⟨next, hnext, ?_⟩
    intro item hitem
    obtain ⟨index, hindex⟩ := mem_iff_getElem?.mp hitem
    have hpayload : (payloadItem item, index) ∈ s.order.items.zipIdx := by
      rw [mem_zipIdx_iff_getElem?, horder]
      simp [orderOfPayload, hindex]
    obtain ⟨row, hrow, heffect⟩ := forall₂_right_mem (Txn.mapM_ok.mp hrows) hpayload
    obtain ⟨hkey, -, hpurchase, -, hcancellation⟩ := effectRow_ok heffect
    have hquantity := amount_payload normal hitem
    refine ⟨row, hadds ▸ mem_append_right _ hrow, ?_, ?_⟩
    · rw [hkey, hof.2.1, hkind, hnumber item index (normal.items item hitem).1]
      rfl
    rw [hkind] at hpurchase hcancellation
    unfold kindOf at hpurchase hcancellation hquantity
    split at hquantity
    · rw [if_pos ‹_›] at hpurchase
      rw [hpurchase rfl]
      exact hquantity.1 rfl
    · rw [if_neg ‹_›] at hcancellation
      rw [hcancellation rfl rfl]
      exact hquantity.2 rfl

end

end FlowHub.Orders
