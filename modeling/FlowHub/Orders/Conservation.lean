import FlowHub.Orders.Convergence
import FlowHub.Orders.Receipt

namespace FlowHub.Orders

open Python Webhooks List

/-- The effects of an order add up where every purchase and every cancellation is the first of its
kind, is new and can be stored, and a cancellation names no line that nothing is cancelled of. The
items of a receipt all have their effects where no detail of the order stands in for them. -/
theorem quantities_conserved (rt : Runtime)
    (upper : ∀ text ∈ ["PURCHASE", "CANCELLATION"], rt.unicode.upper text = text) :
    (∀ (channelId : Id) (orderId : String) (db : Db) (steps : List OrderStep),
      (∀ e ∈ db.effects, e.channelId = channelId → e.orderId ≠ orderId) →
      (∀ s ∈ steps, s.Of rt channelId orderId) → Counted rt channelId orderId [] db steps →
      Conserved rt channelId orderId steps (steps.foldl (OrderStep.perform rt) db)) ∧
    ∀ (channelId : Id) (providerEventId : String) (raw : Json) (webhook : TapsiShopWebhook)
      (detail : Option Json) (now : Int) (db : Db),
      normalizeTapsishopWebhookPayload rt.unicode rt.printable raw = .ok webhook →
      providerEventId ≠ "" → db.recorded channelId providerEventId = false →
      (∀ e ∈ db.effects, e.channelId = channelId → e.sourceEventId ≠ providerEventId) →
      (Yields rt channelId providerEventId webhook detail now db ↔
        NoDetail rt channelId webhook detail ∧ (webhook.items.map (·.orderItemId)).Nodup ∧
          outOfOrder (db.order channelId webhook.orderId) (parseDt webhook.occurredAt) = false) := by
  constructor
  · intro channelId orderId db steps hnone hof hc
    have hempty : ∀ kind, db.effectsOf channelId orderId kind = [] := by
      intro kind
      rw [Db.effectsOf, filter_eq_nil_iff]
      intro e he
      have hne := hnone e he
      simp only [Bool.and_eq_true, decide_eq_true_eq, not_and]
      intro hpair
      exact absurd hpair.2 (hne hpair.1)
    have hstart : Conserved rt channelId orderId [] db := by
      constructor
      case purchases =>
        rw [hempty]
        simp [total, lastOf]
      case cancellations =>
        rw [hempty]
        simp [total, lastOf]
      case untouched => exact fun s hs => absurd hs not_mem_nil
    have hrun := run_conserved hstart hof hc
    rw [nil_append] at hrun
    exact hrun
  · intro channelId providerEventId raw webhook detail now db hnormal named fresh unseen
    exact yields_iff (normalized hnormal) upper named fresh unseen

namespace Sample

def happens (eventId eventType : String) (items : List ChannelOrderItem) : OrderStep where
  event :=
    { channelId := "snappshop:main", connectorType := .snappshop, eventId, eventType
      occurredAt := none, orderIdentifiers := { orderNumber := some "1001" } }
  order := order eventType none items
  source := .snappshopPoll
  now := 0

def canceled (id : String) (quantity : Rat) (reported : Int) : ChannelOrderItem :=
  line id quantity [("canceled_quantity", .int reported)]

/-- A line of the order without an `id`. -/
def unnumbered (orderItemId info : String) (quantity : Rat) : ChannelOrderItem :=
  { identifiers := {}, name := "", quantity := .ofRat quantity, unitPrice := none
    raw := .obj [("order_item_id", .str orderItemId), ("vendor_product_info_id", .str info)] }

def zeroCancelled : List OrderStep := [happens "e1" "CANCELLATION" [canceled "7" 2 0]]

def cumulative : List OrderStep :=
  [happens "e1" "CANCELLATION" [canceled "7" 3 1], happens "e2" "CANCELLATION" [canceled "7" 3 2]]

def sharedInfo : List OrderStep :=
  [happens "e1" "NEW_ORDER" [unnumbered "1" "9" 2, unnumbered "2" "9" 3]]

def partly : List OrderStep :=
  [happens "e1" "NEW_ORDER" [line "7" 3 [], line "8" 2 []], happens "e2" "CHANGE_STATUS" [line "7" 3 []],
    happens "e3" "CANCELLATION" [canceled "7" 3 1, canceled "8" 2 2]]

def deducted (number : String) : Json :=
  .obj [("requestId", .str number), ("orderItemId", .str number), ("orderId", .str "1001"),
    ("tapsiShopProductId", .str "product"), ("productId", .str "sku"), ("changeType", .int 1),
    ("quantity", .int (-1))]

def notice (numbers : List String) : Json :=
  .obj [("orderDetail", .obj [("orderId", .str "1001"), ("changeType", .int 1)]),
    ("items", .arr (numbers.map deducted))]

/-- The answer to the request for the detail. -/
def answer : Json := .obj [("order", .obj [("orderId", .str "1001"), ("status", .str "1")])]

theorem steps_of (steps : List OrderStep)
    (h : ∀ s ∈ steps, s.event.channelId = "snappshop:main" ∧ s.order.channelId = "snappshop:main" ∧
      providerOrderId runtime s.order = "1001") :
    ∀ s ∈ steps, s.Of runtime "snappshop:main" "1001" := h

theorem state_ok (s : OrderStep)
    (h : (orderState runtime s.order (some s.event.eventType)).toOption.isSome = true) :
    ∃ state, orderState runtime s.order (some s.event.eventType) = .ok state := by
  cases hstate : orderState runtime s.order (some s.event.eventType) with
  | ok state => exact ⟨state, rfl⟩
  | error e =>
    rw [hstate] at h
    cases h

example : ∀ s ∈ partly, (orderState runtime s.order (some s.event.eventType)).toOption.isSome := by
  decide +kernel

example : ∀ s ∈ partly, (orderState runtime s.order (some s.event.eventType)).toOption.isSome := by
  decide +kernel

theorem noticed : ∃ webhook, normalizeTapsishopWebhookPayload runtime.unicode runtime.printable
    (notice ["a", "b"]) = .ok webhook ∧ webhook.orderId = "1001" ∧
      webhook.items.map (·.orderItemId) = ["a", "b"] := by
  have hread : ((normalizeTapsishopWebhookPayload runtime.unicode runtime.printable
      (notice ["a", "b"])).toOption.map fun webhook =>
        (webhook.orderId, webhook.items.map (·.orderItemId))) = some ("1001", ["a", "b"]) := by
    decide +kernel
  cases hresult : normalizeTapsishopWebhookPayload runtime.unicode runtime.printable
      (notice ["a", "b"]) with
  | error e =>
    rw [hresult] at hread
    cases hread
  | ok webhook =>
    rw [hresult] at hread
    obtain ⟨hid, hnumbers⟩ := Prod.mk.inj (Option.some.inj hread)
    exact ⟨webhook, rfl, hid, hnumbers⟩

theorem answered (webhook : TapsiShopWebhook) : ¬ NoDetail runtime "tapsishop:main" webhook answer := by
  intro h
  exact h answer _ rfl rfl

end Sample

open Sample

/-- A cancelled quantity of zero, cumulative quantities, lines that share their number and an answered
request for the detail each leave the sums wrong. -/
theorem quantities_not_conserved : ¬ Conserved runtime "snappshop:main" "1001" zeroCancelled
      (zeroCancelled.foldl (OrderStep.perform runtime) {}) ∧
    ¬ Conserved runtime "snappshop:main" "1001" Sample.cumulative
      (Sample.cumulative.foldl (OrderStep.perform runtime) {}) ∧
    ¬ Conserved runtime "snappshop:main" "1001" sharedInfo
      (sharedInfo.foldl (OrderStep.perform runtime) {}) ∧
    ∃ webhook, normalizeTapsishopWebhookPayload runtime.unicode runtime.printable
        (notice ["a", "b"]) = .ok webhook ∧
      ¬ Yields runtime "tapsishop:main" "event" webhook (some Sample.answer) 0 {} := by
  refine ⟨fun h => ?_, fun h => ?_, fun h => ?_, ?_⟩
  · have hall := h.untouched _ mem_cons_self (by decide +kernel) (canceled "7" 2 0, 0)
      mem_cons_self (by decide +kernel)
    have heffect : ∃ e ∈ (zeroCancelled.foldl (OrderStep.perform runtime) {}).effectsOf
        "snappshop:main" "1001" .cancellation, e.sourceEventId = "e1" ∧ e.providerItemId =
          effectItemNumber runtime "1001" 0 (canceled "7" 2 0) := by decide +kernel
    obtain ⟨e, he, hevent, hitem⟩ := heffect
    exact hall e he hevent hitem
  · exact absurd h.cancellations (by decide +kernel)
  · exact absurd h.purchases (by decide +kernel)
  · obtain ⟨webhook, hwebhook, -⟩ := noticed
    refine ⟨webhook, hwebhook, fun h => ?_⟩
    have hyields := yields_iff (normalized hwebhook) (by decide) (by decide) rfl (by simp) |>.mp h
    exact Sample.answered webhook hyields.1

example : ((partly.foldl (OrderStep.perform runtime) {}).effectsOf "snappshop:main" "1001"
    .cancellation).length = 2 := by
  decide +kernel

theorem quantities_conserved_partly : Conserved runtime "snappshop:main" "1001" partly
      (partly.foldl (OrderStep.perform runtime) {}) ∧
    ∃ webhook, normalizeTapsishopWebhookPayload runtime.unicode runtime.printable
        (notice ["a", "b"]) = .ok webhook ∧
      Yields runtime "tapsishop:main" "event" webhook none 0 {} := by
  obtain ⟨hruns, hreceipts⟩ := quantities_conserved runtime (by decide)
  constructor
  · refine hruns _ _ _ _ (by simp) (steps_of _ (by decide +kernel)) ⟨fun _ => ?_, ?_, fun _ => ?_, trivial⟩
    · exact ⟨⟨rfl, by decide +kernel, state_ok _ (by decide +kernel), by decide, by simp,
        by decide +kernel⟩, by simp,
        fun h => absurd h (by decide +kernel)⟩
    · exact fun h => absurd rfl h
    · exact ⟨⟨by decide +kernel, by decide +kernel, state_ok _ (by decide +kernel),
        by decide, by decide +kernel, by decide +kernel⟩, by decide +kernel, fun _ => by decide +kernel⟩
  · obtain ⟨webhook, hwebhook, horder, hnumbers⟩ := noticed
    refine ⟨webhook, hwebhook, ?_⟩
    refine (hreceipts "tapsishop:main" "event" _ webhook none 0 {} hwebhook (by decide) rfl
      (by simp)).mpr ⟨by simp [NoDetail], ?_, rfl⟩
    rw [hnumbers]
    decide

end FlowHub.Orders
