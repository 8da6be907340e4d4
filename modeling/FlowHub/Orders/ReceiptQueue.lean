import FlowHub.Orders.Convergence
import FlowHub.Orders.Events

namespace FlowHub.Orders

open Python Webhooks List Option Except

/-- The next time a receipt is looked at, it is processed. -/
def pending (receipt : WebhookReceipt) : Bool :=
  decide (receipt.processingState = .queued) || decide (receipt.processingState = .retryScheduled)

def receivedBefore (a b : WebhookReceipt) : Bool :=
  decide (a.receivedAt < b.receivedAt) || decide (a.receivedAt = b.receivedAt) && decide (a.id ≤ b.id)

/-- The receipts that a run of `process_tapsishop_webhook_receipts` takes up. -/
def receiptIds (channelId : Id) (limit : Nat) (db : Db) : List Nat :=
  (((db.webhooks.receipts.filter fun r => decide (r.channelId = channelId) &&
    decide (r.provider = .tapsishop) && pending r).insertionSort fun a b =>
      receivedBefore a b).take limit).map (·.id)

section

variable (rt : Runtime) (detail : Nat → Option Json) (now : Nat → Time)

/-- What a receipt and the answer for its order stage. A receipt of TapsiShop has its payload. -/
def processReceiptEvent (receipt : WebhookReceipt) (db : Db) : Except Fault Db :=
  match receipt.normalizedEvent with
  | .woocommerce _ => .ok db
  | .tapsishop webhook => do
    let db ← processEvent rt
      (eventFromTapsishopReceipt receipt.channelId receipt.providerEventId webhook)
      (orderForTapsishopReceipt rt receipt.channelId receipt.providerEventId webhook
        (detail receipt.id)) .tapsishopWebhook (now receipt.id : Nat) db
    .ok { db with webhooks := markReceiptProcessed (now receipt.id) receipt db.webhooks }

/-- One round of the loop: the receipt is read again. -/
def receiptRound (receiptId : Nat) (db : Db) : Except Fault Db :=
  match db.webhooks.receipt receiptId with
  | none => .ok db
  | some receipt => if pending receipt then processReceiptEvent rt detail now receipt db else .ok db

/-- The loop over the receipts, under a lease that holds: each round is committed, and one that
raises is rolled back and ends the run. -/
def receiptRounds : List Nat → Db → Db × Option Fault
  | [], db => (db, none)
  | receiptId :: rest, db =>
    match receiptRound rt detail now receiptId db with
    | .ok next => receiptRounds rest next
    | .error e => (db, some e)

def processTapsishopWebhookReceipts (channelId : Id) (limit : Nat) (db : Db) : Db × Option Fault :=
  receiptRounds rt detail now (receiptIds channelId limit db) db

/-- The event of a receipt is recorded, its order is older than the stored one, or can be stored. -/
def Storable (receipt : WebhookReceipt) (webhook : TapsiShopWebhook) (db : Db) : Prop :=
  let event := eventFromTapsishopReceipt receipt.channelId receipt.providerEventId webhook
  let order := orderForTapsishopReceipt rt receipt.channelId receipt.providerEventId webhook
    (detail receipt.id)
  db.recorded receipt.channelId receipt.providerEventId = true ∨
    outOfOrder (db.order order.channelId (providerOrderId rt order))
      (incomingVersion order (parseDt event.occurredAt)) = true ∨
    ∃ state, orderState rt order (some event.eventType) = .ok state

/-- Every receipt is storable when its turn comes. -/
def EachStorable : List Nat → Db → Prop
  | [], _ => True
  | receiptId :: rest, db =>
    (∀ receipt webhook, db.webhooks.receipt receiptId = some receipt →
      receipt.normalizedEvent = .tapsishop webhook → Storable rt detail receipt webhook db) ∧
    ∀ next, receiptRound rt detail now receiptId db = .ok next → EachStorable rest next

end

/-- A run has processed a receipt, or has an attempt at it recorded. -/
def Handled (db final : Db) (receiptId : Nat) : Prop :=
  (∃ receipt, final.webhooks.receipt receiptId = some receipt ∧ receipt.processingState = .processed) ∨
    (db.webhooks.attemptsOf receiptId).length < (final.webhooks.attemptsOf receiptId).length

section

variable {rt : Runtime} {detail : Nat → Option Json} {now : Nat → Time} {db next : Db}
  {receipt : WebhookReceipt}

theorem receipt_markReceiptProcessed (t : Time) (webhooks : Webhooks.Db) (receiptId : Nat) :
    (markReceiptProcessed t receipt webhooks).receipt receiptId =
      if receiptId = receipt.id then (webhooks.receipt receipt.id).map fun _ => receipt.finished t
      else webhooks.receipt receiptId :=
  Table.get_set_row rfl

theorem attemptsOf_markReceiptProcessed (t : Time) (webhooks : Webhooks.Db) (receiptId : Nat) :
    ((markReceiptProcessed t receipt webhooks).attemptsOf receiptId).length =
      (webhooks.attemptsOf receiptId).length + if receiptId = receipt.id then 1 else 0 := by
  have hattempt : ((markReceiptProcessed t receipt webhooks).attemptsOf receiptId) =
      webhooks.attemptsOf receiptId ++ [attemptAt (receipt.finished t) none false].filter
        fun a => decide (a.receiptId = receiptId) := filter_append ..
  rw [hattempt, length_append]
  by_cases h : receiptId = receipt.id
  · simp [h, attemptAt, WebhookReceipt.finished]
  · simp [h, attemptAt, WebhookReceipt.finished, Ne.symm h]

theorem upsertOrder_webhooks
    (h : upsertOrder rt order source sourceEventId eventType occurredAt t db = .ok next) :
    next.webhooks = db.webhooks := by
  cases hold : outOfOrder (db.order order.channelId (providerOrderId rt order))
      (incomingVersion order occurredAt) with
  | true =>
    rw [upsertOrder_old hold] at h
    rw [← ok.inj h]
  | false =>
    obtain ⟨state, -, effects, -, rfl⟩ := (upsertOrder_new hold).mp h
    rfl

theorem processEvent_webhooks (h : processEvent rt event order source t db = .ok next) :
    next.webhooks = db.webhooks := by
  cases hrecorded : db.recorded event.channelId event.eventId with
  | true =>
    rw [processEvent_recorded rt order source t hrecorded] at h
    rw [← ok.inj h]
  | false =>
    have hprocess := processEvent_new rt order source t hrecorded
    rw [hprocess] at h
    have hsame := upsertOrder_webhooks h
    exact hsame

/-- An event is processed where it is recorded already, its order is older or can be stored. -/
theorem processEvent_iff : (∃ next, processEvent rt event order source t db = .ok next) ↔
      db.recorded event.channelId event.eventId = true ∨
        outOfOrder (db.order order.channelId (providerOrderId rt order))
          (incomingVersion order (parseDt event.occurredAt)) = true ∨
        ∃ state, orderState rt order (some event.eventType) = .ok state := by
  cases hrecorded : db.recorded event.channelId event.eventId with
  | true => simp [processEvent_recorded rt order source t hrecorded]
  | false =>
    have hprocess := processEvent_new rt order source t hrecorded
    have horder : outOfOrder ((db.addEvent (eventRow rt event source)).order order.channelId
        (providerOrderId rt order)) (incomingVersion order (parseDt event.occurredAt)) =
          outOfOrder (db.order order.channelId (providerOrderId rt order))
            (incomingVersion order (parseDt event.occurredAt)) := rfl
    rw [hprocess, upsertOrderOf]
    cases hold : outOfOrder (db.order order.channelId (providerOrderId rt order))
        (incomingVersion order (parseDt event.occurredAt)) with
    | true => simp [upsertOrder_old (horder.trans hold)]
    | false =>
      simp only [Bool.false_eq_true, false_or]
      constructor
      · rintro ⟨next, hnext⟩
        obtain ⟨state, hstate, -⟩ := (upsertOrder_new (horder.trans hold)).mp hnext
        exact ⟨state, hstate⟩
      · rintro ⟨state, hstate⟩
        exact upsertOrder_ok hstate (horder.trans hold)

theorem receiptRound_other (hne : other ≠ receiptId)
    (h : receiptRound rt detail now receiptId db = .ok next) :
    next.webhooks.receipt other = db.webhooks.receipt other ∧
      (next.webhooks.attemptsOf other).length = (db.webhooks.attemptsOf other).length := by
  unfold receiptRound at h
  cases hfound : db.webhooks.receipt receiptId with
  | none =>
    rw [hfound] at h
    rw [← ok.inj h]
    exact ⟨rfl, rfl⟩
  | some receipt =>
    have hid : receipt.id = receiptId := (Table.get_some hfound).2
    simp only [hfound] at h
    by_cases hpending : pending receipt = true
    · rw [if_pos hpending, processReceiptEvent] at h
      cases hevent : receipt.normalizedEvent with
      | woocommerce event =>
        rw [hevent] at h
        rw [← ok.inj h]
        exact ⟨rfl, rfl⟩
      | tapsishop webhook =>
        simp only [hevent, Txn.bind_eq_ok] at h
        obtain ⟨staged, hstaged, h⟩ := h
        cases h
        have hother : ¬ other = receipt.id := hid ▸ hne
        rw [receipt_markReceiptProcessed, attemptsOf_markReceiptProcessed,
          processEvent_webhooks hstaged, if_neg hother, if_neg hother]
        exact ⟨rfl, rfl⟩
    · rw [if_neg hpending] at h
      rw [← ok.inj h]
      exact ⟨rfl, rfl⟩

/-- The round of a pending receipt ends where the receipt is storable, and has it processed. -/
theorem receiptRound_pending {webhook : TapsiShopWebhook}
    (found : db.webhooks.receipt receipt.id = some receipt) (hpending : pending receipt = true)
    (hevent : receipt.normalizedEvent = .tapsishop webhook) :
    ((∃ next, receiptRound rt detail now receipt.id db = .ok next) ↔ Storable rt detail receipt webhook db) ∧
      ∀ next, receiptRound rt detail now receipt.id db = .ok next →
        next.webhooks.receipt receipt.id = some (receipt.finished (now receipt.id)) := by
  have hround : receiptRound rt detail now receipt.id db =
      (processEvent rt (eventFromTapsishopReceipt receipt.channelId receipt.providerEventId webhook)
        (orderForTapsishopReceipt rt receipt.channelId receipt.providerEventId webhook
          (detail receipt.id)) .tapsishopWebhook (now receipt.id : Nat) db).bind fun db =>
        .ok { db with webhooks := markReceiptProcessed (now receipt.id) receipt db.webhooks } := by
    simp only [receiptRound, found, hpending, if_true, processReceiptEvent, hevent]
    rfl
  rw [hround]
  constructor
  · have hstorable : (∃ staged, processEvent rt
        (eventFromTapsishopReceipt receipt.channelId receipt.providerEventId webhook)
        (orderForTapsishopReceipt rt receipt.channelId receipt.providerEventId webhook
          (detail receipt.id)) .tapsishopWebhook (now receipt.id : Nat) db = .ok staged) ↔
          Storable rt detail receipt webhook db := processEvent_iff
    rw [← hstorable]
    constructor
    · rintro ⟨next, hnext⟩
      obtain ⟨staged, hstaged, -⟩ := Txn.bind_eq_ok.mp hnext
      exact ⟨staged, hstaged⟩
    · rintro ⟨staged, hstaged⟩
      exact ⟨_, Txn.bind_eq_ok.mpr ⟨staged, hstaged, rfl⟩⟩
  · intro next hnext
    obtain ⟨staged, hstaged, hnext⟩ := Txn.bind_eq_ok.mp hnext
    cases hnext
    rw [receipt_markReceiptProcessed, if_pos rfl, processEvent_webhooks hstaged, found, map_some]

theorem receiptRounds_other (hnot : other ∉ ids) :
    (receiptRounds rt detail now ids db).1.webhooks.receipt other = db.webhooks.receipt other ∧
      ((receiptRounds rt detail now ids db).1.webhooks.attemptsOf other).length =
        (db.webhooks.attemptsOf other).length := by
  induction ids generalizing db with
  | nil => exact ⟨rfl, rfl⟩
  | cons id rest ih =>
    rw [mem_cons, not_or] at hnot
    rw [receiptRounds]
    cases hround : receiptRound rt detail now id db with
    | error e => exact ⟨rfl, rfl⟩
    | ok next =>
      obtain ⟨hreceipt, hattempts⟩ := receiptRound_other hnot.1 hround
      obtain ⟨hrest, hcount⟩ := @ih next hnot.2
      exact ⟨hrest.trans hreceipt, hcount.trans hattempts⟩

def Queued (db : Db) (receiptId : Nat) : Prop :=
  ∃ receipt webhook, db.webhooks.receipt receiptId = some receipt ∧ pending receipt = true ∧
    receipt.normalizedEvent = .tapsishop webhook

theorem receiptRounds_handled (distinct : ids.Nodup) (queued : ∀ id ∈ ids, Queued db id) :
    (∀ id ∈ ids, Handled db (receiptRounds rt detail now ids db).1 id) ↔
      EachStorable rt detail now ids db := by
  induction ids generalizing db with
  | nil => simp [EachStorable]
  | cons id rest ih =>
    obtain ⟨hnot, hdistinct⟩ := nodup_cons.mp distinct
    obtain ⟨receipt, webhook, hfound, hpending, hevent⟩ := queued id mem_cons_self
    obtain rfl : receipt.id = id := (Table.get_some hfound).2
    obtain ⟨hends, hprocessed⟩ :=
      @receiptRound_pending rt detail now db receipt webhook hfound hpending hevent
    have hstorable : (∀ receipt' webhook', db.webhooks.receipt receipt.id = some receipt' →
        receipt'.normalizedEvent = .tapsishop webhook' → Storable rt detail receipt' webhook' db) ↔
        Storable rt detail receipt webhook db := by
      constructor
      · intro hall
        exact hall receipt webhook hfound hevent
      · intro h receipt' webhook' hfound' hevent'
        obtain rfl := some.inj (hfound.symm.trans hfound')
        obtain rfl := NormalizedEvent.tapsishop.inj (hevent.symm.trans hevent')
        exact h
    rw [EachStorable, hstorable, ← hends, receiptRounds]
    cases hround : receiptRound rt detail now receipt.id db with
    | error e =>
      -- the run ends here, and leaves no trace of the receipt
      have hunhandled : ¬ Handled db db receipt.id := by
        rintro (⟨after, hafter, hstate⟩ | hmore)
        · obtain rfl := some.inj (hfound.symm.trans hafter)
          simp [pending, hstate] at hpending
        · exact absurd hmore (lt_irrefl _)
      constructor
      · intro hall
        exact absurd (hall receipt.id mem_cons_self) hunhandled
      · rintro ⟨⟨next, hnext⟩, -⟩
        cases hnext
    | ok next =>
      have hqueued : ∀ id ∈ rest, Queued next id := by
        intro id hid
        obtain ⟨r, w, hr, hrest⟩ := queued id (mem_cons_of_mem _ hid)
        have hne : id ≠ receipt.id := fun heq => hnot (heq ▸ hid)
        exact ⟨r, w, (receiptRound_other hne hround).1.trans hr, hrest⟩
      have hhead : Handled db (receiptRounds rt detail now rest next).1 receipt.id := by
        refine .inl ⟨receipt.finished (now receipt.id), ?_, rfl⟩
        exact (receiptRounds_other hnot).1.trans (hprocessed next hround)
      have hsame : ∀ id ∈ rest, (Handled db (receiptRounds rt detail now rest next).1 id ↔
          Handled next (receiptRounds rt detail now rest next).1 id) := by
        intro id hid
        have hne : id ≠ receipt.id := fun heq => hnot (heq ▸ hid)
        rw [Handled, Handled, (receiptRound_other hne hround).2]
      have hrest := @ih next hdistinct hqueued
      constructor
      · intro hall
        refine ⟨⟨next, rfl⟩, fun next' hnext => ?_⟩
        cases hnext
        exact hrest.mp fun id hid => (hsame id hid).mp (hall id (mem_cons_of_mem _ hid))
      · rintro ⟨-, heach⟩
        intro id hid
        rcases mem_cons.mp hid with rfl | hid
        · exact hhead
        · exact (hsame id hid).mpr (hrest.mpr (heach next rfl) id hid)

theorem mem_receiptIds {id : Nat} (h : id ∈ receiptIds channelId limit db) :
    ∃ r ∈ db.webhooks.receipts, r.id = id ∧ r.provider = .tapsishop ∧ pending r = true := by
  obtain ⟨r, hr, hid⟩ := mem_map.mp h
  have hsorted := (mem_insertionSort _).mp (mem_of_mem_take hr)
  obtain ⟨hmem, hkept⟩ := mem_filter.mp hsorted
  simp only [Bool.and_eq_true, decide_eq_true_eq] at hkept
  exact ⟨r, hmem, hid, hkept.1.2, hkept.2⟩

theorem receiptIds_nodup (unique : (db.webhooks.receipts.map WebhookReceipt.id).Nodup)
    (channelId : Id) (limit : Nat) : (receiptIds channelId limit db).Nodup := by
  refine Nodup.sublist ((take_sublist _ _).map _) ?_
  rw [((perm_insertionSort _ _).map _).nodup_iff]
  exact unique.sublist (filter_sublist.map _)

/-- A run handles all the receipts it takes up where each is storable in its turn. -/
theorem receipts_handled (rt : Runtime) (detail : Nat → Option Json) (now : Nat → Time)
    (channelId : Id) (limit : Nat) (db : Db)
    (unique : (db.webhooks.receipts.map WebhookReceipt.id).Nodup)
    (typed : ∀ r ∈ db.webhooks.receipts, r.provider = .tapsishop →
      ∃ webhook, r.normalizedEvent = .tapsishop webhook) :
    (∀ id ∈ receiptIds channelId limit db,
      Handled db (processTapsishopWebhookReceipts rt detail now channelId limit db).1 id) ↔
        EachStorable rt detail now (receiptIds channelId limit db) db := by
  refine receiptRounds_handled (receiptIds_nodup unique channelId limit) fun id hid => ?_
  obtain ⟨r, hr, rfl, hprovider, hpending⟩ := mem_receiptIds hid
  obtain ⟨webhook, hevent⟩ := typed r hr hprovider
  exact ⟨r, webhook, Table.get_of_mem unique hr, hpending, hevent⟩

end

namespace Sample

def piece (requestId orderItemId : String) : TapsiShopItem where
  requestId := requestId
  orderItemId := orderItemId
  orderId := "1001"
  tapsiShopProductId := "product"
  sku := "sku"
  quantity := -1
  changeType := 1
  finalPrice := none
  originalPrice := none
  createdOnTimestamp := none

def bought (a b : String) : TapsiShopWebhook where
  orderId := "1001"
  changeType := 1
  orderNumber := none
  createdOnTimestamp := none
  items := [piece "r1" a, piece "r2" b]
  nonempty := nofun
  distinct := by simp [piece]

def body (a b : String) : Json :=
  .obj [("orderDetail", .obj [("orderId", .str "1001"), ("changeType", .int 1)]),
    ("items", .arr ([("r1", a), ("r2", b)].map fun (requestId, orderItemId) =>
      .obj [("requestId", .str requestId), ("orderItemId", .str orderItemId),
        ("orderId", .str "1001"), ("tapsiShopProductId", .str "product"), ("productId", .str "sku"),
        ("changeType", .int 1), ("quantity", .int (-1))]))]

def queued (id : Nat) (webhook : TapsiShopWebhook) : WebhookReceipt :=
  acceptedReceipt id "tapsishop:main" .tapsishop (toString id) "" (.tapsishop webhook) id

def queue (a b : String) : Db :=
  { webhooks := { receipts := [queued 1 (bought a b), queued 2 (bought "c" "d")] } }

example : receiptIds "tapsishop:main" 1 (queue "a" "b") = [1] := by decide +kernel

/-- A run without a connector. -/
def run (db : Db) : Db :=
  (processTapsishopWebhookReceipts runtime (fun _ => none) id "tapsishop:main" 100 db).1

theorem run_blocked : run (queue "a" "a") = queue "a" "a" := by decide +kernel

theorem storable (receipt : WebhookReceipt) (webhook : TapsiShopWebhook) (db : Db)
    (h : (orderState runtime (orderOfPayload receipt.channelId receipt.providerEventId webhook) (some
      (eventFromTapsishopReceipt receipt.channelId receipt.providerEventId
        webhook).eventType)).toOption.isSome = true) :
    Storable runtime (fun _ => none) receipt webhook db := by
  refine .inr (.inr ?_)
  cases hstate : orderState runtime (orderOfPayload receipt.channelId receipt.providerEventId webhook)
      (some (eventFromTapsishopReceipt receipt.channelId receipt.providerEventId webhook).eventType) with
  | ok state => exact ⟨state, hstate⟩
  | error e =>
    rw [hstate] at h
    cases h

theorem states : ∀ receiptId ∈ [1, 2], ∀ r,
    (queue "a" "a").webhooks.receipt receiptId = some r → r.processingState = .queued := by
  decide +kernel

end Sample

open Sample

/-- A receipt of two items with one number stays at the head of the queue, before all others. -/
theorem receipt_blocks_queue : normalizeTapsishopWebhookPayload runtime.unicode runtime.printable
      (body "a" "a") = .ok (bought "a" "a") ∧
    receiptIds "tapsishop:main" 100 (Sample.queue "a" "a") = [1, 2] ∧
    (∀ receiptId ∈ [1, 2], ¬ Handled (Sample.queue "a" "a") (Sample.run (Sample.queue "a" "a")) receiptId) ∧
    ∀ runs, Sample.run^[runs] (Sample.queue "a" "a") = Sample.queue "a" "a" := by
  refine ⟨by decide +kernel, by decide +kernel, fun receiptId hmem h => ?_,
    fun runs => Function.iterate_fixed run_blocked runs⟩
  rw [run_blocked] at h
  rcases h with ⟨r, hr, hstate⟩ | hmore
  · rw [states receiptId hmem r hr] at hstate
    cases hstate
  · exact absurd hmore (lt_irrefl _)

theorem receipts_handled_distinct : receiptIds "tapsishop:main" 100 (queue "a" "b") = [1, 2] ∧
      ∀ id ∈ receiptIds "tapsishop:main" 100 (queue "a" "b"),
        Handled (queue "a" "b") (Sample.run (queue "a" "b")) id := by
  have hids : receiptIds "tapsishop:main" 100 (queue "a" "b") = [1, 2] := by decide +kernel
  refine ⟨hids, ?_⟩
  refine (receipts_handled runtime (fun _ => none) id "tapsishop:main" 100
    (queue "a" "b") (by decide +kernel) ?_).mpr ?_
  · intro r hr _
    rcases mem_pair.mp hr with rfl | rfl
    · exact ⟨_, rfl⟩
    · exact ⟨_, rfl⟩
  · rw [hids]
    refine ⟨fun receipt webhook hr hevent => ?_, fun next hnext => ⟨fun receipt webhook hr hevent => ?_,
      fun _ _ => trivial⟩⟩
    · cases hr
      obtain rfl := NormalizedEvent.tapsishop.inj hevent
      exact storable _ _ _ (by decide +kernel)
    · rw [(receiptRound_other (by decide) hnext).1] at hr
      cases hr
      obtain rfl := NormalizedEvent.tapsishop.inj hevent
      exact storable _ _ _ (by decide +kernel)

end FlowHub.Orders
