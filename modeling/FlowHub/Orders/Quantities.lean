import FlowHub.Orders.Events
import FlowHub.Related

namespace FlowHub.Orders

open Python Webhooks List

/-- The number that a double is. -/
def amount : Float64 → ℚ
  | .finite x => x.val
  | _ => 0

/-- An event as a route hands it over, with the order that is fetched for it. -/
structure OrderStep where
  event : ChannelOrderEvent
  order : ChannelOrder
  source : Source
  now : Int

section

variable (rt : Runtime)

def OrderStep.kind (s : OrderStep) : EventType :=
  normalizeEventType rt s.order.connectorType (orText (some s.event.eventType) s.order.status)

/-- An event that raises is rolled back. -/
def OrderStep.perform (db : Db) (s : OrderStep) : Db :=
  match processEvent rt s.event s.order s.source s.now db with
  | .ok next => next
  | .error _ => db

/-- The quantities of a purchase. -/
def OrderStep.ordered (s : OrderStep) : ℚ := (s.order.items.map fun item => amount item.quantity).sum

/-- The cancelled quantity that an item reports so far. -/
def reported (item : ChannelOrderItem) : ℚ :=
  match canceledQuantity rt item with
  | .ok (some x) => amount x
  | _ => 0

def OrderStep.cancelled (s : OrderStep) : ℚ := (s.order.items.map (reported rt)).sum

/-- The numbers that the effects of the items go by. -/
def OrderStep.numbers (s : OrderStep) : List String :=
  s.order.items.zipIdx.map fun item =>
    effectItemNumber rt (providerOrderId rt s.order) item.2 item.1

end

def Db.effectsOf (db : Db) (channelId : Id) (orderId : String) (kind : EventType) :
    List ChannelInventoryEffectRecord :=
  db.effects.filter fun e => decide (e.channelId = channelId) && decide (e.orderId = orderId) &&
    decide (e.effectType = kind)

def total (effects : List ChannelInventoryEffectRecord) : ℚ :=
  (effects.map fun e => amount e.quantityDelta).sum

section

variable (rt : Runtime) (channelId : Id) (orderId : String)

def OrderStep.Of (s : OrderStep) : Prop :=
  s.event.channelId = channelId ∧ s.order.channelId = channelId ∧ providerOrderId rt s.order = orderId

/-- What the last event of a kind says. -/
def lastOf (kind : EventType) (quantity : OrderStep → ℚ) (steps : List OrderStep) : ℚ :=
  ((steps.filter fun s => decide (s.kind rt = kind)).getLast?.map quantity).getD 0

/-- The effects of an order add up to what was ordered and to what was cancelled. -/
structure Conserved (steps : List OrderStep) (db : Db) : Prop where
  purchases : total (db.effectsOf channelId orderId .purchase) = -lastOf rt .purchase OrderStep.ordered steps
  cancellations : total (db.effectsOf channelId orderId .cancellation) =
    lastOf rt .cancellation (OrderStep.cancelled rt) steps
  untouched : ∀ s ∈ steps, s.kind rt = .cancellation → ∀ item ∈ s.order.items.zipIdx,
    reported rt item.1 = 0 → ∀ e ∈ db.effectsOf channelId orderId .cancellation,
      e.sourceEventId = s.event.eventId → e.providerItemId ≠ effectItemNumber rt orderId item.2 item.1

/-- A new event, no older than the stored order, whose order can be stored and has items of
different numbers. -/
structure Applies (db : Db) (s : OrderStep) : Prop where
  fresh : db.recorded channelId s.event.eventId = false
  inOrder : outOfOrder (db.order channelId orderId)
    (incomingVersion s.order (parseDt s.event.occurredAt)) = false
  storable : ∃ state, orderState rt s.order (some s.event.eventType) = .ok state
  named : s.event.eventId ≠ ""
  unseen : ∀ e ∈ db.effects, e.channelId = channelId → e.sourceEventId ≠ s.event.eventId
  numbers : (s.numbers rt).Nodup

/-- The first event of its kind, each item of which a cancellation reports as cancelled. -/
structure Counts (done : List OrderStep) (db : Db) (s : OrderStep) : Prop
    extends Applies rt channelId orderId db s where
  first : ∀ earlier ∈ done, earlier.kind rt ≠ s.kind rt
  cancels : s.kind rt = .cancellation → ∀ item ∈ s.order.items, reported rt item ≠ 0

/-- Every purchase and cancellation of a run counts. -/
def Counted : List OrderStep → Db → List OrderStep → Prop
  | _, _, [] => True
  | done, db, s :: rest => (s.kind rt ≠ .statusChange → Counts rt channelId orderId done db s) ∧
      Counted (done ++ [s]) (s.perform rt db) rest

end

section

theorem unit_double {sign : ℚ} (h : sign = 1 ∨ sign = -1) : Float64.IsDouble sign := by
  have hgrid : Binary64.nearest ((1 : ℤ) : ℚ) = ((1 : ℤ) : ℚ) :=
    Binary64.nearest_of_onGrid (Binary64.onGrid_int (by norm_num))
  have hsmall : |(1 : ℚ)| < 2 ^ 1024 := by
    rw [abs_one]
    exact one_lt_pow₀ (by norm_num) (by norm_num)
  rw [Int.cast_one] at hgrid
  rcases h with rfl | rfl
  · exact ⟨hgrid, hsmall⟩
  · exact ⟨by rw [Binary64.nearest_neg, hgrid], by rwa [abs_neg]⟩

theorem amount_ofRat (h : Float64.IsDouble q) : amount (.ofRat q) = q := by
  obtain ⟨b, hb, hval⟩ := Float64.ofRat_exact_iff.mpr h
  rw [hb, amount, hval]

theorem amount_abs (x : Float64) : amount x.abs = |amount x| := by
  cases x with
  | finite y => rfl
  | infinite negative => simp [Float64.abs, amount]
  | nan => simp [Float64.abs, amount]

theorem amount_mul {sign : ℚ} (h : sign = 1 ∨ sign = -1) (x : Float64) :
    amount (Float64.mul (.ofRat sign) x) = sign * amount x := by
  obtain ⟨b, hb, hval⟩ := Float64.ofRat_exact_iff.mpr (unit_double h)
  have hne : sign ≠ 0 := by
    rcases h with rfl | rfl
    · norm_num
    · norm_num
  rw [hb]
  cases x with
  | nan => simp [Float64.mul, amount]
  | infinite negative => simp [Float64.mul, amount, hval, hne]
  | finite y =>
    have hdouble : Float64.IsDouble (b.val * y.val) := by
      rw [hval]
      rcases h with rfl | rfl
      · rw [one_mul]
        exact y.property
      · rw [neg_one_mul]
        exact ⟨by rw [Binary64.nearest_neg, y.property.1], by rw [abs_neg]; exact y.property.2⟩
    rw [Float64.mul, amount_ofRat hdouble, hval, amount]

theorem newEffects_eq (distinct : (rows.map ChannelInventoryEffectRecord.key).Nodup)
    (unseen : ∀ row ∈ rows, row.key ∉ effects.map ChannelInventoryEffectRecord.key) :
    newEffects effects rows = rows := by
  induction rows generalizing effects with
  | nil => rfl
  | cons row rest ih =>
    rw [map_cons, nodup_cons] at distinct
    rw [newEffects, if_neg (unseen row mem_cons_self), ih distinct.2]
    intro other hother
    rw [map_append, mem_append, map_singleton, mem_singleton]
    rintro (hold | hsame)
    · exact unseen other (mem_cons_of_mem _ hother) hold
    · exact distinct.1 (hsame ▸ mem_map_of_mem hother)

variable {rt : Runtime} {channelId : Id} {orderId : String} {db : Db} {s : OrderStep}
  {done : List OrderStep}

/-- What an effect says of the item that it is of. -/
theorem effectRow_ok (h : effectRow rt order sourceEventId kind index item = .ok row) :
    row.key = (order.channelId, sourceEventId,
        effectItemNumber rt (providerOrderId rt order) index item, kind) ∧
      row.orderId = providerOrderId rt order ∧
      (kind = .purchase → amount row.quantityDelta = -amount item.quantity) ∧
      (kind = .cancellation → reported rt item ≠ 0 → amount row.quantityDelta = reported rt item) ∧
      (kind = .cancellation → canceledQuantity rt item = .ok none →
        amount row.quantityDelta = amount item.quantity) := by
  cases kind with
  | purchase =>
    cases h
    refine ⟨rfl, rfl, fun _ => ?_, by rintro ⟨⟩, by rintro ⟨⟩⟩
    rw [if_pos rfl, amount_mul (.inr rfl), neg_one_mul]
  | cancellation =>
    simp only [effectRow, Txn.bind_eq_ok] at h
    obtain ⟨canceled, hcanceled, quantity, hquantity, h⟩ := h
    cases hquantity
    cases h
    refine ⟨rfl, rfl, by rintro ⟨⟩, fun _ hreported => ?_, fun _ hnone => ?_⟩
    · simp only [reported, hcanceled] at hreported ⊢
      cases canceled with
      | none => exact absurd rfl hreported
      | some x =>
        have hzero : x ≠ Float64.zero := by
          rintro rfl
          exact hreported (by simp [Float64.zero, Float64.ofNat, amount])
        rw [if_neg (by decide), amount_mul (.inl rfl), orNumber, if_neg hzero, one_mul]
    · rw [hcanceled] at hnone
      cases hnone
      rw [if_neg (by decide), amount_mul (.inl rfl), one_mul]
      rfl
  | statusChange =>
    cases h
    exact ⟨rfl, rfl, by rintro ⟨⟩, by rintro ⟨⟩, by rintro ⟨⟩⟩

/-- A change of status leaves the effects as they are. -/
theorem performed_same (h : s.kind rt = .statusChange) : (s.perform rt db).effects = db.effects := by
  have hnone : ∀ effects, createInventoryEffects rt effects s.order (some s.event.eventId)
      (some s.event.eventType) = .ok [] := by
    intro effects
    unfold createInventoryEffects
    split
    · rfl
    · rfl
    · exact if_pos h
  unfold OrderStep.perform
  cases hresult : processEvent rt s.event s.order s.source s.now db with
  | error e => rfl
  | ok next =>
    cases hnew : db.recorded s.event.channelId s.event.eventId with
    | true =>
      rw [processEvent_recorded rt s.order s.source s.now hnew] at hresult
      cases hresult
      rfl
    | false =>
      have hprocess := processEvent_new rt s.order s.source s.now hnew
      rw [hprocess, upsertOrderOf] at hresult
      cases hold : outOfOrder ((db.addEvent (eventRow rt s.event s.source)).order s.order.channelId
          (providerOrderId rt s.order)) (incomingVersion s.order (parseDt s.event.occurredAt)) with
      | true =>
        rw [upsertOrder_old hold] at hresult
        cases hresult
        rfl
      | false =>
        obtain ⟨state, -, effects, heffects, rfl⟩ := (upsertOrder_new hold).mp hresult
        rw [hnone] at heffects
        cases heffects
        exact append_nil _

/-- A step that applies adds the effects of its items. -/
theorem performed_rows (hof : s.Of rt channelId orderId) (hkind : s.kind rt ≠ .statusChange)
    (h : Applies rt channelId orderId db s) :
    ∃ rows next, indexed (effectRow rt s.order s.event.eventId (s.kind rt)) s.order.items = .ok rows ∧
      processEvent rt s.event s.order s.source s.now db = .ok next ∧ next.effects = db.effects ++ rows := by
  obtain ⟨hevent, horder, hid⟩ := hof
  obtain ⟨state, hstate⟩ := h.storable
  have hnew : db.recorded s.event.channelId s.event.eventId = false := hevent ▸ h.fresh
  have hprocess := processEvent_new rt s.order s.source s.now hnew
  have hinOrder : outOfOrder ((db.addEvent (eventRow rt s.event s.source)).order s.order.channelId
      (providerOrderId rt s.order)) (incomingVersion s.order (parseDt s.event.occurredAt)) = false := by
    rw [horder, hid]
    exact h.inOrder
  obtain ⟨created, hcreated⟩ := createInventoryEffects_ok hstate db.effects (some s.event.eventId)
    (some s.event.eventType)
  have hall := (createInventoryEffects_named h.named db.effects _).trans (if_neg hkind)
  rw [hcreated, eq_comm, Txn.map_eq_ok] at hall
  obtain ⟨rows, hrows, hsame⟩ := hall
  have hkeys : Forall₂ (fun item row => (channelId, s.event.eventId,
      effectItemNumber rt (providerOrderId rt s.order) item.2 item.1, s.kind rt) =
        ChannelInventoryEffectRecord.key row) s.order.items.zipIdx rows := by
    refine (Txn.mapM_ok.mp hrows).imp fun item row hrow => ?_
    rw [← horder]
    exact (effectRow_ok hrow).1.symm
  have hdistinct : (rows.map ChannelInventoryEffectRecord.key).Nodup := by
    have hmap : s.order.items.zipIdx.map (fun item => (channelId, s.event.eventId,
        effectItemNumber rt (providerOrderId rt s.order) item.2 item.1, s.kind rt)) =
        (s.numbers rt).map fun number => (channelId, s.event.eventId, number, s.kind rt) := by
      rw [OrderStep.numbers, map_map]
      rfl
    rw [← forall₂_map_eq hkeys, hmap]
    refine h.numbers.map fun a b heq => ?_
    simpa using heq
  have hunseen : ∀ row ∈ rows, row.key ∉ db.effects.map ChannelInventoryEffectRecord.key := by
    intro row hrow hmem
    obtain ⟨item, -, hkey⟩ := forall₂_left hkeys hrow
    obtain ⟨e, he, hsame⟩ := mem_map.mp hmem
    rw [← hkey] at hsame
    obtain ⟨hchannel, hrest⟩ := Prod.mk.inj hsame
    exact h.unseen e he hchannel (Prod.mk.inj hrest).1
  rw [newEffects_eq hdistinct hunseen] at hsame
  subst hsame
  have hupsert : ∃ next, upsertOrderOf rt s.event s.order s.source s.now
      (db.addEvent (eventRow rt s.event s.source)) = .ok next ∧ next.effects = db.effects ++ rows :=
    ⟨_, (upsertOrder_new hinOrder).mpr ⟨state, hstate, rows, hcreated, rfl⟩, rfl⟩
  obtain ⟨next, hnext, hadds⟩ := hupsert
  exact ⟨rows, next, hrows, hprocess.trans hnext, hadds⟩

/-- The effects that a step adds are all of its event and of its kind. -/
theorem performed_effectsOf (hof : s.Of rt channelId orderId)
    (hrows : indexed (effectRow rt s.order s.event.eventId (s.kind rt)) s.order.items = .ok rows)
    (heffects : (s.perform rt db).effects = db.effects ++ rows) (kind : EventType) :
    (s.perform rt db).effectsOf channelId orderId kind =
      db.effectsOf channelId orderId kind ++ if s.kind rt = kind then rows else [] := by
  obtain ⟨-, horder, hid⟩ := hof
  have hrow : ∀ row ∈ rows, row.channelId = channelId ∧ row.orderId = orderId ∧
      row.effectType = s.kind rt := by
    intro row hmem
    obtain ⟨item, -, hitem⟩ := forall₂_left (Txn.mapM_ok.mp hrows) hmem
    obtain ⟨hkey, horderId, -⟩ := effectRow_ok hitem
    obtain ⟨hchannel, hrest⟩ := Prod.mk.inj hkey
    exact ⟨hchannel.trans horder, horderId.trans hid, (Prod.mk.inj (Prod.mk.inj hrest).2).2⟩
  rw [Db.effectsOf, Db.effectsOf, heffects, filter_append]
  congr 1
  by_cases hsame : s.kind rt = kind
  · rw [if_pos hsame, filter_eq_self]
    intro row hmem
    obtain ⟨hc, ho, ht⟩ := hrow row hmem
    simp [hc, ho, ht, hsame]
  · rw [if_neg hsame, filter_eq_nil_iff]
    intro row hmem
    obtain ⟨-, -, ht⟩ := hrow row hmem
    simp [ht, hsame]

theorem total_append (effects more : List ChannelInventoryEffectRecord) :
    total (effects ++ more) = total effects + total more := by
  simp [total]

theorem lastOf_append (kind : EventType) (quantity : OrderStep → ℚ) (steps : List OrderStep)
    (s : OrderStep) : lastOf rt kind quantity (steps ++ [s]) =
      if s.kind rt = kind then quantity s else lastOf rt kind quantity steps := by
  by_cases h : s.kind rt = kind
  · simp [lastOf, h]
  · simp [lastOf, h]

theorem lastOf_none (quantity : OrderStep → ℚ)
    (h : ∀ s ∈ steps, s.kind rt ≠ kind) : lastOf rt kind quantity steps = 0 := by
  have hnone : steps.filter (fun s => decide (s.kind rt = kind)) = [] := by
    rw [filter_eq_nil_iff]
    intro s hs
    simpa using h s hs
  rw [lastOf, hnone]
  rfl

/-- What a step adds up to. -/
theorem rows_total
    (hrows : indexed (effectRow rt s.order s.event.eventId (s.kind rt)) s.order.items = .ok rows) :
    (s.kind rt = .purchase → total rows = -s.ordered) ∧
      (s.kind rt = .cancellation → (∀ item ∈ s.order.items, reported rt item ≠ 0) →
        total rows = s.cancelled rt) := by
  have hall := Txn.mapM_ok.mp hrows
  have hitems : ∀ f : ChannelOrderItem → ℚ,
      s.order.items.zipIdx.map (fun item => f item.1) = s.order.items.map f := by
    intro f
    have hcomp : (fun item : ChannelOrderItem × Nat => f item.1) = f ∘ Prod.fst := rfl
    rw [hcomp, ← map_map, zipIdx_map_fst]
  constructor
  · intro hkind
    have hmap : s.order.items.zipIdx.map (fun item => -amount item.1.quantity) =
        rows.map fun row => amount row.quantityDelta :=
      forall₂_map_eq (hall.imp fun item row h => ((effectRow_ok h).2.2.1 hkind).symm)
    rw [total, ← hmap, hitems fun item => -amount item.quantity, OrderStep.ordered]
    induction s.order.items with
    | nil => simp
    | cons item rest ih =>
      simp only [map_cons, sum_cons, ih]
      ring
  · intro hkind hreported
    have hmem : ∀ item ∈ s.order.items.zipIdx, item.1 ∈ s.order.items := by
      intro item hitem
      exact mem_of_getElem? (mem_zipIdx_iff_getElem?.mp hitem)
    have hmap : s.order.items.zipIdx.map (fun item => reported rt item.1) =
        rows.map fun row => amount row.quantityDelta := by
      refine forall₂_map_eq (((forall₂_and_left _ _).mpr ⟨hmem, hall⟩).imp fun item row h => ?_)
      exact ((effectRow_ok h.2).2.2.2.1 hkind (hreported _ h.1)).symm
    rw [total, ← hmap, hitems, OrderStep.cancelled]

theorem Conserved.perform (h : Conserved rt channelId orderId done db) (hof : s.Of rt channelId orderId)
    (hc : s.kind rt ≠ .statusChange → Counts rt channelId orderId done db s) :
    Conserved rt channelId orderId (done ++ [s]) (s.perform rt db) := by
  by_cases hkind : s.kind rt = .statusChange
  · have hsame : ∀ kind, (s.perform rt db).effectsOf channelId orderId kind =
        db.effectsOf channelId orderId kind := by
      intro kind
      rw [Db.effectsOf, performed_same hkind, Db.effectsOf]
    have hother : ∀ earlier ∈ done ++ [s], earlier.kind rt ≠ .statusChange → earlier ∈ done := by
      intro earlier hmem hne
      rcases mem_append.mp hmem with hmem | hmem
      · exact hmem
      · rw [mem_singleton.mp hmem] at hne
        exact absurd hkind hne
    constructor
    case purchases =>
      rw [hsame, lastOf_append, if_neg (by simp [hkind])]
      exact h.purchases
    case cancellations =>
      rw [hsame, lastOf_append, if_neg (by simp [hkind])]
      exact h.cancellations
    case untouched =>
      intro earlier hmem hcancellation item hitem hzero e he
      rw [hsame] at he
      exact h.untouched earlier (hother earlier hmem (by simp [hcancellation])) hcancellation item
        hitem hzero e he
  have counts := hc hkind
  obtain ⟨rows, next, hrows, hnext, hadds⟩ := performed_rows hof hkind counts.toApplies
  have heffects : (s.perform rt db).effects = db.effects ++ rows := by
    rw [OrderStep.perform, hnext]
    exact hadds
  have hadded := performed_effectsOf hof hrows heffects
  have hfirst := counts.first
  constructor
  case purchases =>
    rw [hadded, lastOf_append]
    by_cases hs : s.kind rt = .purchase
    · rw [if_pos hs, if_pos hs, total_append, h.purchases, (rows_total hrows).1 hs,
        lastOf_none _ fun earlier hmem => hs ▸ hfirst earlier hmem, neg_zero, zero_add]
    · rw [if_neg hs, if_neg hs, append_nil]
      exact h.purchases
  case cancellations =>
    rw [hadded, lastOf_append]
    by_cases hs : s.kind rt = .cancellation
    · rw [if_pos hs, if_pos hs, total_append, h.cancellations, (rows_total hrows).2 hs (counts.cancels hs),
        lastOf_none _ fun earlier hmem => hs ▸ hfirst earlier hmem, zero_add]
    · rw [if_neg hs, if_neg hs, append_nil]
      exact h.cancellations
  case untouched =>
    intro earlier hmem hcancellation item hitem hzero e he
    by_cases hs : s.kind rt = .cancellation
    · rcases mem_append.mp hmem with hmem | hmem
      · exact absurd (hcancellation.trans hs.symm) (hfirst earlier hmem)
      · rw [mem_singleton.mp hmem] at hitem
        have hin := mem_of_getElem? (mem_zipIdx_iff_getElem?.mp hitem)
        exact absurd hzero (counts.cancels hs _ hin)
    · rw [hadded, if_neg hs, append_nil] at he
      rcases mem_append.mp hmem with hmem | hmem
      · exact h.untouched earlier hmem hcancellation item hitem hzero e he
      · exact absurd (mem_singleton.mp hmem ▸ hcancellation) hs

theorem run_conserved (h : Conserved rt channelId orderId done db)
    (hof : ∀ s ∈ steps, s.Of rt channelId orderId)
    (hc : Counted rt channelId orderId done db steps) :
    Conserved rt channelId orderId (done ++ steps) (steps.foldl (OrderStep.perform rt) db) := by
  induction steps generalizing done db with
  | nil =>
    rw [append_nil]
    exact h
  | cons s rest ih =>
    obtain ⟨hs, hrest⟩ := hc
    have hnext := ih (h.perform (hof s mem_cons_self) hs)
      (fun s' hs' => hof s' (mem_cons_of_mem _ hs')) hrest
    rw [append_assoc, singleton_append] at hnext
    exact hnext

end

end FlowHub.Orders
