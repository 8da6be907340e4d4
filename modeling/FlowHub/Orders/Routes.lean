import FlowHub.Orders.Convergence
import FlowHub.Orders.Quantities

namespace FlowHub.Orders

open Python List Except

structure ProviderEvent where
  event : ChannelOrderEvent
  order : ChannelOrder

/-- One delivery of an event. -/
structure Arrival where
  what : ProviderEvent
  route : Route
  now : Int

/-- Reconciliation sees the order and no event. -/
def Arrival.evented (a : Arrival) : Bool :=
  match a.route with
  | .polling | .webhook => true
  | .reconciliation => false

section

variable (rt : Runtime)

def Arrival.outcome (a : Arrival) (db : Db) : Except Fault Db :=
  match a.route with
  | .polling => processEvent rt a.what.event a.what.order .snappshopPoll a.now db
  | .webhook => processEvent rt a.what.event a.what.order .tapsishopWebhook a.now db
  | .reconciliation => reconcileOrder rt a.what.order a.now db

/-- A delivery that raises is rolled back. -/
def deliver (db : Db) (a : Arrival) : Db :=
  match a.outcome rt db with
  | .ok next => next
  | .error _ => db

/-- The effects of an event by itself. -/
def ProviderEvent.effects (p : ProviderEvent) : List ChannelInventoryEffectRecord :=
  match orderState rt p.order (some p.event.eventType) with
  | .ok _ => (createInventoryEffects rt [] p.order (some p.event.eventId)
      (some p.event.eventType)).toOption.getD []
  | .error _ => []

def ProviderEvent.time (p : ProviderEvent) : Option Int :=
  (Version.moment ⟨p.order, some p.event.eventType, p.event.occurredAt⟩).map instant

/-- Every event once, in the order of their times. -/
def inTimeOrder (events : List ProviderEvent) (now : Int) : List Arrival :=
  (events.insertionSort fun p q => p.time.all fun s => q.time.any fun t => decide (s ≤ t)).map
    fun p => ⟨p, .polling, now⟩

/-- The effects do not depend on how the events come. -/
def SameEffects (events : List ProviderEvent) (now : Int) (db : Db) (arrivals : List Arrival) : Prop :=
  ∀ e, e ∈ (arrivals.foldl (deliver rt) db).effects ↔
    e ∈ ((inTimeOrder events now).foldl (deliver rt) db).effects

/-- No event that is not recorded yet is older than the stored order, and no order is reconciled in
the status of a purchase or of a cancellation. -/
def Prompt : List Arrival → Db → Prop
  | [], _ => True
  | a :: rest, db =>
    (if a.evented then
      db.recorded a.what.event.channelId a.what.event.eventId = true ∨
        outOfOrder (db.order a.what.order.channelId (providerOrderId rt a.what.order))
          (incomingVersion a.what.order (parseDt a.what.event.occurredAt)) = false
    else normalizeEventType rt a.what.order.connectorType a.what.order.status = .statusChange) ∧
      Prompt rest (deliver rt db a)

instance Prompt.decidable : ∀ (arrivals : List Arrival) (db : Db), Decidable (Prompt rt arrivals db)
  | [], _ => .isTrue trivial
  | a :: rest, db =>
    have := Prompt.decidable rest (deliver rt db a)
    inferInstanceAs (Decidable ((if a.evented then _ ∨ _ else _) ∧ Prompt rt rest (deliver rt db a)))

end

/-- Events of one order, each with its own id, that are not known yet. -/
structure Fresh (rt : Runtime) (channelId : Id) (orderId : String) (events : List ProviderEvent)
    (db : Db) : Prop where
  channel : ∀ p ∈ events, p.event.channelId = channelId ∧ p.order.channelId = channelId
  one : ∀ p ∈ events, providerOrderId rt p.order = orderId
  distinct : (events.map fun p => p.event.eventId).Nodup
  unrecorded : ∀ p ∈ events, db.recorded channelId p.event.eventId = false
  unseen : ∀ p ∈ events, ∀ e ∈ db.effects, e.channelId = channelId → e.sourceEventId ≠ p.event.eventId

/-- What the deliveries so far have left. -/
structure Delivered (rt : Runtime) (events : List ProviderEvent) (base : Db) (done : List Arrival)
    (db : Db) : Prop where
  known : ∀ a ∈ done, a.what ∈ events
  effects : ∀ e, e ∈ db.effects ↔ e ∈ base.effects ∨ ∃ a ∈ done, a.evented = true ∧ e ∈ a.what.effects rt
  recorded : ∀ p ∈ events, db.recorded p.event.channelId p.event.eventId = true →
    ∃ a ∈ done, a.evented = true ∧ a.what = p
  kept : ∀ a ∈ done, a.evented = true →
    db.recorded a.what.event.channelId a.what.event.eventId = true ∨ a.what.effects rt = []

section

variable {rt : Runtime} {channelId : Id} {orderId : String} {events : List ProviderEvent}
  {base db next : Db} {done : List Arrival} {a : Arrival}

theorem upsertOrder_events
    (h : upsertOrder rt order source sourceEventId eventType occurredAt now db = .ok next) :
    next.events = db.events := by
  cases hold : outOfOrder (db.order order.channelId (providerOrderId rt order))
      (incomingVersion order occurredAt) with
  | true =>
    rw [upsertOrder_old hold] at h
    rw [← ok.inj h]
  | false =>
    obtain ⟨state, -, effects, -, rfl⟩ := (upsertOrder_new hold).mp h
    rfl

/-- Effects with keys of their own are the same on top of others. -/
theorem newEffects_unseen (unseen : ∀ row ∈ rows, row.key ∉ effects.map ChannelInventoryEffectRecord.key) :
    newEffects (effects ++ seen) rows = newEffects seen rows := by
  induction rows generalizing seen with
  | nil => rfl
  | cons row rest ih =>
    obtain ⟨hrow, hrest⟩ := forall_mem_cons.mp unseen
    have hmem : row.key ∈ (effects ++ seen).map ChannelInventoryEffectRecord.key ↔
        row.key ∈ seen.map ChannelInventoryEffectRecord.key := by
      rw [map_append, mem_append]
      exact or_iff_right hrow
    by_cases hseen : row.key ∈ seen.map ChannelInventoryEffectRecord.key
    · rw [newEffects, newEffects, if_pos hseen, if_pos (hmem.mpr hseen), ih hrest]
    · rw [newEffects, newEffects, if_neg hseen, if_neg (mt hmem.mp hseen), append_assoc, ih hrest]

theorem mem_newEffects (h : e ∈ newEffects effects rows) : e ∈ rows := by
  induction rows generalizing effects with
  | nil => exact h
  | cons row rest ih =>
    rw [newEffects] at h
    split at h
    · exact mem_cons_of_mem _ (ih h)
    · rcases mem_cons.mp h with rfl | h
      · exact mem_cons_self
      · exact mem_cons_of_mem _ (ih h)

/-- The effects created are of the order's channel and of the event. -/
theorem createInventoryEffects_source
    (h : createInventoryEffects rt effects order (some eventId) kind = .ok created) :
    ∀ e ∈ created, e.channelId = order.channelId ∧ e.sourceEventId = eventId := by
  by_cases hempty : eventId = ""
  · rw [hempty] at h
    cases h
    simp
  · rw [createInventoryEffects_named hempty] at h
    split at h
    · cases h
      simp
    obtain ⟨rows, hrows, rfl⟩ := Txn.map_eq_ok.mp h
    intro e he
    obtain ⟨item, -, hitem⟩ := forall₂_left (Txn.mapM_ok.mp hrows) (mem_newEffects he)
    have hkey := (effectRow_ok hitem).1
    obtain ⟨hchannel, hrest⟩ := Prod.mk.inj hkey
    exact ⟨hchannel, (Prod.mk.inj hrest).1⟩

theorem createInventoryEffects_unseen
    (unseen : ∀ e ∈ effects, e.channelId = order.channelId → e.sourceEventId ≠ eventId) :
    createInventoryEffects rt effects order (some eventId) kind =
      createInventoryEffects rt [] order (some eventId) kind := by
  by_cases hempty : eventId = ""
  · rw [hempty]
    rfl
  rw [createInventoryEffects_named hempty, createInventoryEffects_named hempty]
  split
  · rfl
  cases hrows : indexed (effectRow rt order eventId (normalizeEventType rt order.connectorType
      (orText kind order.status))) order.items with
  | error e => rfl
  | ok rows =>
    have hkeys : ∀ row ∈ rows, row.key ∉ effects.map ChannelInventoryEffectRecord.key := by
      intro row hrow hmem
      obtain ⟨item, -, hitem⟩ := forall₂_left (Txn.mapM_ok.mp hrows) hrow
      obtain ⟨e, he, hsame⟩ := mem_map.mp hmem
      rw [(effectRow_ok hitem).1] at hsame
      obtain ⟨hchannel, hrest⟩ := Prod.mk.inj hsame
      exact unseen e he hchannel (Prod.mk.inj hrest).1
    have hnew : newEffects (effects ++ []) rows = newEffects [] rows := newEffects_unseen hkeys
    rw [append_nil] at hnew
    exact congrArg ok hnew

/-- A reconciled order in another status changes neither effects nor events. -/
theorem reconciled (hroute : a.evented = false)
    (hkind : normalizeEventType rt a.what.order.connectorType a.what.order.status = .statusChange) :
    (deliver rt db a).effects = db.effects ∧ (deliver rt db a).events = db.events := by
  have hnone : ∀ effects eventId, createInventoryEffects rt effects a.what.order (some eventId) none =
      .ok [] := by
    intro effects eventId
    unfold createInventoryEffects
    split
    · rfl
    · rfl
    · exact if_pos hkind
  have hreconcile : a.outcome rt db = reconcileOrder rt a.what.order a.now db := by
    unfold Arrival.outcome
    unfold Arrival.evented at hroute
    cases hr : a.route with
    | polling => simp [hr] at hroute
    | webhook => simp [hr] at hroute
    | reconciliation => rfl
  unfold deliver
  cases hresult : a.outcome rt db with
  | error e => exact ⟨rfl, rfl⟩
  | ok next =>
    rw [hreconcile, reconcileOrder] at hresult
    refine ⟨?_, upsertOrder_events hresult⟩
    cases hold : outOfOrder (db.order a.what.order.channelId (providerOrderId rt a.what.order))
        (incomingVersion a.what.order none) with
    | true =>
      rw [upsertOrder_old hold] at hresult
      rw [← ok.inj hresult]
    | false =>
      obtain ⟨state, -, created, hcreated, rfl⟩ := (upsertOrder_new hold).mp hresult
      rw [hnone] at hcreated
      cases hcreated
      exact append_nil _

/-- An event that is delivered the first time adds its effects. -/
theorem delivered_new (hroute : a.evented = true)
    (hnew : db.recorded a.what.event.channelId a.what.event.eventId = false)
    (hchannel : a.what.order.channelId = a.what.event.channelId)
    (hinOrder : outOfOrder (db.order a.what.order.channelId (providerOrderId rt a.what.order))
      (incomingVersion a.what.order (parseDt a.what.event.occurredAt)) = false)
    (hunseen : ∀ e ∈ db.effects, e.channelId = a.what.event.channelId →
      e.sourceEventId ≠ a.what.event.eventId) :
    (deliver rt db a = db ∧ a.what.effects rt = []) ∨
      ((deliver rt db a).effects = db.effects ++ a.what.effects rt ∧
        ∃ row : ChannelOrderEventRecord, row.channelId = a.what.event.channelId ∧
          row.providerEventId = a.what.event.eventId ∧ (deliver rt db a).events = db.events ++ [row]) := by
  obtain ⟨source, hsource⟩ : ∃ source, a.outcome rt db =
      processEvent rt a.what.event a.what.order source a.now db := by
    unfold Arrival.outcome
    unfold Arrival.evented at hroute
    cases hr : a.route with
    | polling => exact ⟨_, rfl⟩
    | webhook => exact ⟨_, rfl⟩
    | reconciliation => simp [hr] at hroute
  have hnotOld : outOfOrder ((db.addEvent (eventRow rt a.what.event source)).order
      a.what.order.channelId (providerOrderId rt a.what.order))
      (incomingVersion a.what.order (parseDt a.what.event.occurredAt)) = false := hinOrder
  rw [processEvent_new rt a.what.order source a.now hnew, upsertOrderOf] at hsource
  unfold deliver ProviderEvent.effects
  rw [hsource]
  cases hstate : orderState rt a.what.order (some a.what.event.eventType) with
  | error e =>
    cases hresult : upsertOrder rt a.what.order source (some a.what.event.eventId)
        (some a.what.event.eventType) (parseDt a.what.event.occurredAt) a.now
        (db.addEvent (eventRow rt a.what.event source)) with
    | error e => exact .inl ⟨rfl, rfl⟩
    | ok next =>
      obtain ⟨state, hok, -⟩ := (upsertOrder_new hnotOld).mp hresult
      rw [hstate] at hok
      cases hok
  | ok state =>
    obtain ⟨created, hcreated⟩ := createInventoryEffects_ok hstate [] (some a.what.event.eventId)
      (some a.what.event.eventType)
    have hsame : createInventoryEffects rt (db.addEvent (eventRow rt a.what.event source)).effects
        a.what.order (some a.what.event.eventId) (some a.what.event.eventType) = .ok created := by
      rw [← hcreated]
      refine createInventoryEffects_unseen fun e he hc => ?_
      exact hunseen e he (hc.trans hchannel)
    have hstored : ∃ next, upsertOrder rt a.what.order source (some a.what.event.eventId)
        (some a.what.event.eventType) (parseDt a.what.event.occurredAt) a.now
        (db.addEvent (eventRow rt a.what.event source)) = .ok next ∧ next.effects = db.effects ++ created :=
      ⟨_, (upsertOrder_new hnotOld).mpr ⟨state, hstate, created, hsame, rfl⟩, rfl⟩
    obtain ⟨next, hresult, heffects⟩ := hstored
    rw [hresult, hcreated]
    exact .inr ⟨heffects, eventRow rt a.what.event source, rfl, rfl, upsertOrder_events hresult⟩

theorem mem_effects {p : ProviderEvent} {e : ChannelInventoryEffectRecord} (h : e ∈ p.effects rt) :
    e.channelId = p.order.channelId ∧ e.sourceEventId = p.event.eventId := by
  unfold ProviderEvent.effects at h
  split at h
  · cases hcreated : createInventoryEffects rt [] p.order (some p.event.eventId)
        (some p.event.eventType) with
    | ok created =>
      rw [hcreated] at h
      exact createInventoryEffects_source hcreated e h
    | error e =>
      rw [hcreated] at h
      cases h
  · cases h

theorem recorded_of_events {row : ChannelOrderEventRecord} (h : next.events = db.events ++ [row])
    (channelId : Id) (eventId : String) :
    next.recorded channelId eventId = (db.recorded channelId eventId ||
      (decide (row.channelId = channelId) && decide (row.providerEventId = eventId))) := by
  simp [Db.recorded, h]

theorem Delivered.step (hfresh : Fresh rt channelId orderId events base)
    (h : Delivered rt events base done db) (ha : a.what ∈ events) (hprompt : Prompt rt [a] db) :
    Delivered rt events base (done ++ [a]) (deliver rt db a) := by
  have hone := hfresh.channel a.what ha
  obtain ⟨hprompt, -⟩ := hprompt
  have hsame : ∀ p ∈ events, p.event.eventId = a.what.event.eventId → p = a.what := fun p hp heq =>
    inj_on_of_nodup_map hfresh.distinct hp ha heq
  have hknown : ∀ b ∈ done ++ [a], b.what ∈ events := by
    intro b hb
    rcases mem_append.mp hb with hb | hb
    · exact h.known b hb
    · exact mem_singleton.mp hb ▸ ha
  cases hroute : a.evented with
  | false =>
    rw [hroute, if_neg Bool.false_ne_true] at hprompt
    obtain ⟨heffects, hevents⟩ := @reconciled rt db a hroute hprompt
    have hrecorded : ∀ c i, (deliver rt db a).recorded c i = db.recorded c i := by
      intro c i
      rw [Db.recorded, hevents, Db.recorded]
    constructor
    case known => exact hknown
    case effects =>
      intro e
      rw [heffects, h.effects]
      simp [hroute]
    case recorded =>
      intro p hp hrec
      rw [hrecorded] at hrec
      obtain ⟨b, hb, hrest⟩ := h.recorded p hp hrec
      exact ⟨b, mem_append_left _ hb, hrest⟩
    case kept =>
      intro b hb hevented
      rw [hrecorded]
      rcases mem_append.mp hb with hb | hb
      · exact h.kept b hb hevented
      · rw [mem_singleton.mp hb, hroute] at hevented
        cases hevented
  | true =>
    rw [hroute, if_pos rfl] at hprompt
    cases hrec : db.recorded a.what.event.channelId a.what.event.eventId with
    | true =>
      -- a duplicate: the event and its effects are there already
      have hstay : deliver rt db a = db := by
        unfold deliver Arrival.outcome
        unfold Arrival.evented at hroute
        cases hr : a.route with
        | polling => simp only [processEvent_recorded rt _ _ _ hrec]
        | webhook => simp only [processEvent_recorded rt _ _ _ hrec]
        | reconciliation => simp [hr] at hroute
      obtain ⟨b, hb, hevented, hwhat⟩ := h.recorded a.what ha hrec
      rw [hstay]
      constructor
      case known => exact hknown
      case effects =>
        intro e
        rw [h.effects]
        simp only [mem_append, mem_singleton]
        constructor
        · rintro (hbase | ⟨c, hc, hrest⟩)
          · exact .inl hbase
          · exact .inr ⟨c, .inl hc, hrest⟩
        · rintro (hbase | ⟨c, hc | rfl, hev, he⟩)
          · exact .inl hbase
          · exact .inr ⟨c, hc, hev, he⟩
          · exact .inr ⟨b, hb, hevented, hwhat ▸ he⟩
      case recorded =>
        intro p hp hrecp
        obtain ⟨c, hc, hrest⟩ := h.recorded p hp hrecp
        exact ⟨c, mem_append_left _ hc, hrest⟩
      case kept =>
        intro c hc hev
        rcases mem_append.mp hc with hc | hc
        · exact h.kept c hc hev
        · rw [mem_singleton.mp hc]
          exact .inl hrec
    | false =>
      rw [hrec] at hprompt
      have hinOrder := hprompt.resolve_left Bool.false_ne_true
      have hunseen : ∀ e ∈ db.effects, e.channelId = a.what.event.channelId →
          e.sourceEventId ≠ a.what.event.eventId := by
        intro e he hc hid
        rcases (h.effects e).mp he with hbase | ⟨b, hb, hevented, heffect⟩
        · exact hfresh.unseen a.what ha e hbase (hc.trans hone.1) hid
        have hb' : b.what = a.what :=
          hsame b.what (h.known b hb) ((mem_effects heffect).2.symm.trans hid)
        rcases h.kept b hb hevented with hkept | hnone
        · rw [hb', hrec] at hkept
          cases hkept
        · rw [hnone] at heffect
          cases heffect
      rcases @delivered_new rt db a hroute hrec (hone.2.trans hone.1.symm) hinOrder hunseen with
        ⟨hstay, hnone⟩ | ⟨heffects, row, hchannel, hid, hevents⟩
      · rw [hstay]
        constructor
        case known => exact hknown
        case effects =>
          intro e
          rw [h.effects]
          simp [or_and_right, exists_or, hnone]
        case recorded =>
          intro p hp hrecp
          obtain ⟨c, hc, hrest⟩ := h.recorded p hp hrecp
          exact ⟨c, mem_append_left _ hc, hrest⟩
        case kept =>
          intro c hc hev
          rcases mem_append.mp hc with hc | hc
          · exact h.kept c hc hev
          · rw [mem_singleton.mp hc]
            exact .inr hnone
      · have hafter := @recorded_of_events db (deliver rt db a) row hevents
        constructor
        case known => exact hknown
        case effects =>
          intro e
          rw [heffects, mem_append, h.effects]
          simp [or_and_right, exists_or, hroute, or_assoc]
        case recorded =>
          intro p hp hrecp
          rw [hafter] at hrecp
          rcases Bool.or_eq_true_iff.mp hrecp with hold | hnow
          · obtain ⟨c, hc, hrest⟩ := h.recorded p hp hold
            exact ⟨c, mem_append_left _ hc, hrest⟩
          · simp only [Bool.and_eq_true, decide_eq_true_eq] at hnow
            exact ⟨a, by simp, hroute, (hsame p hp (hnow.2.symm.trans hid)).symm⟩
        case kept =>
          intro c hc hev
          rw [hafter]
          rcases mem_append.mp hc with hc | hc
          · rcases h.kept c hc hev with hkept | hnone
            · exact .inl (by rw [hkept, Bool.true_or])
            · exact .inr hnone
          · rw [mem_singleton.mp hc]
            exact .inl (by simp [hchannel, hid])

theorem Delivered.run (hfresh : Fresh rt channelId orderId events base)
    (h : Delivered rt events base done db) (hmem : ∀ a ∈ arrivals, a.what ∈ events)
    (hprompt : Prompt rt arrivals db) :
    Delivered rt events base (done ++ arrivals) (arrivals.foldl (deliver rt) db) := by
  induction arrivals generalizing done db with
  | nil =>
    rw [append_nil]
    exact h
  | cons a rest ih =>
    obtain ⟨hfirst, hrest⟩ := hprompt
    have hstep := h.step hfresh (hmem a mem_cons_self) ⟨hfirst, trivial⟩
    have hrun := ih hstep (fun b hb => hmem b (mem_cons_of_mem _ hb)) hrest
    rw [append_assoc, singleton_append] at hrun
    exact hrun

/-- Once every event has come, the effects are theirs. -/
theorem Delivered.all (h : Delivered rt events base done db)
    (covers : ∀ p ∈ events, ∃ a ∈ done, a.evented = true ∧ a.what = p)
    (e : ChannelInventoryEffectRecord) :
    e ∈ db.effects ↔ e ∈ base.effects ∨ ∃ p ∈ events, e ∈ p.effects rt := by
  rw [h.effects]
  constructor
  · rintro (hbase | ⟨a, ha, -, he⟩)
    · exact .inl hbase
    · exact .inr ⟨a.what, h.known a ha, he⟩
  · rintro (hbase | ⟨p, hp, he⟩)
    · exact .inl hbase
    · obtain ⟨a, ha, hevented, rfl⟩ := covers p hp
      exact .inr ⟨a, ha, hevented, he⟩

theorem mem_inTimeOrder : a ∈ inTimeOrder events now ↔ ∃ p ∈ events, a = ⟨p, .polling, now⟩ := by
  simp [inTimeOrder, mem_map, mem_insertionSort, eq_comm (a := a)]

end

/-- Where no event comes after a newer one and none through reconciliation alone, the effects are
the same as in the order of the events' times. -/
theorem effects_any_order (rt : Runtime) (channelId : Id) (orderId : String)
    (events : List ProviderEvent) (base : Db) (now : Int) (arrivals : List Arrival)
    (fresh : Fresh rt channelId orderId events base) (known : ∀ a ∈ arrivals, a.what ∈ events)
    (covers : ∀ p ∈ events, ∃ a ∈ arrivals, a.evented = true ∧ a.what = p)
    (prompt : Prompt rt arrivals base) (timely : Prompt rt (inTimeOrder events now) base) :
    SameEffects rt events now base arrivals := by
  have hstart : Delivered rt events base [] base := by
    constructor
    case known => simp
    case effects => simp
    case recorded =>
      intro p hp hrec
      rw [(fresh.channel p hp).1, fresh.unrecorded p hp] at hrec
      cases hrec
    case kept => simp
  have hknown : ∀ a ∈ inTimeOrder events now, a.what ∈ events := by
    intro a ha
    obtain ⟨p, hp, rfl⟩ := mem_inTimeOrder.mp ha
    exact hp
  have hcovers : ∀ p ∈ events, ∃ a ∈ inTimeOrder events now, a.evented = true ∧ a.what = p :=
    fun p hp => ⟨⟨p, .polling, now⟩, mem_inTimeOrder.mpr ⟨p, hp, rfl⟩, rfl, rfl⟩
  have harrived := hstart.run fresh known prompt
  have hordered := hstart.run fresh hknown timely
  rw [nil_append] at harrived hordered
  intro e
  rw [harrived.all covers, hordered.all hcovers]

namespace Sample

def seen (eventId kind at' : String) : ProviderEvent where
  event :=
    { channelId := "snappshop:main", connectorType := .snappshop, eventId, eventType := kind
      occurredAt := some at', orderIdentifiers := { orderNumber := some "1001" } }
  order := order kind (some at') [line "7" 1 []]

def purchase : ProviderEvent := seen "e1" "NEW_ORDER" "2024-01-01T10:00:00Z"

def cancellation : ProviderEvent := seen "e2" "CANCELLATION" "2024-01-01T11:00:00Z"

def changed : ProviderEvent := seen "e3" "CHANGE_STATUS" "2024-01-01T10:30:00Z"

end Sample

open Sample

/-- A purchase that comes after its cancellation has no effect, and a purchase that is reconciled
too has two. -/
theorem effects_by_order_and_route : ¬ SameEffects runtime [Sample.purchase, Sample.cancellation] 0 {}
      [⟨Sample.cancellation, .polling, 0⟩, ⟨Sample.purchase, .polling, 0⟩] ∧
    ¬ SameEffects runtime [Sample.purchase] 0 {}
      [⟨Sample.purchase, .polling, 0⟩, ⟨Sample.purchase, .reconciliation, 0⟩] := by
  constructor
  · intro h
    have hmissing : ∃ e ∈ ((inTimeOrder [Sample.purchase, Sample.cancellation] 0).foldl
        (deliver runtime) {}).effects, e ∉ (foldl (deliver runtime) {}
          [⟨Sample.cancellation, .polling, 0⟩, ⟨Sample.purchase, .polling, 0⟩]).effects := by
      decide +kernel
    obtain ⟨e, he, hnot⟩ := hmissing
    exact hnot ((h e).mpr he)
  · intro h
    have hmore : ∃ e ∈ (foldl (deliver runtime) {}
        [⟨Sample.purchase, .polling, 0⟩, ⟨Sample.purchase, .reconciliation, 0⟩]).effects,
        e ∉ ((inTimeOrder [Sample.purchase] 0).foldl (deliver runtime) {}).effects := by
      decide +kernel
    obtain ⟨e, he, hnot⟩ := hmore
    exact hnot ((h e).mp he)

theorem effects_any_order_again : SameEffects runtime [purchase, changed, cancellation] 0 {}
      [⟨purchase, .webhook, 0⟩, ⟨purchase, .polling, 1⟩,
        ⟨changed, .reconciliation, 2⟩, ⟨changed, .polling, 3⟩,
        ⟨cancellation, .polling, 4⟩, ⟨purchase, .polling, 5⟩] := by
  refine effects_any_order runtime "snappshop:main" "1001" _ {} 0 _ ?_ ?_ ?_ ?_ ?_
  · constructor
    case channel =>
      intro p hp
      rcases mem_cons.mp hp with rfl | hp
      · exact ⟨rfl, rfl⟩
      · rcases mem_pair.mp hp with rfl | rfl
        · exact ⟨rfl, rfl⟩
        · exact ⟨rfl, rfl⟩
    case one => decide +kernel
    case distinct => decide +kernel
    case unrecorded => simp [Db.recorded]
    case unseen => simp
  · simp
  · simp [Arrival.evented]
  · decide +kernel
  · decide +kernel

end FlowHub.Orders
