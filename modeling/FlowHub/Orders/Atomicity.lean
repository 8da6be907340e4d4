import FlowHub.Orders.Leases
import FlowHub.Orders.Routes

namespace FlowHub.Orders

open Python Webhooks List Option

/-- The rows, orders, receipts and pages that writes are about. -/
def eventRows (ws : List Write) : List ChannelOrderEventRecord := ws.filterMap fun
  | .event row => some row
  | _ => none

def upserted (ws : List Write) : List Upsert := ws.filterMap fun
  | .order u => some u
  | _ => none

def finished (ws : List Write) : List WebhookReceipt := ws.filterMap fun
  | .receipt r => some r
  | _ => none

def pages (ws : List Write) : List Page := ws.filterMap fun
  | .cursor p => some p
  | _ => none

/-- Where the pages lead to. -/
def cursorOf (ws : List Write) : Option String := (pages ws).getLast?.bind (·.next)

def RecordedIn (ws : List Write) (channelId : Id) (eventId : String) : Prop :=
  ∃ row ∈ eventRows ws, row.channelId = channelId ∧ row.providerEventId = eventId

/-- The effects of an event are among effects: one under the number of each item, where it has a
kind that has effects. -/
def Upsert.HasEffects (rt : Runtime) (u : Upsert) (eventId : String)
    (effects : List ChannelInventoryEffectRecord) : Prop :=
  let kind := normalizeEventType rt u.order.connectorType (orText u.eventType u.order.status)
  kind ≠ .statusChange → ∀ item ∈ u.order.items.zipIdx,
    (u.order.channelId, eventId, effectItemNumber rt (providerOrderId rt u.order) item.2 item.1, kind) ∈
        effects.map ChannelInventoryEffectRecord.key

def Accompanied (rt : Runtime) (ws : List Write) (row : ChannelOrderEventRecord) : Prop :=
  ∃ u ∈ upserted ws, u.order.channelId = row.channelId ∧ u.sourceEventId = some row.providerEventId ∧
      u.HasEffects rt row.providerEventId ((upserted ws).flatMap Upsert.effects)

/-- Each page was asked for with the cursor of the one before it. -/
def Chained : Option String → List Page → Prop
  | _, [] => True
  | cursor, page :: rest => page.asked = cursor ∧ Chained page.next rest

/-- The writes leave nothing half done, but for an event whose order is still to come. -/
structure Sound (rt : Runtime) (ws : List Write) (pending : Option (Id × String)) : Prop where
  events : ∀ row ∈ eventRows ws, some (row.channelId, row.providerEventId) ≠ pending → Accompanied rt ws row
  receipts : ∀ r ∈ finished ws, r.providerEventId ≠ "" ∧ RecordedIn ws r.channelId r.providerEventId
  chained : Chained none (pages ws)
  read : ∀ p ∈ pages ws, ∀ e, .event e ∈ p.items → RecordedIn ws e.channelId e.eventId

/-- The tables are what the writes so far have made them. -/
structure Matches (s : Store) (ws : List Write) : Prop where
  events : s.db.events = eventRows ws
  effects : s.db.effects = (upserted ws).flatMap Upsert.effects
  orders : ∀ u ∈ upserted ws, (s.db.order u.row.channelId u.row.providerOrderId).isSome = true
  receipts : ∀ r ∈ s.db.webhooks.receipts, r.processingState = .processed → r ∈ finished ws
  cursor : s.cursor = cursorOf ws

def Item.key : Item → Id × String
  | .event e => (e.channelId, e.eventId)
  | .receipt r _ => (r.channelId, r.providerEventId)
  | .order o => (o.channelId, "")

/-- An item of one of the two services that record events. -/
def Item.Named : Item → Prop
  | .event e => e.eventId ≠ ""
  | .receipt r _ => r.providerEventId ≠ ""
  | .order _ => False

def Item.orderOf (answer : Option ChannelOrder) : Item → Option ChannelOrder
  | .receipt r webhook => some (answer.getD (orderOfPayload r.channelId r.providerEventId webhook))
  | _ => answer

def Item.occurredAt : Item → Option Int
  | .event e => parseDt e.occurredAt
  | .receipt r webhook =>
    parseDt (eventFromTapsishopReceipt r.channelId r.providerEventId webhook).occurredAt
  | .order _ => none

def Position.Follows (ws : List Write) : Position → Prop
  | .polling cursor => cursor = cursorOf ws
  | .webhook _ => True
  | .reconciliation => False

def Page.Of (pos : Position) (p : Page) : Prop := ∀ cursor, pos = .polling cursor → p.asked = cursor

/-- The events of a page are recorded, but for those still to be taken up. -/
def Page.Through (p : Page) (ws : List Write) (rest : List Item) : Prop :=
  ∀ e, .event e ∈ p.items → .event e ∈ rest ∨ RecordedIn ws e.channelId e.eventId

/-- What holds of the writes of a run that owns the lease, on top of the committed ones. -/
def Going (rt : Runtime) (ws : List Write) : Phase → Prop
  | .ready pos | .listing pos => Sound rt ws none ∧ pos.Follows ws
  | .working pos p rest => Sound rt ws none ∧ pos.Follows ws ∧ p.Of pos ∧
      (∀ item ∈ rest, item.Named) ∧ p.Through ws rest
  | .awaiting pos p item rest => Sound rt ws (some item.key) ∧ pos.Follows ws ∧ p.Of pos ∧
      (∀ i ∈ item :: rest, i.Named) ∧ p.Through ws rest ∧ RecordedIn ws item.key.1 item.key.2
  | _ => True

section

@[simp] theorem eventRows_append : eventRows (ws ++ more) = eventRows ws ++ eventRows more :=
  filterMap_append

@[simp] theorem upserted_append : upserted (ws ++ more) = upserted ws ++ upserted more :=
  filterMap_append

@[simp] theorem finished_append : finished (ws ++ more) = finished ws ++ finished more :=
  filterMap_append

@[simp] theorem pages_append : pages (ws ++ more) = pages ws ++ pages more :=
  filterMap_append

theorem RecordedIn.append {channelId : Id} {eventId : String} (h : RecordedIn ws channelId eventId) :
    RecordedIn (ws ++ more) channelId eventId := by
  obtain ⟨row, hrow, hrest⟩ := h
  exact ⟨row, by simp [hrow], hrest⟩

theorem Accompanied.append {row : ChannelOrderEventRecord} (h : Accompanied rt ws row) :
    Accompanied rt (ws ++ more) row := by
  obtain ⟨u, hu, hchannel, hid, heffects⟩ := h
  refine ⟨u, by simp [hu], hchannel, hid, fun hkind item hitem => ?_⟩
  rw [upserted_append, flatMap_append, map_append]
  exact mem_append_left _ (heffects hkind item hitem)

theorem chained_append (h : Chained cursor ps)
    (hp : p.asked = (ps.getLast?.elim cursor (·.next))) : Chained cursor (ps ++ [p]) := by
  induction ps generalizing cursor with
  | nil => exact ⟨hp, trivial⟩
  | cons q rest ih =>
    refine ⟨h.1, ih h.2 ?_⟩
    cases rest with
    | nil => exact hp
    | cons r rest =>
      exact hp

theorem filterMap_skip (h : f write = none) : (ws ++ [write]).filterMap f = ws.filterMap f := by
  simp [h]

theorem Matches.into (h : Matches s ws) (write : Write) : Matches (write.into s) (ws ++ [write]) := by
  cases write with
  | event row =>
    have hu : upserted (ws ++ [.event row]) = upserted ws := filterMap_skip rfl
    have hf : finished (ws ++ [.event row]) = finished ws := filterMap_skip rfl
    have hp : pages (ws ++ [.event row]) = pages ws := filterMap_skip rfl
    constructor
    case events =>
      rw [eventRows_append, ← h.events]
      rfl
    case effects =>
      rw [hu]
      exact h.effects
    case orders =>
      rw [hu]
      exact h.orders
    case receipts =>
      rw [hf]
      exact h.receipts
    case cursor =>
      rw [cursorOf, hp]
      exact h.cursor
  | order u =>
    have he : eventRows (ws ++ [.order u]) = eventRows ws := filterMap_skip rfl
    have hf : finished (ws ++ [.order u]) = finished ws := filterMap_skip rfl
    have hp : pages (ws ++ [.order u]) = pages ws := filterMap_skip rfl
    constructor
    case events =>
      rw [he]
      exact h.events
    case effects =>
      rw [upserted_append, flatMap_append, ← h.effects]
      exact congrArg (s.db.effects ++ ·) (append_nil _).symm
    case orders =>
      intro v hv
      have hsaved : ((Write.order u).into s).db.order v.row.channelId v.row.providerOrderId =
          if (v.row.channelId, v.row.providerOrderId) = u.row.key then some u.row
          else s.db.order v.row.channelId v.row.providerOrderId := order_saveOrder ..
      rw [hsaved]
      split
      · rfl
      rename_i hkey
      rw [upserted_append, mem_append] at hv
      rcases hv with hv | hv
      · exact h.orders v hv
      · rw [mem_singleton.mp hv] at hkey
        exact absurd rfl hkey
    case receipts =>
      rw [hf]
      exact h.receipts
    case cursor =>
      rw [cursorOf, hp]
      exact h.cursor
  | receipt r =>
    have he : eventRows (ws ++ [.receipt r]) = eventRows ws := filterMap_skip rfl
    have hu : upserted (ws ++ [.receipt r]) = upserted ws := filterMap_skip rfl
    have hp : pages (ws ++ [.receipt r]) = pages ws := filterMap_skip rfl
    constructor
    case events =>
      rw [he]
      exact h.events
    case effects =>
      rw [hu]
      exact h.effects
    case orders =>
      rw [hu]
      exact h.orders
    case receipts =>
      intro q hq hprocessed
      rw [finished_append, mem_append]
      rcases Table.mem_set.mp hq with ⟨_, _, _, rfl⟩ | ⟨hold, -⟩
      · exact .inr mem_cons_self
      · exact .inl (h.receipts q hold hprocessed)
    case cursor =>
      rw [cursorOf, hp]
      exact h.cursor
  | cursor p =>
    have he : eventRows (ws ++ [.cursor p]) = eventRows ws := filterMap_skip rfl
    have hu : upserted (ws ++ [.cursor p]) = upserted ws := filterMap_skip rfl
    have hf : finished (ws ++ [.cursor p]) = finished ws := filterMap_skip rfl
    constructor
    case events =>
      rw [he]
      exact h.events
    case effects =>
      rw [hu]
      exact h.effects
    case orders =>
      rw [hu]
      exact h.orders
    case receipts =>
      rw [hf]
      exact h.receipts
    case cursor =>
      rw [cursorOf, pages_append, show pages [.cursor p] = [p] from rfl, getLast?_concat]
      rfl

theorem Matches.session (h : Matches s ws) (hs : session s more = some s') : Matches s' (ws ++ more) := by
  induction more generalizing s ws with
  | nil =>
    rw [append_nil]
    exact some.inj hs ▸ h
  | cons write rest ih =>
    rw [Orders.session] at hs
    split at hs
    · have hrest := ih (h.into write) hs
      rw [append_assoc, singleton_append] at hrest
      exact hrest
    · cases hs

theorem Matches.recorded (h : Matches s ws) (channelId : Id) (eventId : String) :
    s.db.recorded channelId eventId = true ↔ RecordedIn ws channelId eventId := by
  simp [Db.recorded, RecordedIn, h.events]

theorem Page.Through.append {p : Page} {rest : List Item} (h : p.Through ws rest) :
    p.Through (ws ++ more) rest :=
  fun e he => (h e he).imp_right RecordedIn.append

theorem Sound.event (h : Sound rt ws none) (row : ChannelOrderEventRecord) :
    Sound rt (ws ++ [.event row]) (some (row.channelId, row.providerEventId)) := by
  have hf : finished (ws ++ [.event row]) = finished ws := filterMap_skip rfl
  have hp : pages (ws ++ [.event row]) = pages ws := filterMap_skip rfl
  constructor
  case events =>
    intro other hother hne
    rw [eventRows_append, mem_append] at hother
    rcases hother with hold | hnew
    · exact (h.events other hold (by simp)).append
    · rw [mem_singleton.mp hnew] at hne
      exact absurd rfl hne
  case receipts =>
    rw [hf]
    exact fun r hr => (h.receipts r hr).imp_right RecordedIn.append
  case chained =>
    rw [hp]
    exact h.chained
  case read =>
    rw [hp]
    exact fun p hp e he => (h.read p hp e he).append

/-- The order that an event has waited for. -/
theorem Sound.order {channelId : Id} {eventId : String} (h : Sound rt ws (some (channelId, eventId)))
    {u : Upsert} (hchannel : u.order.channelId = channelId) (hid : u.sourceEventId = some eventId)
    (heffects : u.HasEffects rt eventId ((upserted ws).flatMap Upsert.effects ++ u.effects)) :
    Sound rt (ws ++ [.order u]) none := by
  have he : eventRows (ws ++ [.order u]) = eventRows ws := filterMap_skip rfl
  have hf : finished (ws ++ [.order u]) = finished ws := filterMap_skip rfl
  have hp : pages (ws ++ [.order u]) = pages ws := filterMap_skip rfl
  constructor
  case events =>
    intro row hrow _
    rw [he] at hrow
    by_cases hkey : (row.channelId, row.providerEventId) = (channelId, eventId)
    · obtain ⟨hc, hi⟩ := Prod.mk.inj hkey
      refine ⟨u, ?_, hchannel.trans hc.symm, by rw [hid, hi], ?_⟩
      · rw [upserted_append]
        exact mem_append_right _ mem_cons_self
      have hall : (upserted (ws ++ [.order u])).flatMap Upsert.effects =
          (upserted ws).flatMap Upsert.effects ++ u.effects := by
        rw [upserted_append, flatMap_append]
        exact congrArg _ (append_nil _)
      rw [hall, hi]
      exact heffects
    · exact (h.events row hrow fun heq => hkey (some.inj heq)).append
  case receipts =>
    rw [hf]
    exact fun r hr => (h.receipts r hr).imp_right RecordedIn.append
  case chained =>
    rw [hp]
    exact h.chained
  case read =>
    rw [hp]
    exact fun p hp e he => (h.read p hp e he).append

theorem Sound.receipt (h : Sound rt ws none) {r : WebhookReceipt} (named : r.providerEventId ≠ "")
    (hrec : RecordedIn ws r.channelId r.providerEventId) : Sound rt (ws ++ [.receipt r]) none := by
  have he : eventRows (ws ++ [.receipt r]) = eventRows ws := filterMap_skip rfl
  have hp : pages (ws ++ [.receipt r]) = pages ws := filterMap_skip rfl
  constructor
  case events =>
    rw [he]
    exact fun row hrow hne => (h.events row hrow hne).append
  case receipts =>
    intro q hq
    rw [finished_append, mem_append] at hq
    rcases hq with hold | hnew
    · exact (h.receipts q hold).imp_right RecordedIn.append
    · rw [mem_singleton.mp hnew]
      exact ⟨named, hrec.append⟩
  case chained =>
    rw [hp]
    exact h.chained
  case read =>
    rw [hp]
    exact fun p hp e he => (h.read p hp e he).append

/-- A page that has been worked through. -/
theorem Sound.cursor (h : Sound rt ws none) (hasked : p.asked = cursorOf ws)
    (hthrough : p.Through ws []) : Sound rt (ws ++ [.cursor p]) none := by
  have he : eventRows (ws ++ [.cursor p]) = eventRows ws := filterMap_skip rfl
  have hf : finished (ws ++ [.cursor p]) = finished ws := filterMap_skip rfl
  constructor
  case events =>
    rw [he]
    exact fun row hrow hne => (h.events row hrow hne).append
  case receipts =>
    rw [hf]
    exact fun r hr => (h.receipts r hr).imp_right RecordedIn.append
  case chained =>
    rw [pages_append]
    refine chained_append h.chained (hasked.trans ?_)
    rw [cursorOf]
    cases (pages ws).getLast? with
    | none => rfl
    | some q => rfl
  case read =>
    intro q hq e he
    rw [pages_append, mem_append] at hq
    rcases hq with hold | hnew
    · exact (h.read q hold e he).append
    rw [mem_singleton.mp hnew] at he
    rcases hthrough e he with hnone | hrec
    · cases hnone
    · exact hrec.append

theorem newEffects_keys (h : row ∈ rows) :
    row.key ∈ (effects ++ newEffects effects rows).map ChannelInventoryEffectRecord.key := by
  induction rows generalizing effects with
  | nil => cases h
  | cons first rest ih =>
    rw [newEffects]
    split
    · rename_i hseen
      rcases mem_cons.mp h with rfl | h
      · rw [map_append]
        exact mem_append_left _ hseen
      · exact ih h
    · rcases mem_cons.mp h with rfl | h
      · simp
      · have hrest := @ih (effects ++ [first]) h
        rw [append_assoc, singleton_append] at hrest
        exact hrest

/-- An order no older than the stored one is staged with the effects of its event. -/
theorem upsertWrites_new {eventId : String}
    (h : upsertWrites rt order source (some eventId) kind occurredAt now db = .ok writes)
    (hnew : outOfOrder (db.order order.channelId (providerOrderId rt order))
      (incomingVersion order occurredAt) = false) (named : eventId ≠ "") :
    ∃ u, writes = [.order u] ∧ u.order = order ∧ u.sourceEventId = some eventId ∧
      u.HasEffects rt eventId (db.effects ++ u.effects) := by
  unfold upsertWrites at h
  dsimp only at h
  rw [hnew, if_neg Bool.false_ne_true] at h
  simp only [Txn.bind_eq_ok] at h
  obtain ⟨state, -, effects, heffects, h⟩ := h
  cases h
  refine ⟨_, rfl, rfl, rfl, ?_⟩
  intro hkind item hitem
  rw [createInventoryEffects_named named, if_neg hkind] at heffects
  obtain ⟨rows, hrows, rfl⟩ := Txn.map_eq_ok.mp heffects
  obtain ⟨row, hrow, hrowok⟩ := forall₂_right_mem (Txn.mapM_ok.mp hrows) hitem
  rw [← (effectRow_ok hrowok).1]
  exact newEffects_keys hrow

end

def World.durable (w : World) : List Write := w.commits.flatMap (·.writes)

/-- A session that has committed or rolled back since its last write. -/
def Phase.settled : Phase → Bool
  | .ready _ | .listing _ | .exiting | .ended => true
  | _ => false

structure Kept (rt : Runtime) (w : World) : Prop where
  store : Matches w.store w.durable
  sound : Sound rt w.durable none
  named : ∀ r ∈ w.store.db.webhooks.receipts, r.providerEventId ≠ ""
  clean : ∀ r ∈ w.runs, r.phase.settled = true → r.staged = []
  going : ∀ r ∈ w.runs, w.lease.owner = some r.owner → Going rt (w.durable ++ r.staged) r.phase

/-- The order of an item, as it is answered, is of the item's channel and no older than the stored
one. -/
def Item.NotOlder (rt : Runtime) (db : Db) (answer : Option ChannelOrder) (item : Item) : Prop :=
  ∀ order, item.orderOf answer = some order → order.channelId = item.key.1 ∧
    outOfOrder (db.order order.channelId (providerOrderId rt order))
      (incomingVersion order item.occurredAt) = false

/-- Runs of the two services that record events, none of which is cancelled while it waits for an
order, of events that are named and whose orders are not older than the stored ones. -/
def Allowed (rt : Runtime) (w : World) : Action → Prop
  | .acquire route _ _ => route ≠ .reconciliation
  | .arrive providerEventId _ _ => providerEventId ≠ ""
  | .page _ (.events items _) => ∀ e ∈ items, e.eventId ≠ ""
  | .cancel owner => ∀ r pos p item rest, w.run owner = some r → r.phase ≠ .awaiting pos p item rest
  | .order owner answer => ∀ r s pos p item rest, w.run owner = some r →
      r.phase = .awaiting pos p item rest → session w.store r.staged = some s → item.NotOlder rt s.db answer
  | _ => True

section

variable {rt : Runtime} {channelId : Id} {w : World} {r : Run} {ws : List Write}

theorem session_named (hs : session s ws = some s')
    (named : ∀ r ∈ s.db.webhooks.receipts, r.providerEventId ≠ "")
    (hws : ∀ r ∈ finished ws, r.providerEventId ≠ "") :
    ∀ r ∈ s'.db.webhooks.receipts, r.providerEventId ≠ "" := by
  induction ws generalizing s with
  | nil => exact some.inj hs ▸ named
  | cons write rest ih =>
    rw [session] at hs
    split at hs
    · have hsplit : finished (write :: rest) = finished [write] ++ finished rest :=
        filterMap_append (l := [write])
      rw [hsplit] at hws
      refine ih hs ?_ fun r hr => hws r (mem_append_right _ hr)
      cases write with
      | receipt q =>
        intro r hr
        rcases Table.mem_set.mp hr with ⟨_, _, _, rfl⟩ | ⟨hold, -⟩
        · exact hws _ mem_cons_self
        · exact named r hold
      | event row => exact named
      | order u => exact named
      | cursor p => exact named
    · cases hs

theorem Kept.put (h : Kept rt w) (r' : Run) (clean : r'.phase.settled = true → r'.staged = [])
    (going : w.lease.owner = some r'.owner → Going rt (w.durable ++ r'.staged) r'.phase) :
    Kept rt (w.put r') := by
  constructor
  case store => exact h.store
  case sound => exact h.sound
  case named => exact h.named
  case clean =>
    intro q hq
    rcases mem_put hq with rfl | ⟨hold, -⟩
    · exact clean
    · exact h.clean q hold
  case going =>
    intro q hq howner
    rcases mem_put hq with rfl | ⟨hold, -⟩
    · exact going howner
    · exact h.going q hold howner

/-- A commit of the run that owns the lease. -/
theorem Kept.commit (h : Kept rt w) (owner : w.lease.owner = some r.owner) {lease : Lease}
    (kept : lease.owner = w.lease.owner) {done refused : Phase} (expiresAt : Time)
    (sound : Sound rt (w.durable ++ ws) none) (going : Going rt (w.durable ++ ws) done)
    (refuses : ∀ ws, Going rt ws refused) : Kept rt (w.commit r ws lease expiresAt done refused) := by
  unfold World.commit
  cases hs : session w.store ws with
  | none => exact h.put _ (fun _ => rfl) fun _ => refuses _
  | some store =>
    have hdurable : World.durable { w.put { r with expiresAt, staged := [], phase := done } with
        store, lease, commits := w.commits ++ [⟨r.owner, ws, w.lease, w.clock⟩] } = w.durable ++ ws := by
      simp [World.durable]
    constructor
    case store =>
      rw [hdurable]
      exact h.store.session hs
    case sound =>
      rw [hdurable]
      exact sound
    case named => exact session_named hs h.named fun r hr => (sound.receipts r (by simp [hr])).1
    case clean =>
      intro q hq
      rcases mem_put hq with rfl | ⟨hold, -⟩
      · exact fun _ => rfl
      · exact h.clean q hold
    case going =>
      intro q hq howner
      rw [hdurable]
      rcases mem_put hq with rfl | ⟨-, hne⟩
      · rw [append_nil]
        exact going
      · -- only the run itself owns the lease
        have hsame := howner.symm.trans (kept.trans owner)
        exact absurd (some.inj hsame) hne

theorem Kept.failing (h : Kept rt w) (r : Run) (staged : List Write) :
    Kept rt (w.put { r with staged, phase := .failing }) :=
  h.put _ nofun fun _ => trivial

theorem Kept.rollback (h : Kept rt w) (r : Run) (going : ∀ ws, Going rt ws phase) :
    Kept rt (w.rollback r phase) :=
  h.put _ (fun _ => rfl) fun _ => going _

theorem Kept.acquire (h : Kept rt w) (hl : Leased w) (route : Route) (leaseSeconds limit : Nat)
    (allowed : route ≠ .reconciliation) : Kept rt (w.acquire channelId route leaseSeconds limit) := by
  unfold World.acquire
  split
  · constructor
    case store => exact h.store
    case sound => exact h.sound
    case named => exact h.named
    case clean =>
      intro q hq
      rcases mem_append.mp hq with hold | hnew
      · exact h.clean q hold
      · rw [mem_singleton.mp hnew]
        exact fun _ => rfl
    case going =>
      intro q hq howner
      have hlen := some.inj howner
      rcases mem_append.mp hq with hold | hnew
      · -- the runs so far have smaller numbers
        have hmem : q.owner ∈ w.runs.map Run.owner := mem_map_of_mem hold
        rw [hl.owners, mem_range, ← hlen] at hmem
        exact absurd hmem (lt_irrefl _)
      · rw [mem_singleton.mp hnew]
        have hsound : Sound rt (World.durable w ++ []) none := by
          rw [append_nil]
          exact h.sound
        cases route with
        | polling =>
          refine ⟨hsound, ?_⟩
          have hcursor := h.store.cursor
          rw [← append_nil w.durable] at hcursor
          exact hcursor
        | webhook => exact ⟨hsound, trivial⟩
        | reconciliation => exact absurd rfl allowed
  · exact h

theorem Kept.heartbeat (h : Kept rt w) (found : w.run r.owner = some r) (leaseSeconds : Nat) :
    Kept rt (w.heartbeat r leaseSeconds) := by
  unfold World.heartbeat
  have hmem := (Table.get_some found).1
  cases hphase : r.phase with
  | ready pos =>
    dsimp only
    split
    · rename_i hcurrent
      obtain ⟨t, hlease, -⟩ := current_iff.mp hcurrent
      have howner : w.lease.owner = some r.owner := by rw [hlease]
      have hgoing := h.going r hmem howner
      rw [hphase] at hgoing
      have hlisting : Going rt (w.durable ++ r.staged) (.listing pos) := hgoing
      refine h.commit howner ?_ _ hgoing.1 hlisting ?_
      · rfl
      · exact fun _ => trivial
    · exact h.rollback r fun _ => trivial
  | _ => exact h

theorem Kept.page (h : Kept rt w) (found : w.run r.owner = some r) (answer : Answer)
    (allowed : ∀ items next, answer = .events items next → ∀ e ∈ items, e.eventId ≠ "") :
    Kept rt (w.page r answer) := by
  have hmem := (Table.get_some found).1
  have hstays : ∀ pos, r.phase = .listing pos → r.staged = [] := by
    intro pos hphase
    exact h.clean r hmem (by rw [hphase]; rfl)
  have hgoing : ∀ pos, r.phase = .listing pos → w.lease.owner = some r.owner →
      Sound rt (w.durable ++ r.staged) none ∧ pos.Follows (w.durable ++ r.staged) := by
    intro pos hphase howner
    have hg := h.going r hmem howner
    rw [hphase] at hg
    exact hg
  have hnext : ∀ (rest : List Nat) (pos : Position), r.phase = .listing pos →
      Kept rt (w.enter r (World.afterReceipt rest)) := by
    intro rest pos hphase
    refine h.put _ (fun _ => hstays pos hphase) fun howner => ?_
    cases rest with
    | nil => trivial
    | cons receiptId rest => exact ⟨(hgoing pos hphase howner).1, trivial⟩
  unfold World.page
  split
  · rename_i cursor hphase
    split
    · rename_i items next
      refine h.put _ nofun fun howner => ?_
      obtain ⟨hsound, hfollows⟩ := hgoing _ hphase howner
      refine ⟨hsound, hfollows, ?_, ?_, fun e he => .inl he⟩
      · intro c hc
        exact Position.polling.inj hc
      · intro item hitem
        obtain ⟨e, he, rfl⟩ := mem_map.mp hitem
        exact allowed items next rfl e he
    · exact h.failing r _
  · rename_i hphase
    have hnone : w.lease.owner ≠ some r.owner := fun howner => (hgoing _ hphase howner).2
    split
    · exact h.put _ nofun fun howner => absurd howner hnone
    · exact h.failing r _
  · rename_i hphase
    refine h.put _ nofun fun howner => ?_
    exact ⟨(hgoing _ hphase howner).1, trivial, nofun, by simp, fun e he => .inl he⟩
  · rename_i receiptId rest hphase
    split
    · exact hnext rest _ hphase
    rename_i receipt hreceipt
    have hnamed := h.named receipt (Table.get_some hreceipt).1
    split
    · refine h.put _ nofun fun howner => ?_
      refine ⟨(hgoing _ hphase howner).1, trivial, nofun, ?_, fun e he => .inl he⟩
      intro item hitem
      rw [mem_singleton.mp hitem]
      exact hnamed
    · exact hnext rest _ hphase
  · exact h

theorem Position.Follows.append {pos : Position} {more : List Write} (h : pos.Follows ws)
    (hmore : pages more = []) : pos.Follows (ws ++ more) := by
  cases pos with
  | polling cursor =>
    have hcursor : cursor = cursorOf ws := h
    rw [Position.Follows, cursorOf, pages_append, hmore, append_nil]
    exact hcursor
  | webhook receiptIds => trivial
  | reconciliation => exact h

theorem Kept.take (h : Kept rt w) (found : w.run r.owner = some r) : Kept rt (w.take rt r) := by
  have hmem := (Table.get_some found).1
  unfold World.take
  cases hphase : r.phase with
  | working pos p rest =>
    cases rest with
    | nil => exact h
    | cons item rest =>
      have hgoing : w.lease.owner = some r.owner →
          Going rt (w.durable ++ r.staged) (.working pos p (item :: rest)) := by
        intro howner
        have hg := h.going r hmem howner
        rw [hphase] at hg
        exact hg
      cases hs : session w.store r.staged with
      | none => exact h.failing r _
      | some s =>
        have hmatches := h.store.session hs
        have hrecorded := hmatches.recorded item.key.1 item.key.2
        -- an item that is recorded already leaves the others to come
        have hthrough : p.Through (w.durable ++ r.staged) (item :: rest) →
            RecordedIn (w.durable ++ r.staged) item.key.1 item.key.2 →
              p.Through (w.durable ++ r.staged) rest := by
          intro hall hrec e he
          rcases hall e he with hrest | hdone
          · rcases mem_cons.mp hrest with rfl | hrest
            · exact .inr hrec
            · exact .inl hrest
          · exact .inr hdone
        cases item with
        | event event =>
          dsimp only
          split
          · rename_i hrec
            refine h.put _ nofun fun howner => ?_
            obtain ⟨hsound, hfollows, hof, hnamed, hall⟩ := hgoing howner
            exact ⟨hsound, hfollows, hof, fun i hi => hnamed i (mem_cons_of_mem _ hi),
              hthrough hall (hrecorded.mp hrec)⟩
          · refine h.put _ nofun fun howner => ?_
            obtain ⟨hsound, hfollows, hof, hnamed, hall⟩ := hgoing howner
            rw [← append_assoc]
            refine ⟨hsound.event _, hfollows.append rfl, hof, hnamed, fun e he => ?_, ?_⟩
            · rcases hall e he with hrest | hdone
              · rcases mem_cons.mp hrest with heq | hrest
                · rw [Item.event.inj heq]
                  exact .inr ⟨eventRow rt event .snappshopPoll, by simp [eventRows], rfl, rfl⟩
                · exact .inl hrest
              · exact .inr hdone.append
            · exact ⟨eventRow rt event .snappshopPoll, by simp [eventRows], rfl, rfl⟩
        | receipt receipt webhook =>
          dsimp only
          split
          · rename_i hrec
            refine h.put _ nofun fun howner => ?_
            obtain ⟨hsound, hfollows, hof, hnamed, hall⟩ := hgoing howner
            have hrec' := hrecorded.mp hrec
            rw [← append_assoc]
            have hfinished : (receipt.finished w.clock).providerEventId ≠ "" :=
              hnamed _ mem_cons_self
            exact ⟨hsound.receipt hfinished hrec', hfollows.append rfl, hof,
              fun i hi => hnamed i (mem_cons_of_mem _ hi), (hthrough hall hrec').append⟩
          · refine h.put _ nofun fun howner => ?_
            obtain ⟨hsound, hfollows, hof, hnamed, hall⟩ := hgoing howner
            rw [← append_assoc]
            refine ⟨hsound.event _, hfollows.append rfl, hof, hnamed, fun e he => ?_, ?_⟩
            · rcases hall e he with hrest | hdone
              · rcases mem_cons.mp hrest with heq | hrest
                · cases heq
                · exact .inl hrest
              · exact .inr hdone.append
            · exact ⟨eventRow rt (eventFromTapsishopReceipt receipt.channelId
                receipt.providerEventId webhook) .tapsishopWebhook, by simp [eventRows],
                rfl, rfl⟩
        | order order =>
          refine h.put _ nofun fun howner => ?_
          exact absurd ((hgoing howner).2.2.2.1 _ mem_cons_self) id
  | _ => exact h

theorem toOption_some {x : Except ε α} (h : x.toOption = some a) : x = .ok a := by
  cases x with
  | error e => cases h
  | ok b => exact congrArg Except.ok (some.inj h)

/-- What is staged for an item that is not too old: its order, and the receipt that it is of. -/
theorem upserts_new {item : Item} {answer : Option ChannelOrder} {writes : List Write}
    (h : w.upserts rt s item answer = some writes) (hnew : item.NotOlder rt s.db answer)
    (named : item.Named) :
    ∃ u, u.order.channelId = item.key.1 ∧ u.sourceEventId = some item.key.2 ∧
      u.HasEffects rt item.key.2 (s.db.effects ++ u.effects) ∧
        (writes = [.order u] ∨ ∃ receipt webhook, item = .receipt receipt webhook ∧
          writes = [.order u, .receipt (receipt.finished w.clock)]) := by
  cases item with
  | order order => exact absurd named id
  | event event =>
    cases answer with
    | none => cases h
    | some order =>
      obtain ⟨hchannel, hinOrder⟩ := hnew order rfl
      obtain ⟨u, hwrites, horder, hid, heffects⟩ :=
        upsertWrites_new (toOption_some h) hinOrder named
      refine ⟨u, ?_, hid, heffects, .inl hwrites⟩
      rw [horder]
      exact hchannel
  | receipt receipt webhook =>
    obtain ⟨hchannel, hinOrder⟩ := hnew _ rfl
    have hstaged : ∃ staged, upsertWrites rt
        (answer.getD (orderOfPayload receipt.channelId receipt.providerEventId webhook))
        .tapsishopWebhook (some receipt.providerEventId) (some (eventFromTapsishopReceipt
          receipt.channelId receipt.providerEventId webhook).eventType)
        (parseDt (eventFromTapsishopReceipt receipt.channelId receipt.providerEventId
          webhook).occurredAt) w.clock s.db = .ok staged ∧
            writes = staged ++ [.receipt (receipt.finished w.clock)] := by
      cases answer with
      | none =>
        obtain ⟨staged, hstaged, hsame⟩ := map_eq_some_iff.mp h
        exact ⟨staged, toOption_some hstaged, hsame.symm⟩
      | some order =>
        obtain ⟨staged, hstaged, hsame⟩ := map_eq_some_iff.mp h
        exact ⟨staged, toOption_some hstaged, hsame.symm⟩
    obtain ⟨staged, hstaged, hwrites⟩ := hstaged
    obtain ⟨u, hone, horder, hid, heffects⟩ := upsertWrites_new hstaged hinOrder named
    rw [hone] at hwrites
    refine ⟨u, ?_, hid, heffects, .inr ⟨receipt, webhook, rfl, hwrites⟩⟩
    rw [horder]
    exact hchannel

theorem Kept.order (h : Kept rt w) (found : w.run r.owner = some r) (answer : Option ChannelOrder)
    (allowed : ∀ s pos p item rest, r.phase = .awaiting pos p item rest →
      session w.store r.staged = some s → item.NotOlder rt s.db answer) :
    Kept rt (w.order rt r answer) := by
  have hmem := (Table.get_some found).1
  unfold World.order
  cases hphase : r.phase with
  | awaiting pos p item rest =>
    dsimp only
    split
    · rename_i writes hwrites
      obtain ⟨s, hs, hupserts⟩ := bind_eq_some_iff.mp hwrites
      refine h.put _ nofun fun howner => ?_
      have hgoing := h.going r hmem howner
      rw [hphase] at hgoing
      obtain ⟨hsound, hfollows, hof, hnamed, hthrough, hrec⟩ := hgoing
      obtain ⟨u, hchannel, hid, heffects, hcases⟩ := upserts_new hupserts
        (allowed s pos p item rest hphase hs) (hnamed item mem_cons_self)
      rw [(h.store.session hs).effects] at heffects
      have hordered := hsound.order hchannel hid heffects
      have hrest : ∀ i ∈ rest, i.Named := fun i hi => hnamed i (mem_cons_of_mem _ hi)
      -- the item's own event is recorded, so the others are those to come
      have hleft : p.Through (w.durable ++ r.staged) rest := by
        intro e he
        rcases hthrough e he with hlater | hdone
        · exact .inl hlater
        · exact .inr hdone
      rw [← append_assoc]
      rcases hcases with rfl | ⟨receipt, webhook, rfl, rfl⟩
      · exact ⟨hordered, hfollows.append rfl, hof, hrest, hleft.append⟩
      have hsplit : ∀ ws : List Write, ws ++ [.order u, .receipt (receipt.finished w.clock)] =
          ws ++ [.order u] ++ [.receipt (receipt.finished w.clock)] := by simp
      rw [hsplit]
      have hfinished : (receipt.finished w.clock).providerEventId ≠ "" :=
        hnamed _ mem_cons_self
      have hrecorded : RecordedIn (w.durable ++ r.staged) (receipt.finished w.clock).channelId
          (receipt.finished w.clock).providerEventId := hrec
      exact ⟨hordered.receipt hfinished hrecorded.append, (hfollows.append rfl).append rfl, hof,
        hrest, hleft.append.append⟩
    · exact h.failing r _
  | _ => exact h

theorem Kept.progress (h : Kept rt w) (found : w.run r.owner = some r) (more : Bool) :
    Kept rt (w.progress r more) := by
  have hmem := (Table.get_some found).1
  unfold World.progress
  cases hphase : r.phase with
  | working pos p rest =>
    cases rest with
    | cons item rest => exact h
    | nil =>
      dsimp only
      split
      · rename_i hcurrent
        obtain ⟨t, hlease, -⟩ := current_iff.mp hcurrent
        have howner : w.lease.owner = some r.owner := by rw [hlease]
        have hgoing := h.going r hmem howner
        rw [hphase] at hgoing
        obtain ⟨hsound, hfollows, hof, -, hthrough⟩ := hgoing
        cases pos with
        | polling cursor =>
          have hasked : p.asked = cursorOf (w.durable ++ r.staged) :=
            (hof cursor rfl).trans hfollows
          have hread := hsound.cursor hasked hthrough
          rw [append_assoc] at hread
          have hcursor : p.next = cursorOf (w.durable ++ (r.staged ++ [.cursor p])) := by
            rw [← append_assoc, cursorOf, pages_append,
              show pages [.cursor p] = [p] from rfl, getLast?_concat]
            rfl
          refine h.commit howner rfl _ hread ?_ ?_
          · cases more with
            | true => exact ⟨hread, hcursor⟩
            | false => trivial
          · exact fun _ => trivial
        | webhook receiptIds =>
          refine h.commit howner rfl _ hsound ?_ ?_
          · cases receiptIds with
            | nil => trivial
            | cons receiptId rest => exact ⟨hsound, trivial⟩
          · exact fun _ => trivial
        | reconciliation => exact absurd hfollows id
      · exact h.rollback r fun _ => trivial
  | _ => exact h

/-- A release has nothing left to commit. -/
theorem Kept.release (h : Kept rt w) (found : w.run r.owner = some r) : Kept rt (w.release r) := by
  have hmem := (Table.get_some found).1
  unfold World.release
  cases hphase : r.phase with
  | exiting =>
    have hnone : r.staged = [] := h.clean r hmem (by rw [hphase]; rfl)
    simp only [World.commit, hnone, session]
    have hdurable : World.durable { w.put { r with staged := [], phase := .ended } with
        store := w.store
        lease := if w.lease.owner = some r.owner then ⟨none, none⟩ else w.lease
        commits := w.commits ++ [⟨r.owner, [], w.lease, w.clock⟩] } = w.durable := by
      simp [World.durable]
    have hput := h.put { r with staged := [], phase := .ended } (fun _ => rfl) fun _ => trivial
    constructor
    case store =>
      rw [hdurable]
      exact h.store
    case sound =>
      rw [hdurable]
      exact h.sound
    case named => exact h.named
    case clean => exact hput.clean
    case going =>
      intro q hq howner
      rw [hdurable]
      refine hput.going q hq ?_
      split at howner
      · cases howner
      · exact howner
  | _ => exact h

theorem Kept.arrive (h : Kept rt w) (payloadHash : String)
    (webhook : TapsiShopWebhook) (named : providerEventId ≠ "") :
    Kept rt (w.arrive channelId providerEventId payloadHash webhook) := by
  constructor
  case store =>
    refine ⟨h.store.events, h.store.effects, h.store.orders, ?_, h.store.cursor⟩
    intro q hq hprocessed
    rcases mem_append.mp hq with hold | hnew
    · exact h.store.receipts q hold hprocessed
    · rw [mem_singleton.mp hnew] at hprocessed
      cases hprocessed
  case sound => exact h.sound
  case named =>
    intro q hq
    rcases mem_append.mp hq with hold | hnew
    · exact h.named q hold
    · rw [mem_singleton.mp hnew]
      exact named
  case clean => exact h.clean
  case going => exact h.going

theorem Kept.withRun (h : Kept rt w)
    (hstep : ∀ r, w.run owner = some r → w.run r.owner = some r → Kept rt (step r)) :
    Kept rt (w.withRun owner step) := by
  unfold World.withRun
  cases hrun : w.run owner with
  | none => exact h
  | some r =>
    have howner : r.owner = owner := (Table.get_some hrun).2
    exact hstep r hrun (howner ▸ hrun)

theorem Kept.step (h : Kept rt w) (hl : Leased w) {a : Action} (allowed : Allowed rt w a) :
    Kept rt (w.step rt channelId a) := by
  cases a with
  | tick duration => exact ⟨h.store, h.sound, h.named, h.clean, h.going⟩
  | arrive providerEventId payloadHash webhook => exact h.arrive payloadHash webhook allowed
  | acquire route leaseSeconds limit => exact h.acquire hl route leaseSeconds limit allowed
  | heartbeat owner leaseSeconds => exact h.withRun fun r _ found => h.heartbeat found leaseSeconds
  | page owner answer =>
    refine h.withRun fun r _ found => h.page found answer fun items next heq => ?_
    rw [heq] at allowed
    exact allowed
  | take owner => exact h.withRun fun r _ found => h.take found
  | order owner answer =>
    refine h.withRun fun r hrun found => h.order found answer fun s pos p item rest hphase hs => ?_
    exact allowed r s pos p item rest hrun hphase hs
  | progress owner more => exact h.withRun fun r _ found => h.progress found more
  | raise owner =>
    refine h.withRun fun r _ _ => ?_
    unfold World.raise
    split
    · exact h
    · exact h
    · exact h
    · exact h.failing r _
  | fail owner =>
    refine h.withRun fun r _ _ => ?_
    unfold World.fail
    split
    · exact h.rollback r fun _ => trivial
    · exact h
  | cancel owner =>
    refine h.withRun fun r hrun found => ?_
    have hclean := h.clean r (Table.get_some found).1
    unfold World.cancel
    split
    · rename_i hphase
      exact h.put _ (fun _ => hclean (by rw [hphase]; rfl)) fun _ => trivial
    · rename_i hphase
      exact h.put _ (fun _ => hclean (by rw [hphase]; rfl)) fun _ => trivial
    · rename_i hphase
      exact absurd hphase (allowed r _ _ _ _ hrun)
    · exact h
  | release owner => exact h.withRun fun r _ found => h.release found
  | crash owner => exact h.withRun fun r _ _ => h.rollback r fun _ => trivial

theorem kept_run (h : Kept rt w) (hl : Leased w) (allowed : Along rt channelId (Allowed rt) w actions) :
    Kept rt (actions.foldl (World.step rt channelId) w) := by
  induction actions generalizing w with
  | nil => exact h
  | cons a rest ih =>
    obtain ⟨hfirst, hrest⟩ := allowed
    exact ih (h.step hl hfirst) (hl.move (step_move rt channelId w a)) hrest

end

/-- Nothing is recorded without what belongs to it: an event has its order and its effects, a
processed receipt its event, and the pages up to the cursor all their events. -/
structure Complete (rt : Runtime) (w : World) : Prop where
  events : ∀ e ∈ w.store.db.events, ∃ u ∈ upserted w.durable, u.order.channelId = e.channelId ∧
    u.sourceEventId = some e.providerEventId ∧
      (w.store.db.order u.row.channelId u.row.providerOrderId).isSome = true ∧
        u.HasEffects rt e.providerEventId w.store.db.effects
  receipts : ∀ r ∈ w.store.db.webhooks.receipts, r.processingState = .processed →
    w.store.db.recorded r.channelId r.providerEventId = true
  chained : Chained none (pages w.durable)
  cursor : w.store.cursor = cursorOf w.durable
  read : ∀ p ∈ pages w.durable, ∀ e, .event e ∈ p.items → w.store.db.recorded e.channelId e.eventId = true

/-- Where no run is cancelled while it waits for the order of an event, and no such order is older
than the stored one, nothing is recorded without what belongs to it. -/
theorem events_complete (rt : Runtime) (channelId : Id) (actions : List Action)
    (allowed : Along rt channelId (Allowed rt) {} actions) :
    Complete rt (World.after rt channelId actions) := by
  have hstart : Kept rt {} := by
    constructor
    case store => exact ⟨rfl, rfl, by simp [World.durable, upserted], by simp, rfl⟩
    case sound =>
      exact ⟨by simp [World.durable, eventRows], by simp [World.durable, Orders.finished], trivial,
        by simp [World.durable, pages]⟩
    case named => simp
    case clean => simp
    case going => simp
  have h : Kept rt (World.after rt channelId actions) :=
    kept_run hstart (leased_after rt channelId []) allowed
  constructor
  case events =>
    intro e he
    rw [h.store.events] at he
    obtain ⟨u, hu, hchannel, hid, heffects⟩ := h.sound.events e he (by simp)
    refine ⟨u, hu, hchannel, hid, h.store.orders u hu, ?_⟩
    rw [h.store.effects]
    exact heffects
  case receipts =>
    intro r hr hprocessed
    rw [h.store.recorded]
    exact (h.sound.receipts r (h.store.receipts r hr hprocessed)).2
  case chained => exact h.sound.chained
  case cursor => exact h.store.cursor
  case read =>
    intro p hp e he
    rw [h.store.recorded]
    exact h.sound.read p hp e he

namespace Sample

/-- A run is cancelled while it waits for the order, and another one reads the page again. -/
def lost : List Action :=
  waiting ++ [.cancel 0, .release 0, .acquire .polling 1 100, .heartbeat 1 1,
    .page 1 (.events [polled "e1"] (some "next")), .take 1, .progress 1 false, .release 1]

/-- The second event of a page is older than the first. -/
def overtaken : List Action :=
  [.acquire .polling 1 100, .heartbeat 0 1, .page 0 (.events [polled "e1", polled "e2"] none), .take 0,
    .order 0 (some (order "CANCELLATION" (some "2024-01-01T11:00:00Z") [line "7" 1 []])), .take 0,
    .order 0 (some (order "NEW_ORDER" (some "2024-01-01T10:00:00Z") [line "7" 1 []])),
    .progress 0 false, .release 0]

def awaited : Phase → Option (Id × Option Int)
  | .awaiting _ _ item _ => some (item.key.1, item.occurredAt)
  | _ => none

end Sample

open Sample

/-- An event whose order was waited for in vain is a duplicate ever after, and one that is overtaken
has no effects. -/
theorem events_lost : ¬ Complete runtime (World.after runtime "snappshop:main" lost) ∧
    ¬ Complete runtime (World.after runtime "snappshop:main" Sample.overtaken) := by
  constructor
  · intro h
    have hevent : ∃ e ∈ (World.after runtime "snappshop:main" lost).store.db.events,
        e.providerEventId = "e1" := by decide +kernel
    obtain ⟨e, he, -⟩ := hevent
    obtain ⟨u, hu, -⟩ := h.events e he
    cases hu
  · intro h
    have hevent : ∃ e ∈ (World.after runtime "snappshop:main"
        Sample.overtaken).store.db.events, e.providerEventId = "e2" := by decide +kernel
    have hother : ∀ u ∈ upserted (World.after runtime "snappshop:main"
        Sample.overtaken).durable, u.sourceEventId ≠ some "e2" := by decide +kernel
    obtain ⟨e, he, hid⟩ := hevent
    obtain ⟨u, hu, -, hsource, -⟩ := h.events e he
    rw [hid] at hsource
    exact hother u hu hsource

theorem events_complete_finished :
    Complete runtime (World.after runtime "snappshop:main" Sample.finished) := by
  refine events_complete runtime "snappshop:main" Sample.finished ?_
  refine ⟨nofun, trivial, ?_, trivial, ?_, trivial, trivial, trivial⟩
  · intro e he
    rw [mem_singleton.mp he]
    decide
  · intro r s pos p item rest hrun hphase _ other hother
    have hall : ∀ r ∈ (World.after runtime "snappshop:main" (Sample.finished.take 4)).runs,
        awaited r.phase = some ("snappshop:main", none) := by decide +kernel
    have hitem := hall r (Table.get_some hrun).1
    rw [hphase, awaited, some.injEq, Prod.mk.injEq] at hitem
    obtain ⟨hchannel, hoccurred⟩ := hitem
    have hanswer : Sample.order "NEW_ORDER" none [line "7" 1 []] = other := by
      cases item with
      | event e => exact some.inj hother
      | receipt receipt webhook => exact some.inj hother
      | order o => exact some.inj hother
    rw [← hanswer, hchannel, hoccurred]
    refine ⟨rfl, ?_⟩
    have hundated : incomingVersion (Sample.order "NEW_ORDER" none [line "7" 1 []]) none = none := rfl
    rw [hundated]
    simp [outOfOrder]

end FlowHub.Orders
