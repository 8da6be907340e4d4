import FlowHub.Webhooks.Acceptance

namespace FlowHub.Webhooks

open Python Txn List Except

namespace Db

/-- The event ids a receipt was accepted with. -/
def eventIdsOf (db : Db) (receiptId : Nat) : List String :=
  (db.identities.filter fun i => decide (i.receiptId = receiptId)).map
    WebhookProviderEventIdentity.providerEventId

end Db

/-- What the keys of the two tables keep apart, and whose identities are whose. -/
structure Keyed (db : Db) : Prop where
  ids : (db.receipts.map WebhookReceipt.id).Nodup
  identityKeys : (db.identities.map fun i => (i.channelId, i.providerEventId)).Nodup
  owned : ∀ i ∈ db.identities, ∃ r ∈ db.receipts, r.id = i.receiptId ∧ r.channelId = i.channelId
  delivered : ∀ r ∈ db.receipts, r.provider = .woocommerce → db.eventIdsOf r.id = [r.providerEventId]

/-- Receipts and identities are only added, and no identity to a receipt that was there. -/
structure Grows (a b : Db) : Prop where
  receipts : a.receipts <+: b.receipts
  identities : ∃ more, b.identities = a.identities ++ more ∧
    ∀ i ∈ more, i.receiptId ∉ a.receipts.map WebhookReceipt.id

theorem Grows.refl (a : Db) : Grows a a := ⟨prefix_rfl, [], by simp, by simp⟩

theorem Grows.trans {a b c : Db} (hab : Grows a b) (hbc : Grows b c) : Grows a c := by
  obtain ⟨more, hmore, hnew⟩ := hab.identities
  obtain ⟨more', hmore', hnew'⟩ := hbc.identities
  refine ⟨hab.receipts.trans hbc.receipts, more ++ more', by rw [hmore', hmore, append_assoc],
    fun i hi => ?_⟩
  rcases mem_append.mp hi with hi | hi
  · exact hnew i hi
  · intro hmem
    obtain ⟨r, hr, hid⟩ := mem_map.mp hmem
    exact hnew' i hi (mem_map.mpr ⟨r, hab.receipts.subset hr, hid⟩)

section

variable {db : Db} {receipt : WebhookReceipt}

theorem Grows.eventIdsOf (h : Grows db db') (hr : r ∈ db.receipts) :
    db'.eventIdsOf r.id = db.eventIdsOf r.id := by
  obtain ⟨more, hmore, hnew⟩ := h.identities
  have hnone : more.filter (fun i => decide (i.receiptId = r.id)) = [] := by
    simp only [filter_eq_nil_iff, decide_eq_true_eq]
    exact fun i hi heq => hnew i hi (mem_map.mpr ⟨r, hr, heq.symm⟩)
  simp [Db.eventIdsOf, hmore, filter_append, hnone, append_nil]

theorem Keyed.unique (h : Keyed db) (hr : r ∈ db.receipts) (hreceipt : receipt ∈ db.receipts)
    (hid : r.id = receipt.id) : r = receipt :=
  inj_on_of_nodup_map h.ids hr hreceipt hid

theorem empty_keyed : Keyed {} := ⟨by simp, by simp, by simp, by simp⟩

theorem insertReceipt_ok (h : insertReceipt new now db = .ok (db', receipt)) :
    db.identitiesFor new.channelId new.eventIds = [] ∧ receipt = new.receipt db.nextId now ∧
      db'.receipts = db.receipts ++ [receipt] ∧
      db'.identities = db.identities ++ new.identities receipt.id := by
  unfold insertReceipt at h
  split at h
  · cases h
  · rename_i hfree
    cases h
    exact ⟨not_not.mp (not_or.mp hfree).2, rfl, rfl, rfl⟩

theorem insertReceipt_grows (h : insertReceipt new now db = .ok (db', receipt)) : Grows db db' := by
  obtain ⟨-, hreceipt, hreceipts, hidentities⟩ := insertReceipt_ok h
  refine ⟨hreceipts ▸ prefix_append _ _, _, hidentities, fun i hi => ?_⟩
  obtain ⟨eventId, -, rfl⟩ := mem_map.mp hi
  rw [hreceipt]
  exact nextId_notMem db

theorem insertReceipt_eventIds (keyed : Keyed db) (h : insertReceipt new now db = .ok (db', receipt)) :
    db'.eventIdsOf receipt.id = new.eventIds := by
  obtain ⟨-, hreceipt, -, hidentities⟩ := insertReceipt_ok h
  have hold : db.identities.filter (fun i => decide (i.receiptId = receipt.id)) = [] := by
    simp only [filter_eq_nil_iff, decide_eq_true_eq]
    intro i hi heq
    obtain ⟨r, hr, hid, -⟩ := keyed.owned i hi
    rw [hreceipt] at heq
    exact nextId_notMem db (mem_map.mpr ⟨r, hr, hid.trans heq⟩)
  simp [Db.eventIdsOf, hidentities, hold, NewReceipt.identities, filter_map, Function.comp_def]

theorem insertReceipt_keyed (keyed : Keyed db) (distinct : new.eventIds.Nodup)
    (single : new.provider = .woocommerce → new.eventIds = [new.providerEventId])
    (h : insertReceipt new now db = .ok (db', receipt)) : Keyed db' := by
  have hgrows := insertReceipt_grows h
  have hevents := insertReceipt_eventIds keyed h
  obtain ⟨hfree, hreceipt, hreceipts, hidentities⟩ := insertReceipt_ok h
  refine ⟨?_, ?_, fun i hi => ?_, fun r hr hprovider => ?_⟩
  · rw [hreceipts, map_append, nodup_append]
    refine ⟨keyed.ids, by simp, fun id hid other hother => ?_⟩
    obtain rfl : other = db.nextId := by simpa [hreceipt, NewReceipt.receipt, acceptedReceipt] using hother
    exact fun heq => nextId_notMem db (heq ▸ hid)
  · rw [hidentities, map_append, nodup_append]
    refine ⟨keyed.identityKeys, ?_, fun key hkey other hother heq => ?_⟩
    · rw [NewReceipt.identities, map_map]
      exact distinct.map fun a b hab => (Prod.mk.inj hab).2
    subst heq
    obtain ⟨i, hi, rfl⟩ := mem_map.mp hkey
    obtain ⟨j, hj, hij⟩ := mem_map.mp hother
    obtain ⟨eventId, hevent, rfl⟩ := mem_map.mp hj
    obtain ⟨hchannel, hid⟩ := Prod.mk.inj hij
    have hmem : i ∈ db.identitiesFor new.channelId new.eventIds := by
      simp only [Db.identitiesFor, mem_filter, decide_eq_true_eq]
      exact ⟨hi, hchannel.symm, hid ▸ hevent⟩
    rw [hfree] at hmem
    cases hmem
  · rw [hidentities] at hi
    rcases mem_append.mp hi with hi | hi
    · obtain ⟨r, hr, hid⟩ := keyed.owned i hi
      exact ⟨r, hgrows.receipts.subset hr, hid⟩
    · obtain ⟨eventId, -, rfl⟩ := mem_map.mp hi
      refine ⟨receipt, by rw [hreceipts]; simp, rfl, ?_⟩
      rw [hreceipt]
      rfl
  · rw [hreceipts] at hr
    rcases mem_append.mp hr with hr | hr
    · rw [hgrows.eventIdsOf hr]
      exact keyed.delivered r hr hprovider
    · obtain rfl := mem_singleton.mp hr
      rw [hreceipt] at hprovider
      rw [hevents, single hprovider, hreceipt]
      rfl

/-- The receipt holds every one of the event ids, in the channel they are looked for in. -/
def Holds (db : Db) (channelId : Id) (eventIds : List String) (receipt : WebhookReceipt) : Prop :=
  receipt ∈ db.receipts ∧ receipt.channelId = channelId ∧ ∀ id ∈ eventIds, id ∈ db.eventIdsOf receipt.id

/-- The lookup for receipts older than item identities answers nothing. -/
def LegacyFree (db : Db) (channelId : Id) (eventId : String) : Prop :=
  db.identitiesFor channelId [eventId] = [] → db.receiptFor channelId eventId = none

theorem matchingTapsishopReceipt_holds (keyed : Keyed db)
    (legacy : ∀ id, eventIds = [id] → LegacyFree db channelId id)
    (h : matchingTapsishopReceipt channelId eventIds db = .ok (some receipt)) :
    Holds db channelId eventIds receipt := by
  unfold matchingTapsishopReceipt at h
  split at h
  · rename_i eventId hnone
    have hfree := legacy eventId rfl hnone
    rw [hfree] at h
    cases h
  · cases h
  · rename_i eventIds _ _ identity rest hsome
    dsimp only at h
    split at h
    · rename_i hmatch
      obtain ⟨hall, hsame⟩ := hmatch
      obtain ⟨hreceipt, hid⟩ := Table.get_some (ok.inj h)
      have hmine : ∀ i ∈ db.identitiesFor channelId eventIds, i.receiptId = receipt.id := by
        rw [hsome, hid]
        intro i hi
        rcases mem_cons.mp hi with rfl | hi
        · rfl
        · exact hsame i hi
      refine ⟨hreceipt, ?_, fun id hid => ?_⟩
      · have hfirst : identity ∈ db.identitiesFor channelId eventIds := hsome ▸ mem_cons_self
        have hmem := mem_filter.mp hfirst
        obtain ⟨r, hr, hrid, hchannel⟩ := keyed.owned identity hmem.1
        rw [keyed.unique hreceipt hr ((hmine identity hfirst).symm.trans hrid.symm), hchannel]
        exact (of_decide_eq_true hmem.2).1
      · obtain ⟨i, hi, hevent⟩ := mem_map.mp (hall id hid)
        rw [← hsome] at hi
        refine mem_map.mpr ⟨i, mem_filter.mpr ⟨(mem_filter.mp hi).1, ?_⟩, hevent⟩
        exact decide_eq_true (hmine i hi)
    · cases h

theorem matchingDelivery_holds {eventId : String} (keyed : Keyed db)
    (h : matchingDelivery channelId eventId db = some receipt) :
    Holds db channelId [eventId] receipt := by
  unfold matchingDelivery at h
  have hreceipt := mem_of_find?_eq_some h
  have hkey := find?_some h
  obtain ⟨hchannel, hprovider, hevent⟩ := of_decide_eq_true hkey
  refine ⟨hreceipt, hchannel, fun id hid => ?_⟩
  rw [keyed.delivered receipt hreceipt hprovider, hevent]
  exact hid

end

/-- What any step of an acceptance does to the store. -/
structure Evolves (a b : World store) : Prop where
  keyed : Keyed a.state → Keyed b.state
  grows : Grows a.state b.state
  past : a.past <+: b.past

theorem Evolves.refl (a : World store) : Evolves a a := ⟨id, .refl _, prefix_rfl⟩

theorem Evolves.trans {a b c : World store} (hab : Evolves a b) (hbc : Evolves b c) : Evolves a c :=
  ⟨hbc.keyed ∘ hab.keyed, hab.grows.trans hbc.grows, hab.past.trans hbc.past⟩

/-- A step writes nothing, or one receipt with its identities. -/
structure Acts (a b : World store) : Prop extends Evolves a b where
  adds : b.state = a.state ∨ ∃ r, b.state.receipts = a.state.receipts ++ [r]

def acting : Contract store := ⟨Evolves, Acts⟩

/-- The receipt a step adds. -/
def addition (a b : World store) : Option WebhookReceipt :=
  if b.state = a.state then none else b.state.receipts.getLast?

def additions (t : Trail store) : List WebhookReceipt := t.filterMap fun m => addition m.1 m.2

/-- No lookup of the run so far was answered by a receipt without identities for it. -/
def Clear (w : World store) : Prop := ∀ ev ∈ w.past, ∀ channelId eventId,
  ev.label = .commit (.find channelId [eventId]) → LegacyFree ev.before channelId eventId

/-- Nothing has failed between a receipt's commit and the answer about it. -/
def Confirmed (w : World store) : Prop := ∀ ev ∈ w.past, ∀ e, ev.label ≠ .rollback .confirm e

section

variable {v w : World store} {t : Trail store} {channelId : Id} {eventIds : List String}

theorem idle_acts (v : World store) (l : Label store) : Acts v (v.log l v.state) :=
  ⟨⟨id, .refl _, prefix_append _ _⟩, .inl rfl⟩

@[simp] theorem additions_idle (t : Trail store) (v : World store) (l : Label store) :
    additions (t ++ [(v, v.log l v.state)]) = additions t := by
  simp [additions, addition]

theorem Clear.before (h : Evolves v w) (clear : Clear w) : Clear v :=
  fun ev hev => clear ev (h.past.subset hev)

theorem Confirmed.before (h : Evolves v w) (confirmed : Confirmed w) : Confirmed v :=
  fun ev hev => confirmed ev (h.past.subset hev)

theorem Holds.evolves {receipt : WebhookReceipt} (h : Evolves v w)
    (holds : Holds v.state channelId eventIds receipt) :
    Holds w.state channelId eventIds receipt := by
  obtain ⟨hmem, hchannel, hevents⟩ := holds
  refine ⟨h.grows.receipts.subset hmem, hchannel, fun id hid => ?_⟩
  rw [h.grows.eventIdsOf hmem]
  exact hevents id hid

/-- A call that returns: whose receipt it answers, and what it added itself. -/
structure Answers (channelId : Id) (eventIds : List String) (a : AcceptedWebhook)
    (t : Trail store) (w : World store) : Prop where
  keyed : Keyed w.state
  holds : Clear w → Holds w.state channelId eventIds a.receipt
  found : a.duplicate = true → additions t = []
  created : a.duplicate = false → additions t = [a.receipt] ∧
    Holds w.state channelId eventIds a.receipt ∧ w.state.eventIdsOf a.receipt.id = eventIds

/-- A call that raises. -/
structure Refuses (t : Trail store) (w : World store) : Prop where
  keyed : Keyed w.state
  nothing : Confirmed w → additions t = []

theorem Answers.evolves {a : AcceptedWebhook} (h : Evolves v w)
    (answers : Answers channelId eventIds a t v) : Answers channelId eventIds a t w where
  keyed := h.keyed answers.keyed
  holds clear := (answers.holds (clear.before h)).evolves h
  found := answers.found
  created hnew := by
    obtain ⟨hadds, hholds, hevents⟩ := answers.created hnew
    exact ⟨hadds, hholds.evolves h, by rw [h.grows.eventIdsOf hholds.1, hevents]⟩

theorem Refuses.evolves (h : Evolves v w) (refuses : Refuses t v) : Refuses t w :=
  ⟨h.keyed refuses.keyed, fun confirmed => refuses.nothing (confirmed.before h)⟩

/-- A lookup adds nothing, and what it finds holds the ids looked for. -/
def Finds (find : Program (Option WebhookReceipt)) (channelId : Id) (eventIds : List String) : Prop :=
  ∀ t w, Keyed w.state → additions t = [] → find.Accounts acting
      (fun r t v => Keyed v.state ∧ additions t = [] ∧
        ∀ receipt, r = some receipt → Clear v → Holds v.state channelId eventIds receipt)
      (fun _ => Refuses) t w

theorem finds_consult
    (holds : ∀ v : World store, Keyed v.state → Clear (v.log (.commit tag) v.state) →
      ∀ receipt, f v.state = .ok (some receipt) → Holds v.state channelId eventIds receipt) :
    Finds (Proc.consult (I := store) tag f) channelId eventIds := by
  intro t w keyed ht
  refine Proc.Accounts.consult (fun v hv r hr => ⟨idle_acts v _, hv.keyed keyed, ?_, ?_⟩)
    fun v hv e => ⟨idle_acts v _, hv.keyed keyed, fun _ => ?_⟩
  · simpa using ht
  · rintro receipt rfl clear
    exact holds v (hv.keyed keyed) clear receipt hr
  · simpa using ht

theorem addition_insert (v : World store) (tag : Tag) (h : insertReceipt new now v.state = .ok (s, receipt)) :
    addition v (v.log (.commit tag) s) = some receipt := by
  obtain ⟨-, -, hreceipts, -⟩ := insertReceipt_ok h
  have hne : s ≠ v.state := by
    intro heq
    rw [heq] at hreceipts
    simpa using congrArg length hreceipts
  simp [addition, hne, hreceipts]

theorem refresh_ok (keyed : Keyed db)
    (hmem : receipt ∈ db.receipts) (h : refresh receipt db = .ok r) : r = receipt := by
  have hfound : db.receipt receipt.id = some receipt := Table.get_of_mem keyed.ids hmem
  simp only [refresh, hfound, Option.elim_some] at h
  exact (ok.inj h).symm

theorem insertOrFind_answers (finds : Finds find new.channelId new.eventIds) (distinct : new.eventIds.Nodup)
    (single : new.provider = .woocommerce → new.eventIds = [new.providerEventId])
    (keyed : Keyed w.state) (ht : additions t = []) :
    (insertOrFind find new now).Accounts acting (Answers new.channelId new.eventIds)
      (fun _ => Refuses) t w := by
  have inserted : (Proc.transact (I := store) .insert (insertReceipt new now)).Accounts acting
      (fun receipt t v => Keyed v.state ∧ additions t = [receipt] ∧
        Holds v.state new.channelId new.eventIds receipt ∧
        v.state.eventIdsOf receipt.id = new.eventIds)
      (fun _ t v => Keyed v.state ∧ additions t = []) t w := by
    refine Proc.Accounts.transact (fun v hv s receipt hs => ?_)
      fun v hv e => ⟨idle_acts v _, hv.keyed keyed, by simpa using ht⟩
    have hkeyed := hv.keyed keyed
    have hevents := insertReceipt_eventIds hkeyed hs
    obtain ⟨-, hreceipt, hreceipts, -⟩ := insertReceipt_ok hs
    have hs' := insertReceipt_keyed hkeyed distinct single hs
    refine ⟨⟨⟨fun _ => hs', insertReceipt_grows hs, prefix_append _ _⟩, .inr ⟨_, hreceipts⟩⟩,
      hs', ?_, ⟨?_, ?_, fun id hid => ?_⟩, hevents⟩
    · simp only [additions, filterMap_append, filterMap_cons, filterMap_nil, addition_insert v .insert hs]
      exact congrArg (· ++ [receipt]) ht
    · rw [World.log_state, hreceipts]
      simp
    · rw [hreceipt]
      rfl
    · rw [World.log_state, hevents]
      exact hid
  refine inserted.tryElse (fun receipt t v h => ?_) fun e t v h => ?_
  · obtain ⟨hkeyed, hadds, hholds, hevents⟩ := h
    refine Proc.Accounts.bind (Q := fun r t v => r = receipt ∧
        Answers new.channelId new.eventIds ⟨receipt, false⟩ t v) ?_ ?_
    · refine Proc.Accounts.consult (fun u hu r hr => ⟨idle_acts u _, ?_, ?_⟩)
        fun u hu e => ⟨idle_acts u _, hu.keyed hkeyed, fun confirmed => ?_⟩
      · exact refresh_ok (hu.keyed hkeyed) (hholds.evolves hu).1 hr
      · have hanswers : Answers new.channelId new.eventIds ⟨receipt, false⟩ t v :=
          ⟨hkeyed, fun _ => hholds, nofun, fun _ => ⟨hadds, hholds, hevents⟩⟩
        have hlogged := hanswers.evolves (hu.trans (idle_acts u (.commit .confirm)).toEvolves)
        exact ⟨hlogged.keyed, hlogged.holds, nofun, fun _ =>
          ⟨by simpa using hadds, (hlogged.created rfl).2⟩⟩
      · exact absurd rfl (confirmed _ (mem_append_right _ mem_cons_self) e)
    · rintro r t v ⟨rfl, hanswers⟩
      exact hanswers
  · obtain ⟨hkeyed, hadds⟩ := h
    split
    · refine (finds t v hkeyed hadds).bind fun r t v h => ?_
      obtain ⟨hkeyed, hadds, hfound⟩ := h
      cases r with
      | none => exact ⟨hkeyed, fun _ => hadds⟩
      | some duplicate => exact ⟨hkeyed, hfound duplicate rfl, fun _ => hadds, nofun⟩
    · exact ⟨hkeyed, fun _ => hadds⟩

theorem acceptOnce_answers (new : NewReceipt) (finds : Finds find new.channelId new.eventIds)
    (distinct : new.eventIds.Nodup)
    (single : new.provider = .woocommerce → new.eventIds = [new.providerEventId])
    (keyed : Keyed w.state) (ht : additions t = []) :
    (acceptOnce find new now).Accounts acting (Answers new.channelId new.eventIds)
      (fun _ => Refuses) t w := by
  refine (finds t w keyed ht).bind fun r t v h => ?_
  obtain ⟨hkeyed, hadds, hfound⟩ := h
  cases r with
  | none => exact insertOrFind_answers finds distinct single hkeyed hadds
  | some existing =>
    have hanswers : Answers new.channelId new.eventIds ⟨existing, true⟩ t v :=
      ⟨hkeyed, hfound existing rfl, fun _ => hadds, nofun⟩
    refine Proc.Accounts.bind (Q := fun _ t v =>
      Answers new.channelId new.eventIds ⟨existing, true⟩ t v) ?_ fun _ _ _ h => h
    refine Proc.Accounts.transact (fun u hu s _ hs => ?_)
      fun u hu e => ⟨idle_acts u _, hu.keyed hkeyed, fun _ => by simpa using hadds⟩
    cases hs
    have hlogged := hanswers.evolves (hu.trans (idle_acts u (.commit .duplicate)).toEvolves)
    exact ⟨idle_acts u _, hlogged.keyed, hlogged.holds, fun _ => by simpa using hadds, nofun⟩

variable (u : Unicode) (printable : Char → Bool) (hash : Hashing)

theorem accept_answers (call : Acceptance) (w : World store) (keyed : Keyed w.state) :
    (accept u printable hash call).Accounts acting
      (Answers call.channelId (call.eventIds u printable)) (fun _ => Refuses) [] w := by
  cases call with
  | tapsishop channelId payload rawBody now =>
    cases hnormal : normalizeTapsishopWebhookPayload u printable payload with
    | error e =>
      simp only [accept, acceptTapsishop, normalizeTapsishopPayload, hnormal]
      cases e with
      | invalid message => exact ⟨keyed, fun _ => rfl⟩
      | overflow => exact ⟨keyed, fun _ => rfl⟩
    | ok webhook =>
      simp only [accept, acceptTapsishop, normalizeTapsishopPayload, hnormal,
        Acceptance.eventIds, Acceptance.channelId]
      refine acceptOnce_answers (tapsishopReceipt hash channelId webhook rawBody)
        (finds_consult fun v hv clear receipt h => ?_) webhook.distinct (by simp [tapsishopReceipt])
        keyed rfl
      refine matchingTapsishopReceipt_holds hv (fun id hid => ?_) h
      exact clear _ (mem_append_right _ mem_cons_self) channelId id (by rw [← hid]; rfl)
  | woocommerce channelId topic payload rawBody webhookId deliveryId now =>
    refine acceptOnce_answers
      (deliveryReceipt printable hash channelId topic payload rawBody _)
      (finds_consult fun v hv clear receipt h => ?_) (by simp [deliveryReceipt]) (fun _ => rfl)
      keyed rfl
    exact matchingDelivery_holds hv (ok.inj h)

/-- The receipts of a store that was empty are what the steps added, each by one of them. -/
theorem moves_receipts {ι : Type} [DecidableEq ι] {start ps : ι → Program AcceptedWebhook}
    {moves : List (Move ι store)} {w : World store}
    (run : Interleaved start (World.initial {}) moves ps w)
    (acts : ∀ m ∈ moves, Acts m.before m.after) :
    moves.filterMap (fun m => addition m.before m.after) = w.state.receipts := by
  induction run with
  | start => rfl
  | @step moves ps v u i q _ _ ih =>
    have hprefix := ih fun m hm => acts m (mem_append_left _ hm)
    have hlast : Acts v u := acts ⟨i, v, u⟩ (mem_append_right _ mem_cons_self)
    rw [filterMap_append, hprefix]
    rcases hlast.adds with hsame | ⟨r, hr⟩
    · simp [addition, hsame]
    have hne : u.state ≠ v.state := by
      intro heq
      rw [heq] at hr
      simpa using congrArg length hr
    simp [addition, hne, hr]

theorem moves_evolve {ι : Type} [DecidableEq ι] {start ps : ι → Program AcceptedWebhook}
    {moves : List (Move ι store)} {v w : World store} (run : Interleaved start v moves ps w)
    (acts : ∀ m ∈ moves, Acts m.before m.after) : Evolves v w := by
  induction run with
  | start => exact .refl _
  | @step moves ps w x i q _ _ ih =>
    have hlast : Acts w x := acts ⟨i, w, x⟩ (mem_append_right _ mem_cons_self)
    exact (ih fun m hm => acts m (mem_append_left _ hm)).trans hlast.toEvolves

theorem filterMap_unique {σ τ : Type} {f : σ → Option τ} {l : List σ} (h : (l.filterMap f).Nodup)
    {a b : σ} {c : τ} (ha : a ∈ l) (hb : b ∈ l) (hfa : f a = some c) (hfb : f b = some c) :
    a = b := by
  induction l with
  | nil => cases ha
  | cons x rest ih =>
    have hrest : (rest.filterMap f).Nodup := by
      cases hx : f x with
      | none => rwa [filterMap_cons_none hx] at h
      | some d =>
        rw [filterMap_cons_some hx] at h
        exact h.of_cons
    have habsent : f x = some c → ∀ y ∈ rest, f y ≠ some c := by
      intro hx y hy hfy
      rw [filterMap_cons_some hx, nodup_cons] at h
      exact h.1 (mem_filterMap.mpr ⟨y, hy, hfy⟩)
    rcases mem_cons.mp ha with rfl | ha'
    · rcases mem_cons.mp hb with rfl | hb'
      · rfl
      · exact absurd hfb (habsent hfa b hb')
    · rcases mem_cons.mp hb with rfl | hb'
      · exact absurd hfa (habsent hfb a ha')
      · exact ih hrest ha' hb'

theorem mem_additions {ι : Type} [DecidableEq ι] {i : ι} {moves : List (Move ι store)} {r : WebhookReceipt} :
    r ∈ additions (trailOf i moves) ↔ ∃ m ∈ moves, m.who = i ∧ addition m.before m.after = some r := by
  simp [additions, trailOf, filterMap_map, mem_filterMap, mem_filter,
    decide_eq_true_eq, Function.comp_apply, and_assoc]

def Ended (p : Program AcceptedWebhook) : Prop := (∃ a, p = .done a) ∨ ∃ e, p = .raise e

/-- Whatever calls run side by side from an empty store: no event id of a channel is of two
receipts; a call that returns returns a receipt with all the ids of its payload, and with no
other when it is new; every receipt is new for exactly one call; and a call that raises has
changed nothing. -/
theorem acceptance_exactly_once {ι : Type} [DecidableEq ι] (calls : ι → Acceptance)
    {moves : List (Move ι store)} {ps : ι → Program AcceptedWebhook} {w : World store}
    (run : Interleaved (fun i => accept u printable hash (calls i)) (World.initial {}) moves ps w) :
    (w.state.identities.map fun i => (i.channelId, i.providerEventId)).Nodup ∧
    (∀ i a, ps i = .done a →
      (Clear w → Holds w.state (calls i).channelId ((calls i).eventIds u printable) a.receipt) ∧
      (a.duplicate = false → w.state.eventIdsOf a.receipt.id = (calls i).eventIds u printable)) ∧
    (∀ r ∈ w.state.receipts, (∀ i j, ps i = .done ⟨r, false⟩ → ps j = .done ⟨r, false⟩ → i = j) ∧
      (Confirmed w → (∀ i, Ended (ps i)) → ∃ i, ps i = .done ⟨r, false⟩)) ∧
    ∀ m ∈ moves, ∀ e, ps m.who = .raise e → Confirmed w → m.after.state = m.before.state := by
  obtain ⟨hends, hacts⟩ := run.accounts (C := fun _ => acting)
    (Q := fun i => Answers (calls i).channelId ((calls i).eventIds u printable))
    (E := fun _ _ => Refuses) (fun _ => .refl) (fun _ => .trans)
    (fun _ _ _ _ _ h => h.toEvolves) (fun _ _ _ _ _ h => Answers.evolves h)
    (fun _ _ _ _ _ h => Refuses.evolves h)
    (fun i => accept_answers u printable hash (calls i) _ empty_keyed)
  have hkeyed : Keyed w.state := (moves_evolve run hacts).keyed empty_keyed
  have hreceipts := moves_receipts run hacts
  have hanswers : ∀ i a, ps i = .done a →
      Answers (calls i).channelId ((calls i).eventIds u printable) a (trailOf i moves) w := by
    intro i a hdone
    have := hends i
    rwa [hdone] at this
  have hrefuses : ∀ i e, ps i = .raise e → Refuses (trailOf i moves) w := by
    intro i e hraise
    have := hends i
    rwa [hraise] at this
  refine ⟨hkeyed.identityKeys, fun i a hdone => ⟨fun clear => (hanswers i a hdone).holds clear,
    fun hnew => ((hanswers i a hdone).created hnew).2.2⟩, fun r hr => ⟨?_, ?_⟩, ?_⟩
  · intro i j hi hj
    have hadded : ∀ k, ps k = .done ⟨r, false⟩ →
        ∃ m ∈ moves, m.who = k ∧ addition m.before m.after = some r := by
      intro k hk
      rw [← mem_additions, ((hanswers k _ hk).created rfl).1]
      exact mem_cons_self
    obtain ⟨m, hm, rfl, hadds⟩ := hadded i hi
    obtain ⟨m', hm', rfl, hadds'⟩ := hadded j hj
    have hnodup : (moves.filterMap fun m => addition m.before m.after).Nodup :=
      hreceipts ▸ hkeyed.ids.of_map
    exact congrArg Move.who (filterMap_unique hnodup hm hm' hadds hadds')
  · intro confirmed ended
    rw [← hreceipts] at hr
    obtain ⟨m, hm, hadds⟩ := mem_filterMap.mp hr
    have hmine : r ∈ additions (trailOf m.who moves) := mem_additions.mpr ⟨m, hm, rfl, hadds⟩
    refine ⟨m.who, ?_⟩
    rcases ended m.who with ⟨a, ha⟩ | ⟨e, he⟩
    · have hcall := hanswers m.who a ha
      cases hdup : a.duplicate with
      | true =>
        rw [hcall.found hdup] at hmine
        cases hmine
      | false =>
        rw [(hcall.created hdup).1] at hmine
        obtain rfl := mem_singleton.mp hmine
        rw [ha, ← hdup]
    · rw [(hrefuses m.who e he).nothing confirmed] at hmine
      cases hmine
  · intro m hm e he confirmed
    rcases (hacts m hm).adds with hsame | ⟨r, hr⟩
    · exact hsame
    by_contra hne
    have hadds : addition m.before m.after = some r := by simp [addition, hne, hr]
    have hmine := mem_additions.mpr ⟨m, hm, rfl, hadds⟩
    rw [(hrefuses m.who e he).nothing confirmed] at hmine
    cases hmine

end

namespace Sample

def item (requestId : String) : Json :=
  .obj [("requestId", .str requestId), ("orderItemId", .str requestId), ("orderId", .str "order"),
    ("tapsiShopProductId", .str "product"), ("productId", .str "sku"), ("changeType", .int 1),
    ("quantity", .int (-1))]

def payload (requestIds : List String) : Json :=
  .obj [("orderDetail", .obj [("orderId", .str "order"), ("changeType", .int 1)]),
    ("items", .arr (requestIds.map item))]

def plainHash : Hashing := ⟨id, Json.render⟩

/-- A batch of two items, and a delivery of the first of them alone. -/
def deliveries (second : Bool) : Acceptance :=
  .tapsishop "tapsishop:main" (payload (if second then ["a"] else ["a", "b"])) "" 0

def accepting (second : Bool) : Program AcceptedWebhook :=
  accept .ascii (fun _ => true) plainHash (deliveries second)

def afterDeliveries : (Bool → Program AcceptedWebhook) × World store :=
  interleave ⟨fun _ _ => none, nofun⟩ [false, false, false, true, true] accepting (.initial {})

theorem deliveries_run : ∃ moves,
    Interleaved accepting (.initial {}) moves afterDeliveries.1 afterDeliveries.2 :=
  interleave_run _ _ .start

end Sample

open Sample

/-- An item that came in a batch and comes again alone is answered with the batch's receipt. -/
theorem batch_answers_item : ∃ moves a, Interleaved accepting (.initial {}) moves afterDeliveries.1
      afterDeliveries.2 ∧
    afterDeliveries.1 true = .done a ∧
    afterDeliveries.2.state.eventIdsOf a.receipt.id = ["a", "b"] ∧
    (deliveries true).eventIds .ascii (fun _ => true) = ["a"] := by
  obtain ⟨moves, run⟩ := deliveries_run
  have hresult : ((afterDeliveries.1 true).result.map fun a =>
      afterDeliveries.2.state.eventIdsOf a.receipt.id) = some ["a", "b"] := by
    decide +kernel
  obtain ⟨a, ha, hevents⟩ := Option.map_eq_some_iff.mp hresult
  exact ⟨moves, a, run, Proc.result_some ha, hevents, by decide +kernel⟩

theorem acceptance_exactly_once_deliveries :
    (afterDeliveries.2.state.identities.map fun i => (i.channelId, i.providerEventId)).Nodup ∧
    (∃ a, afterDeliveries.1 false = .done a) ∧
    ∀ a, afterDeliveries.1 false = .done a → a.duplicate = false →
      afterDeliveries.2.state.eventIdsOf a.receipt.id = ["a", "b"] := by
  obtain ⟨moves, run⟩ := deliveries_run
  have once := acceptance_exactly_once .ascii (fun _ => true) plainHash deliveries run
  have hdone : (afterDeliveries.1 false).result.isSome = true := by decide +kernel
  obtain ⟨a, ha⟩ := Option.isSome_iff_exists.mp hdone
  exact ⟨once.1, ⟨a, Proc.result_some ha⟩, fun a ha hnew => (once.2.1 false a ha).2 hnew⟩

end FlowHub.Webhooks
