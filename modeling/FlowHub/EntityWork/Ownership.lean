import FlowHub.EntityWork.Workers

namespace FlowHub.EntityWork

open List

open Webhooks (WebhookReceipt waiting Consistent seconds)

/-- What the turn of a receipt makes of it: a final receipt stays, any other takes the step of
its state machine. A deferred refresh is no failure. -/
def TakesTurn (now : Time) (before after : WebhookReceipt) : Ending → Prop
  | .failed category => category ≠ "refresh_in_progress" →
      after = if before.processingState = .processed then before
        else before.failed now (if category = "" then "internal_error" else category)
  | _ => after.processingState = .processed

/-- Whose steps these are, and what the flips and the closing commit of a completion do. -/
structure Owns (w : World) (a : Action) : Prop where
  /-- A worker at its row holds it. -/
  holder : ∀ t, w.task t.key = some t → a.task = some t.key → t.live = true → Holder w t
  /-- A running row's outcome is its holder's, or a recovery's once the lease is over. -/
  outcome : ∀ id row row', w.db.work id = some row → row.status = .running →
    (step w a).db.work id = some row' → row'.status ≠ .running →
    (∃ t, w.task t.key = some t ∧ t.workId = id ∧ Holder w t ∧ a = .close t.key) ∨
      ∃ limit now, a = .recover limit now ∧ row.expired now = true
  /-- A flip never raises, and the next receipt has its turn after it. -/
  flip : ∀ t flipped receiptId rest seen ending at_ now, w.task t.key = some t →
    t.phase = .settling flipped (receiptId :: rest) seen ending at_ → a = .flip t.key now →
    (step w a).task t.key = some { t with phase := .settling (flipped ++ [receiptId]) rest seen ending at_ } ∧
    ∃ before after, w.db.webhooks.receipt receiptId = some before ∧
      (step w a).db.webhooks.receipt receiptId = some after ∧ TakesTurn now before after ending
  /-- Nor does the closing commit; the receipts of a completed row are all processed then. -/
  close : ∀ t flipped seen ending at_, w.task t.key = some t →
    t.phase = .settling flipped [] seen ending at_ → a = .close t.key →
    (step w a).task t.key = some { t with phase := .ended false } ∧
    (ending = .completed → ∀ id ∈ flipped, ∃ receipt,
      w.db.webhooks.receipt id = some receipt ∧ receipt.processingState = .processed)

/-- Nor does a flip of what a recovery has failed. -/
def RecoveryFlips (w : World) : Action → Prop
  | .flipRecovered workId receiptId now => workId ∈ w.recovered → receiptId ∈ w.db.receiptsOf workId →
      ∃ before after, w.db.webhooks.receipt receiptId = some before ∧
        (w.flipRecovered workId receiptId now).db.webhooks.receipt receiptId = some after ∧
        TakesTurn now before after (.failed "execution_lease_expired")
  | _ => True

/-- A recovery takes no row from a worker that is still at it. -/
def Undisturbed (w : World) : Action → Prop
  | .recover limit now => ∀ t, w.task t.key = some t → t.live = true →
      ∀ row, w.db.work t.workId = some row → row ∉ recoverable limit now w.db
  | _ => True

/-- The receipt whose turn it is. -/
def Task.turn (t : Task) : Option Nat :=
  match t.phase with
  | .settling _ (receiptId :: _) _ _ _ => some receiptId
  | _ => none

/-- No receipt is a dead letter, or waits for its retry, when its turn comes. -/
def Flippable (w : World) : Action → Prop
  | .flip key now => ∀ t ∈ w.task key, ∀ id ∈ t.turn, ∀ receipt ∈ w.db.webhooks.receipt id,
      receipt.processingState ≠ .deadLetter ∧ waiting now receipt = false
  | .flipRecovered _ id now => ∀ receipt ∈ w.db.webhooks.receipt id,
      receipt.processingState ≠ .deadLetter ∧ waiting now receipt = false
  | _ => True

structure Owned (w : World) : Prop where
  ids : (w.db.works.map ChannelEntityWork.id).Nodup
  oneActive : ∀ r ∈ w.db.works, ∀ s ∈ w.db.works, r.active = true → s.active = true →
    r.connectorId = s.connectorId → r.entityType = s.entityType → r.entityId = s.entityId →
    r.id = s.id
  known : ∀ t, w.task t.key = some t → ∃ row, w.db.work t.workId = some row ∧ t.attempt ≤ row.attemptCount
  holds : ∀ t, w.task t.key = some t → t.live = true → Holder w t
  receipts : Consistent w.db.webhooks
  linked : ∀ l ∈ w.db.links, l.receiptId ∈ w.db.webhooks.receipts.map WebhookReceipt.id
  turns : ∀ t flipped rest seen ending at_, w.task t.key = some t →
    t.phase = .settling flipped rest seen ending at_ →
    (∀ id ∈ rest, id ∈ w.db.webhooks.receipts.map WebhookReceipt.id) ∧
    (ending = .completed → ∀ id ∈ flipped, ∃ receipt,
      w.db.webhooks.receipt id = some receipt ∧ receipt.processingState = .processed)

section

variable {w : World} {t : Task} {phase : Phase}

theorem enter_task (t : Task) (phase : Phase) (key : Nat × Nat) : (w.enter t phase).task key =
    if key = t.key then (w.task key).map fun t => { t with phase := phase } else w.task key := by
  have hkey : ∀ t : Task, ({ t with phase := phase } : Task).key = t.key := fun _ => rfl
  refine (Table.get_set hkey).trans ?_
  split
  · rename_i h
    subst h
    rfl
  · rfl

theorem enter_self (ht : w.task t.key = some t) (phase : Phase) :
    (w.enter t phase).task t.key = some { t with phase := phase } := by
  rw [enter_task, if_pos rfl, ht, Option.map_some]

theorem enter_cases (ht : w.task t.key = some t) (h : (w.enter t phase).task t'.key = some t') :
    t' = { t with phase := phase } ∨ t'.key ≠ t.key ∧ w.task t'.key = some t' := by
  rw [enter_task] at h
  split at h
  · rename_i hkey
    rw [hkey, ht, Option.map_some] at h
    exact .inl (Option.some.inj h).symm
  · rename_i hkey
    exact .inr ⟨hkey, h⟩

/-- Entering a phase keeps what is owned, where the phase was earned. -/
theorem Owned.enter (h : Owned w) (ht : w.task t.key = some t)
    (live : ({ t with phase := phase } : Task).live = true → t.live = true)
    (turns : ∀ flipped rest seen ending at_, phase = .settling flipped rest seen ending at_ →
      (∀ id ∈ rest, id ∈ w.db.webhooks.receipts.map WebhookReceipt.id) ∧
      (ending = .completed → ∀ id ∈ flipped, ∃ receipt,
        w.db.webhooks.receipt id = some receipt ∧ receipt.processingState = .processed)) :
    Owned (w.enter t phase) where
  ids := h.ids
  oneActive := h.oneActive
  known t' h' := by
    rcases enter_cases ht h' with rfl | ⟨-, hold⟩
    · exact h.known t ht
    · exact h.known t' hold
  holds t' h' hlive := by
    rcases enter_cases ht h' with rfl | ⟨-, hold⟩
    · exact h.holds t ht (live hlive)
    · exact h.holds t' hold hlive
  receipts := h.receipts
  linked := h.linked
  turns t' flipped rest seen ending at_ h' hphase := by
    rcases enter_cases ht h' with rfl | ⟨-, hold⟩
    · exact turns flipped rest seen ending at_ hphase
    · exact h.turns t' flipped rest seen ending at_ hold hphase

/-- An update of rows that keeps their identity, makes none active and takes no attempt back. -/
structure RowMap (f : ChannelEntityWork → ChannelEntityWork) : Prop where
  id : ∀ r, (f r).id = r.id
  connectorId : ∀ r, (f r).connectorId = r.connectorId
  entityType : ∀ r, (f r).entityType = r.entityType
  entityId : ∀ r, (f r).entityId = r.entityId
  active : ∀ r, (f r).active = true → r.active = true
  attempts : ∀ r, r.attemptCount ≤ (f r).attemptCount

theorem RowMap.ite {f : ChannelEntityWork → ChannelEntityWork} (hf : RowMap f)
    (p : ChannelEntityWork → Prop) [DecidablePred p] : RowMap fun r => if p r then f r else r := by
  constructor
  all_goals
    intro r
    by_cases h : p r
    · simp only [h, if_true]
      first
        | exact hf.id r
        | exact hf.connectorId r
        | exact hf.entityType r
        | exact hf.entityId r
        | exact hf.active r
        | exact hf.attempts r
    · simp [h]

theorem Owned.rows (h : Owned w) {f : ChannelEntityWork → ChannelEntityWork} (hf : RowMap f)
    (holds : ∀ t, w.task t.key = some t → t.live = true → ∀ row, w.db.work t.workId = some row →
      row.status = .running → row.attemptCount = t.attempt →
      (f row).status = .running ∧ (f row).workerId = row.workerId ∧ (f row).attemptCount = row.attemptCount) :
    Owned { w with db := { w.db with works := w.db.works.map f } } where
  ids := by
    have hids : (w.db.works.map f).map ChannelEntityWork.id = w.db.works.map ChannelEntityWork.id := by
      simp only [map_map]
      exact map_congr_left fun r _ => hf.id r
    exact hids ▸ h.ids
  oneActive r hr s hs hactive hactive' hc ht he := by
    obtain ⟨q, hq, rfl⟩ := mem_map.mp hr
    obtain ⟨p, hp, rfl⟩ := mem_map.mp hs
    rw [hf.connectorId, hf.connectorId] at hc
    rw [hf.entityType, hf.entityType] at ht
    rw [hf.entityId, hf.entityId] at he
    rw [hf.id, hf.id]
    exact h.oneActive q hq p hp (hf.active q hactive) (hf.active p hactive') hc ht he
  known t ht := by
    obtain ⟨row, hrow, hattempt⟩ := h.known t ht
    refine ⟨f row, ?_, hattempt.trans (hf.attempts row)⟩
    rw [Db.work, Table.get_map hf.id]
    exact congrArg (Option.map f) hrow
  holds t ht hlive := by
    obtain ⟨row, hrow, hstatus, hworker, hattempt⟩ := h.holds t ht hlive
    obtain ⟨hstatus', hworker', hattempt'⟩ := holds t ht hlive row hrow hstatus hattempt
    refine ⟨f row, ?_, hstatus', hworker'.trans hworker, hattempt'.trans hattempt⟩
    rw [Db.work, Table.get_map hf.id]
    exact congrArg (Option.map f) hrow
  receipts := h.receipts
  linked := h.linked
  turns := h.turns

theorem coalesce_rowMap (new : NewWork) (now : Time) : RowMap (new.coalesce now) :=
  ⟨fun _ => rfl, fun _ => rfl, fun _ => rfl, fun _ => rfl, fun _ h => h, fun _ => le_rfl⟩

/-- What a closing commit does to the rows while the row of its claim is running. -/
def closeRow (workId : Nat) (ending : Ending) (now : Time) (row : ChannelEntityWork) : ChannelEntityWork :=
  if row.id = workId then (if row.status = .running then ending.apply now row else row) else row

theorem apply_rowMap (ending : Ending) (now : Time) :
    RowMap fun r => if r.status = .running then ending.apply now r else r := by
  constructor
  all_goals
    intro r
    by_cases h : r.status = .running
    · cases ending <;> simp [h, Ending.apply, ChannelEntityWork.active]
    · simp [h]

theorem recovered_rowMap (now : Time) (rows : List ChannelEntityWork) :
    RowMap fun r => if r ∈ rows ∧ r.status = .running then r.recovered now else r := by
  constructor
  all_goals
    intro r
    by_cases h : r ∈ rows ∧ r.status = .running
    · simp only [h, and_self, if_true, ChannelEntityWork.recovered]
      split <;> simp [ChannelEntityWork.active, h.2]
    · simp [h]

/-- The flips and the other comings and goings of receipts. -/
theorem Owned.webhooks (h : Owned w) {a : Webhooks.Action} {webhooks : Webhooks.Db}
    (m : Webhooks.Move w.db.webhooks a webhooks) :
    Owned { w with db := { w.db with webhooks := webhooks } } where
  ids := h.ids
  oneActive := h.oneActive
  known := h.known
  holds := h.holds
  receipts := h.receipts.move m
  linked l hl := m.ids.subset (h.linked l hl)
  turns t flipped rest seen ending at_ ht hphase := by
    obtain ⟨hrest, hflipped⟩ := h.turns t flipped rest seen ending at_ ht hphase
    refine ⟨fun id hid => m.ids.subset (hrest id hid), fun hdone id hid => ?_⟩
    obtain ⟨receipt, hfound, hstate⟩ := hflipped hdone id hid
    obtain ⟨hmem, rfl⟩ := Webhooks.receipt_some hfound
    have hclosed : receipt.isOpen = false := by simp [WebhookReceipt.isOpen, hstate]
    rcases m.keeps h.receipts hmem hclosed with hkept | ⟨hunfinished, -⟩
    · exact ⟨receipt, (h.receipts.move m).found hkept, hstate⟩
    · exact absurd hstate hunfinished

variable {r : WebhookReceipt} {db : Webhooks.Db}

theorem markFailed_move {r : Webhooks.Db × Bool}
    (h : Webhooks.markWoocommerceReceiptFailed now receiptId category db = .ok r) :
    Webhooks.Move db (.process receiptId (some category) now) r.1 := by
  unfold Webhooks.markWoocommerceReceiptFailed at h
  split at h
  · cases hfound : db.receipt receiptId with
    | none => simp [hfound] at h
    | some receipt =>
      simp only [hfound, Except.ok.injEq] at h
      rw [← h]
      exact .idle _
  · exact Webhooks.processReceipt_move h

theorem flipReceipt_move {db db' : Db} (h : flipReceipt ending receiptId now db = .ok db') :
    ∃ a webhooks, Webhooks.Move db.webhooks a webhooks ∧ db' = { db with webhooks := webhooks } := by
  cases ending with
  | failed category =>
    obtain ⟨r, hr, rfl⟩ := Txn.map_eq_ok.mp h
    exact ⟨_, r.1, markFailed_move hr, rfl⟩
  | requeue | retry | completed =>
    obtain ⟨r, hr, rfl⟩ := Txn.map_eq_ok.mp h
    exact ⟨_, r.1, Webhooks.processReceipt_move hr, rfl⟩

theorem Owned.row_running (h : Owned w) (ht : w.task t.key = some t) (hlive : t.live = true)
    {r : ChannelEntityWork} (hr : r ∈ w.db.works) (hid : r.id = t.workId) : r.status = .running := by
  obtain ⟨row, hrow, hstatus, -⟩ := h.holds t ht hlive
  have hget := Table.get_of_mem h.ids hr
  rw [hid] at hget
  obtain rfl := Option.some.inj (hget.symm.trans hrow)
  exact hstatus

/-- No two workers at work hold one row. -/
theorem Owned.apart (h : Owned w) (ht : w.task t.key = some t) (hlive : t.live = true)
    (ht' : w.task t'.key = some t') (hlive' : t'.live = true) (hid : t'.workId = t.workId) :
    t'.key = t.key := by
  obtain ⟨row, hrow, -, -, hattempt⟩ := h.holds t ht hlive
  obtain ⟨row', hrow', -, -, hattempt'⟩ := h.holds t' ht' hlive'
  rw [hid] at hrow'
  obtain rfl := Option.some.inj (hrow.symm.trans hrow')
  exact Prod.ext hid (hattempt'.symm.trans hattempt)

theorem settle_eq (h : Owned w) (ht : w.task t.key = some t) (hlive : t.live = true)
    (ending : Ending) (now : Time) : settle ending t.workId now w.db =
      some { w.db with works := w.db.works.map (closeRow t.workId ending now) } := by
  obtain ⟨row, hrow, hstatus, -⟩ := h.holds t ht hlive
  obtain ⟨hmem, hrid⟩ := Table.get_some hrow
  have hother : w.db.hasOther row = false := by
    rw [Db.hasOther, any_eq_false]
    intro r hr hboth
    obtain ⟨hsame, hactive⟩ := Bool.and_eq_true_iff.mp hboth
    obtain ⟨hne, hc, he, hi⟩ := of_decide_eq_true hsame
    have hrow_active : row.active = true := by simp [ChannelEntityWork.active, hstatus]
    exact hne (h.oneActive r hr row hmem hactive hrow_active hc he hi)
  have hworks : w.db.works.map (fun r => if r.id = t.workId then ending.apply now r else r) =
      w.db.works.map (closeRow t.workId ending now) := by
    apply map_congr_left
    intro r hr
    by_cases hid : r.id = t.workId
    · rw [closeRow, if_pos hid, if_pos hid, if_pos (h.row_running ht hlive hr hid)]
    · rw [closeRow, if_neg hid, if_neg hid]
  simp only [settle, hrow, Option.any_some, hother, Bool.and_false, Bool.false_eq_true, if_false,
    Db.update, Table.set]
  rw [hworks]

theorem Owned.closed (h : Owned w) (ht : w.task t.key = some t) (hlive : t.live = true)
    (ending : Ending) (now : Time) :
    Owned (({ w with db :=
      { w.db with works := w.db.works.map (closeRow t.workId ending now) } } : World).enter t
        (.ended false)) := by
  have hended : Owned (w.enter t (.ended false)) := h.enter ht (fun hl => by cases hl) nofun
  refine hended.rows ((apply_rowMap ending now).ite fun r => r.id = t.workId)
    fun t' ht' hlive' row hrow hstatus hattempt => ?_
  rcases enter_cases ht ht' with rfl | ⟨hne, hold⟩
  · cases hlive'
  have hid : row.id ≠ t.workId := by
    intro hid
    have hrid : row.id = t'.workId := (Table.get_some hrow).2
    exact hne (h.apart ht hlive hold hlive' (hrid.symm.trans hid))
  simp [closeRow, hid, hstatus]

theorem linkReceipt_eq (workId : Nat) (receiptId : Option Nat) (db : Db) : ∃ more,
    linkReceipt workId receiptId db = { db with links := db.links ++ more } ∧
      ∀ l ∈ more, receiptId = some l.receiptId := by
  cases receiptId with
  | none => exact ⟨[], by simp [linkReceipt], by simp⟩
  | some id =>
    by_cases h : ⟨workId, id⟩ ∈ db.links
    · exact ⟨[], by simp [linkReceipt, h], by simp⟩
    · exact ⟨[⟨workId, id⟩], by simp [linkReceipt, h], by simp⟩

theorem Owned.linked_more (h : Owned w) {more : List ChannelEntityWorkReceipt}
    (known : ∀ l ∈ more, l.receiptId ∈ w.db.webhooks.receipts.map WebhookReceipt.id)
    (log : List Evidence) :
    Owned { w with db := { w.db with links := w.db.links ++ more }, log := log } where
  ids := h.ids
  oneActive := h.oneActive
  known := h.known
  holds := h.holds
  receipts := h.receipts
  linked l hl := by
    rcases mem_append.mp hl with hl | hl
    · exact h.linked l hl
    · exact known l hl
  turns := h.turns

theorem Owned.inserted (h : Owned w) {new : NewWork} (hnone : new.existing w.db = none) :
    Owned { w with db := { w.db with works := w.db.works ++ [new.row w.db.nextId] } } where
  ids := by
    rw [map_append, nodup_append]
    refine ⟨h.ids, by simp, fun id hid other hother heq => ?_⟩
    obtain rfl : other = w.db.nextId := by simpa [NewWork.row] using hother
    exact Table.next_notMem _ (heq ▸ hid)
  oneActive r hr s hs hactive hactive' hc ht he := by
    have hfree : ∀ q ∈ w.db.works, q.active = true → q.connectorId = new.connectorId →
        q.entityType = new.entityType → q.entityId ≠ new.entityId := by
      intro q hq hactive hc ht he
      have := find?_eq_none.mp hnone q hq
      simp [hactive, hc, ht, he] at this
    rcases mem_append.mp hr with hr | hr
    · rcases mem_append.mp hs with hs | hs
      · exact h.oneActive r hr s hs hactive hactive' hc ht he
      · obtain rfl := mem_singleton.mp hs
        exact absurd he (hfree r hr hactive hc ht)
    · obtain rfl := mem_singleton.mp hr
      rcases mem_append.mp hs with hs | hs
      · exact absurd he.symm (hfree s hs hactive' hc.symm ht.symm)
      · obtain rfl := mem_singleton.mp hs
        rfl
  known t ht := by
    obtain ⟨row, hrow, hattempt⟩ := h.known t ht
    exact ⟨row, Table.get_append_of_some hrow, hattempt⟩
  holds t ht hlive := by
    obtain ⟨row, hrow, hrest⟩ := h.holds t ht hlive
    exact ⟨row, Table.get_append_of_some hrow, hrest⟩
  receipts := h.receipts
  linked := h.linked
  turns := h.turns

theorem Owned.enqueue (h : Owned w) (new : NewWork) (now : Time) : Owned (w.enqueue new now) := by
  unfold World.enqueue
  split
  · rename_i hreceipt
    have hmine : ∀ {id}, new.receiptId = some id → id ∈ w.db.webhooks.receipts.map WebhookReceipt.id := by
      intro id hid
      rw [hid, Option.all_some] at hreceipt
      obtain ⟨receipt, hfound⟩ := Option.isSome_iff_exists.mp hreceipt
      obtain ⟨hmem, rfl⟩ := Webhooks.receipt_some hfound
      exact mem_map_of_mem hmem
    cases hexisting : new.existing w.db with
    | none =>
      obtain ⟨more, hlink, hmore⟩ := linkReceipt_eq (new.row w.db.nextId).id new.receiptId
        { w.db with works := w.db.works ++ [new.row w.db.nextId] }
      simp only [enqueueEntityWork, hexisting, hlink]
      exact (h.inserted hexisting).linked_more (fun l hl => hmine (hmore l hl)) _
    | some existing =>
      obtain ⟨more, hlink, hmore⟩ := linkReceipt_eq existing.id new.receiptId
        (w.db.update existing.id (new.coalesce now))
      simp only [enqueueEntityWork, hexisting, hlink]
      have hrows : Owned { w with db := w.db.update existing.id (new.coalesce now) } := by
        refine h.rows ((coalesce_rowMap new now).ite fun r => r.id = existing.id)
          fun t _ _ row _ hstatus _ => ?_
        by_cases hid : row.id = existing.id
        · simp [hid, NewWork.coalesce, hstatus]
        · simp [hid, hstatus]
      exact hrows.linked_more (fun l hl => hmine (hmore l hl)) _
  · exact h

theorem Owned.recover (h : Owned w) (limit : Nat) (now : Time)
    (undisturbed : Undisturbed w (.recover limit now)) : Owned (w.recover limit now) := by
  have hworks : w.db.works.map
        (fun row => if row ∈ recoverable limit now w.db then row.recovered now else row) =
      w.db.works.map fun row => if row ∈ recoverable limit now w.db ∧ row.status = .running then
        row.recovered now else row := by
    apply map_congr_left
    intro r _
    by_cases hr : r ∈ recoverable limit now w.db
    · have hexpired := (mem_filter.mp hr).2
      have hstatus : r.status = .running := by
        simp only [ChannelEntityWork.expired, Bool.and_eq_true, decide_eq_true_eq] at hexpired
        exact hexpired.1
      simp [hr, hstatus]
    · simp [hr]
  have hrows := h.rows (recovered_rowMap now (recoverable limit now w.db))
    fun t ht hlive row hrow hstatus _ => by simp [undisturbed t ht hlive row hrow, hstatus]
  simp only [World.recover, recoverExpiredEntityWork, hworks]
  exact ⟨hrows.ids, hrows.oneActive, hrows.known, hrows.holds, hrows.receipts, hrows.linked, hrows.turns⟩

theorem mem_claimCandidates {limit : Nat} {locked : List Nat} {db : Db}
    {row : ChannelEntityWork} (h : row ∈ claimCandidates limit locked now db) :
    row ∈ db.works ∧ row.status = .pending := by
  have hsorted := mem_of_mem_take h
  rw [(perm_insertionSort _ _).mem_iff, mem_filter] at hsorted
  obtain ⟨hmem, hdue⟩ := hsorted
  simp only [ChannelEntityWork.due, Bool.and_eq_true, decide_eq_true_eq] at hdue
  exact ⟨hmem, hdue.1.1⟩

theorem claimed_rowMap (worker : String) (leaseSeconds : Nat) (now : Time)
    (rows : List ChannelEntityWork) : RowMap fun r =>
      if r ∈ rows ∧ r.status = .pending then r.claimed worker leaseSeconds now else r := by
  constructor
  all_goals
    intro r
    by_cases h : r ∈ rows ∧ r.status = .pending
    · simp [h, ChannelEntityWork.claimed, ChannelEntityWork.active]
    · simp [h]

/-- New workers begin with a claim of their own. -/
theorem Owned.started (h : Owned w) {more : List Task} (holds : ∀ t ∈ more, Holder w t ∧ t.phase = .claimed) :
    Owned { w with tasks := w.tasks ++ more } := by
  have hcases : ∀ t, ({ w with tasks := w.tasks ++ more } : World).task t.key = some t →
      w.task t.key = some t ∨ t ∈ more := by
    intro t ht
    cases hold : w.task t.key with
    | some t' =>
      left
      exact (Table.get_append_of_some hold).symm.trans ht
    | none =>
      right
      exact (Table.get_some ((Table.get_append_of_none hold).symm.trans ht)).1
  refine ⟨h.ids, h.oneActive, fun t ht => ?_, fun t ht hlive => ?_, h.receipts, h.linked,
    fun t flipped rest seen ending at_ ht hphase => ?_⟩
  · rcases hcases t ht with hold | hnew
    · exact h.known t hold
    · obtain ⟨row, hrow, -, -, hattempt⟩ := (holds t hnew).1
      exact ⟨row, hrow, hattempt.ge⟩
  · rcases hcases t ht with hold | hnew
    · exact h.holds t hold hlive
    · exact (holds t hnew).1
  · rcases hcases t ht with hold | hnew
    · exact h.turns t flipped rest seen ending at_ hold hphase
    · rw [(holds t hnew).2] at hphase
      cases hphase

theorem Owned.claim (h : Owned w) (worker : String) (limit leaseSeconds : Nat) (now : Time)
    (locked : List Nat) : Owned (w.claim worker limit leaseSeconds now locked) := by
  have hworks : w.db.works.map (fun row => if row ∈ claimCandidates limit locked now w.db then
        row.claimed worker leaseSeconds now else row) =
      w.db.works.map fun row => if row ∈ claimCandidates limit locked now w.db ∧
        row.status = .pending then row.claimed worker leaseSeconds now else row := by
    apply map_congr_left
    intro r _
    by_cases hr : r ∈ claimCandidates limit locked now w.db
    · simp [hr, (mem_claimCandidates hr).2]
    · simp [hr]
  have hrows := h.rows (claimed_rowMap worker leaseSeconds now
    (claimCandidates limit locked now w.db)) fun t _ _ row _ hstatus _ => by simp [hstatus]
  simp only [World.claim, claimEntityWork, hworks]
  refine hrows.started fun t ht => ?_
  obtain ⟨claimed, hclaimed, rfl⟩ := mem_map.mp ht
  obtain ⟨row, hrow, rfl⟩ := mem_map.mp hclaimed
  obtain ⟨hmem, hstatus⟩ := mem_claimCandidates hrow
  refine ⟨⟨row.claimed worker leaseSeconds now, ?_, rfl, rfl, rfl⟩, rfl⟩
  rw [Db.work, Table.get_map (claimed_rowMap worker leaseSeconds now _).id]
  have hget : Table.get ChannelEntityWork.id w.db.works row.id = some row :=
    Table.get_of_mem h.ids hmem
  rw [show (row.claimed worker leaseSeconds now).id = row.id from rfl, hget, Option.map_some,
    if_pos ⟨hrow, hstatus⟩]

theorem receiptsOf_known (h : Owned w) {id : Nat} (hid : id ∈ w.db.receiptsOf workId) :
    id ∈ w.db.webhooks.receipts.map WebhookReceipt.id := by
  obtain ⟨l, hl, rfl⟩ := mem_map.mp hid
  exact h.linked l (mem_filter.mp hl).1

theorem open_or_processed (alive : r.processingState ≠ .deadLetter) :
    r.processingState = .processed ∨ r.isOpen = true := by
  cases hs : r.processingState with
  | processed => exact .inl rfl
  | deadLetter => exact absurd hs alive
  | queued | retryScheduled => exact .inr (by simp [WebhookReceipt.isOpen, hs])

theorem markFailed_turn (found : db.receipt r.id = some r) (alive : r.processingState ≠ .deadLetter)
    (due : waiting now r = false) (hcategory : category ≠ "") :
    ∃ result, Webhooks.markWoocommerceReceiptFailed now r.id category db = .ok result ∧
      ∃ after, result.1.receipt r.id = some after ∧ (category ≠ "refresh_in_progress" →
        after = if r.processingState = .processed then r else r.failed now category) := by
  by_cases hdeferred : category = "refresh_in_progress"
  · simp only [Webhooks.markWoocommerceReceiptFailed, hdeferred, if_true, found]
    exact ⟨_, rfl, r, found, fun h => absurd rfl h⟩
  simp only [Webhooks.markWoocommerceReceiptFailed, hdeferred, if_false]
  rcases open_or_processed alive with hstate | hOpen
  · rw [Webhooks.processReceipt_processed found hstate]
    exact ⟨_, rfl, r, found, fun _ => (if_pos hstate).symm⟩
  rw [Webhooks.processReceipt_fails found hOpen due hcategory]
  refine ⟨_, rfl, r.failed now category, ?_, fun _ => ?_⟩
  · have hsaved : (db.save (r.failed now category)).receipt r.id =
        some (r.failed now category) := Webhooks.receipt_save_self (r := r) rfl found
    simp only [Webhooks.Db.receipt,
      (Webhooks.markReceiptFailed_attempted now r category db).receipts] at hsaved ⊢
    exact hsaved
  · have hunfinished : r.processingState ≠ .processed := by
      intro hstate
      simp [WebhookReceipt.isOpen, hstate] at hOpen
    exact (if_neg hunfinished).symm

theorem markProcessed_turn (found : db.receipt r.id = some r) (alive : r.processingState ≠ .deadLetter)
    (due : waiting now r = false) :
    ∃ result, Webhooks.markWoocommerceReceiptProcessed now r.id db = .ok result ∧
      ∃ after, result.1.receipt r.id = some after ∧ after.processingState = .processed := by
  rw [Webhooks.markWoocommerceReceiptProcessed]
  rcases open_or_processed alive with hstate | hOpen
  · rw [Webhooks.processReceipt_processed found hstate]
    exact ⟨_, rfl, r, found, hstate⟩
  · rw [Webhooks.processReceipt_finishes found hOpen due]
    have hsaved : (db.save (r.finished now)).receipt r.id = some (r.finished now) :=
      Webhooks.receipt_save_self (r := r) rfl found
    exact ⟨_, rfl, r.finished now, hsaved, rfl⟩

theorem flipReceipt_turn {db : Db} (ending : Ending)
    (found : db.webhooks.receipt r.id = some r) (alive : r.processingState ≠ .deadLetter)
    (due : waiting now r = false) : ∃ db', flipReceipt ending r.id now db = .ok db' ∧
      ∃ after, db'.webhooks.receipt r.id = some after ∧ TakesTurn now r after ending := by
  cases ending with
  | failed category =>
    have hcategory : (if category = "" then "internal_error" else category) ≠ "" := by
      split
      · decide
      · assumption
    obtain ⟨result, hmark, after, hafter, hturn⟩ := markFailed_turn found alive due hcategory
    refine ⟨_, by rw [flipReceipt, hmark]; rfl, after, hafter, fun hne => hturn ?_⟩
    split
    · decide
    · exact hne
  | requeue | retry | completed =>
    obtain ⟨result, hmark, after, hafter, hstate⟩ := markProcessed_turn found alive due
    exact ⟨{ db with webhooks := result.1 }, by simp [flipReceipt, hmark, Except.map], after, hafter, hstate⟩

variable {a : Action}

theorem onTask_some (ht : w.task t.key = some t) (f : World → Task → World) : w.onTask t.key f = f w t := by
  rw [World.onTask, ht]

/-- A step of a worker's code is about the task it names, or about none. -/
theorem onTask_cases {P : World → Prop} (key : Nat × Nat) (f : World → Task → World)
    (idle : P w) (acts : ∀ t, w.task t.key = some t → t.key = key → P (f w t)) :
    P (w.onTask key f) := by
  cases ht : w.task key with
  | none =>
    rw [World.onTask, ht]
    exact idle
  | some t =>
    obtain rfl := (Table.get_some ht).2
    rw [onTask_some ht]
    exact acts t ht rfl

theorem flip_ok (h : Owned w) (ht : w.task t.key = some t)
    (hphase : t.phase = .settling flipped (receiptId :: rest) seen ending at_)
    (flippable : Flippable w (.flip t.key now)) :
    ∃ before, w.db.webhooks.receipt receiptId = some before ∧
      ∃ db, flipReceipt ending receiptId now w.db = .ok db ∧
        ∃ after, db.webhooks.receipt receiptId = some after ∧ TakesTurn now before after ending := by
  have hknown := (h.turns t flipped _ seen ending at_ ht hphase).1 receiptId mem_cons_self
  obtain ⟨before, hmem, rfl⟩ := mem_map.mp hknown
  have hfound := h.receipts.found hmem
  have hturn : t.turn = some before.id := by rw [Task.turn, hphase]
  obtain ⟨halive, hdue⟩ := flippable t ht before.id hturn before hfound
  exact ⟨before, hfound, flipReceipt_turn ending hfound halive hdue⟩

theorem Owned.flip (h : Owned w) (ht : w.task t.key = some t)
    (flippable : Flippable w (.flip t.key now)) : Owned (w.flip t now) := by
  unfold World.flip
  split
  · rename_i flipped receiptId rest seen ending at_ hphase
    obtain ⟨before, -, db, hflip, after, hafter, hturn⟩ := flip_ok h ht hphase flippable
    obtain ⟨a, webhooks, hmove, rfl⟩ := flipReceipt_move hflip
    have hmoved := h.webhooks hmove
    rw [hflip]
    refine hmoved.enter ht (fun _ => by simp [Task.live, hphase]) fun flipped' rest' _ _ _ heq => ?_
    cases heq
    obtain ⟨hrest, hflipped⟩ := hmoved.turns t flipped _ seen ending at_ ht hphase
    refine ⟨fun id hid => hrest id (mem_cons_of_mem _ hid), fun hdone id hid => ?_⟩
    rcases mem_append.mp hid with hid | hid
    · exact hflipped hdone id hid
    · obtain rfl := mem_singleton.mp hid
      subst hdone
      exact ⟨after, hafter, hturn⟩
  · exact h

theorem Owned.complete (h : Owned w) (ht : w.task t.key = some t) (now : Time) :
    Owned (w.complete t now) := by
  unfold World.complete
  split
  · rename_i object seen outcome hphase
    have hlive : t.live = true := by simp [Task.live, hphase]
    split
    · exact h.enter ht (fun _ => hlive) nofun
    refine h.enter ht (fun _ => hlive) fun flipped rest _ _ _ heq => ?_
    cases heq
    refine ⟨fun id hid => ?_, fun _ id hid => by cases hid⟩
    split at hid
    · exact receiptsOf_known h hid
    · cases hid
  · exact h

theorem Owned.close (h : Owned w) (ht : w.task t.key = some t) : Owned (w.close t) := by
  unfold World.close
  split
  · rename_i flipped seen ending now hphase
    have hlive : t.live = true := by simp [Task.live, hphase]
    rw [settle_eq h ht hlive ending now]
    exact h.closed ht hlive ending now
  · exact h

theorem Owned.reading (h : Owned w) (ht : w.task t.key = some t) : Owned (w.load t) ∧ Owned (w.startRead t) ∧
      ∀ committed outcome, Owned (w.endRead t committed outcome) := by
  refine ⟨?_, ?_, fun committed outcome => ?_⟩
  · unfold World.load
    split
    · rename_i hphase
      have hlive : t.live = true := by simp [Task.live, hphase]
      split
      · split
        · exact h.enter ht (fun _ => hlive) nofun
        · exact h.enter ht (fun _ => hlive) nofun
      · exact h.enter ht (fun _ => hlive) nofun
    · exact h
  · unfold World.startRead
    split
    · rename_i hphase
      exact h.enter ht (fun _ => by simp [Task.live, hphase]) nofun
    · exact h
  · unfold World.endRead
    split
    · rename_i hphase
      exact h.enter ht (fun _ => by simp [Task.live, hphase]) nofun
    · rename_i hphase
      exact h.enter ht (fun _ => by simp [Task.live, hphase]) nofun
    · exact h

theorem Owned.step (h : Owned w) (undisturbed : Undisturbed w a) (flippable : Flippable w a) :
    Owned (step w a) := by
  cases a with
  | enqueue new now => exact h.enqueue new now
  | claim worker limit leaseSeconds now locked => exact h.claim worker limit leaseSeconds now locked
  | load key => exact onTask_cases key _ h fun t ht _ => (h.reading ht).1
  | startRead key => exact onTask_cases key _ h fun t ht _ => (h.reading ht).2.1
  | endRead key committed outcome =>
    exact onTask_cases key (fun w t => w.endRead t committed outcome) h fun t ht _ =>
      (h.reading ht).2.2 committed outcome
  | complete key now =>
    exact onTask_cases key (fun w t => w.complete t now) h fun t ht _ => h.complete ht now
  | flip key now =>
    refine onTask_cases key (fun w t => w.flip t now) h fun t ht hkey => h.flip ht ?_
    rw [hkey]
    exact flippable
  | close key => exact onTask_cases key _ h fun t ht _ => h.close ht
  | crash key =>
    exact onTask_cases key (fun w t => w.enter t (.ended false)) h fun t ht _ =>
      h.enter ht (fun hl => by cases hl) nofun
  | recover limit now => exact h.recover limit now undisturbed
  | flipRecovered workId receiptId now =>
    change Owned (w.flipRecovered workId receiptId now)
    unfold World.flipRecovered
    split
    · split
      · rename_i db hflip
        obtain ⟨a, webhooks, hmove, rfl⟩ := flipReceipt_move hflip
        exact h.webhooks hmove
      · exact h
    · exact h
  | webhook a => exact h.webhooks (Webhooks.perform_move _ a)

theorem Initial.owned (h : Initial w) : Owned w where
  ids := by rw [h.works]; simp
  oneActive := by rw [h.works]; simp
  known t ht := by simp [World.task, h.tasks, Table.get] at ht
  holds t ht := by simp [World.task, h.tasks, Table.get] at ht
  receipts := h.receipts
  linked := by rw [h.links]; simp
  turns t _ _ _ _ _ ht := by simp [World.task, h.tasks, Table.get] at ht

theorem flipReceipt_works {db : Db}
    (h : flipReceipt ending receiptId now db = .ok db') : db'.works = db.works := by
  obtain ⟨_, _, _, rfl⟩ := flipReceipt_move h
  rfl

theorem task_works (t : Task) (now : Time) (committed : Bool) (outcome : Outcome) :
    (w.load t).db.works = w.db.works ∧ (w.startRead t).db.works = w.db.works ∧
      (w.endRead t committed outcome).db.works = w.db.works ∧
      (w.complete t now).db.works = w.db.works ∧ (w.flip t now).db.works = w.db.works := by
  refine ⟨?_, ?_, ?_, ?_, ?_⟩
  · unfold World.load
    repeat' split
    all_goals rfl
  · unfold World.startRead
    split <;> rfl
  · unfold World.endRead
    split <;> rfl
  · unfold World.complete
    split
    · split <;> rfl
    · rfl
  · unfold World.flip
    split
    · split
      · rename_i hflip
        exact flipReceipt_works hflip
      · rfl
    · rfl

/-- What a step can do to a running row: nothing to its status, unless its holder closes it or
its lease is over. -/
theorem running_after {id : Nat} (h : Owned w)
    (hrow : w.db.work id = some row) (hstatus : row.status = .running)
    (hrow' : (step w a).db.work id = some row') : row'.status = .running ∨
      (∃ t, w.task t.key = some t ∧ t.live = true ∧ t.workId = id ∧ a = .close t.key) ∨
      ∃ limit now, a = .recover limit now ∧ row.expired now = true := by
  have steady : ∀ {v : World}, v.db.works = w.db.works → v.db.work id = some row' →
      row'.status = .running := by
    intro v hworks hget
    rw [Db.work, hworks] at hget
    obtain rfl := Option.some.inj (hget.symm.trans hrow)
    exact hstatus
  have ofTask : ∀ key (f : World → Task → World), (∀ t, (f w t).db.works = w.db.works) →
      (w.onTask key f).db.work id = some row' → row'.status = .running := by
    intro key f hf
    exact onTask_cases (P := fun v => v.db.work id = some row' → row'.status = .running) key f
      (steady rfl) fun t _ _ => steady (hf t)
  have mapped : ∀ {f : ChannelEntityWork → ChannelEntityWork}, (∀ r, (f r).id = r.id) →
      Table.get ChannelEntityWork.id (w.db.works.map f) id = some row' → row' = f row := by
    intro f hf hget
    have hmapped := (Table.get_map hf).symm.trans hget
    have hold : Table.get ChannelEntityWork.id w.db.works id = some row := hrow
    rw [hold] at hmapped
    exact (Option.some.inj hmapped).symm
  cases a with
  | enqueue new now =>
    left
    change (w.enqueue new now).db.work id = some row' at hrow'
    unfold World.enqueue at hrow'
    split at hrow'
    · cases hexisting : new.existing w.db with
      | none =>
        obtain ⟨more, hlink, -⟩ := linkReceipt_eq (new.row w.db.nextId).id new.receiptId
          { w.db with works := w.db.works ++ [new.row w.db.nextId] }
        simp only [enqueueEntityWork, hexisting, hlink] at hrow'
        obtain rfl := Option.some.inj (hrow'.symm.trans (Table.get_append_of_some hrow))
        exact hstatus
      | some existing =>
        obtain ⟨more, hlink, -⟩ := linkReceipt_eq existing.id new.receiptId
          (w.db.update existing.id (new.coalesce now))
        simp only [enqueueEntityWork, hexisting, hlink] at hrow'
        have hmap := (coalesce_rowMap new now).ite fun r => r.id = existing.id
        rw [mapped hmap.id hrow']
        by_cases hid : row.id = existing.id
        · simp [hid, NewWork.coalesce, hstatus]
        · simp [hid, hstatus]
    · exact steady rfl hrow'
  | claim worker limit leaseSeconds now locked =>
    left
    have hmap : ∀ r : ChannelEntityWork, (if r ∈ claimCandidates limit locked now w.db then
        r.claimed worker leaseSeconds now else r).id = r.id := by
      intro r
      split <;> rfl
    rw [mapped hmap hrow']
    split
    · rfl
    · exact hstatus
  | load key => exact .inl (ofTask key _ (fun t => (task_works t 0 false .completed).1) hrow')
  | startRead key =>
    exact .inl (ofTask key _ (fun t => (task_works t 0 false .completed).2.1) hrow')
  | endRead key committed outcome =>
    exact .inl (ofTask key _ (fun t => (task_works t 0 committed outcome).2.2.1) hrow')
  | complete key now =>
    exact .inl (ofTask key _ (fun t => (task_works t now false .completed).2.2.2.1) hrow')
  | flip key now =>
    exact .inl (ofTask key _ (fun t => (task_works t now false .completed).2.2.2.2) hrow')
  | close key =>
    refine onTask_cases (P := fun v => v.db.work id = some row' → _) key .close
      (fun hget => .inl (steady rfl hget)) (fun t ht hkey hget => ?_) hrow'
    unfold World.close at hget
    split at hget
    · rename_i flipped seen ending now hphase
      have hlive : t.live = true := by simp [Task.live, hphase]
      rw [settle_eq h ht hlive ending now] at hget
      by_cases hid : id = t.workId
      · exact .inr (.inl ⟨t, ht, hlive, hid.symm, congrArg Action.close hkey.symm⟩)
      have hmap := (apply_rowMap ending now).ite fun r => r.id = t.workId
      have hne : row.id ≠ t.workId := (Table.get_some hrow).2 ▸ hid
      rw [mapped hmap.id hget, if_neg hne]
      exact .inl hstatus
    · exact .inl (steady rfl hget)
  | crash key => exact .inl (ofTask key _ (fun _ => rfl) hrow')
  | recover limit now =>
    have hmap : ∀ r : ChannelEntityWork, (if r ∈ recoverable limit now w.db then
        r.recovered now else r).id = r.id := by
      intro r
      unfold ChannelEntityWork.recovered
      repeat' split
      all_goals rfl
    rw [mapped hmap hrow']
    split
    · rename_i hmem
      exact .inr (.inr ⟨limit, now, rfl, (mem_filter.mp hmem).2⟩)
    · exact .inl hstatus
  | flipRecovered workId receiptId now =>
    refine .inl (steady ?_ hrow')
    change (w.flipRecovered workId receiptId now).db.works = _
    unfold World.flipRecovered
    split
    · split
      · rename_i hflip
        exact flipReceipt_works hflip
      · rfl
    · rfl
  | webhook a => exact .inl (steady rfl hrow')

theorem Owned.owns (h : Owned w) (flippable : Flippable w a) : Owns w a where
  holder t ht _ hlive := h.holds t ht hlive
  outcome id row row' hrow hstatus hrow' hne := by
    rcases running_after h hrow hstatus hrow' with hruns | ⟨t, ht, hlive, hid, ha⟩ | hrecovered
    · exact absurd hruns hne
    · exact .inl ⟨t, ht, hid, h.holds t ht hlive, ha⟩
    · exact .inr hrecovered
  flip t flipped receiptId rest seen ending at_ now ht hphase ha := by
    subst ha
    obtain ⟨before, hbefore, db, hflip, after, hafter, hturn⟩ := flip_ok h ht hphase flippable
    have hstep : EntityWork.step w (.flip t.key now) = ({ w with db := db } : World).enter t
        (.settling (flipped ++ [receiptId]) rest seen ending at_) := by
      simp [EntityWork.step, onTask_some ht, World.flip, hphase, hflip]
    rw [hstep]
    have ht' : ({ w with db := db } : World).task t.key = some t := ht
    exact ⟨enter_self ht' _, before, after, hbefore, hafter, hturn⟩
  close t flipped seen ending at_ ht hphase ha := by
    subst ha
    have hlive : t.live = true := by simp [Task.live, hphase]
    refine ⟨?_, (h.turns t flipped [] seen ending at_ ht hphase).2⟩
    simp only [EntityWork.step, onTask_some ht, World.close, hphase, settle_eq h ht hlive]
    exact enter_self (w := { w with db := _ }) ht _

theorem Owned.recoveryFlips (h : Owned w) (flippable : Flippable w a) : RecoveryFlips w a := by
  cases a with
  | flipRecovered workId receiptId now =>
    intro hwork hreceipt
    obtain ⟨before, hmem, rfl⟩ := mem_map.mp (receiptsOf_known h hreceipt)
    have hfound := h.receipts.found hmem
    obtain ⟨halive, hdue⟩ := flippable before hfound
    obtain ⟨db, hflip, after, hafter, hturn⟩ :=
      flipReceipt_turn (.failed "execution_lease_expired") hfound halive hdue
    refine ⟨before, after, hfound, ?_, hturn⟩
    rw [World.flipRecovered, if_pos ⟨hwork, hreceipt⟩, hflip]
    exact hafter
  | _ => trivial

/-- While no recovery disturbs a worker that is still at its row, and no receipt is a dead letter
or waits for its retry when its turn comes: only the holder of a claim acts on its row, no flip
and no closing commit raises, and every linked receipt has its turn. -/
theorem completion_owned (start : Initial w) (actions : List Action)
    (cond : Throughout (fun w a => Undisturbed w a ∧ Flippable w a) w actions) :
    Throughout (fun w a => Owns w a ∧ RecoveryFlips w a) w actions := by
  refine Throughout.of_invariant (fun v a h hcond => h.step hcond.1 hcond.2) ?_ start.owned cond
  exact fun v a h hcond => ⟨h.owns hcond.2, h.recoveryFlips hcond.2⟩

end

namespace Sample

def delivery (event : String) : Webhooks.Action :=
  .accept "woo" .woocommerce event "" (.woocommerce ⟨"product.updated", some "7"⟩) 0

/-- Two deliveries about one product. -/
def deliveries : World :=
  { db := { webhooks := Webhooks.run {} [delivery "1:1", delivery "1:2"] } }

theorem deliveries_initial : Initial deliveries :=
  ⟨rfl, rfl, rfl, rfl, Webhooks.empty_consistent.run _⟩

def product (receiptId : Nat) : NewWork where
  connectorId := "woo"
  entityType := "products"
  entityId := "7"
  reason := "WEBHOOK_PRODUCT_UPDATED"
  eventAt := 0
  parentEntityId := none
  providerEventId := none
  receiptId := some receiptId

def queued : List Action := [.enqueue (product 1) 0, .enqueue (product 2) 0]

/-- A claim of the row for ten seconds, and its read. -/
def read (worker : String) (attempt : Nat) (now : Time) (outcome : Outcome) : List Action :=
  [.claim worker 25 10 now [], .load (1, attempt), .startRead (1, attempt),
    .endRead (1, attempt) true outcome, .complete (1, attempt) now]

/-- The first worker dies between the flip of the first receipt and that of the second. -/
def crashed : List Action :=
  queued ++ read "a" 1 0 (.failed "not_found") ++ [.flip (1, 1) 0, .crash (1, 1),
    .recover 200 (seconds 20)] ++ read "b" 2 (seconds 20) (.failed "not_found")

/-- The first worker outlives its lease, and the row is claimed again. -/
def outlived : List Action :=
  queued ++ read "a" 1 0 .completed ++ [.recover 200 (seconds 20), .claim "b" 25 10 (seconds 20) []]

def undisturbed : List Action :=
  queued ++ read "a" 1 0 .completed ++ [.flip (1, 1) 0, .flip (1, 1) 0, .close (1, 1)]

end Sample

open Sample

/-- After the crash the first receipt's dead letter stops the second worker, with the second
receipt not flipped; and a worker that has lost its row to another completes it all the same. -/
theorem completion_not_owned :
    (((run deliveries (crashed ++ [.flip (1, 2) (seconds 20)])).task (1, 2)).map
        Task.phase = some (.ended true) ∧
      (run deliveries crashed).db.works.map (·.status) = [.running] ∧
      (run deliveries (crashed ++ [.flip (1, 2) (seconds 20)])).db.webhooks.receipts.map (·.processingState) =
        [.deadLetter, .queued]) ∧
    (run deliveries outlived).db.works.map
      (fun row => (row.status, row.workerId, row.attemptCount)) = [(.running, some "b", 2)] ∧
    (run deliveries (outlived ++ [.flip (1, 1) (seconds 21),
      .flip (1, 1) (seconds 21), .close (1, 1)])).db.works.map (·.status) = [.completed] := by
  all_goals decide +kernel

theorem completion_owned_undisturbed :
    Throughout (fun w a => Owns w a ∧ RecoveryFlips w a) deliveries undisturbed ∧
    (run deliveries undisturbed).db.webhooks.receipts.map (·.processingState) = [.processed, .processed] := by
  refine ⟨completion_owned deliveries_initial _ ?_, by decide +kernel⟩
  refine ⟨⟨trivial, trivial⟩, ⟨trivial, trivial⟩, ⟨trivial, trivial⟩, ⟨trivial, trivial⟩,
    ⟨trivial, trivial⟩, ⟨trivial, trivial⟩, ⟨trivial, trivial⟩, ⟨trivial, ?_⟩, ⟨trivial, ?_⟩,
    ⟨trivial, trivial⟩, trivial⟩
  all_goals
    simp only [Flippable]
    decide +kernel

end FlowHub.EntityWork
