import FlowHub.WritePipeline.LegacySpec

namespace FlowHub.WritePipeline

open Python Txn List Except

variable {u : Unicode} {digest : PreviewHashing} {hash : Hashing}

/-- A batch stays open to `execute` exactly when something in it is uncertain and
nothing in it succeeded. -/
theorem resumable_batchStatus {success failure reconciliation : Nat} :
    resumable (batchStatus success failure reconciliation) = true ↔ reconciliation ≠ 0 ∧ success = 0 := by
  unfold batchStatus
  by_cases hr : reconciliation = 0
  · by_cases hf : failure = 0
    · simp [hr, hf, resumable]
    · by_cases hs : success = 0 <;> simp [hr, hf, hs, resumable]
  · by_cases hs : success = 0 <;> simp [hr, hs, resumable]

/-- Past its approval: `execute` has been let in. -/
def begun (status : BatchStatus) : Bool :=
  decide (status ≠ .dryRunReady) && decide (status ≠ .approved)

theorem resumable_begun (h : resumable status = true) : begun status = true := by
  cases status <;> first | rfl | cases h

/-- The durable attempt of a batch item, under the payload the item still has. -/
def Evidence (hash : Hashing) (db : Db) (batch : WriteBatch) (item : WriteItem) : Prop :=
  ∃ a ∈ db.attempts, a.logicalItem = ⟨legacyWorkflow, batch.id, toString item.id⟩ ∧
    a.payloadHash = hash.json (payloadSeed batch item)

variable {batchId : Id} {batch : WriteBatch} {results : List WorkspaceWriteResult}
  {item : WriteItem} {db : Db}

theorem Evidence.found (h : Evidence hash db batch item) (authority : ChannelPricingAuthorityHead) :
    Found db legacyWorkflow (legacyIntent hash batch authority item) := by
  obtain ⟨a, ha, hk, hp⟩ := h
  exact ⟨toString item.id, [], rfl, a, ha, hk, hp⟩

theorem Found.evidence (h : Found db legacyWorkflow (legacyIntent hash batch authority item)) :
    Evidence hash db batch item := by
  obtain ⟨itemId, rest, hids, a, ha, hk, hp⟩ := h
  obtain ⟨rfl, -⟩ := cons.inj hids
  exact ⟨a, ha, hk, hp⟩

theorem Evidence.mono (h : Evidence hash s batch item) (hst : s.attempts ⊆ t.attempts) :
    Evidence hash t batch item := by
  obtain ⟨a, ha, hk⟩ := h
  exact ⟨a, hst ha, hk⟩

/-- A stored batch still is what was approved. -/
structure Sound (hash : Hashing) (db : Db) (batch : WriteBatch) : Prop where
  channel : batch.channelId = "woocommerce:primary"
  operation : batch.operationType = "price_update"
  hashed : batchHashFromRow hash batch (itemsOfBatch db batch.id) = batch.batchHash

/-- What one item needs of its batch: evidence once the batch has begun, and an open
batch while the item is uncertain. -/
structure Accounted (hash : Hashing) (db : Db) (batch : WriteBatch) (item : WriteItem) : Prop where
  evidence : begun batch.status = true → Evidence hash db batch item
  isOpen : item.status = .reconciliationRequired → resumable batch.status = true

def batchOf (db : Db) (batchId : Id) : Option WriteBatch :=
  Table.get WriteBatch.id db.writeBatches batchId

structure LegacyInv (hash : Hashing) (db : Db) : Prop where
  sound : ∀ batchId batch, batchOf db batchId = some batch → Sound hash db batch
  items : ∀ item ∈ db.writeItems, ∃ batch, batchOf db item.batchId = some batch ∧ Accounted hash db batch item

theorem batchOf_id (h : batchOf db batchId = some batch) : batch.id = batchId := (Table.get_some h).2

/-- Attempts may be added, and nothing a batch depends on changes. -/
theorem LegacyInv.of_same {s t : Db} (h : LegacyInv hash s)
    (hb : t.writeBatches = s.writeBatches) (hi : t.writeItems = s.writeItems)
    (ha : s.attempts ⊆ t.attempts) : LegacyInv hash t where
  sound batchId batch hget := by
    rw [batchOf, hb] at hget
    obtain ⟨hc, ho, hh⟩ := h.sound batchId batch hget
    exact ⟨hc, ho, by rw [itemsOfBatch, hi]; exact hh⟩
  items item hm := by
    rw [hi] at hm
    obtain ⟨batch, hget, hacc⟩ := h.items item hm
    exact ⟨batch, by rw [batchOf, hb]; exact hget, fun hs => (hacc.evidence hs).mono ha, hacc.isOpen⟩

def outcomeFor (results : List WorkspaceWriteResult) (channelId : Id) (item : WriteItem) :
    Option WriteOutcome :=
  (resultFor results (legacyListingId item channelId)).map (·.outcome)

/-- One item of the batch came back verified and another one uncertain. -/
def mixed (db : Db) (batchId : Id) (results : List WorkspaceWriteResult) : Bool :=
  match batchOf db batchId with
  | none => false
  | some batch =>
    (itemsOfBatch db batchId).any (fun i =>
      decide (outcomeFor results batch.channelId i = some .verifiedApplied)) &&
    (itemsOfBatch db batchId).any (fun i =>
      decide (outcomeFor results batch.channelId i = some .reconciliationRequired))

def mixedFinish (e : Event service) : Bool :=
  match e.label with
  | .commit (.finishBatch batchId results) => mixed e.before batchId results
  | _ => false

/-- No `execute` so far ended with mixed outcomes. -/
def Unmixed (past : List (Event service)) : Prop := ∀ e ∈ past, mixedFinish e = false

theorem Unmixed.earlier (h : Unmixed (past ++ [e])) : Unmixed past :=
  fun e' he' => h e' (mem_append_left _ he')

theorem finishItem_row (results : List WorkspaceWriteResult) (channelId : Id) (item : WriteItem) :
    itemRow (finishItem results channelId item) = itemRow item ∧
      (finishItem results channelId item).id = item.id ∧
      (finishItem results channelId item).batchId = item.batchId ∧
      ∀ batch, payloadSeed batch (finishItem results channelId item) = payloadSeed batch item := by
  unfold finishItem
  split
  · exact ⟨rfl, rfl, rfl, fun _ => rfl⟩
  · split <;> exact ⟨rfl, rfl, rfl, fun _ => rfl⟩

theorem finishItem_status (results : List WorkspaceWriteResult) (channelId : Id) (item : WriteItem) :
    ((finishItem results channelId item).status = .applied →
      outcomeFor results channelId item = some .verifiedApplied) ∧
    ((finishItem results channelId item).status = .reconciliationRequired →
      outcomeFor results channelId item = some .reconciliationRequired) := by
  unfold finishItem outcomeFor
  split
  · exact ⟨nofun, nofun⟩
  · split <;> simp_all

theorem itemsOfBatch_finish (db : Db) (batchId channelId other : Id) (results : List WorkspaceWriteResult) :
    itemsOfBatch { db with
        writeItems := finishItems batchId channelId results db.writeItems } other =
      if other = batchId then (itemsOfBatch db other).map (finishItem results channelId)
      else itemsOfBatch db other := by
  simp only [itemsOfBatch, finishItems]
  induction db.writeItems with
  | nil => simp
  | cons item rest ih =>
    rw [map_cons, filter_cons, filter_cons, ih]
    by_cases hb : item.batchId = batchId
    · have hid := (finishItem_row results channelId item).2.2.1
      by_cases ho : other = batchId
      · subst ho
        simp [hb, hid]
      · simp [hb, hid, ho, Ne.symm ho]
    · by_cases ho : other = batchId
      · subst ho
        simp [hb]
      · by_cases hi : item.batchId = other <;> simp [hb, ho, hi]

/-- The statuses that finishing gives the items of a batch. -/
def finishedItems (db : Db) (batch : WriteBatch) (results : List WorkspaceWriteResult) : List WriteItem :=
  (itemsOfBatch db batch.id).map (finishItem results batch.channelId)

def finishedStatus (items : List WriteItem) : BatchStatus :=
  batchStatus (countStatus items .applied) (countStatus items .failed)
    (countStatus items .reconciliationRequired)

theorem finishBatch_ok (h : finishBatch batchId results now db = .ok (db', ())) :
    ∃ batch, batchOf db batchId = some batch ∧
      db'.writeBatches = Table.set WriteBatch.id db.writeBatches batchId (fun b =>
        { b with status := finishedStatus (finishedItems db batch results), executedAt := some now }) ∧
      db'.writeItems = finishItems batchId batch.channelId results db.writeItems ∧
      db'.attempts = db.attempts := by
  obtain ⟨batch, hb, h⟩ := bind_eq_ok.mp h
  cases h
  have hget := getBatch_ok hb
  have hid : batch.id = batchId := batchOf_id hget
  refine ⟨batch, hget, ?_, rfl, rfl⟩
  simp only [finishedItems, hid]
  rfl

/-- Without mixed outcomes, an uncertain item leaves its batch open. -/
theorem finish_resumable (hb : batchOf db batchId = some batch)
    (unmixed : mixed db batchId results = false) (hi : item ∈ itemsOfBatch db batchId)
    (hs : (finishItem results batch.channelId item).status = .reconciliationRequired) :
    resumable (finishedStatus (finishedItems db batch results)) = true := by
  have hid := batchOf_id hb
  rw [finishedStatus, resumable_batchStatus, finishedItems, hid]
  constructor
  · have hmem := mem_map_of_mem (f := finishItem results batch.channelId) hi
    exact (countP_pos_iff.mpr ⟨_, hmem, decide_eq_true hs⟩).ne'
  refine countP_eq_zero.mpr fun kept hk hok => ?_
  obtain ⟨applied, ha, rfl⟩ := mem_map.mp hk
  have hverified := (finishItem_status results batch.channelId applied).1 (of_decide_eq_true hok)
  have huncertain := (finishItem_status results batch.channelId item).2 hs
  have hmixed : mixed db batchId results = true := by
    rw [mixed, hb, Bool.and_eq_true, any_eq_true, any_eq_true]
    exact ⟨⟨applied, ha, decide_eq_true hverified⟩, item, hi, decide_eq_true huncertain⟩
  rw [unmixed] at hmixed
  cases hmixed

theorem LegacyInv.finished (h : LegacyInv hash db)
    (started : ∀ batch, batchOf db batchId = some batch → begun batch.status = true)
    (unmixed : mixed db batchId results = false)
    (hok : finishBatch batchId results now db = .ok (db', ())) : LegacyInv hash db' := by
  obtain ⟨batch, hb, hbatches, hitems, hattempts⟩ := finishBatch_ok hok
  have hget : ∀ other, batchOf db' other = if other = batchId then
      (batchOf db batchId).map (fun b =>
        { b with status := finishedStatus (finishedItems db batch results),
                 executedAt := some now }) else batchOf db other := by
    intro other
    rw [batchOf, hbatches]
    exact Table.get_set fun _ => rfl
  have hrows : ∀ other, (itemsOfBatch db' other).map itemRow = (itemsOfBatch db other).map itemRow := by
    intro other
    have hsplit := itemsOfBatch_finish db batchId batch.channelId other results
    rw [itemsOfBatch, hitems]
    rw [itemsOfBatch] at hsplit
    rw [hsplit]
    split
    · rw [map_map]
      exact map_congr_left fun item _ => (finishItem_row results batch.channelId item).1
    · rfl
  refine ⟨fun other kept hk => ?_, fun item hm => ?_⟩
  · rw [hget] at hk
    split at hk
    · rename_i hsame
      subst hsame
      rw [hb] at hk
      cases hk
      obtain ⟨hc, ho, hh⟩ := h.sound other batch hb
      refine ⟨hc, ho, ?_⟩
      simp only [batchHashFromRow, hrows] at hh ⊢
      exact hh
    · obtain ⟨hc, ho, hh⟩ := h.sound other kept hk
      refine ⟨hc, ho, ?_⟩
      simp only [batchHashFromRow, hrows] at hh ⊢
      exact hh
  · rw [hitems] at hm
    obtain ⟨old, hold, rfl⟩ := mem_map.mp hm
    obtain ⟨own, hown, hacc⟩ := h.items old hold
    by_cases hmine : old.batchId = batchId
    · rw [if_pos hmine]
      obtain ⟨-, hid, hbid, hseed⟩ := finishItem_row results batch.channelId old
      rw [hmine, hb] at hown
      cases hown
      refine ⟨_, by rw [hbid, hget, if_pos hmine, hb]; rfl, fun _ => ?_, fun hs => ?_⟩
      · obtain ⟨a, ha, hk, hp⟩ := hacc.evidence (started batch hb)
        refine ⟨a, hattempts ▸ ha, ?_, ?_⟩
        · rw [hk, hid]
        · rw [hp, hseed]
          rfl
      · have hin : old ∈ itemsOfBatch db batchId :=
          mem_filter.mpr ⟨hold, decide_eq_true hmine⟩
        exact finish_resumable hb unmixed hin hs
    · rw [if_neg hmine]
      refine ⟨own, by rw [hget, if_neg hmine]; exact hown, fun hs => ?_, hacc.isOpen⟩
      exact (hacc.evidence hs).mono (by rw [hattempts]; exact Subset.refl _)

theorem mem_itemsOfBatch :
    item ∈ itemsOfBatch db batchId ↔ item ∈ db.writeItems ∧ item.batchId = batchId := by
  simp [itemsOfBatch, mem_filter, decide_eq_true_eq]

theorem LegacyInv.inserted (h : LegacyInv hash db)
    (hins : insertBatch hash batchId request user changes db = .ok db') : LegacyInv hash db' := by
  obtain ⟨hfree, batch, hid, hstatus, hchannel, hop, hhash, rfl⟩ := insertBatch_ok hins
  rw [Table.has_false] at hfree
  have hnew : ∀ item ∈ newItems batchId (nextItemId db.writeItems) changes,
      item.batchId = batchId ∧ item.status = .pending := by
    intro item hi
    obtain ⟨change, -, id, -, rfl⟩ := mem_newItems hi
    exact ⟨rfl, rfl⟩
  have hold : ∀ item ∈ db.writeItems, item.batchId ≠ batchId := by
    intro item hi heq
    obtain ⟨own, hown, -⟩ := h.items item hi
    rw [heq, batchOf, hfree] at hown
    cases hown
  have hmine : Table.get WriteBatch.id (db.writeBatches ++ [batch]) batchId = some batch := by
    rw [Table.get_append_of_none hfree]
    simp [Table.get, hid]
  refine ⟨fun other kept hk => ?_, fun item hm => ?_⟩
  · by_cases hother : other = batchId
    · subst hother
      obtain rfl : batch = kept := Option.some.inj (hmine.symm.trans hk)
      refine ⟨hchannel, hop, ?_⟩
      have hrest : db.writeItems.filter (fun i => decide (i.batchId = batch.id)) = [] := by
        rw [filter_eq_nil_iff, hid]
        exact fun item hi => by simpa using hold item hi
      have hall : (newItems other (nextItemId db.writeItems) changes).filter
          (fun i => decide (i.batchId = batch.id)) =
          newItems other (nextItemId db.writeItems) changes := by
        rw [filter_eq_self, hid]
        exact fun item hi => by simpa using (hnew item hi).1
      rw [batchHashFromRow, itemsOfBatch, filter_append, hrest, hall, nil_append, newItems_rows, hhash]
    · have hget : batchOf db other = some kept := by
        cases hs : batchOf db other with
        | some b =>
          have hb : Table.get WriteBatch.id (db.writeBatches ++ [batch]) other = some b :=
            Table.get_append_of_some hs
          exact hb.symm.trans hk
        | none =>
          have hb : Table.get WriteBatch.id (db.writeBatches ++ [batch]) other =
              Table.get WriteBatch.id [batch] other := Table.get_append_of_none hs
          have hfind := hb.symm.trans hk
          simp [Table.get, hid, Ne.symm hother] at hfind
      obtain ⟨hc, ho, hh⟩ := h.sound other kept hget
      refine ⟨hc, ho, ?_⟩
      have hkid : kept.id = other := batchOf_id hget
      have hnone : (newItems batchId (nextItemId db.writeItems) changes).filter
          (fun i => decide (i.batchId = kept.id)) = [] := by
        rw [filter_eq_nil_iff, hkid]
        intro item hi
        rw [(hnew item hi).1]
        simpa using Ne.symm hother
      rw [itemsOfBatch, filter_append, hnone, append_nil]
      exact hh
  · rcases mem_append.mp hm with hi | hi
    · obtain ⟨own, hown, hacc⟩ := h.items item hi
      exact ⟨own, Table.get_append_of_some hown, hacc.evidence, hacc.isOpen⟩
    · obtain ⟨hb, hs⟩ := hnew item hi
      refine ⟨batch, by rw [batchOf, hb]; exact hmine, fun hbegun => ?_, fun huncertain => ?_⟩
      · rw [hstatus] at hbegun
        cases hbegun
      · rw [hs] at huncertain
        cases huncertain

theorem batchOf_update (hf : ∀ b, (f b).id = b.id) (other : Id) : batchOf (updateBatch db batchId f) other =
      if other = batchId then (batchOf db batchId).map f else batchOf db other :=
  Table.get_set hf

/-- A status change that opens nothing to doubt: items keep their evidence, or get
it, and an open batch stays open. -/
theorem LegacyInv.updated (h : LegacyInv hash db)
    (hf : ∀ b, (f b).id = b.id ∧ (f b).channelId = b.channelId ∧
      (f b).operationType = b.operationType ∧ (f b).batchHash = b.batchHash)
    (hacc : ∀ batch, batchOf db batchId = some batch → ∀ item ∈ itemsOfBatch db batchId,
      Accounted hash db batch item → Accounted hash db (f batch) item) :
    LegacyInv hash (updateBatch db batchId f) := by
  have hget : ∀ other, batchOf (updateBatch db batchId f) other =
      if other = batchId then (batchOf db batchId).map f else batchOf db other :=
    batchOf_update fun b => (hf b).1
  refine ⟨fun other kept hk => ?_, fun item hm => ?_⟩
  · rw [hget] at hk
    split at hk
    · obtain ⟨old, hold, rfl⟩ := Option.map_eq_some_iff.mp hk
      obtain ⟨hc, ho, hh⟩ := h.sound batchId old hold
      obtain ⟨hid, hchannel, hop, hbatch⟩ := hf old
      refine ⟨hchannel.trans hc, hop.trans ho, ?_⟩
      rw [batchHashFromRow, hchannel, hop, hbatch, hid]
      exact hh
    · obtain ⟨hc, ho, hh⟩ := h.sound other kept hk
      exact ⟨hc, ho, hh⟩
  · obtain ⟨own, hown, hown'⟩ := h.items item hm
    by_cases hmine : item.batchId = batchId
    · rw [hmine] at hown
      refine ⟨f own, by rw [hget, if_pos hmine, hown]; rfl, ?_⟩
      have hkeep := hacc own hown item (mem_itemsOfBatch.mpr ⟨hm, hmine⟩) hown'
      exact ⟨hkeep.evidence, hkeep.isOpen⟩
    · exact ⟨own, by rw [hget, if_neg hmine]; exact hown, hown'.evidence, hown'.isOpen⟩

theorem LegacyInv.approved (h : LegacyInv hash db)
    (hb : batchOf db batchId = some batch) (hready : batch.status = .dryRunReady)
    (by_ : Option String) (at_ : Option Time) :
    LegacyInv hash (updateBatch db batchId fun b =>
      { b with status := .approved, approvedBy := by_, approvedAt := at_ }) := by
  refine h.updated (fun b => ⟨rfl, rfl, rfl, rfl⟩) fun old hold item _ hacc => ?_
  obtain rfl : batch = old := Option.some.inj (hb.symm.trans hold)
  refine ⟨nofun, fun hs => ?_⟩
  have hopen := hacc.isOpen hs
  rw [hready] at hopen
  cases hopen

/-- The first commit of `execute` makes the batch begun and gives every item of it
its evidence in one step. -/
theorem LegacyInv.started {started : Started} (h : LegacyInv hash db)
    (hok : startBatch hash fresh batchId user correlationId db = .ok (db', started)) :
    LegacyInv hash db' ∧ ∀ batch, batchOf db' batchId = some batch → begun batch.status = true := by
  obtain ⟨batch, authority, channels, heads, hadmit, hcommand, -, hrec⟩ := startBatch_ok hok
  obtain ⟨hb, hstatus⟩ := admitBatch_ok hadmit
  have hid : batch.id = batchId := batchOf_id hb
  have hfound := recordIntents_found hrec
  obtain ⟨attempts, events, heads', hdb⟩ := recordIntents_appends hrec
  cases hopen : resumable batch.status with
  | true =>
    rw [markExecuting, if_pos hopen] at hdb
    refine ⟨h.of_same (by rw [hdb]) (by rw [hdb]) (by simp [hdb]), fun kept hk => ?_⟩
    rw [batchOf, hdb] at hk
    obtain rfl : batch = kept := Option.some.inj (hb.symm.trans hk)
    exact resumable_begun hopen
  | false =>
    rw [markExecuting, if_neg (by simp [hopen]), hid] at hdb
    have hkept : LegacyInv hash { db' with writeBatches := db.writeBatches } :=
      h.of_same rfl (by rw [hdb]; rfl) (by rw [hdb]; exact subset_append_left _ _)
    have hupdate : db' = updateBatch { db' with writeBatches := db.writeBatches } batchId
        fun b => { b with status := .executing } := by
      rw [hdb]
      rfl
    have hitems : db'.writeItems = db.writeItems := by rw [hdb]; rfl
    constructor
    · rw [hupdate]
      refine hkept.updated (fun b => ⟨rfl, rfl, rfl, rfl⟩) fun old hold item hi _ => ?_
      obtain rfl : batch = old := Option.some.inj (hb.symm.trans hold)
      refine ⟨fun _ => ?_, fun _ => rfl⟩
      have hin : item ∈ itemsOfBatch db batch.id := by
        rw [mem_itemsOfBatch, hid, ← hitems]
        exact mem_itemsOfBatch.mp hi
      have hfrom : legacyIntent hash batch authority item ∈ started.command.intents := by
        rw [hcommand]
        exact mem_map_of_mem hin
      exact (hfound _ hfrom).evidence
    · intro kept hk
      rw [hupdate, batchOf_update (by exact fun _ => rfl), if_pos rfl] at hk
      obtain ⟨old, -, rfl⟩ := Option.map_eq_some_iff.mp hk
      rfl

section Runs

/-- The invariant of every run in which no `execute` ended with mixed outcomes. -/
def LegacyKept (hash : Hashing) (w : World service) : Prop :=
  Unmixed w.past → LegacyInv hash w.state

/-- Between the first commit of `execute` and its last one. -/
def Executing (hash : Hashing) (batchId : Id) (w : World service) : Prop :=
  Unmixed w.past → LegacyInv hash w.state ∧
    ∀ batch, batchOf w.state batchId = some batch → begun batch.status = true

abbrev legacySolo (hash : Hashing) : Contract service := .alone (LegacyKept hash)

theorem Executing.kept (h : Executing hash batchId w) : LegacyKept hash w := fun hu => (h hu).1

theorem LegacyKept.rollback (h : LegacyKept hash w) (l : Label service) :
    LegacyKept hash (w.log l w.state) := fun hu => h hu.earlier

theorem tolerates_executing (batchId : Id) (command : WorkspaceWriteBatchCommand) :
    Tolerates (legacySolo hash) command command.intents (Executing hash batchId) where
  rely h hp := h ▸ hp
  writes {w l s} h _ hs := by
    obtain ⟨hbatches, hitems, hattempts⟩ := hs.batches
    have hlog : Executing hash batchId (w.log l s) := by
      intro hu
      obtain ⟨hinv, hbegun⟩ := h hu.earlier
      refine ⟨hinv.of_same hbatches hitems hattempts, fun batch hb => hbegun batch ?_⟩
      rwa [World.log_state, batchOf, hbatches] at hb
    exact ⟨hlog.kept, hlog⟩
  dispatch {w l _} h _ _ := by
    have hlog : Executing hash batchId (w.log l w.state) := fun hu => h hu.earlier
    exact ⟨hlog.kept, hlog⟩

theorem createDryRun_kept (batchId : Id) (request : DryRunRequest) (user : FlowHubUser)
    (now : Time) (h : LegacyKept hash w) :
    (createDryRun u digest hash batchId request user now).Meets (legacySolo hash)
      (fun _ => LegacyKept hash) (fun _ => LegacyKept hash) w := by
  refine Proc.Meets.transact ?_ fun v hv e => hv ▸ ⟨h.rollback _, h.rollback _⟩
  rintro _ rfl s _ hok
  obtain ⟨_, -, hok⟩ := bind_eq_ok.mp hok
  obtain ⟨changes, -, hok⟩ := bind_eq_ok.mp hok
  obtain ⟨_, -, hok⟩ := bind_eq_ok.mp hok
  obtain ⟨db, hins, hok⟩ := bind_eq_ok.mp hok
  obtain ⟨rfl, -⟩ := Prod.mk.inj (ok.inj hok)
  have hlog : LegacyKept hash
      (w.log (.commit (.createDryRun request.previewId request.selectedRowIds)) db) :=
    fun hu => (h hu.earlier).inserted hins
  exact ⟨hlog, hlog⟩

theorem approve_kept (batchId : Id) (user : FlowHubUser) (now : Time) (h : LegacyKept hash w) :
    (approve hash batchId user now).Meets (legacySolo hash)
      (fun _ => LegacyKept hash) (fun _ => LegacyKept hash) w := by
  refine Proc.Meets.transact ?_ fun v hv e => hv ▸ ⟨h.rollback _, h.rollback _⟩
  rintro _ rfl s _ hok
  obtain ⟨batch, hb, hok⟩ := bind_eq_ok.mp hok
  obtain ⟨hready, hok⟩ := guard_ok hok
  obtain ⟨_, -, hok⟩ := bind_eq_ok.mp hok
  obtain ⟨hs, -⟩ := Prod.mk.inj (ok.inj hok)
  have hlog : LegacyKept hash (w.log (.commit (.approveBatch batchId)) s) := by
    intro hu
    rw [World.log_state, ← hs]
    exact (h hu.earlier).approved (getBatch_ok hb) (not_not.mp hready) _ _
  exact ⟨hlog, hlog⟩

theorem finish_kept (h : Executing hash batchId w) (results : List WorkspaceWriteResult) (now : Time) :
    (finish batchId results now).Meets (legacySolo hash)
      (fun _ => LegacyKept hash) (fun _ => LegacyKept hash) w := by
  refine Proc.Meets.transact ?_ fun v hv e => hv ▸ ⟨h.kept.rollback _, h.kept.rollback _⟩
  rintro _ rfl s _ hok
  have hlog : LegacyKept hash (w.log (.commit (.finishBatch batchId results)) s) := by
    intro hu
    obtain ⟨hinv, hbegun⟩ := h hu.earlier
    exact hinv.finished hbegun (hu _ (mem_append_right _ (mem_singleton.mpr rfl))) hok
  exact ⟨hlog, hlog⟩

theorem execute_kept (fresh : Fresh) (batchId : Id) (user : FlowHubUser)
    (correlationId : String) (now : Time) (h : LegacyKept hash w) :
    (execute hash fresh batchId user correlationId now).Meets (legacySolo hash)
      (fun _ => LegacyKept hash) (fun _ => LegacyKept hash) w := by
  refine Proc.Meets.bind (Q := fun _ => Executing hash batchId) ?_ fun started v hv => ?_
  · refine Proc.Meets.transact ?_ fun v hv e => hv ▸ ⟨h.rollback _, h.rollback _⟩
    rintro _ rfl s started hok
    have hlog : Executing hash batchId (w.log (.commit (.startBatch batchId)) s) :=
      fun hu => (h hu.earlier).started hok
    exact ⟨hlog.kept, hlog⟩
  · refine Proc.Meets.bind ?_ fun results v hv => finish_kept hv results now
    have hgroups := (grouped_perm started.command.intents).subset
    exact (runChannels_frame ((tolerates_executing batchId started.command).sublist hgroups) hv).mono
      (fun _ _ h => h) fun _ _ h => h.kept

theorem session_kept (noItems : db.writeItems = []) (noBatches : db.writeBatches = [])
    (run : Session (LegacyCall u digest hash) (.initial db) w) : LegacyKept hash w := by
  refine run.invariant (fun _ => ⟨fun _ _ h => ?_, fun _ h => ?_⟩) ?_
  · simp [batchOf, Table.get, noBatches] at h
  · simp [noItems] at h
  · rintro _ (⟨batchId, request, user, now⟩ | ⟨batchId, user, now⟩ |
      ⟨fresh, batchId, user, correlationId, now⟩) v hv
    · exact (createDryRun_kept batchId request user now hv).mono (fun _ _ _ => trivial)
        fun _ _ _ => trivial
    · exact (approve_kept batchId user now hv).mono (fun _ _ _ => trivial) fun _ _ _ => trivial
    · exact (execute_kept fresh batchId user correlationId now hv).mono (fun _ _ _ => trivial)
        fun _ _ _ => trivial

end Runs

theorem snapshot_seeded (db : Db) (eventId : Id) (h : channelId ∈ implementedChannels) :
    ∃ seeded, PricingAuthority.snapshot (ensureAuthorityChannel db channelId) channelId eventId =
      .ok seeded := by
  have hthere : Table.has WorkspaceChannel.id (ensureAuthorityChannel db channelId).channels
      channelId = true := by
    unfold ensureAuthorityChannel
    split
    · assumption
    rename_i habsent
    refine Table.has_iff.mpr ⟨{ id := channelId }, mem_append_right _ ?_, rfl⟩
    refine mem_map_of_mem (mem_filter.mpr ⟨h, ?_⟩)
    simpa using habsent
  unfold PricingAuthority.snapshot
  split
  · exact ⟨_, rfl⟩
  · rw [if_pos hthere]
    exact ⟨_, rfl⟩

theorem grouped_single (h : ∀ i ∈ intents, i.channelId = channelId) (hne : intents ≠ []) :
    grouped intents = [(channelId, intents)] := by
  cases intents with
  | nil => exact absurd rfl hne
  | cons first rest =>
    suffices hs : ∀ sofar, rest.foldl (fun groups i => addToGroup i groups)
        [(channelId, sofar)] = [(channelId, sofar ++ rest)] by
      have hfirst := h first (mem_cons_self ..)
      simpa [grouped, addToGroup, hfirst] using hs [first]
    have hrest : ∀ i ∈ rest, i.channelId = channelId :=
      fun i hi => h i (mem_cons_of_mem _ hi)
    clear h hne
    induction rest with
    | nil => simp
    | cons i more ih =>
      intro sofar
      have hi := hrest i (mem_cons_self ..)
      rw [foldl_cons, addToGroup, if_pos hi.symm,
        ih (fun j hj => hrest j (mem_cons_of_mem _ hj)), append_assoc,
        singleton_append]

/-- A batch that is open and has evidence for all its items is taken up again, for
verification only. -/
theorem startBatch_resumes (hb : batchOf db batchId = some batch) (hopen : resumable batch.status = true)
    (sound : Sound hash db batch)
    (evidence : ∀ item ∈ itemsOfBatch db batch.id, Evidence hash db batch item)
    (hne : itemsOfBatch db batch.id ≠ []) (fresh : Fresh) (user : FlowHubUser)
    (correlationId : String) :
    ∃ db' authority recorded, startBatch hash fresh batchId user correlationId db =
      .ok (db', ⟨legacyBatchCommand hash batch (itemsOfBatch db batch.id) authority user
        correlationId, true, recorded⟩) := by
  have hadmit : admitBatch hash batchId db = .ok batch := by
    have hfound : getBatch db batchId = .ok batch := by
      rw [batchOf] at hb
      simp [getBatch, hb]
    have hhash : assertBatchHashMatches hash db batch = .ok () := if_pos sound.hashed
    have hadapter : adapterFor batch.channelId batch.operationType = .ok () := by
      rw [sound.channel, sound.operation]
      decide
    simp [admitBatch, hfound, hopen, hhash, hadapter, Bind.bind, Except.bind]
  have hattempts : hasAttempts db batch.id = true := by
    obtain ⟨item, hi⟩ := exists_mem_of_ne_nil _ hne
    obtain ⟨a, ha, hk, -⟩ := evidence item hi
    refine any_eq_true.mpr ⟨a, ha, ?_⟩
    have hw : a.sourceWorkflow = legacyWorkflow := congrArg LogicalItem.sourceWorkflow hk
    have ho : a.operationId = batch.id := congrArg LogicalItem.operationId hk
    simp [hw, ho]
  have himpl : batch.channelId ∈ implementedChannels := by
    rw [sound.channel]
    decide
  obtain ⟨⟨seeded, authority⟩, hsnap⟩ :=
    snapshot_seeded db (fresh.authorityEvent batch.channelId) himpl
  have hauth : batchAuthority fresh batch (markExecuting batch db) = .ok (seeded, authority) := by
    rw [markExecuting, if_pos hopen, batchAuthority, hsnap]
  obtain ⟨channels, heads, hseeded⟩ := batchAuthority_ok hauth
  rw [markExecuting, if_pos hopen] at hseeded
  have hfound : ∀ intent ∈ (legacyBatchCommand hash batch (itemsOfBatch db batch.id) authority user
      correlationId).intents, Found seeded legacyWorkflow intent := by
    intro intent hi
    obtain ⟨item, hitem, rfl⟩ := mem_map.mp hi
    have hev := (evidence item hitem).mono (t := seeded) (by rw [hseeded]; exact fun _ h => h)
    exact hev.found authority
  obtain ⟨recorded, hrec⟩ := recordIntents_prior_only hfound true fresh.attempt 0 {}
  refine ⟨seeded, authority, recorded, ?_⟩
  simp [startBatch, hadmit, hauth, hopen, hattempts, writeGate, hrec, Bind.bind, Except.bind]

/-- A verification-only run over one Channel asks that Channel about every intent,
before anything else. -/
theorem runChannels_verifies (command : WorkspaceWriteBatchCommand)
    (fresh : Fresh) (recorded : Recorded) (hconnector : connectorFor command.workflow channelId = .ok ())
    (f : List WorkspaceWriteResult → Program Unit) :
    ∃ next fail, (runChannels fresh command true recorded [(channelId, command.intents)]).bind f =
      .ask (.verifyUpdates command channelId command.intents) next fail := by
  simp only [runChannels, runChannel, hconnector, dispatchChannel, verifyChannel, Bool.or_true, if_true]
  exact ⟨_, _, rfl⟩

/-- `execute` lets the batch of the item in again, and its next question to the
provider is about that item. -/
def Reopens (hash : Hashing) (w : World service) (item : WriteItem) : Prop :=
  ∀ fresh user correlationId now, ∃ command intents next fail v,
    Step (execute hash fresh item.batchId user correlationId now) w
      (.ask (.verifyUpdates command "woocommerce:primary" intents) next fail) v ∧
    ∃ i ∈ intents, i.applyJobId = item.batchId ∧ i.applyItemIds = [toString item.id]

theorem LegacyInv.reopens (h : LegacyInv hash w.state) (hi : item ∈ w.state.writeItems)
    (hb : batchOf w.state item.batchId = some batch) (hopen : resumable batch.status = true) :
    Reopens hash w item := by
  intro fresh user correlationId now
  have hid : batch.id = item.batchId := batchOf_id hb
  have sound := h.sound item.batchId batch hb
  have hmine : item ∈ itemsOfBatch w.state batch.id := mem_itemsOfBatch.mpr ⟨hi, hid.symm⟩
  have evidence : ∀ other ∈ itemsOfBatch w.state batch.id, Evidence hash w.state batch other := by
    intro other hother
    obtain ⟨hm, hsame⟩ := mem_itemsOfBatch.mp hother
    obtain ⟨own, hown, hacc⟩ := h.items other hm
    rw [hsame, hid, hb] at hown
    cases hown
    exact hacc.evidence (resumable_begun hopen)
  obtain ⟨db', authority, recorded, hstart⟩ := startBatch_resumes hb hopen sound evidence
    (ne_nil_of_mem hmine) fresh user correlationId
  let command := legacyBatchCommand hash batch (itemsOfBatch w.state batch.id) authority user
    correlationId
  have hchannel : ∀ i ∈ command.intents, i.channelId = "woocommerce:primary" := by
    intro i him
    obtain ⟨other, -, rfl⟩ := mem_map.mp him
    exact sound.channel
  have hfrom : legacyIntent hash batch authority item ∈ command.intents :=
    mem_map_of_mem hmine
  have hgrouped := grouped_single hchannel (ne_nil_of_mem hfrom)
  obtain ⟨next, fail, hasks⟩ := runChannels_verifies command fresh recorded
    (by decide : connectorFor legacyWorkflow "woocommerce:primary" = .ok ())
    fun results => finish item.batchId results now
  refine ⟨command, command.intents, next, fail,
    w.log (.commit (.startBatch item.batchId)) db', ?_, _, hfrom, hid, rfl⟩
  rw [← hasks, ← hgrouped]
  exact Step.transact hstart fun started =>
    (runChannels fresh started.command started.reconcileOnly started.recorded
      (grouped started.command.intents)).bind fun results => finish item.batchId results now

/-- As long as no `execute` ends with one item verified and another uncertain, an
uncertain item keeps its batch open, and `execute` verifies it. -/
theorem uncertain_item_reopens {db : Db} {w : World service} (noItems : db.writeItems = [])
    (noBatches : db.writeBatches = [])
    (run : Session (LegacyCall u digest hash) (.initial db) w) (unmixed : Unmixed w.past) :
    ∀ item ∈ w.state.writeItems, item.status = .reconciliationRequired →
      ∃ batch, batchOf w.state item.batchId = some batch ∧ resumable batch.status = true ∧
        Reopens hash w item := by
  intro item hi hs
  have inv := session_kept noItems noBatches run unmixed
  obtain ⟨batch, hb, hacc⟩ := inv.items item hi
  have hopen := hacc.isOpen hs
  exact ⟨batch, hb, hopen, inv.reopens hi hb hopen⟩

namespace Sample

/-- The provider confirms product 7 and loses track of every other one. -/
def confirmsOnly7 : Surroundings service where
  refuse _ _ := none
  answer _
    | .acquire _ | .transportReports _ _ => .ok ()
    | .readLive _ _ => .ok ⟨none, true⟩
    | .applyUpdates _ _ intents | .verifyUpdates _ _ intents =>
      .ok (intents.map fun i =>
        { listingId := i.listingId
          outcome := if i.externalPrimaryId = "7" then .verifiedApplied
            else .reconciliationRequired })

def executed (products : List String) (rowIds : List String) : World service :=
  let dryRun := (replay confirmsOnly7 9
    (createDryRun .ascii plainDigest plainHash "batch" (request rowIds) user 1)
    (.initial (shop (products.map firstPrice)))).2
  let approved := (replay confirmsOnly7 9 (approve plainHash "batch" user 2) dryRun).2
  (replay confirmsOnly7 20 (execute plainHash fresh "batch" user "corr" 3) approved).2

theorem executed_session (products rowIds : List String) : Session (LegacyCall .ascii plainDigest plainHash)
      (.initial (shop (products.map firstPrice))) (executed products rowIds) :=
  (((Session.start _).call (.dryRun ..) (replay_steps ..)).call (.approve ..)
    (replay_steps ..)).call (.execute ..) (replay_steps ..)

def bothRows : World service := executed ["7", "8"] ["row0", "row1"]

def secondRow : World service := executed ["7", "8"] ["row1"]

end Sample

open Sample

/-- One row confirmed and one lost: the batch is closed over an uncertain item. -/
theorem mixed_batch_closed : Session (LegacyCall .ascii plainDigest plainHash)
      (.initial (shop (["7", "8"].map firstPrice))) bothRows ∧
    bothRows.state.writeItems.map (fun i => (i.channelProductId, i.status)) =
      [("7", .applied), ("8", .reconciliationRequired)] ∧
    (batchOf bothRows.state "batch").map (fun b => (b.status, resumable b.status)) =
      some (.partiallyFailed, false) ∧
    admitBatch plainHash "batch" bothRows.state =
      .error (.httpException 409 "Apply requires a separate approved Dry Run.") :=
  ⟨executed_session _ _, by decide +kernel, by decide +kernel, by decide +kernel⟩

theorem uncertain_item_reopens_second_row :
    ∃ item ∈ secondRow.state.writeItems, item.status = .reconciliationRequired ∧
      ∃ batch, batchOf secondRow.state item.batchId = some batch ∧
        resumable batch.status = true ∧ Reopens plainHash secondRow item := by
  have hmem : ∃ item ∈ secondRow.state.writeItems, item.status = .reconciliationRequired := by decide +kernel
  have unmixed : ∀ e ∈ secondRow.past, mixedFinish e = false := by decide +kernel
  obtain ⟨item, hi, hs⟩ := hmem
  exact ⟨item, hi, hs, uncertain_item_reopens rfl rfl (executed_session _ _) unmixed item hi hs⟩

end FlowHub.WritePipeline
