import FlowHub.WritePipeline.LegacyBatch

namespace FlowHub.WritePipeline

open Python Txn List Except

variable {u : Unicode} {digest : PreviewHashing} {hash : Hashing}

/-- The calls of the legacy Write Pipeline API. -/
inductive LegacyCall (u : Unicode) (digest : PreviewHashing) (hash : Hashing) : Program Unit → Prop
  | dryRun (batchId request user now) :
      LegacyCall u digest hash (createDryRun u digest hash batchId request user now)
  | approve (batchId user now) : LegacyCall u digest hash (approve hash batchId user now)
  | execute (fresh batchId user correlationId now) :
      LegacyCall u digest hash (execute hash fresh batchId user correlationId now)

/-- Dispatching leaves the batch tables alone. -/
theorem Appends.batches (h : Appends s t) :
    t.writeBatches = s.writeBatches ∧ t.writeItems = s.writeItems ∧ s.attempts ⊆ t.attempts := by
  obtain ⟨attempts, events, heads, rfl⟩ := h
  exact ⟨rfl, rfl, subset_append_left _ _⟩

variable {batchId : Id} {batch : WriteBatch} {db db' : Db}

theorem getBatch_ok (h : getBatch db batchId = .ok batch) :
    Table.get WriteBatch.id db.writeBatches batchId = some batch := by
  unfold getBatch at h
  split at h
  · rename_i hb
    rw [hb, ok.inj h]
  · cases h

theorem guard_ok [Decidable p] {x : Except Fault α}
    (h : (if p then .error e else x) = .ok a) : ¬p ∧ x = .ok a := by
  split at h
  · cases h
  · exact ⟨‹_›, h⟩

theorem insertBatch_ok {request : DryRunRequest}
    {user : FlowHubUser} {changes : List WritePipelinePriceChange}
    (h : insertBatch hash batchId request user changes db = .ok db') :
    Table.has WriteBatch.id db.writeBatches batchId = false ∧
      ∃ batch : WriteBatch, batch.id = batchId ∧ batch.status = .dryRunReady ∧
        batch.channelId = "woocommerce:primary" ∧ batch.operationType = "price_update" ∧
        batch.batchHash = hashOfRows hash batch.channelId batch.operationType
          (changes.map changeRow) ∧
        db' = { db with
          writeBatches := db.writeBatches ++ [batch]
          writeItems := db.writeItems ++ newItems batchId (nextItemId db.writeItems) changes } := by
  obtain ⟨hfree, hok⟩ := guard_ok h
  exact ⟨by simpa using hfree, _, rfl, rfl, rfl, rfl, rfl, (ok.inj hok).symm⟩

theorem mem_newItems (h : item ∈ newItems batchId n changes) :
    ∃ change ∈ changes, ∃ id, n ≤ id ∧ item = newItem batchId id change := by
  induction changes generalizing n with
  | nil => simp [newItems] at h
  | cons change rest ih =>
    rcases mem_cons.mp h with rfl | h
    · exact ⟨change, mem_cons_self .., n, le_refl n, rfl⟩
    · obtain ⟨c, hc, id, hid, rfl⟩ := ih h
      exact ⟨c, mem_cons_of_mem _ hc, id, by omega, rfl⟩

theorem newItems_rows (batchId : Id) (n : Nat) (changes : List WritePipelinePriceChange) :
    (newItems batchId n changes).map itemRow = changes.map changeRow := by
  induction changes generalizing n with
  | nil => rfl
  | cons change rest ih => simp only [newItems, map_cons, ih, newItem, itemRow, changeRow]

@[simp] theorem legacyBatchCommand_workflow (batch : WriteBatch) (items : List WriteItem)
    (authority : ChannelPricingAuthorityHead) (user : FlowHubUser) (correlationId : String) :
    (legacyBatchCommand hash batch items authority user correlationId).workflow = legacyWorkflow := rfl

theorem admitBatch_ok (h : admitBatch hash batchId db = .ok batch) :
    Table.get WriteBatch.id db.writeBatches batchId = some batch ∧
      (batch.status = .approved ∨ resumable batch.status = true) := by
  obtain ⟨b, hb, h⟩ := bind_eq_ok.mp h
  obtain ⟨hs, h⟩ := guard_ok h
  obtain ⟨_, _, h⟩ := bind_eq_ok.mp h
  obtain ⟨_, _, h⟩ := bind_eq_ok.mp h
  obtain rfl := ok.inj h
  refine ⟨getBatch_ok hb, ?_⟩
  cases hr : resumable b.status with
  | true => exact .inr rfl
  | false => exact .inl (by_contra fun hne => hs ⟨hne, hr⟩)

theorem batchAuthority_ok (h : batchAuthority fresh batch db = .ok (db', authority)) :
    ∃ channels heads, db' = { db with channels := channels, authorityHeads := heads } := by
  have hseed : ∃ channels, ensureAuthorityChannel db batch.channelId = { db with channels := channels } := by
    unfold ensureAuthorityChannel
    split <;> exact ⟨_, rfl⟩
  obtain ⟨channels, hchannels⟩ := hseed
  unfold batchAuthority at h
  rw [hchannels] at h
  split at h
  · cases h
  rename_i seeded hs
  cases h
  unfold PricingAuthority.snapshot at hs
  split at hs
  · cases hs
    exact ⟨_, _, rfl⟩
  · split at hs
    · cases hs
      exact ⟨_, _, rfl⟩
    · cases hs

/-- The first transaction of `execute`: the batch is executing, and its intents are
its stored rows. -/
theorem startBatch_ok (h : startBatch hash fresh batchId user correlationId db = .ok (db', started)) :
    ∃ batch authority channels heads, admitBatch hash batchId db = .ok batch ∧ started.command =
        legacyBatchCommand hash batch (itemsOfBatch db batch.id) authority user correlationId ∧
      started.reconcileOnly = (resumable batch.status && hasAttempts db batch.id) ∧
      recordIntents legacyWorkflow started.reconcileOnly fresh.attempt 0 started.command.intents
        { markExecuting batch db with channels := channels, authorityHeads := heads } {} =
        .ok (db', started.recorded) := by
  obtain ⟨batch, hbatch, h⟩ := bind_eq_ok.mp h
  obtain ⟨⟨seeded, authority⟩, hauth, h⟩ := bind_eq_ok.mp h
  obtain ⟨channels, heads, rfl⟩ := batchAuthority_ok hauth
  obtain ⟨_, _, h⟩ := bind_eq_ok.mp h
  obtain ⟨⟨db₁, recorded⟩, hrec, h⟩ := bind_eq_ok.mp h
  cases h
  exact ⟨batch, authority, channels, heads, hbatch, rfl, rfl, hrec⟩

namespace Sample

theorem five_le : (5 : ℕ) ≤ 2 ^ 53 := by norm_num

/-- A row that asks for a first price of five. -/
def firstPrice (productId : String) : WritePipelinePriceChange where
  productId := productId
  currentPrice := .zero
  proposedPrice := .ofNat 5 five_le
  source := some { previewId := some "preview", fingerprint := "preview" }
  eligibleForDryRun := true

def plainDigest : PreviewHashing where
  row r := r.id
  preview p _ := p.id

def plainHash : Hashing where
  text := id
  json _ := "json"

def user : FlowHubUser := ⟨1, "operator", "admin"⟩

def previewOf (changes : List WritePipelinePriceChange) : DlWorkspacePreview where
  id := "preview"
  sourceId := "source"
  sourceSnapshotId := 1
  sourceIntegrityHash := "integrity"
  ownerUserId := 1
  previewHash := "preview"
  rows := changes.mapIdx fun n c => ⟨"row" ++ toString n, true, false, some c⟩
  rowHashes := changes.mapIdx fun n _ => ("row" ++ toString n, "row" ++ toString n)
  expiresAt := 10

def shop (changes : List WritePipelinePriceChange) : Db where
  channels := [{ id := "woocommerce:primary" }]
  previews := [previewOf changes]
  sourceSnapshots := [⟨1, "integrity"⟩]
  productCache := (changes.map (·.productId)).dedup.map fun productId =>
    { connectorId := "woocommerce:primary", productId := productId, exists_ := true,
      regularPrice := some "0" }
  connectorInstances := [⟨"woocommerce:primary", false⟩]

def request (rowIds : List String) : DryRunRequest where
  previewId := "preview"
  selectedRowIds := rowIds

end Sample

end FlowHub.WritePipeline
