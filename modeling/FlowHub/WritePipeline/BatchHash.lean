import FlowHub.Related
import FlowHub.WritePipeline.SafetyGate
import Mathlib.Data.String.Basic

/-! What the batch hash tells of the rows it was made from. -/
namespace FlowHub.WritePipeline

open Python Txn List

section

variable {u : Unicode} {digest : PreviewHashing} {hash : Hashing}

/-- What `_source_fingerprint` makes of a source. -/
def joined (previewId sourceSnapshotId sourceSnapshotVersion sourceFilePath worksheet rowNumber : String) :
    String :=
  "|".intercalate [previewId, sourceSnapshotId, sourceSnapshotVersion, sourceFilePath, worksheet, rowNumber]

/-- Every source of a previewed row has the fingerprint that `_source_fingerprint` gives it. -/
def Fingerprinted (db : Db) : Prop :=
  ∀ preview ∈ db.previews, ∀ row ∈ preview.rows, ∀ change, row.dryRunChange = some change →
    ∀ source, change.source = some source → ∃ a b c d e f, source.fingerprint = joined a b c d e f

/-- The rows pass in whatever order they are read, and no other rows do. -/
def Integrity (hash : Hashing) (batch : WriteBatch) (approved : List HashedRow) : Prop :=
  (∀ db, ((itemsOfBatch db batch.id).map itemRow).Perm approved →
    assertBatchHashMatches hash db batch = .ok ()) ∧
  ∀ db, assertBatchHashMatches hash db batch = .ok () → ((itemsOfBatch db batch.id).map itemRow).Perm approved

variable {rows : List HashedRow} {batch : WriteBatch} {row : HashedRow} {db : Db} {batchId : Id}
  {now : Time}

theorem assertBatchHashMatches_ok : assertBatchHashMatches hash db batch = .ok () ↔
      batchHashFromRow hash batch (itemsOfBatch db batch.id) = batch.batchHash := by
  unfold assertBatchHashMatches
  by_cases h : batchHashFromRow hash batch (itemsOfBatch db batch.id) = batch.batchHash
  · simp [h]
  · simp [h]

theorem hashOfRows_congr (channelId operationType : String)
    (h : Forall₂ (fun a b => a.productId = b.productId ∧ a.text = b.text) rows rows') :
    hashOfRows hash channelId operationType rows = hashOfRows hash channelId operationType rows' := by
  let le := fun a b : HashedRow => a.productId ≤ b.productId
  have hle : ∀ a a' b b' : HashedRow, a.productId = a'.productId ∧ a.text = a'.text →
      b.productId = b'.productId ∧ b.text = b'.text → (le a b ↔ le a' b') := by
    intro a a' b b' ha hb
    simp [le, ha.1, hb.1]
  have hsorted := forall₂_insertionSort hle h
  unfold hashOfRows
  rw [forall₂_map_eq (hsorted.imp fun _ _ h => h.2)]

/-- Rows of different products have one hash in every order. -/
theorem hashOfRows_perm (channelId operationType : String)
    (hperm : rows.Perm approved) (hdistinct : (approved.map HashedRow.productId).Nodup) :
    hashOfRows hash channelId operationType rows = hashOfRows hash channelId operationType approved := by
  let le := fun a b : HashedRow => a.productId ≤ b.productId
  have total : Std.Total le := ⟨fun a b => le_total a.productId b.productId⟩
  have trans : IsTrans HashedRow le := ⟨fun _ _ _ => le_trans⟩
  have hsorted : rows.insertionSort le = approved.insertionSort le := by
    apply Perm.eq_of_pairwise _ (pairwise_insertionSort le rows)
      (pairwise_insertionSort le approved)
    · exact (perm_insertionSort le rows).trans (hperm.trans (perm_insertionSort le approved).symm)
    intro a b ha hb hab hba
    have ha := hperm.mem_iff.mp ((mem_insertionSort le).mp ha)
    have hb := (mem_insertionSort le).mp hb
    exact inj_on_of_nodup_map hdistinct ha hb (le_antisymm hab hba)
  unfold hashOfRows
  rw [hsorted]

/-- The row with the end of its fingerprint in its item type. -/
def HashedRow.shifted (row : HashedRow) (head rest : String) : HashedRow :=
  { row with sourceFingerprint := head, itemType := rest ++ "|" ++ row.itemType }

theorem HashedRow.shifted_text {head : String}
    (h : row.sourceFingerprint = head ++ "|" ++ rest) : (row.shifted head rest).text = row.text := by
  simp [HashedRow.text, HashedRow.shifted, h, String.intercalate_cons_cons, String.append_assoc]

/-- A stored item with the values of a row. -/
def HashedRow.item (batchId : Id) (row : HashedRow) : WriteItem where
  id := 0
  batchId := batchId
  channelProductId := row.productId
  sku := ""
  currentPrice := row.currentPrice
  proposedPrice := row.proposedPrice
  currency := row.currency
  itemType := row.itemType
  parentProductId := some row.parentProductId
  variationId := some row.variationId
  sourceFingerprint := row.sourceFingerprint

theorem itemsOfBatch_item (h : db.writeItems = rows.map (HashedRow.item batchId)) :
    (itemsOfBatch db batchId).map itemRow = rows := by
  have hall : itemsOfBatch db batchId = rows.map (HashedRow.item batchId) := by
    rw [itemsOfBatch, h]
    apply filter_eq_self.mpr
    intro item hitem
    obtain ⟨row, -, rfl⟩ := mem_map.mp hitem
    exact decide_eq_true rfl
  rw [hall, map_map]
  exact map_id rows

/-- A row with a joined fingerprint can be altered and keeps its text. -/
theorem not_integrity
    (hbatch : batch.batchHash = hashOfRows hash batch.channelId batch.operationType (row :: rest))
    (hjoined : row.sourceFingerprint = joined a b c d e f) :
    ¬ Integrity hash batch (row :: rest) := by
  intro h
  let tail := "|".intercalate [b, c, d, e, f]
  have hsplit : row.sourceFingerprint = a ++ "|" ++ tail := by
    simp [hjoined, joined, tail, String.intercalate_cons_cons, String.append_assoc]
  have htext := HashedRow.shifted_text hsplit
  let altered : Db := { writeItems := (row.shifted a tail :: rest).map (HashedRow.item batch.id) }
  have hrows : (itemsOfBatch altered batch.id).map itemRow = row.shifted a tail :: rest :=
    itemsOfBatch_item rfl
  have hpasses : assertBatchHashMatches hash altered batch = .ok () := by
    rw [assertBatchHashMatches_ok, batchHashFromRow, hrows, hbatch]
    apply hashOfRows_congr
    exact .cons ⟨rfl, htext⟩ (forall₂_same.mpr fun _ _ => ⟨rfl, rfl⟩)
  have hperm := h.2 altered hpasses
  rw [hrows] at hperm
  have hlengths := (hperm.map fun r => r.sourceFingerprint.length).sum_eq
  simp only [HashedRow.shifted, hsplit, map_cons, sum_cons, String.length_append,
    Nat.add_right_cancel_iff] at hlengths
  have hbar : "|".length = 1 := rfl
  omega

theorem selectedChange_ok (h : selectedChange u db preview rowId = .ok change) :
    ∃ row ∈ preview.rows, row.dryRunChange = some change := by
  unfold selectedChange at h
  split at h
  · cases h
  rename_i row hrow
  obtain ⟨-, h⟩ := guard_ok h
  split at h
  · cases h
  rename_i selected hselected
  obtain ⟨-, h⟩ := guard_ok h
  dsimp only at h
  split at h
  · cases h
  · split at h
    · exact ⟨row, (Table.get_some hrow).1, hselected.trans (congrArg some (Except.ok.inj h))⟩
    · cases h

/-- A selection is of previewed rows, at least one. -/
theorem validateSelection_ok (h : validateSelection u digest db previewId rowIds user now = .ok changes) :
    changes ≠ [] ∧ ∃ preview ∈ db.previews, ∀ change ∈ changes,
      ∃ row ∈ preview.rows, row.dryRunChange = some change := by
  unfold validateSelection at h
  split at h
  · cases h
  rename_i preview hpreview
  obtain ⟨-, h⟩ := guard_ok h
  obtain ⟨-, h⟩ := guard_ok h
  obtain ⟨hrows, h⟩ := guard_ok h
  obtain ⟨_, -, h⟩ := bind_eq_ok.mp h
  obtain ⟨-, h⟩ := guard_ok h
  have hpairs := mapM_ok.mp h
  constructor
  · rintro rfl
    cases hpairs
    exact hrows rfl
  · refine ⟨preview, (Table.get_some hpreview).1, ?_⟩
    intro change hchange
    obtain ⟨rowId, -, hselected⟩ := forall₂_left hpairs hchange
    exact selectedChange_ok hselected

/-- The batch is there with the hash of its rows, of which the first has a fingerprint. -/
def Opened (hash : Hashing) (batchId : Id) (db : Db) : Prop :=
  ∃ batch ∈ db.writeBatches, batch.id = batchId ∧ ∃ row rest,
    (itemsOfBatch db batchId).map itemRow = row :: rest ∧
    batch.batchHash = hashOfRows hash batch.channelId batch.operationType (row :: rest) ∧
    ∃ a b c d e f, row.sourceFingerprint = joined a b c d e f

theorem createDryRun_ok (hfingerprints : Fingerprinted w.state)
    (hitems : ∀ item ∈ w.state.writeItems, ∃ batch ∈ w.state.writeBatches, batch.id = item.batchId)
    (run : Steps (createDryRun u digest hash batchId request user now) w (.done ()) v) :
    Opened hash batchId v.state := by
  have hmeets : (createDryRun u digest hash batchId request user now).Meets .free
      (fun _ v => Opened hash batchId v.state) (fun _ _ => True) w :=
    Proc.Meets.transact ?_ fun _ _ _ => ⟨trivial, trivial⟩
  · exact run.returned trivial hmeets
  rintro _ rfl s _ hok
  obtain ⟨_, -, hok⟩ := bind_eq_ok.mp hok
  obtain ⟨changes, hselection, hok⟩ := bind_eq_ok.mp hok
  obtain ⟨_, hvalid, hok⟩ := bind_eq_ok.mp hok
  obtain ⟨db, hins, hok⟩ := bind_eq_ok.mp hok
  cases hok
  obtain ⟨hfree, batch, hid, -, -, -, hhash, rfl⟩ := insertBatch_ok hins
  obtain ⟨hne, preview, hpreview, hrows⟩ := validateSelection_ok hselection
  refine ⟨trivial, batch, by simp, hid, ?_⟩
  have hstored : (itemsOfBatch { w.state with
      writeBatches := w.state.writeBatches ++ [batch]
      writeItems := w.state.writeItems ++ newItems batchId (nextItemId w.state.writeItems) changes }
        batchId).map itemRow = changes.map changeRow := by
    have hold : w.state.writeItems.filter (fun i => decide (i.batchId = batchId)) = [] := by
      apply filter_eq_nil_iff.mpr
      intro item hitem
      obtain ⟨other, hother, hof⟩ := hitems item hitem
      have hother := Table.get_none.mp (Table.has_false.mp hfree) other hother
      rw [hof] at hother
      simpa using hother
    have hnew : (newItems batchId (nextItemId w.state.writeItems) changes).filter
        (fun i => decide (i.batchId = batchId)) = newItems batchId (nextItemId w.state.writeItems) changes := by
      apply filter_eq_self.mpr
      intro item hitem
      obtain ⟨change, -, id, -, rfl⟩ := mem_newItems hitem
      exact decide_eq_true rfl
    rw [itemsOfBatch, filter_append, hold, hnew, nil_append, newItems_rows]
  cases changes with
  | nil => exact absurd rfl hne
  | cons change rest =>
    refine ⟨changeRow change, rest.map changeRow, hstored, hhash, ?_⟩
    have hsource : ∃ source, change.source = some source := by
      obtain ⟨-, hvalid⟩ := guard_ok hvalid
      obtain ⟨-, hvalid⟩ := guard_ok hvalid
      obtain ⟨_, hall, -⟩ := bind_eq_ok.mp hvalid
      obtain ⟨hpreviewed, -⟩ := guard_ok (forM_ok hall change mem_cons_self)
      cases hsource : change.source with
      | none => simp [hsource] at hpreviewed
      | some source => exact ⟨source, rfl⟩
    obtain ⟨source, hsource⟩ := hsource
    obtain ⟨row, hrow, hchange⟩ := hrows change mem_cons_self
    have hjoined := hfingerprints preview hpreview row hrow change hchange source hsource
    simpa [changeRow, hsource] using hjoined

/-- No accepted Dry Run has a hash that only its own rows pass; rows of different products do pass. -/
theorem dry_run_integrity {request : DryRunRequest} {batchId : Id} {user : FlowHubUser} {now : Time}
    {w v : World service} (hfingerprints : Fingerprinted w.state)
    (hitems : ∀ item ∈ w.state.writeItems, ∃ batch ∈ w.state.writeBatches, batch.id = item.batchId)
    (run : Steps (createDryRun u digest hash batchId request user now) w (.done ()) v) :
    ∃ batch ∈ v.state.writeBatches, batch.id = batchId ∧
      let approved := (itemsOfBatch v.state batchId).map itemRow
      ¬ Integrity hash batch approved ∧
      ((approved.map HashedRow.productId).Nodup → ∀ db,
        ((itemsOfBatch db batch.id).map itemRow).Perm approved →
          assertBatchHashMatches hash db batch = .ok ()) := by
  obtain ⟨batch, hmem, hid, row, rest, hrows, hhash, a, b, c, d, e, f, hjoined⟩ :=
    createDryRun_ok hfingerprints hitems run
  refine ⟨batch, hmem, hid, ?_⟩
  rw [hrows]
  constructor
  · exact not_integrity hhash hjoined
  · intro hdistinct db hperm
    rw [assertBatchHashMatches_ok, batchHashFromRow, hhash]
    exact hashOfRows_perm _ _ hperm hdistinct

end

namespace Sample

/-- A first price of five from the second row of a sheet. -/
def sheetPrice : WritePipelinePriceChange :=
  { firstPrice "7" with source := some ⟨some "preview", joined "preview" "1" "" "" "Sheet" "2"⟩ }

def sheetDryRun : Program Unit × World service :=
  replay calm 9 (createDryRun .ascii plainDigest plainHash "batch" (request ["row0"]) user 1)
    (.initial (shop [sheetPrice]))

/-- A row of product 7. -/
def sheetRow (proposedPrice : ℚ) (sourceFingerprint itemType : String) : HashedRow :=
  ⟨"7", .ofRat 10, .ofRat proposedPrice, "EUR", sourceFingerprint, itemType, "", ""⟩

def sheetHash (rows : List HashedRow) : String :=
  hashOfRows plainHash "woocommerce:primary" "price_update" rows

theorem sheet_fingerprinted : Fingerprinted (shop [sheetPrice]) := by
  intro preview hpreview row hrow change hchange source hsource
  obtain rfl := mem_singleton.mp hpreview
  obtain rfl := mem_singleton.mp hrow
  cases hchange
  cases hsource
  exact ⟨_, _, _, _, _, _, rfl⟩

end Sample

open Sample

/-- A price changed in its fifth decimal passes, and so does a boundary moved between two texts; two rows
of one product in the other order do not. -/
theorem altered_price_passes : sheetHash [sheetRow (1000004 / 100000) "a|b" "simple"] =
        sheetHash [sheetRow (1000001 / 100000) "a|b" "simple"] ∧
      (sheetRow (1000004 / 100000) "a|b" "simple").proposedPrice ≠
        (sheetRow (1000001 / 100000) "a|b" "simple").proposedPrice ∧
    sheetHash [sheetRow 11 "a" "b|simple"] = sheetHash [sheetRow 11 "a|b" "simple"] ∧
    sheetHash [sheetRow 12 "a|b" "simple", sheetRow 11 "a|b" "simple"] ≠
      sheetHash [sheetRow 11 "a|b" "simple", sheetRow 12 "a|b" "simple"] := by
  decide +kernel

theorem dry_run_integrity_sheet : ∃ batch ∈ sheetDryRun.2.state.writeBatches, batch.id = "batch" ∧
      let approved := (itemsOfBatch sheetDryRun.2.state "batch").map itemRow
      ¬ Integrity plainHash batch approved ∧
      ((approved.map HashedRow.productId).Nodup → ∀ db,
        ((itemsOfBatch db batch.id).map itemRow).Perm approved →
          assertBatchHashMatches plainHash db batch = .ok ()) :=
  dry_run_integrity sheet_fingerprinted (fun _ h => by cases h)
    (replay_done () (by decide +kernel : sheetDryRun.1.result.isSome = true))

end FlowHub.WritePipeline
