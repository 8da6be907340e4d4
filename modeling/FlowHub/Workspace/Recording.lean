import FlowHub.Workspace.Effects

namespace FlowHub.Workspace

open Python Txn WritePipeline List

def lastResult (results : List WorkspaceWriteResult) (listingId : Id) : Option WorkspaceWriteResult :=
  results.reverse.find? fun r => decide (r.listingId = listingId)

theorem lastResult_cons (result : WorkspaceWriteResult) (rest : List WorkspaceWriteResult)
    (listingId : Id) : lastResult (result :: rest) listingId =
      (lastResult rest listingId).or (if result.listingId = listingId then some result else none) := by
  unfold lastResult
  rw [reverse_cons, find?_append]
  congr 1
  by_cases h : result.listingId = listingId
  · simp [h]
  · simp [h]

/-- What the last result for the Listing of an item says. -/
def itemOutcome (db : Db) (results : List WorkspaceWriteResult) (item : ApplyJobItem) : Option WriteOutcome :=
  (Table.get ReviewItem.id db.reviewItems item.reviewItemId).bind fun row =>
    (lastResult results row.listingId).map (·.outcome)

/-- Only items of one job and cache rows differ, and every item is the one it was. -/
def Reworks (jobId : Id) (s t : Db) : Prop :=
  ∃ (g : ApplyJobItem → ApplyJobItem) (cache : List ChannelCache),
    (∀ i, (g i).id = i.id ∧ (g i).applyJobId = i.applyJobId ∧ (g i).reviewItemId = i.reviewItemId) ∧
    (∀ i ∈ s.applyJobItems, i.applyJobId ≠ jobId → g i = i) ∧
    t = { s with applyJobItems := s.applyJobItems.map g, channelCache := cache }

section

variable {hash : Hashing} {db db' s t r : Db} {jobId : Id} {job : ApplyJob} {now : Time}
  {rows affected : List ReviewItem} {status : ItemStatus}

theorem Reworks.refl (jobId : Id) (s : Db) : Reworks jobId s s :=
  ⟨id, s.channelCache, fun _ => ⟨rfl, rfl, rfl⟩, fun _ _ _ => rfl, by rw [map_id]⟩

theorem Reworks.trans (h : Reworks jobId s t) (k : Reworks jobId t r) : Reworks jobId s r := by
  obtain ⟨f, _, hkeeps, hothers, rfl⟩ := h
  obtain ⟨g, cache, kkeeps, kothers, rfl⟩ := k
  refine ⟨g ∘ f, cache, fun i => ⟨?_, ?_, ?_⟩, fun i hi hjob => ?_, by simp only [map_map]⟩
  · exact (kkeeps _).1.trans (hkeeps i).1
  · exact (kkeeps _).2.1.trans (hkeeps i).2.1
  · exact (kkeeps _).2.2.trans (hkeeps i).2.2
  · have hsame : f i = i := hothers i hi hjob
    have hmem : i ∈ s.applyJobItems.map f := mem_map.mpr ⟨i, hi, hsame⟩
    rw [Function.comp_apply, hsame]
    exact kothers i hmem hjob

theorem Recorded.reworks (h : Recorded jobId affected status s t) : Reworks jobId s t := by
  obtain ⟨g, cache, hg, rfl⟩ := h
  exact ⟨g, cache, hg.keeps, fun i _ hjob => hg.others i fun hboth => hjob hboth.1, rfl⟩

/-- Results recorded one after the other, each for the rows of its Listing. -/
inductive Recording (jobId : Id) (rows : List ReviewItem) (as : WriteOutcome → ItemStatus) :
    List WorkspaceWriteResult → Db → Db → Prop
  | nil (s : Db) : Recording jobId rows as [] s s
  | cons {result : WorkspaceWriteResult} {rest : List WorkspaceWriteResult} {s m t : Db} :
      Recorded jobId (rows.filter fun i => decide (i.listingId = result.listingId))
        (as result.outcome) s m →
      Recording jobId rows as rest m t → Recording jobId rows as (result :: rest) s t

variable {as : WriteOutcome → ItemStatus} {results : List WorkspaceWriteResult}

theorem Recording.reworks (h : Recording jobId rows as results s t) : Reworks jobId s t := by
  induction h with
  | nil s => exact .refl _ s
  | cons h _ ih => exact h.reworks.trans ih

theorem recordAll_recording {t : Tally} (h : recordAll hash job items now results db t = .ok (db', t')) :
    Recording job.id items outcomeStatus results db db' := by
  induction results generalizing db t with
  | nil =>
    cases h
    exact .nil _
  | cons result rest ih =>
    obtain ⟨⟨next, t''⟩, hresult, hrest⟩ := bind_eq_ok.mp h
    exact .cons (recordResult_recorded hresult) (ih hrest)

/-- The status a reconciliation gives the items of a result's Listing. -/
def reconciledStatus : WriteOutcome → ItemStatus
  | .verifiedApplied => .applied
  | _ => .reconciliationRequired

theorem reconciledStatus_other (h : outcome ≠ .verifiedApplied) :
    reconciledStatus outcome = .reconciliationRequired := by
  unfold reconciledStatus
  split
  · exact absurd rfl h
  · rfl

theorem recordReconciled_recording (h : recordReconciled hash job items now results db = .ok db') :
    Recording job.id items reconciledStatus results db db' := by
  induction results generalizing db with
  | nil =>
    cases h
    exact .nil _
  | cons result rest ih =>
    unfold recordReconciled at h
    split at h
    · rename_i houtcome
      obtain ⟨next, hresult, hrest⟩ := bind_eq_ok.mp h
      refine .cons ?_ (ih hrest)
      rw [houtcome]
      exact recordListingSuccess_recorded hresult
    · rename_i houtcome
      obtain ⟨next, hresult, hrest⟩ := bind_eq_ok.mp h
      refine .cons ?_ (ih hrest)
      rw [reconciledStatus_other houtcome]
      exact updateJobItems_recorded (unreconciled_writes _ _ _) hresult

/-- An item of a row ends up with what the last result for the row's Listing makes of it. -/
theorem Recording.item (h : Recording jobId rows as results s t)
    (unique : ∀ r ∈ rows, r.id = row.id → r = row) (hrow : row ∈ rows)
    (hi : i ∈ s.applyJobItems) (own : i.applyJobId = jobId) (hid : i.reviewItemId = row.id) :
    ∃ i' ∈ t.applyJobItems, i'.applyJobId = jobId ∧ i'.status =
      ((lastResult results row.listingId).map fun r => as r.outcome).getD i.status := by
  induction h generalizing i with
  | nil s => exact ⟨i, hi, own, rfl⟩
  | @cons result rest s m t hfirst _ ih =>
    obtain ⟨g, cache, hg, rfl⟩ := hfirst
    have hmem : g i ∈ s.applyJobItems.map g := mem_map_of_mem hi
    obtain ⟨i', hi', hjob, hstatus⟩ := ih hmem ((hg.keeps i).2.1.trans own)
      ((hg.keeps i).2.2.trans hid)
    refine ⟨i', hi', hjob, hstatus.trans ?_⟩
    rw [lastResult_cons]
    by_cases hlisting : row.listingId = result.listingId
    · have hin : row.id ∈ (rows.filter fun i => decide (i.listingId = result.listingId)).map
          ReviewItem.id :=
        mem_map_of_mem (mem_filter.mpr ⟨hrow, decide_eq_true hlisting⟩)
      rw [hg.marked i own (hid ▸ hin), if_pos hlisting.symm]
      cases lastResult rest row.listingId with
      | none => rfl
      | some r => rfl
    · have hsame : g i = i := by
        refine hg.others i fun hboth => ?_
        obtain ⟨r, hr, hrid⟩ := mem_map.mp hboth.2
        obtain ⟨hr, hrlisting⟩ := mem_filter.mp hr
        obtain rfl := unique r hr (hrid.trans hid)
        exact hlisting (of_decide_eq_true hrlisting)
      rw [hsame, if_neg (Ne.symm hlisting), Option.or_none]

/-- An item of none of the rows is left as it is. -/
theorem Recording.untouched (h : Recording jobId rows as results s t)
    (hi : i ∈ s.applyJobItems) (hid : ∀ row ∈ rows, row.id ≠ i.reviewItemId) :
    i ∈ t.applyJobItems := by
  induction h with
  | nil s => exact hi
  | cons hfirst _ ih =>
    obtain ⟨g, cache, hg, rfl⟩ := hfirst
    refine ih (mem_map.mpr ⟨i, hi, hg.others i fun hboth => ?_⟩)
    obtain ⟨row, hrow, hrid⟩ := mem_map.mp hboth.2
    exact hid row (mem_filter.mp hrow).1 hrid

/-- Whatever holds of the items' statuses and of all that are recorded holds in the end. -/
theorem Recording.all (h : Recording jobId rows as results s t) {P : ItemStatus → Prop}
    (has : ∀ outcome, P (as outcome)) (hs : ∀ i ∈ s.applyJobItems, i.applyJobId = jobId → P i.status) :
    ∀ i ∈ t.applyJobItems, i.applyJobId = jobId → P i.status := by
  induction h with
  | nil s => exact hs
  | @cons result rest s m t hfirst _ ih =>
    obtain ⟨g, cache, hg, rfl⟩ := hfirst
    refine ih fun i hi own => ?_
    obtain ⟨j, hj, rfl⟩ := mem_map.mp hi
    have hjob : j.applyJobId = jobId := (hg.keeps j).2.1.symm.trans own
    by_cases hin : j.reviewItemId ∈
        (rows.filter fun i => decide (i.listingId = result.listingId)).map ReviewItem.id
    · rw [hg.marked j hjob hin]
      exact has _
    · rw [hg.others j fun hboth => hin hboth.2]
      exact hs j hj hjob

/-- What is counted as uncertain comes of a result for one of the rows. -/
theorem recordAll_tally {t : Tally} (h : recordAll hash job items now results db t = .ok (db', t'))
    (hpos : 0 < t'.reconciliation) : 0 < t.reconciliation ∨ ∃ r ∈ results,
      r.outcome = .reconciliationRequired ∧ ∃ i ∈ items, i.listingId = r.listingId := by
  induction results generalizing db t with
  | nil =>
    cases h
    exact .inl hpos
  | cons result rest ih =>
    obtain ⟨⟨next, m⟩, hresult, hrest⟩ := bind_eq_ok.mp h
    rcases ih hrest with hm | ⟨r, hr, houtcome, hi⟩
    · unfold recordResult at hresult
      split at hresult
      · obtain ⟨_, -, heq⟩ := map_eq_ok.mp hresult
        cases heq
        exact .inl hm
      · rename_i houtcome
        obtain ⟨_, -, heq⟩ := map_eq_ok.mp hresult
        cases heq
        rcases Nat.eq_zero_or_pos t.reconciliation with hzero | hpos
        · refine .inr ⟨result, mem_cons_self, houtcome, ?_⟩
          rw [hzero, Nat.zero_add] at hm
          obtain ⟨i, hi⟩ := exists_mem_of_length_pos hm
          obtain ⟨hi, hlisting⟩ := mem_filter.mp hi
          exact ⟨i, hi, of_decide_eq_true hlisting⟩
        · exact .inl hpos
      · obtain ⟨_, -, heq⟩ := map_eq_ok.mp hresult
        cases heq
        exact .inl hm
    · exact .inr ⟨r, mem_cons_of_mem _ hr, houtcome, hi⟩

end

end FlowHub.Workspace
