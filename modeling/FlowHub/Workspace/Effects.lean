import FlowHub.WritePipeline.Spec
import FlowHub.Workspace.Apply

namespace FlowHub.Workspace

open Python Txn WritePipeline List

/-- What of a job is there from the start and stays. -/
def identity (job : ApplyJob) : ApplyJob :=
  { job with
    status := .pending
    startedAt := none
    heartbeatAt := none
    workerId := none
    fencingToken := 0
    leaseToken := none
    leaseExpiresAt := none
    recoveryAttempts := 0
    completedAt := none }

def identities (db : Db) : List ApplyJob := db.applyJobs.map identity

/-- Only jobs, their items, cache rows and locks differ, and every job is the one it was. -/
structure Progress (s t : Db) : Prop where
  jobs : identities t = identities s
  rest : ∃ jobs items cache locks, t = { s with
    applyJobs := jobs, applyJobItems := items, channelCache := cache, workspaceLocks := locks }

theorem Progress.refl (s : Db) : Progress s s := ⟨rfl, _, _, _, _, rfl⟩

variable {r : Db}

theorem Progress.trans (h : Progress s t) (k : Progress t r) : Progress s r := by
  obtain ⟨_, _, _, _, rfl⟩ := h.rest
  obtain ⟨_, _, _, _, rfl⟩ := k.rest
  exact ⟨k.jobs.trans h.jobs, _, _, _, _, rfl⟩

/-- Only items of jobs and cache rows differ. -/
def ItemsOnly (s t : Db) : Prop :=
  ∃ items cache, t = { s with applyJobItems := items, channelCache := cache }

theorem ItemsOnly.refl (s : Db) : ItemsOnly s s := ⟨_, _, rfl⟩

theorem ItemsOnly.trans (h : ItemsOnly s t) (k : ItemsOnly t r) : ItemsOnly s r := by
  obtain ⟨_, _, rfl⟩ := h
  obtain ⟨_, _, rfl⟩ := k
  exact ⟨_, _, rfl⟩

theorem ItemsOnly.progress (h : ItemsOnly s t) : Progress s t := by
  obtain ⟨_, _, rfl⟩ := h
  exact ⟨rfl, _, _, _, _, rfl⟩

section

variable {hash : Hashing} {jobId : Id} {now : Time}

theorem updateJob_progress (db : Db) (jobId : Id)
    (hf : ∀ j, identity (f j) = identity j) : Progress db (updateJob db jobId f) := by
  refine ⟨?_, _, _, _, _, rfl⟩
  simp only [identities, updateJob, Table.set, map_map]
  refine map_congr_left fun j _ => ?_
  simp only [Function.comp_apply]
  split
  · exact hf j
  · rfl

theorem releaseListingLocks_progress (db : Db) (jobId : Id) :
    Progress db (releaseListingLocks db jobId) := ⟨rfl, _, _, _, _, rfl⟩

/-- An update of the items of a job that are for these Review items. -/
structure Marks (jobId : Id) (ids : List Id) (status : ItemStatus)
    (g : ApplyJobItem → ApplyJobItem) : Prop where
  keeps : ∀ i, (g i).id = i.id ∧ (g i).applyJobId = i.applyJobId ∧ (g i).reviewItemId = i.reviewItemId
  marked : ∀ i, i.applyJobId = jobId → i.reviewItemId ∈ ids → (g i).status = status
  others : ∀ i, ¬(i.applyJobId = jobId ∧ i.reviewItemId ∈ ids) → g i = i

/-- An item is written, and is of the same job and for the same Review item. -/
def Writes (status : ItemStatus) (f : ApplyJobItem → ApplyJobItem) : Prop :=
  ∀ i, (f i).id = i.id ∧ (f i).applyJobId = i.applyJobId ∧ (f i).reviewItemId = i.reviewItemId ∧
    (f i).status = status

theorem succeeded_writes (job : ApplyJob) (result : WorkspaceWriteResult) (now : Time) :
    Writes .applied (succeeded job result now) := fun _ => ⟨rfl, rfl, rfl, rfl⟩

theorem failedItem_writes (job : ApplyJob) (result : WorkspaceWriteResult) (now : Time) :
    Writes .failed (failedItem job result now) := fun _ => ⟨rfl, rfl, rfl, rfl⟩

theorem unreconciled_writes (job : ApplyJob) (result : WorkspaceWriteResult) (now : Time) :
    Writes .reconciliationRequired (unreconciled job result now) := fun _ => ⟨rfl, rfl, rfl, rfl⟩

variable {status : ItemStatus} {affected : List ReviewItem}

theorem updateJobItem_marks (hf : Writes status f) (h : updateJobItem db jobId reviewItemId f = .ok db') :
    ∃ g, Marks jobId [reviewItemId] status g ∧ db' = { db with applyJobItems := db.applyJobItems.map g } := by
  unfold updateJobItem at h
  split at h
  · cases h
    refine ⟨_, ⟨fun i => ?_, fun i hjob hitem => ?_, fun i hnot => ?_⟩, rfl⟩
    · split
      · exact ⟨(hf i).1, (hf i).2.1, (hf i).2.2.1⟩
      · exact ⟨rfl, rfl, rfl⟩
    · rw [if_pos ⟨hjob, mem_singleton.mp hitem⟩]
      exact (hf i).2.2.2
    · refine if_neg fun hboth => hnot ⟨hboth.1, ?_⟩
      exact mem_singleton.mpr hboth.2
  · cases h

variable {workerId token : String}

theorem Marks.comp (hf : Marks jobId ids status f) (hg : Marks jobId more status g) :
    Marks jobId (ids ++ more) status (g ∘ f) := by
  have hkeeps : ∀ i, ((g ∘ f) i).id = i.id ∧ ((g ∘ f) i).applyJobId = i.applyJobId ∧
      ((g ∘ f) i).reviewItemId = i.reviewItemId := fun i =>
    ⟨(hg.keeps _).1.trans (hf.keeps i).1, (hg.keeps _).2.1.trans (hf.keeps i).2.1,
      (hg.keeps _).2.2.trans (hf.keeps i).2.2⟩
  refine ⟨hkeeps, fun i hjob hitem => ?_, fun i hnot => ?_⟩
  · by_cases hmore : i.reviewItemId ∈ more
    · refine hg.marked (f i) ((hf.keeps i).2.1.trans hjob) ?_
      rwa [(hf.keeps i).2.2]
    · have hids : i.reviewItemId ∈ ids := (mem_append.mp hitem).resolve_right hmore
      have hsame : g (f i) = f i := by
        refine hg.others _ fun hboth => hmore ?_
        rw [← (hf.keeps i).2.2]
        exact hboth.2
      rw [Function.comp_apply, hsame]
      exact hf.marked i hjob hids
  · have hfirst : f i = i := hf.others i fun h => hnot ⟨h.1, mem_append_left _ h.2⟩
    rw [Function.comp_apply, hfirst]
    exact hg.others i fun h => hnot ⟨h.1, mem_append_right _ h.2⟩

theorem updateJobItems_marks (hf : Writes status f) (h : updateJobItems db jobId f items = .ok db') :
    ∃ g, Marks jobId (items.map (·.id)) status g ∧
      db' = { db with applyJobItems := db.applyJobItems.map g } := by
  induction items generalizing db with
  | nil =>
    cases h
    refine ⟨id, ⟨fun _ => ⟨rfl, rfl, rfl⟩, fun _ _ hbad => ?_, fun _ _ => rfl⟩, ?_⟩
    · cases hbad
    · rw [map_id]
  | cons item rest ih =>
    obtain ⟨next, hitem, hrest⟩ := bind_eq_ok.mp h
    obtain ⟨f', hf', rfl⟩ := updateJobItem_marks hf hitem
    obtain ⟨g, hg, rfl⟩ := ih hrest
    refine ⟨g ∘ f', hf'.comp hg, ?_⟩
    simp [map_map]

/-- What one result of a Listing makes of items and cache. -/
def Recorded (jobId : Id) (affected : List ReviewItem) (status : ItemStatus) (s t : Db) : Prop :=
  ∃ g cache, Marks jobId (affected.map (·.id)) status g ∧
    t = { s with applyJobItems := s.applyJobItems.map g, channelCache := cache }

theorem Recorded.itemsOnly (h : Recorded jobId affected status s t) : ItemsOnly s t := by
  obtain ⟨_, _, _, rfl⟩ := h
  exact ⟨_, _, rfl⟩

theorem updateJobItems_recorded (hf : Writes status f) (h : updateJobItems db jobId f affected = .ok db') :
    Recorded jobId affected status db db' := by
  obtain ⟨g, hg, rfl⟩ := updateJobItems_marks hf h
  exact ⟨g, _, hg, rfl⟩

theorem recordListingSuccess_recorded (h : recordListingSuccess hash job result affected now db = .ok db') :
    Recorded job.id affected .applied db db' := by
  obtain ⟨next, hitems, h⟩ := bind_eq_ok.mp h
  cases h
  obtain ⟨g, hg, rfl⟩ := updateJobItems_marks (succeeded_writes _ _ _) hitems
  exact ⟨g, _, hg, rfl⟩

/-- The status an Apply gives the items of a result's Listing. -/
def outcomeStatus : WriteOutcome → ItemStatus
  | .verifiedApplied => .applied
  | .reconciliationRequired => .reconciliationRequired
  | _ => .failed

theorem recordResult_recorded (h : recordResult hash job items now result db t = .ok (db', t')) :
    Recorded job.id (items.filter fun i => decide (i.listingId = result.listingId))
      (outcomeStatus result.outcome) db db' := by
  unfold recordResult at h
  split at h
  · rename_i houtcome
    obtain ⟨next, hnext, heq⟩ := map_eq_ok.mp h
    cases heq
    rw [houtcome]
    exact recordListingSuccess_recorded hnext
  · rename_i houtcome
    obtain ⟨next, hnext, heq⟩ := map_eq_ok.mp h
    cases heq
    rw [houtcome]
    exact updateJobItems_recorded (unreconciled_writes _ _ _) hnext
  · rename_i hnot hother
    obtain ⟨next, hnext, heq⟩ := map_eq_ok.mp h
    cases heq
    have hstatus : outcomeStatus result.outcome = .failed := by
      unfold outcomeStatus
      split
      · exact absurd ‹_› hnot
      · exact absurd ‹_› hother
      · rfl
    rw [hstatus]
    exact updateJobItems_recorded (failedItem_writes _ _ _) hnext

theorem recordAll_itemsOnly
    (h : recordAll hash job items now results db t = .ok (db', t')) : ItemsOnly db db' := by
  induction results generalizing db t with
  | nil =>
    cases h
    exact .refl _
  | cons result rest ih =>
    obtain ⟨⟨next, t''⟩, hresult, hrest⟩ := bind_eq_ok.mp h
    exact (recordResult_recorded hresult).itemsOnly.trans (ih hrest)

theorem recoverAttempt_itemsOnly
    (h : recoverAttempt hash job now attempt db = .ok (db', ids)) : ItemsOnly db db' := by
  unfold recoverAttempt at h
  dsimp only at h
  split at h
  · split at h
    · cases h
      exact .refl _
    · obtain ⟨next, hnext, heq⟩ := map_eq_ok.mp h
      cases heq
      exact (recordListingSuccess_recorded hnext).itemsOnly
  · cases h
    exact .refl _
  · cases h
    exact ⟨_, _, rfl⟩

theorem recoverAttempts_itemsOnly
    (h : recoverAttempts hash job now attempts db = .ok (db', ids)) : ItemsOnly db db' := by
  induction attempts generalizing db ids with
  | nil =>
    cases h
    exact .refl _
  | cons attempt rest ih =>
    obtain ⟨⟨next, itemIds⟩, hattempt, h⟩ := bind_eq_ok.mp h
    obtain ⟨⟨last, more⟩, hrest, h⟩ := bind_eq_ok.mp h
    cases h
    exact (recoverAttempt_itemsOnly hattempt).trans (ih hrest)

theorem markUncertain_itemsOnly (jobId : Id) (itemIds : List Id) (db : Db) :
    ItemsOnly db (markUncertain jobId itemIds db) := ⟨_, _, rfl⟩

theorem settleRecovered_progress (db : Db) (jobId : Id) (now : Time) :
    Progress db (settleRecovered jobId now db) := by
  unfold settleRecovered
  dsimp only
  split
  · exact updateJob_progress _ _ fun _ => rfl
  · refine Progress.trans ?_ (releaseListingLocks_progress _ _)
    exact updateJob_progress _ _ fun _ => rfl

theorem recoverJob_progress (h : recoverJob hash job workerId token now db = .ok db') : Progress db db' := by
  have hclaim := updateJob_progress db job.id (f := claimJobLease workerId token now) fun _ => rfl
  unfold recoverJob at h
  dsimp only at h
  split at h
  · cases h
    refine (hclaim.trans ?_).trans (releaseListingLocks_progress _ _)
    exact updateJob_progress _ _ fun _ => rfl
  · obtain ⟨⟨next, itemIds⟩, hattempts, h⟩ := bind_eq_ok.mp h
    cases h
    exact ((hclaim.trans (recoverAttempts_itemsOnly hattempts).progress).trans
      (markUncertain_itemsOnly _ _ _).progress).trans (settleRecovered_progress _ _ _)

theorem recoverJobIfStale_progress
    (h : recoverJobIfStale hash jobId workerId token now db = .ok db') : Progress db db' := by
  unfold recoverJobIfStale at h
  split at h
  · cases h
    exact .refl _
  · split at h
    · exact recoverJob_progress h
    · cases h
      exact .refl _

/-- A job whose worker is gone is recovered; any other is left alone. -/
def Recovers (hash : Hashing) (s t : Db) : Prop :=
  ∃ jobId workerId token now, recoverJobIfStale hash jobId workerId token now s = .ok t

theorem Recovers.progress (h : Recovers hash s t) : Progress s t := by
  obtain ⟨_, _, _, _, h⟩ := h
  exact recoverJobIfStale_progress h

theorem acquireLock_progress
    (h : acquireLock workspaceId jobId now channelId listingId db = .ok db') : Progress db db' := by
  unfold acquireLock at h
  obtain ⟨_, -, h⟩ := bind_eq_ok.mp h
  obtain ⟨_, -, h⟩ := bind_eq_ok.mp h
  split at h
  · cases h
    exact ⟨rfl, _, _, _, _, rfl⟩
  · obtain ⟨_, -, h⟩ := bind_eq_ok.mp h
    obtain ⟨_, -, h⟩ := bind_eq_ok.mp h
    cases h
    exact ⟨rfl, _, _, _, _, rfl⟩

theorem acquireLocks_progress
    (h : acquireLocks workspaceId jobId now scope db = .ok db') : Progress db db' := by
  induction scope generalizing db with
  | nil =>
    cases h
    exact .refl _
  | cons pair rest ih =>
    obtain ⟨next, hlock, hrest⟩ := bind_eq_ok.mp h
    exact (acquireLock_progress hlock).trans (ih hrest)

theorem recordOutcomes_progress
    (h : recordOutcomes hash fresh workerId a results db = .ok (db', t)) : Progress db db' := by
  obtain ⟨j, -, h⟩ := bind_eq_ok.mp h
  obtain ⟨_, -, h⟩ := bind_eq_ok.mp h
  obtain ⟨_, -, h⟩ := bind_eq_ok.mp h
  refine Progress.trans ?_ (recordAll_itemsOnly h).progress
  exact updateJob_progress _ _ fun _ => rfl

end

def Aged (r r' : Review) : Prop := r' = r ∨ ∃ now reason, r' = markStale now reason r

theorem Aged.trans (h : Aged a b) (k : Aged b c) : Aged a c := by
  rcases k with rfl | ⟨now, reason, rfl⟩
  · exact h
  · rcases h with rfl | ⟨_, _, rfl⟩
    · exact .inr ⟨now, reason, rfl⟩
    · exact .inr ⟨now, reason, rfl⟩

def draftPointer (d : Draft) : Draft := { d with status := .draft }

/-- What an Apply may do beside issuing its job: a Review can go stale and a Draft end up
applied, and nothing they consist of changes. -/
structure Undisturbed (s t : Db) : Prop where
  reviews : ∃ f, (∀ r, Aged r (f r)) ∧ t.reviews = s.reviews.map f
  drafts : t.drafts.map draftPointer = s.drafts.map draftPointer
  rest : ∃ attempts events heads reviews drafts jobs items cache locks, t = { s with
    attempts := attempts, attemptEvents := events, authorityHeads := heads, reviews := reviews
    drafts := drafts, applyJobs := jobs, applyJobItems := items, channelCache := cache
    workspaceLocks := locks }

theorem aged_refl (rows : List Review) : ∃ f, (∀ r, Aged r (f r)) ∧ rows = rows.map f :=
  ⟨id, fun _ => .inl rfl, (map_id rows).symm⟩

theorem Undisturbed.refl (s : Db) : Undisturbed s s :=
  ⟨aged_refl _, rfl, _, _, _, _, _, _, _, _, _, rfl⟩

variable {r : Db}

theorem Undisturbed.trans {s t : Db} (h : Undisturbed s t) (k : Undisturbed t r) : Undisturbed s r where
  reviews := by
    obtain ⟨f, hf, hreviews⟩ := h.reviews
    obtain ⟨g, hg, kreviews⟩ := k.reviews
    exact ⟨g ∘ f, fun a => (hf a).trans (hg _), by rw [kreviews, hreviews, map_map]⟩
  drafts := k.drafts.trans h.drafts
  rest := by
    obtain ⟨_, _, _, _, _, _, _, _, _, rfl⟩ := h.rest
    obtain ⟨_, _, _, _, _, _, _, _, _, rfl⟩ := k.rest
    exact ⟨_, _, _, _, _, _, _, _, _, rfl⟩

/-- It issues no job either. -/
structure Steady (s t : Db) : Prop extends Undisturbed s t where
  jobs : identities t = identities s

theorem Steady.refl (s : Db) : Steady s s := ⟨.refl s, rfl⟩

theorem Steady.trans (h : Steady s t) (k : Steady t r) : Steady s r :=
  ⟨h.toUndisturbed.trans k.toUndisturbed, k.jobs.trans h.jobs⟩

variable {s t : Db}

theorem Progress.steady (h : Progress s t) : Steady s t := by
  have hjobs := h.jobs
  obtain ⟨_, _, _, _, rfl⟩ := h.rest
  exact ⟨⟨aged_refl _, rfl, _, _, _, _, _, _, _, _, _, rfl⟩, hjobs⟩

theorem updateJob_steady (db : Db) (jobId : Id)
    (hf : ∀ j, identity (f j) = identity j) : Steady db (updateJob db jobId f) :=
  (updateJob_progress db jobId hf).steady

theorem Seeds.steady (h : Seeds s t) : Steady s t := by
  obtain ⟨_, rfl⟩ := h
  exact ⟨⟨aged_refl _, rfl, _, _, _, _, _, _, _, _, _, rfl⟩, rfl⟩

theorem Appends.steady (h : Appends s t) : Steady s t := by
  obtain ⟨_, _, _, rfl⟩ := h
  exact ⟨⟨aged_refl _, rfl, _, _, _, _, _, _, _, _, _, rfl⟩, rfl⟩

theorem markStale_steady (db : Db) (reviewId : Id) (now : Time) (reason : String) :
    Steady db (updateReview db reviewId (markStale now reason)) := by
  refine ⟨⟨⟨_, fun r => ?_, rfl⟩, rfl, _, _, _, _, _, _, _, _, _, rfl⟩, rfl⟩
  split
  · exact .inr ⟨now, reason, rfl⟩
  · exact .inl rfl

/-- A Review found stale is marked so, once the authority heads it was read by are there. -/
def Ages (s t : Db) : Prop :=
  ∃ seeded reviewId now reason, Seeds s seeded ∧ t = updateReview seeded reviewId (markStale now reason)

theorem Ages.steady (h : Ages s t) : Steady s t := by
  obtain ⟨_, _, _, _, hseeds, rfl⟩ := h
  exact (Seeds.steady hseeds).trans (markStale_steady _ _ _ _)

theorem markApplied_steady (db : Db) (workspaceId : Id) : Steady db (markApplied db workspaceId) := by
  refine ⟨⟨aged_refl _, ?_, _, _, _, _, _, _, _, _, _, rfl⟩, rfl⟩
  simp only [markApplied, Table.set, map_map]
  refine map_congr_left fun d _ => ?_
  simp only [Function.comp_apply]
  split
  · rfl
  · rfl

end FlowHub.Workspace
