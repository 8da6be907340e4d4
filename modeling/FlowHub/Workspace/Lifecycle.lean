import FlowHub.Workspace.Recording
import FlowHub.WritePipeline.Steps

namespace FlowHub.Workspace

open Python Txn WritePipeline List

/-- Only one job, its items and its locks differ, beside what no job is made of. Locks can
only go. -/
structure Touches (jobId : Id) (s t : Db) : Prop where
  jobs : ∃ f : ApplyJob → ApplyJob, (∀ j, (f j).id = j.id) ∧
    t.applyJobs = Table.set ApplyJob.id s.applyJobs jobId f
  items : ∃ g : ApplyJobItem → ApplyJobItem,
    (∀ i, (g i).id = i.id ∧ (g i).applyJobId = i.applyJobId ∧ (g i).reviewItemId = i.reviewItemId) ∧
    (∀ i ∈ s.applyJobItems, i.applyJobId ≠ jobId → g i = i) ∧
    t.applyJobItems = s.applyJobItems.map g
  locks : t.workspaceLocks ⊆ s.workspaceLocks
  attempts : t.attempts = s.attempts
  rows : t.reviewItems = s.reviewItems

/-- Jobs, their items, attempts and locks are left alone, and Review items stay unique. -/
structure Idle (s t : Db) : Prop where
  jobs : t.applyJobs = s.applyJobs
  items : t.applyJobItems = s.applyJobItems
  locks : t.workspaceLocks = s.workspaceLocks
  attempts : t.attempts = s.attempts
  rows : (s.reviewItems.map ReviewItem.id).Nodup → (t.reviewItems.map ReviewItem.id).Nodup

/-- An intent is a job's own: every item it stands for is one of the job's. -/
def Bears (db : Db) (jobId : Id) (intent : WorkspaceWriteIntent) : Prop :=
  intent.applyJobId = jobId ∧
    ∀ itemId ∈ intent.applyItemIds, ∃ i ∈ db.applyJobItems, i.id = itemId ∧ i.applyJobId = jobId

/-- Locks, items and attempts are of jobs there are, under ids of their own. -/
structure Rooted (db : Db) : Prop where
  locks : ∀ lock ∈ db.workspaceLocks, (db.applyJob lock.applyJobId).isSome = true
  items : ∀ i ∈ db.applyJobItems, (db.applyJob i.applyJobId).isSome = true
  distinct : (db.applyJobItems.map ApplyJobItem.id).Nodup
  rows : (db.reviewItems.map ReviewItem.id).Nodup
  attempts : ∀ a ∈ db.attempts, ∀ jobId, a.applyJobId = some jobId → Bears db jobId a.normalizedPayload

/-- A job that is at its end holds no lock. -/
def Freed (db : Db) (jobId : Id) : Prop :=
  (∀ job, db.applyJob jobId = some job → unfinished job.status = true) ∨
    ∀ lock ∈ db.workspaceLocks, lock.applyJobId ≠ jobId

/-- A job left to reconciliation has an item to reconcile. -/
def Reconcilable (db : Db) (jobId : Id) : Prop :=
  ∀ job, db.applyJob jobId = some job → job.status = .reconciliationRequired →
    ∃ i ∈ jobItems db jobId, uncertain i = true

section

variable {hash : Hashing} {s t r db db' : Db} {jobId : Id} {job : ApplyJob} {now : Time}

theorem Idle.refl (s : Db) : Idle s s := ⟨rfl, rfl, rfl, rfl, id⟩

theorem Seeds.idle (h : Seeds s t) : Idle s t := by
  obtain ⟨_, rfl⟩ := h
  exact ⟨rfl, rfl, rfl, rfl, id⟩

theorem Ages.idle (h : Ages s t) : Idle s t := by
  obtain ⟨_, _, _, _, ⟨_, rfl⟩, rfl⟩ := h
  exact ⟨rfl, rfl, rfl, rfl, id⟩

theorem Touches.refl (jobId : Id) (s : Db) : Touches jobId s s :=
  ⟨⟨id, fun _ => rfl, by simp [Table.set]⟩, ⟨id, fun _ => ⟨rfl, rfl, rfl⟩, fun _ _ _ => rfl, by rw [map_id]⟩,
    Subset.refl _, rfl, rfl⟩

theorem Touches.trans (h : Touches jobId s t) (k : Touches jobId t r) : Touches jobId s r where
  jobs := by
    obtain ⟨f, hf, hjobs⟩ := h.jobs
    obtain ⟨g, hg, kjobs⟩ := k.jobs
    refine ⟨g ∘ f, fun j => (hg _).trans (hf j), ?_⟩
    rw [kjobs, hjobs, Table.set_set hf]
  items := by
    obtain ⟨f, hkeeps, hothers, hitems⟩ := h.items
    obtain ⟨g, kkeeps, kothers, kitems⟩ := k.items
    refine ⟨g ∘ f, fun i => ⟨?_, ?_, ?_⟩, fun i hi hjob => ?_, ?_⟩
    · exact (kkeeps _).1.trans (hkeeps i).1
    · exact (kkeeps _).2.1.trans (hkeeps i).2.1
    · exact (kkeeps _).2.2.trans (hkeeps i).2.2
    · have hsame : f i = i := hothers i hi hjob
      rw [Function.comp_apply, hsame]
      refine kothers i ?_ hjob
      rw [hitems]
      exact mem_map.mpr ⟨i, hi, hsame⟩
    · rw [kitems, hitems, map_map]
  locks := Subset.trans k.locks h.locks
  attempts := k.attempts.trans h.attempts
  rows := k.rows.trans h.rows

theorem Reworks.touches (h : Reworks jobId s t) : Touches jobId s t := by
  obtain ⟨g, _, hkeeps, hothers, rfl⟩ := h
  exact ⟨⟨id, fun _ => rfl, by simp [Table.set]⟩, ⟨g, hkeeps, hothers, rfl⟩, Subset.refl _, rfl, rfl⟩

/-- What leaves the items alone. -/
theorem Touches.of_job (hf : ∀ j, (f j).id = j.id)
    (hjobs : t.applyJobs = Table.set ApplyJob.id s.applyJobs jobId f)
    (hitems : t.applyJobItems = s.applyJobItems) (hlocks : t.workspaceLocks ⊆ s.workspaceLocks)
    (hattempts : t.attempts = s.attempts) (hrows : t.reviewItems = s.reviewItems) :
    Touches jobId s t :=
  ⟨⟨f, hf, hjobs⟩, ⟨id, fun _ => ⟨rfl, rfl, rfl⟩, fun _ _ _ => rfl, by rw [hitems, map_id]⟩,
    hlocks, hattempts, hrows⟩

theorem updateJob_touches (s : Db) (jobId : Id) {f : ApplyJob → ApplyJob}
    (hf : ∀ j, (f j).id = j.id) : Touches jobId s (updateJob s jobId f) :=
  .of_job hf rfl rfl (Subset.refl _) rfl rfl

theorem releaseListingLocks_touches (s : Db) (jobId : Id) : Touches jobId s (releaseListingLocks s jobId) :=
  .of_job (f := id) (fun _ => rfl) (by simp [releaseListingLocks, Table.set]) rfl
    filter_sublist.subset rfl rfl

theorem Touches.applyJob (h : Touches jobId s t) : ∃ f : ApplyJob → ApplyJob,
    ∀ id, t.applyJob id = if id = jobId then (s.applyJob id).map f else s.applyJob id := by
  obtain ⟨f, hf, hjobs⟩ := h.jobs
  refine ⟨f, fun id => ?_⟩
  unfold Db.applyJob
  rw [hjobs, Table.get_set hf]
  by_cases hid : id = jobId
  · rw [if_pos hid, if_pos hid, hid]
  · rw [if_neg hid, if_neg hid]

theorem Touches.known (h : Touches jobId s t) (id : Id) :
    (t.applyJob id).isSome = (s.applyJob id).isSome := by
  obtain ⟨f, hf⟩ := h.applyJob
  rw [hf]
  split
  · exact Option.isSome_map
  · rfl

theorem Touches.jobItems_other (h : Touches jobId s t) (hother : other ≠ jobId) :
    jobItems t other = jobItems s other := by
  obtain ⟨g, hkeeps, hothers, hitems⟩ := h.items
  unfold jobItems
  rw [hitems, filter_map]
  have hfilter : s.applyJobItems.filter ((fun i => decide (i.applyJobId = other)) ∘ g) =
      s.applyJobItems.filter fun i => decide (i.applyJobId = other) := by
    refine filter_congr fun i _ => ?_
    rw [Function.comp_apply, (hkeeps i).2.1]
  rw [hfilter]
  have hsame : ∀ i ∈ s.applyJobItems.filter fun i => decide (i.applyJobId = other), g i = i := by
    intro i hi
    obtain ⟨hi, hjob⟩ := mem_filter.mp hi
    refine hothers i hi ?_
    rw [of_decide_eq_true hjob]
    exact hother
  rw [map_congr_left hsame, map_id']

theorem Touches.bears (h : Touches jobId s t) (k : Bears s other intent) : Bears t other intent := by
  obtain ⟨g, hkeeps, -, hitems⟩ := h.items
  refine ⟨k.1, fun itemId hmem => ?_⟩
  obtain ⟨i, hi, hid, hjob⟩ := k.2 itemId hmem
  refine ⟨g i, ?_, (hkeeps i).1.trans hid, (hkeeps i).2.1.trans hjob⟩
  rw [hitems]
  exact mem_map_of_mem hi

theorem Touches.rooted (h : Touches jobId s t) (k : Rooted s) : Rooted t := by
  obtain ⟨g, hkeeps, -, hitems⟩ := h.items
  refine ⟨fun lock hlock => ?_, fun i hi => ?_, ?_, ?_, fun a ha id hjob => ?_⟩
  · rw [h.known]
    exact k.locks lock (h.locks hlock)
  · rw [hitems] at hi
    obtain ⟨j, hj, rfl⟩ := mem_map.mp hi
    rw [h.known, (hkeeps j).2.1]
    exact k.items j hj
  · have hids : t.applyJobItems.map ApplyJobItem.id = s.applyJobItems.map ApplyJobItem.id := by
      rw [hitems, map_map]
      exact map_congr_left fun i _ => (hkeeps i).1
    rw [hids]
    exact k.distinct
  · rw [h.rows]
    exact k.rows
  · rw [h.attempts] at ha
    exact h.bears (k.attempts a ha id hjob)

theorem Touches.freed (h : Touches jobId s t) (end_ : Freed t jobId) (k : ∀ id, Freed s id)
    (id : Id) : Freed t id := by
  by_cases hid : id = jobId
  · rwa [hid]
  obtain ⟨f, hf⟩ := h.applyJob
  rcases k id with hopen | hnone
  · refine .inl fun job hjob => hopen job ?_
    rwa [hf, if_neg hid] at hjob
  · exact .inr fun lock hlock => hnone lock (h.locks hlock)

theorem Touches.reconcilable (h : Touches jobId s t) (end_ : Reconcilable t jobId)
    (k : ∀ id, Reconcilable s id) (id : Id) : Reconcilable t id := by
  by_cases hid : id = jobId
  · rwa [hid]
  obtain ⟨f, hf⟩ := h.applyJob
  intro job hjob hstatus
  rw [hf, if_neg hid] at hjob
  rw [h.jobItems_other hid]
  exact k id job hjob hstatus

/-- How the job stands that an update was for. -/
theorem updateJob_status {f : ApplyJob → ApplyJob} (hf : ∀ j, (f j).id = j.id)
    {P : ApplyState → Prop} (hP : ∀ j, P (f j).status) :
    ∀ job, (updateJob s jobId f).applyJob jobId = some job → P job.status := by
  intro job hjob
  unfold Db.applyJob updateJob at hjob
  rw [Table.get_set hf, if_pos rfl] at hjob
  obtain ⟨j, -, rfl⟩ := Option.map_eq_some_iff.mp hjob
  exact hP j

theorem releaseListingLocks_none (s : Db) (jobId : Id) :
    ∀ lock ∈ (releaseListingLocks s jobId).workspaceLocks, lock.applyJobId ≠ jobId :=
  fun _ hlock => of_decide_eq_true (mem_filter.mp hlock).2

theorem uncertain_of_status (h : applyStatusFromItems s jobId = .reconciliationRequired) :
    ∃ i ∈ jobItems s jobId, uncertain i = true := by
  unfold applyStatusFromItems at h
  dsimp only at h
  split at h
  · cases h
  split at h
  · rename_i hany
    exact any_eq_true.mp hany
  · split at h
    · cases h
    · cases h

theorem status_of_uncertain (h : ∃ i ∈ jobItems s jobId, uncertain i = true) :
    applyStatusFromItems s jobId = .reconciliationRequired := by
  obtain ⟨i, hi, hu⟩ := h
  unfold applyStatusFromItems
  rw [if_neg, if_pos (any_eq_true.mpr ⟨i, hi, hu⟩)]
  intro hall
  have happlied := all_eq_true.mp (Bool.and_eq_true_iff.mp hall).2 i hi
  rw [uncertain, of_decide_eq_true happlied] at hu
  cases hu

/-- With no item that failed or was cancelled, a job is applied or left to reconciliation. -/
theorem status_of_all (hne : jobItems s jobId ≠ [])
    (hall : ∀ i ∈ jobItems s jobId, i.status = .applied ∨ uncertain i = true) :
    applyStatusFromItems s jobId = .applied ∨ applyStatusFromItems s jobId = .reconciliationRequired := by
  by_cases hu : ∃ i ∈ jobItems s jobId, uncertain i = true
  · exact .inr (status_of_uncertain hu)
  left
  unfold applyStatusFromItems
  rw [if_pos]
  rw [Bool.and_eq_true_iff, Bool.not_eq_true', isEmpty_eq_false_iff, all_eq_true]
  refine ⟨hne, fun i hi => decide_eq_true ?_⟩
  exact (hall i hi).resolve_right fun h => hu ⟨i, hi, h⟩

/-- A recovery acts on items of the attempts it looks at, and these are the job's. -/
theorem recoverAttempts_reworks {attempts : List ProviderWriteAttempt} {ids : List Id}
    (own : ∀ a ∈ attempts, ∀ i ∈ db.applyJobItems, i.id ∈ a.normalizedPayload.applyItemIds →
      i.applyJobId = job.id)
    (h : recoverAttempts hash job now attempts db = .ok (db', ids)) : Reworks job.id db db' := by
  induction attempts generalizing db ids with
  | nil =>
    cases h
    exact .refl _ _
  | cons attempt rest ih =>
    obtain ⟨⟨next, itemIds⟩, hattempt, h⟩ := bind_eq_ok.mp h
    obtain ⟨⟨last, more⟩, hrest, h⟩ := bind_eq_ok.mp h
    cases h
    have hfirst : Reworks job.id db next := by
      unfold recoverAttempt at hattempt
      dsimp only at hattempt
      split at hattempt
      · split at hattempt
        · cases hattempt
          exact .refl _ _
        · obtain ⟨_, hnext, heq⟩ := map_eq_ok.mp hattempt
          cases heq
          exact (recordListingSuccess_recorded hnext).reworks
      · cases hattempt
        exact .refl _ _
      · cases hattempt
        refine ⟨_, _, fun i => ?_, fun i hi hjob => if_neg fun hboth => hjob ?_, rfl⟩
        · split
          · exact ⟨rfl, rfl, rfl⟩
          · exact ⟨rfl, rfl, rfl⟩
        · obtain ⟨j, hj, hid⟩ := mem_map.mp hboth.1
          obtain ⟨itemId, hmem, hget⟩ := mem_filterMap.mp hj
          have hitem := (Table.get_some hget).2
          refine own attempt mem_cons_self i hi ?_
          rwa [← hid, hitem]
    refine hfirst.trans (ih (fun a ha i hi hmem => ?_) hrest)
    obtain ⟨g, _, hkeeps, -, rfl⟩ := hfirst
    obtain ⟨j, hj, rfl⟩ := mem_map.mp hi
    rw [(hkeeps j).1] at hmem
    rw [(hkeeps j).2.1]
    exact own a (mem_cons_of_mem _ ha) j hj hmem

theorem markUncertain_reworks (jobId : Id) (itemIds : List Id) (db : Db) :
    Reworks jobId db (markUncertain jobId itemIds db) := by
  refine ⟨_, _, fun i => ?_, fun i _ hjob => if_neg fun h => hjob h.1, rfl⟩
  split
  · exact ⟨rfl, rfl, rfl⟩
  · exact ⟨rfl, rfl, rfl⟩

theorem settleRecovered_touches (jobId : Id) (now : Time) (db : Db) :
    Touches jobId db (settleRecovered jobId now db) ∧ Freed (settleRecovered jobId now db) jobId ∧
      Reconcilable (settleRecovered jobId now db) jobId := by
  unfold settleRecovered
  dsimp only
  split
  · rename_i hopen
    refine ⟨updateJob_touches _ _ (by exact fun _ => rfl), .inl fun job hjob => ?_, fun _ _ _ => ?_⟩
    · exact updateJob_status (P := fun st => unfinished st = true) (by exact fun _ => rfl)
        (by exact fun _ => congrArg unfinished hopen) job hjob
    · exact uncertain_of_status hopen
  · rename_i hended
    refine ⟨(updateJob_touches _ _ (by exact fun _ => rfl)).trans (releaseListingLocks_touches _ _),
      .inr (releaseListingLocks_none _ _), fun job hjob hopen => ?_⟩
    have hstatus : job.status ≠ .reconciliationRequired :=
      updateJob_status (P := fun st => st ≠ .reconciliationRequired) (by exact fun _ => rfl)
        (by exact fun _ => hended) job hjob
    exact absurd hopen hstatus

/-- A recovery touches the one job it is for, and leaves it freed and reconcilable. -/
theorem Recovers.touches (rooted : Rooted s) (h : Recovers hash s t) :
    t = s ∨ ∃ jobId, Touches jobId s t ∧ Freed t jobId ∧ Reconcilable t jobId := by
  obtain ⟨jobId, workerId, token, now, h⟩ := h
  unfold recoverJobIfStale at h
  split at h
  · exact .inl (Except.ok.inj h).symm
  rename_i job hjob
  split at h
  · refine .inr ⟨job.id, ?_⟩
    have hclaim := updateJob_touches s job.id (f := claimJobLease workerId token now) fun _ => rfl
    unfold recoverJob at h
    dsimp only at h
    split at h
    · cases h
      refine ⟨(hclaim.trans (updateJob_touches _ _ (by exact fun _ => rfl))).trans
        (releaseListingLocks_touches _ _), .inr (releaseListingLocks_none _ _), ?_⟩
      intro row hrow hopen
      have hfailed : row.status = .failed :=
        updateJob_status (P := fun st => st = _) (by exact fun _ => rfl)
          (by exact fun _ => rfl) row hrow
      rw [hfailed] at hopen
      cases hopen
    · obtain ⟨⟨next, itemIds⟩, hattempts, h⟩ := bind_eq_ok.mp h
      cases h
      have hworks : Reworks job.id (updateJob s job.id (claimJobLease workerId token now)) next := by
        refine recoverAttempts_reworks (fun a ha i hi hmem => ?_) hattempts
        have ha := (Perm.mem_iff (perm_insertionSort _ _)).mp ha
        obtain ⟨ha, hown⟩ := mem_filter.mp ha
        obtain ⟨j, hj, hid, hown⟩ := (rooted.attempts a ha _ (of_decide_eq_true hown)).2 _ hmem
        obtain rfl := inj_on_of_nodup_map rooted.distinct hi hj hid.symm
        exact hown
      obtain ⟨hsettle, hfreed, hreconcilable⟩ :=
        settleRecovered_touches job.id now (markUncertain job.id itemIds next)
      exact ⟨((hclaim.trans hworks.touches).trans (markUncertain_reworks _ _ _).touches).trans
        hsettle, hfreed, hreconcilable⟩
  · exact .inl (Except.ok.inj h).symm

end

end FlowHub.Workspace
