import FlowHub.Workspace.ReconcileRuns

namespace FlowHub.Workspace

open Python Txn WritePipeline List

/-- A Listing is locked only while the job that owns the lock is not at its end. -/
def Owned (db : Db) : Prop :=
  ∀ lock ∈ db.workspaceLocks, ∃ job, db.applyJob lock.applyJobId = some job ∧ unfinished job.status = true

theorem owned_iff (rooted : Rooted db) : Owned db ↔ ∀ jobId, Freed db jobId := by
  constructor
  · intro owned jobId
    by_cases hnone : ∀ lock ∈ db.workspaceLocks, lock.applyJobId ≠ jobId
    · exact .inr hnone
    simp only [not_forall, not_not] at hnone
    obtain ⟨lock, hlock, rfl⟩ := hnone
    obtain ⟨job, hjob, hopen⟩ := owned lock hlock
    refine .inl fun row hrow => ?_
    obtain rfl := Option.some.inj (hjob.symm.trans hrow)
    exact hopen
  · intro freed lock hlock
    obtain ⟨job, hjob⟩ := Option.isSome_iff_exists.mp (rooted.locks lock hlock)
    rcases freed lock.applyJobId with hopen | hnone
    · exact ⟨job, hjob, hopen job hjob⟩
    · exact absurd rfl (hnone lock hlock)

/-- While every reconciliation and every new mapping ends only jobs without locks, a lock's
job is not at its end, wherever the calls break off. -/
theorem locks_owned {u : Unicode} {hash : Hashing} {settings : Settings} {start : Db}
    (rooted : Rooted start) (owned : Owned start) {w : World service}
    (run : Session (ApplyCall u hash settings) (.initial start) w)
    (releasing : ∀ e ∈ w.past, Releasing e) : Owned w.state := by
  have hkept := applyCalls_keep rooted run
    (P := fun w => (∀ e ∈ w.past, Releasing e) → ∀ jobId, Freed w.state jobId)
    (fun _ => (owned_iff rooted).mp owned) fun w l t hrooted hfreed hmoves hpast => ?_
  · exact (owned_iff hkept.1).mpr (hkept.2 releasing)
  · refine hmoves.freed hrooted (hfreed fun e he => hpast e (mem_append_left _ he)) ?_
    exact hpast _ (mem_append_right _ (mem_singleton.mpr rfl))

theorem Rooted.unissued (locks : db.workspaceLocks = []) (items : db.applyJobItems = [])
    (attempts : db.attempts = []) (rows : (db.reviewItems.map ReviewItem.id).Nodup) : Rooted db := by
  refine ⟨?_, ?_, ?_, rows, ?_⟩
  · simp [locks]
  · simp [items]
  · simp [items]
  · simp [attempts]

namespace Sample

def bothCells : World service :=
  .initial (verified (fun _ _ => "3") twoCells ["item0", "item1"]).state

/-- The Channel rejects the first Listing's write and leaves the second's open, until it is
asked again. -/
def openOutcome : Surroundings service where
  refuse _ _ := none
  answer w
    | .applyUpdates _ _ intents => .ok (intents.map fun i =>
      { listingId := i.listingId
        outcome := if i.listingId = "7" then .failed else .reconciliationRequired })
    | q => (reports fun _ _ => "3").answer w q

/-- The results of an Apply cannot be written down. -/
def lostOutcome : Surroundings service where
  refuse _
    | .recordOutcomes _ _ => some .integrityError
    | _ => none
  answer := openOutcome.answer

/-- One Apply of both Listings. -/
def bothApplied (env : Surroundings service) : World service :=
  (replay env 40 ((applySelected .ascii documents settings applyFresh (request bothCells.state)
    owner).bind fun _ => .done ()) bothCells).2

def reconcileFresh : ReconcileFresh := ⟨"recovery", "second lease", applyFresh.attempts, 1, 1, 1⟩

def bothReconciled : World service :=
  (replay openOutcome 40 ((reconcileApply documents reconcileFresh "workspace" "job" owner
    "worker").bind fun _ => .done ()) (bothApplied openOutcome)).2

def applyCalls : Program Unit → Prop := ApplyCall .ascii documents settings

theorem bothApplied_session (env : Surroundings service) : Session applyCalls bothCells (bothApplied env) :=
  .call (.start _) (.applySelected ..) (replay_steps ..)

/-- A reconciliation or an invalidation. -/
def mayStrand : Label service → Bool
  | .commit (.finishReconcile _ _) | .commit (.saveMapping _) => true
  | _ => false

theorem releasing_of_other (h : mayStrand e.label = false) : Releasing e := by
  unfold Releasing
  unfold mayStrand at h
  split
  · rename_i heq
    rw [heq] at h
    cases h
  · rename_i heq
    rw [heq] at h
    cases h
  · trivial

/-- Whether nothing has been applied yet, and Review items are unique. -/
def unapplied (db : Db) : Bool :=
  db.applyJobs.isEmpty && db.workspaceLocks.isEmpty && db.applyJobItems.isEmpty &&
    db.attempts.isEmpty && decide (db.reviewItems.map ReviewItem.id).Nodup

theorem unapplied_rooted (h : unapplied db = true) :
    Rooted db ∧ Owned db ∧ ∀ jobId, Reconcilable db jobId := by
  simp only [unapplied, Bool.and_eq_true, List.isEmpty_iff, decide_eq_true_eq] at h
  obtain ⟨⟨⟨⟨hjobs, hlocks⟩, hitems⟩, hattempts⟩, hrows⟩ := h
  refine ⟨.unissued hlocks hitems hattempts hrows, fun lock hlock => ?_, fun jobId job hjob => ?_⟩
  · rw [hlocks] at hlock
    cases hlock
  · rw [Db.applyJob, hjobs] at hjob
    cases hjob

/-- Whether an event can only leave to reconciliation a job with an item to reconcile. -/
def leavesItem (e : Event service) : Bool :=
  match e.label with
  | .commit (.recordOutcomes jobId results) => (jobItems e.before jobId).any fun i =>
    decide (itemOutcome e.before results i = some .reconciliationRequired)
  | .commit (.abortApply _) => false
  | _ => true

theorem accounted_of_leaves (h : leavesItem e = true) : Accounted e := by
  unfold Accounted
  unfold leavesItem at h
  split
  · rename_i heq
    rw [heq] at h
    obtain ⟨i, hi, hlast⟩ := any_eq_true.mp h
    exact fun _ => ⟨i, hi, of_decide_eq_true hlast⟩
  · rename_i heq
    rw [heq] at h
    cases h
  · trivial

/-- Each job, its state and its items' states. -/
def progress (db : Db) : List (Id × ApplyState × List ItemStatus) :=
  db.applyJobs.map fun j => (j.id, j.status, (jobItems db j.id).map (·.status))

theorem both_runs : unapplied bothCells.state = true ∧
    (bothApplied openOutcome).past.all (fun e => !mayStrand e.label) = true ∧
    (bothApplied openOutcome).past.all leavesItem = true ∧
    progress (bothApplied openOutcome).state =
      [("job", .reconciliationRequired, [.failed, .reconciliationRequired])] ∧
    bothReconciled.state.applyJobs.map (fun j => (j.id, j.status)) = [("job", .partiallyApplied)] ∧
    bothReconciled.state.workspaceLocks.map (fun l => (l.listingId, l.applyJobId)) =
      [("7", "job"), ("8", "job")] ∧
    progress (bothApplied lostOutcome).state = [("job", .reconciliationRequired, [.pending, .pending])] := by
  decide +kernel

end Sample

open Sample

/-- One Listing's write failed and the other's was verified later: the job is partially
applied, and both are still locked. -/
theorem reconciled_job_keeps_locks : Rooted bothCells.state ∧ Owned bothCells.state ∧
    Session applyCalls bothCells bothReconciled ∧
    bothReconciled.state.applyJobs.map (fun j => (j.id, j.status)) = [("job", .partiallyApplied)] ∧
    bothReconciled.state.workspaceLocks.map (fun l => (l.listingId, l.applyJobId)) =
      [("7", "job"), ("8", "job")] ∧
    ¬Owned bothReconciled.state := by
  obtain ⟨hstart, -, -, -, hjobs, hlocks, -⟩ := both_runs
  obtain ⟨rooted, owned, -⟩ := unapplied_rooted hstart
  refine ⟨rooted, owned, .call (bothApplied_session _) (.reconcileApply ..) (replay_steps ..), hjobs, hlocks, fun owned => ?_⟩
  obtain ⟨lock, hlock, hjob⟩ : ∃ lock ∈ bothReconciled.state.workspaceLocks,
      (lock.listingId, lock.applyJobId) = ("7", "job") := by
    refine mem_map.mp ?_
    rw [hlocks]
    exact mem_cons_self
  obtain ⟨job, hfound, hopen⟩ := owned lock hlock
  have hmem : (job.id, job.status) ∈ [(("job" : Id), ApplyState.partiallyApplied)] := by
    rw [← hjobs]
    exact mem_map_of_mem (Table.get_some hfound).1
  rw [(Prod.mk.inj (mem_singleton.mp hmem)).2] at hopen
  cases hopen

theorem locks_owned_applied : Owned (bothApplied openOutcome).state := by
  obtain ⟨hstart, hall, -⟩ := both_runs
  obtain ⟨rooted, owned, -⟩ := unapplied_rooted hstart
  refine locks_owned rooted owned (bothApplied_session _) fun e he => ?_
  refine releasing_of_other ?_
  simpa using all_eq_true.mp hall e he

end FlowHub.Workspace
