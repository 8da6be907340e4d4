import FlowHub.Workspace.ApplySteps
import FlowHub.Workspace.Lifecycle

namespace FlowHub.Workspace

open Python Txn WritePipeline List Option

/-- The Reviews that a new mapping of the Source makes stale. -/
def sourceReviews (sourceId : Id) (db : Db) : List Id :=
  let snapshotIds := (db.snapshots.filter fun s => decide (s.entryPoint = .source) &&
    decide (s.sourceMetadata.sourceId.getD "" = sourceId)).map (·.id)
  (db.reviews.filter fun r =>
    decide (r.snapshotId ∈ snapshotIds) && decide (r.status ≠ .stale)).map (·.id)

/-- Where a job is ended by a reconciliation or a new mapping, it holds no lock: some item
stays uncertain, no item failed, or there is no lock; and no job that holds one is still
pending when its Review goes stale with its mapping. -/
def Releasing (e : Event service) : Prop :=
  match e.label with
  | .commit (.finishReconcile jobId results) =>
    (∃ i ∈ jobItems e.before jobId, uncertain i = true ∧
      itemOutcome e.before results i ≠ some .verifiedApplied) ∨
    (jobItems e.before jobId ≠ [] ∧ ∀ i ∈ jobItems e.before jobId, i.status = .applied ∨ uncertain i = true) ∨
    ∀ lock ∈ e.before.workspaceLocks, lock.applyJobId ≠ jobId
  | .commit (.saveMapping sourceId) =>
    ∀ lock ∈ e.before.workspaceLocks, ∀ job, e.before.applyJob lock.applyJobId = some job →
      job.status = .pending → job.reviewId ∉ sourceReviews sourceId e.before
  | _ => True

/-- Where a job is left to reconciliation, an item says so: of the Listings with an uncertain
result one has it last, and the error handler finds a dispatch only with an item that is
uncertain already. -/
def Accounted (e : Event service) : Prop :=
  match e.label with
  | .commit (.recordOutcomes jobId results) =>
    (∃ i ∈ jobItems e.before jobId, ∃ row,
      Table.get ReviewItem.id e.before.reviewItems i.reviewItemId = some row ∧
      ∃ r ∈ results, r.outcome = .reconciliationRequired ∧ row.listingId = r.listingId) →
    ∃ i ∈ jobItems e.before jobId, itemOutcome e.before results i = some .reconciliationRequired
  | .commit (.abortApply jobId) => dispatchEvidence e.before jobId = true →
      ∃ i ∈ jobItems e.before jobId, uncertain i = true
  | _ => True

section

variable (hash : Hashing)

/-- What one transaction or answer of these calls does to jobs, items, attempts and locks. -/
inductive Moves (w : World service) (l : Label service) (t : Db) : Prop
  | idle (h : Idle w.state t)
  | executes {command : WorkspaceWriteBatchCommand} (appends : Appends w.state t)
      (records : Records command w.state t)
      (bears : ∀ intent ∈ command.intents, Bears w.state intent.applyJobId intent)
  | recovers {mid : Db} (idle : Idle w.state mid) (h : Recovers hash mid t)
  | issued {mid : Db} {job : ApplyJob} {items : List ApplyJobItem} (idle : Idle w.state mid)
      (pending : job.status = .pending) (own : ∀ i ∈ items, i.applyJobId = job.id)
      (h : Inserted job items mid t)
  | locks {jobId : Id} {locks : List WorkspaceLock}
      (live : ∃ job, w.state.applyJob jobId = some job ∧ unfinished job.status = true)
      (new : ∀ lock ∈ locks, lock ∈ w.state.workspaceLocks ∨ lock.applyJobId = jobId)
      (h : t = { w.state with workspaceLocks := locks })
  | touches {jobId : Id} (h : Touches jobId w.state t)
      (freed : Releasing ⟨w.state, l⟩ → Freed t jobId)
      (reconcilable : (∀ e ∈ (w.log l t).past, Accounted e) → Reconcilable t jobId)
  | invalidated {sourceId : Id} {now : Time} (label : l = .commit (.saveMapping sourceId))
      (h : t = invalidateSourceReviews sourceId now w.state)

def ApplyStep (w v : World service) : Prop := ∃ l t, v = w.log l t ∧ Moves hash w l t

end

section

variable {hash : Hashing} {w : World service} {l : Label service} {t : Db}

theorem Moves.step (h : Moves hash w l t) : ApplyStep hash w (w.log l t) := ⟨l, t, rfl, h⟩

theorem ApplyStep.still (w : World service) (l : Label service) :
    ApplyStep hash w (w.log l w.state) := Moves.step (.idle (.refl _))

theorem Idle.applyJob (h : Idle s t) (id : Id) : t.applyJob id = s.applyJob id := by
  unfold Db.applyJob
  rw [h.jobs]

theorem Idle.jobItems (h : Idle s t) (id : Id) : jobItems t id = Workspace.jobItems s id := by
  unfold Workspace.jobItems
  rw [h.items]

theorem Bears.of_items (h : Bears s jobId intent) (hitems : s.applyJobItems ⊆ t.applyJobItems) :
    Bears t jobId intent := by
  refine ⟨h.1, fun itemId hmem => ?_⟩
  obtain ⟨i, hi, hid, hjob⟩ := h.2 itemId hmem
  exact ⟨i, hitems hi, hid, hjob⟩

theorem Idle.rooted {s t : Db} (h : Idle s t) (k : Rooted s) : Rooted t where
  locks lock hlock := by
    rw [h.applyJob]
    rw [h.locks] at hlock
    exact k.locks lock hlock
  items i hi := by
    rw [h.applyJob]
    rw [h.items] at hi
    exact k.items i hi
  distinct := by
    rw [h.items]
    exact k.distinct
  rows := h.rows k.rows
  attempts a ha id hjob := by
    rw [h.attempts] at ha
    exact (k.attempts a ha id hjob).of_items (by rw [h.items]; exact Subset.refl _)

variable {items : List ApplyJobItem} {job : ApplyJob} {id : Id}

theorem Idle.freed (h : Idle s t) (k : Freed s id) : Freed t id := by
  unfold Freed
  rw [h.applyJob, h.locks]
  exact k

theorem Idle.reconcilable (h : Idle s t) (k : Reconcilable s id) : Reconcilable t id := by
  unfold Reconcilable
  rw [h.applyJob, h.jobItems]
  exact k

theorem Inserted.known (h : Inserted job items s t) (k : (s.applyJob id).isSome = true) :
    t.applyJob id = s.applyJob id := by
  obtain ⟨row, hrow⟩ := isSome_iff_exists.mp k
  rw [h.result, hrow]
  exact Table.get_append_of_some hrow

/-- The job is new: nothing was of it before. -/
theorem Inserted.absent (h : Inserted job items s t) : s.applyJob job.id = none := by
  refine Table.get_none.mpr fun j hj => ?_
  exact Ne.symm (jobClashes_eq_false.mp (h.unique j hj)).1

theorem Inserted.applyJob_other (h : Inserted job items s t) (hid : id ≠ job.id) :
    t.applyJob id = s.applyJob id := by
  cases hs : s.applyJob id with
  | some row =>
    rw [h.known (by rw [hs]; rfl), hs]
  | none =>
    rw [h.result, Db.applyJob, Table.get_append_of_none hs]
    simp [Table.get, Ne.symm hid]

theorem Inserted.rooted
    (h : Inserted job items s t) (own : ∀ i ∈ items, i.applyJobId = job.id) (k : Rooted s) :
    Rooted t := by
  have hnew : (t.applyJob job.id).isSome = true := by rw [h.applyJob]; rfl
  have hitems : t.applyJobItems = s.applyJobItems ++ items := by rw [h.result]
  refine ⟨fun lock hlock => ?_, fun i hi => ?_, ?_, ?_, fun a ha id hjob => ?_⟩
  · have hold : lock ∈ s.workspaceLocks := by
      rw [h.result] at hlock
      exact hlock
    rw [h.known (k.locks lock hold)]
    exact k.locks lock hold
  · rw [hitems] at hi
    rcases mem_append.mp hi with hold | hi
    · rw [h.known (k.items i hold)]
      exact k.items i hold
    · rw [own i hi]
      exact hnew
  · rw [hitems, map_append]
    refine Nodup.append k.distinct h.distinct fun id hold hin => ?_
    obtain ⟨i, hi, rfl⟩ := mem_map.mp hin
    obtain ⟨j, hj, hid⟩ := mem_map.mp hold
    exact Table.get_none.mp (Table.has_false.mp (h.newItems i hi)) j hj hid
  · rw [h.result]
    exact k.rows
  · have hold : a ∈ s.attempts := by
      rw [h.result] at ha
      exact ha
    refine (k.attempts a hold id hjob).of_items ?_
    rw [hitems]
    exact subset_append_left _ _

theorem jobItems_inserted (h : Inserted job items s t) (own : ∀ i ∈ items, i.applyJobId = job.id)
    (hid : id ≠ job.id) : jobItems t id = jobItems s id := by
  have hitems : t.applyJobItems = s.applyJobItems ++ items := by rw [h.result]
  unfold jobItems
  rw [hitems, filter_append]
  have hnone : items.filter (fun i => decide (i.applyJobId = id)) = [] := by
    refine filter_eq_nil_iff.mpr fun i hi => ?_
    rw [own i hi]
    simpa using Ne.symm hid
  rw [hnone, append_nil]

theorem invalidated_applyJob (sourceId : Id) (now : Time) (db : Db) (id : Id) :
    (invalidateSourceReviews sourceId now db).applyJob id = (db.applyJob id).map fun j =>
      if j.reviewId ∈ sourceReviews sourceId db ∧ j.status = .pending then
        { j with status := .stale, completedAt := some now }
      else j := by
  unfold Db.applyJob Table.get
  show find? _ (db.applyJobs.map _) = _
  rw [find?_map]
  congr 2
  funext j
  rw [Function.comp_apply]
  split
  · rfl
  · rfl

theorem Moves.rooted (h : Moves hash w l t) (k : Rooted w.state) : Rooted t := by
  cases h with
  | idle h => exact h.rooted k
  | @executes command appends records bears =>
    obtain ⟨_, _, _, rfl⟩ := appends
    refine ⟨k.locks, k.items, k.distinct, k.rows, fun a ha id hjob => ?_⟩
    rcases records a ha with hold | ⟨_, intent, itemId, hi, rfl⟩
    · exact k.attempts a hold id hjob
    have hintent : intent.applyJobId = id := by
      unfold newAttempt at hjob
      split at hjob
      · exact some.inj hjob
      · cases hjob
    rw [← hintent]
    exact bears intent hi
  | recovers idle h =>
    rcases h.touches (idle.rooted k) with rfl | ⟨_, htouches, -, -⟩
    · exact idle.rooted k
    · exact htouches.rooted (idle.rooted k)
  | issued idle pending own h => exact h.rooted own (idle.rooted k)
  | locks live new h =>
    subst h
    refine ⟨fun lock hlock => ?_, k.items, k.distinct, k.rows, k.attempts⟩
    rcases new lock hlock with hold | rfl
    · exact k.locks lock hold
    · obtain ⟨job, hjob, -⟩ := live
      exact isSome_iff_exists.mpr ⟨job, hjob⟩
  | touches h freed reconcilable => exact h.rooted k
  | @invalidated sourceId now label h =>
    have hsome : ∀ id, (t.applyJob id).isSome = (w.state.applyJob id).isSome := by
      intro id
      rw [h, invalidated_applyJob, isSome_map]
    subst h
    refine ⟨fun lock hlock => ?_, fun i hi => ?_, k.distinct, k.rows, k.attempts⟩
    · rw [hsome]
      exact k.locks lock hlock
    · rw [hsome]
      exact k.items i hi

theorem Moves.freed (h : Moves hash w l t) (rooted : Rooted w.state)
    (k : ∀ id, Freed w.state id) (releasing : Releasing ⟨w.state, l⟩) (id : Id) : Freed t id := by
  cases h with
  | idle h => exact h.freed (k id)
  | executes appends records bears =>
    obtain ⟨_, _, _, rfl⟩ := appends
    exact k id
  | recovers idle h =>
    rcases h.touches (idle.rooted rooted) with rfl | ⟨_, htouches, hfreed, -⟩
    · exact idle.freed (k id)
    · exact htouches.freed hfreed (fun id => idle.freed (k id)) id
  | @issued mid job items idle pending own h =>
    by_cases hid : id = job.id
    · subst hid
      refine .inl fun row hrow => ?_
      rw [h.applyJob] at hrow
      cases hrow
      rw [pending]
      rfl
    · have hlocks : t.workspaceLocks = mid.workspaceLocks := by rw [h.result]
      have hmid := idle.freed (k id)
      unfold Freed at hmid ⊢
      rwa [h.applyJob_other hid, hlocks]
  | @locks jobId locks live new h =>
    subst h
    rcases k id with hopen | hnone
    · exact .inl hopen
    by_cases hid : id = jobId
    · subst hid
      obtain ⟨job, hjob, hopen⟩ := live
      refine .inl fun row hrow => ?_
      obtain rfl := some.inj (hjob.symm.trans hrow)
      exact hopen
    · refine .inr fun lock hlock => ?_
      rcases new lock hlock with hold | hnew
      · exact hnone lock hold
      · rw [hnew]
        exact Ne.symm hid
  | touches h freed reconcilable => exact h.freed (freed releasing) k id
  | @invalidated sourceId now label h =>
    subst label h
    by_cases hlock : ∀ lock ∈ w.state.workspaceLocks, lock.applyJobId ≠ id
    · exact .inr hlock
    simp only [not_forall, not_not] at hlock
    obtain ⟨lock, hmem, rfl⟩ := hlock
    refine .inl fun row hrow => ?_
    rw [invalidated_applyJob] at hrow
    obtain ⟨job, hjob, rfl⟩ := map_eq_some_iff.mp hrow
    have hopen : unfinished job.status = true := by
      rcases k lock.applyJobId with hopen | hnone
      · exact hopen job hjob
      · exact absurd rfl (hnone lock hmem)
    rw [if_neg]
    · exact hopen
    · rintro ⟨hreview, hpending⟩
      exact releasing lock hmem job hjob hpending hreview

theorem Moves.reconcilable (h : Moves hash w l t) (rooted : Rooted w.state)
    (k : ∀ id, Reconcilable w.state id) (accounted : ∀ e ∈ (w.log l t).past, Accounted e)
    (id : Id) : Reconcilable t id := by
  cases h with
  | idle h => exact h.reconcilable (k id)
  | executes appends records bears =>
    obtain ⟨_, _, _, rfl⟩ := appends
    exact k id
  | recovers idle h =>
    rcases h.touches (idle.rooted rooted) with rfl | ⟨_, htouches, -, hreconcilable⟩
    · exact idle.reconcilable (k id)
    · exact htouches.reconcilable hreconcilable (fun id => idle.reconcilable (k id)) id
  | @issued mid job items idle pending own h =>
    by_cases hid : id = job.id
    · subst hid
      intro row hrow hopen
      rw [h.applyJob] at hrow
      cases hrow
      rw [pending] at hopen
      cases hopen
    · have hmid := idle.reconcilable (k id)
      unfold Reconcilable at hmid ⊢
      rwa [h.applyJob_other hid, jobItems_inserted h own hid]
  | locks live new h =>
    subst h
    exact k id
  | touches h freed reconcilable => exact h.reconcilable (reconcilable accounted) k id
  | @invalidated sourceId now label h =>
    subst h
    intro row hrow hopen
    rw [invalidated_applyJob] at hrow
    obtain ⟨job, hjob, rfl⟩ := map_eq_some_iff.mp hrow
    split at hopen
    · cases hopen
    · exact k id job hjob hopen

end

end FlowHub.Workspace
