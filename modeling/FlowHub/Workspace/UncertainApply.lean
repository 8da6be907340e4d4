import FlowHub.Workspace.LockOwnership

namespace FlowHub.Workspace

open Python Txn WritePipeline List

/-- A reconciliation of a job that has an uncertain item is not turned away for want of one. -/
theorem beginReconcile_open (found : db.applyJob jobId = some job)
    (h : ∃ i ∈ jobItems db jobId, uncertain i = true) : beginReconcile jobId workerId token now db ≠
      .error (conflict "APPLY_RECONCILIATION_EMPTY") := by
  obtain rfl : job.id = jobId := (Table.get_some found).2
  obtain ⟨i, hi, hu⟩ := h
  have hopen : ((jobItems db job.id).filter uncertain).isEmpty = false := by
    rw [isEmpty_eq_false_iff]
    exact ne_nil_of_mem (mem_filter.mpr ⟨hi, hu⟩)
  intro herror
  obtain ⟨row, hrow, herror⟩ := (bind_eq_error.mp herror).resolve_left fun h => by
    obtain ⟨hnone, -⟩ := found_error.mp h
    rw [found] at hnone
    cases hnone
  obtain rfl := Option.some.inj (found.symm.trans (found_ok.mp hrow))
  obtain ⟨_, -, herror⟩ := (bind_eq_error.mp herror).resolve_left fun h => by
    obtain ⟨-, hcode⟩ := refuse_error.mp h
    exact absurd hcode (by decide)
  obtain ⟨_, -, herror⟩ := (bind_eq_error.mp herror).resolve_left fun h => by
    obtain ⟨hempty, -⟩ := refuse_error.mp h
    rw [hopen] at hempty
    cases hempty
  rcases bind_eq_error.mp herror with hmissing | ⟨_, -, hend⟩
  · obtain ⟨listingId, -, hintent⟩ := mapM_error hmissing
    rcases bind_eq_error.mp hintent with h | ⟨_, -, h⟩
    · obtain ⟨-, hcode⟩ := found_error.mp h
      exact absurd hcode (by decide)
    · cases h
  · cases hend

/-- While every uncertain result is accounted for by an item, a job left to reconciliation
can be reconciled, wherever the calls break off. -/
theorem uncertain_reconcilable {u : Unicode} {hash : Hashing} {settings : Settings} {start : Db}
    (rooted : Rooted start) (reconcilable : ∀ jobId, Reconcilable start jobId)
    {w : World service} (run : Session (ApplyCall u hash settings) (.initial start) w)
    (accounted : ∀ e ∈ w.past, Accounted e) {jobId : Id} {job : ApplyJob}
    (found : w.state.applyJob jobId = some job) (left : job.status = .reconciliationRequired) :
    (∃ i ∈ jobItems w.state jobId, uncertain i = true) ∧ ∀ workerId token now,
      beginReconcile jobId workerId token now w.state ≠
        .error (conflict "APPLY_RECONCILIATION_EMPTY") := by
  have hkept := applyCalls_keep rooted run
    (P := fun w => (∀ e ∈ w.past, Accounted e) → ∀ jobId, Reconcilable w.state jobId)
    (fun _ => reconcilable) fun w l t hrooted hk hmoves hpast => ?_
  · have hopen := hkept.2 accounted jobId job found left
    exact ⟨hopen, fun _ _ _ => beginReconcile_open found hopen⟩
  · exact hmoves.reconcilable hrooted (hk fun e he => hpast e (mem_append_left _ he)) hpast

namespace Sample

/-- The one job a run has left to reconciliation. -/
theorem left_job (h : progress db = [("job", .reconciliationRequired, statuses)]) :
    ∃ job, db.applyJob "job" = some job ∧ job.status = .reconciliationRequired ∧
      (jobItems db "job").map (·.status) = statuses := by
  obtain ⟨job, hjobs, heq⟩ := map_eq_singleton_iff.mp h
  obtain ⟨hid, hrest⟩ := Prod.mk.inj heq
  obtain ⟨hstatus, hitems⟩ := Prod.mk.inj hrest
  refine ⟨job, ?_, hstatus, hid ▸ hitems⟩
  rw [Db.applyJob, hjobs]
  simp [Table.get, hid]

end Sample

open Sample

/-- The results of two dispatched writes were lost: the job is left to reconciliation with
no item that could be. -/
theorem lost_outcome_stuck : Rooted bothCells.state ∧ (∀ jobId, Reconcilable bothCells.state jobId) ∧
    Session applyCalls bothCells (bothApplied lostOutcome) ∧
    ∃ job, (bothApplied lostOutcome).state.applyJob "job" = some job ∧ job.status = .reconciliationRequired ∧
      ¬∃ i ∈ jobItems (bothApplied lostOutcome).state "job", uncertain i = true := by
  obtain ⟨hstart, -, -, -, -, -, hlost⟩ := both_runs
  obtain ⟨job, hjob, hleft, hitems⟩ := left_job hlost
  obtain ⟨rooted, -, reconcilable⟩ := unapplied_rooted hstart
  refine ⟨rooted, reconcilable, bothApplied_session _, job, hjob, hleft, ?_⟩
  rintro ⟨i, hi, hu⟩
  have hpending : i.status ∈ [ItemStatus.pending, .pending] := by
    rw [← hitems]
    exact mem_map_of_mem hi
  simp only [mem_cons, not_mem_nil, or_false, or_self] at hpending
  rw [uncertain, hpending] at hu
  cases hu

theorem uncertain_reconcilable_left :
    (∃ i ∈ jobItems (bothApplied openOutcome).state "job", uncertain i = true) ∧
    ∀ workerId token now, beginReconcile "job" workerId token now
      (bothApplied openOutcome).state ≠
        .error (conflict "APPLY_RECONCILIATION_EMPTY") := by
  obtain ⟨hstart, -, hall, hleft, -⟩ := both_runs
  obtain ⟨job, hjob, hopen, -⟩ := left_job hleft
  obtain ⟨rooted, -, reconcilable⟩ := unapplied_rooted hstart
  refine uncertain_reconcilable rooted reconcilable (bothApplied_session _)
    (fun e he => ?_) hjob hopen
  exact accounted_of_leaves (all_eq_true.mp hall e he)

end FlowHub.Workspace
