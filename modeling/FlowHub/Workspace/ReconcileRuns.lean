import FlowHub.Workspace.ApplyRuns

namespace FlowHub.Workspace

open Python Txn WritePipeline List

section

variable (u : Unicode) (hash : Hashing) (settings : Settings)

/-- A step that leaves jobs, their items, attempts and locks alone. -/
def Elsewhere (w v : World service) : Prop := ∃ l t, v = w.log l t ∧ Idle w.state t

/-- The calls that issue, carry out, recover, reconcile and invalidate Apply jobs, and
whatever happens elsewhere between them. -/
inductive ApplyCall : Program Unit → Prop
  | applySelected (fresh : ApplyFresh) (request : ApplyRequest) (user : FlowHubUser) :
      ApplyCall ((applySelected u hash settings fresh request user).bind fun _ => .done ())
  | reconcileApply (fresh : ReconcileFresh) (workspaceId jobId : Id) (user : FlowHubUser)
      (workerId : String) :
      ApplyCall ((reconcileApply hash fresh workspaceId jobId user workerId).bind fun _ => .done ())
  | recoverStaleApplies (workerId : String) (token : Id → String) (user : FlowHubUser)
      (now : Time) : ApplyCall (recoverStaleApplies hash workerId token user now)
  | recoverIfStale (jobId : Id) (workerId token : String) (now : Time) :
      ApplyCall (recoverIfStale hash jobId workerId token now)
  | saveMapping (sourceId : Id) (now : Time) : ApplyCall (saveMapping sourceId now)
  | elsewhere {p : Program Unit} (h : Proc.Does Elsewhere p) : ApplyCall p

end

section

variable {u : Unicode} {hash : Hashing} {settings : Settings} {s t : Db} {w : World service}

structure InHand (db : Db) (jobId : Id) (r : Reconciling) : Prop where
  job : r.job.id = jobId
  known : r.items ⊆ db.reviewItems
  unique : (db.reviewItems.map ReviewItem.id).Nodup
  whole : ∀ i ∈ jobItems db jobId, uncertain i = true →
    ∀ row ∈ db.reviewItems, row.id = i.reviewItemId → row ∈ r.items
  bears : ∀ intent ∈ r.intents, Bears db intent.applyJobId intent

variable {workerId token : String} {now : Time} {r : Reconciling} {jobId : Id}

theorem Appends.inHand (h : Appends s t) (k : InHand s jobId r) : InHand t jobId r := by
  obtain ⟨_, _, _, rfl⟩ := h
  exact ⟨k.job, k.known, k.unique, k.whole, k.bears⟩

def takenInHand (jobId : Id) (item : ApplyJobItem) : ApplyJobItem :=
  if item.applyJobId = jobId ∧ uncertain item then { item with status := .recovering } else item

theorem takenInHand_keeps (jobId : Id) (i : ApplyJobItem) : (takenInHand jobId i).id = i.id ∧
    (takenInHand jobId i).applyJobId = i.applyJobId ∧
    (takenInHand jobId i).reviewItemId = i.reviewItemId ∧
    uncertain (takenInHand jobId i) = uncertain i := by
  unfold takenInHand
  split
  · rename_i h
    exact ⟨rfl, rfl, rfl, h.2.symm⟩
  · exact ⟨rfl, rfl, rfl, rfl⟩

theorem beginReconcile_moves (rooted : Rooted w.state)
    (h : beginReconcile jobId workerId token now w.state = .ok (t, r)) :
    Moves hash w l t ∧ InHand t jobId r := by
  obtain ⟨job, hjob, h⟩ := bind_eq_ok.mp h
  obtain ⟨_, hstatus, h⟩ := bind_eq_ok.mp h
  obtain ⟨_, hopen, h⟩ := bind_eq_ok.mp h
  obtain ⟨intents, hintents, h⟩ := bind_eq_ok.mp h
  cases h
  have hjob := found_ok.mp hjob
  obtain rfl : job.id = jobId := (Table.get_some hjob).2
  have hstatus : job.status = .reconciliationRequired := bne_eq_false_iff_eq.mp (refuse_ok.mp hstatus)
  have hitems : jobItems { updateJob w.state job.id (claimJobLease workerId token now) with
      applyJobItems := w.state.applyJobItems.map (takenInHand job.id) } job.id =
      (jobItems w.state job.id).map (takenInHand job.id) := by
    show (w.state.applyJobItems.map (takenInHand job.id)).filter _ = _
    rw [filter_map]
    congr 1
    refine filter_congr fun i _ => ?_
    rw [Function.comp_apply, (takenInHand_keeps job.id i).2.1]
  have htouches : Touches job.id w.state
      { updateJob w.state job.id (claimJobLease workerId token now) with
        applyJobItems := w.state.applyJobItems.map (takenInHand job.id) } := by
    refine ⟨⟨claimJobLease workerId token now, fun _ => rfl, rfl⟩,
      ⟨takenInHand job.id, fun i => ?_, fun i _ hother => ?_, rfl⟩,
      Subset.refl _, rfl, rfl⟩
    · obtain ⟨hid, hown, hrow, -⟩ := takenInHand_keeps job.id i
      exact ⟨hid, hown, hrow⟩
    · exact if_neg fun h => hother h.1
  refine ⟨.touches htouches (fun _ => .inl fun row hrow => ?_) fun _ _ _ _ => ?_,
    rfl, filter_sublist.subset, rooted.rows, fun i hi hu row hrow hid => ?_,
    fun intent hintent => ?_⟩
  · have hclaimed : row = claimJobLease workerId token now job := by
      have hupdate := updateJob_applyJob w.state job.id
        (f := claimJobLease workerId token now) fun _ => rfl
      rw [hjob] at hupdate
      exact (Option.some.inj (hupdate.symm.trans hrow)).symm
    rw [hclaimed]
    show unfinished job.status = true
    rw [hstatus]
    rfl
  · obtain ⟨i, hi⟩ := exists_mem_of_ne_nil _ (isEmpty_eq_false_iff.mp (refuse_ok.mp hopen))
    obtain ⟨hi, hu⟩ := mem_filter.mp hi
    refine ⟨takenInHand job.id i, ?_, ?_⟩
    · exact hitems ▸ mem_map_of_mem hi
    · rw [(takenInHand_keeps job.id i).2.2.2]
      exact hu
  · replace hi : i ∈ (jobItems w.state job.id).map (takenInHand job.id) := hitems ▸ hi
    obtain ⟨j, hj, rfl⟩ := mem_map.mp hi
    obtain ⟨-, -, hrowId, hsame⟩ := takenInHand_keeps job.id j
    refine mem_filter.mpr ⟨hrow, decide_eq_true ?_⟩
    rw [hid, hrowId]
    exact mem_map_of_mem (mem_filter.mpr ⟨hj, hsame ▸ hu⟩)
  · obtain ⟨listingId, -, hfrom⟩ := mem_of_mapM hintents hintent
    obtain ⟨attempt, hattempt, heq⟩ := bind_eq_ok.mp hfrom
    cases heq
    obtain ⟨hmem, hown⟩ := mem_filter.mp (newestAttempt_mem (found_ok.mp hattempt))
    have hbears := rooted.attempts attempt hmem job.id
      (of_decide_eq_true (Bool.and_eq_true_iff.mp hown).1)
    rw [hbears.1]
    exact htouches.bears hbears

theorem finishReconcile_ok (h : finishReconcile hash r workerId token results now s = .ok t) :
    ∃ mid, Recording r.job.id r.items reconciledStatus results s mid ∧
      Touches r.job.id mid t ∧ jobItems t r.job.id = jobItems mid r.job.id ∧
      (∀ job, t.applyJob r.job.id = some job → job.status = applyStatusFromItems mid r.job.id) ∧
      (applyStatusFromItems mid r.job.id = .applied →
        ∀ lock ∈ t.workspaceLocks, lock.applyJobId ≠ r.job.id) := by
  obtain ⟨_, -, h⟩ := bind_eq_ok.mp h
  obtain ⟨mid, hrecord, h⟩ := bind_eq_ok.mp h
  refine ⟨mid, recordReconciled_recording hrecord, ?_⟩
  have hstatus : ∀ job, (updateJob mid r.job.id fun j => { j with
      status := applyStatusFromItems mid r.job.id
      completedAt := if applyStatusFromItems mid r.job.id = .applied ∨
          applyStatusFromItems mid r.job.id = .partiallyApplied ∨
          applyStatusFromItems mid r.job.id = .failed then some now else j.completedAt }).applyJob
      r.job.id = some job → job.status = applyStatusFromItems mid r.job.id :=
    updateJob_status (P := (· = applyStatusFromItems mid r.job.id)) (by exact fun _ => rfl)
      (by exact fun _ => rfl)
  dsimp only at h
  split at h
  · cases h
    exact ⟨((updateJob_touches _ _ (by exact fun _ => rfl)).trans
      (markApplied_touches _ _ _)).trans (releaseListingLocks_touches _ _), rfl, hstatus,
      fun _ => releaseListingLocks_none _ _⟩
  · rename_i hnot
    cases h
    exact ⟨updateJob_touches _ _ (by exact fun _ => rfl), rfl, hstatus, fun h => absurd h hnot⟩

/-- The statuses of an uncertain item. -/
def unsettled (status : ItemStatus) : Bool :=
  match status with
  | .reconciliationRequired | .recovering | .dispatched | .providerAccepted => true
  | _ => false

theorem finishReconcile_moves (inHand : InHand w.state jobId r)
    (h : finishReconcile hash r workerId token results now w.state = .ok t) :
    Moves hash w (.commit (.finishReconcile jobId results)) t := by
  obtain rfl := inHand.job
  obtain ⟨mid, hrecording, htouches, hitems, hstatus, hreleased⟩ := finishReconcile_ok h
  have hall := hrecording.reworks.touches.trans htouches
  refine .touches hall (fun releasing => ?_) fun _ job hjob hopen => ?_
  · rcases releasing with ⟨i, hi, hu, hlast⟩ | ⟨hne, hdone⟩ | hnone
    · refine .inl fun job hjob => ?_
      have hopen : ∃ i ∈ jobItems mid r.job.id, uncertain i = true := by
        obtain ⟨hmem, hown⟩ := mem_filter.mp hi
        cases hget : Table.get ReviewItem.id w.state.reviewItems i.reviewItemId with
        | none =>
          refine ⟨i, mem_filter.mpr ⟨hrecording.untouched hmem fun row hrow hid => ?_, hown⟩, hu⟩
          exact Table.get_none.mp hget row (inHand.known hrow) hid
        | some row =>
          obtain ⟨hrow, hid⟩ := Table.get_some hget
          obtain ⟨i', hi', hown', hstatus'⟩ := hrecording.item (fun q hq hqid =>
            inj_on_of_nodup_map inHand.unique (inHand.known hq) hrow hqid)
            (inHand.whole i hi hu row hrow hid) hmem (of_decide_eq_true hown) hid.symm
          refine ⟨i', mem_filter.mpr ⟨hi', decide_eq_true hown'⟩, ?_⟩
          cases hresult : lastResult results row.listingId with
          | none =>
            rw [hresult] at hstatus'
            rw [uncertain, hstatus']
            exact hu
          | some result =>
            have hne : result.outcome ≠ .verifiedApplied := by
              intro heq
              refine hlast ?_
              rw [itemOutcome, hget, Option.bind_some, hresult, Option.map_some, heq]
            rw [hresult, Option.map_some, Option.getD_some, reconciledStatus_other hne] at hstatus'
            rw [uncertain, hstatus']
      rw [hstatus job hjob, status_of_uncertain hopen]
      rfl
    · have hstands : ∀ i ∈ jobItems mid r.job.id, i.status = .applied ∨ uncertain i = true := by
        intro i hi
        obtain ⟨hi, hown⟩ := mem_filter.mp hi
        have hkind := hrecording.all (P := fun st => st = .applied ∨ unsettled st = true)
          (fun outcome => ?_) (fun j hj hjob => ?_) i hi (of_decide_eq_true hown)
        · exact hkind
        · unfold reconciledStatus
          split
          · exact .inl rfl
          · exact .inr rfl
        · exact hdone j (mem_filter.mpr ⟨hj, decide_eq_true hjob⟩)
      have hmid : jobItems mid r.job.id ≠ [] := by
        obtain ⟨g, hkeeps, -, hmap⟩ := hrecording.reworks.touches.items
        obtain ⟨i, hi⟩ := exists_mem_of_ne_nil _ hne
        obtain ⟨hi, hown⟩ := mem_filter.mp hi
        refine ne_nil_of_mem (a := g i) (mem_filter.mpr ⟨?_, ?_⟩)
        · rw [hmap]
          exact mem_map_of_mem hi
        · rw [(hkeeps i).2.1]
          exact hown
      rcases status_of_all hmid hstands with happlied | hopen
      · exact .inr (hreleased happlied)
      · refine .inl fun job hjob => ?_
        rw [hstatus job hjob, hopen]
        rfl
    · exact .inr fun lock hlock => hnone lock (hall.locks hlock)
  · rw [hitems]
    exact uncertain_of_status ((hstatus job hjob).symm.trans hopen)

theorem recovers_moves
    (h : recoverJobIfStale hash jobId workerId token now w.state = .ok t) : Moves hash w l t :=
  .recovers (.refl _) ⟨jobId, workerId, token, now, h⟩

theorem reconcileApply_moves (rooted : Rooted w.state) :
    (reconcileApply hash fresh workspaceId jobId user workerId).Meets (.serial (ApplyStep hash))
      (fun _ _ => True) (fun _ _ => True) w := by
  refine Proc.Meets.bind (Q := fun _ v => Rooted v.state) ((transact_moves fun s _ hok => ?_).mono
    (fun _ _ h => h) fun _ _ _ => trivial) fun _ v rooted => ?_
  · obtain ⟨job, -, hok⟩ := bind_eq_ok.mp hok
    obtain ⟨next, hrecover, heq⟩ := map_eq_ok.mp hok
    obtain ⟨rfl, -⟩ := Prod.mk.inj heq
    have hmoves : Moves hash w (.commit (.recoverJob jobId)) next := recovers_moves hrecover
    exact ⟨hmoves, hmoves.rooted rooted⟩
  refine Proc.Meets.bind (Q := fun r v => InHand v.state jobId r)
    ((transact_moves fun s r hok => beginReconcile_moves rooted hok).mono (fun _ _ h => h)
      fun _ _ _ => trivial) fun r v inHand => ?_
  refine Proc.Meets.bind (executeWorkspace_moves (P := fun s => InHand s jobId r)
    (fun happends h => Appends.inHand happends h) (fun h => h.bears) inHand) fun results v inHand => ?_
  refine (transact_moves (Q := fun _ _ => True) fun s _ hok => ?_).anyEnd.bind
    fun _ v _ => applyShape_moves
  obtain ⟨_, hfinish, heq⟩ := map_eq_ok.mp hok
  cases heq
  exact ⟨finishReconcile_moves inHand hfinish, trivial⟩

theorem recoverIfStale_moves : (recoverIfStale hash jobId workerId token now).Meets (.serial (ApplyStep hash))
      (fun _ _ => True) (fun _ _ => True) w := by
  refine (transact_moves (Q := fun _ _ => True) fun s _ hok => ?_).anyEnd
  obtain ⟨_, hrecover, heq⟩ := map_eq_ok.mp hok
  cases heq
  exact ⟨recovers_moves hrecover, trivial⟩

theorem recoverAll_moves {token : Id → String} : (recoverAll hash workerId token now jobIds).Meets
      (.serial (ApplyStep hash)) (fun _ _ => True) (fun _ _ => True) w := by
  induction jobIds generalizing w with
  | nil => exact trivial
  | cons jobId rest ih => exact recoverIfStale_moves.bind fun _ _ _ => ih

/-- Every call is a run of such steps. -/
theorem ApplyCall.moves (h : ApplyCall u hash settings p)
    (rooted : Rooted w.state) : p.Meets (.serial (ApplyStep hash)) (fun _ _ => True)
      (fun _ _ => True) w := by
  cases h with
  | applySelected => exact (applySelected_moves rooted).bind fun _ _ _ => trivial
  | reconcileApply => exact (reconcileApply_moves rooted).bind fun _ _ _ => trivial
  | recoverStaleApplies => exact consult_moves.anyEnd.bind fun _ _ _ => recoverAll_moves
  | recoverIfStale => exact recoverIfStale_moves
  | saveMapping sourceId now =>
    refine (transact_moves (Q := fun _ _ => True) fun s _ hok => ?_).anyEnd
    cases hok
    exact ⟨.invalidated rfl rfl, trivial⟩
  | elsewhere h =>
    refine (h.mono fun a b hab => ?_).serial
    obtain ⟨l, s, rfl, hidle⟩ := hab
    exact Moves.step (.idle hidle)

/-- What every step keeps of the jobs' tables holds throughout, from tables that are rooted. -/
theorem applyCalls_keep (rooted : Rooted start)
    (run : Session (ApplyCall u hash settings) (.initial start) w) {P : World service → Prop}
    (hstart : P (.initial start))
    (step : ∀ w l t, Rooted w.state → P w → Moves hash w l t → P (w.log l t)) :
    Rooted w.state ∧ P w := by
  induction run with
  | start => exact ⟨rooted, hstart⟩
  | @call v w p q run hp steps ih =>
    obtain ⟨hrooted, hv⟩ := ih
    have hcarry := (hp.moves hrooted).carry (C := .alone fun w => Rooted w.state ∧ P w)
      (fun w => Rooted w.state ∧ P w) (fun _ _ h => h) (fun a b hab ha => hab ▸ ha) ?_
      ⟨hrooted, hv⟩
    · exact (steps.meets_alone ⟨hrooted, hv⟩ hcarry).1
    rintro a _ ⟨hrooted, hp⟩ ⟨l, s, rfl, hmoves⟩
    have hnext : Rooted s ∧ P (a.log l s) :=
      ⟨hmoves.rooted hrooted, step a l s hrooted hp hmoves⟩
    exact ⟨hnext, hnext⟩

end

end FlowHub.Workspace
