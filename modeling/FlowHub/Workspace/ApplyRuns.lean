import FlowHub.Workspace.ApplyCalls

namespace FlowHub.Workspace

open Python Txn WritePipeline List Option

/-- The items of an approved job are for the Review items it is to write. -/
structure Bound (db : Db) (a : Approved) : Prop where
  items : (jobItems db a.job.id).map ApplyJobItem.reviewItemId = a.items.map ReviewItem.id
  rows : a.items ⊆ db.reviewItems
  unique : (db.reviewItems.map ReviewItem.id).Nodup

/-- The job stands in a state of a kind. -/
def InState (db : Db) (jobId : Id) (kind : ApplyState → Prop) : Prop :=
  ∃ job, db.applyJob jobId = some job ∧ kind job.status

section

variable {u : Unicode} {hash : Hashing} {settings : Settings} {a : Approved} {s t : Db}
  {w : World service}

theorem Bound.same (h : Bound s a) (hitems : t.applyJobItems = s.applyJobItems)
    (hrows : t.reviewItems = s.reviewItems) : Bound t a := by
  refine ⟨?_, ?_, ?_⟩
  · unfold jobItems
    rw [hitems]
    exact h.items
  · rw [hrows]
    exact h.rows
  · rw [hrows]
    exact h.unique

variable {command : WorkspaceWriteBatchCommand} {results : List WorkspaceWriteResult}
  {workspaceId : Id} {r : Requested} {tag : Tag}

/-- A step with no local facts to it. -/
theorem transact_moves {α : Type} {f : Db → Except Fault (Db × α)} {Q : α → World service → Prop}
    (hf : ∀ t x, f w.state = .ok (t, x) → Moves hash w (.commit tag) t ∧ Q x (w.log (.commit tag) t)) :
    (Proc.transact tag f : Program α).Meets (.serial (ApplyStep hash)) Q
      (fun _ v => v.state = w.state) w := by
  refine Proc.Meets.transact ?_ ?_
  · rintro _ rfl s x hok
    obtain ⟨hmoves, hq⟩ := hf s x hok
    exact ⟨hmoves.step, hq⟩
  · rintro _ rfl e
    exact ⟨.still _ _, rfl⟩

theorem consult_moves : (Proc.consult tag f : Program α).Meets (.serial (ApplyStep hash))
      (fun _ v => v.state = w.state) (fun _ v => v.state = w.state) w := by
  refine Proc.Meets.consult ?_ ?_
  · rintro _ rfl _ _
    exact ⟨.still _ _, rfl⟩
  · rintro _ rfl _
    exact ⟨.still _ _, rfl⟩

variable {fresh : ApplyFresh} {user : FlowHubUser} {request : ApplyRequest} {l : Label service}
  {workerId : String} {items : List ReviewItem} {now : Time} {tally : Tally}

theorem applyShape_moves :
    (applyShape jobId user).Meets (.serial (ApplyStep hash)) (fun _ _ => True) (fun _ _ => True) w :=
  consult_moves.anyEnd

/-- What a request has approved, before anything is done for it. -/
structure Issued (db : Db) (a : Approved) : Prop extends Bound db a where
  pending : InState db a.job.id (· = .pending)
  unlocked : ∀ lock ∈ db.workspaceLocks, lock.applyJobId ≠ a.job.id

theorem approve_moves (idle : Idle w.state mid) (rooted : Rooted mid) (known : items ⊆ mid.reviewItems)
    (h : approve u hash fresh request workspace snapshot review c manifest items mid =
      .ok (t, r)) : Moves hash w l t ∧ ∀ a, r = .approved a → Issued t a := by
  obtain ⟨job, -, rfl, hrecovers⟩ | ⟨-, job, lockScope, rfl, -, hinserted, rfl⟩ := approve_cases h
  · exact ⟨.recovers idle hrecovers, fun a ha => by cases ha⟩
  set job := jobOf u hash fresh request workspace.id snapshot.id review manifest c.selectionChecksum
  have own : ∀ i ∈ items.mapIdx fun n i => newJobItem job.id (fresh.item n) i, i.applyJobId = job.id := by
    intro i hi
    obtain ⟨n, hn, rfl⟩ := mem_mapIdx.mp hi
    rfl
  refine ⟨.issued idle rfl own hinserted, fun a ha => ?_⟩
  obtain rfl := Requested.approved.inj ha
  have hold : jobItems mid job.id = [] := by
    refine filter_eq_nil_iff.mpr fun i hi hjob => ?_
    have hknown := rooted.items i hi
    rw [of_decide_eq_true hjob, hinserted.absent] at hknown
    cases hknown
  have hnew : jobItems t job.id = items.mapIdx fun n i => newJobItem job.id (fresh.item n) i := by
    have hitems : t.applyJobItems =
        mid.applyJobItems ++ items.mapIdx fun n i => newJobItem job.id (fresh.item n) i := by
      rw [hinserted.result]
    unfold jobItems at hold ⊢
    rw [hitems, filter_append, hold, nil_append]
    exact filter_eq_self.mpr fun i hi => decide_eq_true (own i hi)
  have hrows : t.reviewItems = mid.reviewItems := by rw [hinserted.result]
  have hlocks : t.workspaceLocks = mid.workspaceLocks := by rw [hinserted.result]
  refine ⟨⟨?_, ?_, ?_⟩, ⟨job, hinserted.applyJob, rfl⟩, fun lock hlock hjob => ?_⟩
  · rw [hnew]
    refine ext_getElem? fun n => ?_
    simp only [getElem?_map, getElem?_mapIdx, Option.map_map]
    rfl
  · rw [hrows]
    exact known
  · rw [hrows]
    exact rooted.rows
  · rw [hlocks] at hlock
    have hknown := rooted.locks lock hlock
    rw [hjob, hinserted.absent] at hknown
    cases hknown

theorem requestApply_moves (rooted : Rooted w.state)
    (h : requestApply u hash settings fresh request user w.state = .ok (t, r)) :
    Moves hash w l t ∧ ∀ a, r = .approved a → Issued t a := by
  obtain ⟨workspace, -, ⟨job, -, rfl, hrecovers⟩ | ⟨-, hnew⟩⟩ := requestApply_cases h
  · exact ⟨.recovers (.refl _) hrecovers, fun a ha => by cases ha⟩
  obtain ⟨review, snapshot, c, manifest, items, hchecks, ⟨fault, rfl, hages⟩ | ⟨seeded, hseeds,
    -, happrove⟩⟩ := requestNew_cases hnew
  · exact ⟨.idle hages.idle, fun a ha => by cases ha⟩
  obtain ⟨rfl, -⟩ := confirmedManifest_ok.mp hchecks.manifest
  have hidle := Seeds.idle hseeds
  refine approve_moves hidle (hidle.rooted rooted) ?_ happrove
  obtain ⟨_, rfl⟩ := hseeds
  exact fun row hrow => (mem_filter.mp (mem_filter.mp hrow).1).1

theorem requestedJob_moves (rooted : Rooted w.state) : (requestedJob u hash settings fresh request user).Meets
      (.serial (ApplyStep hash)) (fun r v => ∀ a, r = .approved a → Issued v.state a)
      (fun _ _ => True) w := by
  refine Proc.Meets.rescue (transact_moves fun s r hok => requestApply_moves rooted hok)
    fun e v _ => ?_
  split
  · refine Proc.Meets.consult ?_ fun _ _ _ => ⟨.still _ _, trivial⟩
    rintro _ rfl r hok
    refine ⟨.still _ _, fun a ha => ?_⟩
    subst ha
    split at hok
    · cases hok
    · cases hok
  · exact trivial

theorem acquireLock_ok (h : acquireLock workspaceId jobId now channelId listingId s = .ok t) :
    ∃ locks, t = { s with workspaceLocks := locks } ∧
      ∀ lock ∈ locks, lock ∈ s.workspaceLocks ∨ lock.applyJobId = jobId := by
  obtain ⟨_, -, h⟩ := bind_eq_ok.mp h
  obtain ⟨_, -, h⟩ := bind_eq_ok.mp h
  have hlocks : ∀ lock ∈ (s.workspaceLocks.filter fun l =>
      !(decide (l.channelId = channelId) && decide (l.listingId = listingId))) ++
        [(⟨workspaceId, channelId, listingId, jobId, now, now + minutes lockMinutes⟩ :
          WorkspaceLock)], lock ∈ s.workspaceLocks ∨ lock.applyJobId = jobId := by
    intro lock hlock
    rcases mem_append.mp hlock with hold | hnew
    · exact .inl (mem_filter.mp hold).1
    · obtain rfl := mem_singleton.mp hnew
      exact .inr rfl
  split at h
  · cases h
    exact ⟨_, rfl, hlocks⟩
  · obtain ⟨_, -, h⟩ := bind_eq_ok.mp h
    obtain ⟨_, -, h⟩ := bind_eq_ok.mp h
    cases h
    exact ⟨_, rfl, hlocks⟩

theorem acquireLocks_ok {jobId : Id} {scope : List (Id × Id)}
    (h : acquireLocks workspaceId jobId now scope s = .ok t) :
    ∃ locks, t = { s with workspaceLocks := locks } ∧
      ∀ lock ∈ locks, lock ∈ s.workspaceLocks ∨ lock.applyJobId = jobId := by
  induction scope generalizing s with
  | nil =>
    cases h
    exact ⟨_, rfl, fun _ hlock => .inl hlock⟩
  | cons pair rest ih =>
    obtain ⟨next, hlock, hrest⟩ := bind_eq_ok.mp h
    obtain ⟨_, rfl, hfirst⟩ := acquireLock_ok hlock
    obtain ⟨locks, rfl, hall⟩ := ih hrest
    refine ⟨locks, rfl, fun lock hmem => ?_⟩
    rcases hall lock hmem with hold | hnew
    · exact hfirst lock hold
    · exact .inr hnew

theorem lockListings_moves (issued : Issued w.state a) : (lockListings a now).Meets (.serial (ApplyStep hash))
      (fun _ v => Bound v.state a ∧ InState v.state a.job.id (· = .pending))
      (fun _ v => Issued v.state a) w := by
  refine Proc.Meets.rescue (transact_moves fun s _ hok => ?_) fun e v hv => ?_
  · obtain ⟨_, hacquire, heq⟩ := map_eq_ok.mp hok
    cases heq
    obtain ⟨locks, rfl, hnew⟩ := acquireLocks_ok hacquire
    obtain ⟨job, hjob, hpending⟩ := issued.pending
    refine ⟨.locks ⟨job, hjob, ?_⟩ hnew rfl, issued.toBound.same rfl rfl, job, hjob, hpending⟩
    rw [hpending]
    rfl
  · show Issued v.state a
    rw [hv]
    exact issued

theorem lockFailed_moves (issued : Issued w.state a) :
    (lockFailed a now).Meets (.serial (ApplyStep hash)) (fun _ _ => True) (fun _ _ => True) w := by
  refine (transact_moves (Q := fun _ _ => True) fun s _ hok => ?_).anyEnd
  cases hok
  refine ⟨.touches (updateJob_touches _ _ (by exact fun _ => rfl)) (fun _ => .inr issued.unlocked)
    fun _ job hjob hopen => ?_, trivial⟩
  have hfailed : job.status = .failed :=
    updateJob_status (P := (· = .failed)) (by exact fun _ => rfl) (by exact fun _ => rfl) job hjob
  rw [hfailed] at hopen
  cases hopen

theorem markApplied_touches (s : Db) (jobId workspaceId : Id) : Touches jobId s (markApplied s workspaceId) :=
  .of_job (f := id) (fun _ => rfl) (by simp [markApplied, Table.set]) rfl
    (Subset.refl _) rfl rfl

theorem endStale_moves (h : EndsStale a w.state t) : Moves hash w l t := by
  obtain ⟨seeded, reviewId, reason, now, ⟨heads, rfl⟩, rfl⟩ := h
  have hreview : Touches a.job.id w.state (updateReview { w.state with authorityHeads := heads }
      reviewId (markStale now reason)) :=
    .of_job (f := id) (fun _ => rfl) (by simp [updateReview, Table.set]) rfl
      (Subset.refl _) rfl rfl
  refine .touches ((hreview.trans (updateJob_touches _ _ (by exact fun _ => rfl))).trans
    (releaseListingLocks_touches _ _)) (fun _ => .inr (releaseListingLocks_none _ _))
    fun _ job hjob hopen => ?_
  have hstale : job.status = .stale :=
    updateJob_status (P := (· = .stale)) (by exact fun _ => rfl) (by exact fun _ => rfl) job hjob
  rw [hstale] at hopen
  cases hopen

theorem abort_moves : (abort a now e : Program α).Meets (.serial (ApplyStep hash)) (fun _ _ => True)
      (fun _ _ => True) w := by
  refine ((transact_moves (Q := fun _ _ => True) fun s _ hok => ?_).anyEnd).bind fun _ _ _ => trivial
  cases hok
  have htouches : Touches a.job.id w.state (abortApply a.job.id now w.state) := by
    unfold abortApply
    dsimp only
    split
    · exact updateJob_touches _ _ (by exact fun _ => rfl)
    · exact (updateJob_touches _ _ (by exact fun _ => rfl)).trans (releaseListingLocks_touches _ _)
  refine ⟨.touches htouches (fun _ => ?_) fun accounted job hjob hopen => ?_, trivial⟩
  · unfold abortApply
    dsimp only
    split
    · refine .inl fun job hjob => ?_
      exact updateJob_status (P := fun st => unfinished st = true) (by exact fun _ => rfl)
        (by exact fun _ => rfl) job hjob
    · exact .inr (releaseListingLocks_none _ _)
  · have hevent := accounted ⟨w.state, .commit (.abortApply a.job.id)⟩
      (mem_append_right _ (mem_singleton.mpr rfl))
    unfold abortApply at hjob ⊢
    dsimp only at hjob ⊢
    split at hjob
    · rename_i hdispatched
      rw [if_pos hdispatched]
      exact hevent hdispatched
    · have hfailed : job.status = .failed :=
        updateJob_status (P := (· = .failed)) (by exact fun _ => rfl) (by exact fun _ => rfl) job hjob
      rw [hfailed] at hopen
      cases hopen

theorem updateJob_applyJob (s : Db) (jobId : Id) (hf : ∀ j, (f j).id = j.id) :
    (updateJob s jobId f).applyJob jobId = (s.applyJob jobId).map f := by
  unfold Db.applyJob updateJob
  rw [Table.get_set hf, if_pos rfl]

theorem Seeds.bound (h : Seeds s t) (k : Bound s a) : Bound t a := by
  obtain ⟨_, rfl⟩ := h
  exact k.same rfl rfl

structure Working (db : Db) (a : Approved) : Prop extends Bound db a where
  running : InState db a.job.id (· = .running)

theorem Seeds.working (h : Seeds s t) (k : Working s a) : Working t a :=
  ⟨h.bound k.toBound, (by obtain ⟨_, rfl⟩ := h; exact k.running)⟩

theorem startApply_moves {outcome : Except Fault Unit} (bound : Bound w.state a)
    (pending : InState w.state a.job.id (· = .pending))
    (h : startApply hash settings fresh workerId a w.state = .ok (t, outcome)) :
    Moves hash w l t ∧ (outcome = .ok () → Working t a) := by
  obtain ⟨fault, rfl, hages⟩ | ⟨-, review, seeded, -, ⟨heads, rfl⟩, -, rfl⟩ := startApply_cases h
  · exact ⟨.idle hages.idle, fun h => by cases h⟩
  have htouches : Touches a.job.id w.state (updateJob { w.state with authorityHeads := heads }
      a.job.id (running fresh workerId)) :=
    .of_job (f := running fresh workerId) (fun _ => rfl) rfl rfl (Subset.refl _) rfl rfl
  refine ⟨.touches htouches (fun _ => .inl ?_) (fun _ => ?_), fun _ => ⟨bound.same rfl rfl, ?_⟩⟩
  · exact updateJob_status (P := fun st => unfinished st = true) (by exact fun _ => rfl)
      (by exact fun _ => rfl)
  · intro job hjob hopen
    have hrunning : job.status = .running :=
      updateJob_status (P := (· = .running)) (by exact fun _ => rfl) (by exact fun _ => rfl)
        job hjob
    rw [hrunning] at hopen
    cases hopen
  · obtain ⟨job, hjob, -⟩ := pending
    refine ⟨running fresh workerId job, ?_, rfl⟩
    rw [updateJob_applyJob _ _ (by exact fun _ => rfl)]
    exact congrArg (Option.map _) hjob

theorem reverifyLive_moves : (reverifyLive u hash settings dryRunId items).Meets (.serial (ApplyStep hash))
      (fun _ v => v.state = w.state) (fun _ _ => True) w := by
  induction items generalizing w with
  | nil => exact rfl
  | cons item rest ih =>
    refine Proc.Meets.bind (consult_moves.mono (fun _ _ h => h) fun _ _ _ => trivial)
      fun r v hv => ?_
    refine Proc.Meets.bind (Q := fun _ t => t.state = w.state) ?_ fun answer t ht => ?_
    · rintro _ rfl
      exact ⟨fun _ => ⟨.still _ _, hv⟩, fun _ => ⟨.still _ _, hv⟩⟩
    · refine Proc.Meets.bind (Q := fun _ r => r.state = w.state) ?_ fun _ r hr => ?_
      · exact Proc.Meets.ofExcept (fun _ _ => ht) fun _ _ => trivial
      · exact (ih (w := r)).mono (fun _ _ h => h.trans hr) fun _ _ h => h

theorem writeIntents_bears {db : Db} {job : ApplyJob}
    {selectionChecksum : String} {intents : List WorkspaceWriteIntent}
    (h : writeIntents u hash settings db job items selectionChecksum = .ok intents) :
    ∀ intent ∈ intents, Bears db intent.applyJobId intent := by
  intro intent hintent
  obtain ⟨⟨listingId, group⟩, -, hwrite⟩ := mem_of_mapM h hintent
  obtain ⟨basis, hbasis, hwrite⟩ := bind_eq_ok.mp hwrite
  obtain ⟨numbers, -, hwrite⟩ := bind_eq_ok.mp hwrite
  cases hwrite
  obtain ⟨⟨listing, cache, product⟩, -, hbasis⟩ := bind_eq_ok.mp hbasis
  obtain ⟨capabilities, -, hbasis⟩ := bind_eq_ok.mp hbasis
  obtain ⟨review, -, hbasis⟩ := bind_eq_ok.mp hbasis
  obtain ⟨binding, -, hbasis⟩ := bind_eq_ok.mp hbasis
  cases hbasis
  refine ⟨rfl, fun itemId hmem => ?_⟩
  obtain ⟨i, hi, rfl⟩ := mem_map.mp ((perm_insertionSort _ _).mem_iff.mp hmem)
  obtain ⟨hi, hown⟩ := mem_filter.mp hi
  exact ⟨i, hi, rfl, of_decide_eq_true (Bool.and_eq_true_iff.mp hown).1⟩

/-- The write pipeline leaves standing whatever attempts do not bear on. -/
theorem executeWorkspace_moves {fresh : WritePipeline.Fresh}
    {reconcileOnly : Bool} {P : Db → Prop} (stays : ∀ {s t}, Appends s t → P s → P t)
    (bears : ∀ {s}, P s → ∀ intent ∈ command.intents, Bears s intent.applyJobId intent)
    (h : P w.state) : (executeWorkspace fresh command reconcileOnly).Meets
      (.serial (ApplyStep hash)) (fun _ v => P v.state) (fun _ _ => True) w := by
  have hdoes : Proc.Does (Executes command) (executeWorkspace fresh command reconcileOnly) :=
    executeWorkspace_does
  have hcarry := (hdoes w).carry (C := .serial (ApplyStep hash)) (fun v => P v.state)
    (fun _ _ _ => trivial) (fun a b hab ha => hab ▸ ha) ?_ h
  · exact hcarry.mono (fun _ _ h => h.2) fun _ _ _ => trivial
  · rintro v _ hv ⟨l, s, rfl, -, happends, hrecords⟩
    exact ⟨Moves.step (.executes happends hrecords (bears hv)), stays happends hv⟩

/-- Where anything is counted as uncertain, an item is. -/
def Tallied (a : Approved) (tally : Tally) (v : World service) : Prop :=
  (∀ e ∈ v.past, Accounted e) → 0 < tally.reconciliation → ∃ i ∈ jobItems v.state a.job.id, uncertain i = true

theorem recordOutcomes_ok (h : recordOutcomes hash fresh workerId a results s = .ok (t, tally)) :
    Recording a.job.id a.items outcomeStatus results (updateJob s a.job.id fun j => { j with
      heartbeatAt := some fresh.recorded,
      leaseExpiresAt := some (fresh.recorded + minutes leaseMinutes) }) t ∧
    (0 < tally.reconciliation → ∃ r ∈ results, r.outcome = .reconciliationRequired ∧
      ∃ i ∈ a.items, i.listingId = r.listingId) := by
  obtain ⟨job, hjob, h⟩ := bind_eq_ok.mp h
  obtain ⟨_, -, h⟩ := bind_eq_ok.mp h
  obtain ⟨_, -, h⟩ := bind_eq_ok.mp h
  have hid : job.id = a.job.id := (Table.get_some (found_ok.mp hjob)).2
  have hrecording := recordAll_recording h
  rw [hid] at hrecording
  refine ⟨hrecording, fun hpos => ?_⟩
  exact (recordAll_tally h hpos).resolve_left (Nat.not_lt_zero 0)

theorem recordOutcomes_moves (working : Working w.state a)
    (h : recordOutcomes hash fresh workerId a results w.state = .ok (t, tally)) :
    Moves hash w (.commit (.recordOutcomes a.job.id results)) t ∧
      Tallied a tally (w.log (.commit (.recordOutcomes a.job.id results)) t) := by
  obtain ⟨hrecording, htally⟩ := recordOutcomes_ok h
  have hrunning : ∀ job, t.applyJob a.job.id = some job → job.status = .running := by
    intro job hjob
    obtain ⟨g, _, -, -, rfl⟩ := hrecording.reworks
    obtain ⟨row, hrow, hstatus⟩ := working.running
    have hupdate := updateJob_applyJob w.state a.job.id (f := fun j => { j with
      heartbeatAt := some fresh.recorded,
      leaseExpiresAt := some (fresh.recorded + minutes leaseMinutes) }) fun _ => rfl
    rw [hrow] at hupdate
    obtain rfl := some.inj (hupdate.symm.trans hjob)
    exact hstatus
  refine ⟨.touches ((updateJob_touches _ _ (by exact fun _ => rfl)).trans hrecording.reworks.touches)
    (fun _ => .inl fun job hjob => ?_) fun _ job hjob hopen => ?_, fun accounted hpos => ?_⟩
  · rw [hrunning job hjob]
    rfl
  · rw [hrunning job hjob] at hopen
    cases hopen
  · obtain ⟨r, hr, houtcome, row, hrow, hlisting⟩ := htally hpos
    have hevent := accounted ⟨w.state, .commit (.recordOutcomes a.job.id results)⟩
      (mem_append_right _ (mem_singleton.mpr rfl))
    have hget : ∀ row ∈ a.items,
        Table.get ReviewItem.id w.state.reviewItems row.id = some row := fun row hrow =>
      Table.get_of_mem working.unique (working.rows hrow)
    have hmem : row.id ∈ (jobItems w.state a.job.id).map ApplyJobItem.reviewItemId := by
      rw [working.items]
      exact mem_map_of_mem hrow
    obtain ⟨i, hi, hid⟩ := mem_map.mp hmem
    obtain ⟨j, hj, hlast⟩ := hevent ⟨i, hi, row, hid ▸ hget row hrow, r, hr, houtcome, hlisting⟩
    obtain ⟨found, hfound, hlast⟩ := bind_eq_some_iff.mp hlast
    obtain ⟨last, hlastResult, houtcome⟩ := map_eq_some_iff.mp hlast
    have hmem : j.reviewItemId ∈ a.items.map ReviewItem.id := by
      rw [← working.items]
      exact mem_map_of_mem hj
    obtain ⟨own, hown, hownId⟩ := mem_map.mp hmem
    obtain rfl : own = found := by
      rw [← hownId, hget own hown] at hfound
      exact some.inj hfound
    obtain ⟨hj, hjob⟩ := mem_filter.mp hj
    obtain ⟨i', hi', hjob', hstatus⟩ := hrecording.item (fun r hr hrid =>
      inj_on_of_nodup_map working.unique (working.rows hr) (working.rows hown) hrid) hown hj
      (of_decide_eq_true hjob) hownId.symm
    refine ⟨i', mem_filter.mpr ⟨hi', decide_eq_true hjob'⟩, ?_⟩
    rw [hlastResult, map_some, getD_some, houtcome] at hstatus
    rw [uncertain, hstatus]
    rfl

theorem finishApply_moves
    (tallied : Tallied a tally w) : Moves hash w l (finishApply a tally now w.state) := by
  have hupdate := updateJob_touches w.state a.job.id (f := fun j =>
    { dropLease j with status := tally.status, completedAt := some now }) fun _ => rfl
  have hopen : tally.reconciliation ≠ 0 → tally.status = .reconciliationRequired :=
    fun h => if_pos (Nat.pos_of_ne_zero h)
  have hended : tally.reconciliation = 0 → tally.status ≠ .reconciliationRequired := by
    intro h
    unfold Tally.status
    rw [h, if_neg (Nat.lt_irrefl 0)]
    split
    · decide
    · split
      · decide
      · decide
  set updated := updateJob w.state a.job.id fun j =>
    { dropLease j with status := tally.status, completedAt := some now }
  have hstatus : ∀ job, updated.applyJob a.job.id = some job → job.status = tally.status :=
    updateJob_status (P := (· = tally.status)) (by exact fun _ => rfl) (by exact fun _ => rfl)
  by_cases hzero : tally.reconciliation = 0
  · have happlied : ∀ marked, Touches a.job.id updated marked →
        (∀ job, marked.applyJob a.job.id = some job → job.status = tally.status) →
        Moves hash w l (releaseListingLocks marked a.job.id) := fun marked htouches hjobs =>
      .touches ((hupdate.trans htouches).trans (releaseListingLocks_touches _ _))
        (fun _ => .inr (releaseListingLocks_none _ _))
        fun _ job hjob hrec => absurd ((hjobs job hjob).symm.trans hrec) (hended hzero)
    unfold finishApply
    rw [if_pos hzero]
    split
    · exact happlied _ (markApplied_touches _ _ _) hstatus
    · exact happlied _ (.refl _ _) hstatus
  · unfold finishApply
    rw [if_neg hzero, if_neg (by rw [hopen hzero]; decide)]
    refine .touches hupdate (fun _ => .inl fun job hjob => ?_) fun accounted job hjob _ => ?_
    · rw [hstatus job hjob, hopen hzero]
      rfl
    · exact tallied (fun e he => accounted e (mem_append_left _ he)) (Nat.pos_of_ne_zero hzero)

theorem dispatchApply_moves (working : Working w.state a)
    (bears : ∀ intent ∈ command.intents, Bears w.state intent.applyJobId intent) :
    (dispatchApply hash fresh workerId a command).Meets (.serial (ApplyStep hash))
      (fun _ _ => True) (fun _ _ => True) w := by
  refine Proc.Meets.bind (executeWorkspace_moves (P := fun s => Working s a ∧
    ∀ intent ∈ command.intents, Bears s intent.applyJobId intent) ?_ (fun h => h.2)
    ⟨working, bears⟩) fun results v hv => ?_
  · rintro s _ ⟨_, _, _, rfl⟩ ⟨hworking, hbears⟩
    exact ⟨⟨hworking.toBound.same rfl rfl, hworking.running⟩, hbears⟩
  refine Proc.Meets.bind (Q := fun tally t => Tallied a tally t) ?_ fun tally t ht => ?_
  · exact (transact_moves fun s tally hok => recordOutcomes_moves hv.1 hok).mono
      (fun _ _ h => h) fun _ _ _ => trivial
  · refine (transact_moves (Q := fun _ _ => True) fun s _ hok => ?_).anyEnd
    cases hok
    exact ⟨finishApply_moves ht, trivial⟩

theorem runApply_moves (bound : Bound w.state a) (pending : InState w.state a.job.id (· = .pending)) :
    (runApply u hash settings fresh workerId user a).Meets (.serial (ApplyStep hash))
      (fun _ _ => True) (fun _ _ => True) w := by
  refine Proc.Meets.bind (Q := fun outcome v => outcome = .ok () → Working v.state a)
    ((transact_moves fun s outcome hok => startApply_moves bound pending hok).mono
      (fun _ _ h => h) fun _ _ _ => trivial) fun started v hv => ?_
  refine Proc.Meets.bind (Q := fun _ v => Working v.state a)
    (Proc.Meets.ofExcept (fun _ h => hv h) fun _ _ => trivial) fun _ v working => ?_
  refine Proc.Meets.bind (Q := fun checked v => ∀ review dryRun, checked = .ready review dryRun →
    Working v.state a) ((transact_moves fun s checked hok => ?_).mono (fun _ _ h => h)
      fun _ _ _ => trivial) fun checked v hready => ?_
  · obtain ⟨rfl, hends⟩ | ⟨review, dryRun, rfl, -, rfl⟩ := checkApply_cases hok
    · exact ⟨endStale_moves hends, fun _ _ h => by cases h⟩
    · have hseeds := pricingBindingIssues_seeds fresh.authorityEvent review v.state
      exact ⟨.idle hseeds.idle, fun _ _ _ => hseeds.working working⟩
  cases checked with
  | stale => exact applyShape_moves.bind fun _ _ _ => trivial
  | ready review dryRun =>
    refine reverifyLive_moves.bind fun _ v hv => ?_
    have working := hready review dryRun rfl
    rw [← hv] at working
    refine Proc.Meets.bind (Q := fun planned v => ∀ command, planned = .dispatch command →
      Working v.state a ∧ ∀ intent ∈ command.intents, Bears v.state intent.applyJobId intent)
      ((transact_moves fun s planned hok => ?_).mono (fun _ _ h => h) fun _ _ _ => trivial)
      fun planned v hplanned => ?_
    · obtain ⟨rfl, hends⟩ | ⟨rfl, job, intents, hintended, rfl⟩ := planApply_cases hok
      · exact ⟨endStale_moves hends, fun _ h => by cases h⟩
      · refine ⟨.idle (.refl _), fun command h => ?_⟩
        obtain rfl := Planned.dispatch.inj h
        exact ⟨working, writeIntents_bears hintended.intents⟩
    · cases planned with
      | stale => exact applyShape_moves.bind fun _ _ _ => trivial
      | dispatch command =>
        obtain ⟨working, bears⟩ := hplanned command rfl
        exact (dispatchApply_moves working bears).bind fun _ _ _ => trivial

theorem applySelected_moves
    (rooted : Rooted w.state) : (applySelected u hash settings fresh request user).Meets
      (.serial (ApplyStep hash)) (fun _ _ => True) (fun _ _ => True) w := by
  refine (requestedJob_moves rooted).bind fun r v hr => ?_
  cases r with
  | existing jobId => exact applyShape_moves
  | stale fault => exact trivial
  | approved a =>
    refine (lockListings_moves (hr a rfl)).tryElse (fun _ v hv => ?_) fun e v issued => ?_
    · refine (runApply_moves hv.1 hv.2).tryElse (fun ended v _ => ?_) fun e v _ => abort_moves
      cases ended with
      | some job => exact trivial
      | none => exact applyShape_moves
    · exact (lockFailed_moves issued).bind fun _ _ _ => trivial

end

end FlowHub.Workspace
