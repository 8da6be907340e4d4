import FlowHub.Workspace.Requests
import FlowHub.WritePipeline.Steps

namespace FlowHub.Workspace

open Python Txn WritePipeline

section

variable {u : Unicode} {hash : Hashing} {settings : Settings} {fresh : ApplyFresh}
  {a : Approved} {user : FlowHubUser} {workerId : String} {db db' : Db}

/-- The job's row once its worker is at work. -/
def running (fresh : ApplyFresh) (workerId : String) (job : ApplyJob) : ApplyJob :=
  claimJobLease workerId fresh.token fresh.started
    { job with status := .running, startedAt := some fresh.started, heartbeatAt := some fresh.started }

/-- The selection and the Dry Run that a running Apply has found in place. -/
structure Started (hash : Hashing) (a : Approved) (review : Review) (db : Db) : Prop where
  found : reviewOf db a.job.reviewId = some review
  ready : review.status = .ready
  selection : selectionStands hash a review db = true
  current : ∃ draft, draftOf db a.workspace.id = some draft ∧
    draft.currentRevisionId = some review.draftRevisionId
  verified : ∃ dryRun, dryRunOf db a.manifest.dryRunId = some dryRun ∧
    stands dryRun review a.selectionChecksum = true ∧ dryRun.reviewId = review.id

theorem startApply_cases (h : startApply hash settings fresh workerId a db = .ok (db', outcome)) :
    (∃ fault, outcome = .error fault ∧ Ages db db') ∨ outcome = .ok () ∧ ∃ review seeded,
        assertReviewFresh hash settings fresh.authorityEvent fresh.started review db =
          (seeded, .ok ()) ∧ Seeds db seeded ∧ Started hash a review seeded ∧
        db' = updateJob seeded a.job.id (running fresh workerId) := by
  obtain ⟨review, hreview, h⟩ := bind_eq_ok.mp h
  obtain ⟨_, hready, h⟩ := bind_eq_ok.mp h
  split at h
  · rename_i stale fault hfresh
    cases h
    obtain ⟨hbad, -⟩ | ⟨-, seeded, reason, hseeds, rfl⟩ :=
      assertReviewFresh_cases hash settings hfresh
    · cases hbad
    · exact .inl ⟨fault, rfl, seeded, _, _, reason, hseeds, rfl⟩
  · rename_i seeded hfresh
    obtain ⟨-, hseeds, -⟩ | ⟨hbad, -⟩ := assertReviewFresh_cases hash settings hfresh
    · obtain ⟨_, hselection, h⟩ := bind_eq_ok.mp h
      obtain ⟨draft, hdraft, h⟩ := bind_eq_ok.mp h
      obtain ⟨_, hcurrent, h⟩ := bind_eq_ok.mp h
      obtain ⟨dryRun, hdryRun, h⟩ := bind_eq_ok.mp h
      obtain ⟨_, hstands, h⟩ := bind_eq_ok.mp h
      cases h
      have hsame : reviewOf seeded a.job.reviewId = reviewOf db a.job.reviewId := by
        obtain ⟨heads, rfl⟩ := hseeds
        rfl
      have hboth := Bool.or_eq_false_iff.mp (refuse_ok.mp hstands)
      have hreview' : reviewOf seeded a.job.reviewId = some review := by
        rw [hsame]
        exact found_ok.mp hreview
      refine .inr ⟨rfl, review, seeded, hfresh, hseeds, ⟨hreview', ?_, ?_, ⟨draft, ?_, ?_⟩,
        dryRun, ?_, ?_, ?_⟩, rfl⟩
      · exact bne_eq_false_iff_eq.mp (refuse_ok.mp hready)
      · simpa using refuse_ok.mp hselection
      · exact found_ok.mp hdraft
      · exact bne_eq_false_iff_eq.mp (refuse_ok.mp hcurrent)
      · exact found_ok.mp hdryRun
      · simpa using hboth.1
      · exact bne_eq_false_iff_eq.mp hboth.2
    · cases hbad

theorem endStale_steady (a : Approved) (reviewId : Id) (reason : String) (now : Time) (db : Db) :
    Steady db (endStale a reviewId reason now db) := by
  refine (markStale_steady db reviewId now reason).trans (Progress.steady ?_)
  refine Progress.trans ?_ (releaseListingLocks_progress _ _)
  exact updateJob_progress _ _ fun _ => rfl

/-- The Apply has ended stale. -/
def EndsStale (a : Approved) (s t : Db) : Prop :=
  ∃ seeded reviewId reason now, Seeds s seeded ∧ t = endStale a reviewId reason now seeded

theorem EndsStale.steady (h : EndsStale a s t) : Steady s t := by
  obtain ⟨_, _, _, _, hseeds, rfl⟩ := h
  exact (Seeds.steady hseeds).trans (endStale_steady _ _ _ _ _)

/-- The last look at the authorization before the Channel is read. -/
structure Rechecked (u : Unicode) (hash : Hashing) (fresh : ApplyFresh) (a : Approved)
    (review : Review) (dryRun : DryRun) (db : Db) : Prop where
  found : reviewOf db a.job.reviewId = some review
  verified : dryRunOf db a.manifest.dryRunId = some dryRun
  stands : stands dryRun review a.selectionChecksum = true
  selection : selectionStands hash a review db = true
  source : assertSourceEvidenceCurrent u a.workspace a.snapshot db = .ok ()
  pricing : (pricingBindingIssues fresh.authorityEvent review db).2 = []
  young : ¬dryRun.createdAt + minutes staleApplyMinutes < fresh.checked

theorem pricingBindingIssues_seeds (events : Id → Id) (review : Review) (db : Db) :
    Seeds db (pricingBindingIssues events review db).1 :=
  verifyChannels_seeds events review.workspaceId _ db

theorem checkApply_cases (h : checkApply u hash fresh a db = .ok (db', outcome)) :
    (outcome = .stale ∧ EndsStale a db db') ∨ ∃ review dryRun, outcome = .ready review dryRun ∧
        Rechecked u hash fresh a review dryRun db ∧
        db' = (pricingBindingIssues fresh.authorityEvent review db).1 := by
  obtain ⟨review, hreview, h⟩ := bind_eq_ok.mp h
  obtain ⟨dryRun, hdryRun, h⟩ := bind_eq_ok.mp h
  obtain ⟨_, hstands, h⟩ := bind_eq_ok.mp h
  obtain ⟨_, hsource, h⟩ := bind_eq_ok.mp h
  have hseeds := pricingBindingIssues_seeds fresh.authorityEvent review db
  split at h
  · rename_i seeded hissues
    obtain ⟨_, hyoung, h⟩ := bind_eq_ok.mp h
    cases h
    have hboth := Bool.or_eq_false_iff.mp (refuse_ok.mp hstands)
    refine .inr ⟨review, dryRun, rfl, ⟨found_ok.mp hreview, found_ok.mp hdryRun, by simpa using hboth.1,
      by simpa using hboth.2, hsource, by rw [hissues], by simpa using refuse_ok.mp hyoung⟩,
      by rw [hissues]⟩
  · rename_i seeded issues _ hissues
    cases h
    rw [hissues] at hseeds
    exact .inl ⟨rfl, seeded, _, _, _, hseeds, rfl⟩

/-- The confirmed manifest is drawn up again, and its intents with it. -/
structure Intended (u : Unicode) (hash : Hashing) (settings : Settings) (a : Approved)
    (review : Review) (dryRun : DryRun) (job : ApplyJob) (intents : List WorkspaceWriteIntent)
    (db : Db) : Prop where
  found : db.applyJob a.job.id = some job
  manifest : (manifestDocument settings db review a.items dryRun.id dryRun.evidenceChecksum).map
    (fun drawn => some (hash.json drawn.1)) = .ok job.manifestChecksum
  intents : writeIntents u hash settings db job a.items a.selectionChecksum = .ok intents

theorem planApply_cases
    (h : planApply u hash settings fresh workerId user a review dryRun db = .ok (db', outcome)) :
    (outcome = .stale ∧ EndsStale a db db') ∨
      db' = db ∧ ∃ job intents, Intended u hash settings a review dryRun job intents db ∧
        outcome = .dispatch (applyCommand a job intents workerId fresh.token user) := by
  obtain ⟨⟨document, payloads⟩, hdrawn, h⟩ := bind_eq_ok.mp h
  obtain ⟨job, hjob, h⟩ := bind_eq_ok.mp h
  split at h
  · cases h
    exact .inl ⟨rfl, db, _, _, _, .refl db, rfl⟩
  rename_i hsame
  obtain ⟨intents, hintents, h⟩ := bind_eq_ok.mp h
  cases h
  refine .inr ⟨rfl, job, intents, ⟨found_ok.mp hjob, ?_, hintents⟩, rfl⟩
  rw [hdrawn]
  exact congrArg Except.ok (not_not.mp hsame)

theorem finishApply_steady (a : Approved) (t : Tally) (now : Time) (db : Db) :
    Steady db (finishApply a t now db) := by
  unfold finishApply
  dsimp only
  split
  · refine Steady.trans ?_ (releaseListingLocks_progress _ _).steady
    split
    · refine Steady.trans ?_ (markApplied_steady _ _)
      exact updateJob_steady _ _ fun _ => rfl
    · exact updateJob_steady _ _ fun _ => rfl
  · split
    · refine Steady.trans ?_ (markApplied_steady _ _)
      exact updateJob_steady _ _ fun _ => rfl
    · exact updateJob_steady _ _ fun _ => rfl

theorem abortApply_steady (jobId : Id) (now : Time) (db : Db) : Steady db (abortApply jobId now db) := by
  unfold abortApply
  dsimp only
  refine Progress.steady ?_
  split
  · exact updateJob_progress _ _ fun _ => rfl
  · refine Progress.trans ?_ (releaseListingLocks_progress _ _)
    exact updateJob_progress _ _ fun _ => rfl

end

end FlowHub.Workspace
