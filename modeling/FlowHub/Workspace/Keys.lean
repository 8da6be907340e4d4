import FlowHub.Workspace.Session

namespace FlowHub.Workspace

open Python Txn WritePipeline List Option

section

variable {u : Unicode} {hash : Hashing} {settings : Settings}

/-- Every job is of a Review there is, and no two share an id or a key. -/
structure Keyed (hash : Hashing) (db : Db) : Prop where
  grounded : ∀ job ∈ identities db, Grounded hash db job
  distinct : (identities db).Pairwise fun a b => jobClashes a b = false

theorem Grounded.keeps (h : Grounded hash s job)
    (reviews : ∀ id r, reviewOf s id = some r → ∃ r', reviewOf t id = some r' ∧ SameBasis r r') :
    Grounded hash t job := by
  obtain ⟨review, hreview, hsnapshot, hrevision⟩ := h.review
  obtain ⟨r', hr', -, hsnapshot', hrevision'⟩ := reviews _ review hreview
  exact ⟨⟨r', hr', hsnapshot.trans hsnapshot'.symm, hrevision.trans hrevision'.symm⟩, h.operation⟩

theorem Effect.reviews (h : Effect hash settings s l t) :
    ∀ id r, reviewOf s id = some r → ∃ r', reviewOf t id = some r' ∧ SameBasis r r' := by
  intro id r hr
  rcases h.reruns with hreruns | ⟨fresh, opened, scopes, now, -, -, -, hclosed⟩
  · obtain ⟨r', hr', hbasis, -⟩ := hreruns.reviews id r hr
    exact ⟨r', hr', hbasis⟩
  · obtain ⟨_, _, rfl⟩ := hclosed.stored
    exact ⟨r, hr, rfl, rfl, rfl⟩

/-- A job's row is updated, never replaced, and jobs are only added, under new keys. -/
theorem Effect.jobs (h : Effect hash settings s l t) :
    identities t = identities s ∨ ∃ job, Grounded hash s job ∧ (∀ j ∈ s.applyJobs, jobClashes job j = false) ∧
      identities t = identities s ++ [identity job] := by
  cases h with
  | steady h => exact .inl h.jobs
  | drafts h =>
    obtain ⟨_, _, _, rfl⟩ := h
    exact .inl rfl
  | hides h =>
    obtain ⟨_, _, _, rfl⟩ := h.rest
    exact .inl rfl
  | selects h =>
    rw [h.result]
    exact .inl rfl
  | reviewed h =>
    obtain ⟨_, _, _, rfl⟩ := h.result
    exact .inl rfl
  | closed _ _ _ h =>
    obtain ⟨_, _, rfl⟩ := h.stored
    exact .inl rfl
  | issued seeds grounded h =>
    obtain ⟨_, rfl⟩ := seeds
    refine .inr ⟨_, grounded, h.unique, ?_⟩
    rw [h.result]
    simp [identities, map_append, map_cons, map_nil]

theorem Keyed.step {w v : World service} (h : Keyed hash w.state) (k : CallStep u hash settings w v) :
    Keyed hash v.state ∧ identities w.state <+: identities v.state := by
  obtain ⟨l, s, rfl, heffect⟩ := k.effects
  have hreviews := heffect.reviews
  rcases heffect.jobs with hjobs | ⟨job, hgrounded, hunique, hjobs⟩
  · refine ⟨⟨fun j hj => ?_, ?_⟩, hjobs.symm ▸ prefix_rfl⟩
    · rw [World.log_state, hjobs] at hj
      exact (h.grounded j hj).keeps hreviews
    · rw [World.log_state, hjobs]
      exact h.distinct
  · refine ⟨⟨fun j hj => ?_, ?_⟩, hjobs ▸ prefix_append _ _⟩
    · rw [World.log_state, hjobs] at hj
      rcases mem_append.mp hj with hj | hj
      · exact (h.grounded j hj).keeps hreviews
      · rw [mem_singleton.mp hj]
        exact Grounded.keeps ⟨hgrounded.review, hgrounded.operation⟩ hreviews
    · rw [World.log_state, hjobs]
      refine pairwise_append.mpr ⟨h.distinct, pairwise_singleton _ _, ?_⟩
      intro a ha b hb
      obtain ⟨j, hj, rfl⟩ := mem_map.mp ha
      rw [mem_singleton.mp hb]
      obtain ⟨hid, hkey, hoperation⟩ := jobClashes_eq_false.mp (hunique j hj)
      exact jobClashes_eq_false.mpr ⟨hid.symm, hkey.symm, hoperation.symm⟩

/-- The job is of the call's Workspace, Review and selection. -/
def IsFor (u : Unicode) (request : ApplyRequest) (job : ApplyJob) : Prop :=
  job.workspaceId = request.workspaceId ∧ job.reviewId = request.reviewId ∧
    job.selectionChecksum = canonicalText u request.expectedSelectionChecksum

/-- A job under the call's key, if there is one, is of the call's request. -/
def KeyFits (u : Unicode) (request : ApplyRequest) (db : Db) : Prop :=
  ∀ job ∈ identities db, job.idempotencyKey = canonicalText u request.idempotencyKey → IsFor u request job

/-- No job does what the call asks for under another key than the call's. -/
def Unshared (u : Unicode) (request : ApplyRequest) (db : Db) : Prop :=
  ∀ job ∈ identities db, IsFor u request job →
    job.manifestChecksum = some (canonicalText u request.expectedManifestChecksum) →
    job.idempotencyKey = canonicalText u request.idempotencyKey

/-- No stored job's operation has the hash of the call's without being the same. -/
def Apart (u : Unicode) (hash : Hashing) (request : ApplyRequest) (db : Db) : Prop :=
  ∀ review snapshot, reviewOf db request.reviewId = some review →
    snapshotOf db request.workspaceId = some snapshot →
    ∀ job ∈ identities db, ∀ manifestChecksum, job.manifestChecksum = some manifestChecksum →
      let stored := operationDocument job.workspaceId job.snapshotId job.draftRevisionId
        job.reviewId job.selectionChecksum manifestChecksum
      let asked := operationDocument request.workspaceId snapshot.id review.draftRevisionId
        request.reviewId (canonicalText u request.expectedSelectionChecksum)
        (canonicalText u request.expectedManifestChecksum)
      hash.json stored = hash.json asked → stored = asked

theorem operationDocument_inj
    (h : operationDocument workspaceId snapshotId draftRevisionId reviewId selection manifest =
      operationDocument workspaceId' snapshotId' draftRevisionId' reviewId' selection' manifest') :
    workspaceId = workspaceId' ∧ reviewId = reviewId' ∧ selection = selection' ∧ manifest = manifest' := by
  simp only [operationDocument, Json.obj.injEq, cons.injEq, Prod.mk.injEq, Json.str.injEq,
    true_and, and_true] at h
  obtain ⟨-, hmanifest, hreview, hselection, -, hworkspace⟩ := h
  exact ⟨hworkspace, hreview, hselection, hmanifest⟩

section

variable {fresh : ApplyFresh} {request : ApplyRequest} {user : FlowHubUser} {db db' : Db}

theorem eq_of_clash {jobs : List ApplyJob} (h : jobs.Pairwise fun a b => jobClashes a b = false)
    {a b : ApplyJob} (ha : a ∈ jobs) (hb : b ∈ jobs) (clash : a.id = b.id ∨
      a.idempotencyKey = b.idempotencyKey ∨ a.logicalOperationKey = b.logicalOperationKey) :
    a = b := by
  by_contra hne
  have hsymm : Std.Symm fun x y : ApplyJob => jobClashes x y = false := by
    constructor
    intro x y hxy
    obtain ⟨hid, hkey, hoperation⟩ := jobClashes_eq_false.mp hxy
    exact jobClashes_eq_false.mpr ⟨hid.symm, hkey.symm, hoperation.symm⟩
  obtain ⟨hid, hkey, hoperation⟩ := jobClashes_eq_false.mp (h.forall ha hb hne)
  rcases clash with hclash | hclash | hclash
  · exact hid hclash
  · exact hkey hclash
  · exact hoperation hclash

theorem Keyed.get (h : Keyed hash db) {job : ApplyJob} (hjob : job ∈ identities db) :
    Table.get ApplyJob.id (identities db) job.id = some job := by
  cases hget : Table.get ApplyJob.id (identities db) job.id with
  | none => exact absurd rfl (Table.get_none.mp hget job hjob)
  | some found =>
    obtain ⟨hmem, hid⟩ := Table.get_some hget
    rw [eq_of_clash h.distinct hmem hjob (.inl hid)]

/-- The job a request goes on with is the one the call asks for exactly when its key fits. -/
def Answers (u : Unicode) (request : ApplyRequest) (db db' : Db) (jobId : Id) : Prop :=
  ∃ job, Table.get ApplyJob.id (identities db') jobId = some job ∧
    (IsFor u request job ↔ KeyFits u request db) ∧
    (KeyFits u request db → Unshared u request db →
      job.idempotencyKey = canonicalText u request.idempotencyKey)

/-- The job under the call's key is taken for the call's. -/
theorem Keyed.byKey (h : Keyed hash db) (same : identities db' = identities db) {job : ApplyJob}
    (hjob : jobByKey db (canonicalText u request.idempotencyKey) = some job) :
    Answers u request db db' job.id := by
  obtain ⟨hrow, hkey⟩ := jobByKey_some hjob
  have hmem : identity job ∈ identities db := mem_map_of_mem hrow
  refine ⟨identity job, by rw [same]; exact h.get hmem, ⟨fun hfor other hother hsame => ?_, fun hfits =>
    hfits _ hmem hkey⟩, fun _ _ => hkey⟩
  rw [eq_of_clash h.distinct hother hmem (.inr (.inl (hsame.trans hkey.symm)))]
  exact hfor

theorem keyFits_of_free (h : jobByKey db (canonicalText u request.idempotencyKey) = none) :
    KeyFits u request db := by
  intro job hjob hkey
  obtain ⟨row, hrow, rfl⟩ := mem_map.mp hjob
  exact absurd (decide_eq_true hkey) (find?_eq_none.mp h row hrow)

/-- A new key is answered by the job of the same operation, or by the call's own. -/
theorem requestNew_answers (keyed : Keyed hash db) (apart : Apart u hash request db)
    (hworkspace : workspace.id = request.workspaceId)
    (hfree : jobByKey db (canonicalText u request.idempotencyKey) = none)
    (h : requestNew u hash settings fresh request workspace db = .ok (db', r))
    (hr : r.jobId = some jobId) : Answers u request db db' jobId := by
  have hfits := keyFits_of_free hfree
  obtain ⟨review, snapshot, c, manifest, items, hchecks, ⟨fault, rfl, -⟩ | ⟨seeded, ⟨heads, rfl⟩,
    -, happrove⟩⟩ := requestNew_cases h
  · cases hr
  obtain ⟨hreview, -, -, hsnapshot, -⟩ := currentReview_ok.mp hchecks.current
  obtain ⟨rfl, hconfirms⟩ := confirmedSelection_ok.mp hchecks.selection
  obtain ⟨-, dryRun, hmanifested⟩ := confirmedManifest_ok.mp hchecks.manifest
  have hid : review.id = request.reviewId := (Table.get_some hreview).2
  rw [hworkspace] at hsnapshot
  obtain ⟨job, hjob, rfl, hrecovers⟩ | ⟨-, job, lockScope, rfl, -, hinserted, rfl⟩ :=
    approve_cases happrove
  · cases hr
    obtain ⟨hrow, hoperationKey⟩ := jobByOperation_some hjob
    have hmem : identity job ∈ identities db := mem_map_of_mem hrow
    have hkey : (identity job).logicalOperationKey = hash.json (operationDocument workspace.id
        snapshot.id review.draftRevisionId review.id (confirmedOf hash review db).selectionChecksum
        manifest.manifestChecksum) := hoperationKey
    obtain ⟨stored, hstored, hoperation⟩ := (keyed.grounded _ hmem).operation
    rw [hworkspace, hid, ← hconfirms.expected_eq, ← hmanifested.expected_eq, hoperation] at hkey
    obtain ⟨hsameWorkspace, hsameReview, hsameSelection, hsameManifest⟩ :=
      operationDocument_inj (apart review snapshot hreview hsnapshot _ hmem stored hstored hkey)
    have hfor : IsFor u request (identity job) := ⟨hsameWorkspace, hsameReview, hsameSelection⟩
    refine ⟨identity job, ?_, iff_of_true hfor hfits, fun _ hunshared => ?_⟩
    · rw [hrecovers.progress.jobs]
      exact keyed.get hmem
    · exact hunshared _ hmem hfor (hstored.trans (congrArg some hsameManifest))
  · cases hr
    refine ⟨identity (jobOf u hash fresh request workspace.id snapshot.id review manifest
      (confirmedOf hash review db).selectionChecksum), ?_,
      iff_of_true ⟨hworkspace, hid, hconfirms.expected_eq.symm⟩ hfits, fun _ _ => rfl⟩
    rw [← applyJob_identity]
    exact congrArg (Option.map identity) hinserted.applyJob

theorem requestApply_answers (keyed : Keyed hash db) (apart : Apart u hash request db)
    (h : requestApply u hash settings fresh request user db = .ok (db', r))
    (hr : r.jobId = some jobId) : Answers u request db db' jobId := by
  obtain ⟨workspace, hworkspace, ⟨job, hjob, rfl, hrecovers⟩ | ⟨hfree, hnew⟩⟩ :=
    requestApply_cases h
  · cases hr
    exact keyed.byKey hrecovers.progress.jobs hjob
  · exact requestNew_answers keyed apart (editableWorkspace_ok hworkspace).2 hfree hnew hr

/-- What a call that returns has returned. -/
theorem applySelected_answers {w : World service} (keyed : Keyed hash w.state)
    (apart : Apart u hash request w.state) :
    (applySelected u hash settings fresh request user).Meets .free
      (fun job v => Keyed hash v.state ∧ identity job ∈ identities v.state ∧
        (IsFor u request job ↔ KeyFits u request w.state) ∧
        (KeyFits u request w.state → Unshared u request w.state →
          job.idempotencyKey = canonicalText u request.idempotencyKey))
      (fun _ _ => True) w := by
  rw [applySelected_eq]
  refine Proc.Meets.bind (Q := fun r v => Keyed hash v.state ∧ (∀ a, r = .approved a → Granted v.state a) ∧
    ∀ jobId, r.jobId = some jobId → Answers u request w.state v.state jobId) ?_ fun r v hv => ?_
  · refine Proc.Meets.rescue (E := fun _ v => v.state = w.state) ?_ fun e v hv => ?_
    · refine Proc.Meets.transact ?_ ?_
      · rintro _ rfl s r hok
        have hstep : CallStep u hash settings w (w.log (.commit (.requestApply fresh.job)) s) :=
          .effect (foreign_of_tag rfl rfl rfl) (requestApply_effect hok).1
        exact ⟨trivial, (keyed.step hstep).1, (requestApply_effect (l := .commit (.requestApply
          fresh.job)) hok).2, fun jobId hr => requestApply_answers keyed apart hok hr⟩
      · rintro _ rfl e
        exact ⟨trivial, rfl⟩
    · split
      · refine Proc.Meets.consult ?_ fun _ _ _ => ⟨trivial, trivial⟩
        rintro _ rfl r hok
        rw [World.log_state, hv]
        rw [hv] at hok
        split at hok
        · rename_i job hjob
          cases hok
          refine ⟨trivial, keyed, fun a ha => Requested.noConfusion ha, fun jobId hr => ?_⟩
          cases hr
          exact keyed.byKey rfl hjob
        · cases hok
      · exact trivial
  · obtain ⟨hkeyed, hgranted, hanswers⟩ := hv
    have hsteps : (continueApply u hash settings fresh request user r).Meets
        (.serial (CallStep u hash settings)) _ _ v := continueApply_steps hgranted
    have hcarry := hsteps.carry (C := .free)
      (fun t => Keyed hash t.state ∧ identities v.state <+: identities t.state) (fun _ _ h => h)
      (fun a b hab ha => hab ▸ ha) ?_ ⟨hkeyed, prefix_rfl⟩
    · refine hcarry.mono ?_ fun _ _ _ => trivial
      rintro job t ⟨⟨jobId, hr, hjob⟩, htkeyed, hlater⟩
      obtain ⟨stored, hstored, hfor, hkey⟩ := hanswers jobId hr
      have hmem := hlater.subset (Table.get_some hstored).1
      have hread : Table.get ApplyJob.id (identities t.state) jobId = some (identity job) := by
        rw [← applyJob_identity, hjob]
        rfl
      obtain ⟨hjobMem, hjobId⟩ := Table.get_some hread
      have hsame : identity job = stored := by
        refine eq_of_clash htkeyed.distinct hjobMem hmem (.inl ?_)
        exact hjobId.trans (Table.get_some hstored).2.symm
      rw [← hsame] at hfor hkey
      exact ⟨htkeyed, hjobMem, hfor, hkey⟩
    · rintro a b ⟨ha, hlater⟩ hstep
      obtain ⟨hb, hmore⟩ := ha.step hstep
      exact ⟨trivial, hb, hlater.trans hmore⟩

theorem keyed_always {w v : World service} (h : Keyed hash w.state)
    (run : Session (WorkspaceCall u hash settings) w v) :
    Keyed hash v.state ∧ identities w.state <+: identities v.state := by
  have hstep : ∀ a b : World service, (Keyed hash a.state ∧ identities w.state <+: identities a.state) →
      CallStep u hash settings a b →
      Keyed hash b.state ∧ identities w.state <+: identities b.state := by
    rintro a b ⟨ha, hlater⟩ hab
    obtain ⟨hb, hmore⟩ := ha.step hab
    exact ⟨hb, hlater.trans hmore⟩
  exact run.keeps ⟨h, prefix_rfl⟩ (fun p hp x => hp.steps x) hstep

/-- A call that returns answers with a job of its own request exactly when its key fits; of two
calls under one key that both fit, the second asks for what the first did; and one request
never has two jobs. -/
theorem keys_sound_iff {start : Db} (unissued : start.applyJobs = []) {w : World service}
    (run : Session (WorkspaceCall u hash settings) (.initial start) w) :
    (∀ fresh request user job v, Apart u hash request w.state →
      Steps (applySelected u hash settings fresh request user) w (.done job) v →
        (IsFor u request job ↔ KeyFits u request w.state)) ∧
    (∀ fresh request user job v x fresh' request' user' job' y, Apart u hash request w.state →
      Apart u hash request' x.state →
      Steps (applySelected u hash settings fresh request user) w (.done job) v →
      Session (WorkspaceCall u hash settings) v x →
      Steps (applySelected u hash settings fresh' request' user') x (.done job') y →
      canonicalText u request'.idempotencyKey = canonicalText u request.idempotencyKey →
      KeyFits u request w.state → Unshared u request w.state → KeyFits u request' x.state →
        request'.workspaceId = request.workspaceId ∧ request'.reviewId = request.reviewId ∧
          canonicalText u request'.expectedSelectionChecksum =
            canonicalText u request.expectedSelectionChecksum) ∧
    ∀ a ∈ w.state.applyJobs, ∀ b ∈ w.state.applyJobs, a.workspaceId = b.workspaceId →
      a.reviewId = b.reviewId → a.selectionChecksum = b.selectionChecksum →
      a.manifestChecksum = b.manifestChecksum → a = b := by
  have hstart : Keyed hash (World.initial start : World service).state := by
    constructor
    · simp [identities, unissued]
    · simp [identities, unissued]
  have hw := (keyed_always hstart run).1
  refine ⟨?_, ?_, ?_⟩
  · intro fresh request user job v apart st
    exact (st.returned trivial (applySelected_answers hw apart)).2.2.1
  · intro fresh request user job v x fresh' request' user' job' y apart apart' st session st'
      hsameKey hfits hunshared hfits'
    obtain ⟨hkeyed, hmem, hfor, hkey⟩ := st.returned trivial (applySelected_answers hw apart)
    obtain ⟨-, hlater⟩ := keyed_always hkeyed session
    obtain ⟨hworkspace, hreview, hselection⟩ := hfor.mpr hfits
    obtain ⟨hworkspace', hreview', hselection'⟩ :=
      hfits' _ (hlater.subset hmem) ((hkey hfits hunshared).trans hsameKey.symm)
    exact ⟨hworkspace'.symm.trans hworkspace, hreview'.symm.trans hreview, hselection'.symm.trans hselection⟩
  · intro a ha b hb hworkspace hreview hselection hmanifest
    have hmemA : identity a ∈ identities w.state := mem_map_of_mem ha
    have hmemB : identity b ∈ identities w.state := mem_map_of_mem hb
    obtain ⟨⟨ra, hra, hsnapshotA, hrevisionA⟩, ma, hma, hkeyA⟩ := hw.grounded _ hmemA
    obtain ⟨⟨rb, hrb, hsnapshotB, hrevisionB⟩, mb, hmb, hkeyB⟩ := hw.grounded _ hmemB
    have hreviews : ra = rb := some.inj (hra.symm.trans ((congrArg _ hreview).trans hrb))
    have hmanifests : ma = mb := some.inj (hma.symm.trans (hmanifest.trans hmb))
    have hsame : (identity a).logicalOperationKey = (identity b).logicalOperationKey := by
      rw [hkeyA, hkeyB, hsnapshotA, hsnapshotB, hrevisionA, hrevisionB, hreviews, hmanifests]
      show hash.json (operationDocument a.workspaceId _ _ a.reviewId a.selectionChecksum mb) = _
      rw [hworkspace, hreview, hselection]
      rfl
    exact eq_of_clash (pairwise_map.mp hw.distinct) ha hb (.inr (.inr hsame))

end

end

namespace Sample

/-- One item is selected and verified, in its own Dry Run with its own manifest. -/
def verifyOne (itemId runId : Id) (w : World service) : World service :=
  let chosen := (replay (reports fun _ _ => "3") 3
    (selectReviewItems documents "workspace" "review" [itemId] owner) w).2
  (replay (reports fun _ _ => "3") 20 ((runDryRun .ascii documents settings
    ⟨runId, "manifest:" ++ runId, fun channelId => "authority:" ++ channelId⟩ "workspace" "review"
    owner 1 1).bind fun _ => .done ()) chosen).2

/-- The selection and the manifest last verified, under one and the same key. -/
def lastRequest (db : Db) : ApplyRequest :=
  { request db with
    manifestId := ((db.applyManifests.map (·.id)).getLast?).getD ""
    expectedManifestChecksum := ((db.applyManifests.map (·.manifestChecksum)).getLast?).getD "" }

theorem lastRequest_key (db : Db) : (lastRequest db).idempotencyKey = "key" := rfl

def freshJob (jobId : Id) : ApplyFresh :=
  { applyFresh with
    job := jobId
    item n := jobId ++ toString n
    attempts := ⟨fun n => jobId ++ toString n, fun channelId => "authority:" ++ channelId⟩ }

def applyLast (jobId : Id) (w : World service) : Program ApplyJob :=
  applySelected .ascii documents settings (freshJob jobId) (lastRequest w.state) owner

def firstVerified : World service := verifyOne "item0" "first" (reviewed twoCells)

def firstApplied : Program ApplyJob × World service :=
  replay (reports fun _ _ => "3") 40 (applyLast "first job" firstVerified) firstVerified

def secondVerified : World service := verifyOne "item1" "second" firstApplied.2

def secondApplied : Program ApplyJob × World service :=
  replay (reports fun _ _ => "3") 40 (applyLast "second job" secondVerified) secondVerified

end Sample

open Sample

namespace Sample

theorem verifyOne_session (w : World service) :
    Session (WorkspaceCall .ascii documents settings) w (verifyOne itemId runId w) :=
  .call (.call (.start _) (.selectReviewItems ..) (replay_steps ..)) (.runDryRun ..)
    (replay_steps ..)

theorem firstVerified_session : Session (WorkspaceCall .ascii documents settings)
    (.initial (catalogue twoCells)) firstVerified :=
  .call (.call (.call (.start _) (.generateReview ..) (replay_steps ..)) (.selectReviewItems ..)
    (replay_steps ..)) (.runDryRun ..) (replay_steps ..)

/-- The job a replayed Apply returned. -/
def returnedJob (r : Program ApplyJob × World service) : ApplyJob :=
  r.1.result.getD ⟨"", "", "", "", "", "", "", "", .pending, 0, none, none, none, 0, none, none, 0,
    none, none⟩

theorem both_returned : firstVerified.state.applyJobs.isEmpty = true ∧
    firstApplied.1.result.isSome = true ∧ secondApplied.1.result.isSome = true ∧
    (lastRequest secondVerified.state).expectedSelectionChecksum ≠
      (lastRequest firstVerified.state).expectedSelectionChecksum ∧
    returnedJob secondApplied = returnedJob firstApplied ∧
    (returnedJob secondApplied).selectionChecksum ≠
      canonicalText .ascii (lastRequest secondVerified.state).expectedSelectionChecksum := by
  decide +kernel

end Sample

/-- The second selection of a Review is applied under the key of the first: nothing is written,
and the call returns the first one's job. -/
theorem key_answers_other_selection : Steps (applyLast "first job" firstVerified) firstVerified
      (.done (returnedJob firstApplied)) firstApplied.2 ∧
    Session (WorkspaceCall .ascii Sample.documents settings) firstApplied.2
      secondVerified ∧
    Steps (applyLast "second job" secondVerified) secondVerified
      (.done (returnedJob secondApplied)) secondApplied.2 ∧
    (lastRequest secondVerified.state).idempotencyKey = (lastRequest firstVerified.state).idempotencyKey ∧
    (lastRequest secondVerified.state).expectedSelectionChecksum ≠
      (lastRequest firstVerified.state).expectedSelectionChecksum ∧
    returnedJob secondApplied = returnedJob firstApplied ∧
    ¬IsFor .ascii (lastRequest secondVerified.state)
      (returnedJob secondApplied) := by
  obtain ⟨-, hfirst, hsecond, hselections, hsame, hother⟩ := both_returned
  exact ⟨replay_done _ hfirst, verifyOne_session _, replay_done _ hsecond,
    (lastRequest_key _).trans (lastRequest_key _).symm, hselections, hsame,
    fun h => hother h.2.2⟩

theorem keys_sound_iff_first : IsFor .ascii (lastRequest firstVerified.state) (returnedJob firstApplied) ↔
      KeyFits .ascii (lastRequest firstVerified.state) firstVerified.state := by
  obtain ⟨hnone, hfirst, -⟩ := both_returned
  have apart : Apart .ascii Sample.documents (lastRequest firstVerified.state)
      firstVerified.state := by
    intro review snapshot _ _ job hjob
    rw [identities, isEmpty_iff.mp hnone] at hjob
    cases hjob
  exact (keys_sound_iff rfl firstVerified_session).1 _ _ _ _ _ apart (replay_done _ hfirst)

end FlowHub.Workspace
