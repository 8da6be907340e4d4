import FlowHub.Workspace.ApplySteps
import FlowHub.Workspace.Calls

namespace FlowHub.Workspace

open Python Txn WritePipeline List

section

variable (u : Unicode) (hash : Hashing) (settings : Settings)

/-- The calls a Review is made, selected, verified and applied by. -/
inductive WorkspaceCall : Program Unit → Prop
  | generateReview (fresh : ReviewFresh) (workspaceId revisionId : Id) (user : FlowHubUser)
      (now : Time) : WorkspaceCall
        (generateReview u hash settings fresh workspaceId revisionId user now)
  | selectReviewItems (workspaceId reviewId : Id) (itemIds : List Id) (user : FlowHubUser) :
      WorkspaceCall (selectReviewItems hash workspaceId reviewId itemIds user)
  | savePreference (payload : PreferencePayload) (expectedVersion : Nat) (user : FlowHubUser) :
      WorkspaceCall (savePreference payload expectedVersion user)
  | saveDraft (fresh : RevisionFresh) (workspaceId : Id) (expectedVersion : Nat)
      (incoming : List DraftChange) (metadata : Json) (replaceExisting : Bool)
      (user : FlowHubUser) : WorkspaceCall (saveDraft u hash settings fresh workspaceId
        expectedVersion incoming metadata replaceExisting user)
  | restoreRevision (fresh : RevisionFresh) (workspaceId revisionId : Id) (expectedVersion : Nat)
      (user : FlowHubUser) : WorkspaceCall
        (restoreRevision hash fresh workspaceId revisionId expectedVersion user)
  | runDryRun (fresh : DryRunFresh) (workspaceId reviewId : Id) (user : FlowHubUser)
      (openedAt closedAt : Time) : WorkspaceCall
        ((runDryRun u hash settings fresh workspaceId reviewId user openedAt closedAt).bind
          fun _ => .done ())
  | applySelected (fresh : ApplyFresh) (request : ApplyRequest) (user : FlowHubUser) :
      WorkspaceCall ((applySelected u hash settings fresh request user).bind fun _ => .done ())

/-- What a logical operation key is the hash of. -/
def operationDocument (workspaceId snapshotId draftRevisionId reviewId : Id)
    (selectionChecksum manifestChecksum : String) : Json :=
  .obj [("draft_revision", .str draftRevisionId), ("manifest", .str manifestChecksum),
    ("operation_version", .str "workspace-apply-v3"),
    ("review", .str reviewId),
    ("selection", .str selectionChecksum),
    ("snapshot", .str snapshotId),
    ("workspace", .str workspaceId)]

/-- A job is of the Review it names, under the key of its own operation. -/
structure Grounded (db : Db) (job : ApplyJob) : Prop where
  review : ∃ review, reviewOf db job.reviewId = some review ∧ job.snapshotId = review.snapshotId ∧
    job.draftRevisionId = review.draftRevisionId
  operation : ∃ manifestChecksum, job.manifestChecksum = some manifestChecksum ∧
    job.logicalOperationKey = hash.json (operationDocument job.workspaceId job.snapshotId
      job.draftRevisionId job.reviewId job.selectionChecksum manifestChecksum)

/-- What the Dry Run has read of Review and selection is how they are. -/
structure Reading (db : Db) (opened : OpenDryRun) : Prop where
  found : reviewOf db opened.review.id = some opened.review
  items : opened.items = selectedItems db opened.review.id

/-- What one transaction or answer can do to the database. -/
inductive Effect (s : Db) (l : Label service) (t : Db) : Prop
  | steady (h : Steady s t)
  | drafts (h : Drafts s t)
  | hides (h : Hides s t)
  | selects {review : Review} {ids : List Id} {userId : Nat}
      (h : Selects hash s t review ids userId)
  | reviewed {review : Review} {items : List ReviewItem} (h : Reviewed s t review items)
  | closed {fresh : DryRunFresh} {opened : OpenDryRun} {scopes : List Scope} {now : Time}
      (label : l = .commit (.closeDryRun fresh.dryRun)) (reading : Reading s opened)
      (own : ∀ scope ∈ scopes, scope.item ∈ opened.items)
      (h : Closed hash settings fresh opened scopes now s t)
  | issued {job : ApplyJob} {items : List ApplyJobItem} {seeded : Db} (seeds : Seeds s seeded)
      (grounded : Grounded hash s job) (h : Inserted job items seeded t)

/-- An intent is what some of the items ask for its Listing. -/
def Targets (items : List ReviewItem) (intent : WorkspaceWriteIntent) : Prop :=
  ∃ group, group ⊆ items ∧ (∀ i ∈ group, i.listingId = intent.listingId) ∧
    readOptional u (targetOf group .price) = .ok intent.targetPrice ∧
    readOptional u (targetOf group .stock) = .ok intent.targetStock ∧
    targetOf group .status = intent.targetStatus

/-- The Review, manifest and Dry Run by which a command is dispatched. -/
structure Cleared (db : Db) (command : WorkspaceWriteBatchCommand) (review : Review)
    (manifest : ApplyManifest) (dryRun : DryRun) : Prop where
  found : reviewOf db command.reviewId = some review
  ready : review.status = .ready
  current : ∃ draft, draftOf db command.workspaceId = some draft ∧
    draft.currentRevisionId = some review.draftRevisionId
  eligible : ∀ i ∈ reviewItemsIn db command.reviewId (selectedIdsOf db command.reviewId),
    i.eligible = true ∧ i.errors = []
  known : manifest ∈ db.applyManifests
  verified : dryRunOf db manifest.dryRunId = some dryRun
  passed : dryRun.status = .passed
  version : dryRun.selectionVersion = review.selectionVersion
  own : dryRun.reviewId = review.id
  intents : ∀ intent ∈ command.intents, Targets u (manifestItems db command.reviewId manifest.id) intent

/-- One step of a call: its effect, or a step of the write pipeline for a cleared command. -/
def CallStep (w v : World service) : Prop :=
  ∃ l s, v = w.log l s ∧ ((Foreign l ∧ Effect hash settings w.state l s) ∨
    ∃ command review manifest dryRun, Own command l ∧ Appends w.state s ∧
      Cleared u w.state command review manifest dryRun)

end

section

variable {u : Unicode} {hash : Hashing} {settings : Settings} {α : Type}

variable {user : FlowHubUser} {fresh : ApplyFresh} {a : Approved} {review : Review}
  {request : ApplyRequest} {dryRun : DryRun} {s t : Db} {db : Db}

theorem CallStep.effect (hl : Foreign l)
    (h : Effect hash settings w.state l s) : CallStep u hash settings w (w.log l s) :=
  ⟨l, s, rfl, .inl ⟨hl, h⟩⟩

theorem CallStep.still (hl : Foreign l) : CallStep u hash settings w (w.log l w.state) :=
  .effect hl (.steady (.refl _))

/-- Whatever a step is for, it has one of the effects. -/
theorem CallStep.effects (h : CallStep u hash settings w v) :
    ∃ l s, v = w.log l s ∧ Effect hash settings w.state l s := by
  obtain ⟨l, s, rfl, ⟨-, heffect⟩ | ⟨_, _, _, _, -, happends, -⟩⟩ := h
  · exact ⟨l, s, rfl, heffect⟩
  · exact ⟨l, s, rfl, .steady (Appends.steady happends)⟩

/-- A single transaction. -/
theorem transact_steps (ht : tagCommand tag = none)
    (hf : ∀ s t a, f s = .ok (t, a) → Effect hash settings s (.commit tag) t) :
    Proc.Does (CallStep u hash settings) (Proc.transact tag f : Program α) :=
  .transact (fun _ _ _ hok => .effect (foreign_of_tag rfl rfl ht) (hf _ _ _ hok))
    fun _ _ => .still (foreign_of_tag rfl rfl ht)

variable {intents : List WorkspaceWriteIntent} {items : List ReviewItem} {job : ApplyJob}

theorem generateReview_steps {fresh : ReviewFresh} : Proc.Does (CallStep u hash settings)
      (generateReview u hash settings fresh workspaceId revisionId user now) := by
  refine transact_steps rfl fun s t _ hok => ?_
  obtain ⟨_, hbuild, heq⟩ := map_eq_ok.mp hok
  cases heq
  obtain ⟨review, items, h⟩ := buildReview_ok hbuild
  exact .reviewed h

theorem selectReviewItems_steps : Proc.Does (CallStep u hash settings)
      (selectReviewItems hash workspaceId reviewId itemIds user) := by
  refine transact_steps rfl fun s t _ hok => ?_
  obtain ⟨_, hchoose, heq⟩ := map_eq_ok.mp hok
  cases heq
  obtain ⟨review, ids, -, h⟩ := chooseItems_ok hchoose
  exact .selects h

theorem savePreference_steps : Proc.Does (CallStep u hash settings)
      (savePreference payload expectedVersion user) := by
  refine transact_steps rfl fun s t _ hok => ?_
  obtain ⟨_, hhide, heq⟩ := map_eq_ok.mp hok
  cases heq
  exact .hides (hideChannels_hides hhide)

theorem saveDraft_steps {fresh : RevisionFresh}
    : Proc.Does (CallStep u hash settings) (saveDraft u hash settings fresh
      workspaceId expectedVersion incoming metadata replaceExisting user) := by
  refine Proc.Does.tryElse (transact_steps rfl fun s t _ hok => ?_) (fun _ => .done _)
    fun _ => .raise _
  obtain ⟨_, hwrite, heq⟩ := map_eq_ok.mp hok
  cases heq
  exact .drafts (writeDraft_drafts hwrite)

theorem restoreRevision_steps {fresh : RevisionFresh} : Proc.Does (CallStep u hash settings)
      (restoreRevision hash fresh workspaceId revisionId expectedVersion user) := by
  refine transact_steps rfl fun s t _ hok => ?_
  obtain ⟨_, hwrite, heq⟩ := map_eq_ok.mp hok
  cases heq
  exact .drafts (writeRestored_drafts hwrite)

/-- A Dry Run's group is read with the database as it was, and every scope is of an item of it. -/
theorem verifyGroup_steps : (verifyGroup u settings review listingId group).Meets
      (.serial (CallStep u hash settings))
      (fun scopes v => v.state = w.state ∧ ∀ scope ∈ scopes, scope.item ∈ group)
      (fun _ _ => True) w := by
  refine Proc.Meets.bind (Q := fun _ v => v.state = w.state) ?_ fun probed v hv => ?_
  · refine Proc.Meets.consult ?_ ?_
    · rintro _ rfl _ _
      exact ⟨.still (foreign_of_tag rfl rfl rfl), rfl⟩
    · rintro _ rfl _
      exact ⟨.still (foreign_of_tag rfl rfl rfl), trivial⟩
  · cases probed with
    | none =>
      refine ⟨hv, fun scope hscope => ?_⟩
      obtain ⟨item, hitem, rfl⟩ := mem_map.mp hscope
      exact hitem
    | some probed =>
      refine Proc.Meets.bind (Q := fun _ t => t.state = w.state) ?_ fun answer t ht => ?_
      · rintro _ rfl
        exact ⟨fun _ => ⟨.still (foreign_of_query rfl rfl rfl), hv⟩,
          fun _ => ⟨.still (foreign_of_query rfl rfl rfl), hv⟩⟩
      · refine ⟨ht, fun scope hscope => ?_⟩
        obtain ⟨item, hitem, rfl⟩ := mem_map.mp hscope
        rwa [disposition_item]

theorem verifyGroups_steps : (verifyGroups u settings review groups).Meets
      (.serial (CallStep u hash settings)) (fun scopes v => v.state = w.state ∧
        ∀ scope ∈ scopes, scope.item ∈ groups.flatMap Prod.snd) (fun _ _ => True) w := by
  induction groups generalizing w with
  | nil => exact ⟨rfl, fun _ h => by cases h⟩
  | cons g rest ih =>
    refine (verifyGroup_steps (w := w)).bind fun scopes v hv => ?_
    refine (ih (w := v)).bind fun more t ht => ⟨ht.1.trans hv.1, fun scope hscope => ?_⟩
    rcases mem_append.mp hscope with hscope | hscope
    · exact mem_append_left _ (hv.2 scope hscope)
    · exact mem_append_right _ (ht.2 scope hscope)

theorem runDryRun_steps {fresh : DryRunFresh} :
    (runDryRun u hash settings fresh workspaceId reviewId user openedAt closedAt).Meets
      (.serial (CallStep u hash settings)) (fun _ _ => True) (fun _ _ => True) w := by
  refine Proc.Meets.bind (Q := fun outcome v => ∀ opened, outcome = .ok opened →
    Reading v.state opened) ?_ fun outcome v hv => ?_
  · refine Proc.Meets.transact ?_ fun _ _ _ => ⟨.still (foreign_of_tag rfl rfl rfl), trivial⟩
    rintro v - s outcome hok
    obtain ⟨review, hreview, ⟨reason, rfl, seeded, why, hseeds, rfl⟩ | ⟨hseeds, rfl, -⟩⟩ :=
      openDryRun_ok hok
    · refine ⟨.effect (foreign_of_tag rfl rfl rfl) (.steady ?_), fun opened h => by cases h⟩
      exact (Seeds.steady hseeds).trans (markStale_steady _ _ _ _)
    refine ⟨.effect (foreign_of_tag rfl rfl rfl) (.steady (Seeds.steady hseeds)), ?_⟩
    intro opened hopened
    cases hopened
    have hid : review.id = reviewId := (Table.get_some hreview).2
    obtain ⟨heads, rfl⟩ := hseeds
    subst hid
    exact ⟨hreview, rfl⟩
  · refine Proc.Meets.bind (Q := fun opened t => Reading t.state opened) ?_ fun opened t ht => ?_
    · exact Proc.Meets.ofExcept (fun opened h => hv opened h) fun _ _ => trivial
    · refine verifyGroups_steps.bind fun scopes r hr => ?_
      refine Proc.Meets.transact ?_ fun _ _ _ => ⟨.still (foreign_of_tag rfl rfl rfl), trivial⟩
      rintro _ rfl s _ hok
      obtain ⟨_, hclose, heq⟩ := map_eq_ok.mp hok
      cases heq
      obtain ⟨hstate, hitems⟩ := hr
      refine ⟨.effect (foreign_of_tag rfl rfl rfl) (.closed rfl ?_ ?_ (closeDryRun_ok hclose)), trivial⟩
      · rw [hstate]
        exact ht
      · exact fun scope hscope => ((groups_listed opened.items).2.2 _).mp (hitems scope hscope)

/-- What a request has approved is still so. -/
structure Granted (db : Db) (a : Approved) : Prop where
  job : (db.applyJob a.job.id).map identity = some (identity a.job)
  workspace : a.job.workspaceId = a.workspace.id
  known : a.manifest ∈ db.applyManifests
  items : a.items = manifestItems db a.job.reviewId a.manifest.id
  eligible : ∀ i ∈ reviewItemsIn db a.job.reviewId (selectedIdsOf db a.job.reviewId),
    i.eligible = true ∧ i.errors = []

theorem applyJob_identity (db : Db) (jobId : Id) :
    (db.applyJob jobId).map identity = Table.get ApplyJob.id (identities db) jobId := by
  unfold Db.applyJob identities Table.get
  rw [find?_map]
  rfl

theorem Granted.steady (h : Granted s a) (k : Steady s t) : Granted t a where
  job := by
    rw [applyJob_identity, k.jobs, ← applyJob_identity]
    exact h.job
  workspace := h.workspace
  known := by
    obtain ⟨_, _, _, _, _, _, _, _, _, rfl⟩ := k.rest
    exact h.known
  items := by
    obtain ⟨_, _, _, _, _, _, _, _, _, rfl⟩ := k.rest
    exact h.items
  eligible := by
    obtain ⟨_, _, _, _, _, _, _, _, _, rfl⟩ := k.rest
    exact h.eligible

theorem requestApply_effect (h : requestApply u hash settings fresh request user s = .ok (t, r)) :
    Effect hash settings s l t ∧ ∀ a, r = .approved a → Granted t a := by
  obtain ⟨workspace, hworkspace, ⟨job, -, rfl, hrecovers⟩ | ⟨-, hnew⟩⟩ := requestApply_cases h
  · exact ⟨.steady hrecovers.progress.steady, fun a ha => by cases ha⟩
  obtain ⟨review, snapshot, c, manifest, items, hchecks, ⟨fault, rfl, hages⟩ | ⟨seeded, hseeds,
    -, happrove⟩⟩ := requestNew_cases hnew
  · exact ⟨.steady hages.steady, fun a ha => by cases ha⟩
  obtain ⟨job, -, rfl, hrecovers⟩ | ⟨-, job, lockScope, rfl, -, hinserted, rfl⟩ :=
    approve_cases happrove
  · exact ⟨.steady ((Seeds.steady hseeds).trans hrecovers.progress.steady), fun a ha => by cases ha⟩
  obtain ⟨hreview, hown, -, -, hsnapshot⟩ := currentReview_ok.mp hchecks.current
  obtain ⟨rfl, hconfirms⟩ := confirmedSelection_ok.mp hchecks.selection
  obtain ⟨rfl, dryRun, hmanifested⟩ := confirmedManifest_ok.mp hchecks.manifest
  have hid : review.id = request.reviewId := (Table.get_some hreview).2
  refine ⟨.issued hseeds ⟨⟨review, ?_, hsnapshot.symm, rfl⟩, _, rfl, rfl⟩ hinserted, ?_⟩
  · rw [← hid] at hreview
    exact hreview
  rintro a ha
  obtain rfl := Requested.approved.inj ha
  obtain ⟨heads, rfl⟩ := hseeds
  have hmem := (Table.get_some hmanifested.found).1
  have hjob := hinserted.applyJob
  rw [hinserted.result] at hjob ⊢
  exact ⟨congrArg (Option.map identity) hjob, rfl, hmem, rfl, hconfirms.eligible⟩

theorem reverifyLive_steps :
    (reverifyLive u hash settings dryRunId items).Meets (.serial (CallStep u hash settings))
      (fun _ v => v.state = w.state) (fun _ _ => True) w := by
  induction items generalizing w with
  | nil => exact rfl
  | cons item rest ih =>
    refine Proc.Meets.bind (Q := fun _ v => v.state = w.state) ?_ fun r v hv => ?_
    · refine Proc.Meets.consult ?_ ?_
      · rintro _ rfl _ _
        exact ⟨.still (foreign_of_tag rfl rfl rfl), rfl⟩
      · rintro _ rfl _
        exact ⟨.still (foreign_of_tag rfl rfl rfl), trivial⟩
    · refine Proc.Meets.bind (Q := fun _ t => t.state = w.state) ?_ fun answer t ht => ?_
      · rintro _ rfl
        exact ⟨fun _ => ⟨.still (foreign_of_query rfl rfl rfl), hv⟩,
          fun _ => ⟨.still (foreign_of_query rfl rfl rfl), hv⟩⟩
      · refine Proc.Meets.bind (Q := fun _ r => r.state = w.state) ?_ fun _ r hr => ?_
        · exact Proc.Meets.ofExcept (fun _ _ => ht) fun _ _ => trivial
        · exact (ih (w := r)).mono (fun _ _ h => h.trans hr) fun _ _ h => h

/-- A running Apply is on a Review that is ready, current and verified. -/
structure Standing (db : Db) (a : Approved) (review : Review) (dryRun : DryRun) : Prop where
  found : reviewOf db a.job.reviewId = some review
  ready : review.status = .ready
  current : ∃ draft, draftOf db a.workspace.id = some draft ∧
    draft.currentRevisionId = some review.draftRevisionId
  verified : dryRunOf db a.manifest.dryRunId = some dryRun
  passed : dryRun.status = .passed
  version : dryRun.selectionVersion = review.selectionVersion
  own : dryRun.reviewId = review.id

theorem stands_iff : stands dryRun review selectionChecksum = true ↔ dryRun.status = .passed ∧
      dryRun.selectionChecksum = selectionChecksum ∧ dryRun.selectionVersion = review.selectionVersion := by
  simp [stands, Bool.and_eq_true, beq_iff_eq, and_assoc]

theorem Started.standing (h : Started hash a review db) : ∃ dryRun, Standing db a review dryRun := by
  obtain ⟨dryRun, hverified, hstands, hown⟩ := h.verified
  obtain ⟨hpassed, -, hversion⟩ := stands_iff.mp hstands
  exact ⟨dryRun, h.found, h.ready, h.current, hverified, hpassed, hversion, hown⟩

/-- Of one Review and one Dry Run, which further reads find again. -/
theorem Standing.unique (h : Standing db a review dryRun) (hreview : reviewOf db a.job.reviewId = some other)
    (hrun : dryRunOf db a.manifest.dryRunId = some run) : Standing db a other run := by
  obtain rfl := Option.some.inj (h.found.symm.trans hreview)
  obtain rfl := Option.some.inj (h.verified.symm.trans hrun)
  exact h

theorem Standing.seeds (h : Standing s a review dryRun) (k : Seeds s t) : Standing t a review dryRun := by
  obtain ⟨_, rfl⟩ := k
  exact ⟨h.found, h.ready, h.current, h.verified, h.passed, h.version, h.own⟩

theorem writeIntents_targets (h : writeIntents u hash settings db job items selectionChecksum = .ok intents) :
    ∀ intent ∈ intents, Targets u items intent := by
  intro intent hintent
  obtain ⟨⟨listingId, group⟩, hgroup, hwrite⟩ := mem_of_mapM h hintent
  obtain ⟨-, rfl⟩ := mem_groupedBy.mp hgroup
  obtain ⟨basis, hbasis, hwrite⟩ := bind_eq_ok.mp hwrite
  obtain ⟨numbers, hnumbers, hwrite⟩ := bind_eq_ok.mp hwrite
  cases hwrite
  obtain ⟨-, -, hprice, hstock⟩ := intentNumbers_ok.mp hnumbers
  refine ⟨_, filter_sublist.subset, fun i hi => ?_, hprice, hstock, rfl⟩
  exact (of_decide_eq_true (mem_filter.mp hi).2).trans (intentBasis_listing hbasis).symm

/-- A command that is dispatched has been cleared. -/
theorem Intended.cleared
    (h : Intended u hash settings a review dryRun job intents db) (granted : Granted db a)
    (standing : Standing db a review dryRun) :
    Cleared u db (applyCommand a job intents workerId token user) review a.manifest dryRun := by
  have hidentity : identity job = identity a.job := by
    have hjob := granted.job
    rw [h.found] at hjob
    exact Option.some.inj hjob
  have hreview : job.reviewId = a.job.reviewId := by
    have hid := congrArg ApplyJob.reviewId hidentity
    exact hid
  refine ⟨?_, standing.ready, standing.current, ?_, granted.known, standing.verified,
    standing.passed, standing.version, standing.own, ?_⟩
  · show reviewOf db job.reviewId = some review
    rw [hreview]
    exact standing.found
  · show ∀ i ∈ reviewItemsIn db job.reviewId (selectedIdsOf db job.reviewId), _
    rw [hreview]
    exact granted.eligible
  · show ∀ intent ∈ intents, Targets u (manifestItems db job.reviewId a.manifest.id) intent
    rw [hreview, ← granted.items]
    exact writeIntents_targets h.intents

/-- The row of the job is what the answer is made of. -/
theorem applyShape_steps : (applyShape jobId user).Meets (.serial (CallStep u hash settings))
      (fun job v => v.state.applyJob jobId = some job) (fun _ _ => True) w := by
  refine Proc.Meets.consult ?_ fun _ _ _ => ⟨.still (foreign_of_tag rfl rfl rfl), trivial⟩
  rintro v - job hok
  obtain ⟨row, hrow, hok⟩ := bind_eq_ok.mp hok
  obtain ⟨_, -, hok⟩ := bind_eq_ok.mp hok
  obtain ⟨_, -, hok⟩ := bind_eq_ok.mp hok
  obtain ⟨_, -, hok⟩ := bind_eq_ok.mp hok
  cases hok
  exact ⟨.still (foreign_of_tag rfl rfl rfl), found_ok.mp hrow⟩

/-- The write pipeline is run for a command that stays cleared. -/
theorem dispatchApply_steps (h : Cleared u w.state command review manifest dryRun) :
    (dispatchApply hash fresh workerId a command).Meets (.serial (CallStep u hash settings))
      (fun _ _ => True) (fun _ _ => True) w := by
  have hdoes : Proc.Does (Executes command) (executeWorkspace fresh.attempts command false) :=
    executeWorkspace_does
  have hexecute := (hdoes w).carry (C := .serial (CallStep u hash settings))
    (fun v => Cleared u v.state command review manifest dryRun) (fun _ _ _ => trivial)
    (fun a b hab ha => hab ▸ ha) ?_ h
  · refine hexecute.anyEnd.bind fun results v _ => ?_
    refine Proc.Does.serial ?_
    refine Proc.Does.bind (transact_steps rfl ?_) fun tally => transact_steps rfl ?_
    · exact fun s t _ hok => .steady (recordOutcomes_progress hok).steady
    · intro s t _ hok
      cases hok
      exact .steady (finishApply_steady _ _ _ _)
  · rintro v t hv ⟨l, s, rfl, own, happends, -⟩
    refine ⟨⟨l, s, rfl, .inr ⟨command, review, manifest, dryRun, own, happends, hv⟩⟩, ?_⟩
    obtain ⟨_, _, _, rfl⟩ := happends
    exact ⟨hv.found, hv.ready, hv.current, hv.eligible, hv.known, hv.verified, hv.passed,
      hv.version, hv.own, hv.intents⟩

theorem startApply_effect (h : startApply hash settings fresh workerId a s = .ok (t, outcome)) :
    Steady s t ∧ (outcome = .ok () → ∃ review dryRun, Standing t a review dryRun) := by
  obtain ⟨fault, rfl, hages⟩ | ⟨-, review, seeded, -, hseeds, hstarted, rfl⟩ := startApply_cases h
  · exact ⟨hages.steady, fun h => by cases h⟩
  · refine ⟨(Seeds.steady hseeds).trans (updateJob_steady _ _ fun _ => rfl), fun _ => ?_⟩
    obtain ⟨dryRun, h⟩ := hstarted.standing
    exact ⟨review, dryRun, h.found, h.ready, h.current, h.verified, h.passed, h.version, h.own⟩

theorem runApply_steps (granted : Granted w.state a) :
    (runApply u hash settings fresh workerId user a).Meets (.serial (CallStep u hash settings))
      (fun ended v => ∀ job, ended = some job → v.state.applyJob a.job.id = some job)
      (fun _ _ => True) w := by
  refine Proc.Meets.bind (Q := fun outcome v => Granted v.state a ∧
    (outcome = .ok () → ∃ review dryRun, Standing v.state a review dryRun)) ?_ fun started v hv => ?_
  · refine Proc.Meets.transact ?_ fun _ _ _ => ⟨.still (foreign_of_tag rfl rfl rfl), trivial⟩
    rintro _ rfl s outcome hok
    obtain ⟨hsteady, hstanding⟩ := startApply_effect hok
    exact ⟨.effect (foreign_of_tag rfl rfl rfl) (.steady hsteady), granted.steady hsteady, hstanding⟩
  refine Proc.Meets.bind (Q := fun _ v => Granted v.state a ∧
    ∃ review dryRun, Standing v.state a review dryRun) ?_ fun _ v hv => ?_
  · exact Proc.Meets.ofExcept (fun _ h => ⟨hv.1, hv.2 h⟩) fun _ _ => trivial
  obtain ⟨granted, review, dryRun, standing⟩ := hv
  refine Proc.Meets.bind (Q := fun checked v => Granted v.state a ∧
    ∀ review dryRun, checked = .ready review dryRun → Standing v.state a review dryRun) ?_
    fun checked v hv => ?_
  · refine Proc.Meets.transact ?_ fun _ _ _ => ⟨.still (foreign_of_tag rfl rfl rfl), trivial⟩
    rintro _ rfl s checked hok
    obtain ⟨rfl, hends⟩ | ⟨other, run, rfl, hrechecked, rfl⟩ := checkApply_cases hok
    · exact ⟨.effect (foreign_of_tag rfl rfl rfl) (.steady hends.steady),
        granted.steady hends.steady, fun _ _ h => by cases h⟩
    · have hseeds := pricingBindingIssues_seeds fresh.authorityEvent other v.state
      refine ⟨.effect (foreign_of_tag rfl rfl rfl) (.steady (Seeds.steady hseeds)),
        granted.steady (Seeds.steady hseeds), fun _ _ h => ?_⟩
      obtain ⟨rfl, rfl⟩ := Checked.ready.inj h
      exact (standing.unique hrechecked.found hrechecked.verified).seeds hseeds
  obtain ⟨granted, hready⟩ := hv
  cases checked with
  | stale => exact applyShape_steps.bind fun job v hv job' h => Option.some.inj h ▸ hv
  | ready review dryRun =>
    have standing := hready review dryRun rfl
    refine reverifyLive_steps.bind fun _ t ht => ?_
    rw [← ht] at granted standing
    refine Proc.Meets.bind (Q := fun planned r => ∀ command, planned = .dispatch command →
      ∃ review manifest dryRun, Cleared u r.state command review manifest dryRun) ?_
      fun planned r hr => ?_
    · refine Proc.Meets.transact ?_ fun _ _ _ => ⟨.still (foreign_of_tag rfl rfl rfl), trivial⟩
      rintro _ rfl s planned hok
      obtain ⟨rfl, hends⟩ | ⟨rfl, job, intents, hintended, rfl⟩ := planApply_cases hok
      · exact ⟨.effect (foreign_of_tag rfl rfl rfl) (.steady hends.steady), fun _ h => by cases h⟩
      · refine ⟨.still (foreign_of_tag rfl rfl rfl), fun command h => ?_⟩
        obtain rfl := Planned.dispatch.inj h
        exact ⟨_, _, _, hintended.cleared granted standing⟩
    · cases planned with
      | stale => exact applyShape_steps.bind fun job v hv job' h => Option.some.inj h ▸ hv
      | dispatch command =>
        obtain ⟨other, manifest, run, hcleared⟩ := hr command rfl
        exact (dispatchApply_steps hcleared).bind fun _ _ _ job h => by cases h

theorem workApply_steps (granted : Granted w.state a) :
    (workApply u hash settings fresh workerId user a).Meets (.serial (CallStep u hash settings))
      (fun job v => v.state.applyJob a.job.id = some job) (fun _ _ => True) w := by
  refine (runApply_steps granted).tryElse (fun ended v hv => ?_) fun e v _ => ?_
  · cases ended with
    | some job => exact hv job rfl
    | none => exact applyShape_steps
  · refine (Proc.Does.serial (transact_steps rfl fun s t _ hok => ?_)).bind fun _ _ _ => trivial
    cases hok
    exact .steady (abortApply_steady _ _ _)

theorem requestedJob_steps : (requestedJob u hash settings fresh request user).Meets
      (.serial (CallStep u hash settings))
      (fun r v => ∀ a, r = .approved a → Granted v.state a) (fun _ _ => True) w := by
  refine Proc.Meets.rescue (E := fun _ _ => True) ?_ fun e v _ => ?_
  · refine Proc.Meets.transact ?_ fun _ _ _ => ⟨.still (foreign_of_tag rfl rfl rfl), trivial⟩
    rintro v - s r hok
    obtain ⟨heffect, hgranted⟩ := requestApply_effect hok
    exact ⟨.effect (foreign_of_tag rfl rfl rfl) heffect, hgranted⟩
  · split
    · refine Proc.Meets.consult ?_ fun _ _ _ => ⟨.still (foreign_of_tag rfl rfl rfl), trivial⟩
      rintro _ rfl r hok
      refine ⟨.still (foreign_of_tag rfl rfl rfl), fun a ha => ?_⟩
      subst ha
      split at hok
      · cases hok
      · cases hok
    · exact trivial

/-- The job a call to `apply_selected` goes on with. -/
def Requested.jobId : Requested → Option Id
  | .existing jobId => some jobId
  | .stale _ => none
  | .approved a => some a.job.id

/-- What `apply_selected` does once it has its job. -/
def continueApply (u : Unicode) (hash : Hashing) (settings : Settings) (fresh : ApplyFresh)
    (request : ApplyRequest) (user : FlowHubUser) : Requested → Program ApplyJob
  | .existing jobId => applyShape jobId user
  | .stale fault => .raise fault
  | .approved a =>
    (lockListings a fresh.locked).tryElse
      (fun _ => workApply u hash settings fresh request.correlationId user a)
      (fun e => (lockFailed a fresh.locked).bind fun _ => .raise e)

theorem applySelected_eq (fresh : ApplyFresh) (request : ApplyRequest) (user : FlowHubUser) :
    applySelected u hash settings fresh request user = (requestedJob u hash settings fresh request user).bind
        (continueApply u hash settings fresh request user) := rfl

theorem continueApply_steps (hr : ∀ a, r = .approved a → Granted w.state a) :
    (continueApply u hash settings fresh request user r).Meets (.serial (CallStep u hash settings))
      (fun job v => ∃ jobId, r.jobId = some jobId ∧ v.state.applyJob jobId = some job)
      (fun _ _ => True) w := by
  cases r with
  | existing jobId => exact applyShape_steps.mono (fun _ _ h => ⟨jobId, rfl, h⟩) fun _ _ h => h
  | stale fault => exact trivial
  | approved a =>
    have granted := hr a rfl
    refine Proc.Meets.tryElse (Q := fun _ t => Granted t.state a) (E := fun _ _ => True) ?_
      (fun _ t ht => ?_) fun e t _ => ?_
    · refine Proc.Meets.rescue (E := fun _ _ => True) ?_ fun _ _ _ => trivial
      refine Proc.Meets.transact ?_ fun _ _ _ => ⟨.still (foreign_of_tag rfl rfl rfl), trivial⟩
      rintro _ rfl s _ hok
      obtain ⟨_, hlocks, heq⟩ := map_eq_ok.mp hok
      cases heq
      have hsteady := (acquireLocks_progress hlocks).steady
      exact ⟨.effect (foreign_of_tag rfl rfl rfl) (.steady hsteady), granted.steady hsteady⟩
    · exact (workApply_steps ht).mono (fun _ _ h => ⟨a.job.id, rfl, h⟩) fun _ _ h => h
    · refine (Proc.Does.serial (transact_steps rfl fun s t _ hok => ?_)).bind
        fun _ _ _ => trivial
      cases hok
      exact .steady (updateJob_steady _ _ fun _ => rfl)

/-- Every call is a run of such steps. -/
theorem WorkspaceCall.steps {p : Program Unit} (h : WorkspaceCall u hash settings p)
    (w : World service) : p.Meets (.serial (CallStep u hash settings)) (fun _ _ => True)
      (fun _ _ => True) w := by
  cases h with
  | generateReview => exact generateReview_steps.serial
  | selectReviewItems => exact selectReviewItems_steps.serial
  | savePreference => exact savePreference_steps.serial
  | saveDraft => exact saveDraft_steps.serial
  | restoreRevision => exact restoreRevision_steps.serial
  | runDryRun => exact runDryRun_steps.bind fun _ _ _ => trivial
  | applySelected => exact (requestedJob_steps.bind fun r v hr => (continueApply_steps hr).anyEnd).bind fun _ _ _ => trivial

end

def SameBasis (r r' : Review) : Prop :=
  r'.workspaceId = r.workspaceId ∧ r'.snapshotId = r.snapshotId ∧ r'.draftRevisionId = r.draftRevisionId

/-- Dry Runs and manifests are the ones there were, and a Review with another selection has
a later version. -/
structure Reruns (s t : Db) : Prop where
  runs : ∃ f : DryRun → DryRun, (∀ d, (f d).id = d.id ∧ (f d).reviewId = d.reviewId ∧
    (f d).selectionVersion = d.selectionVersion) ∧ t.dryRuns = s.dryRuns.map f
  scopes : t.dryRunScopes = s.dryRunScopes
  manifests : t.applyManifests = s.applyManifests
  operations : t.applyManifestOperations = s.applyManifestOperations
  reviews : ∀ id r, reviewOf s id = some r → ∃ r', reviewOf t id = some r' ∧ SameBasis r r' ∧
    r.selectionVersion ≤ r'.selectionVersion ∧
    (r'.selectionVersion = r.selectionVersion → selectionsOf t id = selectionsOf s id)

theorem sameRuns (rows : List DryRun) : ∃ f : DryRun → DryRun,
    (∀ d, (f d).id = d.id ∧ (f d).reviewId = d.reviewId ∧
      (f d).selectionVersion = d.selectionVersion) ∧ rows = rows.map f :=
  ⟨id, fun _ => ⟨rfl, rfl, rfl⟩, (map_id rows).symm⟩

theorem invalidated_runs (db : Db) (reviewId : Id) : ∃ f : DryRun → DryRun,
    (∀ d, (f d).id = d.id ∧ (f d).reviewId = d.reviewId ∧ (f d).selectionVersion = d.selectionVersion) ∧
    (invalidateDryRuns db reviewId).dryRuns = db.dryRuns.map f := by
  refine ⟨_, fun d => ?_, rfl⟩
  split
  · exact ⟨rfl, rfl, rfl⟩
  · exact ⟨rfl, rfl, rfl⟩

theorem reviewOf_map (hf : ∀ r, (f r).id = r.id)
    (h : t.reviews = s.reviews.map f) (id : Id) : reviewOf t id = (reviewOf s id).map f := by
  unfold reviewOf Table.get
  rw [h, find?_map]
  congr 2
  funext r
  rw [Function.comp_apply, hf]

theorem Aged.same (h : Aged r r') :
    r'.id = r.id ∧ SameBasis r r' ∧ r'.selectionVersion = r.selectionVersion := by
  rcases h with rfl | ⟨now, reason, rfl⟩
  · exact ⟨rfl, ⟨rfl, rfl, rfl⟩, rfl⟩
  · exact ⟨rfl, ⟨rfl, rfl, rfl⟩, rfl⟩

theorem Undisturbed.reruns (h : Undisturbed s t) : Reruns s t := by
  obtain ⟨f, hf, hreviews⟩ := h.reviews
  have hreview := reviewOf_map (fun r => (hf r).same.1) hreviews
  obtain ⟨_, _, _, _, _, _, _, _, _, rfl⟩ := h.rest
  refine ⟨sameRuns _, rfl, rfl, rfl, fun id r hr => ⟨f r, ?_, ?_, ?_, fun _ => rfl⟩⟩
  · rw [hreview, hr]
    rfl
  · exact (hf r).same.2.1
  · exact (hf r).same.2.2.ge

theorem Drafts.reruns (h : Drafts s t) : Reruns s t := by
  obtain ⟨_, _, _, rfl⟩ := h
  exact ⟨sameRuns _, rfl, rfl, rfl, fun _ r hr => ⟨r, hr, ⟨rfl, rfl, rfl⟩, le_rfl, fun _ => rfl⟩⟩

theorem Inserted.reruns (h : Inserted job items s t) : Reruns s t := by
  rw [h.result]
  exact ⟨sameRuns _, rfl, rfl, rfl, fun _ r hr => ⟨r, hr, ⟨rfl, rfl, rfl⟩, le_rfl, fun _ => rfl⟩⟩

theorem Reviewed.reruns (h : Reviewed s t review items) : Reruns s t := by
  obtain ⟨_, _, _, rfl⟩ := h.result
  exact ⟨sameRuns _, rfl, rfl, rfl, fun _ r hr =>
    ⟨r, Table.get_append_of_some hr, ⟨rfl, rfl, rfl⟩, le_rfl, fun _ => rfl⟩⟩

theorem Hides.reruns (h : Hides s t) : Reruns s t := by
  have hreviews := h.reviews
  have hkept := h.kept
  obtain ⟨_, _, _, rfl⟩ := h.rest
  refine ⟨sameRuns _, rfl, rfl, rfl, fun id r hr => ?_⟩
  have hsome := hkept id
  rw [hr] at hsome
  obtain ⟨r', hr'⟩ := Option.isSome_iff_exists.mp hsome
  refine ⟨r', hr', ?_⟩
  obtain ⟨hsame, hsel⟩ | ⟨before, more, channelIds, hbefore, rfl⟩ := hreviews id r' hr'
  · obtain rfl := Option.some.inj (hr.symm.trans hsame)
    exact ⟨⟨rfl, rfl, rfl⟩, le_rfl, fun _ => hsel⟩
  obtain rfl := Option.some.inj (hr.symm.trans hbefore)
  refine ⟨⟨rfl, rfl, rfl⟩, ?_, fun h => ?_⟩
  · dsimp only
    omega
  · dsimp only at h
    omega

theorem selectionsOf_replaced {hash : Hashing} (review : Review) (items : List ReviewItem)
    (ids : List Id) (userId : Nat) {id : Id} (hid : id ≠ review.id) :
    selectionsOf (replaceSelection hash review items ids userId db) id = selectionsOf db id := by
  show (db.reviewSelections.filter _ ++ ids.map _).filter _ = _
  rw [filter_append, filter_filter]
  have hnone : (ids.map fun i => (⟨review.id, i, userId⟩ : ReviewSelection)).filter
      (fun s => decide (s.reviewId = id)) = [] := by
    refine filter_eq_nil_iff.mpr fun s hs => ?_
    obtain ⟨i, -, rfl⟩ := mem_map.mp hs
    simpa using Ne.symm hid
  rw [hnone, append_nil]
  refine filter_congr fun s _ => ?_
  by_cases hs : s.reviewId = id
  · simp [hs, hid]
  · simp [hs]

theorem Selects.reruns {hash : Hashing}
    {userId : Nat} (h : Selects hash s t review ids userId) : Reruns s t := by
  rw [h.result]
  refine ⟨invalidated_runs _ _, rfl, rfl, rfl, fun id r hr => ?_⟩
  by_cases hid : id = review.id
  · subst hid
    obtain rfl := Option.some.inj (hr.symm.trans h.found)
    refine ⟨{ r with
      selectionVersion := r.selectionVersion + 1
      selectedChannelIds := sortedSet ((reviewItemsIn s r.id ids).map (·.channelId))
      selectionChecksum := some (hash.json (selectionDocument
        { r with selectionVersion := r.selectionVersion + 1 } (reviewItemsIn s r.id ids))) },
      ?_, ⟨rfl, rfl, rfl⟩, Nat.le_succ _, fun h => absurd h (Nat.succ_ne_self _)⟩
    show reviewOf (updateReview _ r.id _) r.id = _
    rw [reviewOf_updateReview (by exact fun _ => rfl), if_pos rfl]
    exact congrArg (Option.map _) hr
  · refine ⟨r, ?_, ⟨rfl, rfl, rfl⟩, le_rfl, fun _ => ?_⟩
    · show reviewOf (updateReview _ review.id _) id = _
      rw [reviewOf_updateReview (by exact fun _ => rfl), if_neg hid]
      exact hr
    · exact selectionsOf_replaced _ _ _ _ hid

/-- What one effect but the end of a Dry Run leaves. -/
theorem Effect.reruns {hash : Hashing}
    (h : Effect hash settings s l t) : Reruns s t ∨ ∃ fresh opened scopes now,
      l = .commit (.closeDryRun fresh.dryRun) ∧ Reading s opened ∧
      (∀ scope ∈ scopes, scope.item ∈ opened.items) ∧
      Closed hash settings fresh opened scopes now s t := by
  cases h with
  | steady h => exact .inl h.toUndisturbed.reruns
  | drafts h => exact .inl h.reruns
  | hides h => exact .inl h.reruns
  | selects h => exact .inl h.reruns
  | reviewed h => exact .inl h.reruns
  | closed label reading own h => exact .inr ⟨_, _, _, _, label, reading, own, h⟩
  | issued seeds grounded h =>
    obtain ⟨_, rfl⟩ := seeds
    obtain ⟨⟨f, hf, hruns⟩, hscopes, hmanifests, hoperations, hreviews⟩ := h.reruns
    exact .inl ⟨⟨f, hf, hruns⟩, hscopes, hmanifests, hoperations, hreviews⟩

end FlowHub.Workspace
