import FlowHub.Workspace.Effects

namespace FlowHub.Workspace

open Python Txn WritePipeline List

section

variable {u : Unicode} {hash : Hashing} {settings : Settings} {fresh : ApplyFresh}
  {request : ApplyRequest} {user : FlowHubUser} {workspace : UnifiedWorkspace}
  {snapshot : WorkspaceSnapshot} {review : Review} {manifest : ApplyManifest}
  {items : List ReviewItem} {db db' : Db} {r : Requested}

theorem reuse_ok (h : reuse hash fresh request job db = .ok (db', r)) :
    r = .existing job.id ∧ Recovers hash db db' := by
  obtain ⟨next, hnext, heq⟩ := map_eq_ok.mp h
  cases heq
  exact ⟨rfl, _, _, _, _, hnext⟩

/-- The job a request makes when nobody asked for the same before. -/
def jobOf (u : Unicode) (hash : Hashing) (fresh : ApplyFresh) (request : ApplyRequest)
    (workspaceId snapshotId : Id) (review : Review) (manifest : ApplyManifest)
    (selectionChecksum : String) : ApplyJob :=
  newJob u fresh request workspaceId snapshotId review manifest selectionChecksum
    (logicalOperationKey hash workspaceId snapshotId review selectionChecksum
      manifest.manifestChecksum)

/-- A job under keys nobody has, with items nobody has. -/
structure Inserted (job : ApplyJob) (items : List ApplyJobItem) (s t : Db) : Prop where
  unique : ∀ j ∈ s.applyJobs, jobClashes job j = false
  newItems : ∀ i ∈ items, Table.has ApplyJobItem.id s.applyJobItems i.id = false
  distinct : (items.map ApplyJobItem.id).Nodup
  result : t = { s with
    applyJobs := s.applyJobs ++ [job], applyJobItems := s.applyJobItems ++ items }

theorem jobByKey_some (h : jobByKey db key = some job) : job ∈ db.applyJobs ∧ job.idempotencyKey = key :=
  ⟨mem_of_find?_eq_some h, by simpa using find?_some h⟩

theorem jobByOperation_some (h : jobByOperation db key = some job) :
    job ∈ db.applyJobs ∧ job.logicalOperationKey = key :=
  ⟨mem_of_find?_eq_some h, by simpa using find?_some h⟩

theorem jobClashes_eq_false : jobClashes a b = false ↔ a.id ≠ b.id ∧ a.idempotencyKey ≠ b.idempotencyKey ∧
      a.logicalOperationKey ≠ b.logicalOperationKey := by
  simp [jobClashes, Bool.or_eq_false_iff, decide_eq_false_iff_not, ne_eq, and_assoc]

theorem Inserted.applyJob {items : List ApplyJobItem}
    (h : Inserted job items s t) : t.applyJob job.id = some job := by
  have hnone : Table.get ApplyJob.id s.applyJobs job.id = none := by
    refine Table.get_none.mpr fun j hj => ?_
    exact Ne.symm (jobClashes_eq_false.mp (h.unique j hj)).1
  rw [h.result, Db.applyJob, Table.get_append_of_none hnone]
  simp [Table.get]

theorem insertJob_ok {items : List ApplyJobItem} :
    insertJob job items db = .ok db' ↔ Inserted job items db db' := by
  unfold insertJob
  constructor
  · intro h
    split at h
    · cases h
    rename_i hnot
    simp only [Bool.or_eq_true, not_or, Bool.not_eq_true, any_eq_false,
      Bool.not_eq_false', decide_eq_true_eq] at hnot
    exact ⟨hnot.1.1, hnot.1.2, hnot.2, (Except.ok.inj h).symm⟩
  · rintro ⟨hunique, hitems, hdistinct, rfl⟩
    rw [if_neg]
    simp only [Bool.or_eq_true, not_or, Bool.not_eq_true, any_eq_false, Bool.not_eq_false', decide_eq_true_eq]
    exact ⟨⟨hunique, hitems⟩, hdistinct⟩

/-- A request under a new key ends with the job that does the same already, or with one of
its own. -/
theorem approve_cases
    (h : approve u hash fresh request workspace snapshot review c manifest items db = .ok (db', r)) :
    (∃ job, jobByOperation db (logicalOperationKey hash workspace.id snapshot.id review
        c.selectionChecksum manifest.manifestChecksum) = some job ∧ r = .existing job.id ∧
        Recovers hash db db') ∨
      jobByOperation db (logicalOperationKey hash workspace.id snapshot.id review
        c.selectionChecksum manifest.manifestChecksum) = none ∧
        ∃ job lockScope, job = jobOf u hash fresh request workspace.id snapshot.id review manifest
            c.selectionChecksum ∧ lockScopeOf db items = .ok lockScope ∧
          Inserted job (items.mapIdx fun n i => newJobItem job.id (fresh.item n) i) db db' ∧
          r = .approved ⟨job, workspace, snapshot, manifest, c.selectedIds, c.selectionChecksum,
            items, lockScope⟩ := by
  unfold approve at h
  dsimp only at h
  split at h
  · rename_i job hjob
    obtain ⟨hr, hrecovers⟩ := reuse_ok h
    exact .inl ⟨job, hjob, hr, hrecovers⟩
  · rename_i hnone
    obtain ⟨lockScope, hscope, h⟩ := bind_eq_ok.mp h
    obtain ⟨next, hinsert, h⟩ := bind_eq_ok.mp h
    cases h
    exact .inr ⟨hnone, _, lockScope, rfl, hscope, insertJob_ok.mp hinsert, rfl⟩

/-- The Review of a request is the Workspace's own, of its current Draft Revision. -/
theorem currentReview_ok : currentReview workspace reviewId db = .ok (review, snapshot) ↔
      reviewOf db reviewId = some review ∧ review.workspaceId = workspace.id ∧
        (∃ draft, draftOf db workspace.id = some draft ∧
          draft.currentRevisionId = some review.draftRevisionId) ∧
        snapshotOf db workspace.id = some snapshot ∧ review.snapshotId = snapshot.id := by
  simp only [currentReview, bind_eq_ok, found_ok, refuse_ok, Bool.or_eq_false_iff, bne_eq_false_iff_eq]
  constructor
  · rintro ⟨r, hr, _, hworkspace, draft, hdraft, sn, hsnapshot, _, ⟨hcurrent, hid⟩, h⟩
    cases h
    exact ⟨hr, hworkspace, ⟨draft, hdraft, hcurrent⟩, hsnapshot, hid⟩
  · rintro ⟨hr, hworkspace, ⟨draft, hdraft, hcurrent⟩, hsnapshot, hid⟩
    exact ⟨review, hr, (), hworkspace, draft, hdraft, snapshot, hsnapshot, (), ⟨hcurrent, hid⟩, rfl⟩

/-- The stored selection of a Review. -/
def confirmedOf (hash : Hashing) (review : Review) (db : Db) : Confirmed where
  selectedIds := selectedIdsOf db review.id
  items := reviewItemsIn db review.id (selectedIdsOf db review.id)
  selectionChecksum := hash.json
    (selectionDocument review (reviewItemsIn db review.id (selectedIdsOf db review.id)))

/-- The selection is whole, eligible and the one its checksums name. -/
structure Confirms (u : Unicode) (expected : String) (review : Review) (c : Confirmed) : Prop where
  nonempty : c.selectedIds ≠ []
  whole : c.items.length = c.selectedIds.length
  eligible : ∀ i ∈ c.items, i.eligible = true ∧ i.errors = []
  channels : sortedSet (c.items.map (·.channelId)) = review.selectedChannelIds.insertionSort (· ≤ ·)
  expected_ne : canonicalText u expected ≠ ""
  expected_eq : canonicalText u expected = c.selectionChecksum
  stored : review.selectionChecksum = some c.selectionChecksum

theorem confirmedSelection_ok : confirmedSelection u hash review expected db = .ok c ↔
      c = confirmedOf hash review db ∧ Confirms u expected review c := by
  simp only [confirmedSelection, bind_eq_ok, refuse_ok, Bool.or_eq_false_iff, bne_eq_false_iff_eq,
    beq_eq_false_iff_ne, any_eq_false, Bool.or_eq_true, Bool.not_eq_true', not_or,
    Bool.not_eq_false, isEmpty_eq_false_iff, ne_eq, not_not]
  constructor
  · rintro ⟨_, hne, _, ⟨hwhole, heligible⟩, _, hchannels, _, ⟨⟨hexpected, heq⟩, hstored⟩, h⟩
    cases h
    exact ⟨rfl, hne, hwhole, heligible, hchannels, hexpected, heq, hstored⟩
  · rintro ⟨rfl, h⟩
    exact ⟨(), h.nonempty, (), ⟨h.whole, h.eligible⟩, (), h.channels, (),
      ⟨⟨h.expected_ne, h.expected_eq⟩, h.stored⟩, rfl⟩

/-- The manifest of a Dry Run that stands, drawn up as it is now. -/
structure Manifested (u : Unicode) (hash : Hashing) (settings : Settings) (request : ApplyRequest)
    (review : Review) (selectionChecksum : String) (db : Db) (manifest : ApplyManifest)
    (dryRun : DryRun) : Prop where
  found : Table.get ApplyManifest.id db.applyManifests (canonicalText u request.manifestId) = some manifest
  about : manifest.reviewId = review.id
  named : manifest.dryRunId.getD "" ≠ ""
  verified : dryRunOf db manifest.dryRunId = some dryRun
  stands : stands dryRun review selectionChecksum = true
  own : dryRun.reviewId = review.id
  expected_ne : canonicalText u request.expectedManifestChecksum ≠ ""
  expected_eq : canonicalText u request.expectedManifestChecksum = manifest.manifestChecksum
  version : manifest.selectionVersion = review.selectionVersion
  selection : manifest.selectionChecksum = selectionChecksum
  nonempty : manifestItems db review.id manifest.id ≠ []
  drawn : (manifestDocument settings db review (manifestItems db review.id manifest.id) dryRun.id
    dryRun.evidenceChecksum).map (fun drawn => hash.json drawn.1) = .ok manifest.manifestChecksum

theorem confirmedManifest_ok :
    confirmedManifest u hash settings request review selectionChecksum db = .ok (manifest, items) ↔
      items = manifestItems db review.id manifest.id ∧
        ∃ dryRun, Manifested u hash settings request review selectionChecksum db manifest dryRun := by
  simp only [confirmedManifest, bind_eq_ok, found_ok, refuse_ok, Bool.or_eq_false_iff,
    bne_eq_false_iff_eq, beq_eq_false_iff_ne, Bool.not_eq_false', isEmpty_eq_false_iff]
  constructor
  · rintro ⟨m, hm, _, hreview, _, hnamed, dryRun, hdryRun, _, ⟨hstands, hown⟩, _,
      ⟨hexpected, heq⟩, _, ⟨hversion, hselection⟩, _, hne, document, hdocument, _, hsame, h⟩
    cases h
    refine ⟨rfl, dryRun, hm, hreview, hnamed, hdryRun, hstands, hown, hexpected, heq, hversion,
      hselection, hne, ?_⟩
    exact map_eq_ok.mpr ⟨document, hdocument, hsame⟩
  · rintro ⟨rfl, dryRun, h⟩
    obtain ⟨document, hdocument, hsame⟩ := map_eq_ok.mp h.drawn
    exact ⟨manifest, h.found, (), h.about, (), h.named, dryRun, h.verified, (), ⟨h.stands, h.own⟩,
      (), ⟨h.expected_ne, h.expected_eq⟩, (), ⟨h.version, h.selection⟩, (), h.nonempty, document,
      hdocument, (), hsame, rfl⟩

/-- What a request is checked against before it is approved. -/
structure Checks (u : Unicode) (hash : Hashing) (settings : Settings) (request : ApplyRequest)
    (workspace : UnifiedWorkspace) (db : Db) (review : Review) (snapshot : WorkspaceSnapshot)
    (c : Confirmed) (manifest : ApplyManifest) (items : List ReviewItem) : Prop where
  current : currentReview workspace request.reviewId db = .ok (review, snapshot)
  selection : confirmedSelection u hash review request.expectedSelectionChecksum db = .ok c
  manifest : confirmedManifest u hash settings request review c.selectionChecksum db = .ok (manifest, items)

theorem requestNew_cases (h : requestNew u hash settings fresh request workspace db = .ok (db', r)) :
    ∃ review snapshot c manifest items,
      Checks u hash settings request workspace db review snapshot c manifest items ∧
      ((∃ fault, r = .stale fault ∧ Ages db db') ∨ ∃ seeded, Seeds db seeded ∧
          assertReviewFresh hash settings fresh.authorityEvent fresh.requested review db = (seeded, .ok ()) ∧
          approve u hash fresh request workspace snapshot review c manifest items seeded = .ok (db', r)) := by
  obtain ⟨⟨review, snapshot⟩, hcurrent, h⟩ := bind_eq_ok.mp h
  obtain ⟨c, hselection, h⟩ := bind_eq_ok.mp h
  obtain ⟨⟨manifest, items⟩, hmanifest, h⟩ := bind_eq_ok.mp h
  refine ⟨review, snapshot, c, manifest, items, ⟨hcurrent, hselection, hmanifest⟩, ?_⟩
  dsimp only at h
  split at h
  · rename_i stale fault hfresh
    cases h
    obtain ⟨hbad, -⟩ | ⟨-, seeded, reason, hseeds, rfl⟩ :=
      assertReviewFresh_cases hash settings hfresh
    · cases hbad
    · exact .inl ⟨fault, rfl, seeded, _, _, reason, hseeds, rfl⟩
  · rename_i seeded hfresh
    obtain ⟨-, hseeds, -⟩ | ⟨hbad, -⟩ := assertReviewFresh_cases hash settings hfresh
    · exact .inr ⟨seeded, hseeds, hfresh, h⟩
    · cases hbad

/-- A request finds the job under its key, or is checked. -/
theorem requestApply_cases (h : requestApply u hash settings fresh request user db = .ok (db', r)) :
    ∃ workspace, editableWorkspace db request.workspaceId user = .ok workspace ∧
      ((∃ job, jobByKey db (canonicalText u request.idempotencyKey) = some job ∧
          r = .existing job.id ∧ Recovers hash db db') ∨
        jobByKey db (canonicalText u request.idempotencyKey) = none ∧
          requestNew u hash settings fresh request workspace db = .ok (db', r)) := by
  obtain ⟨workspace, hworkspace, h⟩ := bind_eq_ok.mp h
  refine ⟨workspace, hworkspace, ?_⟩
  obtain ⟨_, -, h⟩ := bind_eq_ok.mp h
  obtain ⟨_, -, h⟩ := bind_eq_ok.mp h
  obtain ⟨_, -, h⟩ := bind_eq_ok.mp h
  split at h
  · rename_i job hjob
    obtain ⟨hr, hrecovers⟩ := reuse_ok h
    exact .inl ⟨job, hjob, hr, hrecovers⟩
  · rename_i hnone
    exact .inr ⟨hnone, h⟩

end

end FlowHub.Workspace
