import FlowHub.Workspace.Disposition
import FlowHub.Workspace.Revisions

namespace FlowHub.Workspace

open Python Txn List

section

variable {u : Unicode} {hash : Hashing} {settings : Settings} {user : FlowHubUser} {db db' : Db}

/-- Authority heads and pricing bindings are all that differs. -/
def Pins (s t : Db) : Prop :=
  ∃ heads bindings, t = { s with authorityHeads := heads, pricingBindings := bindings }

theorem Pins.refl (s : Db) : Pins s s := ⟨_, _, rfl⟩

variable {workspaceId reviewId revisionId id : Id} {fresh : RevisionFresh}
  {bindingIds events : Id → Id} {p : Prepared} {s t r : Db}

theorem Pins.trans (h : Pins s t) (k : Pins t r) : Pins s r := by
  obtain ⟨_, _, rfl⟩ := h
  obtain ⟨_, _, rfl⟩ := k
  exact ⟨_, _, rfl⟩

theorem Seeds.pins (h : Seeds s t) : Pins s t := by
  obtain ⟨_, rfl⟩ := h
  exact ⟨_, _, rfl⟩

variable {expectedVersion : Nat} {now : Time}

theorem bindChannel_pins :
    Pins db (bindChannel settings events bindingIds workspaceId channelId now db).1 := by
  unfold bindChannel
  split
  · rename_i binding _
    have hseeds := bindingIssue_seeds events binding db
    split
    · rename_i heq
      rw [heq] at hseeds
      exact hseeds.pins
    · rename_i heq
      rw [heq] at hseeds
      exact hseeds.pins
  · split
    · exact .refl db
    · have hseeds := matrixAuthority_seeds (events channelId) channelId none none db
      split
      · rename_i heq
        rw [heq] at hseeds
        exact hseeds.pins
      · rename_i heq
        rw [heq] at hseeds
        exact hseeds.pins.trans ⟨_, _, rfl⟩

theorem bindChannels_pins (channelIds : List Id) :
    Pins db (bindChannels settings events bindingIds workspaceId now channelIds db).1 := by
  induction channelIds generalizing db with
  | nil => exact .refl db
  | cons channelId rest ih =>
    unfold bindChannels
    dsimp only
    split
    · exact bindChannel_pins.trans ih
    · exact bindChannel_pins.trans ih

theorem prepare_eligible
    (h : prepare u settings db change = .ok p) (he : p.eligible = true) : p.errors = [] := by
  obtain ⟨_, -, h⟩ := bind_eq_ok.mp h
  obtain ⟨_, -, h⟩ := bind_eq_ok.mp h
  cases h
  exact isEmpty_iff.mp (Bool.and_eq_true_iff.mp he).1

theorem blockUnpriced_eligible
    (h : p.eligible = true → p.errors = []) (he : (blockUnpriced issues p).eligible = true) :
    (blockUnpriced issues p).errors = [] := by
  unfold blockUnpriced at he ⊢
  split at he
  · split at he
    · cases he
    · rename_i hnot
      simp only [if_neg hnot]
      exact h he
  · exact h he

/-- A new Review with its items, and no selection. -/
structure Reviewed (s t : Db) (review : Review) (items : List ReviewItem) : Prop where
  fresh : Table.has Review.id s.reviews review.id = false
  distinct : (items.map ReviewItem.id).Nodup
  freshItems : ∀ i ∈ items, Table.has ReviewItem.id s.reviewItems i.id = false
  unselected : review.selectionChecksum = none
  snapshot : (snapshotOf s review.workspaceId).map (·.id) = some review.snapshotId
  own : ∀ i ∈ items, i.reviewId = review.id ∧ (i.eligible = true → i.errors = [])
  result : ∃ heads bindings captured, t = { s with
    authorityHeads := heads, pricingBindings := bindings, reviews := s.reviews ++ [review]
    reviewItems := s.reviewItems ++ items, reviewCacheVersions := captured }

theorem buildReview_ok {fresh : ReviewFresh}
    (h : buildReview u hash settings fresh workspaceId revisionId user now db = .ok db') :
    ∃ review items, Reviewed db db' review items := by
  obtain ⟨workspace, -, h⟩ := bind_eq_ok.mp h
  obtain ⟨snapshot, hsnapshot, h⟩ := bind_eq_ok.mp h
  obtain ⟨revision, -, h⟩ := bind_eq_ok.mp h
  obtain ⟨_, -, h⟩ := bind_eq_ok.mp h
  obtain ⟨_, -, h⟩ := bind_eq_ok.mp h
  obtain ⟨prepared, hprepared, h⟩ := bind_eq_ok.mp h
  obtain ⟨profile, -, h⟩ := bind_eq_ok.mp h
  have hpins : Pins db (bindPricing settings fresh workspace.id now prepared db).1 :=
    bindChannels_pins _
  cases hbound : bindPricing settings fresh workspace.id now prepared db with
  | mk bound pricing =>
  rw [hbound] at h hpins
  dsimp only at h hpins
  obtain ⟨heads, bindings, rfl⟩ := hpins
  unfold insertReview at h
  split at h
  · cases h
  rename_i hnot
  simp only [Bool.or_eq_true, not_or, Bool.not_eq_true, any_eq_false,
    Bool.not_eq_false', decide_eq_true_eq] at hnot
  refine ⟨_, _, ⟨hnot.1.1, hnot.2, hnot.1.2, rfl, ?_, ?_, _, _, _, (Except.ok.inj h).symm⟩⟩
  · exact congrArg (Option.map (·.id)) (found_ok.mp hsnapshot)
  intro item hitem
  obtain ⟨n, hn, rfl⟩ := mem_mapIdx.mp hitem
  refine ⟨rfl, fun he => ?_⟩
  rw [getElem_map] at he ⊢
  obtain ⟨change, -, hchange⟩ := mem_of_mapM hprepared
    (getElem_mem (by simpa using hn))
  exact blockUnpriced_eligible (prepare_eligible hchange) he

/-- The selection of a Review is replaced by eligible items of its own. -/
structure Selects (hash : Hashing) (s t : Db) (review : Review) (ids : List Id) (userId : Nat) : Prop where
  found : reviewOf s review.id = some review
  ready : review.status = .ready
  nodup : ids.Nodup
  nonempty : ids ≠ []
  whole : (reviewItemsIn s review.id ids).length = ids.length
  eligible : ∀ i ∈ reviewItemsIn s review.id ids, i.eligible = true
  result : t = replaceSelection hash review (reviewItemsIn s review.id ids) ids userId s

theorem chooseItems_ok (h : chooseItems hash workspaceId reviewId itemIds user db = .ok db') :
    ∃ review ids, review.id = reviewId ∧ Selects hash db db' review ids user.id := by
  obtain ⟨workspace, -, h⟩ := bind_eq_ok.mp h
  obtain ⟨review, hreview, h⟩ := bind_eq_ok.mp h
  obtain ⟨_, -, h⟩ := bind_eq_ok.mp h
  obtain ⟨_, hready, h⟩ := bind_eq_ok.mp h
  obtain ⟨_, hids, h⟩ := bind_eq_ok.mp h
  obtain ⟨_, hitems, h⟩ := bind_eq_ok.mp h
  obtain ⟨_, -, h⟩ := bind_eq_ok.mp h
  cases h
  have hget := found_ok.mp hreview
  have hid : review.id = reviewId := (Table.get_some hget).2
  simp only [refuse_ok, Bool.or_eq_false_iff, bne_eq_false_iff_eq, any_eq_false,
    isEmpty_eq_false_iff, Bool.not_eq_true', Bool.not_eq_false] at hready hids hitems
  exact ⟨review, sortedSet itemIds, hid, hid.symm ▸ hget, hready, sortedSet_nodup _, hids.1,
    hitems.1, hitems.2, rfl⟩

/-- The tables of Drafts are all that differs. -/
def Drafts (s t : Db) : Prop :=
  ∃ drafts revisions changes, t = { s with
    drafts := drafts, draftRevisions := revisions, draftChanges := changes }

theorem insertRevision_drafts (h : insertRevision draft revision changes db = .ok db') : Drafts db db' := by
  unfold insertRevision at h
  split at h
  · cases h
  · cases h
    exact ⟨_, _, _, rfl⟩

theorem writeDraft_drafts
    (h : writeDraft u hash settings fresh workspaceId expectedVersion incoming metadata
      replaceExisting user db = .ok db') : Drafts db db' := by
  obtain ⟨workspace, -, h⟩ := bind_eq_ok.mp h
  obtain ⟨draft, -, h⟩ := bind_eq_ok.mp h
  obtain ⟨snapshot, -, h⟩ := bind_eq_ok.mp h
  obtain ⟨_, -, h⟩ := bind_eq_ok.mp h
  obtain ⟨_, -, h⟩ := bind_eq_ok.mp h
  obtain ⟨_, -, h⟩ := bind_eq_ok.mp h
  obtain ⟨_, -, h⟩ := bind_eq_ok.mp h
  obtain ⟨_, -, h⟩ := bind_eq_ok.mp h
  dsimp only at h
  split at h
  · cases h
    exact ⟨_, _, _, rfl⟩
  · exact insertRevision_drafts h

theorem writeRestored_drafts
    (h : writeRestored hash fresh workspaceId revisionId expectedVersion user db = .ok db') :
    Drafts db db' := by
  obtain ⟨workspace, -, h⟩ := bind_eq_ok.mp h
  obtain ⟨draft, -, h⟩ := bind_eq_ok.mp h
  obtain ⟨source, -, h⟩ := bind_eq_ok.mp h
  obtain ⟨_, -, h⟩ := bind_eq_ok.mp h
  obtain ⟨_, -, h⟩ := bind_eq_ok.mp h
  exact insertRevision_drafts h

theorem manifestDocument_congr (hlistings : t.listings = s.listings)
    (hcache : t.channelCache = s.channelCache) :
    manifestDocument settings t = manifestDocument settings s := by
  have hpayload : listingPayload settings t = listingPayload settings s := by
    funext listingId group
    simp [listingPayload, listingOf, cacheOf, hlistings, hcache]
  funext review items dryRunId evidenceChecksum
  simp [manifestDocument, listingPayloads, hpayload]

/-- The manifest of a Dry Run's writes. -/
structure Drawn (hash : Hashing) (settings : Settings) (fresh : DryRunFresh)
    (opened : OpenDryRun) (scopes : List Scope) (s t : Db) : Prop where
  unused : Table.has ApplyManifest.id s.applyManifests fresh.manifest = false
  drawn : ∃ document payloads, manifestDocument settings s opened.review (writesOf scopes)
      fresh.dryRun (hash.json (.arr (scopes.map Scope.json))) = .ok (document, payloads) ∧
    t.applyManifests = s.applyManifests ++ [⟨fresh.manifest, opened.review.id, some fresh.dryRun,
      opened.review.selectionVersion, opened.review.selectionChecksum.getD "",
      hash.json document⟩] ∧
    t.applyManifestOperations = s.applyManifestOperations ++
      (writesOf scopes).map (manifestOperation hash fresh.manifest payloads)

/-- A stored Dry Run, with the manifest of its writes where it passed with any. -/
structure Closed (hash : Hashing) (settings : Settings) (fresh : DryRunFresh)
    (opened : OpenDryRun) (scopes : List Scope) (now : Time) (s t : Db) : Prop where
  unused : Table.has DryRun.id s.dryRuns fresh.dryRun = false
  stored : ∃ manifests operations, t = { s with
    dryRuns := (invalidateDryRuns s opened.review.id).dryRuns ++
      [newDryRun hash fresh.dryRun opened scopes now]
    dryRunScopes := s.dryRunScopes ++ scopes.map (Scope.row hash fresh.dryRun)
    applyManifests := manifests, applyManifestOperations := operations }
  manifest : if dryRunStatus scopes = .passed ∧ writesOf scopes ≠ [] then
      Drawn hash settings fresh opened scopes s t
    else t.applyManifests = s.applyManifests ∧ t.applyManifestOperations = s.applyManifestOperations

theorem has_invalidated : Table.has DryRun.id (invalidateDryRuns db reviewId).dryRuns id =
      Table.has DryRun.id db.dryRuns id := by
  simp only [Table.has, invalidateDryRuns, any_map]
  congr 1
  funext d
  simp only [Function.comp_apply]
  split
  · rfl
  · rfl

theorem closeDryRun_ok {fresh : DryRunFresh}
    (h : closeDryRun hash settings fresh opened scopes now db = .ok db') :
    Closed hash settings fresh opened scopes now db db' := by
  obtain ⟨stored, hstored, h⟩ := bind_eq_ok.mp h
  unfold insertDryRun at hstored
  split at hstored
  · cases hstored
  rename_i hunused
  cases hstored
  rw [Bool.not_eq_true, has_invalidated] at hunused
  change (if dryRunStatus scopes = .passed ∧ writesOf scopes ≠ [] then _ else _) = _ at h
  by_cases hwrites : dryRunStatus scopes = .passed ∧ writesOf scopes ≠ []
  · rw [if_pos hwrites] at h
    obtain ⟨⟨document, payloads⟩, hdocument, h⟩ := bind_eq_ok.mp h
    dsimp only at h
    split at h
    · cases h
    rename_i hmanifest
    cases h
    refine ⟨hunused, ⟨_, _, rfl⟩, ?_⟩
    rw [if_pos hwrites]
    rw [Bool.not_eq_true] at hmanifest
    refine ⟨hmanifest, document, payloads, ?_, rfl, rfl⟩
    rw [← hdocument]
    exact congrFun (congrFun (congrFun (congrFun (manifestDocument_congr rfl rfl) _) _) _) _
  · rw [if_neg hwrites] at h
    cases h
    refine ⟨hunused, ⟨_, _, rfl⟩, ?_⟩
    rw [if_neg hwrites]
    exact ⟨rfl, rfl⟩

/-- A Review is as it was, or has a later version of its selection with no checksum. -/
def Rehidden (s t : Db) (id : Id) (r : Review) : Prop :=
  (reviewOf s id = some r ∧ selectionsOf t id = selectionsOf s id) ∨
    ∃ before more channelIds, reviewOf s id = some before ∧
      r = { before with
        selectionVersion := before.selectionVersion + 1 + more
        selectionChecksum := none, selectedChannelIds := channelIds }

/-- Preferences change, and the selections of some Reviews with them. -/
structure Hides (s t : Db) : Prop where
  reviews : ∀ id r, reviewOf t id = some r → Rehidden s t id r
  kept : ∀ id, (reviewOf t id).isSome = (reviewOf s id).isSome
  rest : ∃ preferences reviews selections, t = { s with
    preferences := preferences, reviews := reviews, reviewSelections := selections }

theorem Hides.refl (s : Db) : Hides s s :=
  ⟨fun _ _ h => .inl ⟨h, rfl⟩, fun _ => rfl, _, _, _, rfl⟩

theorem Hides.trans (h : Hides s t) (k : Hides t r) : Hides s r where
  reviews id a ha := by
    obtain ⟨hsame, hsel⟩ | ⟨before, more, channelIds, hbefore, rfl⟩ := k.reviews id a ha
    · obtain ⟨hs, hsel'⟩ | hnew := h.reviews id a hsame
      · exact .inl ⟨hs, hsel.trans hsel'⟩
      · exact .inr hnew
    · obtain ⟨hs, -⟩ | ⟨first, n, _, hfirst, rfl⟩ := h.reviews id before hbefore
      · exact .inr ⟨before, more, channelIds, hs, rfl⟩
      · refine .inr ⟨first, n + 1 + more, channelIds, hfirst, ?_⟩
        simp [Nat.add_assoc]
  kept id := (k.kept id).trans (h.kept id)
  rest := by
    obtain ⟨_, _, _, rfl⟩ := h.rest
    obtain ⟨_, _, _, rfl⟩ := k.rest
    exact ⟨_, _, _, rfl⟩

theorem reviewOf_updateReview (hf : ∀ r, (f r).id = r.id) : reviewOf (updateReview db reviewId f) id =
      if id = reviewId then (reviewOf db id).map f else reviewOf db id := by
  unfold reviewOf updateReview
  rw [Table.get_set hf]
  split
  · rename_i heq
    rw [heq]
  · rfl

theorem hideFrom_hides (hidden : List Id) (reviewId : Id) : Hides db (hideFrom hidden reviewId db) := by
  refine ⟨fun id r h => ?_, fun id => ?_, _, _, _, rfl⟩
  · unfold hideFrom at h
    rw [reviewOf_updateReview (by exact fun _ => rfl)] at h
    split at h
    · obtain ⟨before, hbefore, rfl⟩ := Option.map_eq_some_iff.mp h
      exact .inr ⟨before, 0, _, hbefore, rfl⟩
    rename_i hne
    refine .inl ⟨h, ?_⟩
    simp only [selectionsOf, hideFrom, updateReview, filter_filter]
    refine filter_congr fun row _ => ?_
    by_cases hrow : row.reviewId = id
    · simp [hrow, hne]
    · simp [hrow]
  · unfold hideFrom
    rw [reviewOf_updateReview (by exact fun _ => rfl)]
    split
    · rw [Option.isSome_map]
      rfl
    · rfl

theorem hideChannels_hides (h : hideChannels payload expectedVersion user db = .ok db') : Hides db db' := by
  obtain ⟨_, -, h⟩ := bind_eq_ok.mp h
  obtain ⟨_, -, h⟩ := bind_eq_ok.mp h
  obtain ⟨_, -, h⟩ := bind_eq_ok.mp h
  cases h
  have hfold : ∀ (hidden reviewIds : List Id) (s : Db), Hides s
      (reviewIds.foldl (fun db reviewId => hideFrom hidden reviewId db) s) := by
    intro hidden reviewIds
    induction reviewIds with
    | nil => exact .refl
    | cons reviewId rest ih => exact fun s => (hideFrom_hides hidden reviewId).trans (ih _)
  refine Hides.trans ?_ (hfold _ _ _)
  unfold storePreference
  split
  · exact ⟨fun _ _ h => .inl ⟨h, rfl⟩, fun _ => rfl, _, _, _, rfl⟩
  · exact ⟨fun _ _ h => .inl ⟨h, rfl⟩, fun _ => rfl, _, _, _, rfl⟩

end

end FlowHub.Workspace
