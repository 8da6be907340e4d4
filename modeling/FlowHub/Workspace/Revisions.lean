import FlowHub.Workspace.Values
import FlowHub.Workspace.Draft

namespace FlowHub.Workspace

open Python Txn List

section

/-- Numbered on from `n`, each the child of the one before. -/
def Linked : Option Id → Nat → List DraftRevision → Prop
  | _, _, [] => True
  | parent, n, r :: rest =>
    r.parentRevisionId = parent ∧ r.revisionNumber = n ∧ Linked (some r.id) (n + 1) rest

variable {w : World service} {c : DraftChange} {r : DraftRevision}

theorem Linked.append (h : Linked parent n rs) (hp : r.parentRevisionId = (rs.getLast?.map (·.id)).or parent)
    (hn : r.revisionNumber = n + rs.length) : Linked parent n (rs ++ [r]) := by
  induction rs generalizing parent n with
  | nil => exact ⟨by simpa using hp, by simpa using hn, trivial⟩
  | cons q rest ih =>
    obtain ⟨hparent, hnumber, hrest⟩ := h
    refine ⟨hparent, hnumber, ih hrest ?_ ?_⟩
    · rw [hp]
      cases rest with
      | nil => simp
      | cons p more => simp [getLast?_cons]
    · rw [hn, length_cons]
      omega

theorem Linked.last_number (h : Linked parent n rs) (hr : rs.getLast? = some r) :
    r.revisionNumber + 1 = n + rs.length := by
  induction rs generalizing parent n with
  | nil => cases hr
  | cons q rest ih =>
    obtain ⟨-, hnumber, hrest⟩ := h
    cases rest with
    | nil =>
      obtain rfl : q = r := by simpa using hr
      simp [hnumber]
    | cons p more =>
      have := ih hrest (by rwa [getLast?_cons_cons] at hr)
      simp only [length_cons] at this ⊢
      omega

/-- The revisions of one Draft, oldest first. -/
def revisionsOf (db : Db) (draftId : Id) : List DraftRevision :=
  db.draftRevisions.filter fun r => decide (r.draftId = draftId)

/-- One linear history from 1 to the Draft's version, the pointer on its newest revision. -/
structure Chain (db : Db) (draft : Draft) : Prop where
  linked : Linked none 1 (revisionsOf db draft.id)
  version : draft.version = (revisionsOf db draft.id).length
  current : draft.currentRevisionId = (revisionsOf db draft.id).getLast?.map (·.id)

/-- Every Draft has its history, under unique keys. -/
structure Chained (db : Db) : Prop where
  drafts : (db.drafts.map Draft.id).Nodup
  revisions : (db.draftRevisions.map DraftRevision.id).Nodup
  owned : ∀ c ∈ db.draftChanges, ∃ r ∈ db.draftRevisions, r.id = c.revisionId
  chain : ∀ draft ∈ db.drafts, Chain db draft

variable {changes : List DraftRevisionChange} {revision : DraftRevision} {db db' : Db}
  {draft : Draft}

/-- The pointer names the revision that has the Draft's version for its number. -/
theorem Chained.current_number (h : Chained db) (hd : draft ∈ db.drafts)
    {id : Id} (hid : draft.currentRevisionId = some id) :
    ∃ r ∈ revisionsOf db draft.id, r.id = id ∧ r.revisionNumber = draft.version := by
  obtain ⟨hlinked, hversion, hcurrent⟩ := h.chain draft hd
  rw [hcurrent] at hid
  obtain ⟨r, hr, hrid⟩ := Option.map_eq_some_iff.mp hid
  refine ⟨r, mem_of_getLast? hr, hrid, ?_⟩
  have := hlinked.last_number hr
  omega

/-- The tables of Drafts stay as they are. -/
def SameDrafts (s t : Db) : Prop :=
  t.drafts = s.drafts ∧ t.draftRevisions = s.draftRevisions ∧ t.draftChanges = s.draftChanges

theorem Chained.same (h : Chained s) (hst : SameDrafts s t) : Chained t := by
  obtain ⟨hdrafts, hrevisions, hchanges⟩ := hst
  refine ⟨hdrafts ▸ h.drafts, hrevisions ▸ h.revisions, by rw [hchanges, hrevisions]; exact h.owned,
    fun draft hd => ?_⟩
  rw [hdrafts] at hd
  have hof : revisionsOf t draft.id = revisionsOf s draft.id := by
    rw [revisionsOf, hrevisions, revisionsOf]
  obtain ⟨hlinked, hversion, hcurrent⟩ := h.chain draft hd
  exact ⟨by rwa [hof], by rwa [hof], by rwa [hof]⟩

theorem insertRevision_ok (h : insertRevision draft revision changes db = .ok db') :
    (∀ r ∈ db.draftRevisions, r.id ≠ revision.id) ∧ db'.draftRevisions = db.draftRevisions ++ [revision] ∧
      db'.draftChanges = db.draftChanges ++ changes ∧
      db'.drafts = Table.set Draft.id db.drafts draft.id (fun d =>
        { d with currentRevisionId := some revision.id, version := draft.version + 1 }) := by
  unfold insertRevision at h
  split at h
  · cases h
  rename_i hnot
  cases h
  refine ⟨fun r hr hid => hnot ?_, rfl, rfl, rfl⟩
  rw [Bool.or_eq_true, any_eq_true]
  exact .inl ⟨r, hr, by simp [revisionClashes, hid]⟩

/-- The newest revision's child, numbered one on, makes the chain one longer. -/
theorem Chained.insert (h : Chained db) (hd : draft ∈ db.drafts)
    (howned : ∀ c ∈ changes, c.revisionId = revision.id) (hdraft : revision.draftId = draft.id)
    (hparent : revision.parentRevisionId = draft.currentRevisionId)
    (hnumber : revision.revisionNumber = draft.version + 1)
    (hok : insertRevision draft revision changes db = .ok db') : Chained db' := by
  obtain ⟨hfresh, hrevisions, hchanges, hdrafts⟩ := insertRevision_ok hok
  have hof : ∀ id, revisionsOf db' id = revisionsOf db id ++ if draft.id = id then [revision] else [] := by
    intro id
    rw [revisionsOf, hrevisions, filter_append, revisionsOf]
    by_cases hid : draft.id = id
    · simp [hdraft, hid]
    · simp [hdraft, hid]
  refine ⟨?_, ?_, ?_, fun d hmem => ?_⟩
  · rw [hdrafts, Table.set, map_map]
    have hkeys : (Draft.id ∘ fun d => if d.id = draft.id then
        { d with currentRevisionId := some revision.id, version := draft.version + 1 } else d) =
          Draft.id := by
      funext d
      simp only [Function.comp_apply]
      split <;> rfl
    rw [hkeys]
    exact h.drafts
  · rw [hrevisions, map_append, map_singleton, nodup_append]
    refine ⟨h.revisions, nodup_singleton _, ?_⟩
    intro a ha b hb
    obtain ⟨r, hr, rfl⟩ := mem_map.mp ha
    rw [mem_singleton.mp hb]
    exact hfresh r hr
  · intro c hc
    rw [hchanges] at hc
    rw [hrevisions]
    rcases mem_append.mp hc with hc | hc
    · obtain ⟨r, hr, hrid⟩ := h.owned c hc
      exact ⟨r, mem_append_left _ hr, hrid⟩
    · exact ⟨revision, by simp, (howned c hc).symm⟩
  · rw [hdrafts, Table.mem_set] at hmem
    rcases hmem with ⟨q, hq, hqid, rfl⟩ | ⟨hq, hqid⟩
    · obtain rfl : q = draft := inj_on_of_nodup_map h.drafts hq hd hqid
      obtain ⟨hlinked, hversion, hcurrent⟩ := h.chain q hq
      have hnew : revisionsOf db' q.id = revisionsOf db q.id ++ [revision] := by
        rw [hof, if_pos rfl]
      refine ⟨?_, ?_, ?_⟩
      · show Linked none 1 (revisionsOf db' q.id)
        rw [hnew]
        refine hlinked.append ?_ ?_
        · rw [hparent, hcurrent, Option.or_none]
        · omega
      · show q.version + 1 = (revisionsOf db' q.id).length
        rw [hnew, length_append, length_singleton, hversion]
      · show some revision.id = (revisionsOf db' q.id).getLast?.map (·.id)
        simp [hnew]
    · obtain ⟨hlinked, hversion, hcurrent⟩ := h.chain d hq
      have hsame : revisionsOf db' d.id = revisionsOf db d.id := by
        rw [hof, if_neg (Ne.symm hqid), append_nil]
      exact ⟨by rwa [hsame], by rwa [hsame], by rwa [hsame]⟩

variable (u : Unicode)

/-- A change as a revision stores it. -/
def DraftChange.canonical (c : DraftChange) : DraftChange :=
  { c with targetValue := canonicalText u c.targetValue }

/-- What the cache shows in a change's cell. -/
def cachedText (db : Db) (c : DraftChange) : String :=
  ((cacheOf db c.listingId).bind fun cache => currentValue cache c.field).getD ""

/-- A status and its cached value of which one at least has an alias; any price or stock. -/
def Compared (db : Db) (c : DraftChange) : Prop :=
  ¬(c.field = .status ∧ BothUnlisted u (cachedText db c) c.targetValue)

variable {u}

@[simp] theorem DraftChange.canonical_key (c : DraftChange) : (c.canonical u).key = c.key := rfl

theorem mem_mergeChange : c ∈ mergeChange u db merged change ↔
      (c = change ∧ valuesEqual u change.field (cachedText db change) change.targetValue = false) ∨
        (c ∈ merged ∧ c.key ≠ change.key) := by
  unfold mergeChange
  change c ∈ (if valuesEqual u change.field (cachedText db change) change.targetValue = true then
    _ else _) ↔ _
  split
  · rename_i hsame
    simp [hsame]
  · rename_i hdiff
    simp only [Bool.not_eq_true] at hdiff
    simp [hdiff, or_comm]

/-- Merging is an overlay: the incoming changes that differ from the cache, over the
others' cells. -/
theorem mem_merged {db : Db} {incoming kept : List DraftChange}
    (distinct : (incoming.map DraftChange.key).Nodup) :
    c ∈ incoming.foldl (mergeChange u db) kept ↔
      (c ∈ incoming ∧ valuesEqual u c.field (cachedText db c) c.targetValue = false) ∨
        (c ∈ kept ∧ c.key ∉ incoming.map DraftChange.key) := by
  induction incoming generalizing kept with
  | nil => simp
  | cons i rest ih =>
    rw [map_cons, nodup_cons] at distinct
    rw [foldl_cons, ih distinct.2, mem_mergeChange, mem_cons, map_cons, mem_cons]
    constructor
    · rintro (⟨hc, hdiff⟩ | ⟨⟨rfl, hdiff⟩ | ⟨hc, hne⟩, hrest⟩)
      · exact .inl ⟨.inr hc, hdiff⟩
      · exact .inl ⟨.inl rfl, hdiff⟩
      · exact .inr ⟨hc, by rintro (h | h) <;> contradiction⟩
    · rintro (⟨rfl | hc, hdiff⟩ | ⟨hc, hnone⟩)
      · exact .inr ⟨.inl ⟨rfl, hdiff⟩, distinct.1⟩
      · exact .inl ⟨hc, hdiff⟩
      · exact .inr ⟨.inr ⟨hc, fun h => hnone (.inl h)⟩, fun h => hnone (.inr h)⟩

theorem mem_contentOf : c ∈ contentOf db revisionId ↔ ∃ row ∈ db.draftChanges, row.revisionId = revisionId ∧
        DraftRevisionChange.draftChange row = c := by
  simp [contentOf, changesOf, mem_map, mem_sortedBy, mem_filter, decide_eq_true_eq, and_assoc]

/-- The content of a new revision is what was inserted with it, and no other changes. -/
theorem Chained.content (h : Chained db) (howned : ∀ c ∈ changes, c.revisionId = revision.id)
    (hok : insertRevision draft revision changes db = .ok db') :
    (∀ c, c ∈ contentOf db' revision.id ↔ c ∈ changes.map DraftRevisionChange.draftChange) ∧
      ∀ r ∈ db.draftRevisions, contentOf db' r.id = contentOf db r.id := by
  obtain ⟨hfresh, -, hchanges, -⟩ := insertRevision_ok hok
  constructor
  · intro c
    rw [mem_contentOf, hchanges]
    constructor
    · rintro ⟨row, hrow, hid, rfl⟩
      rcases mem_append.mp hrow with hrow | hrow
      · obtain ⟨r, hr, hrid⟩ := h.owned row hrow
        exact absurd (hrid.trans hid) (hfresh r hr)
      · exact mem_map_of_mem hrow
    · intro hc
      obtain ⟨row, hrow, rfl⟩ := mem_map.mp hc
      exact ⟨row, mem_append_right _ hrow, howned row hrow, rfl⟩
  · intro r hr
    have hnone : changes.filter (fun c => decide (c.revisionId = r.id)) = [] := by
      rw [filter_eq_nil_iff]
      intro c hc
      rw [decide_eq_true_eq, howned c hc]
      exact Ne.symm (hfresh r hr)
    rw [contentOf, contentOf, changesOf, changesOf, hchanges, filter_append, hnone, append_nil]

variable (u)

/-- A save added one revision: the kept cells, overlaid by the incoming changes, without
those that only say what the cache shows. -/
structure Saved (db db' : Db) (kept incoming : List DraftChange) (revision : DraftRevision) : Prop where
  appended : db'.draftRevisions = db.draftRevisions ++ [revision]
  older : ∀ r ∈ db.draftRevisions, contentOf db' r.id = contentOf db r.id
  retained : ∀ c ∈ kept, c.key ∉ incoming.map DraftChange.key → c.canonical u ∈ contentOf db' revision.id
  edited : ∀ c ∈ incoming, Compared u db c → (c.canonical u ∈ contentOf db' revision.id ↔
    ¬SameValue u c.field (cachedText db c) c.targetValue)
  only : ∀ c ∈ contentOf db' revision.id, (∃ i ∈ incoming, c = i.canonical u) ∨
    ∃ k ∈ kept, k.key ∉ incoming.map DraftChange.key ∧ c = k.canonical u

/-- A restore added one revision with another one's content. -/
structure Restored (db db' : Db) (sourceId : Id) (revision : DraftRevision) : Prop where
  appended : db'.draftRevisions = db.draftRevisions ++ [revision]
  older : ∀ r ∈ db.draftRevisions, contentOf db' r.id = contentOf db r.id
  copied : ∀ c, c ∈ contentOf db' revision.id ↔ c ∈ contentOf db sourceId

variable {u} {hash : Hashing} {settings : Settings} {fresh : RevisionFresh}
  {workspaceId revisionId : Id} {expectedVersion : Nat} {incoming : List DraftChange}
  {metadata : Json} {replaceExisting : Bool} {user : FlowHubUser}

theorem draftOf_mem {db : Db} (h : draftOf db workspaceId = some draft) :
    draft ∈ db.drafts := (Table.get_some h).1

/-- Everything a save does: nothing, or one more revision of the merged changes. -/
theorem writeDraft_ok (h : writeDraft u hash settings fresh workspaceId
      expectedVersion incoming metadata replaceExisting user db = .ok db') :
    ∃ draft, draftOf db workspaceId = some draft ∧ draft.version = expectedVersion ∧
      (incoming.map DraftChange.key).Nodup ∧
      (db' = db ∨ ∃ revision changes, revision.draftId = draft.id ∧
        revision.parentRevisionId = draft.currentRevisionId ∧
        revision.revisionNumber = draft.version + 1 ∧
        insertRevision draft revision changes db = .ok db' ∧
        (∀ c ∈ changes, c.revisionId = revision.id) ∧
        ∀ c, c ∈ changes.map DraftRevisionChange.draftChange ↔
          ∃ m ∈ incoming.foldl (mergeChange u db) (keptChanges db draft replaceExisting),
            m.canonical u = c) := by
  obtain ⟨workspace, hws, h⟩ := bind_eq_ok.mp h
  obtain ⟨draft, hdraft, h⟩ := bind_eq_ok.mp h
  obtain ⟨snapshot, -, h⟩ := bind_eq_ok.mp h
  obtain ⟨_, hversion, h⟩ := bind_eq_ok.mp h
  obtain ⟨_, -, h⟩ := bind_eq_ok.mp h
  obtain ⟨_, -, h⟩ := bind_eq_ok.mp h
  obtain ⟨_, hkeys, h⟩ := bind_eq_ok.mp h
  obtain ⟨_, -, h⟩ := bind_eq_ok.mp h
  refine ⟨draft, (editableWorkspace_ok hws).2 ▸ found_ok.mp hdraft, bne_eq_false_iff_eq.mp (refuse_ok.mp hversion),
    by simpa using refuse_ok.mp hkeys, ?_⟩
  dsimp only at h
  split at h
  · exact .inl (Except.ok.inj h).symm
  refine .inr ⟨_, _, rfl, rfl, rfl, h, ?_, fun c => ?_⟩
  · intro c hc
    obtain ⟨n, hn, rfl⟩ := mem_mapIdx.mp hc
    rfl
  · simp only [mem_map, mem_mapIdx]
    constructor
    · rintro ⟨_, ⟨n, hn, rfl⟩, rfl⟩
      exact ⟨_, mem_sortedBy.mp (getElem_mem hn), rfl⟩
    · rintro ⟨m, hm, rfl⟩
      obtain ⟨n, hn, hget⟩ := mem_iff_getElem.mp (mem_sortedBy.mpr hm)
      exact ⟨_, ⟨n, hn, rfl⟩, by rw [hget]; rfl⟩

theorem writeDraft_saved (chained : Chained db)
    (h : writeDraft u hash settings fresh workspaceId expectedVersion incoming metadata
      replaceExisting user db = .ok db') :
    Chained db' ∧ ∃ draft, draftOf db workspaceId = some draft ∧
      draft.version = expectedVersion ∧ (db' = db ∨
        ∃ revision, Saved u db db' (keptChanges db draft replaceExisting) incoming revision) := by
  obtain ⟨draft, hdraft, hversion, distinct, rfl | ⟨revision, changes, hof, hparent, hnumber, hok,
    howned, hchanges⟩⟩ := writeDraft_ok h
  · exact ⟨chained, draft, hdraft, hversion, .inl rfl⟩
  obtain ⟨hcontent, holder⟩ := chained.content howned hok
  have hmem : ∀ c, c ∈ contentOf db' revision.id ↔ ∃ m,
      ((m ∈ incoming ∧ valuesEqual u m.field (cachedText db m) m.targetValue = false) ∨
        (m ∈ keptChanges db draft replaceExisting ∧ m.key ∉ incoming.map DraftChange.key)) ∧
      m.canonical u = c := by
    intro c
    rw [hcontent, hchanges]
    simp [mem_merged distinct]
  refine ⟨chained.insert (draftOf_mem hdraft) howned hof hparent hnumber hok, draft, hdraft,
    hversion, .inr ⟨revision, (insertRevision_ok hok).2.1, holder, ?_, ?_, ?_⟩⟩
  · intro c hc hkey
    exact (hmem _).mpr ⟨c, .inr ⟨hc, hkey⟩, rfl⟩
  · intro c hc hcompared
    have hlisted : ¬(c.field = .status ∧ BothUnlisted u (cachedText db c) c.targetValue) := hcompared
    rw [sameValue_iff, and_iff_left hlisted, Bool.not_eq_true, hmem]
    constructor
    · rintro ⟨m, hm, heq⟩
      have hk : m.key = c.key := by
        rw [← DraftChange.canonical_key (u := u) m, heq, DraftChange.canonical_key]
      rcases hm with ⟨hm, hdiff⟩ | ⟨hm, hkey⟩
      · obtain rfl : m = c := inj_on_of_nodup_map distinct hm hc hk
        exact hdiff
      · rw [hk] at hkey
        exact absurd (mem_map_of_mem hc) hkey
    · intro hdiff
      exact ⟨c, .inl ⟨hc, hdiff⟩, rfl⟩
  · intro c hc
    obtain ⟨m, ⟨hm, -⟩ | ⟨hm, hkey⟩, rfl⟩ := (hmem c).mp hc
    · exact .inl ⟨m, hm, rfl⟩
    · exact .inr ⟨m, hm, hkey, rfl⟩

theorem writeRestored_restored (chained : Chained db)
    (h : writeRestored hash fresh workspaceId revisionId expectedVersion user db = .ok db') :
    Chained db' ∧ ∃ draft, draftOf db workspaceId = some draft ∧
      draft.version = expectedVersion ∧ ∃ revision, Restored db db' revisionId revision := by
  obtain ⟨workspace, hws, h⟩ := bind_eq_ok.mp h
  obtain ⟨draft, hdraft, h⟩ := bind_eq_ok.mp h
  obtain ⟨source, hsource, h⟩ := bind_eq_ok.mp h
  obtain ⟨_, -, h⟩ := bind_eq_ok.mp h
  obtain ⟨_, hversion, h⟩ := bind_eq_ok.mp h
  have hd := found_ok.mp hdraft
  have hid : source.id = revisionId := (Table.get_some (found_ok.mp hsource)).2
  have howned : ∀ c ∈ (changesOf db source.id).mapIdx (fun n c => ({ c with
      id := fresh.change n, revisionId := fresh.revision } : DraftRevisionChange)),
      c.revisionId = fresh.revision := by
    intro c hc
    obtain ⟨n, hn, rfl⟩ := mem_mapIdx.mp hc
    rfl
  obtain ⟨hcontent, holder⟩ := chained.content howned h
  refine ⟨chained.insert (draftOf_mem hd) howned rfl rfl rfl h, draft,
    (editableWorkspace_ok hws).2 ▸ hd, bne_eq_false_iff_eq.mp (refuse_ok.mp hversion), _,
    (insertRevision_ok h).2.1, holder, fun c => ?_⟩
  rw [hcontent, ← hid, contentOf, mem_map, mem_map]
  constructor
  · rintro ⟨_, hrow, rfl⟩
    obtain ⟨n, hn, rfl⟩ := mem_mapIdx.mp hrow
    exact ⟨_, getElem_mem hn, rfl⟩
  · rintro ⟨row, hrow, rfl⟩
    obtain ⟨n, hn, rfl⟩ := mem_iff_getElem.mp hrow
    exact ⟨_, mem_mapIdx.mpr ⟨n, hn, rfl⟩, rfl⟩

theorem saveDraft_meets (inv : World service → Prop)
    (keep : ∀ l s, Chained s → inv (w.log l s)) (chained : Chained w.state) :
    (saveDraft u hash settings fresh workspaceId expectedVersion incoming metadata replaceExisting
      user).Meets (.alone inv)
      (fun _ v => ∃ draft, draftOf w.state workspaceId = some draft ∧
        draft.version = expectedVersion ∧ (v.state = w.state ∨ ∃ revision,
          Saved u w.state v.state (keptChanges w.state draft replaceExisting) incoming revision))
      (fun _ v => v.state = w.state) w := by
  refine Proc.Meets.rescue (E := fun _ v => v.state = w.state) ?_ fun e v hv => hv
  refine Proc.Meets.transact ?_ ?_
  · rintro _ rfl s _ hok
    obtain ⟨_, hwrite, heq⟩ := map_eq_ok.mp hok
    cases heq
    obtain ⟨hchained, hsaved⟩ := writeDraft_saved chained hwrite
    exact ⟨keep _ _ hchained, hsaved⟩
  · rintro _ rfl e
    exact ⟨keep _ _ chained, rfl⟩

theorem restoreRevision_meets (inv : World service → Prop)
    (keep : ∀ l s, Chained s → inv (w.log l s)) (chained : Chained w.state) :
    (restoreRevision hash fresh workspaceId revisionId expectedVersion user).Meets (.alone inv)
      (fun _ v => ∃ draft, draftOf w.state workspaceId = some draft ∧
        draft.version = expectedVersion ∧ ∃ revision, Restored w.state v.state revisionId revision)
      (fun _ v => v.state = w.state) w := by
  refine Proc.Meets.transact ?_ ?_
  · rintro _ rfl s _ hok
    obtain ⟨_, hwrite, heq⟩ := map_eq_ok.mp hok
    cases heq
    obtain ⟨hchained, hrestored⟩ := writeRestored_restored chained hwrite
    exact ⟨keep _ _ hchained, hrestored⟩
  · rintro _ rfl e
    exact ⟨keep _ _ chained, rfl⟩

variable (u hash settings)

/-- Saves and restores of any Workspace, and transactions on other tables between them. -/
inductive DraftCall : Program Unit → Prop
  | save (fresh : RevisionFresh) (workspaceId : Id) (expectedVersion : Nat)
      (incoming : List DraftChange) (metadata : Json) (replaceExisting : Bool)
      (user : FlowHubUser) : DraftCall (saveDraft u hash settings fresh workspaceId expectedVersion incoming metadata
        replaceExisting user)
  | restore (fresh : RevisionFresh) (workspaceId revisionId : Id) (expectedVersion : Nat)
      (user : FlowHubUser) : DraftCall (restoreRevision hash fresh workspaceId revisionId expectedVersion user)
  | elsewhere (tag : Tag) (f : Db → Except Fault (Db × Unit))
      (same : ∀ s t, f s = .ok (t, ()) → SameDrafts s t) : DraftCall (Proc.transact tag f)

variable {u hash settings}

theorem chained_always (run : Session (DraftCall u hash settings) start w) (chained : Chained start.state) :
    Chained w.state := by
  have keep : ∀ p, DraftCall u hash settings p → ∀ v : World service, Chained v.state →
      p.Meets (.alone fun w => Chained w.state) (fun _ _ => True) (fun _ _ => True) v := ?_
  · exact run.invariant chained keep
  intro p hp v hv
  cases hp with
  | save => exact .anyEnd (saveDraft_meets _ (fun _ _ h => h) hv)
  | restore => exact .anyEnd (restoreRevision_meets _ (fun _ _ h => h) hv)
  | elsewhere tag f same =>
    refine Proc.Meets.transact ?_ ?_
    · rintro _ rfl s _ hok
      exact ⟨hv.same (same _ _ hok), trivial⟩
    · rintro _ rfl e
      exact ⟨hv, trivial⟩

end

namespace Sample

def revisionFresh : RevisionFresh where
  revision := "revision 2"
  change n := "revision 2 change" ++ toString n

/-- A Draft of one price edit is saved again, with nothing new and other metadata. -/
def savedEmpty (current target : String) (replaceExisting : Bool) : Program Unit × World service :=
  replay ⟨fun _ _ => none, fun _ _ => .error .noResultFound⟩ 3
    (saveDraft .ascii documents settings revisionFresh "workspace" 1 [] .null replaceExisting owner)
    (.initial (catalogue [⟨"7", .stock, current, target⟩]))

theorem savedEmpty_steps (h : (savedEmpty current target replaceExisting).1.result.isSome = true) :
    Steps (saveDraft .ascii documents settings revisionFresh "workspace" 1 [] .null replaceExisting
        owner) (.initial (catalogue [⟨"7", .stock, current, target⟩])) (.done ())
      (savedEmpty current target replaceExisting).2 :=
  replay_done () h

theorem catalogue_chained : Chained (catalogue [⟨"7", .stock, "3", "5"⟩]) := by
  refine ⟨by decide +kernel, by decide +kernel, by decide +kernel, fun draft hd => ?_⟩
  obtain rfl := mem_singleton.mp hd
  exact ⟨⟨rfl, rfl, trivial⟩, rfl, rfl⟩

end Sample

open Sample

end FlowHub.Workspace
