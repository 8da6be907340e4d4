import FlowHub.Python.Words
import FlowHub.Related
import FlowHub.Workspace.Revisions

/-! Business equality as a relation, and what a save makes of equal targets. -/
namespace FlowHub.Workspace

open Python Txn List Option Except

section

variable (u : Unicode)

/-- A text that stands for a value of the field: any status, and what denotes a finite number. -/
def Value (field : Field) (text : String) : Prop :=
  field = .status ∨ ∃ q, number u text = some (.finite q)

variable {u} {field : Field} {a b c : String}

theorem valuesEqual_number (hfield : field ≠ .status) : valuesEqual u field a b = true ↔
    ∃ q, number u a = some (.finite q) ∧ number u b = some (.finite q) := by
  cases field with
  | price | stock => rw [valuesEqual, sameNumber_iff]
  | status => exact absurd rfl hfield

theorem valuesEqual_symm (h : valuesEqual u field a b = true) : valuesEqual u field b a = true := by
  cases field with
  | price | stock =>
    rw [valuesEqual_number (by decide)] at h ⊢
    obtain ⟨q, ha, hb⟩ := h
    exact ⟨q, hb, ha⟩
  | status =>
    have halias := of_decide_eq_true h
    exact decide_eq_true halias.symm

theorem valuesEqual_trans (h : valuesEqual u field a b = true) (h' : valuesEqual u field b c = true) :
    valuesEqual u field a c = true := by
  cases field with
  | price | stock =>
    rw [valuesEqual_number (by decide)] at h h' ⊢
    obtain ⟨q, ha, hb⟩ := h
    obtain ⟨q', hb', hc⟩ := h'
    have hq : q = q' := by
      rw [hb] at hb'
      simpa using hb'
    exact ⟨q, ha, hq ▸ hc⟩
  | status =>
    have hab := of_decide_eq_true h
    have hbc := of_decide_eq_true h'
    exact decide_eq_true (hab.trans hbc)

theorem valuesEqual_self_iff : valuesEqual u field a a = true ↔ Value u field a := by
  cases field with
  | price | stock =>
    rw [valuesEqual_number (by decide)]
    simp [Value]
  | status => simp [valuesEqual, Value]

/-- Equal targets are both unchanged against a current value, or both changed. -/
theorem valuesEqual_congr (current : String) (h : valuesEqual u field a b = true) :
    valuesEqual u field current a = valuesEqual u field current b := by
  rw [Bool.eq_iff_iff]
  constructor
  · intro ha
    exact valuesEqual_trans ha h
  · intro hb
    exact valuesEqual_trans hb (valuesEqual_symm h)

section

variable (hnormal : ∀ text, u.nfkc (canonicalText u text) = canonicalText u text)
  (hspace : u.isSpace ' ' = true)
include hnormal hspace

theorem canonicalText_idem (text : String) :
    canonicalText u (canonicalText u text) = canonicalText u text := by
  have hwords : words u (canonicalText u text).toList = words u (u.nfkc text).toList := by
    rw [canonicalText, String.toList_ofList]
    exact words_spaced (fun w hw => word_of_mem_words hw) hspace
  rw [canonicalText, hnormal, hwords, canonicalText]

theorem number_canonical (text : String) : number u (canonicalText u text) = number u text := by
  rw [number, canonicalText_idem hnormal hspace, number]

theorem statusAlias_canonical (text : String) :
    statusAlias u (canonicalText u text) = statusAlias u text := by
  rw [statusAlias, canonicalText_idem hnormal hspace, statusAlias]

theorem valuesEqual_canonical (field : Field) (a b : String) :
    valuesEqual u field (canonicalText u a) (canonicalText u b) = valuesEqual u field a b := by
  cases field with
  | price | stock => simp only [valuesEqual, number_canonical hnormal hspace]
  | status => simp only [valuesEqual, statusAlias_canonical hnormal hspace]

theorem Value.canonical (h : Value u field a) : Value u field (canonicalText u a) := by
  rw [← valuesEqual_self_iff] at h ⊢
  rwa [valuesEqual_canonical hnormal hspace]

end

variable (u)

/-- Two changes of one cell whose targets are equal. -/
structure Alike (a b : DraftChange) : Prop where
  cell : { b with targetValue := a.targetValue } = a
  equal : valuesEqual u a.field a.targetValue b.targetValue = true

variable {u}

theorem Alike.exists (h : Alike u x y) : ∃ target, y = { x with targetValue := target } ∧
    valuesEqual u x.field x.targetValue target = true := by
  refine ⟨y.targetValue, ?_, h.equal⟩
  rw [← h.cell]

theorem Alike.refl (h : Value u x.field x.targetValue) : Alike u x x := ⟨rfl, valuesEqual_self_iff.mpr h⟩

theorem Alike.key (h : Alike u x y) : y.key = x.key := by
  obtain ⟨target, rfl, -⟩ := h.exists
  rfl

theorem validDraftChange_alike (h : Alike u x y) : validDraftChange u y = validDraftChange u x := by
  obtain ⟨target, rfl, hequal⟩ := h.exists
  cases hfield : x.field with
  | status => simp [validDraftChange, hfield]
  | price | stock =>
    rw [hfield, valuesEqual_number (by decide)] at hequal
    obtain ⟨q, hx, hy⟩ := hequal
    simp [validDraftChange, hfield, hx, hy]

variable {changes : List DraftChange} {draft : Draft}

theorem mergeChange_alike (h : Forall₂ (Alike u) kept kept') (hxy : Alike u x y) :
    Forall₂ (Alike u) (mergeChange u db kept x) (mergeChange u db kept' y) := by
  have hrest : Forall₂ (Alike u) (kept.filter fun c => decide (c.key ≠ x.key))
      (kept'.filter fun c => decide (c.key ≠ y.key)) := by
    apply rel_filter
    · intro c c' hc
      simp [hc.key, hxy.key]
    · exact h
  obtain ⟨target, rfl, hequal⟩ := hxy.exists
  unfold mergeChange
  dsimp only
  rw [← valuesEqual_congr _ hequal]
  split
  · exact hrest
  · exact rel_append hrest (.cons hxy .nil)

theorem merged_alike (h : Forall₂ (Alike u) kept kept') (hincoming : Forall₂ (Alike u) incoming incoming') :
    Forall₂ (Alike u) (incoming.foldl (mergeChange u db) kept)
      (incoming'.foldl (mergeChange u db) kept') := by
  induction hincoming generalizing kept kept' with
  | nil => exact h
  | cons hxy _ ih => exact ih (mergeChange_alike h hxy)

theorem sorted_alike (h : Forall₂ (Alike u) changes changes') :
    Forall₂ (Alike u) (sortedBy (fun c => [c.listingId, c.field.name]) changes)
      (sortedBy (fun c => [c.listingId, c.field.name]) changes') := by
  unfold sortedBy
  apply forall₂_insertionSort _ h
  intro a a' b b' ha hb
  obtain ⟨s, rfl, -⟩ := ha.exists
  obtain ⟨t, rfl, -⟩ := hb.exists
  rfl

/-- A cell that passes passes with an equal target too, but for a status the Channel does not take. -/
theorem validateCell_alike (h : Alike u x y) (hx : validateCell u settings db snapshot x = .ok ()) :
    validateCell u settings db snapshot y = .ok () ∨ y.field = .status ∧
      validateCell u settings db snapshot y = .error (unprocessable "STATUS_UNSUPPORTED") := by
  obtain ⟨target, rfl, -⟩ := h.exists
  simp only [validateCell, bind_eq_ok] at hx
  obtain ⟨listing, hlisting, product, hproduct, _, hidentity, _, hsnapshot, _, henabled, _, hchannel, _,
    hvariable, _, heditable, _, hmapping, capabilities, hcapabilities, _, hwrite, _, hcurrency, hstatus⟩ := hx
  have hrest : validateCell u settings db snapshot { x with targetValue := target } =
      refuse (x.field == .status && !decide (target ∈ capabilities.supportedStatuses))
        (unprocessable "STATUS_UNSUPPORTED") := by
    simp [validateCell, hlisting, hproduct, hidentity, hsnapshot, henabled, hchannel, hvariable,
      heditable, hmapping, hcapabilities, hwrite, hcurrency, bind, Except.bind]
  rw [hrest]
  by_cases hrefused : (x.field == .status && !decide (target ∈ capabilities.supportedStatuses)) = true
  · right
    rw [Bool.and_eq_true, beq_iff_eq] at hrefused
    simp [refuse, hrefused.1, hrefused.2]
  · left
    rw [Bool.not_eq_true] at hrefused
    simp [refuse, hrefused]

/-- The entries that a save computes. -/
def draftEntries (u : Unicode) (db : Db) (draft : Draft) (incoming : List DraftChange)
    (replaceExisting : Bool) : List DraftChange :=
  sortedBy (fun c => [c.listingId, c.field.name])
    (incoming.foldl (mergeChange u db) (keptChanges db draft replaceExisting))

/-- The revision a save answers with: the current one, whose checksum is that of the entries, or a new
one of these entries. -/
def Yields (u : Unicode) (hash : Hashing) (metadata : Json) (draft : Draft) (entries : List DraftChange)
    (db db' : Db) : Prop :=
  (db' = db ∧ ∃ revision, draft.currentRevisionId.bind (Table.get DraftRevision.id db.draftRevisions) =
      some revision ∧ revision.checksum = revisionChecksum u hash entries metadata) ∨
  ∃ revision rows, insertRevision draft revision rows db = .ok db' ∧
    revision.checksum = revisionChecksum u hash entries metadata ∧
    (∀ row ∈ rows, row.revisionId = revision.id) ∧
    rows.map DraftRevisionChange.draftChange = entries.map (DraftChange.canonical u)

variable {hash : Hashing} {settings : Settings} {fresh : RevisionFresh} {workspaceId : Id}
  {expectedVersion : Nat} {incoming incoming' : List DraftChange} {metadata : Json}
  {replaceExisting : Bool} {user : FlowHubUser} {db db' : Db}

theorem writeDraft_yields (h : writeDraft u hash settings fresh workspaceId expectedVersion incoming
      metadata replaceExisting user db = .ok db') :
    ∃ draft, draftOf db workspaceId = some draft ∧
      incoming.forM (validDraftChange u) = .ok () ∧ (incoming.map DraftChange.key).Nodup ∧
      Yields u hash metadata draft (draftEntries u db draft incoming replaceExisting) db db' := by
  simp only [writeDraft, bind_eq_ok] at h
  obtain ⟨workspace, hworkspace, draft, hdraft, snapshot, -, _, -, _, -, _, hvalid, _, hkeys, _, -, h⟩ := h
  rw [(editableWorkspace_ok hworkspace).2] at hdraft
  refine ⟨draft, found_ok.mp hdraft, hvalid, by simpa using refuse_ok.mp hkeys, ?_⟩
  split at h
  · rename_i hsame
    obtain ⟨revision, hrevision, hchecksum⟩ := map_eq_some_iff.mp hsame
    exact Or.inl ⟨(ok.inj h).symm, revision, hrevision, hchecksum⟩
  · refine Or.inr ⟨_, _, h, rfl, ?_, ?_⟩
    · intro row hrow
      obtain ⟨n, hn, rfl⟩ := mem_mapIdx.mp hrow
      rfl
    · apply ext_getElem
      · simp [draftEntries]
      · intro n _ _
        simp [draftEntries, newChange, DraftRevisionChange.draftChange, DraftChange.canonical]

theorem forM_validDraftChange_alike (h : Forall₂ (Alike u) incoming incoming') :
    incoming'.forM (validDraftChange u) = incoming.forM (validDraftChange u) := by
  induction h with
  | nil => rfl
  | @cons x y xs ys hxy _ ih =>
    show (do validDraftChange u y; ys.forM (validDraftChange u)) =
      do validDraftChange u x; xs.forM (validDraftChange u)
    rw [validDraftChange_alike hxy, ih]

theorem forM_validateCell_alike (h : Forall₂ (Alike u) changes changes')
    (hx : changes.forM (validateCell u settings db snapshot) = .ok ()) :
    changes'.forM (validateCell u settings db snapshot) = .ok () ∨ (∃ c ∈ changes', c.field = .status) ∧
        changes'.forM (validateCell u settings db snapshot) =
          .error (unprocessable "STATUS_UNSUPPORTED") := by
  induction h with
  | nil => exact .inl rfl
  | @cons x y xs ys hxy _ ih =>
    obtain ⟨_, hfirst, hrest⟩ := bind_eq_ok.mp hx
    show (do validateCell u settings db snapshot y; ys.forM (validateCell u settings db snapshot)) = _ ∨
      _ ∧ (do validateCell u settings db snapshot y; ys.forM (validateCell u settings db snapshot)) = _
    rcases validateCell_alike hxy hfirst with hok | ⟨hstatus, herror⟩
    · rw [hok]
      rcases ih hrest with hok | ⟨⟨c, hc, hstatus⟩, herror⟩
      · exact Or.inl hok
      · exact Or.inr ⟨⟨c, mem_cons_of_mem _ hc, hstatus⟩, herror⟩
    · rw [herror]
      exact Or.inr ⟨⟨y, mem_cons_self, hstatus⟩, rfl⟩

variable (u) in
def Stored (db : Db) : Prop := ∀ row ∈ db.draftChanges, Value u row.field row.targetValue

theorem Stored.kept (h : Stored u db) :
    ∀ c ∈ keptChanges db draft replaceExisting, Value u c.field c.targetValue := by
  intro c hc
  unfold keptChanges at hc
  split at hc
  · split at hc
    · cases hc
    · obtain ⟨row, hrow, -, rfl⟩ := mem_contentOf.mp hc
      exact h row hrow
  · cases hc

/-- What an accepted save makes of equal targets: entries that are equal in pairs. It is accepted as well,
but for a status its Channel does not take or a revision that is there already. -/
theorem writeDraft_alike (hstored : Stored u db) (hincoming : Forall₂ (Alike u) incoming incoming')
    (h : writeDraft u hash settings fresh workspaceId expectedVersion incoming metadata replaceExisting
      user db = .ok db') :
    ∃ draft, draftOf db workspaceId = some draft ∧
      Forall₂ (Alike u) (draftEntries u db draft incoming replaceExisting)
        (draftEntries u db draft incoming' replaceExisting) ∧
      ∀ fresh' e, writeDraft u hash settings fresh' workspaceId expectedVersion incoming' metadata
        replaceExisting user db = .error e → e = .integrityError ∨ e = unprocessable "STATUS_UNSUPPORTED" ∧
            ∃ c ∈ draftEntries u db draft incoming' replaceExisting, c.field = .status := by
  simp only [writeDraft, bind_eq_ok] at h
  obtain ⟨workspace, hworkspace, draft, hdraft, snapshot, hsnapshot, _, hversion, _, hlimit, _, hvalid,
    _, hkeys, _, hcells, -⟩ := h
  have hkept : Forall₂ (Alike u) (keptChanges db draft replaceExisting)
      (keptChanges db draft replaceExisting) :=
    forall₂_same.mpr fun c hc => Alike.refl (hstored.kept c hc)
  have halike : Forall₂ (Alike u) (draftEntries u db draft incoming replaceExisting)
      (draftEntries u db draft incoming' replaceExisting) :=
    sorted_alike (merged_alike hkept hincoming)
  have hid := (editableWorkspace_ok hworkspace).2
  refine ⟨draft, hid ▸ found_ok.mp hdraft, halike, ?_⟩
  intro fresh' e he
  have hlength : incoming'.length = incoming.length := hincoming.length_eq.symm
  have hkey : incoming'.map DraftChange.key = incoming.map DraftChange.key :=
    (forall₂_map_eq (hincoming.imp fun _ _ hxy => hxy.key.symm)).symm
  simp only [writeDraft, hworkspace, hdraft, hsnapshot, hversion, hlength, hlimit, hkey, hkeys,
    forM_validDraftChange_alike hincoming, hvalid, bind, Except.bind] at he
  rcases forM_validateCell_alike halike hcells with hok | ⟨hstatus, herror⟩
  · simp only [draftEntries] at hok
    rw [hok] at he
    dsimp only at he
    split at he
    · cases he
    unfold insertRevision at he
    split at he
    · exact Or.inl (error.inj he).symm
    · cases he
  · simp only [draftEntries] at herror
    rw [herror] at he
    exact Or.inr ⟨(error.inj he).symm, hstatus⟩

theorem validDraftChange_value (h : validDraftChange u x = .ok ()) : Value u x.field x.targetValue := by
  by_cases hstatus : x.field = .status
  · exact Or.inl hstatus
  right
  simp only [validDraftChange, bind_eq_ok, if_pos hstatus] at h
  obtain ⟨_, -, _, -, _, hnonnegative, -⟩ := h
  have hok := refuse_ok.mp hnonnegative
  cases hnumber : number u x.targetValue with
  | none => simp [hnumber, nonnegative] at hok
  | some n =>
    cases n with
    | finite q => exact ⟨q, rfl⟩
    | infinite | nan => simp [hnumber, nonnegative] at hok

theorem value_of_forM (h : changes.forM (validDraftChange u) = .ok ()) :
    ∀ c ∈ changes, Value u c.field c.targetValue := by
  induction changes with
  | nil => simp
  | cons x xs ih =>
    obtain ⟨_, hfirst, hrest⟩ := bind_eq_ok.mp h
    rw [forall_mem_cons]
    exact ⟨validDraftChange_value hfirst, ih hrest⟩

theorem Stored.entries (h : Stored u db)
    (hvalid : incoming.forM (validDraftChange u) = .ok ()) (hkeys : (incoming.map DraftChange.key).Nodup) :
    ∀ c ∈ draftEntries u db draft incoming replaceExisting, Value u c.field c.targetValue := by
  intro c hc
  rcases (mem_merged hkeys).mp (mem_sortedBy.mp hc) with ⟨hmem, -⟩ | ⟨hmem, -⟩
  · exact value_of_forM hvalid c hmem
  · exact h.kept c hmem

theorem writeRestored_stored (h : Stored u db)
    (hok : writeRestored hash fresh workspaceId revisionId expectedVersion user db = .ok db') :
    Stored u db' := by
  simp only [writeRestored, bind_eq_ok] at hok
  obtain ⟨_, -, _, -, source, -, _, -, _, -, hinsert⟩ := hok
  intro row hrow
  rw [(insertRevision_ok hinsert).2.2.1] at hrow
  rcases mem_append.mp hrow with hrow | hrow
  · exact h row hrow
  · obtain ⟨n, hn, rfl⟩ := mem_mapIdx.mp hrow
    have hmem := mem_sortedBy.mp (getElem_mem hn)
    exact h (changesOf db source.id)[n] (mem_filter.mp hmem).1

section

variable (hnormal : ∀ text, u.nfkc (canonicalText u text) = canonicalText u text)
  (hspace : u.isSpace ' ' = true)
include hnormal hspace

theorem Alike.canonical (h : Alike u x y) : Alike u (x.canonical u) (y.canonical u) := by
  obtain ⟨target, rfl, hequal⟩ := h.exists
  refine ⟨rfl, ?_⟩
  exact (valuesEqual_canonical hnormal hspace _ _ _).trans hequal

theorem writeDraft_stored (h : Stored u db)
    (hok : writeDraft u hash settings fresh workspaceId expectedVersion incoming metadata replaceExisting
      user db = .ok db') : Stored u db' := by
  obtain ⟨draft, -, hvalid, hkeys, ⟨rfl, -⟩ | ⟨revision, rows, hinsert, -, -, hrows⟩⟩ :=
    writeDraft_yields hok
  · exact h
  intro row hrow
  rw [(insertRevision_ok hinsert).2.2.1] at hrow
  rcases mem_append.mp hrow with hrow | hrow
  · exact h row hrow
  have hmem := mem_map_of_mem (f := DraftRevisionChange.draftChange) hrow
  rw [hrows] at hmem
  obtain ⟨c, hc, heq⟩ := mem_map.mp hmem
  have hvalue := (h.entries hvalid hkeys c hc).canonical hnormal hspace
  have htarget : canonicalText u c.targetValue = row.targetValue := congrArg (·.targetValue) heq
  have hfield : c.field = row.field := congrArg (·.field) heq
  rw [← htarget, ← hfield]
  exact hvalue

theorem stored_always (run : Session (DraftCall u hash settings) start w)
    (h : Stored u start.state) : Stored u w.state := by
  have keep : ∀ p, DraftCall u hash settings p → ∀ v : World service, Stored u v.state →
      p.Meets (.alone fun w => Stored u w.state) (fun _ _ => True) (fun _ _ => True) v := ?_
  · exact run.invariant h keep
  intro p hp v hv
  cases hp with
  | save =>
    refine Proc.Meets.rescue (E := fun _ _ => True) ?_ fun _ _ _ => trivial
    refine Proc.Meets.transact ?_ ?_
    · rintro _ rfl s _ hok
      obtain ⟨_, hwrite, heq⟩ := map_eq_ok.mp hok
      cases heq
      exact ⟨writeDraft_stored hnormal hspace hv hwrite, trivial⟩
    · rintro _ rfl e
      exact ⟨hv, trivial⟩
  | restore =>
    refine Proc.Meets.transact ?_ ?_
    · rintro _ rfl s _ hok
      obtain ⟨_, hwrite, heq⟩ := map_eq_ok.mp hok
      cases heq
      exact ⟨writeRestored_stored hv hwrite, trivial⟩
    · rintro _ rfl e
      exact ⟨hv, trivial⟩
  | elsewhere tag f same =>
    refine Proc.Meets.transact ?_ ?_
    · rintro _ rfl s _ hok
      have hsame := (same _ _ hok).2.2
      refine ⟨?_, trivial⟩
      intro row hrow
      exact hv row (hsame ▸ hrow)
    · rintro _ rfl e
      exact ⟨hv, trivial⟩

/-- Business equality is symmetric and transitive, and reflexive on the values of a field, as all stored
targets are. A save with equal targets yields entries that are equal in pairs. -/
theorem equality_lawful {start w : World service} (hstored : Stored u start.state)
    (run : Session (DraftCall u hash settings) start w) :
    (∀ field a b, valuesEqual u field a b = valuesEqual u field b a) ∧
    (∀ field a b c, valuesEqual u field a b = true → valuesEqual u field b c = true →
      valuesEqual u field a c = true) ∧
    (∀ field a, valuesEqual u field a a = true ↔ Value u field a) ∧
    Stored u w.state ∧
    (∀ a b, ¬BothUnlisted u a b → (valuesEqual u .status a b = true ↔ statusOf u a = statusOf u b)) ∧
    ∀ fresh fresh' workspaceId expectedVersion incoming incoming' metadata replaceExisting user db',
      Forall₂ (Alike u) incoming incoming' →
      writeDraft u hash settings fresh workspaceId expectedVersion incoming metadata replaceExisting user
        w.state = .ok db' →
      ∃ draft entries entries', draftOf w.state workspaceId = some draft ∧
        Yields u hash metadata draft entries w.state db' ∧
        Forall₂ (Alike u) (entries.map (DraftChange.canonical u))
          (entries'.map (DraftChange.canonical u)) ∧
        match writeDraft u hash settings fresh' workspaceId expectedVersion incoming' metadata
            replaceExisting user w.state with
        | .ok db'' => Yields u hash metadata draft entries' w.state db''
        | .error e => e = .integrityError ∨
            e = unprocessable "STATUS_UNSUPPORTED" ∧ ∃ c ∈ entries', c.field = .status := by
  have hw := stored_always hnormal hspace run hstored
  refine ⟨?_, fun field a b c => valuesEqual_trans, fun field a => valuesEqual_self_iff, hw, ?_, ?_⟩
  · intro field a b
    rw [Bool.eq_iff_iff]
    exact ⟨valuesEqual_symm, valuesEqual_symm⟩
  · intro a b hlisted
    have hsame := sameValue_iff u .status a b
    simp only [SameValue, hlisted, and_false, not_false_eq_true, and_true] at hsame
    exact hsame.symm
  · intro fresh fresh' workspaceId expectedVersion incoming incoming' metadata replaceExisting user db'
      hincoming hok
    obtain ⟨draft, hdraft, -, -, hyields⟩ := writeDraft_yields hok
    obtain ⟨draft', hdraft', halike, hrefused⟩ := writeDraft_alike hw hincoming hok
    obtain rfl : draft = draft' := some.inj (hdraft.symm.trans hdraft')
    refine ⟨draft, _, draftEntries u w.state draft incoming' replaceExisting, hdraft, hyields, ?_, ?_⟩
    · rw [forall₂_map_left_iff, forall₂_map_right_iff]
      exact halike.imp fun _ _ h => h.canonical hnormal hspace
    split
    · rename_i db'' hok'
      obtain ⟨draft', hdraft', -, -, hyields'⟩ := writeDraft_yields hok'
      obtain rfl : draft = draft' := some.inj (hdraft.symm.trans hdraft')
      exact hyields'
    · rename_i e he
      exact hrefused fresh' e he

end

end

namespace Sample

theorem ascii_normal (text : String) :
    Unicode.ascii.nfkc (canonicalText .ascii text) = canonicalText .ascii text := rfl

/-- A save of one target over the cell that is "5" in the Draft and "3" in the cache. -/
def saved (target : String) : Except Fault Db :=
  writeDraft .ascii documents settings revisionFresh "workspace" 1
    [⟨"7", "7", "woocommerce:primary", .stock, target, none, none⟩] .null false owner
    (catalogue [⟨"7", .stock, "3", "5"⟩])

def savedDb (target : String) : Db := (saved target).toOption.getD {}

theorem saved_six : saved "6" = .ok (savedDb "6") := by
  have h : (saved "6").toOption.isSome = true := by decide +kernel
  unfold savedDb
  cases hsaved : saved "6" with
  | ok db => rfl
  | error e => rw [hsaved] at h; cases h

end Sample

open Sample

theorem equality_lawful_six : ∃ draft entries entries',
      draftOf (catalogue [⟨"7", .stock, "3", "5"⟩]) "workspace" = some draft ∧
      Yields .ascii Sample.documents .null draft entries (catalogue [⟨"7", .stock, "3", "5"⟩])
        (savedDb "6") ∧
      Forall₂ (Alike .ascii) (entries.map (DraftChange.canonical .ascii))
        (entries'.map (DraftChange.canonical .ascii)) ∧
      match Sample.saved "6.0" with
      | .ok db'' => Yields .ascii Sample.documents .null draft entries'
          (catalogue [⟨"7", .stock, "3", "5"⟩]) db''
      | .error e => e = .integrityError ∨
          e = unprocessable "STATUS_UNSUPPORTED" ∧ ∃ c ∈ entries', c.field = .status := by
  have hstored : Stored .ascii (catalogue [⟨"7", .stock, "3", "5"⟩]) := by
    intro row hrow
    obtain rfl := mem_singleton.mp hrow
    exact Or.inr ⟨5, by decide +kernel⟩
  have run : Session (DraftCall .ascii Sample.documents settings)
      (.initial (catalogue [⟨"7", .stock, "3", "5"⟩])) _ := .start _
  have lawful := equality_lawful ascii_normal rfl hstored run
  exact lawful.2.2.2.2.2 revisionFresh revisionFresh "workspace" 1
    [⟨"7", "7", "woocommerce:primary", .stock, "6", none, none⟩]
    [⟨"7", "7", "woocommerce:primary", .stock, "6.0", none, none⟩] .null false owner _
    (.cons ⟨rfl, by decide +kernel⟩ .nil) saved_six

/-- A price that is no number is not equal to itself; two statuses that no table lists are equal; and a
status that stands for a supported one is refused. -/
theorem cached_price_unequal :
    (currentValue (Sample.cached [⟨"7", .price, "on request", "5"⟩] "7") .price = some "on request" ∧
      valuesEqual .ascii .price "on request" "on request" = false) ∧
    (valuesEqual .ascii .status "onbackorder" "preorder" = true ∧
      statusOf .ascii "onbackorder" ≠ statusOf .ascii "preorder") ∧
    valuesEqual .ascii .status "instock" "in_stock" = true ∧
    (["instock", "in_stock"].map fun target => (writeDraft .ascii Sample.documents settings
        revisionFresh "workspace" 1
        [⟨"7", "7", "woocommerce:primary", .status, target, none, none⟩] .null true owner
        (catalogue [⟨"7", .status, "outofstock", "instock"⟩])).isOk) = [true, false] := by
  decide +kernel

end FlowHub.Workspace
