import FlowHub.PricingWorkspace.State
import FlowHub.Related

namespace FlowHub.PricingWorkspace

open Python Txn List

/-- A descriptor that `unique` lets through. -/
structure Admitted (descriptor : PricingFieldDescriptor) : Prop where
  named : descriptor.identity.named = true
  scale : scaleValid descriptor.decimalScale = true

/-- A property of a snapshot that every change of it keeps. -/
structure Kept (P : PricingWorkspaceSnapshot → Prop) : Prop where
  nil : P []
  delete : ∀ changes key, P changes → P (changes.delete key)
  put : ∀ changes descriptor targetValue mode, P changes → Admitted descriptor →
    valuesEqual descriptor.currentValue (some targetValue) descriptor.identity.field = false →
    P (changes.put (changeTo descriptor targetValue mode))
  select : ∀ changes existing mode, P changes → existing ∈ changes →
    P (changes.put { existing with selectionMode := mode })

def PricingWorkspaceState.layers (state : PricingWorkspaceState) : List PricingWorkspaceSnapshot :=
  state.present :: state.past ++ state.future

section

variable {P : PricingWorkspaceSnapshot → Prop} {state : PricingWorkspaceState}

theorem layers_iff : (∀ layer ∈ state.layers, P layer) ↔
    P state.present ∧ (∀ layer ∈ state.past, P layer) ∧ ∀ layer ∈ state.future, P layer := by
  simp only [PricingWorkspaceState.layers, cons_append, forall_mem_cons, forall_mem_append]

theorem Kept.addServerTarget (kept : Kept P) (h : P changes) (admitted : Admitted descriptor) :
    P (addServerTarget changes descriptor) := by
  unfold PricingWorkspace.addServerTarget
  split
  · exact h
  rename_i hdiffers
  apply kept.put _ _ _ _ h admitted
  rw [Bool.not_eq_true] at hdiffers
  cases htarget : descriptor.targetValue with
  | none => simpa [valuesEqual, htarget] using hdiffers
  | some target => simpa [htarget] using hdiffers

theorem Kept.refreshField (kept : Kept P) (h : P changes) (admitted : Admitted descriptor)
    (addServerTargets : Bool) : P (refreshField addServerTargets changes descriptor) := by
  unfold PricingWorkspace.refreshField
  split
  · split
    · exact kept.addServerTarget h admitted
    · exact h
  · split
    · exact kept.delete _ _ h
    · rename_i hdiffers
      exact kept.put _ _ _ _ h admitted (by simpa using hdiffers)

theorem Kept.editField (kept : Kept P) (h : P changes)
    (admitted : Admitted edit.descriptor) : P (editField changes edit) := by
  simp only [PricingWorkspace.editField]
  split
  · exact kept.delete _ _ h
  · rename_i hdiffers
    exact kept.put _ _ _ _ h admitted (by simpa using hdiffers)

theorem unique_admitted {α : Type} {descriptor : α → PricingFieldDescriptor} {items kept : List α}
    (h : unique descriptor items = .ok kept) : ∀ item ∈ kept, Admitted (descriptor item) := by
  unfold unique at h
  split at h
  · cases h
  rename_i hscales
  refine foldlM_keeps (P := fun seen => ∀ item ∈ seen, Admitted (descriptor item)) ?_ (by simp) h
  intro item hitem seen next hseen hnext
  simp only at hnext
  split at hnext
  · cases hnext
  rename_i hnamed
  split at hnext
  · cases hnext
  cases hnext
  intro other hother
  rcases mem_append.mp hother with hother | hother
  · exact hseen other hother
  · rw [mem_singleton.mp hother]
    simp only [any_eq_true, not_exists, not_and] at hscales
    exact ⟨by simpa using hnamed, by simpa using hscales item hitem⟩

theorem Kept.refreshSnapshot {descriptors : List PricingFieldDescriptor} {addServerTargets : Bool}
    (kept : Kept P) (h : P snapshot) (admitted : ∀ d ∈ descriptors, Admitted d) :
    P (refreshSnapshot snapshot descriptors addServerTargets) :=
  foldlRecOn descriptors _ h fun _ hb d hd => kept.refreshField hb (admitted d hd) _

theorem create_layers (kept : Kept P)
    (h : createPricingWorkspaceState workspaceId fields scopeId = .ok state) :
    ∀ layer ∈ state.layers, P layer := by
  unfold createPricingWorkspaceState at h
  split at h
  · cases h
  split at h
  · cases h
  obtain ⟨present, hpresent, rfl⟩ := map_eq_ok.mp h
  obtain ⟨descriptors, hdescriptors, rfl⟩ := map_eq_ok.mp hpresent
  have admitted := unique_admitted hdescriptors
  have hkept : P (descriptors.foldl addServerTarget []) :=
    foldlRecOn descriptors _ kept.nil fun _ hb d hd => kept.addServerTarget hb (admitted d hd)
  simpa [layers_iff] using hkept

theorem register_layers_kept {next : PricingWorkspaceState}
    (kept : Kept P) (hs : ∀ layer ∈ state.layers, P layer)
    (h : registerPricingFields state fields = .ok next) : ∀ layer ∈ next.layers, P layer := by
  obtain ⟨descriptors, hdescriptors, rfl⟩ := map_eq_ok.mp h
  have admitted := unique_admitted hdescriptors
  obtain ⟨hpresent, hpast, hfuture⟩ := layers_iff.mp hs
  have hmap : ∀ layers : List PricingWorkspaceSnapshot, (∀ layer ∈ layers, P layer) →
      ∀ layer ∈ layers.map fun s => refreshSnapshot s descriptors false, P layer := by
    intro layers hlayers layer hlayer
    obtain ⟨snapshot, hsnapshot, rfl⟩ := mem_map.mp hlayer
    exact kept.refreshSnapshot (hlayers snapshot hsnapshot) admitted
  simp only
  split
  · exact hs
  · exact layers_iff.mpr ⟨kept.refreshSnapshot hpresent admitted, hmap _ hpast, hmap _ hfuture⟩

/-- The layers behind the present one, after it has joined them. -/
theorem past_kept (hs : ∀ layer ∈ state.layers, P layer) (n : ℕ) :
    ∀ layer ∈ (state.past ++ [state.present]).drop n, P layer := by
  intro layer hlayer
  obtain ⟨hpresent, hpast, -⟩ := layers_iff.mp hs
  rcases mem_append.mp (mem_of_mem_drop hlayer) with hmem | hmem
  · exact hpast layer hmem
  · rw [mem_singleton.mp hmem]
    exact hpresent

theorem commit_kept (hs : ∀ layer ∈ state.layers, P layer) (h : P changes) :
    ∀ layer ∈ (commitUserSnapshot state changes).layers, P layer :=
  layers_iff.mpr ⟨h, past_kept hs _, by simp [commitUserSnapshot]⟩

theorem edit_kept {next : PricingWorkspaceState} (kept : Kept P) (hs : ∀ layer ∈ state.layers, P layer)
    (h : editPricingFields state edits = .ok next) : ∀ layer ∈ next.layers, P layer := by
  obtain ⟨edited, hedited, rfl⟩ := map_eq_ok.mp h
  have admitted := unique_admitted hedited
  have hkept : P (edited.foldl editField state.present) :=
    foldlRecOn edited _ (layers_iff.mp hs).1 fun _ hb edit hedit =>
      kept.editField hb (admitted edit hedit)
  simp only
  split
  · exact hs
  · exact commit_kept hs hkept

theorem select_kept {next : PricingWorkspaceState} (kept : Kept P) (hs : ∀ layer ∈ state.layers, P layer)
    (h : setPricingFieldSelected state identity selected = .ok next) :
    ∀ layer ∈ next.layers, P layer := by
  unfold setPricingFieldSelected at h
  split at h
  · cases h
  cases hget : state.present.get identity with
  | none =>
    simp only [hget] at h
    cases h
    exact hs
  | some existing =>
    simp only [hget] at h
    have hround : ∀ (same : Bool) (mode : PricingSelectionMode), ∀ layer ∈
        (if same then state else if existing.selectionMode = mode then state
          else commitUserSnapshot state
            (state.present.put { existing with selectionMode := mode })).layers, P layer := by
      intro same mode
      split
      · exact hs
      · split
        · exact hs
        · exact commit_kept hs (kept.select _ _ _ (layers_iff.mp hs).1 (Table.get_some hget).1)
    cases h
    exact hround _ _

theorem undo_kept (hs : ∀ layer ∈ state.layers, P layer) :
    ∀ layer ∈ (undoPricingWorkspace state).layers, P layer := by
  obtain ⟨hpresent, hpast, hfuture⟩ := layers_iff.mp hs
  unfold undoPricingWorkspace
  split
  · exact hs
  rename_i previous hprevious
  refine layers_iff.mpr ⟨hpast previous (mem_of_getLast? hprevious), ?_, ?_⟩
  · intro layer hlayer
    exact hpast layer (dropLast_subset _ hlayer)
  · intro layer hlayer
    rcases mem_cons.mp (mem_of_mem_take hlayer) with rfl | hmem
    · exact hpresent
    · exact hfuture layer hmem

theorem redo_kept (hs : ∀ layer ∈ state.layers, P layer) :
    ∀ layer ∈ (redoPricingWorkspace state).layers, P layer := by
  unfold redoPricingWorkspace
  split
  · exact hs
  rename_i next future hnext
  obtain ⟨-, -, hfuture⟩ := layers_iff.mp hs
  rw [hnext, forall_mem_cons] at hfuture
  exact layers_iff.mpr ⟨hfuture.1, past_kept hs _, hfuture.2⟩

theorem preview_admitted (h : previewBulkTransformation state fields operation = .ok preview) :
    ∀ item ∈ preview.items, Admitted item.descriptor := by
  obtain ⟨descriptors, hdescriptors, rfl⟩ := map_eq_ok.mp h
  intro item hitem
  obtain ⟨descriptor, hdescriptor, rfl⟩ := mem_map.mp hitem
  have hmem := mem_of_mem_filter hdescriptor
  have hof : (previewItem state.present operation descriptor).descriptor = descriptor := by
    simp only [previewItem]
    split
    · rfl
    · rfl
  rw [hof]
  exact unique_admitted hdescriptors descriptor hmem

theorem bulk_kept {next : PricingWorkspaceState} (kept : Kept P) (hs : ∀ layer ∈ state.layers, P layer)
    (admitted : ∀ item ∈ preview.items, Admitted item.descriptor)
    (h : applyBulkTransformation state preview = .ok next) : ∀ layer ∈ next.layers, P layer := by
  unfold applyBulkTransformation at h
  split at h
  · cases h
  obtain ⟨changes, hchanges, rfl⟩ := map_eq_ok.mp h
  have hkept : P changes := by
    apply foldlM_keeps (P := P) _ (layers_iff.mp hs).1 hchanges
    intro item hitem before after hbefore hafter
    unfold applyItem at hafter
    split at hafter
    · cases hafter
    split at hafter
    · cases hafter
      exact hbefore
    · split at hafter
      · cases hafter
        exact hbefore
      · cases hafter
        exact kept.editField hbefore (admitted item hitem)
  split
  · exact commit_kept hs hkept
  · exact hs

theorem mapM_some (l : PricingWorkspaceSnapshot) : (l.map some).mapM id = some l := by
  induction l with
  | nil => rfl
  | cons change rest ih => simp [ih]

theorem stored_same {read : PricingWorkspaceSnapshot}
    (h : snapshotFromUnknown (snapshot.map some) = some read) : read = snapshot := by
  unfold snapshotFromUnknown at h
  split at h
  · cases h
  rw [mapM_some, Option.bind_eq_bind, Option.bind_some] at h
  split at h
  · cases h
    rfl
  · cases h

/-- What was stored of a workspace is the same when it is read again. -/
theorem hydrate_kept (kept : Kept P) (hs : ∀ layer ∈ written.layers, P layer)
    (htext : ∀ stored ∈ text, stored = serialize written)
    (h : hydratePricingWorkspaceState text workspaceId scopeId = .ok state) :
    ∀ layer ∈ state.layers, P layer := by
  unfold hydratePricingWorkspaceState at h
  split at h
  · rename_i read hread
    cases h
    obtain ⟨stored, hstored, hhydrated⟩ := Option.bind_eq_some_iff.mp hread
    rw [htext stored hstored] at hhydrated
    unfold hydrated at hhydrated
    split at hhydrated
    · cases hhydrated
    simp only [Option.bind_eq_bind, Option.bind_eq_some_iff, Option.some.injEq] at hhydrated
    obtain ⟨present, hpresent, past, hpast, future, hfuture, rfl⟩ := hhydrated
    obtain ⟨hwasPresent, hwasPast, hwasFuture⟩ := layers_iff.mp hs
    have hlayers : ∀ (layers : List PricingWorkspaceSnapshot)
        (stored : List (List (Option PricingFieldChange))) (read : List PricingWorkspaceSnapshot),
        (∀ layer ∈ layers, P layer) →
        (∀ layer ∈ stored, layer ∈ layers.map (·.map some)) →
        stored.mapM snapshotFromUnknown = some read → ∀ layer ∈ read, P layer := by
      intro layers stored read hwas hfrom hread layer hlayer
      obtain ⟨text, htext, hread⟩ := mem_of_mapM_some hread hlayer
      obtain ⟨snapshot, hsnapshot, rfl⟩ := mem_map.mp (hfrom text htext)
      rw [stored_same hread]
      exact hwas snapshot hsnapshot
    refine layers_iff.mpr ⟨?_, ?_, ?_⟩
    · rw [stored_same hpresent]
      exact hwasPresent
    · exact hlayers _ _ _ hwasPast (fun layer => mem_of_mem_drop) hpast
    · exact hlayers _ _ _ hwasFuture (fun layer => mem_of_mem_take) hfuture
  · exact create_layers kept h

end

inductive Reachable : PricingWorkspaceState → Prop where
  | create {state : PricingWorkspaceState} (workspaceId : String)
      (fields : List PricingFieldDescriptor) (scopeId : String)
      (h : createPricingWorkspaceState workspaceId fields scopeId = .ok state) : Reachable state
  | register {state next : PricingWorkspaceState} (reached : Reachable state)
      (fields : List PricingFieldDescriptor) (h : registerPricingFields state fields = .ok next) :
      Reachable next
  | edit {state next : PricingWorkspaceState} (reached : Reachable state) (edits : List PricingEdit)
      (h : editPricingFields state edits = .ok next) : Reachable next
  | select {state next : PricingWorkspaceState} (reached : Reachable state)
      (identity : PricingFieldIdentity) (selected : Bool)
      (h : setPricingFieldSelected state identity selected = .ok next) : Reachable next
  | selectKeys {state next : PricingWorkspaceState} (reached : Reachable state)
      (keys : List PricingFieldIdentity) (selected : Bool)
      (h : setPricingFieldsSelectedByKey state keys selected = .ok next) : Reachable next
  /-- The preview may be of an earlier state, or of another workspace. -/
  | bulk {state next : PricingWorkspaceState} (reached : Reachable state)
      (previewed : PricingWorkspaceState) (fields : List PricingFieldDescriptor)
      (operation : BulkTransformation) (preview : BulkTransformationPreview)
      (hpreview : previewBulkTransformation previewed fields operation = .ok preview)
      (h : applyBulkTransformation state preview = .ok next) : Reachable next
  | undo {state : PricingWorkspaceState} (reached : Reachable state) : Reachable (undoPricingWorkspace state)
  | redo {state : PricingWorkspaceState} (reached : Reachable state) : Reachable (redoPricingWorkspace state)
  | hydrate {written state : PricingWorkspaceState} (reached : Reachable written)
      (text : Option Stored) (htext : ∀ stored ∈ text, stored = serialize written)
      (workspaceId scopeId : String)
      (h : hydratePricingWorkspaceState text workspaceId scopeId = .ok state) : Reachable state

theorem reachable_layers (kept : Kept P) (h : Reachable state) : ∀ layer ∈ state.layers, P layer := by
  induction h with
  | create _ _ _ h => exact create_layers kept h
  | register _ _ h ih => exact register_layers_kept kept ih h
  | edit _ _ h ih => exact edit_kept kept ih h
  | select _ _ _ h ih => exact select_kept kept ih h
  | selectKeys _ _ _ h ih =>
    apply foldlM_keeps (P := fun state => ∀ layer ∈ state.layers, P layer) _ ih h
    intro identity _ state next hs hnext
    exact select_kept kept hs hnext
  | bulk _ _ _ _ _ hpreview h ih => exact bulk_kept kept ih (preview_admitted hpreview) h
  | undo _ ih => exact undo_kept ih
  | redo _ ih => exact redo_kept ih
  | hydrate _ _ htext _ _ h ih => exact hydrate_kept kept ih htext h

section

variable {changes : PricingWorkspaceSnapshot} {change : PricingFieldChange}

theorem PricingWorkspaceSnapshot.mem_put
    (h : other ∈ changes.put change) : other = change ∨ other ∈ changes := by
  unfold PricingWorkspaceSnapshot.put at h
  split at h
  · rcases Table.mem_set.mp h with ⟨_, -, -, rfl⟩ | ⟨hmem, -⟩
    · exact .inl rfl
    · exact .inr hmem
  · rcases mem_append.mp h with hmem | hmem
    · exact .inr hmem
    · exact .inl (mem_singleton.mp hmem)

/-- A change of a named field. An eligible one passes the check of its target, and its target is
another value than the current one. -/
structure Real (change : PricingFieldChange) : Prop where
  named : change.identity.named = true
  valid : isPricingFieldEligible change.policy = true →
    inputValid change.identity.field change.targetValue = true
  differs : valuesEqual change.currentValue (some change.targetValue) change.identity.field = false

def AllReal (snapshot : PricingWorkspaceSnapshot) : Prop := ∀ change ∈ snapshot, Real change

/-- The invariant of a workspace. -/
def Sound (state : PricingWorkspaceState) : Prop := ∀ layer ∈ state.layers, AllReal layer

/-- A blocked target leaves a change that is not eligible. -/
theorem changeTo_real {descriptor : PricingFieldDescriptor} {mode : PricingSelectionMode}
    {targetValue : String} (hnamed : descriptor.identity.named = true)
    (hdiffers : valuesEqual descriptor.currentValue (some targetValue) descriptor.identity.field =
      false) : Real (changeTo descriptor targetValue mode) where
  named := hnamed
  valid heligible := by
    simp only [changeTo, makeChange, descriptorForTarget, isPricingFieldEligible,
      Bool.and_eq_true] at heligible
    exact heligible.1.2.2
  differs := hdiffers

theorem AllReal.put (h : AllReal changes) (hchange : Real change) : AllReal (changes.put change) := by
  intro other hother
  rcases PricingWorkspaceSnapshot.mem_put hother with rfl | hmem
  · exact hchange
  · exact h other hmem

theorem allReal_kept : Kept AllReal where
  nil _ hchange := absurd hchange not_mem_nil
  delete _ _ h other hother := h other (mem_of_mem_filter hother)
  put _ _ _ _ h admitted hdiffers := h.put (changeTo_real admitted.named hdiffers)
  select _ existing _ h hmem := by
    obtain ⟨hnamed, hvalid, hdiffers⟩ := h existing hmem
    exact h.put ⟨hnamed, hvalid, hdiffers⟩

theorem reachable_sound (h : Reachable state) : Sound state :=
  reachable_layers allReal_kept h

end

section

variable {u : Unicode} {change : PricingFieldChange}

theorem number_of_parse (law : u.AsciiNormal)
    (h : parseDecimal text = some d) : Workspace.number u text = some (.finite d.value) := by
  obtain ⟨negative, body, whole, fraction, hsign, hpositional, hvalue⟩ := parseDecimal_some h
  rw [hvalue]
  exact hpositional.decimal law hsign

/-- A target of digits, with nothing around them. -/
def Bare (change : PricingFieldChange) : Prop :=
  change.identity.field = .status ∨ trim change.targetValue = change.targetValue.toList

def Priced (change : PricingFieldChange) : Prop :=
  change.identity.field = .price → change.currency.getD "" ≠ "" ∧ change.unit.getD "" ≠ ""

theorem unsigned_of_valid (hfield : field ≠ .status) (h : inputValid field target = true) : ∃ whole fraction,
      unsigned (trim target) = some (whole, fraction) := by
  cases field with
  | price =>
    obtain ⟨parts, hparts⟩ := Option.isSome_iff_exists.mp h
    exact ⟨parts.1, parts.2, hparts⟩
  | stock =>
    simp only [inputValid, Bool.and_eq_true, Bool.not_eq_true', isEmpty_eq_false_iff, all_eq_true] at h
    have htake : (trim target).takeWhile Char.isDigit = trim target :=
      takeWhile_eq_self_iff.mpr h.2
    have hdrop : (trim target).dropWhile Char.isDigit = [] :=
      dropWhile_eq_nil_iff.mpr h.2
    exact ⟨trim target, [], by simp [unsigned, htake, hdrop, h.1]⟩
  | status => exact absurd rfl hfield

theorem validDraftChange_ok (hids : sent.canonicalProductId ≠ "" ∧ sent.listingId ≠ "" ∧ sent.channelId ≠ "")
    (hnumber : sent.field ≠ .status → ∃ q, Workspace.number u sent.targetValue = some (.finite q) ∧ 0 ≤ q)
    (hprice : sent.field = .price → sent.currency.getD "" ≠ "" ∧ sent.unit.getD "" ≠ "") :
    Workspace.validDraftChange u sent = .ok () := by
  have hpriced : (sent.field == .price &&
      (sent.currency.getD "" == "" || sent.unit.getD "" == "")) = false := by
    by_cases hfield : sent.field = .price
    · have := hprice hfield
      simp [this.1, this.2]
    · simp [hfield]
  by_cases hfield : sent.field = .status
  · simp [Workspace.validDraftChange, hids, hfield, Workspace.refuse]
    rfl
  · obtain ⟨q, hq, hnonneg⟩ := hnumber hfield
    simp [Workspace.validDraftChange, hids, hfield, Workspace.refuse, hq, Workspace.nonnegative,
      hnonneg, hpriced]
    rfl

/-- The backend takes a bare target that passed the check of its field. -/
theorem draftChange_valid (law : u.AsciiNormal) (hreal : Real change)
    (heligible : isPricingFieldEligible change.policy = true) (hbare : Bare change)
    (hpriced : Priced change) :
    Workspace.validDraftChange u (draftChangeFrom change) = .ok () := by
  have hnamed := hreal.named
  simp only [PricingFieldIdentity.named, Bool.and_eq_true, Bool.not_eq_true',
    String.isEmpty_eq_false_iff] at hnamed
  apply validDraftChange_ok
  · exact ⟨hnamed.1.1, hnamed.1.2, hnamed.2⟩
  · intro hfield
    have htrim := hbare.resolve_left hfield
    obtain ⟨whole, fraction, hunsigned⟩ := unsigned_of_valid hfield (hreal.valid heligible)
    rw [htrim] at hunsigned
    have hpositional := unsigned_positional hunsigned
    refine ⟨_, hpositional.decimal law hpositional.sign, ?_⟩
    simp only [Bool.false_eq_true, if_false]
    positivity
  · exact hpriced

variable (u) in
/-- Both texts are numbers that the workspace reads, or the backend reads no number from the
current one. A status target is a name that the backend keeps, and the current one too if the
backend knows it. -/
def Comparable (change : PricingFieldChange) : Prop :=
  let current := change.currentValue.getD ""
  match change.identity.field with
  | .status => Workspace.statusAlias u change.targetValue = some change.targetValue ∧
      Workspace.statusAlias u current ∈ [some current, none]
  | _ => ((parseDecimal current).isSome ∧ (parseDecimal change.targetValue).isSome) ∨
      ∀ q, Workspace.number u current ≠ some (.finite q)

theorem number_differs (law : u.AsciiNormal) (hfield : field ≠ .status)
    (hdiffers : valuesEqual current (some target) field = false)
    (h : ((parseDecimal (current.getD "")).isSome ∧ (parseDecimal target).isSome) ∨
      ∀ q, Workspace.number u (current.getD "") ≠ some (.finite q)) :
    Workspace.sameNumber (Workspace.number u (current.getD "")) (Workspace.number u target) = false := by
  rcases h with ⟨hcurrent, htarget⟩ | hunread
  · obtain ⟨x, hx⟩ := Option.isSome_iff_exists.mp hcurrent
    obtain ⟨y, hy⟩ := Option.isSome_iff_exists.mp htarget
    have hne : decimalEqual x y = false := by
      cases field with
      | price => simpa [valuesEqual, hx, hy] using hdiffers
      | stock => simpa [valuesEqual, hx, hy] using hdiffers
      | status => exact absurd rfl hfield
    rw [number_of_parse law hx, number_of_parse law hy]
    simp only [Workspace.sameNumber, decide_eq_false_iff_not]
    intro heq
    rw [decimalEqual_iff.mpr heq] at hne
    cases hne
  · unfold Workspace.sameNumber
    split
    · rename_i x _ hx _
      exact absurd hx (hunread x)
    · rfl

/-- The backend tells a comparable target from the current value. -/
theorem draftChange_differs (law : u.AsciiNormal) (hreal : Real change) (hcomparable : Comparable u change) :
    Workspace.valuesEqual u change.identity.field (change.currentValue.getD "")
      change.targetValue = false := by
  have hdiffers := hreal.differs
  unfold Comparable at hcomparable
  cases hfield : change.identity.field with
  | price =>
    simp only [hfield] at hcomparable hdiffers
    simp only [Workspace.valuesEqual]
    have hfield : Field.price ≠ .status := by decide
    exact number_differs law hfield hdiffers hcomparable
  | stock =>
    simp only [hfield] at hcomparable hdiffers
    simp only [Workspace.valuesEqual]
    have hfield : Field.stock ≠ .status := by decide
    exact number_differs law hfield hdiffers hcomparable
  | status =>
    simp only [hfield, mem_cons, not_mem_nil, or_false] at hcomparable
    simp only [hfield, valuesEqual, Option.getD_some, decide_eq_false_iff_not] at hdiffers
    simp only [Workspace.valuesEqual, decide_eq_false_iff_not]
    intro heq
    rw [hcomparable.1] at heq
    rcases hcomparable.2 with hknown | hunknown
    · exact hdiffers (Option.some.inj (hknown.symm.trans heq))
    · exact Option.some_ne_none _ (heq.symm.trans hunknown)

/-- No layer holds a change to the value that the workspace takes for the current one. The
eligible ones of the present are changes for the backend too, as far as both read their texts. -/
theorem local_changes_stand (law : u.AsciiNormal) {state : PricingWorkspaceState} (h : Reachable state) :
    (∀ layer ∈ state.layers, ∀ change ∈ layer,
      valuesEqual change.currentValue (some change.targetValue) change.identity.field = false) ∧
    ∀ change ∈ state.present, isPricingFieldEligible change.policy = true →
      inputValid change.identity.field change.targetValue = true ∧
      (Bare change → Priced change → Workspace.validDraftChange u (draftChangeFrom change) = .ok ()) ∧
      (Comparable u change → Workspace.valuesEqual u change.identity.field (change.currentValue.getD "")
          change.targetValue = false) := by
  have hsound := reachable_sound h
  constructor
  · intro layer hlayer change hchange
    exact (hsound layer hlayer change hchange).differs
  · intro change hchange heligible
    have hreal := (layers_iff.mp hsound).1 change hchange
    exact ⟨hreal.valid heligible, draftChange_valid law hreal heligible, draftChange_differs law hreal⟩

end

namespace Sample

def policy : PricingFieldPolicy where
  writable := true
  mapped := true
  supported := true
  channelEnabled := true
  comingSoon := false
  valid := true

/-- A field of one Listing, and the target that the server has for it. -/
def descriptor (field : Field) (currentValue targetValue : String) (currency : Option String) :
    PricingFieldDescriptor where
  identity := ⟨"p-1", "l-1", "woocommerce:primary", field⟩
  currentValue := some currentValue
  targetValue := some targetValue
  currency := currency
  unit := currency
  policy := policy

def change (field : Field) (currentValue targetValue : String) (currency : Option String) :
    PricingFieldChange :=
  changeTo (descriptor field currentValue targetValue currency) targetValue .automatic

def workspace (changes : List PricingFieldChange) : PricingWorkspaceState :=
  ⟨"w-1", "w-1", 0, changes, [], []⟩

example : isPricingFieldEligible policy = true := by decide +kernel

theorem created (h : valuesEqual (some currentValue) (some targetValue) field = false) :
    Reachable (workspace [change field currentValue targetValue currency]) := by
  apply Reachable.create "w-1" [descriptor field currentValue targetValue currency] "w-1"
  have hunique : unique id [descriptor field currentValue targetValue currency] =
      .ok [descriptor field currentValue targetValue currency] := rfl
  have hput : addServerTarget [] (descriptor field currentValue targetValue currency) =
      [change field currentValue targetValue currency] := by
    simp [addServerTarget, descriptor, h, change, PricingWorkspaceSnapshot.put, Table.has]
  simp [createPricingWorkspaceState, snapshotFromDescriptors, hunique, hput, Except.map, workspace]

end Sample

/-- A change of a price that both sides read. -/
theorem dearer_stands : Reachable (Sample.workspace [Sample.change .price "100.0" "110" (some "EUR")]) ∧
      Workspace.validDraftChange .ascii
        (draftChangeFrom (Sample.change .price "100.0" "110" (some "EUR"))) = .ok () ∧
      Workspace.valuesEqual .ascii .price "100.0" "110" = false := by
  have hreachable : Reachable (Sample.workspace [Sample.change .price "100.0" "110" (some "EUR")]) :=
    Sample.created (by decide +kernel)
  have hstand := (local_changes_stand Unicode.ascii_asciiNormal hreachable).2
    (Sample.change .price "100.0" "110" (some "EUR")) (by simp [Sample.workspace]) (by decide +kernel)
  refine ⟨hreachable, hstand.2.1 ?_ ?_, hstand.2.2 ?_⟩
  · exact .inr (by decide +kernel)
  · exact fun _ => by decide +kernel
  · exact .inl (by decide +kernel)

/-- A status under another of its names, zeros past the limit of decimals and a price without a
currency are eligible. The backend sees no difference in the first two and refuses the third. A
stored text may hold a change to the current value. -/
theorem spellings_kept :
    (∃ state, Reachable state ∧ ∃ change ∈ state.present,
      isPricingFieldEligible change.policy = true ∧ change.identity.field = .status ∧
      Workspace.valuesEqual .ascii .status (change.currentValue.getD "") change.targetValue = true) ∧
    (∃ state, Reachable state ∧ ∃ change ∈ state.present,
      isPricingFieldEligible change.policy = true ∧ change.identity.field = .price ∧
      Workspace.valuesEqual .ascii .price (change.currentValue.getD "") change.targetValue = true) ∧
    (∃ state, Reachable state ∧ ∃ change ∈ state.present, isPricingFieldEligible change.policy = true ∧
      Workspace.validDraftChange .ascii (draftChangeFrom change) ≠ .ok ()) ∧
    ∃ stored state, hydratePricingWorkspaceState (some stored) "w-1" "w-1" = .ok state ∧
      ∃ change ∈ state.present,
        valuesEqual change.currentValue (some change.targetValue) change.identity.field = true := by
  refine ⟨⟨_, Sample.created (by decide +kernel), Sample.change .status "instock" "in_stock" none,
      mem_cons_self, by decide +kernel⟩,
    ⟨_, Sample.created (by decide +kernel),
      Sample.change .price "0.1" "0.10000000000000000000" (some "EUR"), mem_cons_self,
      by decide +kernel⟩,
    ⟨_, Sample.created (by decide +kernel), Sample.change .price "5" "6" none, mem_cons_self,
      by decide +kernel⟩,
    serialize (Sample.workspace [Sample.change .price "5" "5" (some "EUR")]), _, rfl,
    Sample.change .price "5" "5" (some "EUR"), mem_cons_self, by decide +kernel⟩

end FlowHub.PricingWorkspace
