import FlowHub.PricingWorkspace.Bulk

namespace FlowHub.PricingWorkspace

open Txn List Relation

/-- What the operations come to: a commit of the user, a refresh of every layer, or one step along the
history. Each of them is a new revision. -/
inductive Move : PricingWorkspaceState → PricingWorkspaceState → Prop where
  | commit (state : PricingWorkspaceState) (changes : PricingWorkspaceSnapshot) :
      Move state (commitUserSnapshot state changes)
  | refresh {state next : PricingWorkspaceState} (hworkspace : next.workspaceId = state.workspaceId)
      (hscope : next.scopeId = state.scopeId) (hrevision : next.revision = state.revision + 1)
      (hpast : next.past.length = state.past.length) (hfuture : next.future.length = state.future.length) :
      Move state next
  | back {state : PricingWorkspaceState} (h : state.past ≠ []) : Move state (undoPricingWorkspace state)
  | forth {state : PricingWorkspaceState} (h : state.future ≠ []) : Move state (redoPricingWorkspace state)

/-- An operation on a workspace that is open. -/
inductive Step : PricingWorkspaceState → PricingWorkspaceState → Prop where
  | register {next} (fields : List PricingFieldDescriptor) (h : registerPricingFields state fields = .ok next) :
      Step state next
  | edit {next} (edits : List PricingEdit) (h : editPricingFields state edits = .ok next) : Step state next
  | select {next} (identity : PricingFieldIdentity) (selected : Bool)
      (h : setPricingFieldSelected state identity selected = .ok next) : Step state next
  | selectKeys {next} (keys : List PricingFieldIdentity) (selected : Bool)
      (h : setPricingFieldsSelectedByKey state keys selected = .ok next) : Step state next
  | bulk {next} (preview : BulkTransformationPreview) (h : applyBulkTransformation state preview = .ok next) :
      Step state next
  | undo (state : PricingWorkspaceState) : Step state (undoPricingWorkspace state)
  | redo (state : PricingWorkspaceState) : Step state (redoPricingWorkspace state)

section

variable {state next later : PricingWorkspaceState}

theorem select_moves (h : setPricingFieldSelected state identity selected = .ok next) :
    ReflTransGen Move state next := by
  unfold setPricingFieldSelected at h
  split at h
  · cases h
  have hround (existing : PricingFieldChange) (kept : Bool) (mode : PricingSelectionMode) :
      ReflTransGen Move state (if kept then state else if existing.selectionMode = mode then state
        else commitUserSnapshot state (state.present.put { existing with selectionMode := mode })) := by
    split
    · exact .refl
    split
    · exact .refl
    · exact .single (.commit _ _)
  cases h
  split
  · exact .refl
  · exact hround _ _ _

/-- An operation changes nothing or is a sequence of moves. -/
theorem step_moves (h : Step state next) : ReflTransGen Move state next := by
  cases h with
  | register fields h =>
    obtain ⟨-, -, hpast, hfuture⟩ := register_layers h
    obtain ⟨descriptors, -, rfl⟩ := map_eq_ok.mp h
    dsimp only at hpast hfuture ⊢
    split
    · exact .refl
    · rename_i hchanged
      rw [if_neg hchanged] at hpast hfuture
      exact .single (.refresh rfl rfl rfl (by simp) (by simp))
  | edit edits h =>
    obtain ⟨kept, -, rfl⟩ := map_eq_ok.mp h
    dsimp only
    split
    · exact .refl
    · exact .single (.commit _ _)
  | select _ _ h => exact select_moves h
  | selectKeys keys selected h =>
    apply foldlM_keeps (P := fun later => ReflTransGen Move state later) _ .refl h
    intro identity _ before after hbefore hafter
    exact hbefore.trans (select_moves hafter)
  | bulk preview h =>
    unfold applyBulkTransformation at h
    split at h
    · cases h
    obtain ⟨changes, -, rfl⟩ := map_eq_ok.mp h
    split
    · exact .single (.commit _ _)
    · exact .refl
  | undo =>
    cases hpast : state.past with
    | nil => simp only [undoPricingWorkspace, hpast, getLast?_nil]; exact .refl
    | cons first rest => exact .single (.back (by simp [hpast]))
  | redo =>
    cases hfuture : state.future with
    | nil => simp only [redoPricingWorkspace, hfuture]; exact .refl
    | cons first rest => exact .single (.forth (by simp [hfuture]))

theorem run_moves (h : ReflTransGen Step state later) : ReflTransGen Move state later := by
  induction h with
  | refl => exact .refl
  | tail _ hstep ih => exact ih.trans (step_moves hstep)

theorem undo_of_last {previous : PricingWorkspaceSnapshot} (h : state.past.getLast? = some previous) :
    undoPricingWorkspace state = { state with
      revision := state.revision + 1
      present := previous
      past := state.past.dropLast
      future := (state.present :: state.future).take historyLimit } := by
  rw [undoPricingWorkspace, h]

theorem move_revision (h : Move state next) : next.revision = state.revision + 1 := by
  cases h with
  | commit changes => rfl
  | refresh _ _ hrevision _ _ => exact hrevision
  | back hpast => rw [undo_of_last (getLast?_eq_getLast_of_ne_nil hpast)]
  | forth hfuture =>
    obtain ⟨first, rest, hahead⟩ := exists_cons_of_ne_nil hfuture
    simp [redoPricingWorkspace, hahead]

/-- A later state of the same revision is the same state. -/
theorem moves_revision (h : ReflTransGen Move state later) :
    state.revision ≤ later.revision ∧ (later.revision = state.revision → later = state) := by
  induction h with
  | refl => exact ⟨le_refl _, fun _ => rfl⟩
  | tail _ hmove ih =>
    have hnext := move_revision hmove
    constructor
    · omega
    · intro hsame
      omega

/-- A preview can be applied to the state that it was made of, and after any operation that changes the
workspace it is refused. -/
theorem preview_of_one_state {preview : BulkTransformationPreview}
    (h : previewBulkTransformation state fields operation = .ok preview)
    (hrun : ReflTransGen Step state later) :
    (later = state → ∃ next, applyBulkTransformation later preview = .ok next) ∧
    (later ≠ state → applyBulkTransformation later preview = .error .staleBulkPreview) := by
  constructor
  · rintro rfl
    obtain ⟨next, hnext, -⟩ := apply_fresh h
    exact ⟨next, hnext⟩
  · intro hchanged
    have hrevision : preview.stateRevision ≠ later.revision := by
      rw [(preview_items h).1]
      intro hsame
      exact hchanged ((moves_revision (run_moves hrun)).2 hsame.symm)
    unfold applyBulkTransformation
    rw [if_pos (.inr (.inr hrevision))]

/-- The edit was taken back in between. -/
theorem preview_of_one_state_stocked : applyBulkTransformation (undoPricingWorkspace Sample.stocked)
    ⟨"w-1", "w-1", 1, []⟩ = .error .staleBulkPreview := by
  have hpreview : previewBulkTransformation Sample.stocked [] ⟨.setStock, "7"⟩ =
      .ok ⟨"w-1", "w-1", 1, []⟩ := rfl
  exact (preview_of_one_state hpreview (.single (.undo _))).2 (by decide)

/-- No more steps are kept, behind and ahead together, than the limit. -/
def Total (state : PricingWorkspaceState) : Prop := state.past.length + state.future.length ≤ historyLimit

theorem move_total (h : Move state next) (hs : Total state) : Total next := by
  unfold Total at hs ⊢
  cases h with
  | commit changes =>
    simp only [commitUserSnapshot, length_drop, length_nil]
    omega
  | refresh _ _ _ hpast hfuture =>
    rw [hpast, hfuture]
    exact hs
  | back hpast =>
    have hpositive := length_pos_iff.mpr hpast
    rw [undo_of_last (getLast?_eq_getLast_of_ne_nil hpast)]
    simp only [length_dropLast, length_take, length_cons]
    omega
  | forth hfuture =>
    obtain ⟨first, rest, hahead⟩ := exists_cons_of_ne_nil hfuture
    rw [hahead, length_cons] at hs
    simp only [redoPricingWorkspace, hahead, length_drop, length_append, length_singleton]
    omega

theorem step_total (h : Step state next) (hs : Total state) : Total next := by
  have hmoves := step_moves h
  clear h
  induction hmoves with
  | refl => exact hs
  | tail _ hmove ih => exact move_total hmove ih

theorem create_total (h : createPricingWorkspaceState workspaceId fields scopeId = .ok state) :
    Total state := by
  unfold createPricingWorkspaceState at h
  split at h
  · cases h
  split at h
  · cases h
  obtain ⟨present, -, rfl⟩ := map_eq_ok.mp h
  exact Nat.zero_le _

theorem reachable_total (h : Reachable state) : Total state := by
  induction h with
  | create _ _ _ h => exact create_total h
  | register _ fields h ih => exact step_total (.register fields h) ih
  | edit _ edits h ih => exact step_total (.edit edits h) ih
  | select _ identity selected h ih => exact step_total (.select identity selected h) ih
  | selectKeys _ keys selected h ih => exact step_total (.selectKeys keys selected h) ih
  | bulk _ _ _ _ preview _ h ih => exact step_total (.bulk preview h) ih
  | undo _ ih => exact step_total (.undo _) ih
  | redo _ ih => exact step_total (.redo _) ih
  | hydrate _ text htext _ _ h ih =>
    unfold hydratePricingWorkspaceState at h
    split at h
    · rename_i read hread
      cases h
      obtain ⟨stored, hstored, hhydrated⟩ := Option.bind_eq_some_iff.mp hread
      rw [htext stored hstored] at hhydrated
      unfold hydrated at hhydrated
      split at hhydrated
      · cases hhydrated
      simp only [Option.bind_eq_bind, Option.bind_eq_some_iff, Option.some.injEq] at hhydrated
      obtain ⟨present, -, past, hpast, future, hfuture, rfl⟩ := hhydrated
      have hpastLength := length_of_mapM_some hpast
      have hfutureLength := length_of_mapM_some hfuture
      simp only [serialize, length_drop, length_take, length_map] at hpastLength hfutureLength
      unfold Total at ih ⊢
      dsimp only
      omega
    · exact create_total h

theorem undone_redone (hs : Total state) (h : state.past ≠ []) :
    redoPricingWorkspace (undoPricingWorkspace state) = { state with revision := state.revision + 2 } := by
  unfold Total at hs
  have hpositive := length_pos_iff.mpr h
  have hlast := getLast?_eq_getLast_of_ne_nil h
  have htake : (state.present :: state.future).take historyLimit = state.present :: state.future :=
    take_of_length_le (by rw [length_cons]; omega)
  rw [undo_of_last hlast, htake]
  simp only [redoPricingWorkspace, dropLast_append_getLast]
  rw [Nat.sub_eq_zero_of_le (by omega), drop_zero, add_assoc]
  rfl

theorem redone_undone (hs : Total state) (h : state.future ≠ []) :
    undoPricingWorkspace (redoPricingWorkspace state) = { state with revision := state.revision + 2 } := by
  unfold Total at hs
  obtain ⟨first, rest, hahead⟩ := exists_cons_of_ne_nil h
  rw [hahead, length_cons] at hs
  have hdrop : (state.past ++ [state.present]).length - historyLimit = 0 := by
    rw [length_append, length_singleton]
    omega
  have htake : (first :: rest).take historyLimit = first :: rest :=
    take_of_length_le (by rw [length_cons]; omega)
  simp only [redoPricingWorkspace, hahead, hdrop, drop_zero]
  rw [@undo_of_last _ state.present getLast?_concat]
  simp only [htake, dropLast_concat, add_assoc]
  rw [← hahead]
  rfl

theorem undo_later (h : state.past ≠ []) (revision : ℤ) : undoPricingWorkspace { state with revision } =
      { undoPricingWorkspace state with revision := revision + 1 } := by
  have hlast := getLast?_eq_getLast_of_ne_nil h
  rw [undo_of_last hlast, @undo_of_last { state with revision } _ hlast]

theorem redo_later (h : state.future ≠ []) (revision : ℤ) : redoPricingWorkspace { state with revision } =
      { redoPricingWorkspace state with revision := revision + 1 } := by
  obtain ⟨first, rest, hahead⟩ := exists_cons_of_ne_nil h
  simp [redoPricingWorkspace, hahead]

theorem undo_lengths (hs : Total state) (h : state.past ≠ []) :
    (undoPricingWorkspace state).past.length + 1 = state.past.length ∧
      (undoPricingWorkspace state).future.length = state.future.length + 1 := by
  unfold Total at hs
  have hpositive := length_pos_iff.mpr h
  rw [undo_of_last (getLast?_eq_getLast_of_ne_nil h)]
  simp only [length_dropLast, length_take, length_cons]
  omega

theorem redo_lengths (hs : Total state) (h : state.future ≠ []) :
    (redoPricingWorkspace state).past.length = state.past.length + 1 ∧
      (redoPricingWorkspace state).future.length + 1 = state.future.length := by
  unfold Total at hs
  obtain ⟨first, rest, hahead⟩ := exists_cons_of_ne_nil h
  rw [hahead, length_cons] at hs
  simp only [redoPricingWorkspace, hahead, length_drop, length_append, length_cons, length_nil, and_true]
  omega

end

end FlowHub.PricingWorkspace
