import FlowHub.PricingWorkspace.LocalChanges

namespace FlowHub.PricingWorkspace

open Txn List Option

namespace PricingWorkspaceSnapshot

variable (changes : PricingWorkspaceSnapshot)

theorem get_put (change : PricingFieldChange) (key : PricingFieldIdentity) :
    (changes.put change).get key = if key = change.identity then some change else changes.get key := by
  unfold put get
  split
  · rename_i hhas
    rw [Table.get_set_row rfl]
    obtain ⟨r, hr, hkey⟩ := Table.has_iff.mp hhas
    cases hget : Table.get PricingFieldChange.identity changes change.identity with
    | none => exact absurd hkey (Table.get_none.mp hget r hr)
    | some existing => rfl
  · rename_i hnot
    rw [Bool.not_eq_true, Table.has_false] at hnot
    by_cases hkey : key = change.identity
    · subst hkey
      rw [Table.get_append_of_none hnot, if_pos rfl]
      simp [Table.get]
    · rw [if_neg hkey]
      cases hget : Table.get PricingFieldChange.identity changes key with
      | some existing => exact Table.get_append_of_some hget
      | none =>
        rw [Table.get_append_of_none hget]
        simp [Table.get, Ne.symm hkey]

theorem get_delete (deleted key : PricingFieldIdentity) :
    (changes.delete deleted).get key = if key = deleted then none else changes.get key := by
  unfold delete get
  by_cases hkey : key = deleted
  · subst hkey
    rw [if_pos rfl, Table.get_none]
    intro change hchange
    simpa using (mem_filter.mp hchange).2
  · rw [if_neg hkey]
    unfold Table.get
    rw [find?_filter]
    congr 1
    funext change
    by_cases hchange : change.identity = key
    · simp [hchange, hkey]
    · simp [hchange]

end PricingWorkspaceSnapshot

section

variable {descriptor : PricingFieldDescriptor}

variable (addServerTargets : Bool)

/-- What a registration leaves of a field's entry. -/
def refreshedEntry (descriptor : PricingFieldDescriptor) :
    Option PricingFieldChange → Option PricingFieldChange
  | none =>
    if addServerTargets && !valuesEqual descriptor.currentValue descriptor.targetValue descriptor.identity.field
    then some (changeTo descriptor (descriptor.targetValue.getD "") .automatic)
    else none
  | some existing =>
    if valuesEqual descriptor.currentValue (some existing.targetValue) descriptor.identity.field then none
    else some (changeTo descriptor existing.targetValue existing.selectionMode)

theorem get_refreshField (key : PricingFieldIdentity) :
    (refreshField addServerTargets snapshot descriptor).get key = if key = descriptor.identity then
        refreshedEntry addServerTargets descriptor (snapshot.get descriptor.identity)
      else snapshot.get key := by
  unfold refreshField
  cases hget : snapshot.get descriptor.identity with
  | none =>
    have hsame : snapshot.get key = if key = descriptor.identity then none else snapshot.get key := by
      split
      · rename_i hkey
        rw [hkey, hget]
      · rfl
    cases addServerTargets with
    | false => exact hsame
    | true =>
      simp only [addServerTarget, if_true, refreshedEntry, Bool.true_and]
      cases hequal : valuesEqual descriptor.currentValue descriptor.targetValue descriptor.identity.field with
      | true => exact hsame
      | false => exact PricingWorkspaceSnapshot.get_put _ _ _
  | some existing =>
    simp only [refreshedEntry]
    split
    · exact PricingWorkspaceSnapshot.get_delete _ _ _
    · exact PricingWorkspaceSnapshot.get_put _ _ _

theorem get_refreshSnapshot_other (h : ∀ d ∈ descriptors, d.identity ≠ key) :
    (refreshSnapshot snapshot descriptors addServerTargets).get key = snapshot.get key := by
  unfold refreshSnapshot
  induction descriptors generalizing snapshot with
  | nil => rfl
  | cons d rest ih =>
    rw [foldl_cons, ih fun d hd => h d (mem_cons_of_mem _ hd), get_refreshField,
      if_neg (Ne.symm (h d mem_cons_self))]

/-- A registration treats each field for itself. -/
theorem get_refreshSnapshot
    (hunique : (descriptors.map PricingFieldDescriptor.identity).Nodup) (hmem : descriptor ∈ descriptors) :
    (refreshSnapshot snapshot descriptors addServerTargets).get descriptor.identity =
      refreshedEntry addServerTargets descriptor (snapshot.get descriptor.identity) := by
  induction descriptors generalizing snapshot with
  | nil => cases hmem
  | cons d rest ih =>
    rw [map_cons, nodup_cons] at hunique
    change (refreshSnapshot (refreshField addServerTargets snapshot d) rest addServerTargets).get _ = _
    rcases mem_cons.mp hmem with rfl | hmem
    · have hother : ∀ d ∈ rest, d.identity ≠ descriptor.identity := by
        intro d hd heq
        exact hunique.1 (mem_map.mpr ⟨d, hd, heq⟩)
      rw [get_refreshSnapshot_other _ hother, get_refreshField, if_pos rfl]
    · have hne : descriptor.identity ≠ d.identity := by
        intro heq
        exact hunique.1 (mem_map.mpr ⟨descriptor, hmem, heq⟩)
      rw [ih hunique.2 hmem, get_refreshField, if_neg hne]

end

/-- What `unique` lets through is the whole list, and no field stands in it twice. -/
theorem unique_ok {kept : List α} (h : unique descriptor items = .ok kept) :
    kept = items ∧ (items.map fun item => (descriptor item).identity).Nodup := by
  unfold unique at h
  split at h
  · cases h
  have hrounds : ∀ (rest seen : List α), (seen.map fun item => (descriptor item).identity).Nodup →
      rest.foldlM (fun seen item =>
        let key := (descriptor item).identity
        if !key.named then .error Thrown.invalidIdentity
        else if seen.any fun other => decide ((descriptor other).identity = key) then
          .error (.duplicate key)
        else .ok (seen ++ [item])) seen = Except.ok kept →
      kept = seen ++ rest ∧ (kept.map fun item => (descriptor item).identity).Nodup := by
    intro rest
    induction rest with
    | nil =>
      intro seen hseen h
      cases h
      exact ⟨by simp, hseen⟩
    | cons item rest ih =>
      intro seen hseen h
      rw [foldlM_cons] at h
      obtain ⟨next, hnext, h⟩ := bind_eq_ok.mp h
      simp only at hnext
      split at hnext
      · cases hnext
      split at hnext
      · cases hnext
      rename_i hfresh
      cases hnext
      have hnodup : ((seen ++ [item]).map fun item => (descriptor item).identity).Nodup := by
        rw [map_append, map_cons, map_nil, nodup_append_comm, singleton_append, nodup_cons]
        refine ⟨?_, hseen⟩
        intro hin
        obtain ⟨other, hother, heq⟩ := mem_map.mp hin
        exact hfresh (any_eq_true.mpr ⟨other, hother, decide_eq_true heq⟩)
      obtain ⟨hkept, hall⟩ := ih (seen ++ [item]) hnodup h
      exact ⟨by rw [hkept, append_assoc, singleton_append], hall⟩
  obtain ⟨rfl, hnodup⟩ := hrounds items [] nodup_nil h
  exact ⟨rfl, hnodup⟩

theorem register_layers {next : PricingWorkspaceState} (h : registerPricingFields state fields = .ok next) :
    (fields.map PricingFieldDescriptor.identity).Nodup ∧
    next.present = refreshSnapshot state.present fields true ∧
    next.past = state.past.map (fun snapshot => refreshSnapshot snapshot fields false) ∧
    next.future = state.future.map fun snapshot => refreshSnapshot snapshot fields false := by
  obtain ⟨descriptors, hdescriptors, rfl⟩ := map_eq_ok.mp h
  obtain ⟨rfl, hunique⟩ := unique_ok hdescriptors
  refine ⟨hunique, ?_⟩
  simp only
  split
  · rename_i hsame
    exact ⟨(congrArg PricingWorkspaceState.present hsame).symm,
      (congrArg PricingWorkspaceState.past hsame).symm, (congrArg PricingWorkspaceState.future hsame).symm⟩
  · exact ⟨rfl, rfl, rfl⟩

/-- Whether fields can be registered does not depend on the workspace. -/
theorem register_any {next : PricingWorkspaceState}
    (h : registerPricingFields state fields = .ok next) (other : PricingWorkspaceState) :
    ∃ registered, registerPricingFields other fields = .ok registered := by
  obtain ⟨descriptors, hdescriptors, -⟩ := map_eq_ok.mp h
  exact ⟨_, map_eq_ok.mpr ⟨descriptors, hdescriptors, rfl⟩⟩

/-- The snapshot has an entry for the field, or the server has no target for it. -/
def Harmless (snapshot : PricingWorkspaceSnapshot) (descriptor : PricingFieldDescriptor) : Prop :=
  (snapshot.get descriptor.identity).isSome = true ∨
    valuesEqual descriptor.currentValue descriptor.targetValue descriptor.identity.field = true

def isPricingFieldSelected (change : PricingFieldChange) : Bool :=
  isPricingFieldEligible change.policy && decide (change.selectionMode ≠ .manualDeselected)

/-- The target that a field is to get, and whether it is selected. -/
def decision (snapshot : PricingWorkspaceSnapshot) (key : PricingFieldIdentity) :
    Option (String × PricingSelectionMode × Bool) :=
  (snapshot.get key).map fun change =>
    (change.targetValue, change.selectionMode, isPricingFieldSelected change)

/-- A descriptor that brings nothing new for a change. -/
def SameServer (descriptor : PricingFieldDescriptor) (change : PricingFieldChange) : Prop :=
  change.currentValue = descriptor.currentValue ∧
    change.policy = (descriptorForTarget descriptor change.targetValue).policy

/-- Two snapshots with the same changes, in whatever order. -/
def SameChanges (snapshot snapshot' : PricingWorkspaceSnapshot) : Prop :=
  ∀ key, snapshot.get key = snapshot'.get key

section

variable {state next : PricingWorkspaceState} {fields : List PricingFieldDescriptor}
  {descriptor : PricingFieldDescriptor}

/-- An entry is added for a field without one, where the server has a target for it. -/
theorem refreshedEntry_none (snapshot : PricingWorkspaceSnapshot) (h : Harmless snapshot descriptor) :
    refreshedEntry addServerTargets descriptor (snapshot.get descriptor.identity) =
      refreshedEntry false descriptor (snapshot.get descriptor.identity) := by
  cases hget : snapshot.get descriptor.identity with
  | some existing => rfl
  | none =>
    rcases h with hsome | hequal
    · rw [hget] at hsome
      cases hsome
    · simp [refreshedEntry, hequal]

/-- The server targets make the difference between a registration in the present and one in the
history. -/
theorem refreshed_same (hunique : (fields.map PricingFieldDescriptor.identity).Nodup) :
    SameChanges (refreshSnapshot snapshot fields false) (refreshSnapshot snapshot fields true) ↔
      ∀ d ∈ fields, Harmless snapshot d := by
  constructor
  · intro hsame d hd
    have hentry := hsame d.identity
    rw [get_refreshSnapshot false hunique hd, get_refreshSnapshot true hunique hd] at hentry
    unfold Harmless
    cases hget : snapshot.get d.identity with
    | some existing => exact .inl rfl
    | none =>
      right
      rw [hget] at hentry
      cases hequal : valuesEqual d.currentValue d.targetValue d.identity.field with
      | true => rfl
      | false => simp [refreshedEntry, hequal] at hentry
  · intro hharmless key
    by_cases hkey : ∃ d ∈ fields, d.identity = key
    · obtain ⟨d, hd, rfl⟩ := hkey
      rw [get_refreshSnapshot false hunique hd, get_refreshSnapshot true hunique hd]
      exact (refreshedEntry_none snapshot (hharmless d hd)).symm
    · push Not at hkey
      rw [get_refreshSnapshot_other false hkey, get_refreshSnapshot_other true hkey]

/-- A registration keeps what was decided on a field, unless it adds the server's target. -/
theorem register_decision (hs : Sound state) (h : registerPricingFields state fields = .ok next)
    (hmem : descriptor ∈ fields)
    (hserver : ∀ change, state.present.get descriptor.identity = some change → SameServer descriptor change) :
    decision next.present descriptor.identity = decision state.present descriptor.identity ↔
      Harmless state.present descriptor := by
  obtain ⟨hunique, hpresent, -, -⟩ := register_layers h
  have hentry : (refreshSnapshot state.present fields true).get descriptor.identity = _ :=
    get_refreshSnapshot true hunique hmem
  unfold decision Harmless
  rw [hpresent, hentry]
  cases hget : state.present.get descriptor.identity with
  | none =>
    cases hequal : valuesEqual descriptor.currentValue descriptor.targetValue descriptor.identity.field with
    | true => simp [refreshedEntry, hequal]
    | false => simp [refreshedEntry, hequal]
  | some change =>
    obtain ⟨hcurrent, hpolicy⟩ := hserver change hget
    obtain ⟨hin, hidentity⟩ := Table.get_some hget
    have hdiffers := ((layers_iff.mp hs).1 change hin).differs
    rw [hcurrent, hidentity] at hdiffers
    simp [refreshedEntry, hdiffers, changeTo, makeChange, isPricingFieldSelected, hpolicy]

/-- A registration and then a step back. -/
theorem register_undo (h : registerPricingFields state fields = .ok next) :
    ∃ undone, registerPricingFields (undoPricingWorkspace state) fields = .ok undone ∧
      (SameChanges (undoPricingWorkspace next).present undone.present ↔
        state.past = [] ∨ ∀ d ∈ fields, Harmless (undoPricingWorkspace state).present d) := by
  obtain ⟨undone, hundone⟩ := register_any h (undoPricingWorkspace state)
  refine ⟨undone, hundone, ?_⟩
  obtain ⟨hunique, hpresent, hpast, -⟩ := register_layers h
  obtain ⟨-, hundonePresent, -, -⟩ := register_layers hundone
  rw [hundonePresent]
  cases hlast : state.past.getLast? with
  | none =>
    have hempty : state.past = [] := getLast?_eq_none_iff.mp hlast
    have hstate : undoPricingWorkspace state = state := by simp [undoPricingWorkspace, hlast]
    have hnext : undoPricingWorkspace next = next := by simp [undoPricingWorkspace, hpast, hempty]
    rw [hstate, hnext, hpresent]
    exact iff_of_true (fun _ => rfl) (.inl hempty)
  | some previous =>
    have hnonempty : state.past ≠ [] := by
      intro hempty
      simp [hempty] at hlast
    have hstate : (undoPricingWorkspace state).present = previous := by simp [undoPricingWorkspace, hlast]
    have hnext : (undoPricingWorkspace next).present = refreshSnapshot previous fields false := by
      simp [undoPricingWorkspace, hpast, getLast?_map, hlast]
    rw [hstate, hnext, refreshed_same hunique]
    simp [hnonempty]

/-- A registration and then a step forward. -/
theorem register_redo (h : registerPricingFields state fields = .ok next) :
    ∃ redone, registerPricingFields (redoPricingWorkspace state) fields = .ok redone ∧
      (SameChanges (redoPricingWorkspace next).present redone.present ↔
        state.future = [] ∨ ∀ d ∈ fields, Harmless (redoPricingWorkspace state).present d) := by
  obtain ⟨redone, hredone⟩ := register_any h (redoPricingWorkspace state)
  refine ⟨redone, hredone, ?_⟩
  obtain ⟨hunique, hpresent, -, hfuture⟩ := register_layers h
  obtain ⟨-, hredonePresent, -, -⟩ := register_layers hredone
  rw [hredonePresent]
  cases hahead : state.future with
  | nil =>
    have hstate : redoPricingWorkspace state = state := by simp [redoPricingWorkspace, hahead]
    have hnext : redoPricingWorkspace next = next := by simp [redoPricingWorkspace, hfuture, hahead]
    rw [hstate, hnext, hpresent]
    exact iff_of_true (fun _ => rfl) (.inl rfl)
  | cons ahead rest =>
    have hstate : (redoPricingWorkspace state).present = ahead := by simp [redoPricingWorkspace, hahead]
    have hnext : (redoPricingWorkspace next).present = refreshSnapshot ahead fields false := by
      simp [redoPricingWorkspace, hfuture, hahead]
    rw [hstate, hnext, refreshed_same hunique]
    simp

end

/-- No more steps are kept than the limit. -/
def Bounded (state : PricingWorkspaceState) : Prop :=
  state.past.length ≤ historyLimit ∧ state.future.length ≤ historyLimit

theorem commit_bounded (state : PricingWorkspaceState) (changes : PricingWorkspaceSnapshot) :
    Bounded (commitUserSnapshot state changes) := by
  constructor
  · simp only [commitUserSnapshot, length_drop]
    omega
  · simp [commitUserSnapshot]

theorem select_bounded {next : PricingWorkspaceState} (hs : Bounded state)
    (h : setPricingFieldSelected state identity selected = .ok next) : Bounded next := by
  unfold setPricingFieldSelected at h
  split at h
  · cases h
  have hround (existing : PricingFieldChange) (kept : Bool) (mode : PricingSelectionMode) :
      Bounded (if kept then state else if existing.selectionMode = mode then state
        else commitUserSnapshot state (state.present.put { existing with selectionMode := mode })) := by
    split
    · exact hs
    · split
      · exact hs
      · exact commit_bounded _ _
  injection h with h
  subst h
  split
  · exact hs
  · exact hround _ _ _

theorem reachable_bounded (h : Reachable state) : Bounded state := by
  induction h with
  | create _ _ _ h =>
    unfold createPricingWorkspaceState at h
    split at h
    · cases h
    split at h
    · cases h
    obtain ⟨present, -, rfl⟩ := map_eq_ok.mp h
    exact ⟨Nat.zero_le _, Nat.zero_le _⟩
  | register _ _ h ih =>
    obtain ⟨-, -, hpast, hfuture⟩ := register_layers h
    unfold Bounded
    rw [hpast, hfuture, length_map, length_map]
    exact ih
  | edit _ _ h ih =>
    obtain ⟨kept, -, rfl⟩ := map_eq_ok.mp h
    dsimp only
    split
    · exact ih
    · exact commit_bounded _ _
  | select _ _ _ h ih => exact select_bounded ih h
  | selectKeys _ _ _ h ih =>
    apply foldlM_keeps (P := Bounded) _ ih h
    intro identity _ state next hs hnext
    exact select_bounded hs hnext
  | bulk _ _ _ _ _ _ h ih =>
    unfold applyBulkTransformation at h
    split at h
    · cases h
    obtain ⟨changes, -, rfl⟩ := map_eq_ok.mp h
    split
    · exact commit_bounded _ _
    · exact ih
  | undo _ ih =>
    unfold undoPricingWorkspace
    split
    · exact ih
    constructor
    · have hlength := ih.1
      simp only [length_dropLast]
      omega
    · simp only [length_take]
      omega
  | redo _ ih =>
    unfold redoPricingWorkspace
    split
    · exact ih
    rename_i ahead rest hahead
    have hlength := ih.2
    rw [hahead, length_cons] at hlength
    constructor
    · simp only [length_drop]
      omega
    · dsimp only
      omega
  | hydrate _ _ _ _ _ h ih =>
    unfold hydratePricingWorkspaceState at h
    split at h
    · rename_i read hread
      cases h
      obtain ⟨stored, -, hhydrated⟩ := bind_eq_some_iff.mp hread
      unfold hydrated at hhydrated
      split at hhydrated
      · cases hhydrated
      simp only [bind_eq_bind, bind_eq_some_iff, some.injEq] at hhydrated
      obtain ⟨present, -, past, hpast, future, hfuture, rfl⟩ := hhydrated
      have hpastLength := length_of_mapM_some hpast
      have hfutureLength := length_of_mapM_some hfuture
      constructor
      · dsimp only
        rw [hpastLength, length_drop]
        omega
      · dsimp only
        rw [hfutureLength, length_take]
        omega
    · unfold createPricingWorkspaceState at h
      split at h
      · cases h
      split at h
      · cases h
      obtain ⟨present, -, rfl⟩ := map_eq_ok.mp h
      exact ⟨Nat.zero_le _, Nat.zero_le _⟩

/-- A step back and a step forward. -/
theorem redo_undo (h : state.past ≠ []) :
    (redoPricingWorkspace (undoPricingWorkspace state)).present = state.present := by
  cases hlast : state.past.getLast? with
  | none => exact absurd (getLast?_eq_none_iff.mp hlast) h
  | some previous => simp [undoPricingWorkspace, hlast, redoPricingWorkspace, historyLimit]

/-- In every reachable state: a registration keeps what was decided on a field, and it commutes with a
step back and with a step forward, if and only if it adds no target of the server to a snapshot that has no
entry for the field, as it has none after the field was set back to its current value. -/
theorem loading_keeps_decisions {state next : PricingWorkspaceState} {fields : List PricingFieldDescriptor}
    (hreachable : Reachable state) (h : registerPricingFields state fields = .ok next) :
    (∀ d ∈ fields, (∀ change, state.present.get d.identity = some change → SameServer d change) →
      (decision next.present d.identity = decision state.present d.identity ↔ Harmless state.present d)) ∧
    (∃ undone, registerPricingFields (undoPricingWorkspace state) fields = .ok undone ∧
      (SameChanges (undoPricingWorkspace next).present undone.present ↔
        state.past = [] ∨ ∀ d ∈ fields, Harmless (undoPricingWorkspace state).present d)) ∧
    (∃ redone, registerPricingFields (redoPricingWorkspace state) fields = .ok redone ∧
      (SameChanges (redoPricingWorkspace next).present redone.present ↔
        state.future = [] ∨ ∀ d ∈ fields, Harmless (redoPricingWorkspace state).present d)) ∧
    Bounded state ∧
    (state.past ≠ [] → (redoPricingWorkspace (undoPricingWorkspace state)).present = state.present) :=
  ⟨fun _ hmem hserver => register_decision (reachable_sound hreachable) h hmem hserver,
    register_undo h, register_redo h, reachable_bounded hreachable, redo_undo⟩

namespace Sample

/-- A field with the target that the server has for it. -/
def loaded : PricingFieldDescriptor := descriptor .price "100" "120" (some "EUR")

def loadedChange : PricingFieldChange := change .price "100" "120" (some "EUR")

/-- A workspace in which the price was raised and set back. -/
def restored : PricingWorkspaceState :=
  ⟨"w-1", "w-1", 2, [], [[], [change .price "100" "110" (some "EUR")]], []⟩

theorem restored_reachable : Reachable restored := by
  have hempty : Reachable (workspace []) := .create "w-1" [] "w-1" (by decide +kernel)
  have hraised : Reachable ⟨"w-1", "w-1", 1, [change .price "100" "110" (some "EUR")], [[]], []⟩ :=
    .edit hempty [⟨loaded, "110"⟩] (by decide +kernel)
  exact .edit hraised [⟨loaded, "100"⟩] (by decide +kernel)

/-- A workspace in which another field was edited. -/
def stocked : PricingWorkspaceState := ⟨"w-1", "w-1", 1, [change .stock "5" "6" none], [[]], []⟩

theorem stocked_reachable : Reachable stocked := by
  have hempty : Reachable (workspace []) := .create "w-1" [] "w-1" (by decide +kernel)
  exact .edit hempty [⟨descriptor .stock "5" "6" none, "6"⟩] (by decide +kernel)

example : refreshSnapshot [loadedChange] [loaded] true = [loadedChange] := by decide +kernel

theorem loaded_registers (state : PricingWorkspaceState) :
    ∃ next, registerPricingFields state [loaded] = .ok next :=
  ⟨_, map_eq_ok.mpr ⟨[loaded], by decide +kernel, rfl⟩⟩

theorem loaded_fresh : refreshSnapshot [] [loaded] true = [loadedChange] := by decide +kernel

end Sample

open Sample

/-- The field that was set back gets the target of the server. And where a field is loaded after a step,
going back drops it, but loading it after going back does not. -/
theorem loading_overrides :
    (∃ state next, Reachable state ∧ registerPricingFields state [Sample.loaded] = .ok next ∧
      (∀ change, state.present.get Sample.loaded.identity = some change → SameServer Sample.loaded change) ∧
      decision next.present Sample.loaded.identity ≠ decision state.present Sample.loaded.identity) ∧
    ∃ state next undone, Reachable state ∧ registerPricingFields state [Sample.loaded] = .ok next ∧
      registerPricingFields (undoPricingWorkspace state) [Sample.loaded] = .ok undone ∧
      ¬ SameChanges (undoPricingWorkspace next).present undone.present := by
  constructor
  · obtain ⟨next, hnext⟩ := loaded_registers restored
    refine ⟨restored, next, restored_reachable, hnext, ?_, ?_⟩
    · intro change hchange
      rw [show restored.present.get Sample.loaded.identity = none from rfl] at hchange
      cases hchange
    · rw [(register_layers hnext).2.1, show restored.present = [] from rfl, loaded_fresh]
      decide +kernel
  · obtain ⟨next, hnext⟩ := loaded_registers stocked
    obtain ⟨undone, hundone⟩ := loaded_registers (undoPricingWorkspace stocked)
    refine ⟨stocked, next, undone, stocked_reachable, hnext, hundone, ?_⟩
    have hpast : next.past = [refreshSnapshot [] [Sample.loaded] false] := (register_layers hnext).2.2.1
    have hundo : (undoPricingWorkspace next).present = refreshSnapshot [] [Sample.loaded] false := by
      unfold undoPricingWorkspace
      rw [hpast]
      rfl
    have hpresent : undone.present = [loadedChange] := by
      rw [(register_layers hundone).2.1, ← loaded_fresh]
      rfl
    intro hsame
    have hentry := hsame Sample.loaded.identity
    rw [hundo, hpresent] at hentry
    revert hentry
    decide +kernel

/-- A field that is loaded where it has no entry, in a workspace with a step behind it. -/
theorem stock_kept : ∃ next, registerPricingFields stocked [Sample.loaded] = .ok next ∧
      (decision next.present Sample.loaded.identity = decision stocked.present Sample.loaded.identity ↔
        Harmless stocked.present Sample.loaded) ∧ Bounded stocked := by
  obtain ⟨next, hnext⟩ := loaded_registers stocked
  have hkept := loading_keeps_decisions stocked_reachable hnext
  have hserver : stocked.present.get Sample.loaded.identity = none := by decide +kernel
  refine ⟨next, hnext, hkept.1 Sample.loaded mem_cons_self ?_, hkept.2.2.2.1⟩
  intro change hchange
  rw [hserver] at hchange
  cases hchange

end FlowHub.PricingWorkspace
