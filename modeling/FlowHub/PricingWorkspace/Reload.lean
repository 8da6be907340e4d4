import FlowHub.Python.Json
import FlowHub.PricingWorkspace.Loading

namespace FlowHub.PricingWorkspace

open Python Txn List Except

def maxSafeInteger : ℕ := 2 ^ 53 - 1

def pricingFieldKey (identity : PricingFieldIdentity) : String :=
  Json.render (.arr [.str identity.productId, .str identity.listingId, .str identity.channelId,
    .str identity.field.name])

def PricingSelectionMode.name : PricingSelectionMode → String
  | .automatic => "automatic"
  | .manualSelected => "manual_selected"
  | .manualDeselected => "manual_deselected"

def PricingFieldIdentity.json (identity : PricingFieldIdentity) : Json :=
  .obj [("productId", .str identity.productId), ("listingId", .str identity.listingId),
    ("channelId", .str identity.channelId), ("field", .str identity.field.name)]

def PricingFieldPolicy.json (policy : PricingFieldPolicy) : Json :=
  .obj [("writable", .bool policy.writable), ("mapped", .bool policy.mapped),
    ("supported", .bool policy.supported), ("channelEnabled", .bool policy.channelEnabled),
    ("comingSoon", .bool policy.comingSoon), ("valid", .bool policy.valid),
    ("blockedReason", .ofOption .str policy.blockedReason), ("warning", .ofOption .str policy.warning)]

/-- A change as it is written. An undefined `decimalScale` is left out. -/
def PricingFieldChange.json (change : PricingFieldChange) : Json :=
  .obj ([("key", .str (pricingFieldKey change.identity)), ("identity", change.identity.json),
    ("currentValue", .ofOption .str change.currentValue), ("targetValue", .str change.targetValue),
    ("currency", .ofOption .str change.currency), ("unit", .ofOption .str change.unit),
    ("policy", change.policy.json), ("selectionMode", .str change.selectionMode.name)] ++
    (change.decimalScale.map fun scale => ("decimalScale", .int scale)).toList)

def PricingWorkspaceSnapshot.json (snapshot : PricingWorkspaceSnapshot) : Json :=
  .arr (snapshot.map PricingFieldChange.json)

/-- What `serializePricingWorkspaceState` writes. -/
def PricingWorkspaceState.json (state : PricingWorkspaceState) : Json :=
  .obj [("schemaVersion", .int 2), ("workspaceId", .str state.workspaceId),
    ("scopeId", .str state.scopeId), ("revision", .int state.revision),
    ("present", state.present.json),
    ("past", .arr (state.past.map PricingWorkspaceSnapshot.json)),
    ("future", .arr (state.future.map PricingWorkspaceSnapshot.json))]

def record : Option Json → Option (List (String × Json))
  | some (.obj fields) => some fields
  | _ => none

def text : Option Json → Option String
  | some (.str s) => some s
  | _ => none

def nullable : Option Json → Option (Option String)
  | some .null => some none
  | value => (text value).map some

def optional : Option Json → Option (Option String)
  | none => some none
  | value => nullable value

def flag : Option Json → Option Bool
  | some (.bool b) => some b
  | _ => none

/-- A number that is integral is an `int`, however it is written. -/
def integer : Option Json → Option ℤ
  | some (.int n) => some n
  | _ => none

def items : Option Json → Option (List Json)
  | some (.arr values) => some values
  | _ => none

def fieldNamed (name : String) : Option Field :=
  [Field.price, .stock, .status].find? fun field => decide (field.name = name)

def modeNamed (name : String) : Option PricingSelectionMode :=
  [.automatic, .manualSelected, .manualDeselected].find? fun mode => decide (mode.name = name)

variable (fields : List (String × Json))

def persistedIdentity : Option PricingFieldIdentity := do
  let productId ← text (fields.lookup "productId")
  let listingId ← text (fields.lookup "listingId")
  let channelId ← text (fields.lookup "channelId")
  let field ← (text (fields.lookup "field")).bind fieldNamed
  some ⟨productId, listingId, channelId, field⟩

def persistedPolicy : Option PricingFieldPolicy := do
  let writable ← flag (fields.lookup "writable")
  let mapped ← flag (fields.lookup "mapped")
  let supported ← flag (fields.lookup "supported")
  let channelEnabled ← flag (fields.lookup "channelEnabled")
  let comingSoon ← flag (fields.lookup "comingSoon")
  let valid ← flag (fields.lookup "valid")
  let blockedReason ← optional (fields.lookup "blockedReason")
  let warning ← optional (fields.lookup "warning")
  some { writable, mapped, supported, channelEnabled, comingSoon, valid, blockedReason, warning }

def persistedScale : Option Json → Option (Option ℤ)
  | none => some none
  | value => (integer value).map some

def persistedFields : Option PricingFieldChange := do
  let identity ← (record (fields.lookup "identity")).bind persistedIdentity
  let policy ← (record (fields.lookup "policy")).bind persistedPolicy
  let currentValue ← nullable (fields.lookup "currentValue")
  let targetValue ← text (fields.lookup "targetValue")
  let currency ← nullable (fields.lookup "currency")
  let unit ← nullable (fields.lookup "unit")
  let selectionMode ← (text (fields.lookup "selectionMode")).bind modeNamed
  let decimalScale ← persistedScale (fields.lookup "decimalScale")
  some { identity, currentValue, targetValue, currency, unit, policy, decimalScale, selectionMode }

/-- `isPersistedChange`, with the comparison of the keys. `snapshotFromUnknown` looks at the
identity and the scale. -/
def persistedChange (value : Json) : Option PricingFieldChange := do
  let fields ← record (some value)
  let change ← persistedFields fields
  if text (fields.lookup "key") = some (pricingFieldKey change.identity) then some change else none

/-- A layer as `snapshotFromUnknown` is given it. One that is no list has nothing that is a change. -/
def storedLayer : Json → List (Option PricingFieldChange)
  | .arr values => values.map persistedChange
  | _ => [none]

def storedOf (payload : Json) : Option Stored := do
  let fields ← record (some payload)
  let version ← integer (fields.lookup "schemaVersion")
  let workspaceId ← text (fields.lookup "workspaceId")
  let scopeId ← text (fields.lookup "scopeId")
  let revision ← integer (fields.lookup "revision")
  let present ← items (fields.lookup "present")
  let past ← items (fields.lookup "past")
  let future ← items (fields.lookup "future")
  if version = 2 ∧ revision.natAbs ≤ maxSafeInteger then
    some ⟨workspaceId, scopeId, revision, present.map persistedChange, past.map storedLayer,
      future.map storedLayer⟩
  else none

/-- `hydratePricingWorkspaceState` of a text, given as what `JSON.parse` reads in it. -/
def reload (text : Option Json) (workspaceId scopeId : String) : Except Thrown PricingWorkspaceState :=
  hydratePricingWorkspaceState (text.bind storedOf) workspaceId scopeId

section

variable (change : PricingFieldChange) (state : PricingWorkspaceState)

@[simp]
theorem record_obj (fields : List (String × Json)) : record (some (.obj fields)) = some fields := rfl

@[simp]
theorem text_str (s : String) : text (some (.str s)) = some s := rfl

@[simp]
theorem integer_int (n : ℤ) : integer (some (.int n)) = some n := rfl

@[simp]
theorem items_arr (values : List Json) : items (some (.arr values)) = some values := rfl

@[simp]
theorem fieldNamed_name (field : Field) : fieldNamed field.name = some field := by
  cases field <;> decide

@[simp]
theorem modeNamed_name (mode : PricingSelectionMode) : modeNamed mode.name = some mode := by
  cases mode <;> decide

@[simp]
theorem nullable_ofOption (value : Option String) : nullable (some (.ofOption .str value)) = some value := by
  cases value <;> rfl

@[simp]
theorem persistedIdentity_json (identity : PricingFieldIdentity) :
    (record (some identity.json)).bind persistedIdentity = some identity := by
  simp [persistedIdentity, PricingFieldIdentity.json, lookup_cons]

@[simp]
theorem persistedPolicy_json (policy : PricingFieldPolicy) :
    (record (some policy.json)).bind persistedPolicy = some policy := by
  have hoptional (value : Option String) : optional (some (.ofOption .str value)) = some value :=
    nullable_ofOption value
  simp [persistedPolicy, PricingFieldPolicy.json, lookup_cons, flag, hoptional]

theorem persistedFields_json : (record (some change.json)).bind persistedFields = some change := by
  obtain ⟨identity, currentValue, targetValue, currency, unit, policy, decimalScale, mode⟩ := change
  cases decimalScale with
  | none => simp [persistedFields, PricingFieldChange.json, lookup_cons, persistedScale]
  | some scale => simp [persistedFields, PricingFieldChange.json, lookup_cons, persistedScale]

/-- A change is read as it was written. -/
theorem persistedChange_json : persistedChange change.json = some change := by
  obtain ⟨fields, hfields, hread⟩ := Option.bind_eq_some_iff.mp (persistedFields_json change)
  have hkey : text (fields.lookup "key") = some (pricingFieldKey change.identity) := by
    simp only [record_obj, PricingFieldChange.json, Option.some.injEq] at hfields
    rw [← hfields]
    rfl
  simp [persistedChange, hfields, Option.bind_eq_bind, Option.bind_some, hread, if_pos hkey]

theorem storedLayer_json (snapshot : PricingWorkspaceSnapshot) :
    storedLayer snapshot.json = snapshot.map some := by
  simp only [storedLayer, PricingWorkspaceSnapshot.json, map_map]
  exact map_congr_left fun change _ => persistedChange_json change

theorem storedOf_json : storedOf state.json =
    if state.revision.natAbs ≤ maxSafeInteger then some (serialize state) else none := by
  have hpresent : (state.present.map PricingFieldChange.json).map persistedChange =
      state.present.map some := storedLayer_json state.present
  have hlayers (layers : List PricingWorkspaceSnapshot) :
      (layers.map PricingWorkspaceSnapshot.json).map storedLayer = layers.map (·.map some) := by
    rw [map_map]
    exact map_congr_left fun layer _ => storedLayer_json layer
  simp [storedOf, PricingWorkspaceState.json, lookup_cons, PricingWorkspaceSnapshot.json, serialize,
    ← hpresent, ← hlayers]

end

/-- A snapshot as a keyed record: the keys are those of the changes, each once. -/
structure Keyed (snapshot : PricingWorkspaceSnapshot) : Prop where
  unique : (snapshot.map PricingFieldChange.identity).Nodup
  named : ∀ change ∈ snapshot, change.identity.named = true
  scale : ∀ change ∈ snapshot, scaleValid change.decimalScale = true

section

variable {snapshot : PricingWorkspaceSnapshot} {state read : PricingWorkspaceState}

theorem Keyed.put (h : Keyed snapshot) {change : PricingFieldChange}
    (hnamed : change.identity.named = true) (hscale : scaleValid change.decimalScale = true) :
    Keyed (snapshot.put change) where
  unique := by
    unfold PricingWorkspaceSnapshot.put
    split
    · rw [Table.set, map_map]
      have hsame : snapshot.map (PricingFieldChange.identity ∘ fun r =>
          if r.identity = change.identity then change else r) =
          snapshot.map PricingFieldChange.identity := by
        refine map_congr_left fun r _ => ?_
        by_cases hr : r.identity = change.identity
        · simp [hr]
        · simp [hr]
      rw [hsame]
      exact h.unique
    · rename_i hnew
      have hfresh := Table.get_none.mp (Table.has_false.mp (by simpa using hnew))
      rw [map_append, nodup_append_comm, map_singleton, singleton_append, nodup_cons]
      refine ⟨?_, h.unique⟩
      intro hmem
      obtain ⟨other, hother, heq⟩ := mem_map.mp hmem
      exact hfresh other hother heq
  named other hother := by
    rcases PricingWorkspaceSnapshot.mem_put hother with rfl | hmem
    · exact hnamed
    · exact h.named other hmem
  scale other hother := by
    rcases PricingWorkspaceSnapshot.mem_put hother with rfl | hmem
    · exact hscale
    · exact h.scale other hmem

theorem keyed_kept : Kept Keyed where
  nil := ⟨nodup_nil, by simp, by simp⟩
  delete changes key h := by
    have hsub : changes.delete key ⊆ changes := filter_sublist.subset
    exact ⟨h.unique.sublist (filter_sublist.map _), fun c hc => h.named c (hsub hc),
      fun c hc => h.scale c (hsub hc)⟩
  put _ _ _ _ h admitted _ := h.put admitted.named admitted.scale
  select _ existing _ h hmem := h.put (h.named existing hmem) (h.scale existing hmem)

theorem snapshot_read (h : Keyed snapshot) {other : PricingWorkspaceSnapshot} :
    snapshotFromUnknown (snapshot.map some) = some other ↔ other = snapshot ∧ snapshot.length ≤ 50000 := by
  have hvalid : (snapshot.map PricingFieldChange.identity).Nodup ∧ ∀ change ∈ snapshot,
      change.identity.named = true ∧ scaleValid change.decimalScale = true :=
    ⟨h.unique, fun change hchange => ⟨h.named change hchange, h.scale change hchange⟩⟩
  unfold snapshotFromUnknown
  rw [length_map, mapM_some, Option.bind_eq_bind, Option.bind_some, if_pos hvalid]
  by_cases hlarge : 50000 < snapshot.length
  · rw [if_pos hlarge]
    constructor
    · intro hnone
      cases hnone
    · intro hsmall
      omega
  · rw [if_neg hlarge, Option.some.injEq]
    constructor
    · rintro rfl
      exact ⟨rfl, by omega⟩
    · rintro ⟨rfl, -⟩
      rfl

theorem layers_read {layers others : List PricingWorkspaceSnapshot} (h : ∀ layer ∈ layers, Keyed layer) :
    (layers.map (·.map some)).mapM snapshotFromUnknown = some others ↔
      others = layers ∧ ∀ layer ∈ layers, layer.length ≤ 50000 := by
  induction layers generalizing others with
  | nil => simp [eq_comm]
  | cons layer rest ih =>
    rw [forall_mem_cons] at h
    simp only [map_cons, mapM_cons, Option.bind_eq_bind, Option.bind_eq_some_iff, Option.pure_def,
      Option.some.injEq, snapshot_read h.1, ih h.2, forall_mem_cons]
    constructor
    · rintro ⟨_, ⟨rfl, hsmall⟩, _, ⟨rfl, hrest⟩, rfl⟩
      exact ⟨rfl, hsmall, hrest⟩
    · rintro ⟨rfl, hsmall, hrest⟩
      exact ⟨layer, ⟨rfl, hsmall⟩, rest, ⟨rfl, hrest⟩, rfl⟩

theorem hydrated_serialize (h : Reachable state) :
    hydrated (serialize state) state.workspaceId state.scopeId = some read ↔
      read = state ∧ ∀ layer ∈ state.layers, layer.length ≤ 50000 := by
  obtain ⟨hpast, hfuture⟩ := reachable_bounded h
  obtain ⟨hkeyed, hkeyedPast, hkeyedFuture⟩ := layers_iff.mp (reachable_layers keyed_kept h)
  have hdrop : (state.past.map (·.map some)).drop ((state.past.map (·.map some)).length - historyLimit) =
      state.past.map (·.map some) := by
    rw [length_map, Nat.sub_eq_zero_of_le hpast, drop_zero]
  have htake : (state.future.map (·.map some)).take historyLimit = state.future.map (·.map some) :=
    take_of_length_le (by simpa using hfuture)
  simp only [hydrated, serialize, ne_eq, not_true_eq_false, or_self, if_false, hdrop, htake,
    Option.bind_eq_bind, Option.bind_eq_some_iff, Option.some.injEq, snapshot_read hkeyed,
    layers_read hkeyedPast, layers_read hkeyedFuture, layers_iff]
  constructor
  · rintro ⟨_, ⟨rfl, hsmall⟩, _, ⟨rfl, hsmallPast⟩, _, ⟨rfl, hsmallFuture⟩, rfl⟩
    exact ⟨rfl, hsmall, hsmallPast, hsmallFuture⟩
  · rintro ⟨rfl, hsmall, hsmallPast, hsmallFuture⟩
    exact ⟨_, ⟨rfl, hsmall⟩, _, ⟨rfl, hsmallPast⟩, _, ⟨rfl, hsmallFuture⟩, rfl⟩

variable {workspaceId scopeId : String}

theorem create_empty (h : createPricingWorkspaceState workspaceId [] scopeId = .ok state) :
    state = ⟨workspaceId, scopeId, 0, [], [], []⟩ := by
  unfold createPricingWorkspaceState at h
  split at h
  · cases h
  split at h
  · cases h
  · cases h
    rfl

/-- A workspace without edits is small enough to be read. -/
theorem create_small (h : createPricingWorkspaceState workspaceId [] scopeId = .ok state) :
    (∀ layer ∈ state.layers, layer.length ≤ 50000) ∧ state.revision.natAbs ≤ maxSafeInteger := by
  rw [create_empty h]
  exact ⟨by simp [PricingWorkspaceState.layers], Nat.zero_le _⟩

theorem reload_iff (h : Reachable state) :
    reload (some state.json) state.workspaceId state.scopeId = .ok state ↔
      (∀ layer ∈ state.layers, layer.length ≤ 50000) ∧ state.revision.natAbs ≤ maxSafeInteger := by
  unfold reload hydratePricingWorkspaceState
  rw [Option.bind_some, storedOf_json]
  by_cases hsafe : state.revision.natAbs ≤ maxSafeInteger
  · rw [if_pos hsafe, Option.bind_some]
    cases hread : hydrated (serialize state) state.workspaceId state.scopeId with
    | some read =>
      obtain ⟨rfl, hsmall⟩ := (hydrated_serialize h).mp hread
      exact iff_of_true rfl ⟨hsmall, hsafe⟩
    | none =>
      constructor
      · exact create_small
      rintro ⟨hsmall, -⟩
      have hsome := (hydrated_serialize h).mpr ⟨rfl, hsmall⟩
      rw [hread] at hsome
      cases hsome
  · rw [if_neg hsafe, Option.bind_none]
    constructor
    · exact create_small
    · rintro ⟨-, hsafe'⟩
      exact absurd hsafe' hsafe

/-- A state of a workspace that can be worked on. -/
structure WellFormed (workspaceId scopeId : String) (state : PricingWorkspaceState) : Prop where
  workspace : state.workspaceId = workspaceId
  scope : state.scopeId = scopeId
  bounded : Bounded state
  keyed : ∀ layer ∈ state.layers, Keyed layer

theorem read_keyed (h : snapshotFromUnknown value = some snapshot) : Keyed snapshot := by
  unfold snapshotFromUnknown at h
  split at h
  · cases h
  simp only [Option.bind_eq_bind, Option.bind_eq_some_iff] at h
  obtain ⟨changes, -, h⟩ := h
  split at h
  · rename_i hvalid
    cases h
    exact ⟨hvalid.1, fun c hc => (hvalid.2 c hc).1, fun c hc => (hvalid.2 c hc).2⟩
  · cases h

theorem create_wellFormed (h : createPricingWorkspaceState workspaceId [] scopeId = .ok state) :
    WellFormed workspaceId scopeId state := by
  have hkeyed := create_layers keyed_kept h
  rw [create_empty h] at hkeyed ⊢
  exact ⟨rfl, rfl, ⟨Nat.zero_le _, Nat.zero_le _⟩, hkeyed⟩

/-- Whatever is stored, what is read is a state of the workspace that was asked for. -/
theorem hydrate_wellFormed (h : hydratePricingWorkspaceState stored workspaceId scopeId = .ok state) :
    WellFormed workspaceId scopeId state := by
  unfold hydratePricingWorkspaceState at h
  split at h
  · rename_i read hread
    cases h
    obtain ⟨s, -, hread⟩ := Option.bind_eq_some_iff.mp hread
    unfold hydrated at hread
    split at hread
    · cases hread
    simp only [Option.bind_eq_bind, Option.bind_eq_some_iff, Option.some.injEq] at hread
    obtain ⟨present, hpresent, past, hpast, future, hfuture, rfl⟩ := hread
    have hlayers {values : List (List (Option PricingFieldChange))} {layers : List PricingWorkspaceSnapshot}
        (hread : values.mapM snapshotFromUnknown = some layers) : ∀ layer ∈ layers, Keyed layer := by
      intro layer hlayer
      obtain ⟨value, -, hvalue⟩ := mem_of_mapM_some hread hlayer
      exact read_keyed hvalue
    refine ⟨rfl, rfl, ⟨?_, ?_⟩, layers_iff.mpr ⟨read_keyed hpresent, hlayers hpast, hlayers hfuture⟩⟩
    · dsimp only
      rw [length_of_mapM_some hpast, length_drop]
      omega
    · dsimp only
      rw [length_of_mapM_some hfuture, length_take]
      omega
  · exact create_wellFormed h

theorem hydrate_answers (stored : Option Stored) (hworkspace : workspaceId ≠ "") (hscope : scopeId ≠ "") :
    ∃ state, hydratePricingWorkspaceState stored workspaceId scopeId = .ok state := by
  unfold hydratePricingWorkspaceState
  split
  · exact ⟨_, rfl⟩
  · unfold createPricingWorkspaceState
    rw [if_neg (by simpa using hworkspace), if_neg (by simpa using hscope)]
    exact ⟨_, rfl⟩

/-- A workspace is read again as it was written, if and only if no layer holds more than 50000 changes
and its revision is a safe integer. Any text whatsoever is read as a state of the workspace and the
scope that are asked for, where these are named. -/
theorem edits_survive_reload (h : Reachable state) (text : Option Json) (workspaceId scopeId : String) :
    (reload (some state.json) state.workspaceId state.scopeId = .ok state ↔
      (∀ layer ∈ state.layers, layer.length ≤ 50000) ∧ state.revision.natAbs ≤ maxSafeInteger) ∧
    (∀ read, reload text workspaceId scopeId = .ok read → WellFormed workspaceId scopeId read) ∧
    (workspaceId ≠ "" → scopeId ≠ "" → ∃ read, reload text workspaceId scopeId = .ok read) :=
  ⟨reload_iff h, fun _ => hydrate_wellFormed, hydrate_answers _⟩

end

/-- An edit of a quantity, read again. -/
theorem edits_survive_reload_stock : reload (some Sample.stocked.json) "w-1" "w-1" = .ok Sample.stocked ∧
      ∃ read, reload none "w-1" "w-1" = .ok read := by
  have hclaim := edits_survive_reload Sample.stocked_reachable none "w-1" "w-1"
  exact ⟨hclaim.1.mpr ⟨by decide +kernel, by decide +kernel⟩, hclaim.2.2 (by decide) (by decide)⟩

namespace Sample

/-- One product after the other gets a new price. -/
theorem many_edited (n : ℕ) : ∃ state, Reachable state ∧ state.present.length = n ∧
    ∀ change ∈ state.present, change.identity.productId.length ≤ n := by
  induction n with
  | zero => exact ⟨workspace [], .create "w-1" [] "w-1" rfl, rfl, by simp [workspace]⟩
  | succ n ih =>
    obtain ⟨state, hreachable, hlength, hnames⟩ := ih
    let edit : PricingEdit := ⟨{ descriptor .price "1" "2" none with
      identity := ⟨String.ofList (replicate (n + 1) 'p'), "l-1", "woocommerce:primary", .price⟩ }, "2"⟩
    have hfresh : ∀ change ∈ state.present, change.identity ≠ edit.descriptor.identity := by
      intro change hchange heq
      have hshort := hnames change hchange
      simp [heq, edit] at hshort
    have hunique : unique PricingEdit.descriptor [edit] = .ok [edit] := by
      simp [unique, edit, PricingFieldIdentity.named, replicate_succ, descriptor, scaleValid, pure,
        Except.pure]
      rfl
    have hget : state.present.get edit.descriptor.identity = none := Table.get_none.mpr hfresh
    have hhas := Table.has_false.mpr hget
    have hdiffers : valuesEqual edit.descriptor.currentValue (some edit.targetValue)
        edit.descriptor.identity.field = false := by
      show valuesEqual (some "1") (some "2") .price = false
      decide +kernel
    have hedited : [edit].foldl editField state.present =
        state.present ++ [changeTo edit.descriptor "2" .automatic] := by
      simp only [foldl_cons, foldl_nil, editField, hdiffers, hget, PricingWorkspaceSnapshot.put]
      rw [if_neg Bool.false_ne_true]
      exact if_neg (Bool.eq_false_iff.mp hhas)
    refine ⟨_, .edit hreachable [edit] (map_eq_ok.mpr ⟨[edit], hunique, rfl⟩), ?_⟩
    rw [hedited, if_neg (by simp)]
    simp only [commitUserSnapshot]
    constructor
    · simp [hlength]
    · intro change hchange
      rcases mem_append.mp hchange with hmem | hmem
      · exact (hnames change hmem).trans (by omega)
      · rw [mem_singleton.mp hmem]
        simp [changeTo, makeChange, descriptorForTarget, edit]

end Sample

/-- More than 50000 prices of the server are lost. -/
theorem edits_lost : ∃ state, Reachable state ∧
    reload (some state.json) state.workspaceId state.scopeId ≠ .ok state := by
  obtain ⟨state, hreachable, hlength, -⟩ := Sample.many_edited 50001
  refine ⟨state, hreachable, ?_⟩
  intro hread
  have hsmall := ((reload_iff hreachable).mp hread).1 state.present mem_cons_self
  omega

end FlowHub.PricingWorkspace
