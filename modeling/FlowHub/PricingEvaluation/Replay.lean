import FlowHub.PricingEvaluation.Shadowing

namespace FlowHub.PricingEvaluation

open Txn Python List

def DerivedValueEvaluation.outcome (row : DerivedValueEvaluation) : Id × Int × Nat :=
  (row.definitionId, row.resultNumerator, row.resultDenominator)

/-- Two calls that store packages with one fingerprint, the second where the definitions of the
first still are. -/
structure Replayed (hash : Hashing) (u : Unicode) (ids ids' : PackageIds)
    (request request' : PackageRequest) (tables after tables' after' : Tables)
    (result result' : PackageResult) : Prop where
  first : createPackage hash u ids request tables = .ok (after, result)
  second : createPackage hash u ids' request' tables' = .ok (after', result')
  unused : ids.Unused tables.definitions
  unused' : ids'.Unused tables'.definitions
  registered : Registered hash tables.definitions
  registered' : Registered hash tables'.definitions
  kept : ∃ more, tables'.definitions = after.definitions ++ more
  fingerprint : result.package.dependencyFingerprint = result'.package.dependencyFingerprint

/-- What a reference of the first call reads once the sources have the values of the second. -/
def Replaced (request request' : PackageRequest) (ref : DependencyRef) (value : ℚ) : Prop :=
  match ref.kind with
  | .observation => request'.source ref.key = some value
  | .manualInput => request.manual ref.key = some value
  | .derived => Denotes request ref.key value

/-- No definition of the first call tells the source values of the second from its own. -/
def Interchangeable (request request' : PackageRequest) : Prop :=
  ∀ key draft values values', draftByKey request.derivedDefinitions key = some draft →
    List.Forall₂ (RefDenotes request) draft.dependencies values →
    List.Forall₂ (Replaced request request') draft.dependencies values' →
    evaluateOperator draft.operator draft.parameters values =
      evaluateOperator draft.operator draft.parameters values'

section Lists

/-- Under keys that are the same and told apart, values are the same where keys are. -/
theorem perm_keyed {α κ γ : Type} {k : α → κ} {f : α → γ} {as bs : List α}
    (hnodup : (as.map k).Nodup) (hkeys : (as.map k).Perm (bs.map k)) :
    (as.map fun a => (k a, f a)).Perm (bs.map fun b => (k b, f b)) ↔
      ∀ a ∈ as, ∀ b ∈ bs, k a = k b → f a = f b := by
  have hnodup' := hkeys.nodup_iff.mp hnodup
  constructor
  · intro hperm a ha b hb hsame
    have hmem := hperm.mem_iff.mp (mem_map.mpr ⟨a, ha, rfl⟩)
    obtain ⟨c, hc, heq⟩ := mem_map.mp hmem
    rw [Prod.mk.injEq] at heq
    obtain rfl := inj_on_of_nodup_map hnodup' hc hb (heq.1.trans hsame)
    exact heq.2.symm
  · intro hsame
    have hpairs : ∀ {cs : List α}, (cs.map k).Nodup → (cs.map fun c => (k c, f c)).Nodup := by
      intro cs h
      apply Nodup.of_map Prod.fst
      rw [map_map]
      exact h
    rw [perm_ext_iff_of_nodup (hpairs hnodup) (hpairs hnodup')]
    intro pair
    simp only [mem_map]
    constructor
    · rintro ⟨a, ha, rfl⟩
      obtain ⟨b, hb, hkey⟩ := mem_map.mp (hkeys.mem_iff.mp (mem_map_of_mem ha))
      exact ⟨b, hb, by rw [hkey, hsame a ha b hb hkey.symm]⟩
    · rintro ⟨b, hb, rfl⟩
      obtain ⟨a, ha, hkey⟩ := mem_map.mp (hkeys.mem_iff.mpr (mem_map_of_mem hb))
      exact ⟨a, ha, by rw [hkey, hsame a ha b hb hkey]⟩

theorem lookup_iff_mem {κ γ : Type} [DecidableEq κ] {pairs : List (κ × γ)} {key : κ} {value : γ}
    (hnodup : (pairs.map Prod.fst).Nodup) :
    pairs.lookup key = some value ↔ (key, value) ∈ pairs := by
  induction pairs with
  | nil => simp
  | cons pair pairs ih =>
    obtain ⟨k, v⟩ := pair
    rw [map_cons, nodup_cons] at hnodup
    rw [lookup_cons, mem_cons, Prod.mk.injEq]
    by_cases hkey : key = k
    · subst hkey
      have habsent : (key, value) ∉ pairs := fun h => hnodup.1 (mem_map.mpr ⟨_, h, rfl⟩)
      simp [habsent, eq_comm]
    · have hne : (key == k) = false := by simpa using hkey
      simp [hne, hkey, ih hnodup.2]

end Lists

section Calls

variable {hash : Hashing} {u : Unicode} {request request' : PackageRequest}

section Fingerprint

theorem pinManualInputs_keys {keys : List String} {requirements : List ManualInputRequirement}
    {pinned : List PinnedManualInput}
    (h : pinManualInputs tables request keys requirements = .ok pinned) :
    (requirements.map ManualInputRequirement.key).Nodup ∧
      ∀ key ∈ keys, key ∉ requirements.map ManualInputRequirement.key := by
  induction requirements generalizing keys pinned with
  | nil => exact ⟨nodup_nil, by simp⟩
  | cons requirement rest ih =>
    unfold pinManualInputs at h
    obtain ⟨_, hnew, h⟩ := bind_eq_ok.mp h
    obtain ⟨first, -, h⟩ := bind_eq_ok.mp h
    obtain ⟨more, hmore, -⟩ := bind_eq_ok.mp h
    rw [refuse_ok, contains_eq_mem, decide_eq_false_iff_not] at hnew
    obtain ⟨hnodup, habsent⟩ := ih hmore
    rw [map_cons, nodup_cons]
    refine ⟨⟨habsent _ mem_cons_self, hnodup⟩, ?_⟩
    intro key hkey hmem
    rcases mem_cons.mp hmem with rfl | hrest
    · exact hnew hkey
    · exact habsent key (mem_cons_of_mem _ hkey) hrest

theorem ManualPinTuple.json_injective : Function.Injective ManualPinTuple.json := by
  rintro ⟨a, b, c, d, e⟩ ⟨a', b', c', d', e'⟩ h
  simpa [ManualPinTuple.json] using h

variable {sources sources' : List SelectedSource} {manual manual' : List PinnedManualInput}
  {definitionIds definitionIds' : List Id}

/-- What one fingerprint says of two calls. -/
theorem fingerprintPayload_inj
    (h : fingerprintPayload request sources manual definitionIds =
      fingerprintPayload request' sources' manual' definitionIds') :
    (manual.map PinnedManualInput.tuple).Perm (manual'.map PinnedManualInput.tuple) ∧
      definitionIds.Perm definitionIds' := by
  simp only [fingerprintPayload, Json.obj.injEq, cons.injEq, Prod.mk.injEq, true_and, and_true,
    Json.arr.injEq, Json.str.injEq] at h
  obtain ⟨-, -, -, hids, -, -, htuples, -⟩ := h
  have hstr : Function.Injective Json.str := fun a b hab => Json.str.inj hab
  have hsorted := map_injective_iff.mpr hstr hids
  have htuples := map_injective_iff.mpr ManualPinTuple.json_injective htuples
  constructor
  · exact ((mergeSort_perm _ _).symm.trans (.of_eq htuples)).trans (mergeSort_perm _ _)
  · exact ((perm_insertionSort _ _).symm.trans (.of_eq hsorted)).trans
      (perm_insertionSort _ _)

/-- Equal pins are equal manual inputs. -/
theorem manual_eq_of_tuples {tables' : Tables}
    (hmanual : pinManualInputs tables request [] request.manualInputRequirements = .ok manual)
    (hmanual' : pinManualInputs tables' request' [] request'.manualInputRequirements = .ok manual')
    (h : (manual.map PinnedManualInput.tuple).Perm (manual'.map PinnedManualInput.tuple))
    (key : String) : request.manual key = request'.manual key := by
  have hpairs : ∀ pinned : List PinnedManualInput, (pinned.map PinnedManualInput.tuple).map
        (fun t => (t.key, (t.numerator / t.denominator : ℚ))) =
      (pinned.map PinnedManualInput.requirement).map fun r => (r.key, r.value) := by
    intro pinned
    rw [map_map, map_map]
    apply map_congr_left
    intro p _
    simp [PinnedManualInput.tuple, Rat.num_div_den]
  have hperm := h.map fun t => (t.key, (t.numerator / t.denominator : ℚ))
  rw [hpairs, hpairs, pinManualInputs_requirements hmanual, pinManualInputs_requirements hmanual'] at hperm
  have hkeys : ∀ requirements : List ManualInputRequirement,
      (requirements.map fun r => (r.key, r.value)).map Prod.fst =
        requirements.map ManualInputRequirement.key := by
    intro requirements
    rw [map_map]
    rfl
  have hnodup := (pinManualInputs_keys hmanual).1
  have hnodup' := (pinManualInputs_keys hmanual').1
  rw [← hkeys] at hnodup hnodup'
  unfold PackageRequest.manual
  apply Option.ext
  intro value
  rw [lookup_iff_mem hnodup, lookup_iff_mem hnodup', hperm.mem_iff]

end Fingerprint

/-- The row of a definition as a stored call leaves it. -/
structure Written (request : PackageRequest) (final : Derivation) (key : String)
    (row : DerivedValueEvaluation) (draft : DefinitionDraft) (value : ℚ) : Prop where
  found : draftByKey request.derivedDefinitions key = some draft
  values : List.Forall₂ (RefDenotes request) draft.dependencies row.values
  computed : evaluateOperator draft.operator draft.parameters row.values = .ok value
  numerator : row.resultNumerator = value.num
  denominator : row.resultDenominator = value.den
  refs : row.refs = draft.dependencies.map (resolve final.definitionIds)
  definitionId : final.definitionIds.lookup key = some row.definitionId
  content : ∃ d ∈ final.definitions, d.id = row.definitionId ∧ d.operator = draft.operator ∧
    d.parameters = draft.parameters ∧ d.dependencyRefs = row.refs

theorem Written.denotes {final : Derivation} {key : String} {row : DerivedValueEvaluation}
    {draft : DefinitionDraft} {value : ℚ} (h : Written request final key row draft value) :
    Denotes request key value :=
  denotes_iff.mpr ⟨draft, row.values, h.found, h.values, h.computed⟩

/-- The rows of a stored call, one for each definition and each under an id of its own. -/
structure Booked (request : PackageRequest) (final : Derivation)
    (rows : List DerivedValueEvaluation) : Prop where
  written : ∀ row ∈ rows, ∃ key draft value, Written request final key row draft value
  all : ∀ key draft, draftByKey request.derivedDefinitions key = some draft →
    ∃ row ∈ rows, ∃ value, Written request final key row draft value
  known : ∀ row ∈ rows, ∀ key draft value, Written request final key row draft value →
    ∀ ref ∈ draft.dependencies, ref.kind = .derived → (draftByKey request.derivedDefinitions ref.key).isSome
  nodup : (rows.map DerivedValueEvaluation.definitionId).Nodup

theorem booked_of_ok {ids : PackageIds} {tables after : Tables} {result : PackageResult}
    (hinj : Function.Injective hash.json) (hids : ids.Unused tables.definitions)
    (hdefinitions : Registered hash tables.definitions) (hnames : Unshadowed request)
    (hcall : createPackage hash u ids request tables = .ok (after, result)) :
    ∃ final sources skew manual, Accepted u ids request tables sources skew manual ∧
      Booked request final result.derivedEvaluations ∧
      Registered hash final.definitions ∧ after.definitions = final.definitions ∧
      (∃ more, final.definitions = tables.definitions ++ more) ∧
      final.definitionIds.map Prod.snd =
        (result.derivedEvaluations.map DerivedValueEvaluation.definitionId).reverse ∧
      result.package.dependencyFingerprint = hash.json (fingerprintPayload request sources manual
        (final.definitionIds.map Prod.snd)) := by
  obtain ⟨sources, skew, manual, haccepted⟩ := usable_of_ok hcall
  obtain ⟨final, hderive, -, hnodup, -, hdefs, -, hresult, hfingerprint⟩ :=
    createPackage_ok haccepted hcall
  obtain ⟨hbounded, hfinal, htrace, hlast, hmore⟩ := derive_ok hids hdefinitions hderive
  obtain ⟨hcomputable, hrows⟩ := computable_of_trace hinj hnames hbounded hfinal haccepted.leaves
    htrace
  obtain ⟨-, hall, hbehind⟩ := topologicalOrder_spec hbounded
  have hwritten : Forall₂ (fun key row => ∃ draft value, Written request final key row draft value)
      (topologicalOrder request.derivedDefinitions) final.evaluations := by
    refine (forall₂_and htrace.rows hrows).imp ?_
    rintro key row ⟨⟨earlier, draft, result, hrow⟩, draft', value, hdraft', hrefs, hcomputed, hnum, hden, -⟩
    rw [hrow.found, Option.some.injEq] at hdraft'
    subst hdraft'
    exact ⟨draft, value, hrow.found, hrefs, hcomputed, hnum, hden, hrow.refs, hrow.definitionId,
      hrow.content hinj hfinal⟩
  refine ⟨final, sources, skew, manual, haccepted, ?_, hfinal, hdefs, hmore, by rw [hlast, hresult],
    hfingerprint⟩
  rw [hresult]
  refine ⟨?_, ?_, ?_, hnodup⟩
  · intro row hrow
    obtain ⟨key, -, draft, value, h⟩ := forall₂_left hwritten hrow
    exact ⟨key, draft, value, h⟩
  · intro key draft hdraft
    have hkey : key ∈ topologicalOrder request.derivedDefinitions :=
      (hall key).mpr (mem_draftKeys.mpr (by rw [hdraft]; rfl))
    obtain ⟨row, hrow, draft', value, h⟩ := forall₂_right_mem hwritten hkey
    obtain rfl := Option.some.inj (hdraft.symm.trans h.found)
    exact ⟨row, hrow, value, h⟩
  · intro row _ key draft value h ref href hkind
    have hkey : key ∈ topologicalOrder request.derivedDefinitions :=
      (hall key).mpr (mem_draftKeys.mpr (by rw [h.found]; rfl))
    obtain ⟨before, afterKeys, hsplit⟩ := append_of_mem hkey
    have hbefore := hbehind before key afterKeys draft hsplit h.found ref href hkind
    rw [← mem_draftKeys, ← hall, hsplit]
    exact mem_append_left _ hbefore

section Pair

variable {row' row : DerivedValueEvaluation} {draft' draft : DefinitionDraft} {ref : DependencyRef}
  {key key' : String} {value' : ℚ}

/-- Rows of one definition id were evaluated from one content. -/
theorem Written.same (hfinal' : Registered hash final'.definitions)
    (hkept : ∃ more, final'.definitions = final.definitions ++ more)
    (h : Written request final key row draft value)
    (h' : Written request' final' key' row' draft' value')
    (hid : row.definitionId = row'.definitionId) :
    draft.operator = draft'.operator ∧ draft.parameters = draft'.parameters ∧
      draft.dependencies.map (resolve final.definitionIds) =
        draft'.dependencies.map (resolve final'.definitionIds) := by
  obtain ⟨d, hd, hown, hoperator, hparameters, hrefs⟩ := h.content
  obtain ⟨d', hd', hown', hoperator', hparameters', hrefs'⟩ := h'.content
  obtain ⟨more, hmore⟩ := hkept
  have hmem : d ∈ final'.definitions := by
    rw [hmore]
    exact mem_append_left _ hd
  obtain rfl := inj_on_of_nodup_map hfinal'.ids hmem hd'
    (hown.trans (hid.trans hown'.symm))
  refine ⟨hoperator.symm.trans hoperator', hparameters.symm.trans hparameters', ?_⟩
  rw [← h.refs, ← h'.refs, ← hrefs, hrefs']

/-- A reference of the second call, read by the first one with the second's sources. -/
theorem replaced_of_resolve (hmanual : ∀ key, request.manual key = request'.manual key)
    (hbooked : Booked request final rows) (hbooked' : Booked request' final' rows')
    (hknown : ref.kind = .derived → (draftByKey request.derivedDefinitions ref.key).isSome)
    (hknown' : ref'.kind = .derived → (draftByKey request'.derivedDefinitions ref'.key).isSome)
    (hresolve : resolve final.definitionIds ref = resolve final'.definitionIds ref')
    (hvalue' : RefDenotes request' ref' value')
    (hderived : ref.kind = .derived → ∀ row ∈ rows, ∀ row' ∈ rows', ∀ key' draft draft' v v',
      Written request final ref.key row draft v → Written request' final' key' row' draft' v' →
      row.definitionId = row'.definitionId → v = v') : Replaced request request' ref value' := by
  obtain ⟨kind, key⟩ := ref
  obtain ⟨kind', key'⟩ := ref'
  cases kind <;> cases kind' <;> simp only [resolve, ResolvedRef.mk.injEq, reduceCtorEq, false_and,
    true_and] at hresolve
  · subst hresolve
    exact hvalue'
  · subst hresolve
    have hread : request'.manual key = some value' := hvalue'
    exact (hmanual key).trans hread
  · obtain ⟨draft, hdraft⟩ := Option.isSome_iff_exists.mp (hknown rfl)
    obtain ⟨draft', hdraft'⟩ := Option.isSome_iff_exists.mp (hknown' rfl)
    obtain ⟨row, hrow, v, hwritten⟩ := hbooked.all key draft hdraft
    obtain ⟨row', hrow', v', hwritten'⟩ := hbooked'.all key' draft' hdraft'
    rw [hwritten.definitionId, hwritten'.definitionId, Option.getD_some, Option.getD_some] at hresolve
    have hsame := hderived rfl row hrow row' hrow' key' draft draft' v v' hwritten hwritten' hresolve
    have hread : Denotes request' key' value' := hvalue'
    obtain rfl := hread.unique hwritten'.denotes
    subst hsame
    exact hwritten.denotes

theorem Replaced.unique (ha : Replaced request request' ref a)
    (hb : Replaced request request' ref b) : a = b := by
  obtain ⟨kind, key⟩ := ref
  cases kind with
  | observation => exact Option.some.inj (ha.symm.trans hb)
  | manualInput => exact Option.some.inj (ha.symm.trans hb)
  | derived => exact Denotes.unique ha hb

theorem replaced_of_same (hmanual : ∀ key, request.manual key = request'.manual key)
    (hbooked : Booked request final rows) (hbooked' : Booked request' final' rows')
    (hrow : row ∈ rows) (hrow' : row' ∈ rows') (h : Written request final key row draft value)
    (h' : Written request' final' key' row' draft' value')
    (hrefs : draft.dependencies.map (resolve final.definitionIds) =
      draft'.dependencies.map (resolve final'.definitionIds))
    (hderived : ∀ ref ∈ draft.dependencies, ref.kind = .derived → ∀ row ∈ rows, ∀ row' ∈ rows',
      ∀ key' draft draft' v v', Written request final ref.key row draft v →
      Written request' final' key' row' draft' v' → row.definitionId = row'.definitionId → v = v') :
    Forall₂ (Replaced request request') draft.dependencies row'.values := by
  refine forall₂_trans (forall₂_of_map_eq hrefs) h'.values ?_
  intro ref href ref' href' v' hresolve hvalue'
  exact replaced_of_resolve hmanual hbooked hbooked' (hbooked.known row hrow key draft value h ref href)
    (hbooked'.known row' hrow' key' draft' value' h' ref' href') hresolve hvalue'
    (fun hkind => hderived ref href hkind)

/-- Rows of one definition id have one value where the source values are interchangeable. -/
theorem value_of_interchangeable (hmanual : ∀ key, request.manual key = request'.manual key)
    (hsources : Interchangeable request request') (hfinal' : Registered hash final'.definitions)
    (hkept : ∃ more, final'.definitions = final.definitions ++ more)
    (hbooked : Booked request final rows) (hbooked' : Booked request' final' rows')
    {value : ℚ} (hdenotes : Denotes request key value) :
    ∀ row ∈ rows, ∀ row' ∈ rows', ∀ key' draft draft' value',
      Written request final key row draft value → Written request' final' key' row' draft' value' →
      row.definitionId = row'.definitionId → value = value' := by
  induction hdenotes with
  | @intro key draft result value hdraft _ _ hbelow _ ih =>
    intro row hrow row' hrow' key' own draft' value' h h' hid
    obtain rfl := Option.some.inj (hdraft.symm.trans h.found)
    obtain ⟨hoperator, hparameters, hrefs⟩ := h.same hfinal' hkept h' hid
    have hread : Forall₂ (Replaced request request') draft.dependencies row'.values := by
      refine replaced_of_same hmanual hbooked hbooked' hrow hrow' h h' hrefs ?_
      intro ref href hkind below hbelowRow below' hbelowRow' key' own own' v v' hw hw' hsame
      obtain rfl := hw.denotes.unique (hbelow ref href hkind)
      exact ih ref href hkind below hbelowRow below' hbelowRow' key' own own' v' hw hw' hsame
    have hcomputed := hsources key draft row.values row'.values hdraft h.values hread
    rw [h.computed, hoperator, hparameters, h'.computed] at hcomputed
    exact Except.ok.inj hcomputed

theorem interchangeable_of_value (hmanual : ∀ key, request.manual key = request'.manual key)
    (hfinal' : Registered hash final'.definitions)
    (hkept : ∃ more, final'.definitions = final.definitions ++ more)
    (hbooked : Booked request final rows) (hbooked' : Booked request' final' rows')
    (hids : (rows.map DerivedValueEvaluation.definitionId).Perm
      (rows'.map DerivedValueEvaluation.definitionId))
    (hvalues : ∀ row ∈ rows, ∀ row' ∈ rows', ∀ key key' draft draft' value value',
      Written request final key row draft value → Written request' final' key' row' draft' value' →
      row.definitionId = row'.definitionId → value = value') :
    Interchangeable request request' := by
  intro key draft values values' hdraft hread hread'
  obtain ⟨row, hrow, value, h⟩ := hbooked.all key draft hdraft
  obtain ⟨row', hrow', hid⟩ := mem_map.mp (hids.mem_iff.mp (mem_map_of_mem hrow))
  obtain ⟨key', draft', value', h'⟩ := hbooked'.written row' hrow'
  obtain ⟨hoperator, hparameters, hrefs⟩ := h.same hfinal' hkept h' hid.symm
  have hsecond : Forall₂ (Replaced request request') draft.dependencies row'.values := by
    refine replaced_of_same hmanual hbooked hbooked' hrow hrow' h h' hrefs ?_
    intro ref _ _ below hbelow below' hbelow' key' own own' v v' hw hw' hsame
    exact hvalues below hbelow below' hbelow' ref.key key' own own' v v' hw hw' hsame
  have hfirst : values = row.values :=
    forall₂_right_unique (R := RefDenotes request) (fun _ _ _ => RefDenotes.unique) hread h.values
  have hlast : values' = row'.values :=
    forall₂_right_unique (R := Replaced request request') (fun _ _ _ => Replaced.unique) hread' hsecond
  rw [hfirst, hlast, h.computed, hoperator, hparameters, h'.computed,
    hvalues row hrow row' hrow' key key' draft draft' value value' h h' hid.symm]

end Pair

/-- Two stored calls with one fingerprint have the same evaluations where the definitions do not
tell the sources of the one from those of the other. -/
theorem replay_deterministic (hinj : Function.Injective hash.json) {ids ids' : PackageIds}
    {tables after tables' after' : Tables} {result result' : PackageResult}
    (h : Replayed hash u ids ids' request request' tables after tables' after' result result')
    (hnames : Unshadowed request) (hnames' : Unshadowed request') :
    (result.derivedEvaluations.map DerivedValueEvaluation.outcome).Perm
        (result'.derivedEvaluations.map DerivedValueEvaluation.outcome) ↔
      Interchangeable request request' := by
  obtain ⟨final, sources, skew, manual, haccepted, hbooked, -, hdefs, -, hown, hfingerprint⟩ :=
    booked_of_ok hinj h.unused h.registered hnames h.first
  obtain ⟨final', sources', skew', manual', haccepted', hbooked', hfinal', -, hmore, hown',
    hfingerprint'⟩ := booked_of_ok hinj h.unused' h.registered' hnames' h.second
  have hpayload := hinj (hfingerprint.symm.trans (h.fingerprint.trans hfingerprint'))
  obtain ⟨htuples, hids⟩ := fingerprintPayload_inj hpayload
  have hmanual := manual_eq_of_tuples haccepted.manual haccepted'.manual htuples
  rw [hown, hown'] at hids
  have hids := ((reverse_perm _).symm.trans hids).trans (reverse_perm _)
  have hkept : ∃ more, final'.definitions = final.definitions ++ more := by
    obtain ⟨since, hsince⟩ := h.kept
    obtain ⟨more, hmore⟩ := hmore
    exact ⟨since ++ more, by rw [hmore, hsince, hdefs, append_assoc]⟩
  rw [show DerivedValueEvaluation.outcome = fun row => (row.definitionId,
    row.resultNumerator, row.resultDenominator) from rfl, perm_keyed hbooked.nodup hids]
  constructor
  · intro hsame
    refine interchangeable_of_value hmanual hfinal' hkept hbooked hbooked' hids ?_
    intro row hrow row' hrow' key key' draft draft' value value' hw hw' hid
    have hresult := hsame row hrow row' hrow' hid
    rw [hw.numerator, hw.denominator, hw'.numerator, hw'.denominator, Prod.mk.injEq] at hresult
    exact Rat.ext hresult.1 hresult.2
  · intro hsources row hrow row' hrow' hid
    obtain ⟨key, draft, value, hw⟩ := hbooked.written row hrow
    obtain ⟨key', draft', value', hw'⟩ := hbooked'.written row' hrow'
    obtain rfl := value_of_interchangeable hmanual hsources hfinal' hkept hbooked hbooked'
      hw.denotes row hrow row' hrow' key' draft draft' value' hw hw' hid
    rw [hw.numerator, hw.denominator, hw'.numerator, hw'.denominator]

end Calls

namespace Sample

def price (hash : Hashing) (id : Id) : DerivedValueDefinition :=
  ⟨id, .addConstant, [("addend_minor", .int 1)], [⟨.observation, "cost"⟩],
    hash.json (definitionPayload .addConstant [("addend_minor", .int 1)] [⟨.observation, "cost"⟩])⟩

def defined (hash : Hashing) (known : Option Id) : Tables :=
  { tables with definitions := (known.map (price hash)).toList }

def selected (value : ℚ) : SelectedSource where
  position := 0
  requirement := cost value
  resourceBindingRevisionId := "binding"
  result := ⟨⟨"observation", "checksum", 5, none, false⟩, .unknown⟩
  context := ⟨"IRR", "RIAL", 1, 1⟩

theorem derive_price (hash : Hashing) (ids : PackageIds) (known : Option Id) (value : ℚ) :
    ∃ final, derive hash ids false [plus "price" 1] (defined hash known).definitions
        [("cost", value)] = .ok final ∧
      final.definitions = [price hash (known.getD (ids.definition 0))] ∧
      final.definitionIds = [("price", known.getD (ids.definition 0))] ∧
      final.evaluations.map DerivedValueEvaluation.outcome =
        [(known.getD (ids.definition 0), (value + 1).num, (value + 1).den)] := by
  have hdag : validateDag [plus "price" 1] = .ok () := by rfl
  have horder : topologicalOrder [plus "price" 1] = ["price"] := by decide +kernel
  unfold derive
  rw [hdag, horder]
  cases known with
  | none => exact ⟨_, rfl, rfl, rfl, by simp [DerivedValueEvaluation.outcome]⟩
  | some id =>
    have hdefine : Derivation.define hash
        { definitions := [price hash id], results := [("cost", value)] } (plus "price" 1)
        [⟨.observation, "cost"⟩] (ids.definition 0) false = .ok ([price hash id], id) := by
      unfold Derivation.define
      simp only
      split
      · rename_i existing hfound
        rw [mem_singleton.mp (mem_of_find?_eq_some hfound)]
        rfl
      · rename_i hnone
        have hnone := find?_eq_none.mp hnone (price hash id) mem_cons_self
        exact absurd (decide_eq_true rfl) hnone
    have hevaluate : ∃ final, Derivation.evaluate hash ids false
          { definitions := [price hash id], results := [("cost", value)] } 0 "price"
          (plus "price" 1) = .ok final ∧
        final.definitions = [price hash id] ∧ final.definitionIds = [("price", id)] ∧
        final.evaluations.map DerivedValueEvaluation.outcome = [(id, (value + 1).num, (value + 1).den)] := by
      refine ⟨_, bind_eq_ok.mpr ⟨[(⟨.observation, "cost"⟩, value)], rfl,
        bind_eq_ok.mpr ⟨([price hash id], id), hdefine, rfl⟩⟩, rfl, rfl, ?_⟩
      simp [DerivedValueEvaluation.outcome]
    obtain ⟨final, hevaluate, hrest⟩ := hevaluate
    exact ⟨final, bind_eq_ok.mpr ⟨(), rfl, bind_eq_ok.mpr ⟨final, hevaluate, rfl⟩⟩, hrest⟩

/-- A call that pins the cost's observation, whatever its value. -/
theorem priced_stored (hash : Hashing) (ids : PackageIds) (known : Option Id) (value : ℚ)
    (hfits : fitsBigInteger (value + 1).num && fitsBigInteger (value + 1).den) :
    ∃ after result, createPackage hash .ascii ids (request value [plus "price" 1])
        (defined hash known) = .ok (after, result) ∧
      after.definitions = [price hash (known.getD (ids.definition 0))] ∧
      result.package.dependencyFingerprint = hash.json (fingerprintPayload single [selected 100] []
        [known.getD (ids.definition 0)]) ∧
      result.derivedEvaluations.map DerivedValueEvaluation.outcome =
        [(known.getD (ids.definition 0), (value + 1).num, (value + 1).den)] := by
  obtain ⟨final, hderive, hdefinitions, hids, houtcome⟩ := derive_price hash ids known value
  have haccepted : Accepted .ascii ids (request value [plus "price" 1]) (defined hash known)
      [selected value] .notApplicable [] :=
    ⟨by simp [request, defined, tables], rfl, rfl, rfl⟩
  have hids' : (final.evaluations.map DerivedValueEvaluation.definitionId).Nodup := by
    have h := congrArg (map Prod.fst) houtcome
    rw [map_map] at h
    have hone : final.evaluations.map DerivedValueEvaluation.definitionId =
      [known.getD (ids.definition 0)] := h
    rw [hone]
    exact nodup_singleton _
  have hrange : final.evaluations.all DerivedValueEvaluation.fits = true := by
    have hall : (final.evaluations.map DerivedValueEvaluation.outcome).all
        (fun o => fitsBigInteger o.2.1 && fitsBigInteger o.2.2) = true := by
      rw [houtcome]
      simpa using hfits
    rw [all_map] at hall
    exact hall
  have hreturns : ∃ stored, createPackage hash .ascii ids (request value [plus "price" 1])
      (defined hash known) = .ok stored :=
    createPackage_returns haccepted hderive rfl hids' hrange
  obtain ⟨⟨after, result⟩, hstored⟩ := hreturns
  obtain ⟨final', hderive', -, -, -, hafter, -, hresult, hfingerprint⟩ :=
    createPackage_ok haccepted hstored
  obtain rfl := Except.ok.inj (hderive.symm.trans hderive')
  refine ⟨after, result, hstored, hafter.trans hdefinitions, ?_, by rw [hresult, houtcome]⟩
  rw [hfingerprint, hids]
  rfl

/-- The ids of a later call. -/
def later : PackageIds :=
  { ids with definition := fun n => Json.tally (n + 1) }

theorem later_unused (hash : Hashing) : later.Unused (defined hash (some (ids.definition 0))).definitions where
  inj := fun a b h => by
    have := Json.tally_injective h
    omega
  new := by
    intro n hmem
    have hid : Json.tally (n + 1) = Json.tally 0 := by
      simpa [defined, price, later, ids] using hmem
    have := Json.tally_injective hid
    omega

theorem price_registered (hash : Hashing) (known : Option Id) :
    Registered hash (defined hash known).definitions := by
  constructor
  · cases known <;> simp [defined]
  intro d hd
  cases known with
  | none => cases hd
  | some id => rw [mem_singleton.mp hd, price]

/-- The price is stored for a cost, and again when the cost has another value. -/
theorem priced_replayed (hash : Hashing) (value value' : ℚ)
    (hfits : fitsBigInteger (value + 1).num && fitsBigInteger (value + 1).den)
    (hfits' : fitsBigInteger (value' + 1).num && fitsBigInteger (value' + 1).den) :
    ∃ after result after' result', Replayed hash .ascii ids later (request value [plus "price" 1])
        (request value' [plus "price" 1]) tables after
        (defined hash (some (ids.definition 0))) after' result result' ∧
      result.derivedEvaluations.map DerivedValueEvaluation.outcome =
        [(ids.definition 0, (value + 1).num, (value + 1).den)] ∧
      result'.derivedEvaluations.map DerivedValueEvaluation.outcome =
        [(ids.definition 0, (value' + 1).num, (value' + 1).den)] := by
  obtain ⟨after, result, hfirst, hafter, hfingerprint, houtcome⟩ :=
    priced_stored hash ids none value hfits
  obtain ⟨after', result', hsecond, -, hfingerprint', houtcome'⟩ :=
    priced_stored hash later (some (ids.definition 0)) value' hfits'
  refine ⟨after, result, after', result', ?_, houtcome, houtcome'⟩
  exact {
    first := hfirst
    second := hsecond
    unused := ids_unused
    unused' := later_unused hash
    registered := registered hash
    registered' := price_registered hash _
    kept := ⟨[], by rw [hafter]; rfl⟩
    fingerprint := by rw [hfingerprint, hfingerprint']; rfl }

end Sample

open Sample

theorem interchangeable_self (request : PackageRequest) : Interchangeable request request := by
  intro key draft values values' _ hread hread'
  have hown : Forall₂ (RefDenotes request) draft.dependencies values' := hread'
  rw [forall₂_right_unique (R := RefDenotes request) (fun _ _ _ => RefDenotes.unique) hread hown]

theorem replay_deterministic_single :
    ∃ after result after' result', Replayed exactHashing .ascii ids later single
        single tables after
        (defined exactHashing (some (ids.definition 0))) after' result result' ∧
      (result.derivedEvaluations.map DerivedValueEvaluation.outcome).Perm
        (result'.derivedEvaluations.map DerivedValueEvaluation.outcome) := by
  obtain ⟨after, result, after', result', h, -⟩ :=
    priced_replayed exactHashing 100 100 (by decide +kernel) (by decide +kernel)
  refine ⟨after, result, after', result', h, ?_⟩
  exact (replay_deterministic exactHashing_injective h single_unambiguous.toUnshadowed
    single_unambiguous.toUnshadowed).mpr (interchangeable_self _)

/-- One fingerprint stands for the price of a cost of 100 and for that of a cost of 200. -/
theorem replay_unpinned : ¬ ∀ ids ids' request request' tables after tables' after' result result',
      Replayed exactHashing .ascii ids ids' request request' tables after tables' after' result
        result' →
      (result.derivedEvaluations.map DerivedValueEvaluation.outcome).Perm
        (result'.derivedEvaluations.map DerivedValueEvaluation.outcome) := by
  intro hclaim
  obtain ⟨after, result, after', result', h, houtcome, houtcome'⟩ :=
    priced_replayed exactHashing 100 200 (by decide +kernel) (by decide +kernel)
  have hperm := hclaim _ _ _ _ _ _ _ _ _ _ h
  rw [houtcome, houtcome', singleton_perm_singleton, Prod.mk.injEq, Prod.mk.injEq] at hperm
  exact absurd hperm.2.1 (by decide +kernel)

end FlowHub.PricingEvaluation
