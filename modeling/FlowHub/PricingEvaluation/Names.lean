import FlowHub.PricingEvaluation.Denotation

namespace FlowHub.PricingEvaluation

open Txn Python List Except

section Leaves

theorem selectSources_requirements (h : selectSources u now position roles requirements = .ok selected) :
    selected.map SelectedSource.requirement = requirements := by
  induction requirements generalizing position roles selected with
  | nil =>
    cases h
    rfl
  | cons requirement rest ih =>
    unfold selectSources at h
    obtain ⟨_, -, h⟩ := bind_eq_ok.mp h
    obtain ⟨context, -, h⟩ := bind_eq_ok.mp h
    split at h
    · cases h
    obtain ⟨result, -, h⟩ := bind_eq_ok.mp h
    obtain ⟨more, hmore, h⟩ := bind_eq_ok.mp h
    cases h
    rw [map_cons, ih hmore]

theorem pinManualInputs_requirements {keys : List String}
    (h : pinManualInputs tables request keys requirements = .ok pinned) :
    pinned.map PinnedManualInput.requirement = requirements := by
  induction requirements generalizing keys pinned with
  | nil =>
    cases h
    rfl
  | cons requirement rest ih =>
    unfold pinManualInputs at h
    obtain ⟨_, -, h⟩ := bind_eq_ok.mp h
    obtain ⟨first, hfirst, h⟩ := bind_eq_ok.mp h
    obtain ⟨more, hmore, h⟩ := bind_eq_ok.mp h
    cases h
    have hown : first.requirement = requirement := by
      unfold pinManualInput at hfirst
      split at hfirst
      · cases hfirst
      obtain ⟨_, -, hfirst⟩ := bind_eq_ok.mp hfirst
      obtain ⟨_, -, hfirst⟩ := bind_eq_ok.mp hfirst
      obtain ⟨_, -, hfirst⟩ := bind_eq_ok.mp hfirst
      obtain ⟨decision, -, hfirst⟩ := bind_eq_ok.mp hfirst
      cases hfirst
      rfl
    rw [map_cons, ih hmore, hown]

variable {sources : List SelectedSource} {manual : List PinnedManualInput}

theorem Accepted.selected (h : Accepted u ids request tables sources skew manual) :
    selectSources u request.now 0 [] request.sourceRequirements = .ok sources := by
  have hsources := h.sources
  unfold pinSources at hsources
  obtain ⟨selected, hselected, hsources⟩ := bind_eq_ok.mp hsources
  obtain ⟨_, -, hsources⟩ := bind_eq_ok.mp hsources
  cases hsources
  exact hselected

/-- The dictionary starts with the manual inputs over the sources. -/
theorem Accepted.leaves (h : Accepted u ids request tables sources skew manual) (name : String) :
    (leafValues sources manual).lookup name = (request.manual name).or (request.source name) := by
  have hsources := selectSources_requirements h.selected
  have hmanual := pinManualInputs_requirements h.manual
  unfold leafValues PackageRequest.manual PackageRequest.source
  rw [lookup_append, ← hsources, ← hmanual, map_map, map_map]
  rfl

theorem Accepted.revisionsClash (h : Accepted u ids request tables sources skew manual) :
    revisionsClash manual = false ↔ (request.manualInputRequirements.map
      ManualInputRequirement.manualInputRevisionId).Nodup := by
  have hmanual := pinManualInputs_requirements h.manual
  unfold FlowHub.PricingEvaluation.revisionsClash
  rw [← hmanual, map_map, decide_eq_false_iff_not, not_not]
  rfl

end Leaves

variable {hash : Hashing} {request : PackageRequest} {leaves : List (String × ℚ)}

theorem definitionPayload_inj
    (h : definitionPayload operator parameters refs = definitionPayload operator' parameters' refs') :
    operator = operator' ∧ parameters = parameters' ∧ refs = refs' := by
  simp only [definitionPayload, Json.obj.injEq, cons.injEq, Prod.mk.injEq, true_and, and_true,
    Json.arr.injEq, Json.str.injEq] at h
  obtain ⟨hrefs, hoperator, hparameters⟩ := h
  have hjson : Function.Injective ResolvedRef.json := by
    rintro ⟨kind, key⟩ ⟨kind', key'⟩ hjson
    simp only [ResolvedRef.json, Json.obj.injEq, cons.injEq, Prod.mk.injEq, true_and, and_true,
      Json.str.injEq] at hjson
    obtain ⟨rfl, hkind⟩ := hjson
    cases kind <;> cases kind' <;> first | rfl | simp [DependencyRefKind.value] at hkind
  refine ⟨?_, hparameters, map_injective_iff.mpr hjson hrefs⟩
  cases operator <;> cases operator' <;> first | rfl | simp [DerivedOperator.value] at hoperator

theorem definitionFor_checksum (h : definitionFor definitions checksum = some d) :
    d ∈ definitions ∧ d.checksum = checksum := by
  unfold definitionFor at h
  exact ⟨mem_of_find?_eq_some h, by simpa using find?_some h⟩

/-- References that resolve alike are alike where their ids tell their keys. -/
theorem map_resolve_inj {definitionIds : List (String × Id)} {refs refs' : List DependencyRef}
    (hids : ∀ r ∈ refs, r.kind = .derived → ∀ s ∈ refs', s.kind = .derived →
      (definitionIds.lookup r.key).getD "" = (definitionIds.lookup s.key).getD "" → r.key = s.key)
    (h : refs.map (resolve definitionIds) = refs'.map (resolve definitionIds)) : refs = refs' := by
  induction refs generalizing refs' with
  | nil =>
    rw [map_nil, eq_comm, map_eq_nil_iff] at h
    exact h.symm
  | cons r refs ih =>
    cases refs' with
    | nil => simp at h
    | cons s refs' =>
      rw [map_cons, map_cons, cons.injEq] at h
      obtain ⟨hhead, htail⟩ := h
      have hrest := ih (fun a ha hk b hb hk' => hids a (mem_cons_of_mem _ ha) hk b
        (mem_cons_of_mem _ hb) hk') htail
      have hfirst := hids r mem_cons_self
      obtain ⟨kind, key⟩ := r
      obtain ⟨kind', key'⟩ := s
      cases kind <;> cases kind' <;> simp [resolve] at hhead
      · rw [hhead, hrest]
      · rw [hhead, hrest]
      · have hkey := hfirst rfl _ mem_cons_self rfl hhead
        simp only at hkey
        rw [hkey, hrest]

variable {rows : List DerivedValueEvaluation} {drafts : List DefinitionDraft}
  {before keys : List String} {draft : DefinitionDraft} {ref : DependencyRef} {value : ℚ}

/-- The row of a definition carries its content. -/
theorem Evaluated.content {before : List String} {key : String} {row : DerivedValueEvaluation}
    {result : ℚ} (h : Evaluated hash drafts leaves final before key row draft result)
    (hinj : Function.Injective hash.json) (hfinal : Registered hash final.definitions) :
    ∃ d ∈ final.definitions, d.id = row.definitionId ∧ d.operator = draft.operator ∧
      d.parameters = draft.parameters ∧ d.dependencyRefs = row.refs := by
  obtain ⟨d, hd, hid⟩ := h.definition
  obtain ⟨hmem, hchecksum⟩ := definitionFor_checksum hd
  have hcontent := hinj ((hfinal.checksums d hmem).symm.trans hchecksum)
  obtain ⟨hoperator, hparameters, hrefs⟩ := definitionPayload_inj hcontent
  exact ⟨d, hmem, hid, hoperator, hparameters, hrefs⟩

/-- What a reference reads is what it denotes. -/
theorem visible_denotes (hnames : Unshadowed request)
    (hleaves : ∀ name, leaves.lookup name = (request.manual name).or (request.source name))
    (hturn : Turn request before draft)
    (href : ref ∈ draft.dependencies) (hderived : ref.kind = .derived → ref.key ∈ before)
    (hdone : ∀ name ∈ before, ∃ v, results.lookup name = some v ∧ Denotes request name v)
    (h : visible results leaves before ref.key = some value) : RefDenotes request ref value := by
  unfold visible at h
  unfold RefDenotes
  by_cases hmem : ref.key ∈ before
  · rw [if_pos hmem] at h
    obtain ⟨v, hv, hdenotes⟩ := hdone ref.key hmem
    cases hv.symm.trans h
    cases hkind : ref.kind with
    | observation =>
      exact (hnames.observations _ _ hturn ref href hkind).1 hmem _ hdenotes
    | manualInput =>
      exact (hnames.manualInputs _ _ hturn ref href hkind).1 hmem _ hdenotes
    | derived => exact hdenotes
  · rw [if_neg hmem, hleaves] at h
    cases hkind : ref.kind with
    | observation =>
      cases hmanual : request.manual ref.key with
      | none => simpa [hmanual] using h
      | some v =>
        simp only [hmanual, Option.some_or, Option.some.injEq] at h
        subst h
        exact (hnames.observations _ _ hturn ref href hkind).2 hmem _ hmanual
    | manualInput =>
      cases hmanual : request.manual ref.key with
      | none =>
        have hsource := (hnames.manualInputs _ _ hturn ref href hkind).2 hmem hmanual
        simp [hmanual, hsource] at h
      | some v => simpa [hmanual] using h
    | derived => exact absurd (hderived hkind) hmem

/-- Names of their own make every row that of its denotation. -/
theorem trace_rows (hnames : Unshadowed request)
    (hbounded : DepthFirst.Bounded (derivedEdges request.derivedDefinitions) derivedMaxDepth)
    (hinj : Function.Injective hash.json)
    (hfinal : Registered hash final.definitions)
    (hleaves : ∀ name, leaves.lookup name = (request.manual name).or (request.source name))
    (horder : topologicalOrder request.derivedDefinitions = before ++ keys)
    (htrace : Trace hash request.derivedDefinitions leaves final before keys rows)
    (hdone : ∀ name ∈ before, ∃ v, final.results.lookup name = some v ∧ Denotes request name v) :
    Forall₂ (RowOf request final.definitions) keys rows ∧ ∀ name ∈ keys, ∃ v, Denotes request name v := by
  induction htrace with
  | nil => exact ⟨.nil, by simp⟩
  | @cons before keys key row rows draft result hrow _ ih =>
    have hturn : Turn request before draft := by
      refine ⟨hbounded, ⟨key, keys, horder, hrow.found⟩, ?_⟩
      intro name hname
      obtain ⟨v, -, hv⟩ := hdone name hname
      exact ⟨v, hv⟩
    have hrefs : Forall₂ (RefDenotes request) draft.dependencies row.values :=
      (forall₂_and_left _ _).mpr ⟨fun _ h => h, hrow.values⟩ |>.imp fun ref value h =>
        visible_denotes hnames hleaves hturn h.1 (hrow.derived ref h.1) hdone h.2
    have hkey : Denotes request key result :=
      denotes_iff.mpr ⟨draft, row.values, hrow.found, hrefs, hrow.computed⟩
    have hnext : ∀ name ∈ before ++ [key],
        ∃ v, final.results.lookup name = some v ∧ Denotes request name v := by
      intro name hname
      rcases mem_append.mp hname with hold | hlast
      · exact hdone name hold
      · rw [mem_singleton.mp hlast]
        exact ⟨result, hrow.stored, hkey⟩
    obtain ⟨hrest, hall⟩ := ih (by rw [horder]; simp) hnext
    obtain ⟨d, hd, hid, hoperator, hparameters, -⟩ := hrow.content hinj hfinal
    refine ⟨.cons ⟨draft, result, hrow.found, hrefs, hrow.computed, hrow.numerator,
      hrow.denominator, d, hd, hid, hoperator, hparameters⟩ hrest, ?_⟩
    intro name hname
    rcases mem_cons.mp hname with rfl | hmem
    · exact ⟨result, hkey⟩
    · exact hall name hmem

/-- A value read that denotes says that the name is not another one's. -/
theorem denotes_visible
    (hleaves : ∀ name, leaves.lookup name = (request.manual name).or (request.source name))
    (hdone : ∀ name ∈ before, ∃ v, results.lookup name = some v ∧ Denotes request name v)
    (hvisible : visible results leaves before ref.key = some value)
    (hdenotes : RefDenotes request ref value) : (ref.kind = .observation →
      (ref.key ∈ before → ∀ v, Denotes request ref.key v → request.source ref.key = some v) ∧
      (ref.key ∉ before → ∀ v, request.manual ref.key = some v → request.source ref.key = some v)) ∧
    (ref.kind = .manualInput →
      (ref.key ∈ before → ∀ v, Denotes request ref.key v → request.manual ref.key = some v) ∧
      (ref.key ∉ before → request.manual ref.key = none → request.source ref.key = none)) := by
  unfold RefDenotes at hdenotes
  unfold visible at hvisible
  have hbefore : ref.key ∈ before → ∀ v, Denotes request ref.key v → v = value := by
    intro hmem v hv
    obtain ⟨w, hw, hown⟩ := hdone ref.key hmem
    rw [if_pos hmem, hw, Option.some.injEq] at hvisible
    exact (hv.unique hown).trans hvisible
  constructor
  · intro hkind
    rw [hkind] at hdenotes
    refine ⟨fun hmem v hv => hbefore hmem v hv ▸ hdenotes, ?_⟩
    intro hmem v hv
    rw [if_neg hmem, hleaves, hv, Option.some_or] at hvisible
    exact hvisible ▸ hdenotes
  · intro hkind
    rw [hkind] at hdenotes
    refine ⟨fun hmem v hv => hbefore hmem v hv ▸ hdenotes, ?_⟩
    intro _ hnone
    simp [hnone] at hdenotes

/-- Rows that are those of their denotations have read what the names denote. -/
theorem trace_names (htrace : Trace hash request.derivedDefinitions leaves final before keys rows)
    (hrows : Forall₂ (RowOf request final.definitions) keys rows)
    (hdone : ∀ name ∈ before, ∃ v, final.results.lookup name = some v ∧ Denotes request name v) :
    ∀ middle key after draft ref, keys = middle ++ key :: after →
      draftByKey request.derivedDefinitions key = some draft → ref ∈ draft.dependencies →
      ∃ results value, (∀ name ∈ before ++ middle, ∃ v, results.lookup name = some v ∧
          Denotes request name v) ∧
        visible results leaves (before ++ middle) ref.key = some value ∧
        RefDenotes request ref value := by
  induction htrace with
  | nil =>
    intro middle key after draft ref heq
    simp at heq
  | @cons before keys key row rows draft result hrow _ ih =>
    obtain ⟨⟨draft', value, hdraft', hrefs, hcomputed, -⟩, hrest⟩ := forall₂_cons.mp hrows
    have hkey : Denotes request key value := denotes_iff.mpr ⟨_, _, hdraft', hrefs, hcomputed⟩
    rw [hrow.found, Option.some.injEq] at hdraft'
    subst hdraft'
    have hresult : result = value := ok.inj (hrow.computed.symm.trans hcomputed)
    have hnext : ∀ name ∈ before ++ [key],
        ∃ v, final.results.lookup name = some v ∧ Denotes request name v := by
      intro name hname
      rcases mem_append.mp hname with hold | hlast
      · exact hdone name hold
      · rw [mem_singleton.mp hlast]
        exact ⟨result, hrow.stored, hresult ▸ hkey⟩
    intro middle other after draft' ref heq hother href
    cases middle with
    | nil =>
      obtain ⟨rfl, rfl⟩ := cons.inj heq
      rw [hrow.found, Option.some.injEq] at hother
      subst hother
      have hboth : Forall₂ (fun ref value =>
          visible final.results leaves before ref.key = some value ∧
          RefDenotes request ref value) draft.dependencies row.values :=
        forall₂_and hrow.values hrefs
      obtain ⟨v, hv, hdenotes⟩ := forall₂_right hboth href
      exact ⟨final.results, v, by simpa using hdone, by simpa using hv, hdenotes⟩
    | cons first middle =>
      obtain ⟨rfl, rfl⟩ := cons.inj heq
      simpa using ih hrest hnext middle other after draft' ref rfl hother href

/-- Different definitions have different ids. -/
theorem trace_ids (hinj : Function.Injective hash.json) (hfinal : Registered hash final.definitions)
    (hcontents : ∀ key key' draft draft', draftByKey drafts key = some draft →
      draftByKey drafts key' = some draft' → draft.operator = draft'.operator →
      draft.parameters = draft'.parameters → draft.dependencies = draft'.dependencies → key = key')
    (htrace : Trace hash drafts leaves final before keys rows)
    (hdone : ∀ name ∈ before, ∃ earlier row draft result, (∀ n ∈ earlier, n ∈ before) ∧
      Evaluated hash drafts leaves final earlier name row draft result)
    (hbefore : ∀ a ∈ before, ∀ b ∈ before,
      final.definitionIds.lookup a = final.definitionIds.lookup b → a = b) :
    ∀ a ∈ before ++ keys, ∀ b ∈ before ++ keys,
      final.definitionIds.lookup a = final.definitionIds.lookup b → a = b := by
  induction htrace with
  | nil => simpa using hbefore
  | @cons before keys key row rows draft result hrow _ ih =>
    -- a definition with the id of a later one has its content
    have hsame : ∀ a ∈ before, final.definitionIds.lookup a = final.definitionIds.lookup key → a = key := by
      intro a ha hids
      obtain ⟨earlier, row', draft', result', hsub, hrow'⟩ := hdone a ha
      rw [hrow'.definitionId, hrow.definitionId, Option.some.injEq] at hids
      obtain ⟨d, hd, hid, hoperator, hparameters, hrefs⟩ := hrow.content hinj hfinal
      obtain ⟨d', hd', hid', hoperator', hparameters', hrefs'⟩ := hrow'.content hinj hfinal
      have hdefinition : d' = d := inj_on_of_nodup_map hfinal.ids hd' hd
        (hid'.trans (hids.trans hid.symm))
      subst hdefinition
      have hresolved := hrefs'.symm.trans hrefs
      rw [hrow.refs, hrow'.refs] at hresolved
      refine hcontents a key draft' draft hrow'.found hrow.found (hoperator'.symm.trans hoperator)
        (hparameters'.symm.trans hparameters) ?_
      refine map_resolve_inj ?_ hresolved
      intro r hr hkind s hs hkind'
      have hin := hsub _ (hrow'.derived r hr hkind)
      have hin' := hrow.derived s hs hkind'
      intro hlookup
      apply hbefore r.key hin s.key hin'
      obtain ⟨_, _, _, _, -, hr'⟩ := hdone r.key hin
      obtain ⟨_, _, _, _, -, hs'⟩ := hdone s.key hin'
      rw [hr'.definitionId, hs'.definitionId] at hlookup ⊢
      simpa using hlookup
    have hnext := ih ?_ ?_
    · simpa using hnext
    · intro name hname
      rcases mem_append.mp hname with hold | hlast
      · obtain ⟨earlier, row', draft', result', hsub, hrow'⟩ := hdone name hold
        exact ⟨earlier, row', draft', result', fun n hn => mem_append_left _ (hsub n hn), hrow'⟩
      · rw [mem_singleton.mp hlast]
        exact ⟨before, row, draft, result, fun n hn => mem_append_left _ hn, hrow⟩
    · intro a ha b hb hids
      rcases mem_append.mp ha with ha | ha
      · rcases mem_append.mp hb with hb | hb
        · exact hbefore a ha b hb hids
        · rw [mem_singleton.mp hb] at hids ⊢
          exact hsame a ha hids
      · rcases mem_append.mp hb with hb | hb
        · rw [mem_singleton.mp ha] at hids ⊢
          exact (hsame b hb hids.symm).symm
        · rw [mem_singleton.mp ha, mem_singleton.mp hb]

/-- The ids of a call are new. -/
structure PackageIds.Unused (ids : PackageIds) (definitions : List DerivedValueDefinition) : Prop where
  inj : Function.Injective ids.definition
  new : ∀ n, ids.definition n ∉ definitions.map DerivedValueDefinition.id

theorem run_registered (hids : Function.Injective ids.definition) (hstate : Registered hash state.definitions)
    (hnew : ∀ n, index ≤ n → ids.definition n ∉ state.definitions.map DerivedValueDefinition.id)
    (h : Derivation.run hash ids clash drafts index keys state = .ok final) :
    Registered hash final.definitions := by
  induction keys generalizing index state with
  | nil =>
    cases h
    exact hstate
  | cons key keys ih =>
    simp only [Derivation.run] at h
    split at h
    · cases h
    rename_i draft hdraft
    obtain ⟨next, hnext, hrun⟩ := bind_eq_ok.mp h
    obtain ⟨inputs, definitionId, result, -, hdefine, -⟩ := evaluate_ok hnext
    obtain ⟨more, hmore, -, hregistered, hadded⟩ := define_ok hdefine
    refine ih (hregistered hstate (hnew index (Nat.le_refl _))) ?_ hrun
    intro n hn hmem
    rw [hmore, map_append] at hmem
    rcases mem_append.mp hmem with hold | hlast
    · exact hnew n (by omega) hold
    · obtain ⟨d, hd, hid⟩ := mem_map.mp hlast
      have := hids ((hadded d hd).symm.trans hid)
      omega

/-- A run in the middle whose definitions have the values they denote. -/
structure Denoting (request : PackageRequest) (leaves : List (String × ℚ)) (done : List String)
    (state : Derivation) : Prop extends Midway leaves done state where
  values : ∀ name ∈ done, ∃ v, state.results.lookup name = some v ∧ Denotes request name v
  defined : ∀ name ∈ done, (state.definitionIds.lookup name).isSome

theorem Denoting.read (hnames : Unshadowed request)
    (hleaves : ∀ name, leaves.lookup name = (request.manual name).or (request.source name))
    {done : List String} {state : Derivation} (hstate : Denoting request leaves done state)
    (hturn : Turn request done draft) (href : ref ∈ draft.dependencies) (hderived : ref.kind = .derived → ref.key ∈ done)
    (hvalue : RefDenotes request ref value) :
    ∃ input, state.read ref = .ok input ∧ input.2 = value := by
  have hlookup : state.results.lookup ref.key = visible state.results leaves done ref.key := by
    unfold visible
    by_cases hmem : ref.key ∈ done
    · rw [if_pos hmem]
    · rw [if_neg hmem, hstate.results ref.key hmem]
  have hsome : ∃ v, state.results.lookup ref.key = some v := by
    by_cases hmem : ref.key ∈ done
    · obtain ⟨v, hv, -⟩ := hstate.values ref.key hmem
      exact ⟨v, hv⟩
    rw [hstate.results ref.key hmem, hleaves]
    unfold RefDenotes at hvalue
    cases hmanual : request.manual ref.key with
    | some v => exact ⟨v, by simp⟩
    | none =>
      cases hkind : ref.kind with
      | observation =>
        rw [hkind] at hvalue
        exact ⟨value, by simpa using hvalue⟩
      | manualInput =>
        rw [hkind] at hvalue
        simp [hmanual] at hvalue
      | derived => exact absurd (hderived hkind) hmem
  obtain ⟨v, hv⟩ := hsome
  have hdenotes := visible_denotes hnames hleaves hturn href hderived hstate.values
    (hlookup ▸ hv)
  have hsame : v = value := hdenotes.unique hvalue
  subst hsame
  obtain ⟨kind, name⟩ := ref
  cases kind with
  | derived =>
    obtain ⟨definitionId, hid⟩ := Option.isSome_iff_exists.mp (hstate.defined name (hderived rfl))
    exact ⟨(⟨.derived, definitionId⟩, v), by simp [Derivation.read, hid, hv], rfl⟩
  | observation => exact ⟨(⟨.observation, name⟩, v), by simp [Derivation.read, hv], rfl⟩
  | manualInput => exact ⟨(⟨.manualInput, name⟩, v), by simp [Derivation.read, hv], rfl⟩

/-- With names of their own nothing that denotes is refused. -/
theorem run_returns (hnames : Unshadowed request) (hcomputable : Computable request)
    (hleaves : ∀ name, leaves.lookup name = (request.manual name).or (request.source name))
    {done : List String} {state : Derivation}
    (horder : topologicalOrder request.derivedDefinitions = done ++ keys)
    (hstate : Denoting request leaves done state) :
    ∃ final, Derivation.run hash ids false request.derivedDefinitions index keys state = .ok final := by
  induction keys generalizing index done state with
  | nil => exact ⟨state, rfl⟩
  | cons key keys ih =>
    obtain ⟨-, hall, hbehind⟩ := topologicalOrder_spec hcomputable.bounded
    have hkey : key ∈ draftKeys request.derivedDefinitions := by
      rw [← hall, horder]
      simp
    obtain ⟨result, hresult⟩ := hcomputable.denotes key hkey
    obtain ⟨draft, values, hdraft, hrefs, hcomputed⟩ := denotes_iff.mp hresult
    have hturn : Turn request done draft := by
      refine ⟨hcomputable.bounded, ⟨key, keys, horder, hdraft⟩, ?_⟩
      intro name hname
      obtain ⟨v, -, hv⟩ := hstate.values name hname
      exact ⟨v, hv⟩
    have hread : ∀ ref ∈ draft.dependencies, ∃ input, state.read ref = .ok input ∧
        RefDenotes request ref input.2 := by
      intro ref href
      obtain ⟨value, hvalue⟩ := forall₂_right hrefs href
      obtain ⟨input, hinput, hsame⟩ := hstate.read hnames hleaves hturn href
        (hbehind done key keys draft horder hdraft ref href) hvalue
      exact ⟨input, hinput, hsame ▸ hvalue⟩
    obtain ⟨inputs, hinputs, hdenoting⟩ := mapM_ok_iff.mpr hread
    have hvalues : inputs.map Prod.snd = values := by
      have hboth : Forall₂ (fun input value => input.2 = value) inputs values :=
        forall₂_unique (fun ref a b ha hb => ha.unique hb) hdenoting hrefs
      simpa using forall₂_map_eq (g := id) hboth
    have hevaluate : ∃ next, state.evaluate hash ids false index key draft = .ok next :=
      evaluate_returns hinputs (hvalues ▸ hcomputed)
    obtain ⟨next, hnext⟩ := hevaluate
    obtain ⟨inputs', definitionId', result', hinputs', -, hcomputed', hids, hresults, -⟩ :=
      evaluate_ok hnext
    have hinputsEq : inputs' = inputs := by
      rw [← mapM_ok, hinputs, ok.injEq] at hinputs'
      exact hinputs'.symm
    subst hinputsEq
    rw [hvalues, hcomputed, ok.injEq] at hcomputed'
    subst hcomputed'
    have hmid := hstate.toMidway.next hids hresults
    have hfound : ∀ name ∈ done, (name == key) = false := by
      intro name hname
      obtain ⟨hnodup, -⟩ := topologicalOrder_spec hcomputable.bounded
      rw [horder, nodup_append] at hnodup
      simpa using hnodup.2.2 name hname key mem_cons_self
    have hdenotes : Denoting request leaves (done ++ [key]) next := by
      refine ⟨hmid, ?_, ?_⟩
      · intro name hname
        rw [hresults]
        rcases mem_append.mp hname with hold | hlast
        · rw [lookup_cons, hfound name hold]
          exact hstate.values name hold
        · rw [mem_singleton.mp hlast]
          exact ⟨result, by simp, hresult⟩
      · intro name hname
        rw [hids]
        rcases mem_append.mp hname with hold | hlast
        · rw [lookup_cons, hfound name hold]
          exact hstate.defined name hold
        · rw [mem_singleton.mp hlast]
          simp
    obtain ⟨final, hfinal⟩ := @ih (index + 1) (done ++ [key]) next (by rw [horder]; simp) hdenotes
    refine ⟨final, ?_⟩
    simp only [Derivation.run, hdraft]
    exact bind_eq_ok.mpr ⟨next, hnext, hfinal⟩

end FlowHub.PricingEvaluation
