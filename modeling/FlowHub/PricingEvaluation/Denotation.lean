import FlowHub.PricingEvaluation.Evaluation

namespace FlowHub.PricingEvaluation

open Txn Python List Option

def PackageRequest.source (request : PackageRequest) (role : String) : Option ℚ :=
  (request.sourceRequirements.map fun r => (r.sourceRole, r.value)).lookup role

def PackageRequest.manual (request : PackageRequest) (key : String) : Option ℚ :=
  (request.manualInputRequirements.map fun r => (r.key, r.value)).lookup key

/-- The value of the definition with a key: its operator on what its references name. -/
inductive Denotes (request : PackageRequest) : String → ℚ → Prop where
  | intro {key : String} {draft : DefinitionDraft} {result : ℚ} (value : DependencyRef → ℚ) :
      draftByKey request.derivedDefinitions key = some draft →
      (∀ ref ∈ draft.dependencies, ref.kind = .observation → request.source ref.key = some (value ref)) →
      (∀ ref ∈ draft.dependencies, ref.kind = .manualInput → request.manual ref.key = some (value ref)) →
      (∀ ref ∈ draft.dependencies, ref.kind = .derived → Denotes request ref.key (value ref)) →
      evaluateOperator draft.operator draft.parameters (draft.dependencies.map value) = .ok result →
      Denotes request key result

def RefDenotes (request : PackageRequest) (ref : DependencyRef) (value : ℚ) : Prop :=
  match ref.kind with
  | .observation => request.source ref.key = some value
  | .manualInput => request.manual ref.key = some value
  | .derived => Denotes request ref.key value

variable {request : PackageRequest}

variable {drafts : List DefinitionDraft} {key : String}

theorem Denotes.unique (ha : Denotes request key a) (hb : Denotes request key b) : a = b := by
  induction ha generalizing b with
  | @intro key draft result value hdraft hobservation hmanual _ hcomputed ih =>
    cases hb with
    | intro value' hdraft' hobservation' hmanual' hderived' hcomputed' =>
      rw [hdraft, some.injEq] at hdraft'
      subst hdraft'
      have hsame : ∀ ref ∈ draft.dependencies, value ref = value' ref := by
        intro ref hmem
        cases hkind : ref.kind with
        | observation =>
          have := (hobservation ref hmem hkind).symm.trans (hobservation' ref hmem hkind)
          exact some.inj this
        | manualInput =>
          have := (hmanual ref hmem hkind).symm.trans (hmanual' ref hmem hkind)
          exact some.inj this
        | derived => exact ih ref hmem hkind (hderived' ref hmem hkind)
      rw [map_congr_left hsame] at hcomputed
      exact Except.ok.inj (hcomputed.symm.trans hcomputed')

theorem RefDenotes.unique (ha : RefDenotes request ref a) (hb : RefDenotes request ref b) : a = b := by
  obtain ⟨kind, key⟩ := ref
  cases kind with
  | observation => exact some.inj (ha.symm.trans hb)
  | manualInput => exact some.inj (ha.symm.trans hb)
  | derived => exact Denotes.unique ha hb

theorem denotes_iff : Denotes request key result ↔ ∃ draft values,
      draftByKey request.derivedDefinitions key = some draft ∧
      Forall₂ (RefDenotes request) draft.dependencies values ∧
      evaluateOperator draft.operator draft.parameters values = .ok result := by
  constructor
  · rintro ⟨value, hdraft, hobservation, hmanual, hderived, hcomputed⟩
    refine ⟨_, _, hdraft, ?_, hcomputed⟩
    rw [forall₂_map_right_iff, forall₂_same]
    intro ref hmem
    unfold RefDenotes
    cases hkind : ref.kind with
    | observation => exact hobservation ref hmem hkind
    | manualInput => exact hmanual ref hmem hkind
    | derived => exact hderived ref hmem hkind
  · rintro ⟨draft, values, hdraft, hrefs, hcomputed⟩
    have hall : ∀ ref, ∃ v, ref ∈ draft.dependencies → RefDenotes request ref v := by
      intro ref
      by_cases hmem : ref ∈ draft.dependencies
      · obtain ⟨v, hv⟩ := forall₂_right hrefs hmem
        exact ⟨v, fun _ => hv⟩
      · exact ⟨0, fun h => absurd h hmem⟩
    obtain ⟨value, hvalue⟩ := Classical.axiomOfChoice hall
    have hvalues : draft.dependencies.map value = values := by
      have heq := (forall₂_and_left _ _).mpr ⟨hvalue, hrefs⟩ |>.imp
        fun ref v h => h.1.unique h.2
      simpa using forall₂_map_eq (g := id) heq
    refine .intro value hdraft ?_ ?_ ?_ (hvalues ▸ hcomputed)
    · intro ref hmem hkind
      have := hvalue ref hmem
      rwa [RefDenotes, hkind] at this
    · intro ref hmem hkind
      have := hvalue ref hmem
      rwa [RefDenotes, hkind] at this
    · intro ref hmem hkind
      have := hvalue ref hmem
      rwa [RefDenotes, hkind] at this

/-- Nothing the definitions need is missing, cyclic, too deep or invalid. -/
structure Computable (request : PackageRequest) : Prop where
  bounded : DepthFirst.Bounded (derivedEdges request.derivedDefinitions) derivedMaxDepth
  denotes : ∀ key ∈ draftKeys request.derivedDefinitions, ∃ value, Denotes request key value

/-- The row of a definition: its content, the values it read and the value it has. -/
def RowOf (request : PackageRequest) (definitions : List DerivedValueDefinition) (key : String)
    (row : DerivedValueEvaluation) : Prop :=
  ∃ draft value, draftByKey request.derivedDefinitions key = some draft ∧
    List.Forall₂ (RefDenotes request) draft.dependencies row.values ∧
    evaluateOperator draft.operator draft.parameters row.values = .ok value ∧
    row.resultNumerator = value.num ∧ row.resultDenominator = value.den ∧
    ∃ d ∈ definitions, d.id = row.definitionId ∧ d.operator = draft.operator ∧ d.parameters = draft.parameters

structure Exact (request : PackageRequest) (definitions : List DerivedValueDefinition)
    (rows : List DerivedValueEvaluation) : Prop where
  kept : ∀ draft ∈ request.derivedDefinitions,
    draftByKey request.derivedDefinitions draft.definitionKey = some draft
  once : (topologicalOrder request.derivedDefinitions).Nodup
  all : ∀ draft ∈ request.derivedDefinitions,
    draft.definitionKey ∈ topologicalOrder request.derivedDefinitions
  rows : List.Forall₂ (RowOf request definitions) (topologicalOrder request.derivedDefinitions) rows

/-- The Channel, the Sources and the manual inputs of a call are accepted, and so is its price. -/
structure Accepted (u : Unicode) (ids : PackageIds) (request : PackageRequest) (tables : Tables)
    (sources : List SelectedSource) (skew : SkewResult) (manual : List PinnedManualInput) : Prop where
  channel : request.channelId ∈ tables.channels
  sources : pinSources u request = .ok (sources, skew)
  manual : pinManualInputs tables request [] request.manualInputRequirements = .ok manual
  override : (priceOverride ids request).all PackagePriceOverride.fits = true

def Usable (u : Unicode) (ids : PackageIds) (request : PackageRequest) (tables : Tables) : Prop :=
  ∃ sources skew manual, Accepted u ids request tables sources skew manual

/-- A call stores the denotations, or raises where there are none. -/
def StoresDenotations (hash : Hashing) (u : Unicode) (ids : PackageIds) (request : PackageRequest)
    (tables : Tables) : Prop :=
  match createPackage hash u ids request tables with
  | .ok (tables', result) => Exact request tables'.definitions result.derivedEvaluations ∧
      tables'.evaluations = tables.evaluations ++ result.derivedEvaluations
  | .error _ => ¬ (Usable u ids request tables ∧ Computable request)

/-- A definition in whose turn those before it have their values. -/
structure Turn (request : PackageRequest) (before : List String) (draft : DefinitionDraft) : Prop where
  bounded : DepthFirst.Bounded (derivedEdges request.derivedDefinitions) derivedMaxDepth
  order : ∃ key after, topologicalOrder request.derivedDefinitions = before ++ key :: after ∧
    draftByKey request.derivedDefinitions key = some draft
  denotes : ∀ name ∈ before, ∃ value, Denotes request name value

/-- No name that a definition reads in its turn is also that of something with another value. -/
structure Unshadowed (request : PackageRequest) : Prop where
  observations : ∀ before draft, Turn request before draft → ∀ ref ∈ draft.dependencies,
    ref.kind = .observation →
    (ref.key ∈ before → ∀ value, Denotes request ref.key value → request.source ref.key = some value) ∧
    (ref.key ∉ before → ∀ value, request.manual ref.key = some value → request.source ref.key = some value)
  manualInputs : ∀ before draft, Turn request before draft → ∀ ref ∈ draft.dependencies,
    ref.kind = .manualInput →
    (ref.key ∈ before → ∀ value, Denotes request ref.key value → request.manual ref.key = some value) ∧
    (ref.key ∉ before → request.manual ref.key = none → request.source ref.key = none)

/-- And of definitions that all have values no two share a key or a content, no two manual inputs
share a revision, and the values fit their columns. -/
structure Unambiguous (request : PackageRequest) : Prop extends Unshadowed request where
  keys : Computable request → ∀ draft ∈ request.derivedDefinitions,
    draftByKey request.derivedDefinitions draft.definitionKey = some draft
  contents : Computable request → ∀ key key' draft draft',
    draftByKey request.derivedDefinitions key = some draft →
    draftByKey request.derivedDefinitions key' = some draft' → draft.operator = draft'.operator →
    draft.parameters = draft'.parameters → draft.dependencies = draft'.dependencies → key = key'
  revisions : Computable request → (request.manualInputRequirements.map
    ManualInputRequirement.manualInputRevisionId).Nodup
  range : Computable request → ∀ key value, Denotes request key value →
    fitsBigInteger value.num ∧ fitsBigInteger value.den

theorem mem_draftKeys : key ∈ draftKeys drafts ↔ (draftByKey drafts key).isSome := by
  unfold draftKeys draftByKey
  rw [mem_eraseDups, find?_isSome]
  simp

theorem derivedEdges_isSome : (derivedEdges drafts key).isSome ↔ key ∈ draftKeys drafts := by
  rw [mem_draftKeys, derivedEdges, isSome_map]

theorem validateDag_iff :
    validateDag drafts = .ok () ↔ DepthFirst.Bounded (derivedEdges drafts) derivedMaxDepth := by
  rw [← DepthFirst.checkAll_iff fun key => derivedEdges_isSome, validateDag]
  cases DepthFirst.checkAll (derivedEdges drafts) derivedMaxDepth (draftKeys drafts) with
  | ok depths => simp
  | error fault => simp

/-- In a graph that passes, the order lists every key once, behind the keys it needs. -/
theorem topologicalOrder_spec (h : DepthFirst.Bounded (derivedEdges drafts) derivedMaxDepth) :
    (topologicalOrder drafts).Nodup ∧ (∀ key, key ∈ topologicalOrder drafts ↔ key ∈ draftKeys drafts) ∧
      ∀ before key after draft, topologicalOrder drafts = before ++ key :: after →
        draftByKey drafts key = some draft →
        ∀ ref ∈ draft.dependencies, ref.kind = .derived → ref.key ∈ before := by
  obtain ⟨rank, hrank⟩ := h.rank fun key => derivedEdges_isSome
  have hnext : ∀ key ∈ (draftKeys drafts).insertionSort (· ≤ ·), ∀ dep ∈ sortedDerivedKeys drafts key,
      dep ∈ (draftKeys drafts).insertionSort (· ≤ ·) ∧ rank dep < rank key := by
    intro key hkey dep hdep
    rw [mem_insertionSort] at hkey
    obtain ⟨draft, hdraft⟩ := isSome_iff_exists.mp (mem_draftKeys.mp hkey)
    rw [sortedDerivedKeys, mem_insertionSort, hdraft, map_some, getD_some] at hdep
    obtain ⟨hmem, hlower⟩ := hrank key draft.derivedKeys (by simp [derivedEdges, hdraft]) dep hdep
    exact ⟨mem_insertionSort _ |>.mpr hmem, hlower⟩
  obtain ⟨hnodup, hmem, hordered⟩ := DepthFirst.order_spec hnext
  refine ⟨hnodup, fun key => (hmem key).trans (mem_insertionSort _), ?_⟩
  intro before key after draft hsplit hdraft ref href hkind
  apply hordered before key after hsplit
  rw [sortedDerivedKeys, mem_insertionSort, hdraft, map_some, getD_some]
  exact mem_map.mpr ⟨ref, mem_filter.mpr ⟨href, by simp [hkind]⟩, rfl⟩

/-- One definition is built on another. -/
def Requires (drafts : List DefinitionDraft) (key dep : String) : Prop :=
  ∃ draft, draftByKey drafts key = some draft ∧
    ∃ ref ∈ draft.dependencies, ref.kind = .derived ∧ ref.key = dep

variable {dep : String}

theorem requires_iff :
    Requires drafts key dep ↔ ∃ deps, derivedEdges drafts key = some deps ∧ dep ∈ deps := by
  simp [Requires, derivedEdges, DefinitionDraft.derivedKeys, and_assoc]

theorem above_of_cycle (h : Relation.TransGen (Requires drafts) key dep) :
    DepthFirst.Above (derivedEdges drafts) key dep := by
  induction h with
  | single h =>
    obtain ⟨deps, hdeps, hdep⟩ := requires_iff.mp h
    exact .of_edge hdeps hdep
  | tail _ h ih =>
    obtain ⟨deps, hdeps, hdep⟩ := requires_iff.mp h
    exact ih.trans (.of_edge hdeps hdep)

/-- What cannot be derived: a definition that is not there, one that needs itself, or too long a
chain of them. -/
def Underivable (drafts : List DefinitionDraft) : Prop :=
  (∃ key dep, Requires drafts key dep ∧ draftByKey drafts dep = none) ∨
    (∃ key, Relation.TransGen (Requires drafts) key key) ∨
    ∃ key n, (draftByKey drafts key).isSome ∧ DepthFirst.Chain (derivedEdges drafts) key n ∧
      derivedMaxDepth < n

theorem bounded_iff : DepthFirst.Bounded (derivedEdges drafts) derivedMaxDepth ↔ ¬ Underivable drafts := by
  have hdefined : ∀ key, (derivedEdges drafts key).isSome = (draftByKey drafts key).isSome := by
    intro key
    rw [derivedEdges, isSome_map]
  constructor
  · rintro hbounded (⟨key, dep, hneeds, hnone⟩ | ⟨key, hcycle⟩ | ⟨key, n, hkey, hchain, hlong⟩)
    · obtain ⟨deps, hdeps, hdep⟩ := requires_iff.mp hneeds
      have hsome := hbounded.closed key deps hdeps dep hdep
      rw [hdefined, hnone] at hsome
      cases hsome
    · obtain ⟨_, ⟨draft, hdraft, -⟩, -⟩ := Relation.TransGen.head'_iff.mp hcycle
      refine (above_of_cycle hcycle).irrefl ?_ hbounded
      rw [hdefined, hdraft]
      rfl
    · have hshort := hbounded.chains key n ((hdefined key).trans hkey) hchain
      omega
  · intro h
    constructor
    · intro key deps hdeps dep hdep
      by_contra hnone
      rw [hdefined, Bool.not_eq_true, isSome_eq_false_iff, isNone_iff_eq_none] at hnone
      exact h (.inl ⟨key, dep, requires_iff.mpr ⟨deps, hdeps, hdep⟩, hnone⟩)
    · intro key n hkey hchain
      by_contra hlong
      exact h (.inr (.inr ⟨key, n, hdefined key ▸ hkey, hchain, by omega⟩))

theorem nodup_eraseDups (texts : List String) : texts.eraseDups.Nodup := by
  induction hlength : texts.length using Nat.strong_induction_on generalizing texts with
  | _ n ih =>
    cases texts with
    | nil => exact nodup_nil
    | cons text rest =>
      have hshort := length_filter_le (fun other => !other == text) rest
      rw [eraseDups_cons, nodup_cons]
      constructor
      · simp [mem_eraseDups]
      · exact ih _ (by rw [← hlength, length_cons]; omega) _ rfl

/-- The order of the drafts does not show. -/
theorem topologicalOrder_congr (same : ∀ key, draftByKey drafts' key = draftByKey drafts key) :
    topologicalOrder drafts' = topologicalOrder drafts := by
  have hnext : sortedDerivedKeys drafts' = sortedDerivedKeys drafts := by
    funext key
    simp [sortedDerivedKeys, same]
  have hperm : (draftKeys drafts').Perm (draftKeys drafts) := by
    apply (perm_ext_iff_of_nodup (nodup_eraseDups _) (nodup_eraseDups _)).mpr
    intro key
    exact mem_draftKeys.trans (same key ▸ mem_draftKeys.symm)
  have hkeys : (draftKeys drafts').insertionSort (· ≤ ·) = (draftKeys drafts).insertionSort (· ≤ ·) := by
    have htotal : Std.Total fun a b : String => a ≤ b := ⟨String.le_total⟩
    have htrans : IsTrans String fun a b => a ≤ b := ⟨fun _ _ _ => String.le_trans⟩
    apply Perm.eq_of_pairwise (fun _ _ _ _ => String.le_antisymm)
      (pairwise_insertionSort _ _) (pairwise_insertionSort _ _)
    exact (perm_insertionSort _ _).trans (hperm.trans (perm_insertionSort _ _).symm)
  rw [topologicalOrder, topologicalOrder, hnext, hkeys]

end FlowHub.PricingEvaluation
