import FlowHub.PricingEvaluation.Package
import FlowHub.Related

namespace FlowHub.PricingEvaluation

open Txn Python List

/-- What a reference becomes, by the definition ids at hand. -/
def resolve (definitionIds : List (String × Id)) (ref : DependencyRef) : ResolvedRef :=
  match ref.kind with
  | .derived => ⟨.derived, (definitionIds.lookup ref.key).getD ""⟩
  | kind => ⟨kind, ref.key⟩

/-- What the one dictionary answers once the definitions of `before` have been evaluated. -/
def visible (results leaves : List (String × ℚ)) (before : List String) (name : String) : Option ℚ :=
  if name ∈ before then results.lookup name else leaves.lookup name

/-- The definitions table: unique ids, and each checksum that of its content. -/
structure Registered (hash : Hashing) (definitions : List DerivedValueDefinition) : Prop where
  ids : (definitions.map DerivedValueDefinition.id).Nodup
  checksums : ∀ d ∈ definitions,
    d.checksum = hash.json (definitionPayload d.operator d.parameters d.dependencyRefs)

variable {hash : Hashing}

def contentChecksum (hash : Hashing) (draft : DefinitionDraft) (refs : List ResolvedRef) : String :=
  hash.json (definitionPayload draft.operator draft.parameters refs)

/-- The definition a checksum stands for. -/
def definitionFor (definitions : List DerivedValueDefinition) (checksum : String) :
    Option DerivedValueDefinition :=
  definitions.find? fun d => decide (d.checksum = checksum)

theorem definitionFor_append (h : definitionFor definitions checksum = some d) :
    definitionFor (definitions ++ more) checksum = some d := by
  unfold definitionFor at h ⊢
  rw [find?_append, h, Option.some_or]

variable {draft : DefinitionDraft} {ids : PackageIds} {state : Derivation} {clash : Bool}
  {index : Nat} {key : String}

/-- The definition of a content is in the table afterwards; nothing else changes. -/
theorem define_ok (h : state.define hash draft refs newId clash = .ok (definitions, definitionId)) :
    ∃ more, definitions = state.definitions ++ more ∧
      (∃ d, definitionFor definitions (contentChecksum hash draft refs) = some d ∧
        d.id = definitionId) ∧ (Registered hash state.definitions →
        newId ∉ state.definitions.map DerivedValueDefinition.id → Registered hash definitions) ∧
      ∀ d ∈ more, d.id = newId := by
  unfold Derivation.define at h
  simp only at h
  split at h
  · rename_i existing hfound
    cases h
    exact ⟨[], by simp, ⟨existing, hfound, rfl⟩, fun hdefs _ => hdefs, by simp⟩
  · rename_i hfound
    obtain ⟨_, -, hrest⟩ := bind_eq_ok.mp h
    cases hrest
    refine ⟨_, rfl, ⟨⟨newId, draft.operator, draft.parameters, refs, contentChecksum hash draft refs⟩,
      ?_, rfl⟩, ?_, by simp⟩
    · unfold definitionFor
      rw [find?_append, contentChecksum, hfound]
      simp
    · intro hdefs hnew
      constructor
      · rw [map_append, nodup_append]
        refine ⟨hdefs.ids, by simp, ?_⟩
        intro a ha b hb
        simp only [map_cons, map_nil, mem_singleton] at hb
        rintro rfl
        exact hnew (hb ▸ ha)
      · intro d hd
        rcases mem_append.mp hd with hold | hlast
        · exact hdefs.checksums d hold
        · rw [mem_singleton.mp hlast]

theorem define_clear (hash : Hashing) (state : Derivation) (draft : DefinitionDraft)
    (refs : List ResolvedRef) (newId : Id) :
    ∃ result, state.define hash draft refs newId false = .ok result := by
  unfold Derivation.define
  simp only
  split
  · exact ⟨_, rfl⟩
  · exact ⟨_, rfl⟩

/-- What a turn of the loop that goes through has done. -/
theorem evaluate_ok {next : Derivation} (h : state.evaluate hash ids clash index key draft = .ok next) :
    ∃ inputs definitionId result,
      Forall₂ (fun ref input => state.read ref = .ok input) draft.dependencies inputs ∧
      state.define hash draft (inputs.map Prod.fst) (ids.definition index) clash =
        .ok (next.definitions, definitionId) ∧
      evaluateOperator draft.operator draft.parameters (inputs.map Prod.snd) = .ok result ∧
      next.definitionIds = (key, definitionId) :: state.definitionIds ∧
      next.results = (key, result) :: state.results ∧
      ∃ row, next.evaluations = state.evaluations ++ [row] ∧ row.definitionId = definitionId ∧
        row.resultNumerator = result.num ∧ row.resultDenominator = result.den ∧
        row.refs = inputs.map Prod.fst ∧ row.values = inputs.map Prod.snd := by
  unfold Derivation.evaluate at h
  obtain ⟨inputs, hinputs, h⟩ := bind_eq_ok.mp h
  obtain ⟨⟨definitions, definitionId⟩, hdefine, h⟩ := bind_eq_ok.mp h
  obtain ⟨result, hresult, h⟩ := bind_eq_ok.mp h
  cases h
  exact ⟨inputs, definitionId, result, mapM_ok.mp hinputs, hdefine, hresult, rfl, rfl, _, rfl, rfl,
    rfl, rfl, rfl, rfl⟩

theorem evaluate_returns (hinputs : draft.dependencies.mapM state.read = .ok inputs)
    (hresult : evaluateOperator draft.operator draft.parameters (inputs.map Prod.snd) =
      .ok result) : ∃ next, state.evaluate hash ids false index key draft = .ok next := by
  obtain ⟨defined, hdefine⟩ := define_clear hash state draft (inputs.map Prod.fst)
    (ids.definition index)
  unfold Derivation.evaluate
  rw [hinputs]
  simp only [bind, Except.bind, hdefine, hresult]
  exact ⟨_, rfl⟩

theorem read_ok (h : state.read ref = .ok (resolved, value)) :
    resolved = resolve state.definitionIds ref ∧ state.results.lookup ref.key = some value ∧
      (ref.kind = .derived → (state.definitionIds.lookup ref.key).isSome) := by
  obtain ⟨kind, key⟩ := ref
  cases kind with
  | derived =>
    simp only [Derivation.read] at h
    split at h
    · rename_i definitionId found hid hvalue
      cases h
      exact ⟨by simp [resolve, hid], hvalue, by simp [hid]⟩
    · cases h
  | observation =>
    simp only [Derivation.read] at h
    split at h
    · cases h
      exact ⟨rfl, ‹_›, nofun⟩
    · cases h
  | manualInput =>
    simp only [Derivation.read] at h
    split at h
    · cases h
      exact ⟨rfl, ‹_›, nofun⟩
    · cases h

/-- One definition evaluated behind those of `before`, as the whole run leaves it. -/
structure Evaluated (hash : Hashing) (drafts : List DefinitionDraft) (leaves : List (String × ℚ))
    (final : Derivation) (before : List String) (key : String) (row : DerivedValueEvaluation)
    (draft : DefinitionDraft) (result : ℚ) : Prop where
  found : draftByKey drafts key = some draft
  values : List.Forall₂
    (fun ref value => visible final.results leaves before ref.key = some value)
    draft.dependencies row.values
  derived : ∀ ref ∈ draft.dependencies, ref.kind = .derived → ref.key ∈ before
  refs : row.refs = draft.dependencies.map (resolve final.definitionIds)
  computed : evaluateOperator draft.operator draft.parameters row.values = .ok result
  numerator : row.resultNumerator = result.num
  denominator : row.resultDenominator = result.den
  stored : final.results.lookup key = some result
  definitionId : final.definitionIds.lookup key = some row.definitionId
  definition : ∃ d, definitionFor final.definitions (contentChecksum hash draft row.refs) = some d ∧
    d.id = row.definitionId

/-- The rows of the keys still to come, behind those of `before`. -/
inductive Trace (hash : Hashing) (drafts : List DefinitionDraft) (leaves : List (String × ℚ))
    (final : Derivation) : List String → List String → List DerivedValueEvaluation → Prop where
  | nil (before : List String) : Trace hash drafts leaves final before [] []
  | cons {before keys : List String} {key : String} {row : DerivedValueEvaluation}
      {rows : List DerivedValueEvaluation} (draft : DefinitionDraft) (result : ℚ) :
      Evaluated hash drafts leaves final before key row draft result →
      Trace hash drafts leaves final (before ++ [key]) keys rows →
      Trace hash drafts leaves final before (key :: keys) (row :: rows)

/-- A run in the middle: what is not done yet reads as a leaf and has no definition. -/
structure Midway (leaves : List (String × ℚ)) (done : List String) (state : Derivation) : Prop where
  results : ∀ name, name ∉ done → state.results.lookup name = leaves.lookup name
  ids : ∀ name, (state.definitionIds.lookup name).isSome → name ∈ done

theorem Midway.next {leaves : List (String × ℚ)} {done : List String} {state next : Derivation}
    {definitionId : Id} {result : ℚ} (h : Midway leaves done state)
    (hids : next.definitionIds = (key, definitionId) :: state.definitionIds)
    (hresults : next.results = (key, result) :: state.results) :
    Midway leaves (done ++ [key]) next := by
  constructor
  · intro name hname
    simp only [mem_append, mem_singleton, not_or] at hname
    have hne : (name == key) = false := by simpa using hname.2
    rw [hresults, lookup_cons, hne]
    exact h.results name hname.1
  · intro name hname
    rw [hids, lookup_cons] at hname
    by_cases hkey : name = key
    · simp [hkey]
    · have hne : (name == key) = false := by simpa using hkey
      rw [hne] at hname
      exact mem_append_left _ (h.ids name hname)

/-- A run leaves what it does not evaluate, and adds to the rest. -/
theorem run_frame {keys : List String}
    (h : Derivation.run hash ids clash drafts index keys state = .ok final) :
    (∀ name, name ∉ keys → final.results.lookup name = state.results.lookup name ∧
      final.definitionIds.lookup name = state.definitionIds.lookup name) ∧
    ∃ more, final.definitions = state.definitions ++ more := by
  induction keys generalizing index state with
  | nil =>
    cases h
    exact ⟨fun _ _ => ⟨rfl, rfl⟩, [], by simp⟩
  | cons key keys ih =>
    simp only [Derivation.run] at h
    split at h
    · cases h
    rename_i draft hdraft
    obtain ⟨next, hnext, hrun⟩ := bind_eq_ok.mp h
    obtain ⟨inputs, definitionId, result, -, hdefine, -, hids, hresults, -⟩ := evaluate_ok hnext
    obtain ⟨hkept, more, hmore⟩ := ih hrun
    obtain ⟨added, hadded, -⟩ := define_ok hdefine
    refine ⟨?_, added ++ more, by rw [hmore, hadded, append_assoc]⟩
    intro name hname
    simp only [mem_cons, not_or] at hname
    have hne : (name == key) = false := by simpa using hname.1
    obtain ⟨hres, hid⟩ := hkept name hname.2
    rw [hres, hid, hresults, hids, lookup_cons, lookup_cons, hne]
    exact ⟨rfl, rfl⟩

theorem run_trace {keys : List String} (hstate : Midway leaves done state) (hnodup : (done ++ keys).Nodup)
    (h : Derivation.run hash ids clash drafts index keys state = .ok final) :
    ∃ rows, final.evaluations = state.evaluations ++ rows ∧
      Trace hash drafts leaves final done keys rows ∧ final.definitionIds.map Prod.snd =
        (rows.map DerivedValueEvaluation.definitionId).reverse ++ state.definitionIds.map Prod.snd := by
  induction keys generalizing index done state with
  | nil =>
    cases h
    exact ⟨[], by simp, .nil done, by simp⟩
  | cons key keys ih =>
    have hwhole := run_frame h
    simp only [Derivation.run] at h
    split at h
    · cases h
    rename_i draft hdraft
    obtain ⟨next, hnext, hrun⟩ := bind_eq_ok.mp h
    obtain ⟨inputs, definitionId, result, hinputs, hdefine, hresult, hids, hresults, row, hrow,
      hrowid, hnum, hden, hrefs, hvalues⟩ := evaluate_ok hnext
    have hmid := hstate.next hids hresults
    have hsplit : (done ++ [key] ++ keys).Nodup := by simpa using hnodup
    obtain ⟨rows, hrows, htrace, hlast⟩ := ih hmid hsplit hrun
    obtain ⟨hkept, more, hmore⟩ := run_frame hrun
    obtain ⟨added, -, ⟨d, hd, hdid⟩, -⟩ := define_ok hdefine
    have hkey : key ∉ keys := by
      intro hmem
      rw [append_assoc, nodup_append] at hsplit
      exact (nodup_cons.mp hsplit.2.1).1 hmem
    have hdone : ∀ name ∈ done, name ∉ key :: keys := by
      intro name hname hmem
      exact (nodup_append.mp hnodup).2.2 name hname name hmem rfl
    -- what a reference reads now is what it reads at the end
    have hread : ∀ ref ∈ draft.dependencies, ∀ input, state.read ref = .ok input →
        input.1 = resolve final.definitionIds ref ∧
        visible final.results leaves done ref.key = some input.2 ∧
        (ref.kind = .derived → ref.key ∈ done) := by
      intro ref _ input hinput
      obtain ⟨hresolved, hvalue, hderived⟩ := read_ok hinput
      have hin : ref.kind = .derived → ref.key ∈ done := fun hkind =>
        hstate.ids ref.key (hderived hkind)
      refine ⟨?_, ?_, hin⟩
      · rw [hresolved]
        obtain ⟨kind, name⟩ := ref
        cases kind with
        | derived =>
          have hid := (hwhole.1 name (hdone name (hin rfl))).2
          simp [resolve, hid]
        | observation => rfl
        | manualInput => rfl
      · unfold visible
        by_cases hmem : ref.key ∈ done
        · rw [if_pos hmem, (hwhole.1 ref.key (hdone ref.key hmem)).1]
          exact hvalue
        · rw [if_neg hmem, ← hstate.results ref.key hmem]
          exact hvalue
    have hevaluated : Evaluated hash drafts leaves final done key row draft result := by
      constructor
      · exact hdraft
      · rw [hvalues, forall₂_map_right_iff]
        exact (forall₂_and_left _ _).mpr ⟨fun _ h => h, hinputs⟩ |>.imp
          fun ref input h => (hread ref h.1 input h.2).2.1
      · intro ref hmem hkind
        obtain ⟨input, hinput⟩ := forall₂_right hinputs hmem
        exact (hread ref hmem input hinput).2.2 hkind
      · rw [hrefs]
        have hall : Forall₂ (fun ref input => resolve final.definitionIds ref = input.1)
            draft.dependencies inputs :=
          (forall₂_and_left _ _).mpr ⟨fun _ h => h, hinputs⟩ |>.imp
            fun ref input h => (hread ref h.1 input h.2).1.symm
        exact (forall₂_map_eq hall).symm
      · rw [hvalues]
        exact hresult
      · exact hnum
      · exact hden
      · rw [(hkept key hkey).1, hresults]
        simp
      · rw [(hkept key hkey).2, hids, hrowid]
        simp
      · refine ⟨d, ?_, hdid.trans hrowid.symm⟩
        rw [hmore, hrefs]
        exact definitionFor_append hd
    refine ⟨row :: rows, by rw [hrows, hrow]; simp, .cons draft result hevaluated htrace, ?_⟩
    rw [hlast, hids]
    simp [hrowid]

end FlowHub.PricingEvaluation
