import FlowHub.PricingEvaluation.Names
import FlowHub.Python.Encoding

namespace FlowHub.PricingEvaluation

open Txn Python List Except

section Call

variable {hash : Hashing} {u : Unicode} {ids : PackageIds} {request : PackageRequest}
  {tables tables' : Tables} {sources : List SelectedSource} {skew : SkewResult}
  {manual : List PinnedManualInput} {result : PackageResult}

/-- What a call whose leaves are accepted has stored. -/
theorem createPackage_ok (haccepted : Accepted u ids request tables sources skew manual)
    (h : createPackage hash u ids request tables = .ok (tables', result)) :
    ∃ derivation, derive hash ids (revisionsClash manual) request.derivedDefinitions
        tables.definitions (leafValues sources manual) = .ok derivation ∧
      revisionsClash manual = false ∧
      (derivation.evaluations.map DerivedValueEvaluation.definitionId).Nodup ∧
      derivation.evaluations.all DerivedValueEvaluation.fits = true ∧
      tables'.definitions = derivation.definitions ∧
      tables'.evaluations = tables.evaluations ++ derivation.evaluations ∧
      result.derivedEvaluations = derivation.evaluations ∧
      result.package.dependencyFingerprint = hash.json (fingerprintPayload request sources manual
        (derivation.definitionIds.map Prod.snd)) := by
  unfold createPackage at h
  obtain ⟨_, -, h⟩ := bind_eq_ok.mp h
  obtain ⟨⟨sources', skew'⟩, hsources, h⟩ := bind_eq_ok.mp h
  obtain ⟨manual', hmanual, h⟩ := bind_eq_ok.mp h
  rw [haccepted.sources, ok.injEq, Prod.mk.injEq] at hsources
  rw [haccepted.manual, ok.injEq] at hmanual
  obtain ⟨rfl, rfl⟩ := hsources
  subst hmanual
  obtain ⟨derivation, hderive, h⟩ := bind_eq_ok.mp h
  obtain ⟨_, hclash, h⟩ := bind_eq_ok.mp h
  obtain ⟨_, hnodup, h⟩ := bind_eq_ok.mp h
  obtain ⟨_, hfits, h⟩ := bind_eq_ok.mp h
  obtain ⟨_, -, h⟩ := bind_eq_ok.mp h
  cases h
  simp only [refuse_ok, Bool.not_eq_false', decide_eq_true_eq] at hclash hnodup hfits
  exact ⟨derivation, hderive, hclash, hnodup, hfits, rfl, rfl, rfl, rfl⟩

theorem createPackage_returns (haccepted : Accepted u ids request tables sources skew manual)
    (hderive : derive hash ids (revisionsClash manual) request.derivedDefinitions
      tables.definitions (leafValues sources manual) = .ok derivation)
    (hclash : revisionsClash manual = false)
    (hnodup : (derivation.evaluations.map DerivedValueEvaluation.definitionId).Nodup)
    (hfits : derivation.evaluations.all DerivedValueEvaluation.fits = true) :
    ∃ stored, createPackage hash u ids request tables = .ok stored := by
  have hoverride : (priceOverride ids request).any (fun o => !o.fits) = false := by
    have hall := haccepted.override
    cases hprice : priceOverride ids request with
    | none => rfl
    | some o =>
      rw [hprice, Option.all_some] at hall
      simp [hall]
  have hchannel : (!tables.channels.contains request.channelId) = false := by
    simpa using haccepted.channel
  rw [hclash] at hderive
  simp only [createPackage, hchannel, haccepted.sources, haccepted.manual, hclash, hderive, hnodup,
    hfits, hoverride, refuse, bind, Except.bind, decide_true, Bool.not_true, Bool.false_eq_true,
    ite_false]
  exact ⟨_, rfl⟩

variable {leaves : List (String × ℚ)} {final : Derivation}

/-- A derivation that goes through, as the trace of its rows. -/
theorem derive_ok (hids : ids.Unused definitions) (hdefinitions : Registered hash definitions)
    (h : derive hash ids clash drafts definitions leaves = .ok final) :
    DepthFirst.Bounded (derivedEdges drafts) derivedMaxDepth ∧ Registered hash final.definitions ∧
      Trace hash drafts leaves final [] (topologicalOrder drafts) final.evaluations ∧
      final.definitionIds.map Prod.snd = (final.evaluations.map DerivedValueEvaluation.definitionId).reverse ∧
      ∃ more, final.definitions = definitions ++ more := by
  unfold derive at h
  obtain ⟨_, hdag, hrun⟩ := bind_eq_ok.mp h
  have hbounded := validateDag_iff.mp hdag
  obtain ⟨hnodup, -⟩ := topologicalOrder_spec hbounded
  have hstart : Midway leaves [] { definitions := definitions, results := leaves } :=
    ⟨fun _ _ => rfl, by simp⟩
  obtain ⟨rows, hrows, htrace, hlast⟩ := run_trace hstart (by simpa using hnodup) hrun
  have hregistered := run_registered hids.inj hdefinitions (fun n _ => hids.new n) hrun
  rw [nil_append] at hrows
  subst hrows
  exact ⟨hbounded, hregistered, htrace, by simpa using hlast, (run_frame hrun).2⟩

/-- Every row of a trace has been evaluated for its key. -/
theorem Trace.rows {keys : List String} {rows : List DerivedValueEvaluation}
    (h : Trace hash drafts leaves final before keys rows) :
    Forall₂ (fun key row => ∃ earlier draft value,
      Evaluated hash drafts leaves final earlier key row draft value) keys rows := by
  induction h with
  | nil => exact .nil
  | cons draft value hrow _ ih => exact .cons ⟨_, draft, value, hrow⟩ ih

theorem usable_of_ok (h : createPackage hash u ids request tables = .ok (tables', result)) :
    Usable u ids request tables := by
  unfold createPackage at h
  obtain ⟨_, hchannel, h⟩ := bind_eq_ok.mp h
  obtain ⟨⟨sources, skew⟩, hsources, h⟩ := bind_eq_ok.mp h
  obtain ⟨manual, hmanual, h⟩ := bind_eq_ok.mp h
  obtain ⟨derivation, -, h⟩ := bind_eq_ok.mp h
  obtain ⟨_, -, h⟩ := bind_eq_ok.mp h
  obtain ⟨_, -, h⟩ := bind_eq_ok.mp h
  obtain ⟨_, -, h⟩ := bind_eq_ok.mp h
  obtain ⟨_, hoverride, -⟩ := bind_eq_ok.mp h
  refine ⟨sources, skew, manual, by simpa using hchannel, hsources, hmanual, ?_⟩
  cases hprice : priceOverride ids request with
  | none => rfl
  | some o => simpa [hprice] using hoverride

/-- Where the trace of a call is that of the denotations, all of them exist. -/
theorem computable_of_trace (hinj : Function.Injective hash.json) (hnames : Unshadowed request)
    (hbounded : DepthFirst.Bounded (derivedEdges request.derivedDefinitions) derivedMaxDepth)
    (hfinal : Registered hash final.definitions)
    (hleaves : ∀ name, leaves.lookup name = (request.manual name).or (request.source name))
    (htrace : Trace hash request.derivedDefinitions leaves final []
      (topologicalOrder request.derivedDefinitions) rows) :
    Computable request ∧ Forall₂ (RowOf request final.definitions)
      (topologicalOrder request.derivedDefinitions) rows := by
  obtain ⟨-, hall, -⟩ := topologicalOrder_spec hbounded
  obtain ⟨hrows, hdenotes⟩ := trace_rows hnames hbounded hinj hfinal hleaves
    (nil_append _).symm htrace (by simp)
  exact ⟨⟨hbounded, fun key hkey => hdenotes key ((hall key).mpr hkey)⟩, hrows⟩

theorem stores_of_ok (hinj : Function.Injective hash.json) (hids : ids.Unused tables.definitions)
    (hdefinitions : Registered hash tables.definitions)
    (haccepted : Accepted u ids request tables sources skew manual) (hnames : Unambiguous request)
    (hcall : createPackage hash u ids request tables = .ok (tables', result)) :
    Exact request tables'.definitions result.derivedEvaluations ∧
      tables'.evaluations = tables.evaluations ++ result.derivedEvaluations := by
  obtain ⟨derivation, hderive, -, -, -, hdefs, hevaluations, hresult, -⟩ :=
    createPackage_ok haccepted hcall
  obtain ⟨hbounded, hfinal, htrace, -⟩ := derive_ok hids hdefinitions hderive
  obtain ⟨hnodup, hall, -⟩ := topologicalOrder_spec hbounded
  obtain ⟨hcomputable, hrows⟩ := computable_of_trace hinj hnames.toUnshadowed hbounded hfinal haccepted.leaves
    htrace
  rw [hdefs, hresult, hevaluations]
  refine ⟨⟨hnames.keys hcomputable, hnodup, ?_, hrows⟩, rfl⟩
  intro draft hmem
  rw [hall, mem_draftKeys, hnames.keys hcomputable draft hmem]
  rfl

/-- What denotes is stored, the names being unambiguous. -/
theorem returns_of_computable (hinj : Function.Injective hash.json)
    (hids : ids.Unused tables.definitions) (hdefinitions : Registered hash tables.definitions)
    (haccepted : Accepted u ids request tables sources skew manual) (hnames : Unambiguous request)
    (hcomputable : Computable request) :
    ∃ stored, createPackage hash u ids request tables = .ok stored := by
  have hclash := haccepted.revisionsClash.mpr (hnames.revisions hcomputable)
  have hstart : Denoting request (leafValues sources manual) []
      { definitions := tables.definitions, results := leafValues sources manual } :=
    ⟨⟨fun _ _ => rfl, by simp⟩, by simp, by simp⟩
  have hreturns : ∃ final, Derivation.run hash ids false request.derivedDefinitions 0
      (topologicalOrder request.derivedDefinitions)
      { definitions := tables.definitions, results := leafValues sources manual } = .ok final :=
    run_returns hnames.toUnshadowed hcomputable haccepted.leaves (nil_append _).symm hstart
  obtain ⟨final, hrun⟩ := hreturns
  have hderive : derive hash ids (revisionsClash manual) request.derivedDefinitions
      tables.definitions (leafValues sources manual) = .ok final := by
    rw [hclash]
    exact bind_eq_ok.mpr ⟨(), validateDag_iff.mpr hcomputable.bounded, hrun⟩
  obtain ⟨hbounded, hfinal, htrace, -⟩ := derive_ok hids hdefinitions hderive
  obtain ⟨hnodup, -, -⟩ := topologicalOrder_spec hbounded
  obtain ⟨-, hrows⟩ := computable_of_trace hinj hnames.toUnshadowed hbounded hfinal haccepted.leaves htrace
  have hdistinct := trace_ids hinj hfinal (hnames.contents hcomputable) htrace (by simp) (by simp)
  have hunique : (final.evaluations.map DerivedValueEvaluation.definitionId).Nodup := by
    refine forall₂_nodup htrace.rows hnodup ?_
    rintro a ha a' ha' b b' ⟨_, _, _, hb⟩ ⟨_, _, _, hb'⟩ hsame
    apply hdistinct a (by simpa using ha) a' (by simpa using ha')
    rw [hb.definitionId, hb'.definitionId, hsame]
  have hfits : final.evaluations.all DerivedValueEvaluation.fits = true := by
    rw [all_eq_true]
    intro row hrow
    obtain ⟨key, -, draft, value, hdraft, hrefs, hcomputed, hnum, hden, -⟩ := forall₂_left hrows hrow
    have hdenotes := denotes_iff.mpr ⟨draft, _, hdraft, hrefs, hcomputed⟩
    obtain ⟨hfitsNum, hfitsDen⟩ := hnames.range hcomputable key value hdenotes
    unfold DerivedValueEvaluation.fits
    rw [hnum, hden, hfitsNum, hfitsDen]
    rfl
  exact createPackage_returns haccepted hderive hclash hunique hfits

theorem stores_of_unambiguous (hinj : Function.Injective hash.json)
    (hids : ids.Unused tables.definitions) (hdefinitions : Registered hash tables.definitions)
    (hnames : Usable u ids request tables → Unambiguous request) :
    StoresDenotations hash u ids request tables := by
  unfold StoresDenotations
  cases hcall : createPackage hash u ids request tables with
  | ok stored =>
    obtain ⟨tables', result⟩ := stored
    have husable := usable_of_ok hcall
    obtain ⟨sources, skew, manual, haccepted⟩ := husable
    exact stores_of_ok hinj hids hdefinitions haccepted (hnames ⟨_, _, _, haccepted⟩) hcall
  | error failure =>
    rintro ⟨⟨sources, skew, manual, haccepted⟩, hcomputable⟩
    obtain ⟨stored, hstored⟩ := returns_of_computable hinj hids hdefinitions haccepted
      (hnames ⟨_, _, _, haccepted⟩) hcomputable
    rw [hcall] at hstored
    cases hstored

/-- Where all definitions denote, only unambiguous names give the denotations. -/
theorem unambiguous_of_stores (hids : ids.Unused tables.definitions)
    (hdefinitions : Registered hash tables.definitions)
    (haccepted : Accepted u ids request tables sources skew manual)
    (hcomputable : Computable request) (hstores : StoresDenotations hash u ids request tables) :
    Unambiguous request := by
  unfold StoresDenotations at hstores
  cases hcall : createPackage hash u ids request tables with
  | error failure =>
    rw [hcall] at hstores
    exact absurd ⟨⟨_, _, _, haccepted⟩, hcomputable⟩ hstores
  | ok stored =>
    obtain ⟨tables', result⟩ := stored
    rw [hcall] at hstores
    obtain ⟨hexact, -⟩ := hstores
    obtain ⟨derivation, hderive, hclash, hnodup, hfits, hdefs, -, hresult, -⟩ :=
      createPackage_ok haccepted hcall
    obtain ⟨hbounded, hfinal, htrace, -⟩ := derive_ok hids hdefinitions hderive
    obtain ⟨-, hall, -⟩ := topologicalOrder_spec hbounded
    have hrows := hexact.rows
    rw [hdefs, hresult] at hrows
    have hread := trace_names htrace hrows (by simp)
    have hmem : ∀ {key draft}, draftByKey request.derivedDefinitions key = some draft →
        key ∈ topologicalOrder request.derivedDefinitions := fun h =>
      (hall _).mpr (mem_draftKeys.mpr (by rw [h]; rfl))
    refine ⟨⟨?_, ?_⟩, fun _ => hexact.kept, ?_, fun _ => haccepted.revisionsClash.mp hclash, ?_⟩
    · rintro before draft ⟨-, ⟨key, after, hsplit, hdraft⟩, -⟩ ref href hkind
      obtain ⟨results, value, hdone, hvisible, hdenotes⟩ :=
        hread before key after draft ref hsplit hdraft href
      rw [nil_append] at hdone hvisible
      exact (denotes_visible haccepted.leaves hdone hvisible hdenotes).1 hkind
    · rintro before draft ⟨-, ⟨key, after, hsplit, hdraft⟩, -⟩ ref href hkind
      obtain ⟨results, value, hdone, hvisible, hdenotes⟩ :=
        hread before key after draft ref hsplit hdraft href
      rw [nil_append] at hdone hvisible
      exact (denotes_visible haccepted.leaves hdone hvisible hdenotes).2 hkind
    · intro _ key key' draft draft' hdraft hdraft' hoperator hparameters hdependencies
      apply forall₂_inj htrace.rows hnodup (hmem hdraft) (hmem hdraft')
      rintro b b' ⟨_, _, _, hb⟩ ⟨_, _, _, hb'⟩
      have hown := Option.some.inj (hdraft.symm.trans hb.found)
      have hown' := Option.some.inj (hdraft'.symm.trans hb'.found)
      subst hown hown'
      obtain ⟨d, hd, hid⟩ := hb.definition
      obtain ⟨d', hd', hid'⟩ := hb'.definition
      have hchecksum : contentChecksum hash draft b.refs = contentChecksum hash draft' b'.refs := by
        unfold contentChecksum
        rw [hb.refs, hb'.refs, hoperator, hparameters, hdependencies]
      rw [hchecksum, hd', Option.some.injEq] at hd
      rw [← hid, ← hid', hd]
    · intro _ key value hvalue
      obtain ⟨own, -, hown, -⟩ := denotes_iff.mp hvalue
      obtain ⟨row, hrow, draft, found, hdraft, hrefs, hcomputed, hnum, hden, -⟩ :=
        forall₂_right_mem hrows (hmem hown)
      have hdenotes := denotes_iff.mpr ⟨draft, _, hdraft, hrefs, hcomputed⟩
      have hsame := hvalue.unique hdenotes
      have hfit := all_eq_true.mp hfits row hrow
      unfold DerivedValueEvaluation.fits at hfit
      rw [hnum, hden, Bool.and_eq_true] at hfit
      rw [hsame]
      exact hfit

/-- A call does what its definitions denote where their names are unambiguous, and where they
all denote only there. -/
theorem derived_values_denote (hinj : Function.Injective hash.json)
    (hids : ids.Unused tables.definitions) (hdefinitions : Registered hash tables.definitions) :
    ((Usable u ids request tables → Unambiguous request) → StoresDenotations hash u ids request tables) ∧
    (Usable u ids request tables → Computable request →
      (StoresDenotations hash u ids request tables ↔ Unambiguous request)) := by
  refine ⟨stores_of_unambiguous hinj hids hdefinitions, ?_⟩
  rintro ⟨sources, skew, manual, haccepted⟩ hcomputable
  constructor
  · exact unambiguous_of_stores hids hdefinitions haccepted hcomputable
  · exact fun hnames => stores_of_unambiguous hinj hids hdefinitions fun _ => hnames

end Call

namespace Sample

def ids : PackageIds where
  package := "package"
  sourcePin := Json.tally
  manualPin := Json.tally
  definition := Json.tally
  evaluation := Json.tally
  override := "override"

def tables : Tables where
  channels := ["snappshop"]

def cost (value : ℚ) : SourceRequirement where
  sourceRole := "cost"
  sourceId := "vendor"
  policy := { mode := .lastApproved }
  candidates := [⟨"observation", "checksum", 5, none, false⟩]
  value := value
  resourceBindingRevisionId := some "binding"
  schemaUnitContext := [("currency", .str "IRR"),
    ("scale", .obj [("denominator", .int 1), ("numerator", .int 1)]), ("unit", .str "RIAL")]

def plus (key : String) (addend : Int) : DefinitionDraft :=
  ⟨key, .addConstant, [("addend_minor", .int addend)], [⟨.observation, "cost"⟩]⟩

def request (value : ℚ) (drafts : List DefinitionDraft) : PackageRequest where
  channelId := "snappshop"
  productRef := "product"
  workspacePricingEvaluatedAt := "2026-01-01T00:00:00"
  formulaShapeId := "A1"
  translatorVersion := "v1"
  currencyUnitRegistryVersion := "v1"
  sourceRequirements := [cost value]
  derivedDefinitions := drafts
  now := 10

theorem ids_unused : ids.Unused [] where
  inj := Json.tally_injective
  new := by simp

theorem registered (hash : Hashing) : Registered hash [] where
  ids := by simp
  checksums := by simp

theorem usable (value : ℚ) (drafts : List DefinitionDraft) :
    Usable .ascii ids (request value drafts) tables :=
  ⟨_, _, _, ⟨by simp [request, tables], rfl, rfl, rfl⟩⟩

theorem plus_denotes (h : draftByKey drafts key = some (plus key addend)) :
    Denotes (request value drafts) key (value + addend) := by
  refine .intro (fun _ => value) h ?_ ?_ ?_ rfl
  · intro ref href _
    rw [mem_singleton.mp href]
    rfl
  · intro ref href hkind
    rw [mem_singleton.mp href] at hkind
    cases hkind
  · intro ref href hkind
    rw [mem_singleton.mp href] at hkind
    cases hkind

def single : PackageRequest := request 100 [plus "price" 1]

theorem single_unambiguous : Unambiguous single := by
  have hprice : ∀ key draft, draftByKey single.derivedDefinitions key = some draft →
      key = "price" ∧ draft = plus "price" 1 := by
    intro key draft h
    have hmem := mem_of_find?_eq_some h
    have hkey := find?_some h
    simp only [single, request, reverse_singleton, mem_singleton] at hmem
    subst hmem
    exact ⟨(of_decide_eq_true hkey).symm, rfl⟩
  refine ⟨⟨?_, ?_⟩, ?_, ?_, fun _ => nodup_nil, ?_⟩
  · rintro before draft ⟨-, ⟨key, after, hsplit, hdraft⟩, -⟩ ref href -
    obtain ⟨rfl, rfl⟩ := hprice key draft hdraft
    have horder : topologicalOrder single.derivedDefinitions = ["price"] := by decide +kernel
    have hbefore : before = [] := by
      have hlength := congrArg length hsplit
      rw [horder, length_append] at hlength
      simp only [length_cons, length_nil] at hlength
      exact length_eq_zero_iff.mp (by omega)
    subst hbefore
    exact ⟨by simp, fun _ value h => by cases h⟩
  · rintro before draft ⟨-, ⟨key, after, hsplit, hdraft⟩, -⟩ ref href hkind
    obtain ⟨rfl, rfl⟩ := hprice key draft hdraft
    rw [mem_singleton.mp href] at hkind
    cases hkind
  · intro _ draft hmem
    rw [single, request, mem_singleton] at hmem
    subst hmem
    rfl
  · intro _ key key' draft draft' h h' _ _ _
    exact (hprice key draft h).1.trans (hprice key' draft' h').1.symm
  · intro _ key value hvalue
    obtain ⟨draft, _, hdraft, -⟩ := denotes_iff.mp hvalue
    obtain ⟨rfl, rfl⟩ := hprice key draft hdraft
    have hone : Denotes single "price" (100 + (1 : Int)) := plus_denotes hdraft
    rw [hvalue.unique hone]
    decide +kernel

/-- A definition that goes by the role of the source both definitions read. -/
def shadowed : PackageRequest := request 100 [plus "cost" 1, plus "price" 0]

theorem shadowed_usable : Usable .ascii ids shadowed tables := usable 100 _

theorem shadowed_computable : Computable shadowed := by
  refine ⟨validateDag_iff.mp (by rfl), ?_⟩
  intro key hkey
  have hkeys : draftKeys shadowed.derivedDefinitions = ["cost", "price"] := by decide +kernel
  rw [hkeys] at hkey
  rcases mem_cons.mp hkey with rfl | hkey
  · exact ⟨_, plus_denotes rfl⟩
  · rw [mem_singleton.mp hkey]
    exact ⟨_, plus_denotes rfl⟩

theorem shadowed_ambiguous : ¬ Unambiguous shadowed := by
  intro hnames
  have horder : topologicalOrder shadowed.derivedDefinitions = ["cost"] ++ "price" :: [] := by
    decide +kernel
  have hcost : Denotes shadowed "cost" (100 + (1 : Int)) := plus_denotes rfl
  have hturn : Turn shadowed ["cost"] (plus "price" 0) := by
    refine ⟨shadowed_computable.bounded, ⟨"price", [], horder, rfl⟩, ?_⟩
    intro name hname
    rw [mem_singleton.mp hname]
    exact ⟨_, hcost⟩
  have hread := (hnames.observations _ _ hturn ⟨.observation, "cost"⟩ mem_cons_self rfl).1
    mem_cons_self _ hcost
  have hsource : shadowed.source "cost" = some 100 := rfl
  rw [hsource, Option.some.injEq] at hread
  norm_num at hread

end Sample

open Sample

theorem derived_values_denote_single : StoresDenotations exactHashing .ascii ids single tables :=
  (derived_values_denote exactHashing_injective ids_unused (registered _)).1
    fun _ => single_unambiguous

/-- The price is derived from the definition named like the source, not from the source. -/
theorem derived_shadowed : ¬ StoresDenotations exactHashing .ascii ids shadowed tables := by
  obtain ⟨sources, skew, manual, haccepted⟩ := shadowed_usable
  have hdefinitions : Registered exactHashing tables.definitions := registered _
  exact mt (unambiguous_of_stores ids_unused hdefinitions haccepted
    shadowed_computable) shadowed_ambiguous

end FlowHub.PricingEvaluation
