import FlowHub.ShadowValidation.Readiness
import FlowHub.Related

namespace FlowHub.ShadowValidation

open Python Txn PricingEvaluation List Except

/-- Rows of evidence are never changed: a contract may only cease to be current. -/
structure Kept (db db' : Db) : Prop where
  unique : (db.contracts.map ShapeComparisonContract.id).Nodup
  packages : ∀ id package, packageOf db id = some package → packageOf db' id = some package
  captures : ∀ id capture, Table.get LegacyFormulaCapture.id db.captures id = some capture →
    Table.get LegacyFormulaCapture.id db'.captures id = some capture
  overrides : ∀ id override, overrideOf db id = .ok (some override) → overrideOf db' id = .ok (some override)
  contracts : ∀ id contract, contractOf db id = some contract →
    ∃ isCurrent, contractOf db' id = some { contract with isCurrent }

theorem Kept.refl (unique : (db.contracts.map ShapeComparisonContract.id).Nodup) : Kept db db :=
  ⟨unique, fun _ _ h => h, fun _ _ h => h, fun _ _ h => h, fun _ contract h => ⟨contract.isCurrent, h⟩⟩

variable (printable : Char → Bool) (hash : Hashing) (u : Unicode)

/-- A comparison is made of rows that may have been read a while ago, under any head. All other
writers leave the comparisons and the evidence alone. -/
inductive Step (db : Db) : Db → Prop where
  | assemble {db' : Db} (read : Db) (kept : Kept read db) (head : Option ShadowValidationWindowHead)
      (request : AssembleRequest) (comparison : ShadowValidationComparison)
      (hcompared : compared printable hash u read head request = .ok comparison)
      (h : storeComparison comparison db = .ok db') : Step db db'
  | other {db' : Db} (kept : Kept db db') (h : db'.comparisons = db.comparisons) : Step db db'

inductive Reachable : Db → Prop where
  | initial (db : Db) (h : db.comparisons = []) : Reachable db
  | next {db db' : Db} (reached : Reachable db) (step : Step printable hash u db db') : Reachable db'

/-- The rows that a comparison was made of. -/
structure MadeOf (db : Db) (comparison : ShadowValidationComparison) (e : Evidence) : Prop where
  outcome : ∃ algorithm request outcome, outcomeOf printable e = .ok outcome ∧
    comparison = comparisonOf hash e algorithm request outcome
  channel : e.window.channelId = e.fep.channelId
  lanes : normalizeOutputLanes printable e.contract.requiredOutputLanes = .ok e.lanes
  package : packageOf db e.fep.id = some e.fep
  capture : Table.get LegacyFormulaCapture.id db.captures e.capture.id = some e.capture
  contract : ∃ isCurrent, contractOf db e.contract.id = some { e.contract with isCurrent }
  override : ∀ override ∈ e.override, overrideOf db e.fep.id = .ok (some override)

variable {printable hash u}

variable {db' : Db}

theorem MadeOf.kept {db : Db} {comparison : ShadowValidationComparison} {e : Evidence}
    (h : MadeOf printable hash db comparison e) (kept : Kept db db') :
    MadeOf printable hash db' comparison e where
  outcome := h.outcome
  channel := h.channel
  lanes := h.lanes
  package := kept.packages _ _ h.package
  capture := kept.captures _ _ h.capture
  contract := by
    obtain ⟨_, hcontract⟩ := h.contract
    obtain ⟨isCurrent, hkept⟩ := kept.contracts _ _ hcontract
    exact ⟨isCurrent, hkept⟩
  override o ho := kept.overrides _ _ (h.override o ho)

theorem currentContract_some (h : currentContract db shapeId = .ok (some contract)) :
    contract ∈ db.contracts ∧ contract.shapeId = shapeId ∧ contract.isCurrent = true := by
  have hrows := oneOrNone_some.mp h
  have hmem : contract ∈ db.contracts.filter fun c => decide (c.shapeId = shapeId) && c.isCurrent := by
    rw [hrows]
    exact mem_singleton.mpr rfl
  simpa [mem_filter] using hmem

theorem gather_spec (unique : (db.contracts.map ShapeComparisonContract.id).Nodup)
    (h : gather printable db request = .ok e) :
    windowOf db request.validationWindowId = some e.window ∧
      packageOf db request.frozenEvaluationPackageId = some e.fep ∧
      Table.get LegacyFormulaCapture.id db.captures request.legacyFormulaCaptureId = some e.capture ∧
      contractOf db e.contract.id = some e.contract ∧ e.window.channelId = e.fep.channelId ∧
      normalizeOutputLanes printable e.contract.requiredOutputLanes = .ok e.lanes ∧
      overrideOf db e.fep.id = .ok e.override := by
  obtain ⟨window, hwindow, h⟩ := bind_eq_ok.mp h
  obtain ⟨fep, hfep, h⟩ := bind_eq_ok.mp h
  obtain ⟨capture, hcapture, h⟩ := bind_eq_ok.mp h
  obtain ⟨_, hchannel, h⟩ := bind_eq_ok.mp h
  obtain ⟨_, -, h⟩ := bind_eq_ok.mp h
  obtain ⟨_, -, h⟩ := bind_eq_ok.mp h
  obtain ⟨named, hnamed, h⟩ := bind_eq_ok.mp h
  obtain ⟨contract, hcontract, h⟩ := bind_eq_ok.mp h
  obtain ⟨_, -, h⟩ := bind_eq_ok.mp h
  obtain ⟨_, -, h⟩ := bind_eq_ok.mp h
  obtain ⟨_, -, h⟩ := bind_eq_ok.mp h
  obtain ⟨lanes, hlanes, h⟩ := bind_eq_ok.mp h
  obtain ⟨override, hoverride, h⟩ := bind_eq_ok.mp h
  cases h
  rw [found_ok] at hwindow hfep hcapture hcontract
  subst hcontract
  have hrow : contractOf db contract.id = some contract := by
    unfold namedContract at hnamed
    split at hnamed
    · exact Table.get_of_mem unique (currentContract_some hnamed).1
    · have hget := ok.inj hnamed
      rw [(Table.get_some hget).2]
      exact hget
  exact ⟨hwindow, hfep, hcapture, hrow, by simpa using hchannel, hlanes, hoverride⟩

/-- What the code compares is what its rows hold, and the comparison says which rows. -/
theorem compared_spec {head : Option ShadowValidationWindowHead}
    (unique : (db.contracts.map ShapeComparisonContract.id).Nodup)
    (h : compared printable hash u db head request = .ok comparison) :
    ∃ e, MadeOf printable hash db comparison e := by
  obtain ⟨algorithm, -, h⟩ := bind_eq_ok.mp h
  obtain ⟨e, hgather, h⟩ := bind_eq_ok.mp h
  obtain ⟨_, -, h⟩ := bind_eq_ok.mp h
  obtain ⟨_, -, h⟩ := bind_eq_ok.mp h
  obtain ⟨outcome, houtcome, h⟩ := bind_eq_ok.mp h
  cases h
  obtain ⟨-, hpackage, hcapture, hcontract, hchannel, hlanes, hoverride⟩ :=
    gather_spec unique hgather
  refine ⟨e, ⟨algorithm, request, outcome, houtcome, rfl⟩, hchannel, hlanes, ?_, ?_,
    ⟨e.contract.isCurrent, hcontract⟩, ?_⟩
  · have hid := (Table.get_some hpackage).2
    rw [hid]
    exact hpackage
  · have hid := (Table.get_some hcapture).2
    rw [hid]
    exact hcapture
  · intro override hmem
    rw [hoverride, Option.mem_def.mp hmem]

theorem storeComparison_ok (h : storeComparison comparison db = .ok db') :
    db' = { db with comparisons := db.comparisons ++ [comparison] } := by
  unfold storeComparison at h
  split at h
  · cases h
  · exact (ok.inj h).symm

/-- Every comparison is made of rows that are still there. -/
def Backed (printable : Char → Bool) (hash : Hashing) (db : Db) : Prop :=
  ∀ c ∈ db.comparisons, ∃ e, MadeOf printable hash db c e

theorem step_backed (hdb : Backed printable hash db)
    (step : Step printable hash u db db') : Backed printable hash db' := by
  cases step with
  | assemble read kept head request comparison hcompared h =>
    cases storeComparison_ok h
    intro c hc
    rcases mem_append.mp hc with hc | hc
    · obtain ⟨e, he⟩ := hdb c hc
      exact ⟨e, ⟨he.outcome, he.channel, he.lanes, he.package, he.capture, he.contract, he.override⟩⟩
    · rw [mem_singleton.mp hc]
      obtain ⟨e, he⟩ := compared_spec kept.unique hcompared
      have hkept := he.kept kept
      exact ⟨e, ⟨hkept.outcome, hkept.channel, hkept.lanes, hkept.package, hkept.capture,
        hkept.contract, hkept.override⟩⟩
  | other kept h =>
    intro c hc
    rw [h] at hc
    obtain ⟨e, he⟩ := hdb c hc
    exact ⟨e, he.kept kept⟩

theorem reachable_backed (h : Reachable printable hash u db) : Backed printable hash db := by
  induction h with
  | initial db h => simp [Backed, h]
  | next _ step ih => exact step_backed ih step

section Values

variable {e : Evidence}

/-- The two values of each required lane differ only if there is a finding of it. -/
structure Noticed (e : Evidence) (findings : List Finding) (override : PackagePriceOverride) : Prop where
  candidate : e.lanes ≠ .effective → e.capture.candidate ≠ override.calculatedCandidate →
    .candidateValueDivergence ∈ findings
  effective : e.lanes ≠ .candidate → e.capture.effective ≠ override.effectiveOutput →
    .effectiveValueDivergence ∈ findings

theorem compareValues_noticed (h : compareValues e.capture e.override e.lanes = (values, false)) :
    ∃ override, e.override = some override ∧ Noticed e values override := by
  unfold compareValues at h
  simp only [Prod.mk.injEq, Bool.or_eq_false_iff] at h
  obtain ⟨rfl, hcandidate, heffective⟩ := h
  cases hoverride : e.override with
  | none =>
    cases hlanes : e.lanes with
    | candidate => simp [hlanes, hoverride, compareLane] at hcandidate
    | effective => simp [hlanes, hoverride, compareLane] at heffective
    | both => simp [hlanes, hoverride, compareLane] at hcandidate
  | some override =>
    refine ⟨override, rfl, ?_, ?_⟩
    · intro hlanes hne
      simp [hlanes, compareLane, hne]
    · intro hlanes hne
      simp [hlanes, compareLane, hne]

variable {primary : ComparisonPrimaryClassification} {findings : List Finding}
  {reason : Option ReasonCode} {finding : Finding}

/-- Two lanes that both differ are a finding of their own. -/
theorem findingsOf_noticed (h : findingsOf printable e = .ok (findings, false)) :
    ∃ override, e.override = some override ∧ Noticed e findings override ∧
      (e.lanes = .both → e.capture.candidate ≠ override.calculatedCandidate →
        e.capture.effective ≠ override.effectiveOutput → .critical ∈ findings) := by
  cases hvalues : compareValues e.capture e.override e.lanes with
  | mk values missing =>
    unfold findingsOf at h
    simp only [hvalues] at h
    obtain ⟨trace, -, h⟩ := bind_eq_ok.mp h
    cases h
    obtain ⟨override, hoverride, hnoticed⟩ := compareValues_noticed hvalues
    refine ⟨override, hoverride, ⟨?_, ?_⟩, ?_⟩
    · intro hlanes hne
      simp [hnoticed.candidate hlanes hne]
    · intro hlanes hne
      simp [hnoticed.effective hlanes hne]
    · intro hlanes hcandidate heffective
      have hc := hnoticed.candidate (by simp [hlanes]) hcandidate
      have he := hnoticed.effective (by simp [hlanes]) heffective
      simp [hc, he]

theorem classify_critical (h : classifyFindings findings contract = .ok primary) (hmem : finding ∈ findings)
    (hlabel : contract.label finding = .str "critical_divergence") :
    primary = .criticalDivergence := by
  obtain ⟨labels, hlabels, h⟩ := bind_eq_ok.mp h
  obtain ⟨label, hlabelMem, hof⟩ := forall₂_right_mem (mapM_ok.mp hlabels) hmem
  rw [hlabel] at hof
  have hsome : label = some .criticalDivergence := by
    rw [← ok.inj hof]
    decide +kernel
  have hmapped : ComparisonPrimaryClassification.criticalDivergence ∈ labels.filterMap id := by
    rw [mem_filterMap]
    exact ⟨label, hlabelMem, hsome⟩
  cases hcases : labels.filterMap id with
  | nil =>
    rw [hcases] at hmapped
    cases hmapped
  | cons first rest =>
    rw [hcases] at hmapped
    have hfirst : classificationPrecedence.find? (fun c => decide (c ∈ first :: rest)) =
        some .criticalDivergence := by
      rw [classificationPrecedence, find?_cons_of_pos (by simpa using hmapped)]
    simp only [hcases, hfirst] at h
    exact (ok.inj h).symm

/-- What a contract's label, or the common one, makes of a finding is not critical. -/
def Lenient (contract : ShapeComparisonContract) (finding : Finding) : Prop :=
  contract.label finding ≠ .str "critical_divergence"

/-- Each required lane has one value on both sides, or its divergence is not critical. -/
structure LanesAgree (lanes : OutputLane) (contract : ShapeComparisonContract)
    (capture : LegacyFormulaCapture) (override : PackagePriceOverride) : Prop where
  candidate : lanes ≠ .effective → capture.candidate = override.calculatedCandidate ∨
    Lenient contract .candidateValueDivergence
  effective : lanes ≠ .candidate → capture.effective = override.effectiveOutput ∨
    Lenient contract .effectiveValueDivergence
  both : lanes = .both → capture.candidate = override.calculatedCandidate ∨
    capture.effective = override.effectiveOutput ∨ Lenient contract .critical

theorem primary_lenient
    (h : primaryOf findings contract = .ok primary) (hpassing : primary ∈ passingClassifications)
    (hmem : finding ∈ findings) : Lenient contract finding := by
  intro hlabel
  unfold primaryOf at h
  split at h
  · rename_i hempty
    rw [isEmpty_iff.mp hempty] at hmem
    cases hmem
  · rw [classify_critical h hmem hlabel] at hpassing
    exact absurd hpassing (by decide)

@[simp] theorem filed_confidence : (filed confidence reason primary findings).confidence = confidence := by
  unfold filed
  split
  · rfl
  · split
    · rfl
    · rfl

theorem filed_primary : (filed .verified reason primary findings).primary = primary := by
  unfold filed
  split
  · rename_i h
    exact absurd rfl h.1
  · split
    · rfl
    · rfl

theorem outcomeOf_agree (h : outcomeOf printable e = .ok outcome) (hverified : outcome.confidence = .verified)
    (hpassing : outcome.primary ∈ passingClassifications) :
    ∃ override, e.override = some override ∧ LanesAgree e.lanes e.contract e.capture override := by
  unfold outcomeOf at h
  split at h
  · obtain ⟨⟨findings, missing⟩, hfindings, h⟩ := bind_eq_ok.mp h
    obtain ⟨primary, hprimary, h⟩ := bind_eq_ok.mp h
    cases missing with
    | true =>
      cases h
      rw [if_pos rfl, filed_confidence] at hverified
      cases hverified
    | false =>
      cases h
      rw [if_neg (by decide), filed_primary] at hpassing
      obtain ⟨override, hoverride, hnoticed, hboth⟩ := findingsOf_noticed hfindings
      have hlenient : ∀ finding ∈ findings, Lenient e.contract finding :=
        fun finding hmem => primary_lenient hprimary hpassing hmem
      refine ⟨override, hoverride, ?_, ?_, ?_⟩
      · intro hlanes
        by_cases heq : e.capture.candidate = override.calculatedCandidate
        · exact .inl heq
        · exact .inr (hlenient _ (hnoticed.candidate hlanes heq))
      · intro hlanes
        by_cases heq : e.capture.effective = override.effectiveOutput
        · exact .inl heq
        · exact .inr (hlenient _ (hnoticed.effective hlanes heq))
      · intro hlanes
        by_cases hcandidate : e.capture.candidate = override.calculatedCandidate
        · exact .inl hcandidate
        · by_cases heffective : e.capture.effective = override.effectiveOutput
          · exact .inr (.inl heffective)
          · exact .inr (.inr (hlenient _ (hboth hlanes hcandidate heffective)))
  · rename_i hnot _
    cases h
    rw [filed_confidence] at hverified
    exact (hnot hverified).elim

end Values

section Tally

variable {db : Db} {comparison : ShadowValidationComparison} {comparisons : List ShadowValidationComparison}

/-- What lets a comparison count. -/
structure MayCount (db : Db) (comparison : ShadowValidationComparison) : Prop where
  verified : comparison.confidence = .verified
  contract : ∃ contract current, contractOf db comparison.comparisonContractId = some contract ∧
    comparison.comparisonContractRevisionChecksum = contract.contractChecksum ∧
    currentContract db contract.shapeId = .ok (some current) ∧ current.id = contract.id ∧
    current.targetKind = .priceTarget ∧ current.acceptanceEffect = .mayCount
  passing : comparison.primaryClassification ∈ passingClassifications

def Clean (tally : Tally) : Prop := tally.contractUnavailable = false ∧ tally.nonReady = false

theorem stillCounting_contract (h : comparisonContractStillCounting db comparison = .ok true) :
    ∃ contract current, contractOf db comparison.comparisonContractId = some contract ∧
      currentContract db contract.shapeId = .ok (some current) ∧ current.id = contract.id ∧
      current.targetKind = .priceTarget ∧ current.acceptanceEffect = .mayCount := by
  unfold comparisonContractStillCounting at h
  split at h
  · cases h
  rename_i contract hcontract
  obtain ⟨named, hnamed, h⟩ := bind_eq_ok.mp h
  cases named with
  | none => cases h
  | some current =>
    have hall := ok.inj h
    simp only [Bool.and_eq_true, decide_eq_true_eq] at hall
    exact ⟨contract, current, hcontract, hnamed, hall.1.1, hall.1.2, hall.2⟩

variable {tally next : Tally}

/-- A round counts its comparison, or nothing. One whose identity has been counted is not. -/
theorem tallyOne_counted (h : tallyOne db tally comparison = .ok next) :
    next.counted = tally.counted ∨ next.counted = tally.counted ++ [comparison] ∧
      ∀ c ∈ tally.counted, c.comparisonIdentityChecksum ≠ comparison.comparisonIdentityChecksum := by
  unfold tallyOne at h
  split at h
  · cases h
    exact .inl rfl
  obtain ⟨counting, -, h⟩ := bind_eq_ok.mp h
  simp only at h
  split at h
  · cases h
    exact .inl rfl
  split at h
  · cases h
    exact .inl rfl
  split at h
  · cases h
    exact .inl rfl
  · rename_i hnew
    cases h
    refine .inr ⟨rfl, ?_⟩
    intro c hc heq
    exact hnew (any_eq_true.mpr ⟨c, hc, decide_eq_true heq⟩)

/-- A round that leaves the tally clean found a comparison that may count. -/
theorem tallyOne_clean (h : tallyOne db tally comparison = .ok next)
    (hclean : Clean next) : Clean tally ∧ MayCount db comparison := by
  unfold tallyOne at h
  split at h
  · cases h
    exact absurd hclean.2 (by simp)
  rename_i hverified
  obtain ⟨counting, hcounting, h⟩ := bind_eq_ok.mp h
  simp only at h
  split at h
  · cases h
    exact absurd hclean.1 (by simp)
  rename_i hcontract
  simp only [Bool.or_eq_true, Bool.not_eq_true', not_or, Bool.not_eq_false] at hcontract
  obtain ⟨rfl, hall⟩ := hcontract
  split at h
  · cases h
    exact absurd hclean.2 (by simp)
  rename_i hpassing
  obtain ⟨contract, current, hrow, hrest⟩ := stillCounting_contract hcounting
  have hchecksum : comparison.comparisonContractRevisionChecksum = contract.contractChecksum := by
    simpa [hrow] using hall
  have hmay : MayCount db comparison :=
    ⟨not_not.mp hverified, ⟨contract, current, hrow, hchecksum, hrest⟩, not_not.mp hpassing⟩
  split at h
  · cases h
    exact ⟨hclean, hmay⟩
  · cases h
    exact ⟨hclean, hmay⟩

theorem tally_clean (h : comparisons.foldlM (tallyOne db) start = .ok tally) (hclean : Clean tally) :
    Clean start ∧ ∀ c ∈ comparisons, MayCount db c := by
  induction comparisons generalizing start with
  | nil =>
    cases h
    exact ⟨hclean, by simp⟩
  | cons comparison rest ih =>
    obtain ⟨next, hnext, hrest⟩ := bind_eq_ok.mp h
    obtain ⟨hnextClean, hall⟩ := ih hrest
    obtain ⟨hstartClean, hmay⟩ := tallyOne_clean hnext hnextClean
    exact ⟨hstartClean, forall_mem_cons.mpr ⟨hmay, hall⟩⟩

/-- What a pass over comparisons has counted: some of them, each identity once. -/
structure Counted (comparisons counted : List ShadowValidationComparison) : Prop where
  subset : counted ⊆ comparisons
  nodup : (counted.map (·.comparisonIdentityChecksum)).Nodup

theorem tally_counted (h : comparisons.foldlM (tallyOne db) {} = .ok tally) :
    Counted comparisons tally.counted := by
  apply foldlM_keeps (P := fun t : Tally => Counted comparisons t.counted) _ ⟨by simp, by simp⟩ h
  intro comparison hmem before after hbefore hafter
  rcases tallyOne_counted hafter with hsame | ⟨hnext, hnew⟩
  · rw [hsame]
    exact hbefore
  rw [hnext]
  constructor
  · intro c hc
    rcases mem_append.mp hc with hc | hc
    · exact hbefore.subset hc
    · rw [mem_singleton.mp hc]
      exact hmem
  · rw [map_append, nodup_append]
    refine ⟨hbefore.nodup, by simp, ?_⟩
    intro a ha b hb
    obtain ⟨c, hc, rfl⟩ := mem_map.mp ha
    rw [map_singleton, mem_singleton] at hb
    rw [hb]
    exact hnew c hc

end Tally

/-- What a comparison compares, and how. -/
def identity (comparison : ShadowValidationComparison) : Id × Id × Id × String :=
  (comparison.frozenEvaluationPackageId, comparison.legacyFormulaCaptureId,
    comparison.comparisonContractId, comparison.comparisonAlgorithmVersion)

theorem identity_checksum (ha : MadeOf printable hash db a e) (hb : MadeOf printable hash db b f)
    (heq : identity a = identity b) :
    a.comparisonIdentityChecksum = b.comparisonIdentityChecksum := by
  obtain ⟨algorithm, _, _, -, rfl⟩ := ha.outcome
  obtain ⟨algorithm', _, _, -, rfl⟩ := hb.outcome
  simp only [identity, comparisonOf, Prod.mk.injEq] at heq
  obtain ⟨hfep, hcapture, hcontract, rfl⟩ := heq
  have hpackages : e.fep = f.fep := by
    have := ha.package
    rw [hfep, hb.package] at this
    exact (Option.some.inj this).symm
  have hcaptures : e.capture = f.capture := by
    have := ha.capture
    rw [hcapture, hb.capture] at this
    exact (Option.some.inj this).symm
  obtain ⟨_, hrow⟩ := ha.contract
  obtain ⟨_, hrow'⟩ := hb.contract
  rw [hcontract, hrow'] at hrow
  have hrows := Option.some.inj hrow
  have hchecksum := congrArg ShapeComparisonContract.contractChecksum hrows
  have hstable := congrArg ShapeComparisonContract.stableRuleIdentity hrows
  simp only at hchecksum hstable
  simp [comparisonOf, comparisonIdentityChecksum, ha.channel, hb.channel, hpackages, hcaptures,
    hcontract, hchecksum, hstable]

/-- A comparison of a window that counts towards its readiness. -/
structure Counts (printable : Char → Bool) (db : Db) (window : ShadowValidationWindow)
    (now : Moment) (c : ShadowValidationComparison) : Prop where
  stored : c ∈ db.comparisons ∧ c.validationWindowId = window.id
  unexpired : evidenceExpired window now c = false
  verified : c.confidence = .verified
  /-- The contract of its shape, with the two outputs it compares. -/
  backed : ∃ contract capture override,
    contractOf db c.comparisonContractId = some contract ∧ contract.shapeId = c.shapeId ∧
    (∃ current, currentContract db c.shapeId = .ok (some current) ∧ current.id = contract.id ∧
      current.targetKind = .priceTarget ∧ current.acceptanceEffect = .mayCount) ∧
    Table.get LegacyFormulaCapture.id db.captures c.legacyFormulaCaptureId = some capture ∧
    overrideOf db c.frozenEvaluationPackageId = .ok (some override) ∧
    normalizeOutputLanes printable contract.requiredOutputLanes = .ok c.requiredOutputLanes ∧
    LanesAgree c.requiredOutputLanes contract capture override

variable {c : ShadowValidationComparison} {now : Moment}

theorem mem_windowComparisons :
    c ∈ windowComparisons db windowId ↔ c ∈ db.comparisons ∧ c.validationWindowId = windowId := by
  unfold windowComparisons
  rw [(perm_insertionSort _ _).mem_iff, mem_filter, decide_eq_true_eq]

theorem counts_of_may (he : MadeOf printable hash db c e)
    (hstored : c ∈ windowComparisons db window.id) (hunexpired : evidenceExpired window now c = false)
    (hmay : MayCount db c) : Counts printable db window now c := by
  obtain ⟨contract, current, hcontract, -, hcurrent, hid, hkind, heffect⟩ := hmay.contract
  obtain ⟨algorithm, request, outcome, houtcome, hc⟩ := he.outcome
  have hverified : outcome.confidence = .verified := by
    have := hmay.verified
    rw [hc] at this
    exact this
  have hpassing : outcome.primary ∈ passingClassifications := by
    have := hmay.passing
    rw [hc] at this
    exact this
  obtain ⟨override, hoverride, hagree⟩ := outcomeOf_agree houtcome hverified hpassing
  obtain ⟨isCurrent, hrow⟩ := he.contract
  have hcontractId : c.comparisonContractId = e.contract.id := by rw [hc]; rfl
  have hsame : contract = { e.contract with isCurrent } := by
    rw [hcontractId, hrow] at hcontract
    exact (Option.some.inj hcontract).symm
  have hshape : contract.shapeId = c.shapeId := by
    rw [hsame, hc]
    rfl
  have hcapture := he.capture
  have hvalues := he.override override hoverride
  refine ⟨mem_windowComparisons.mp hstored, hunexpired, hmay.verified, contract, e.capture, override,
    hcontract, hshape, ⟨current, hshape ▸ hcurrent, hid, hkind, heffect⟩, ?_, ?_, ?_, ?_⟩
  · rw [hc]
    exact hcapture
  · rw [hc]
    exact hvalues
  · rw [hc, hsame]
    exact he.lanes
  · rw [hc, hsame]
    exact ⟨hagree.candidate, hagree.effective, hagree.both⟩

theorem tallied_counted (window : ShadowValidationWindow) (isExpired : Bool) (tally : Tally) :
    (tallied window isExpired tally).counted = tally.counted := by
  unfold tallied
  split
  · rfl
  split
  · split
    · rfl
    · rfl
  · split
    · rfl
    · rfl

theorem tallied_ready (h : (tallied window isExpired tally).decision = .ready) :
    Clean tally ∧ window.requiredDistinctMatches ≤ tally.counted.length := by
  unfold tallied at h
  split at h
  · cases h
  rename_i hcontracts
  split at h
  · split at h
    · cases h
    · cases h
  · split at h
    · cases h
    · rename_i hblocked
      exact ⟨⟨by simpa using hcontracts, by simpa using hblocked⟩, by omega⟩

/-- What a ready verdict has looked at. -/
theorem verdict_ready (h : verdictOf db channelId window now = .ok verdict)
    (hready : verdict.decision = .ready) : headsInForce db channelId window = true ∧
      (∀ c ∈ windowComparisons db window.id, evidenceExpired window now c = false ∧ MayCount db c) ∧
      window.requiredDistinctMatches ≤ verdict.counted.length ∧
      Counted (windowComparisons db window.id) verdict.counted := by
  obtain ⟨invalidated, hinvalidated, h⟩ := bind_eq_ok.mp h
  split at h
  · cases h
    cases hready
  rename_i hscope
  split at h
  · cases h
    cases hready
  rename_i hexpired
  split at h
  · cases h
    cases hready
  obtain ⟨tally, htally, h⟩ := bind_eq_ok.mp h
  cases h
  have hheads : headsInForce db channelId window = true := by
    by_contra hgone
    unfold isScopeInvalidated at hinvalidated
    simp only [Bool.not_eq_true _ ▸ hgone, Bool.not_false, Bool.true_or, if_true] at hinvalidated
    exact hscope (ok.inj hinvalidated).symm
  obtain ⟨hclean, henough⟩ := tallied_ready hready
  have hall := (tally_clean htally hclean).2
  rw [tallied_counted]
  refine ⟨hheads, ?_, henough, tally_counted htally⟩
  intro c hc
  rw [any_eq_true, not_exists] at hexpired
  exact ⟨by simpa using fun hold => hexpired c ⟨hc, hold⟩, hall c hc⟩

/-- Readiness rests on enough comparisons of different identity, all fit to count, and on no
comparison that speaks against it. -/
theorem ready_sound {db : Db} {head : Option ShadowValidationWindowHead} {channelId : Id}
    {now : Moment} {projection : ShadowValidationReadinessProjection}
    (hreached : Reachable printable hash u db)
    (h : snapshot hash db head channelId now = .ok projection) (hready : projection.decision = .ready) :
    ∃ (window : ShadowValidationWindow) (counted : List ShadowValidationComparison),
      head.bind (·.currentWindowId) = some window.id ∧ windowOf db window.id = some window ∧
      projection.comparisonIds = sortedSet (counted.map (·.id)) ∧
      window.requiredDistinctMatches ≤ counted.length ∧ (counted.map identity).Nodup ∧
      (∀ c ∈ counted, Counts printable db window now c) ∧
      (∀ c ∈ db.comparisons, c.validationWindowId = window.id →
        c.primaryClassification ≠ .criticalDivergence ∧ c.primaryClassification ≠ .notPossible) ∧
      headsInForce db channelId window = true := by
  have hbacked := reachable_backed hreached
  unfold snapshot at h
  split at h
  · cases h
    cases hready
  split at h
  · cases h
    cases hready
  rename_i windowId hwindowId
  split at h
  · cases h
    cases hready
  rename_i window hwindow
  obtain ⟨verdict, hverdict, rfl⟩ := map_eq_ok.mp h
  obtain ⟨hheads, hall, henough, hcounted⟩ := verdict_ready hverdict hready
  have hid := (Table.get_some hwindow).2
  refine ⟨window, verdict.counted, ?_, ?_, rfl, henough, ?_, ?_, ?_, hheads⟩
  · rw [Option.bind_some, hwindowId, hid]
  · rw [hid]
    exact hwindow
  · apply pairwise_map.mpr
    apply (pairwise_map.mp hcounted.nodup).imp_of_mem
    intro a b ha hb hne heq
    obtain ⟨e, he⟩ := hbacked a (mem_windowComparisons.mp (hcounted.subset ha)).1
    obtain ⟨f, hf⟩ := hbacked b (mem_windowComparisons.mp (hcounted.subset hb)).1
    exact hne (identity_checksum he hf heq)
  · intro c hc
    have hmem := hcounted.subset hc
    obtain ⟨e, he⟩ := hbacked c (mem_windowComparisons.mp hmem).1
    exact counts_of_may he hmem (hall c hmem).1 (hall c hmem).2
  · intro c hc hwindowOf
    have hpassing := (hall c (mem_windowComparisons.mpr ⟨hc, hwindowOf⟩)).2.passing
    constructor
    · intro heq
      rw [heq] at hpassing
      exact absurd hpassing (by decide)
    · intro heq
      rw [heq] at hpassing
      exact absurd hpassing (by decide)

namespace Sample

def rendered : Hashing := ⟨id, Json.render⟩

variable (required : Nat)

def window : ShadowValidationWindow where
  id := "w"
  channelId := "c"
  scopeManifestChecksum := "s"
  formulaInventoryChecksum := "f"
  acceptancePolicyRevision := "p"
  pricingPolicyRevisionId := none
  pricingPolicyActivationId := none
  pricingAuthorityEventId := "e"
  pricingAuthorityHeadVersion := 1
  closesAt := none
  evidenceFreshnessSeconds := none
  requiredDistinctMatches := required
  configurationChecksum := ""

/-- A contract that files no finding anywhere itself. -/
def contract : ShapeComparisonContract where
  id := "k"
  shapeId := "S1"
  contractRevision := "1"
  contractChecksum := "kc"
  targetKind := .priceTarget
  stableRuleIdentity := .obj []
  requiredInputIdentity := .obj []
  requiredOutputLanes := .arr [.str "effective"]
  canonicalContext := .obj []
  requiredTraceComponents := .arr []
  acceptanceEffect := .mayCount
  classificationMapping := []
  isCurrent := true

def package : StoredPackage where
  id := "p"
  workspaceId := none
  channelId := "c"
  productRef := "r"
  workspacePricingEvaluatedAt := ""
  pricingPolicyRevisionId := none
  formulaShapeId := "S1"
  translatorVersion := "t"
  fxSnapshotId := none
  currencyUnitRegistryVersion := "1"
  channelConfigRevisionId := none
  mappingRevisionId := none
  productMetadataFingerprint := none
  arithmeticVersion := "1"
  dependencyFingerprint := "d"
  checksum := "pc"
  createdByUserId := none
  createdAt := 0

variable (effective : ℚ)

def capture : LegacyFormulaCapture where
  id := "l"
  channelId := "c"
  frozenEvaluationPackageId := "p"
  formulaShapeId := "S1"
  formulaRuleIdentity := "r"
  inputManifestChecksum := "m"
  pricingAuthorityEventId := "e"
  pricingAuthorityHeadVersion := 1
  candidate := 100
  effective := effective
  candidateCurrency := none
  candidateUnit := none
  effectiveCurrency := none
  effectiveUnit := none
  outputContext := .obj []
  captureChecksum := "lc"

def override : PackagePriceOverride := ⟨"o", "p", 100, none, none, 100, "calculated"⟩

def head : ShadowValidationWindowHead := ⟨"c", some "w", .collecting, 0⟩

/-- A window that asks for some comparisons. The sheet said `effective`, the package says 100. -/
def db (comparisons : List ShadowValidationComparison) : Db where
  windows := [window required]
  windowHeads := [head]
  contracts := [contract]
  captures := [capture effective]
  comparisons := comparisons
  packages := [package]
  overrides := [override]
  authorityHeads := [⟨"c", .legacyFormulaEngine, "e", 1⟩]

def request (id algorithm : String) (createdAt : Moment) : AssembleRequest where
  id := id
  validationWindowId := "w"
  frozenEvaluationPackageId := "p"
  legacyFormulaCaptureId := "l"
  comparisonAlgorithmVersion := algorithm
  createdAt := createdAt

def comparison (id algorithm : String) (createdAt : Moment)
    (outcome : Outcome) : ShadowValidationComparison :=
  comparisonOf rendered ⟨window required, package, capture effective, contract, .effective, some override⟩
    algorithm (request id algorithm createdAt) outcome

def equal : Outcome := ⟨.verified, .exactMatch, [], [], none⟩

def rounded : Outcome :=
  ⟨.verified, .acceptedExpectedRounding, [.acceptedExpectedRounding], [.effectiveValueDivergence], none⟩

theorem db_reached : Reachable (fun _ => true) rendered .ascii (db required effective []) :=
  .initial _ rfl

theorem assembled {required : Nat} {effective : ℚ} {stored : List ShadowValidationComparison}
    {comparison : ShadowValidationComparison} {r : AssembleRequest}
    (reached : Reachable (fun _ => true) rendered .ascii (db required effective stored))
    (hcompared : compared (fun _ => true) rendered .ascii (db required effective stored) (some head) r =
      .ok comparison)
    (hnew : Table.has ShadowValidationComparison.id stored comparison.id = false) :
    Reachable (fun _ => true) rendered .ascii (db required effective (stored ++ [comparison])) := by
  have hunique : ((db required effective stored).contracts.map ShapeComparisonContract.id).Nodup :=
    nodup_singleton _
  refine .next reached (.assemble _ (.refl hunique) (some head) r comparison hcompared ?_)
  unfold storeComparison
  rw [if_neg (by simpa [db] using hnew)]
  rfl

end Sample

open Sample

/-- One comparison of equal values. -/
theorem equal_ready : ∃ projection, snapshot rendered
      (db 1 100 [Sample.comparison 1 100 "1" "v1" 0 Sample.equal]) (some Sample.head) "c" 0 =
        .ok projection ∧ projection.decision = .ready ∧
      ∃ (window : ShadowValidationWindow) (counted : List ShadowValidationComparison),
        window.requiredDistinctMatches ≤ counted.length ∧ (counted.map identity).Nodup ∧
        projection.comparisonIds = sortedSet (counted.map (·.id)) := by
  have hcompared : compared (fun _ => true) rendered .ascii (db 1 100 [])
      (some Sample.head) (Sample.request "1" "v1" 0) =
        .ok (Sample.comparison 1 100 "1" "v1" 0 Sample.equal) := by decide +kernel
  have hreached := assembled (db_reached 1 100) hcompared (by decide +kernel)
  have hready : (snapshot rendered
      (db 1 100 [Sample.comparison 1 100 "1" "v1" 0 Sample.equal]) (some Sample.head) "c" 0).map
        (·.decision) = .ok .ready := by decide +kernel
  obtain ⟨projection, hprojection, hdecision⟩ := map_eq_ok.mp hready
  obtain ⟨window, counted, -, -, hids, henough, hnodup, -⟩ :=
    ready_sound hreached hprojection hdecision
  exact ⟨projection, hprojection, hdecision, window, counted, henough, hnodup, hids⟩

/-- A window that asks for two matches is ready with one pair compared twice, under two names of
the algorithm, although the values differ and the contract accepts no difference. -/
theorem repeated_ready : ∃ db, Reachable (fun _ => true) rendered .ascii db ∧
    (snapshot rendered db (headOf db "c") "c" 0).map (·.decision) = .ok .ready ∧
    (windowOf db "w").map (·.requiredDistinctMatches) = some 2 ∧
    (∀ c ∈ db.comparisons, c.frozenEvaluationPackageId = "p" ∧ c.legacyFormulaCaptureId = "l") ∧
    (db.captures.map (·.effective), db.overrides.map (·.effectiveOutput)) = ([99], [100]) ∧
    ∀ contract ∈ db.contracts, contract.classificationMapping = [] := by
  have hfirst : compared (fun _ => true) rendered .ascii (Sample.db 2 99 [])
      (some Sample.head) (Sample.request "1" "v1" 0) =
        .ok (Sample.comparison 2 99 "1" "v1" 0 Sample.rounded) := by decide +kernel
  have hsecond : compared (fun _ => true) rendered .ascii
      (Sample.db 2 99 [Sample.comparison 2 99 "1" "v1" 0 Sample.rounded])
      (some Sample.head) (Sample.request "2" "v2" 1) =
        .ok (Sample.comparison 2 99 "2" "v2" 1 Sample.rounded) := by decide +kernel
  have hone := assembled (db_reached 2 99) hfirst (by decide +kernel)
  have htwo := assembled hone hsecond (by decide +kernel)
  exact ⟨_, htwo, by decide +kernel, by decide +kernel, by decide +kernel, by decide +kernel,
    by simp [Sample.db, Sample.contract]⟩

end FlowHub.ShadowValidation
