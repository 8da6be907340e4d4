import FlowHub.ShadowValidation.Comparison

namespace FlowHub.ShadowValidation

open Python Txn PricingEvaluation List

inductive WindowReadinessState where
  | ready | notReady
  deriving DecidableEq

def WindowReadinessState.value : WindowReadinessState → String
  | ready => "ready"
  | notReady => "not_ready"

inductive WindowReadinessReason where
  | coverageIncomplete | evidenceExpired | scopeInvalidated | contractUnavailable | notPossible
  | casConflict

def WindowReadinessReason.value : WindowReadinessReason → String
  | coverageIncomplete => "comparison_coverage_incomplete"
  | evidenceExpired => "comparison_evidence_expired"
  | scopeInvalidated => "comparison_scope_invalidated"
  | contractUnavailable => "comparison_contract_unavailable"
  | notPossible => "comparison_not_possible"
  | casConflict => "comparison_cas_conflict"

structure ShadowValidationReadinessProjection where
  (validationWindowId channelId : Id)
  decision : WindowReadinessState
  reasonCode : Option WindowReadinessReason
  (comparedCount requiredComparisonCount : Nat)
  comparisonIds : List Id
  readinessPayload : List (String × Json)
  aggregateChecksum : String
  headVersionSnapshot : Nat
  isExpired : Bool
  configurationChecksum : String

def passingClassifications : List ComparisonPrimaryClassification :=
  [.exactMatch, .acceptedExpectedRounding, .acceptedDocumentedSemanticDifference, .reviewRequired]

def latestPackage (packages : List StoredPackage) : Option StoredPackage :=
  (packages.insertionSort fun a b =>
    b.createdAt < a.createdAt ∨ (a.createdAt = b.createdAt ∧ a.id ≤ b.id)).head?

/-- Decisions in descending order of their moment and their id. -/
def latestDecision (decisions : List ManualInputDecision) : Option ManualInputDecision :=
  (decisions.insertionSort fun a b =>
    b.createdAt < a.createdAt ∨ (a.createdAt = b.createdAt ∧ b.id ≤ a.id)).head?

def manualInputDecisionIsCurrent (db : Db) (decisionId : Id) : Bool :=
  match Table.get ManualInputDecision.id db.manualDecisions decisionId with
  | none => false
  | some decision =>
    match latestDecision (db.manualDecisions.filter fun d =>
      decide (d.manualInputRevisionId = decision.manualInputRevisionId)) with
    | none => false
    | some latest => decide (latest.id = decision.id) && decide (latest.decision = .approved)

def manualInputsStable (db : Db) (packageId : Id) : Bool :=
  (db.manualPins.filter fun pin => decide (pin.packageId = packageId)).all fun pin =>
    manualInputDecisionIsCurrent db pin.manualInputDecisionId

def packageOverrideStable (db : Db) (packageId : Id) : Except Fault Bool := do
  let override ← overrideOf db packageId
  pure <| match override.bind (·.overrideManualInputDecisionId) with
    | none => true
    | some decisionId => manualInputDecisionIsCurrent db decisionId

def comparisonPackageStable (db : Db) (comparison : ShadowValidationComparison) : Except Fault Bool :=
  match packageOf db comparison.frozenEvaluationPackageId with
  | none => .ok false
  | some package =>
    match latestPackage (db.packages.filter fun p => decide (p.channelId = package.channelId)) with
    | none => .ok false
    | some latest =>
      if latest.id ≠ package.id ∨ comparison.frozenEvaluationPackageChecksum ≠ package.checksum ∨
          comparison.translatorVersion ≠ latest.translatorVersion ∨
          package.arithmeticVersion ≠ latest.arithmeticVersion ∨
          package.currencyUnitRegistryVersion ≠ latest.currencyUnitRegistryVersion ∨
          package.dependencyFingerprint ≠ latest.dependencyFingerprint then .ok false
      else if !manualInputsStable db comparison.frozenEvaluationPackageId then .ok false
      else packageOverrideStable db package.id

def windowComparisons (db : Db) (windowId : Id) : List ShadowValidationComparison :=
  (db.comparisons.filter fun c => decide (c.validationWindowId = windowId)).insertionSort fun a b =>
    a.createdAt < b.createdAt ∨ (a.createdAt = b.createdAt ∧
      textsLe [a.comparisonIdentityChecksum, a.id] [b.comparisonIdentityChecksum, b.id] = true)

/-- The round of `_is_scope_invalidated`: whether the scope of a comparison has gone. -/
def comparisonInvalidated (db : Db) (activation : Option PricingPolicyLifecycleEvent)
    (comparison : ShadowValidationComparison) : Except Fault Bool := do
  let contract := contractOf db comparison.comparisonContractId
  if contract.any fun c => decide (comparison.comparisonContractRevisionChecksum ≠ c.contractChecksum) then
    pure true
  else if !(← comparisonPackageStable db comparison) then pure true
  else pure <| match packageOf db comparison.frozenEvaluationPackageId with
    | none => true
    | some package =>
      match package.channelConfigRevisionId with
      | none => false
      | some revisionId =>
        match activation with
        | none => true
        | some event => decide (event.channelConfigRevisionId ≠ some revisionId)

/-- `any`, up to the first that holds or raises. -/
def anyOf {α : Type} (test : α → Except Fault Bool) : List α → Except Fault Bool
  | [] => .ok false
  | a :: rest => do if ← test a then pure true else anyOf test rest

/-- The activation that is in force. -/
def activationOf (db : Db) (channelId : Id) : Option Id :=
  (Table.get ChannelPricingPolicyHead.channelId db.policyHeads channelId).bind
    (·.effectiveActivationId)

/-- The pinned authority and policy are those in force. -/
def headsInForce (db : Db) (channelId : Id) (window : ShadowValidationWindow) : Bool :=
  match Table.get ChannelPricingAuthorityHead.channelId db.authorityHeads channelId with
  | none => false
  | some authorityHead =>
    decide (authorityHead.effectiveEventId = window.pricingAuthorityEventId) &&
      decide (authorityHead.headVersion = window.pricingAuthorityHeadVersion) &&
      decide (activationOf db channelId = window.pricingPolicyActivationId)

def activationEvent (db : Db) (channelId : Id) : Option PricingPolicyLifecycleEvent :=
  (activationOf db channelId).bind (Table.get PricingPolicyLifecycleEvent.id db.policyEvents)

def isScopeInvalidated (db : Db) (channelId : Id) (window : ShadowValidationWindow) : Except Fault Bool :=
  let event := activationEvent db channelId
  let revisionGone := match window.pricingPolicyRevisionId with
    | some revisionId => decide (event.bind (·.policyRevisionId) ≠ some revisionId)
    | none => event.isSome
  if !headsInForce db channelId window || revisionGone then .ok true
  else anyOf (comparisonInvalidated db event) (windowComparisons db window.id)

def comparisonContractStillCounting (db : Db) (comparison : ShadowValidationComparison) : Except Fault Bool :=
  match contractOf db comparison.comparisonContractId with
  | none => .ok false
  | some contract => do
    match ← currentContract db contract.shapeId with
    | none => pure false
    | some current =>
      pure (decide (current.id = contract.id) && decide (current.targetKind = .priceTarget) &&
        decide (current.acceptanceEffect = .mayCount))

/-- What the pass over the comparisons has gathered. -/
structure Tally where
  counted : List ShadowValidationComparison := []
  contractUnavailable : Bool := false
  nonReady : Bool := false
  blocking : List ComparisonPrimaryClassification := []

/-- The round of the pass over the comparisons. -/
def tallyOne (db : Db) (tally : Tally) (comparison : ShadowValidationComparison) : Except Fault Tally :=
  if comparison.confidence ≠ .verified then .ok { tally with nonReady := true }
  else do
    let counting ← comparisonContractStillCounting db comparison
    let contract := contractOf db comparison.comparisonContractId
    if !counting || contract.all fun c =>
        decide (comparison.comparisonContractRevisionChecksum ≠ c.contractChecksum) then
      pure { tally with contractUnavailable := true }
    else if comparison.primaryClassification ∉ passingClassifications then
      pure { tally with
      nonReady := true
      blocking := comparison.primaryClassification :: tally.blocking }
    else if tally.counted.any fun c =>
        decide (c.comparisonIdentityChecksum = comparison.comparisonIdentityChecksum) then pure tally
    else pure { tally with counted := tally.counted ++ [comparison] }

variable (hash : Hashing)

/-- `compute_window_checksum`. -/
def windowChecksum (window : ShadowValidationWindow) : String :=
  hash.json (.obj [("acceptance_policy_version", .str window.acceptancePolicyRevision),
    ("channel_id", .str window.channelId),
    ("formula_inventory_checksum", .str window.formulaInventoryChecksum),
    ("pricing_authority_event_id", .str window.pricingAuthorityEventId),
    ("pricing_authority_head_version", .int window.pricingAuthorityHeadVersion),
    ("pricing_policy_activation_id", .ofOption .str window.pricingPolicyActivationId),
    ("scope_manifest_checksum", .str window.scopeManifestChecksum)])

/-- `compute_readiness_checksum`. -/
def readinessChecksum (windowId : Id) (decision : WindowReadinessState)
    (reason : Option WindowReadinessReason) (count : Nat) (payload : List (String × Json)) : String :=
  hash.json (.obj [("comparison_count", .int count), ("decision", .str decision.value),
    ("readiness_payload", .obj payload), ("reason_code", .ofOption (fun r => .str r.value) reason),
    ("validation_window_id", .str windowId)])

/-- What one exit of `_snapshot` hands to `_build_snapshot`. -/
structure Verdict where
  decision : WindowReadinessState
  reasonCode : Option WindowReadinessReason
  counted : List ShadowValidationComparison
  payload : List (String × Json)
  isExpired : Bool

/-- `_build_snapshot`. The payload is a dictionary under sorted keys. -/
def buildSnapshot (window : ShadowValidationWindow) (channelId : Id) (headVersion : Nat)
    (verdict : Verdict) : ShadowValidationReadinessProjection :=
  let ids := sortedSet (verdict.counted.map (·.id))
  let payload := sortedBy (fun field => [field.1]) ([("channelId", Json.str channelId),
    ("closedReason", .ofOption (fun r => .str r.value) verdict.reasonCode),
    ("comparedCount", .int verdict.counted.length), ("comparisonIds", .arr (ids.map .str)),
    ("decision", .str verdict.decision.value), ("isExpired", .bool verdict.isExpired),
    ("requiredComparisonCount", .int window.requiredDistinctMatches),
    ("scopeChecksum", .str (windowChecksum hash window)),
    ("scopeManifestChecksum", .str window.scopeManifestChecksum), ("windowId", .str window.id)] ++
      verdict.payload)
  { validationWindowId := window.id
    channelId
    decision := verdict.decision
    reasonCode := verdict.reasonCode
    comparedCount := verdict.counted.length
    requiredComparisonCount := window.requiredDistinctMatches
    comparisonIds := ids
    readinessPayload := payload
    aggregateChecksum := readinessChecksum hash window.id verdict.decision verdict.reasonCode
      verdict.counted.length payload
    headVersionSnapshot := headVersion
    isExpired := verdict.isExpired
    configurationChecksum := window.configurationChecksum }

def withoutWindow (channelId windowId : Id) (headVersion : Nat) (flag : String) :
    ShadowValidationReadinessProjection where
  validationWindowId := windowId
  channelId := channelId
  decision := .notReady
  reasonCode := some .scopeInvalidated
  comparedCount := 0
  requiredComparisonCount := 1
  comparisonIds := []
  readinessPayload := sortedBy (fun field => [field.1]) [("decision", .str "not_ready"),
    ("scopeManifestChecksum", .str ""), ("windowId", .str windowId), (flag, .bool true)]
  aggregateChecksum := readinessChecksum hash windowId .notReady (some .scopeInvalidated) 0
    [(flag, .bool true)]
  headVersionSnapshot := headVersion
  isExpired := false
  configurationChecksum := ""

/-- A comparison stands in the way of readiness. -/
def blocked (isExpired : Bool) (tally : Tally) : Verdict where
  decision := .notReady
  reasonCode := some .notPossible
  counted := tally.counted
  payload := [("blockingClassifications",
      .arr ((sortedSet (tally.blocking.map ComparisonPrimaryClassification.value)).map .str)),
    ("comparisonCount", .int tally.counted.length)]
  isExpired := isExpired

/-- The exits of `_snapshot` after the pass over the comparisons. -/
def tallied (window : ShadowValidationWindow) (isExpired : Bool) (tally : Tally) : Verdict :=
  let count := ("comparisonCount", Json.int tally.counted.length)
  if tally.contractUnavailable then
    ⟨.notReady, some .contractUnavailable, tally.counted, [count, ("contractUnavailable", .bool true)], false⟩
  else if tally.counted.length < window.requiredDistinctMatches then
    if tally.nonReady then blocked isExpired tally
    else ⟨.notReady, some .coverageIncomplete, tally.counted,
      [count, ("coverageIncomplete", .bool true)], isExpired⟩
  else if tally.nonReady then blocked isExpired tally
  else ⟨.ready, none, tally.counted, [count], false⟩

/-- A comparison is older than the window lets its evidence be. -/
def evidenceExpired (window : ShadowValidationWindow) (now : Moment)
    (comparison : ShadowValidationComparison) : Bool :=
  match window.evidenceFreshnessSeconds with
  | none => false
  | some seconds => decide ((seconds : ℤ) * 1000000 < now - comparison.createdAt)

/-- `_snapshot` of a window. -/
def verdictOf (db : Db) (channelId : Id) (window : ShadowValidationWindow) (now : Moment) :
    Except Fault Verdict := do
  let isExpired := window.closesAt.any fun closesAt => decide (closesAt < now)
  if ← isScopeInvalidated db channelId window then
    pure ⟨.notReady, some .scopeInvalidated, [], [("scopeInvalidated", .bool true)], isExpired⟩
  else if (windowComparisons db window.id).any (evidenceExpired window now) then
    pure ⟨.notReady, some .evidenceExpired, [], [("evidenceExpired", .bool true)], true⟩
  else if isExpired then
    pure ⟨.notReady, some .evidenceExpired, [],
      [("comparisonCount", .int 0), ("evidenceExpired", .bool true)], true⟩
  else
    let tally ← (windowComparisons db window.id).foldlM (tallyOne db) {}
    pure (tallied window isExpired tally)

/-- `_snapshot`, under the head row that the session has for the channel. -/
def snapshot (db : Db) (head : Option ShadowValidationWindowHead) (channelId : Id) (now : Moment) :
    Except Fault ShadowValidationReadinessProjection :=
  match head with
  | none => .ok (withoutWindow hash channelId "" 0 "scopeInvalidated")
  | some head =>
    match head.currentWindowId with
    | none => .ok (withoutWindow hash channelId "" 0 "scopeInvalidated")
    | some windowId =>
      match windowOf db windowId with
      | none => .ok (withoutWindow hash channelId windowId head.headVersion "windowMissing")
      | some window =>
        (verdictOf db channelId window now).map (buildSnapshot hash window channelId head.headVersion)

/-- The decisions on the revision of a decision. -/
def lineage (db : Db) (decision : ManualInputDecision) : List ManualInputDecision :=
  db.manualDecisions.filter fun d =>
    decide (d.manualInputRevisionId = decision.manualInputRevisionId)

/-- One decision comes after another, or is it. -/
def NotBefore (a b : ManualInputDecision) : Prop :=
  b.createdAt < a.createdAt ∨ (a.createdAt = b.createdAt ∧ b.id ≤ a.id)

/-- No other decision is of the moment of the last approval, and the revision has not expired. -/
def Unshaken (db : Db) (decision : ManualInputDecision) (now : Moment) (expiresAt : Option Moment) : Prop :=
  decision.decision = .approved → (∀ other ∈ lineage db decision, NotBefore decision other) →
    (∀ other ∈ lineage db decision, other.createdAt = decision.createdAt → other = decision) ∧
      ∀ expiry ∈ expiresAt, now < expiry

variable {db : Db} {decision : ManualInputDecision} {now : Moment} {expiresAt : Option Moment}

theorem resolve_ok : resolveCurrentDecision ds now expiresAt = .ok decision ↔
      latestBy ManualInputDecision.createdAt ds = [decision] ∧ decision.decision = .approved ∧
        ∀ expiry ∈ expiresAt, now < expiry := by
  unfold resolveCurrentDecision
  cases hmax : (ds.map ManualInputDecision.createdAt).max? with
  | none =>
    rw [max?_eq_none_iff, map_eq_nil_iff] at hmax
    subst hmax
    simp [latestBy]
  | some last =>
    simp only [latestBy_eq hmax]
    generalize latestBy ManualInputDecision.createdAt ds = last
    obtain _ | ⟨current, _ | _⟩ := last
    · simp
    · have hexpired : (expiresAt.any fun expiry => decide (expiry ≤ now)) = false ↔
          ∀ expiry ∈ expiresAt, now < expiry := by
        cases expiresAt <;> simp
      rw [singleton_inj, ← hexpired]
      constructor
      · intro h
        dsimp only at h
        split at h
        · cases h
        · cases h
        · rename_i happroved
          split at h
          · cases h
          rename_i hlive
          rw [Bool.not_eq_true] at hlive
          cases h
          exact ⟨rfl, happroved, hlive⟩
      · rintro ⟨rfl, happroved, hlive⟩
        simp [happroved, hlive]
    · simp

instance : DecidableRel NotBefore := fun _ _ => inferInstanceAs (Decidable (_ ∨ (_ ∧ _)))

instance : Std.Total NotBefore where
  total a b := by
    rcases lt_trichotomy a.createdAt b.createdAt with hlt | heq | hgt
    · exact .inr (.inl hlt)
    · rcases String.le_total a.id b.id with hle | hle
      · exact .inr (.inr ⟨heq.symm, hle⟩)
      · exact .inl (.inr ⟨heq, hle⟩)
    · exact .inl (.inl hgt)

instance : IsTrans ManualInputDecision NotBefore where
  trans a b c := by
    rintro (hab | ⟨hab, hid⟩) (hbc | ⟨hbc, hid'⟩)
    · exact .inl (lt_trans hbc hab)
    · exact .inl (hbc ▸ hab)
    · exact .inl (hab ▸ hbc)
    · exact .inr ⟨hab.trans hbc, String.le_trans hid' hid⟩

theorem latestDecision_some
    (h : latestDecision ds = some last) : last ∈ ds ∧ ∀ other ∈ ds, NotBefore last other := by
  have hsorted := pairwise_insertionSort NotBefore ds
  have hperm := perm_insertionSort NotBefore ds
  have h' : (ds.insertionSort NotBefore).head? = some last := h
  obtain ⟨rest, hcons⟩ := head?_eq_some_iff.mp h'
  rw [hcons] at hsorted hperm
  refine ⟨hperm.mem_iff.mp mem_cons_self, ?_⟩
  intro other hother
  rcases mem_cons.mp (hperm.mem_iff.mpr hother) with rfl | hrest
  · exact .inr ⟨rfl, String.le_refl _⟩
  · exact rel_of_pairwise_cons hsorted hrest

theorem isCurrent_iff (keys : (db.manualDecisions.map ManualInputDecision.id).Nodup)
    (stored : decision ∈ db.manualDecisions) : manualInputDecisionIsCurrent db decision.id = true ↔
      decision.decision = .approved ∧ ∀ other ∈ lineage db decision, NotBefore decision other := by
  have hget : Table.get ManualInputDecision.id db.manualDecisions decision.id = some decision :=
    Table.get_of_mem keys stored
  have hown : decision ∈ lineage db decision := by simp [lineage, stored]
  simp only [manualInputDecisionIsCurrent, hget]
  change (match latestDecision (lineage db decision) with
    | none => false
    | some latest => decide (latest.id = decision.id) && decide (latest.decision = .approved)) = true ↔ _
  cases hlatest : latestDecision (lineage db decision) with
  | none =>
    have hnil : (lineage db decision).insertionSort NotBefore = [] :=
      head?_eq_none_iff.mp hlatest
    have hmem := (perm_insertionSort NotBefore (lineage db decision)).mem_iff.mpr hown
    rw [hnil] at hmem
    cases hmem
  | some last =>
    obtain ⟨hlast, hall⟩ := latestDecision_some hlatest
    have hsame : last.id = decision.id → last = decision := by
      intro hid
      exact inj_on_of_nodup_map keys (mem_filter.mp hlast).1 stored hid
    rw [Bool.and_eq_true, decide_eq_true_eq, decide_eq_true_eq]
    constructor
    · rintro ⟨hid, happroved⟩
      rw [hsame hid] at happroved hall
      exact ⟨happroved, hall⟩
    · rintro ⟨happroved, hnewest⟩
      have hid : last.id = decision.id := by
        rcases hnewest last hlast with hlt | ⟨hdate, hle⟩
        · rcases hall decision hown with hlt' | ⟨hdate, -⟩
          · exact absurd hlt (lt_asymm hlt')
          · exact absurd hlt (hdate ▸ lt_irrefl _)
        · rcases hall decision hown with hlt' | ⟨-, hle'⟩
          · exact absurd hlt' (hdate ▸ lt_irrefl _)
          · exact String.le_antisymm hle hle'
      rw [hsame hid]
      exact ⟨rfl, happroved⟩

/-- A decision counts exactly where a new evaluation would take it, unless it is the last approval and
another is of its moment or the revision has expired. -/
theorem decision_alike_iff (db : Db) (decision : ManualInputDecision) (now : Moment)
    (expiresAt : Option Moment) (keys : (db.manualDecisions.map ManualInputDecision.id).Nodup)
    (stored : decision ∈ db.manualDecisions) :
    (manualInputDecisionIsCurrent db decision.id = true ↔
        resolveCurrentDecision (lineage db decision) now expiresAt = .ok decision) ↔
      Unshaken db decision now expiresAt := by
  have hown : decision ∈ lineage db decision := by simp [lineage, stored]
  have hnodup : (lineage db decision).Nodup := (Nodup.of_map _ keys).filter _
  have halone : latestBy ManualInputDecision.createdAt (lineage db decision) = [decision] ↔
      (∀ other ∈ lineage db decision, NotBefore decision other) ∧
        ∀ other ∈ lineage db decision, other.createdAt = decision.createdAt → other = decision := by
    rw [latestBy_singleton hnodup]
    constructor
    · rintro ⟨-, hlate⟩
      constructor
      · intro other hother
        by_cases heq : other = decision
        · exact .inr ⟨heq ▸ rfl, heq ▸ String.le_refl _⟩
        · exact .inl (hlate other hother heq)
      · intro other hother hdate
        by_contra hne
        exact absurd (hlate other hother hne) (hdate ▸ lt_irrefl _)
    · rintro ⟨hlast, honly⟩
      refine ⟨hown, ?_⟩
      intro other hother hne
      rcases hlast other hother with hlt | ⟨hdate, -⟩
      · exact hlt
      · exact absurd (honly other hother hdate.symm) hne
  rw [isCurrent_iff keys stored, resolve_ok, halone]
  unfold Unshaken
  tauto

namespace Sample

def approvals : Db where
  manualDecisions := [⟨"a", "revision", .approved, 0⟩, ⟨"b", "revision", .approved, 0⟩,
    ⟨"c", "other", .approved, 0⟩]

end Sample

open Sample

theorem decision_alike_single : manualInputDecisionIsCurrent approvals "c" = true ∧
      resolveCurrentDecision [⟨"c", "other", .approved, 0⟩] 0 none = .ok ⟨"c", "other", .approved, 0⟩ := by
  have hclear : Unshaken approvals ⟨"c", "other", .approved, 0⟩ 0 none := by
    simp [Unshaken, lineage, approvals]
  have halike := (decision_alike_iff approvals ⟨"c", "other", .approved, 0⟩ 0 none (by decide)
    (by simp [approvals])).mpr hclear
  have hcurrent : manualInputDecisionIsCurrent approvals "c" = true := by decide
  exact ⟨hcurrent, halike.mp hcurrent⟩

/-- Of two approvals of one moment the one with the greater id counts, and so does an approval of a
revision that has expired. -/
theorem decision_read_otherwise :
    (manualInputDecisionIsCurrent Sample.approvals "b" = true ∧
      resolveCurrentDecision (lineage Sample.approvals ⟨"b", "revision", .approved, 0⟩) 0 none =
        .error (.dependencyResolution "manual_input_decision_ambiguous")) ∧
    manualInputDecisionIsCurrent Sample.approvals "c" = true ∧
      resolveCurrentDecision (lineage Sample.approvals ⟨"c", "other", .approved, 0⟩) 1 (some 1) =
        .error (.dependencyResolution "manual_input_expired") := by
  refine ⟨⟨by decide, ?_⟩, by decide, ?_⟩
  · rfl
  · rfl

end FlowHub.ShadowValidation
