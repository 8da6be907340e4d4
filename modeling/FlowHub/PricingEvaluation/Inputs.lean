import FlowHub.Txn.Proc
import FlowHub.Domain
import Mathlib.Data.List.MinMax

namespace FlowHub.PricingEvaluation

open List Except

/-- What `create_package` raises: its two errors by their code, and those of the database. -/
inductive Failure where
  | dependencyResolution (code : String)
  | derivedValue (code : String)
  | integrity | outOfRange | keyError

/-- `if condition: raise failure`. -/
def refuse (condition : Bool) (failure : Failure) : Except Failure Unit :=
  if condition then .error failure else .ok ()

@[simp] theorem refuse_ok {condition : Bool} {failure : Failure} {x : Unit} :
    refuse condition failure = .ok x ↔ condition = false := by
  cases condition <;> simp [refuse]

/-- Microseconds since some day: `utcnow` and the columns it is compared with carry no zone. -/
abbrev Moment := Int

inductive ObservationSelectionMode where
  | latestEligibleAsOf | alignedBusinessCycle | businessEffectiveDate | lastApproved
  | explicitObservation | legacyConsumedObservation

inductive FreshnessResult where
  | fresh | stale | unknown
  deriving DecidableEq

inductive SkewResult where
  | withinTolerance | violation | notApplicable
  deriving DecidableEq

structure ObservationCandidate where
  observationId : Id
  checksum : String
  observedAt : Moment
  businessCycleIdentity : Option String := none
  isLegacyConsumed : Bool := false

structure SelectionResult where
  candidate : ObservationCandidate
  freshnessResult : FreshnessResult

def observationMissing : Failure := .dependencyResolution "observation_missing"

def observationAmbiguous : Failure := .dependencyResolution "observation_ambiguous"

variable (candidates : List ObservationCandidate)

/-- The one candidate observed last. -/
def newest : Except Failure ObservationCandidate :=
  match (candidates.map ObservationCandidate.observedAt).max? with
  | none => .error observationMissing
  | some latest =>
    match candidates.filter fun c => decide (c.observedAt = latest) with
    | [selected] => .ok selected
    | _ => .error observationAmbiguous

def latestBefore (boundary : Moment) : Except Failure ObservationCandidate :=
  newest (candidates.filter fun c => decide (c.observedAt ≤ boundary))

/-- The only candidate of a kind. -/
def only : Except Failure ObservationCandidate :=
  match candidates with
  | [] => .error observationMissing
  | [selected] => .ok selected
  | _ => .error observationAmbiguous

/-- The policy inputs of one required Source. -/
structure SelectionPolicy where
  mode : ObservationSelectionMode
  asOf : Option Moment := none
  businessCycleIdentity : Option String := none
  businessEffectiveDate : Option Moment := none
  explicitObservationId : Option Id := none
  freshnessMaxAge : Option Int := none
  requireFresh : Bool := true

/-- A value that is set and not blank. -/
def required (value : Option String) (code : String) : Except Failure String :=
  match value with
  | some text => if text = "" then .error (.dependencyResolution code) else .ok text
  | none => .error (.dependencyResolution code)

def selectCandidate (policy : SelectionPolicy) (candidates : List ObservationCandidate) :
    Except Failure ObservationCandidate :=
  match policy.mode with
  | .latestEligibleAsOf =>
    match policy.asOf with
    | none => .error (.dependencyResolution "as_of_required")
    | some boundary => latestBefore candidates boundary
  | .businessEffectiveDate =>
    match policy.businessEffectiveDate with
    | none => .error (.dependencyResolution "business_effective_date_required")
    | some boundary => latestBefore candidates boundary
  | .alignedBusinessCycle => do
    let identity ← required policy.businessCycleIdentity "business_cycle_required"
    only (candidates.filter fun c => decide (c.businessCycleIdentity = some identity))
  | .lastApproved => newest candidates
  | .explicitObservation => do
    let identity ← required policy.explicitObservationId "explicit_observation_required"
    match candidates.find? fun c => decide (c.observationId = identity) with
    | some selected => .ok selected
    | none => .error observationMissing
  | .legacyConsumedObservation => only (candidates.filter ObservationCandidate.isLegacyConsumed)

def freshness (now : Moment) (maxAge : Option Int) (observedAt : Moment) : FreshnessResult :=
  match maxAge with
  | none => .unknown
  | some age =>
    if now - observedAt < 0 then .unknown
    else if now - observedAt ≤ age then .fresh
    else .stale

def selectObservation (policy : SelectionPolicy) (candidates : List ObservationCandidate)
    (now : Moment) : Except Failure SelectionResult := do
  refuse candidates.isEmpty observationMissing
  let selected ← selectCandidate policy candidates
  let result := freshness now policy.freshnessMaxAge selected.observedAt
  refuse (policy.requireFresh && decide (result = .stale))
    (.dependencyResolution "observation_stale")
  pure ⟨selected, result⟩

def evaluateCrossSourceSkew (observedAt : List Moment) (tolerance : Option Int) : SkewResult :=
  match tolerance with
  | none => .notApplicable
  | some allowed =>
    if observedAt.length < 2 then .notApplicable
    else if observedAt.max?.getD 0 - observedAt.min?.getD 0 ≤ allowed then .withinTolerance
    else .violation

inductive ManualInputDecisionKind where
  | approved | rejected | revoked
  deriving DecidableEq

structure ManualInputDecision where
  (id manualInputRevisionId : Id)
  decision : ManualInputDecisionKind
  createdAt : Moment

def resolveCurrentDecision (decisions : List ManualInputDecision) (now : Moment)
    (expiresAt : Option Moment) : Except Failure ManualInputDecision :=
  match (decisions.map ManualInputDecision.createdAt).max? with
  | none => .error (.dependencyResolution "manual_input_missing")
  | some latest =>
    match decisions.filter fun d => decide (d.createdAt = latest) with
    | [current] =>
      match current.decision with
      | .revoked => .error (.dependencyResolution "manual_input_revoked")
      | .rejected => .error (.dependencyResolution "manual_input_not_approved")
      | .approved =>
        if expiresAt.any fun expiry => decide (expiry ≤ now) then
          .error (.dependencyResolution "manual_input_expired")
        else .ok current
    | _ => .error (.dependencyResolution "manual_input_decision_ambiguous")

namespace SelectionPolicy

variable (policy : SelectionPolicy) (candidates : List ObservationCandidate)

/-- What makes a candidate eligible, where the parameter that the mode reads is there. -/
def criterion : Option (ObservationCandidate → Bool) :=
  match policy.mode with
  | .latestEligibleAsOf => policy.asOf.map fun boundary c => decide (c.observedAt ≤ boundary)
  | .businessEffectiveDate =>
    policy.businessEffectiveDate.map fun boundary c => decide (c.observedAt ≤ boundary)
  | .alignedBusinessCycle => (required policy.businessCycleIdentity "").toOption.map fun text c =>
      decide (c.businessCycleIdentity = some text)
  | .lastApproved => some fun _ => true
  | .explicitObservation => (required policy.explicitObservationId "").toOption.map fun text c =>
      decide (c.observationId = text)
  | .legacyConsumedObservation => some ObservationCandidate.isLegacyConsumed

/-- The modes that take the newest of what is eligible. -/
def dated : Bool :=
  match policy.mode with
  | .latestEligibleAsOf | .businessEffectiveDate | .lastApproved => true
  | _ => false

/-- Without its parameter a mode tells no candidate from another. -/
def eligible : List ObservationCandidate :=
  candidates.filter fun c => policy.criterion.all fun p => p c

end SelectionPolicy

/-- Those that none comes after. -/
def latestBy {α : Type} (date : α → Moment) (as : List α) : List α :=
  as.filter fun a => as.all fun other => decide (date other ≤ date a)

/-- The eligible candidates that the mode prefers no other to; a single one stands out. -/
def SelectionPolicy.preferred (policy : SelectionPolicy) (candidates : List ObservationCandidate) :
    List ObservationCandidate :=
  if policy.criterion.isNone then []
  else if policy.dated then latestBy ObservationCandidate.observedAt (policy.eligible candidates)
  else policy.eligible candidates

/-- What is selected depends neither on the order nor on what is not eligible, stands out from all
that is, and is as fresh as it has to be. -/
structure FailsClosed (policy : SelectionPolicy) (candidates : List ObservationCandidate)
    (now : Moment) : Prop where
  same : ∀ candidates', (policy.eligible candidates').Perm (policy.eligible candidates) →
    selectObservation policy candidates' now = selectObservation policy candidates now
  chosen : ∀ result, selectObservation policy candidates now = .ok result →
    policy.preferred candidates = [result.candidate]
  ambiguous : 2 ≤ (policy.preferred candidates).length →
    selectObservation policy candidates now = .error observationAmbiguous
  fresh : ∀ result age, selectObservation policy candidates now = .ok result →
    policy.freshnessMaxAge = some age → policy.requireFresh = true →
    0 ≤ now - result.candidate.observedAt ∧ now - result.candidate.observedAt ≤ age

/-- No id is asked for that two candidates have, and nothing that has to be fresh is of a later
moment. -/
def Provable (policy : SelectionPolicy) (candidates : List ObservationCandidate) (now : Moment) : Prop :=
  (policy.mode = .explicitObservation → (policy.preferred candidates).length ≤ 1) ∧
    (policy.freshnessMaxAge.isSome = true → policy.requireFresh = true →
      ∀ c, policy.preferred candidates = [c] → c.observedAt ≤ now)

section

variable {policy : SelectionPolicy} {candidates : List ObservationCandidate} {now : Moment}
  {c : ObservationCandidate}

@[simp] theorem refuse_error {failure : Failure} :
    refuse condition failure = .error failure' ↔ condition = true ∧ failure = failure' := by
  cases condition <;> simp [refuse]

theorem latestBy_eq (h : (as.map date).max? = some last) :
    (as.filter fun a => decide (date a = last)) = latestBy date as := by
  obtain ⟨hmem, hle⟩ := max?_eq_some_iff.mp h
  obtain ⟨a, ha, rfl⟩ := mem_map.mp hmem
  apply filter_congr
  intro other hother
  rw [Bool.eq_iff_iff, all_eq_true, decide_eq_true_eq]
  constructor
  · intro heq third hthird
    exact decide_eq_true (heq ▸ hle _ (mem_map_of_mem hthird))
  · intro hall
    exact le_antisymm (hle _ (mem_map_of_mem hother)) (of_decide_eq_true (hall a ha))

/-- The one that is alone in coming last comes after all others. -/
theorem latestBy_singleton (nodup : as.Nodup) : latestBy date as = [a] ↔
      a ∈ as ∧ ∀ other ∈ as, other ≠ a → date other < date a := by
  have hmem : ∀ b, b ∈ latestBy date as ↔ b ∈ as ∧ ∀ other ∈ as, date other ≤ date b := by
    intro b
    simp [latestBy]
  constructor
  · intro h
    have ha := (hmem a).mp (by simp [h])
    refine ⟨ha.1, ?_⟩
    intro other hother hne
    refine lt_of_le_of_ne (ha.2 other hother) ?_
    intro hdate
    have hlast : other ∈ latestBy date as := (hmem other).mpr ⟨hother, hdate ▸ ha.2⟩
    rw [h, mem_singleton] at hlast
    exact hne hlast
  · rintro ⟨ha, hlate⟩
    have hall : ∀ b ∈ latestBy date as, b = a := by
      intro b hb
      by_contra hne
      obtain ⟨hbmem, hble⟩ := (hmem b).mp hb
      exact absurd (hlate b hbmem hne) (not_lt.mpr (hble a ha))
    have hain : a ∈ latestBy date as := by
      rw [hmem]
      refine ⟨ha, ?_⟩
      intro other hother
      by_cases hne : other = a
      · rw [hne]
      · exact le_of_lt (hlate other hother hne)
    have hnodup : (latestBy date as).Nodup := nodup.filter _
    generalize latestBy date as = last at *
    match last with
    | [] => cases hain
    | [b] => rw [hall b mem_cons_self]
    | b :: c :: _ =>
      have hsame := (hall b (by simp)).trans (hall c (by simp)).symm
      simp [hsame] at hnodup

theorem newest_eq (candidates : List ObservationCandidate) :
    newest candidates = only (latestBy ObservationCandidate.observedAt candidates) := by
  unfold newest
  cases hmax : (candidates.map ObservationCandidate.observedAt).max? with
  | none =>
    rw [max?_eq_none_iff, map_eq_nil_iff] at hmax
    subst hmax
    rfl
  | some last =>
    obtain ⟨c, hc, rfl⟩ := mem_map.mp (max?_mem hmax)
    have hfound : c ∈ candidates.filter fun other => decide (other.observedAt = c.observedAt) := by
      simp [hc]
    rw [latestBy_eq hmax] at hfound
    simp only [latestBy_eq hmax]
    generalize latestBy ObservationCandidate.observedAt candidates = tied at *
    match tied with
    | [] => cases hfound
    | [_] => rfl
    | _ :: _ :: _ => rfl

theorem only_perm (same : others.Perm candidates) : only others = only candidates := by
  match candidates with
  | [] => rw [same.eq_nil]
  | [selected] => rw [perm_singleton.mp same]
  | _ :: _ :: _ =>
    match others, same.length_eq with
    | _ :: _ :: _, _ => rfl

theorem preferred_perm (same : (policy.eligible others).Perm (policy.eligible candidates)) :
    (policy.preferred others).Perm (policy.preferred candidates) := by
  unfold SelectionPolicy.preferred
  split
  · exact .refl _
  split
  · unfold latestBy
    simp only [same.all_eq]
    exact same.filter _
  · exact same

theorem required_code (code : String)
    (h : (required value "").toOption = some text) : required value code = .ok text := by
  unfold required at h ⊢
  split at h
  · split at h
    · cases h
    · rename_i hne
      rw [if_neg hne]
      exact congrArg ok (Option.some.inj h)
  · cases h

/-- What a mode takes of the eligible candidates. -/
theorem selectCandidate_eq {p : ObservationCandidate → Bool} (given : policy.criterion = some p) :
    selectCandidate policy candidates = match policy.mode with
      | .explicitObservation =>
        ((candidates.filter p).head?.map ok).getD (.error observationMissing)
      | _ => if policy.dated then newest (candidates.filter p) else only (candidates.filter p) := by
  obtain ⟨mode, asOf, cycle, date, id, age, requireFresh⟩ := policy
  cases mode with
  | latestEligibleAsOf =>
    obtain ⟨boundary, rfl, rfl⟩ := Option.map_eq_some_iff.mp given
    rfl
  | businessEffectiveDate =>
    obtain ⟨boundary, rfl, rfl⟩ := Option.map_eq_some_iff.mp given
    rfl
  | alignedBusinessCycle =>
    obtain ⟨text, htext, rfl⟩ := Option.map_eq_some_iff.mp given
    simp only [selectCandidate, required_code _ htext]
    rfl
  | lastApproved =>
    cases given
    simp [selectCandidate, SelectionPolicy.dated]
  | explicitObservation =>
    obtain ⟨text, htext, rfl⟩ := Option.map_eq_some_iff.mp given
    simp only [selectCandidate, required_code _ htext, bind, Except.bind, head?_filter]
    cases candidates.find? fun c => decide (c.observationId = text) <;> rfl
  | legacyConsumedObservation =>
    cases given
    rfl

theorem required_missing (code : String) (h : (required value "").toOption = none) :
    required value code = .error (.dependencyResolution code) := by
  unfold required at h ⊢
  split
  · split
    · rfl
    · rename_i hne
      simp [hne, Except.toOption] at h
  · rfl

/-- Where its parameter is missing a mode takes none. -/
theorem selectCandidate_missing (missing : policy.criterion = none) : ∃ failure, ∀ candidates,
    selectCandidate policy candidates = .error failure := by
  obtain ⟨mode, asOf, cycle, date, id, age, requireFresh⟩ := policy
  cases mode with
  | latestEligibleAsOf =>
    cases Option.map_eq_none_iff.mp missing
    exact ⟨_, fun _ => rfl⟩
  | businessEffectiveDate =>
    cases Option.map_eq_none_iff.mp missing
    exact ⟨_, fun _ => rfl⟩
  | alignedBusinessCycle | explicitObservation =>
    have hmissing := fun code => required_missing code (Option.map_eq_none_iff.mp missing)
    simp only [selectCandidate, hmissing]
    exact ⟨_, fun _ => rfl⟩
  | lastApproved | legacyConsumedObservation => cases missing

/-- What becomes of the candidate that a mode takes. -/
def judged (policy : SelectionPolicy) (now : Moment) (c : ObservationCandidate) :
    Except Failure SelectionResult := do
  let result := freshness now policy.freshnessMaxAge c.observedAt
  refuse (policy.requireFresh && decide (result = .stale))
    (.dependencyResolution "observation_stale")
  pure ⟨c, result⟩

theorem selectObservation_eq {p : ObservationCandidate → Bool} (given : policy.criterion = some p)
    (one : policy.mode = .explicitObservation → (policy.preferred candidates).length ≤ 1) :
    selectObservation policy candidates now = only (policy.preferred candidates) >>= judged policy now := by
  have htaken : selectCandidate policy candidates = only (policy.preferred candidates) := by
    have hfilter : policy.eligible candidates = candidates.filter p := by
      simp [SelectionPolicy.eligible, given]
    simp only [selectCandidate_eq given, SelectionPolicy.preferred, given, hfilter, newest_eq,
      Option.isNone_some, Bool.false_eq_true, if_false] at one ⊢
    split
    · rename_i hmode
      have hdated : policy.dated = false := by simp [SelectionPolicy.dated, hmode]
      have hone := one hmode
      rw [hdated] at hone ⊢
      simp only [Bool.false_eq_true, if_false] at hone ⊢
      match candidates.filter p, hone with
      | [], _ => rfl
      | [_], _ => rfl
    · split <;> rfl
  rw [← htaken]
  cases candidates with
  | nil =>
    rw [htaken]
    simp [SelectionPolicy.preferred, given, SelectionPolicy.eligible, latestBy]
    rfl
  | cons first rest => rfl

theorem judged_ok {result : SelectionResult} (h : judged policy now c = .ok result) :
    result.candidate = c ∧ (policy.requireFresh = true →
      freshness now policy.freshnessMaxAge c.observedAt ≠ .stale) := by
  obtain ⟨_, hrefuse, heq⟩ := Txn.bind_eq_ok.mp h
  rw [refuse_ok] at hrefuse
  cases heq
  refine ⟨rfl, ?_⟩
  intro hrequire hstale
  simp [hrequire, hstale] at hrefuse

theorem freshness_known {maxAge : Int} (notStale : freshness now (some maxAge) c.observedAt ≠ .stale)
    (past : c.observedAt ≤ now) :
    0 ≤ now - c.observedAt ∧ now - c.observedAt ≤ maxAge := by
  have hage : 0 ≤ now - c.observedAt := Int.sub_nonneg.mpr past
  refine ⟨hage, ?_⟩
  by_contra hlate
  apply notStale
  unfold freshness
  dsimp only
  rw [if_neg (Int.not_lt.mpr hage), if_neg hlate]

theorem preferred_given (h : policy.preferred candidates ≠ []) : ∃ p, policy.criterion = some p := by
  cases hgiven : policy.criterion with
  | some p => exact ⟨p, rfl⟩
  | none =>
    exact absurd (by simp [SelectionPolicy.preferred, hgiven]) h

/-- The selection fails closed exactly where the id asked for is of one candidate at most, and what
has to be fresh is not of a later moment. -/
theorem failsClosed_iff (policy : SelectionPolicy) (candidates : List ObservationCandidate)
    (now : Moment) : FailsClosed policy candidates now ↔ Provable policy candidates now := by
  constructor
  · intro h
    constructor
    · intro hmode
      by_contra hmany
      have hambiguous := h.ambiguous (by omega)
      obtain ⟨p, hgiven⟩ := preferred_given fun hnil => hmany (hnil ▸ Nat.zero_le 1)
      have hfilter : policy.preferred candidates = candidates.filter p := by
        simp [SelectionPolicy.preferred, SelectionPolicy.dated, SelectionPolicy.eligible, hmode, hgiven]
      have hselects := @selectCandidate_eq policy candidates p hgiven
      rw [hfilter] at hmany
      match hfound : candidates.filter p with
      | [] => simp [hfound] at hmany
      | selected :: _ =>
        rw [hmode, hfound] at hselects
        rcases Txn.bind_eq_error.mp hambiguous with hrefuse | ⟨_, -, hrest⟩
        · simp [observationMissing, observationAmbiguous] at hrefuse
        rw [hselects] at hrest
        rcases Txn.bind_eq_error.mp hrest with hnever | ⟨_, -, hjudged⟩
        · cases hnever
        · rcases Txn.bind_eq_error.mp hjudged with hrefuse | ⟨_, -, hnever⟩
          · simp [observationAmbiguous] at hrefuse
          · cases hnever
    · intro haged hrequire c hc
      obtain ⟨age, hage⟩ := Option.isSome_iff_exists.mp haged
      obtain ⟨p, hgiven⟩ := preferred_given (hc ▸ cons_ne_nil c [])
      by_contra hlate
      have hfuture : now - c.observedAt < 0 := Int.sub_neg_of_lt (Int.not_le.mp hlate)
      have hunknown : freshness now policy.freshnessMaxAge c.observedAt = .unknown := by
        rw [hage]
        exact if_pos hfuture
      have hselected : selectObservation policy candidates now = .ok ⟨c, .unknown⟩ := by
        rw [selectObservation_eq hgiven fun _ => by simp [hc], hc]
        simp only [only, bind, Except.bind, judged, hunknown]
        simp [refuse, pure, Except.pure]
      have hfresh := h.fresh _ age hselected hage hrequire
      exact absurd hfuture (Int.not_lt.mpr hfresh.1)
  · rintro ⟨hone, hpast⟩
    cases hgiven : policy.criterion with
    | none =>
      obtain ⟨failure, hfailure⟩ := selectCandidate_missing hgiven
      have hnever : ∀ result, selectObservation policy candidates now ≠ .ok result := by
        intro result hresult
        obtain ⟨_, -, hbind⟩ := Txn.bind_eq_ok.mp hresult
        rw [hfailure] at hbind
        cases hbind
      constructor
      case same =>
        intro candidates' hsame
        simp only [SelectionPolicy.eligible, hgiven, Option.all_none, filter_true] at hsame
        unfold selectObservation
        rw [hfailure, hfailure, hsame.isEmpty_eq]
      case chosen => exact fun result hresult => absurd hresult (hnever result)
      case ambiguous =>
        intro hmany
        simp [SelectionPolicy.preferred, hgiven] at hmany
      case fresh => exact fun result _ hresult => absurd hresult (hnever result)
    | some p =>
      have heq := @selectObservation_eq policy candidates now p hgiven hone
      have hchosen : ∀ result, selectObservation policy candidates now = .ok result →
          policy.preferred candidates = [result.candidate] ∧ (policy.requireFresh = true →
            freshness now policy.freshnessMaxAge result.candidate.observedAt ≠ .stale) := by
        intro result hresult
        rw [heq] at hresult
        obtain ⟨c, honly, hjudged⟩ := Txn.bind_eq_ok.mp hresult
        obtain ⟨rfl, hstale⟩ := judged_ok hjudged
        refine ⟨?_, hstale⟩
        generalize policy.preferred candidates = cs at honly
        match cs with
        | [] => cases honly
        | [_] => rw [ok.inj honly]
        | _ :: _ :: _ => cases honly
      constructor
      case same =>
        intro candidates' hsame
        have hperm := preferred_perm hsame
        rw [heq, selectObservation_eq hgiven fun hmode => hperm.length_eq ▸ hone hmode, only_perm hperm]
      case chosen => exact fun result hresult => (hchosen result hresult).1
      case ambiguous =>
        intro hmany
        rw [heq]
        match policy.preferred candidates, hmany with
        | _ :: _ :: _, _ => rfl
      case fresh =>
        intro result age hresult hage hrequire
        obtain ⟨hpreferred, hstale⟩ := hchosen result hresult
        apply freshness_known
        · rw [← hage]
          exact hstale hrequire
        · exact hpast (by simp [hage]) hrequire _ hpreferred

end

namespace Sample

def candidate (checksum : String) (observedAt : Moment) : ObservationCandidate :=
  { observationId := "a", checksum := checksum, observedAt := observedAt }

/-- The observation "a" has to be at most a day old. -/
def dayOld : SelectionPolicy :=
  { mode := .explicitObservation, explicitObservationId := some "a", freshnessMaxAge := some 86400 }

end Sample

open Sample

/-- The first of two candidates with the id asked for is taken, and one of tomorrow is fresh. -/
theorem selection_open : selectObservation dayOld [candidate "one" 0, candidate "two" 0] 0 =
      .ok ⟨candidate "one" 0, .fresh⟩ ∧
    selectObservation dayOld [candidate "two" 0, candidate "one" 0] 0 = .ok ⟨candidate "two" 0, .fresh⟩ ∧
    selectObservation dayOld [candidate "one" 90000] 0 = .ok ⟨candidate "one" 90000, .unknown⟩ ∧
    ¬ FailsClosed dayOld [candidate "one" 0, candidate "two" 0] 0 ∧
    ¬ FailsClosed dayOld [candidate "one" 90000] 0 := by
  refine ⟨rfl, rfl, rfl, ?_, ?_⟩
  · intro h
    have hambiguous := h.ambiguous (by decide)
    cases hambiguous
  · intro h
    have hfresh := h.fresh _ 86400 rfl rfl rfl
    exact absurd hfresh.1 (by decide)

end FlowHub.PricingEvaluation
