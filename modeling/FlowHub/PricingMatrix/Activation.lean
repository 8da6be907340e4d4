import FlowHub.PricingMatrix.Units
import FlowHub.Workspace.Pricing

namespace FlowHub.PricingMatrix

open Txn Python Workspace List

/-- `row is None` raises. -/
def required {α : Type} (reasonCode : String) : Option α → Except PricingMatrixError α
  | some a => .ok a
  | none => .error ⟨reasonCode⟩

/-- The rules of a policy that apply to a Channel. -/
def channelRules (db : Db) (policyId channelId : Id) : List PricingRuleEntry :=
  db.pricingRuleEntries.filter fun entry => decide (entry.policyRevisionId = policyId) &&
    (decide (entry.channelId = none) || decide (entry.channelId = some channelId))

def policyRevision (db : Db) (policyRevisionId : Id) : Option PricingPolicyRevision :=
  Table.get PricingPolicyRevision.id db.pricingPolicyRevisions policyRevisionId

/-- The event `_append_lifecycle_event` adds behind a head. -/
def lifecycleEvent (head : ChannelPricingPolicyHead) (eventKind : String)
    (policyRevisionId channelConfigRevisionId : Option Id) (eventId : Id) :
    PricingPolicyLifecycleEvent where
  id := eventId
  channelId := head.channelId
  eventKind := eventKind
  predecessorEventId := head.currentEventId
  effectiveActivationId := if eventKind = "activate" then some eventId else none
  policyRevisionId := policyRevisionId
  channelConfigRevisionId := channelConfigRevisionId
  supersedesActivationId := head.effectiveActivationId

def advancedHead (event : PricingPolicyLifecycleEvent) (expectedHeadVersion : Nat)
    (head : ChannelPricingPolicyHead) : ChannelPricingPolicyHead where
  channelId := head.channelId
  currentEventId := some event.id
  effectiveActivationId := event.effectiveActivationId
  headVersion := expectedHeadVersion + 1

/-- The event added and its scope's head moved to it. -/
def appended (event : PricingPolicyLifecycleEvent) (expectedHeadVersion : Nat) (db : Db) : Db :=
  { db with
    pricingPolicyEvents := db.pricingPolicyEvents ++ [event]
    pricingPolicyHeads := Table.set ChannelPricingPolicyHead.channelId db.pricingPolicyHeads
      event.channelId (advancedHead event expectedHeadVersion) }

/-- `_append_lifecycle_event`, its transaction committed or rolled back. -/
def appendLifecycleEvent (channelId : Id) (eventKind : String)
    (policyRevisionId channelConfigRevisionId : Option Id) (expectedHeadVersion : Nat)
    (eventId : Id) (db : Db) : Except PricingMatrixError Db :=
  match policyHead db channelId with
  | none =>
    if Table.has WorkspaceChannel.id db.channels channelId then
      .error ⟨"pricing_policy_head_missing"⟩
    else .error ⟨"channel_not_found"⟩
  | some head =>
    if head.headVersion ≠ expectedHeadVersion then .error ⟨"pricing_policy_head_conflict"⟩
    -- the events' primary key
    else if Table.has PricingPolicyLifecycleEvent.id db.pricingPolicyEvents eventId then
      .error ⟨"IntegrityError"⟩
    else
      .ok (appended (lifecycleEvent head eventKind policyRevisionId channelConfigRevisionId eventId)
        expectedHeadVersion db)

variable (u : Unicode)

def activate (channelId policyRevisionId : Id) (expectedHeadVersion : Nat) (eventId : Id)
    (db : Db) : Except PricingMatrixError Db := do
  let policy ← required "policy_revision_not_found" (policyRevision db policyRevisionId)
  let config ← required "channel_unit_unresolved" (latestChannelConfig db channelId)
  refuse (decide (config.currency ≠ policy.computationCurrency))
    "channel_computation_currency_mismatch"
  let spec ← resolveCurrencyUnit u config.currency config.currencyUnit
  let rules := channelRules db policy.id channelId
  refuse rules.isEmpty "channel_policy_rule_missing"
  rules.forM fun entry => validateRuleChannelCompatibility entry.roundStepMinor
    entry.surchargeMinor policy.roundOrder spec
  appendLifecycleEvent channelId "activate" (some policy.id) (some config.id) expectedHeadVersion
    eventId db

def deactivate (channelId : Id) (expectedHeadVersion : Nat) (eventId : Id) (db : Db) :
    Except PricingMatrixError Db := do
  refuse ((policyHead db channelId).bind ChannelPricingPolicyHead.effectiveActivationId).isNone
    "pricing_policy_not_activated"
  appendLifecycleEvent channelId "deactivate" none none expectedHeadVersion eventId db

/-- A call on the lifecycle of a scope. -/
inductive LifecycleCall where
  | activate (policyRevisionId : Id) (expectedHeadVersion : Nat) (eventId : Id)
  | deactivate (expectedHeadVersion : Nat) (eventId : Id)

def LifecycleCall.run (channelId : Id) (db : Db) : LifecycleCall → Except PricingMatrixError Db
  | .activate policyRevisionId expectedHeadVersion eventId =>
    PricingMatrix.activate u channelId policyRevisionId expectedHeadVersion eventId db
  | .deactivate expectedHeadVersion eventId =>
    PricingMatrix.deactivate channelId expectedHeadVersion eventId db

/-- The database once a call has returned or raised. -/
def LifecycleCall.after (channelId : Id) (db : Db) (call : LifecycleCall) : Db :=
  match call.run u channelId db with
  | .ok db' => db'
  | .error _ => db

/-- The lifecycle of a scope, oldest event first. -/
def lifecycleEvents (db : Db) (channelId : Id) : List PricingPolicyLifecycleEvent :=
  db.pricingPolicyEvents.filter fun event => decide (event.channelId = channelId)

def effectiveAfter (events : List PricingPolicyLifecycleEvent) : Option Id :=
  match events.getLast? with
  | some event => if event.eventKind = "activate" then some event.id else none
  | none => none

/-- Each event follows the one before it, and replaces what was in effect until then. -/
def Linear (events : List PricingPolicyLifecycleEvent) : Prop :=
  ∀ before event after, events = before ++ event :: after →
    event.predecessorEventId = before.getLast?.map PricingPolicyLifecycleEvent.id ∧
      event.supersedesActivationId = effectiveAfter before

/-- A scope whose head says where its lifecycle stands. -/
structure Consistent (db : Db) (channelId : Id) : Prop where
  linear : Linear (lifecycleEvents db channelId)
  nodup : ((lifecycleEvents db channelId).map PricingPolicyLifecycleEvent.id).Nodup
  head : ∀ head, policyHead db channelId = some head →
    head.currentEventId = (lifecycleEvents db channelId).getLast?.map
        PricingPolicyLifecycleEvent.id ∧
      head.effectiveActivationId = effectiveAfter (lifecycleEvents db channelId) ∧
      head.headVersion = (lifecycleEvents db channelId).length
  headless : policyHead db channelId = none → lifecycleEvents db channelId = []

/-- What goes on between the calls on a scope: anything that leaves its events alone and its
head too, or gives it its first head. -/
structure Elsewhere (channelId : Id) (db db' : Db) : Prop where
  events : lifecycleEvents db' channelId = lifecycleEvents db channelId
  head : policyHead db' channelId = policyHead db channelId ∨
    (policyHead db channelId = none ∧ policyHead db' channelId = some { channelId := channelId })

inductive LifecycleRun (channelId : Id) : Db → Db → Prop where
  | refl (db : Db) : LifecycleRun channelId db db
  | call {db db' : Db} (call : LifecycleCall) :
      LifecycleRun channelId db db' → LifecycleRun channelId db (call.after u channelId db')
  | elsewhere {db db' db'' : Db} :
      LifecycleRun channelId db db' → Elsewhere channelId db' db'' → LifecycleRun channelId db db''

/-- A scope nobody has activated a policy for yet. -/
structure Fresh (db : Db) (channelId : Id) : Prop where
  events : lifecycleEvents db channelId = []
  head : policyHead db channelId = none ∨ policyHead db channelId = some { channelId := channelId }

variable {channelId : Id} {db' : Db}

theorem Linear.snoc (h : Linear events)
    (hpredecessor : event.predecessorEventId = events.getLast?.map PricingPolicyLifecycleEvent.id)
    (hsupersedes : event.supersedesActivationId = effectiveAfter events) :
    Linear (events ++ [event]) := by
  intro before e after heq
  rcases eq_nil_or_concat after with rfl | ⟨init, last, rfl⟩
  · obtain ⟨rfl, hlast⟩ := append_inj' heq rfl
    cases hlast
    exact ⟨hpredecessor, hsupersedes⟩
  · have hinit : events ++ [event] = (before ++ e :: init) ++ [last] := by simp [heq]
    exact h before e init (append_inj' hinit rfl).1

theorem effectiveAfter_snoc : effectiveAfter (events ++ [event]) =
      if event.eventKind = "activate" then some event.id else none := by
  simp [effectiveAfter]

theorem Fresh.consistent {db : Db} (h : Fresh db channelId) : Consistent db channelId where
  linear := by
    intro before event after heq
    simp [h.events] at heq
  nodup := by simp [h.events]
  head := by
    intro head hhead
    rcases h.head with hnone | hblank
    · simp [hnone] at hhead
    · rw [hblank] at hhead
      cases hhead
      simp [h.events, effectiveAfter]
  headless := fun _ => h.events

theorem policyHead_appended (event : PricingPolicyLifecycleEvent) (expectedHeadVersion : Nat)
    (db : Db) (channelId : Id) :
    policyHead (appended event expectedHeadVersion db) channelId = if channelId = event.channelId then
        (policyHead db event.channelId).map (advancedHead event expectedHeadVersion)
      else policyHead db channelId := by
  simp only [policyHead, appended]
  exact Table.get_set (fun _ => rfl)

theorem lifecycleEvents_appended (event : PricingPolicyLifecycleEvent) (expectedHeadVersion : Nat)
    (db : Db) (channelId : Id) :
    lifecycleEvents (appended event expectedHeadVersion db) channelId =
      lifecycleEvents db channelId ++ if event.channelId = channelId then [event] else [] := by
  by_cases h : event.channelId = channelId <;> simp [lifecycleEvents, appended, h]

/-- What an accepted `_append_lifecycle_event` has done. -/
theorem append_ok {db : Db}
    (h : appendLifecycleEvent channelId eventKind policyRevisionId configId expectedHeadVersion
      eventId db = .ok db') :
    ∃ head, policyHead db channelId = some head ∧ head.headVersion = expectedHeadVersion ∧
      (∀ event ∈ db.pricingPolicyEvents, event.id ≠ eventId) ∧
      db' = appended (lifecycleEvent head eventKind policyRevisionId configId eventId)
        expectedHeadVersion db := by
  unfold appendLifecycleEvent at h
  split at h
  · split at h
    · cases h
    · cases h
  · rename_i head hhead
    by_cases hversion : head.headVersion = expectedHeadVersion
    · by_cases hid : Table.has PricingPolicyLifecycleEvent.id db.pricingPolicyEvents eventId
      · simp [hversion, hid] at h
      · simp only [hversion, ne_eq, not_true_eq_false, ite_false, hid, Bool.false_eq_true,
          Except.ok.injEq] at h
        have hfresh := Table.get_none.mp (Table.has_false.mp (Bool.eq_false_iff.mpr hid))
        exact ⟨head, hhead, hversion, hfresh, h.symm⟩
    · simp [hversion] at h

theorem append_consistent {db : Db}
    (h : appendLifecycleEvent channelId eventKind policyRevisionId configId expectedHeadVersion
      eventId db = .ok db') (hdb : Consistent db channelId) : Consistent db' channelId := by
  obtain ⟨head, hhead, hversion, hfresh, rfl⟩ := append_ok h
  have hchannel : head.channelId = _ := (Table.get_some hhead).2
  obtain ⟨hcurrent, heffective, hlength⟩ := hdb.head head hhead
  have hevent : (lifecycleEvent head eventKind policyRevisionId configId eventId).channelId =
      channelId := hchannel
  have hevents := lifecycleEvents_appended
    (lifecycleEvent head eventKind policyRevisionId configId eventId) expectedHeadVersion db
    channelId
  have hnext := policyHead_appended
    (lifecycleEvent head eventKind policyRevisionId configId eventId) expectedHeadVersion db
    channelId
  rw [if_pos hevent] at hevents
  rw [if_pos hevent.symm, hevent, hhead, Option.map_some] at hnext
  constructor
  · rw [hevents]
    exact hdb.linear.snoc hcurrent heffective
  · rw [hevents, map_append, nodup_append]
    refine ⟨hdb.nodup, by simp, ?_⟩
    intro id hid other hother
    obtain ⟨event, hold, rfl⟩ := mem_map.mp hid
    have hmem := (mem_filter.mp hold).1
    simp only [map_cons, map_nil, mem_singleton] at hother
    rw [hother]
    exact hfresh event hmem
  · intro head' hhead'
    rw [hnext] at hhead'
    cases hhead'
    rw [hevents, effectiveAfter_snoc, length_append, ← hlength, hversion, getLast?_concat]
    exact ⟨rfl, rfl, rfl⟩
  · intro hnone
    rw [hnext] at hnone
    cases hnone

/-- Every accepted call appends one event of its kind. -/
theorem call_ok {db : Db} {call : LifecycleCall} (h : call.run u channelId db = .ok db') :
    ∃ eventKind policyRevisionId configId expectedHeadVersion eventId,
      appendLifecycleEvent channelId eventKind policyRevisionId configId expectedHeadVersion
        eventId db = .ok db' := by
  cases call with
  | activate policyRevisionId expectedHeadVersion eventId =>
    simp only [LifecycleCall.run, activate, bind_eq_ok] at h
    obtain ⟨policy, -, config, -, -, -, spec, -, -, -, -, -, happend⟩ := h
    exact ⟨_, _, _, _, _, happend⟩
  | deactivate expectedHeadVersion eventId =>
    simp only [LifecycleCall.run, deactivate, bind_eq_ok] at h
    obtain ⟨-, -, happend⟩ := h
    exact ⟨_, _, _, _, _, happend⟩

theorem call_consistent {db : Db} (call : LifecycleCall)
    (hdb : Consistent db channelId) : Consistent (call.after u channelId db) channelId := by
  unfold LifecycleCall.after
  cases hrun : call.run u channelId db with
  | ok db' =>
    obtain ⟨_, _, _, _, _, happend⟩ := call_ok u hrun
    exact append_consistent happend hdb
  | error e => exact hdb

theorem Elsewhere.consistent (h : Elsewhere channelId db db')
    (hdb : Consistent db channelId) : Consistent db' channelId := by
  constructor
  · rw [h.events]
    exact hdb.linear
  · rw [h.events]
    exact hdb.nodup
  · intro head hhead
    rw [h.events]
    rcases h.head with hsame | ⟨hnone, hfirst⟩
    · exact hdb.head head (hsame ▸ hhead)
    · rw [hfirst] at hhead
      cases hhead
      simp [hdb.headless hnone, effectiveAfter]
  · intro hnone
    rw [h.events]
    rcases h.head with hsame | ⟨_, hfirst⟩
    · exact hdb.headless (hsame ▸ hnone)
    · rw [hfirst] at hnone
      cases hnone

theorem LifecycleRun.consistent (h : LifecycleRun u channelId db db') (hdb : Consistent db channelId) :
    Consistent db' channelId := by
  induction h with
  | refl => exact hdb
  | call call _ ih => exact call_consistent u call ih
  | elsewhere _ hother ih => exact hother.consistent ih

theorem Consistent.effective (h : Consistent db channelId) :
    (policyHead db channelId).bind ChannelPricingPolicyHead.effectiveActivationId =
      effectiveAfter (lifecycleEvents db channelId) := by
  cases hhead : policyHead db channelId with
  | none => simp [h.headless hhead, effectiveAfter]
  | some head => exact (h.head head hhead).2.1

/-- Over any run of activations and deactivations a scope's lifecycle is one chain, each event
replaces the activation in effect just before it, the scope has an effective activation
exactly when the last event is one, and a rejected call appends nothing. -/
theorem lifecycle_chain {channelId : Id} {db db' : Db} (hfresh : Fresh db channelId)
    (hrun : LifecycleRun u channelId db db') :
    Linear (lifecycleEvents db' channelId) ∧
      ((lifecycleEvents db' channelId).map PricingPolicyLifecycleEvent.id).Nodup ∧
      (policyHead db' channelId).bind ChannelPricingPolicyHead.effectiveActivationId =
        effectiveAfter (lifecycleEvents db' channelId) ∧
      ∀ (call : LifecycleCall) (e : PricingMatrixError), call.run u channelId db' = .error e →
        call.after u channelId db' = db' := by
  have hdb := hrun.consistent u hfresh.consistent
  refine ⟨hdb.linear, hdb.nodup, hdb.effective, ?_⟩
  intro call e herror
  simp [LifecycleCall.after, herror]

namespace Sample

def db : Db where
  channels := [{ id := "snappshop" }]
  pricingPolicyHeads := [{ channelId := "snappshop" }]
  pricingPolicyRevisions := [⟨"policy", "IRR", .roundThenSurcharge⟩]
  pricingRuleEntries := [⟨"policy", none, 1, 0⟩]
  pricingChannelConfigs := [⟨"config", "snappshop", 1, "IRR", "RIAL"⟩]

/-- A policy activated, replaced, taken back against an old head, then taken back. -/
def lifecycle : Db :=
  let calls : List LifecycleCall := [.activate "policy" 0 "e1", .activate "policy" 1 "e2",
    .deactivate 1 "e3", .deactivate 2 "e4"]
  calls.foldl (fun db call => call.after .ascii "snappshop" db) db

end Sample

theorem lifecycle_chain_sample : (lifecycleEvents Sample.lifecycle "snappshop").map
        (fun e => (e.id, e.predecessorEventId, e.supersedesActivationId)) =
      [("e1", none, none), ("e2", some "e1", some "e1"), ("e4", some "e2", some "e2")] ∧
    Linear (lifecycleEvents Sample.lifecycle "snappshop") := by
  have hfresh : Fresh Sample.db "snappshop" := by
    constructor
    · decide
    · right
      decide
  have hrun : LifecycleRun .ascii "snappshop" Sample.db Sample.lifecycle :=
    .call (.deactivate 2 "e4") (.call (.deactivate 1 "e3") (.call (.activate "policy" 1 "e2")
      (.call (.activate "policy" 0 "e1") (.refl _))))
  exact ⟨by decide +kernel, (lifecycle_chain .ascii hfresh hrun).1⟩

end FlowHub.PricingMatrix
