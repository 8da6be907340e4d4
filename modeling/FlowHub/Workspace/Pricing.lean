import FlowHub.PricingAuthority
import FlowHub.Workspace.Values

namespace FlowHub.Workspace

open Python

def latestChannelConfig (db : Db) (channelId : Id) : Option PricingChannelConfigRevision :=
  Table.latest PricingChannelConfigRevision.revisionNumber
    (db.pricingChannelConfigs.filter fun c => decide (c.channelId = channelId))

def bindingOf (db : Db) (workspaceId channelId : Id) : Option WorkspacePricingBinding :=
  db.pricingBindings.find? fun b =>
    decide (b.workspaceId = workspaceId) && decide (b.channelId = channelId)

def policyHead (db : Db) (channelId : Id) : Option ChannelPricingPolicyHead :=
  Table.get ChannelPricingPolicyHead.channelId db.pricingPolicyHeads channelId

def policyEvent (db : Db) (eventId : Id) : Option PricingPolicyLifecycleEvent :=
  Table.get PricingPolicyLifecycleEvent.id db.pricingPolicyEvents eventId

/-- `assert_write_authorized` for the pricing matrix: the head, or the refusal's code.
A Channel without a head gets one, named by `eventId`. -/
def matrixAuthority (eventId : Id) (channelId : Id) (expectedEventId : Option Id)
    (expectedHeadVersion : Option Nat) (db : Db) :
    Db × Except String ChannelPricingAuthorityHead :=
  match PricingAuthority.snapshot db channelId eventId with
  | .error code => (db, .error code)
  | .ok (db, head) =>
    match PricingAuthority.assertWriteAuthorized head .pricingMatrix expectedEventId
        expectedHeadVersion with
    | some code => (db, .error code)
    | none => (db, .ok head)

/-- Why a binding no longer pins the effective pricing decision; everything but the
authority. -/
def policyIssue (db : Db) (binding : WorkspacePricingBinding) : Option String :=
  match (policyHead db binding.channelId).bind ChannelPricingPolicyHead.effectiveActivationId with
  | none => some "pricing_policy_deactivated"
  | some activationId =>
    if activationId ≠ binding.pricingPolicyActivationId then some "pricing_decision_outdated"
    else if (policyEvent db activationId).bind PricingPolicyLifecycleEvent.policyRevisionId ≠
        some binding.policyRevisionId then some "pricing_activation_invalid"
    else match latestChannelConfig db binding.channelId with
      | none => some "channel_unit_unresolved"
      | some config =>
        if config.id ≠ binding.channelConfigRevisionId then some "channel_config_outdated"
        else if binding.pricingAuthorityEventId = none ∨ binding.pricingAuthorityHeadVersion = none ∨
            binding.expectedPricingAuthority ≠ some .pricingMatrix then
          some "pricing_authority_binding_missing"
        else none

variable (events : Id → Id)

def bindingIssue (binding : WorkspacePricingBinding) (db : Db) : Db × Option String :=
  match policyIssue db binding with
  | some issue => (db, some issue)
  | none =>
    match matrixAuthority (events binding.channelId) binding.channelId
        binding.pricingAuthorityEventId binding.pricingAuthorityHeadVersion db with
    | (db, .error code) => (db, some code)
    | (db, .ok _) => (db, none)

def verifyChannel (workspaceId channelId : Id) (db : Db) : Db × Option String :=
  match bindingOf db workspaceId channelId with
  | none => (db, some "pricing_binding_missing")
  | some binding => bindingIssue events binding db

def verifyChannels (events : Id → Id) (workspaceId : Id) : List Id → Db → Db × List (Id × String)
  | [], db => (db, [])
  | channelId :: rest, db =>
    let (db, issue) := verifyChannel events workspaceId channelId db
    let (db, issues) := verifyChannels events workspaceId rest db
    (db, (issue.map fun i => (channelId, i)).toList ++ issues)

def verifyWorkspaceChannels (workspaceId : Id) (channelIds : List Id) (db : Db) : Db × List (Id × String) :=
  verifyChannels events workspaceId (sortedSet channelIds) db

/-- What a new binding pins, short of the authority. -/
def effectivePolicy (db : Db) (channelId : Id) : Except String (Id × Id × Id) :=
  match (policyHead db channelId).bind ChannelPricingPolicyHead.effectiveActivationId with
  | none => .error "policy_not_activated"
  | some activationId =>
    match policyEvent db activationId with
    | some ⟨eventId, _, "activate", _, _, some policyId, some configId, _⟩ =>
      match latestChannelConfig db channelId with
      | none => .error "channel_unit_unresolved"
      | some config =>
        if config.id ≠ configId then .error "channel_config_outdated"
        else .ok (eventId, policyId, configId)
    | _ => .error "pricing_activation_invalid"

def newBinding (bindingId workspaceId channelId : Id) (policy : Id × Id × Id)
    (head : ChannelPricingAuthorityHead) (settings : Settings) (evaluatedAt : Time) :
    WorkspacePricingBinding where
  id := bindingId
  workspaceId := workspaceId
  channelId := channelId
  policyRevisionId := policy.2.1
  pricingPolicyActivationId := policy.1
  channelConfigRevisionId := policy.2.2
  pricingAuthorityEventId := some head.effectiveEventId
  pricingAuthorityHeadVersion := some head.headVersion
  expectedPricingAuthority := some .pricingMatrix
  cacheMaxAgeMinutes := settings.maxAgeMinutes
  workspacePricingEvaluatedAt := evaluatedAt

/-- One Channel of `bind_workspace_channels`: a binding or the reason there is none. -/
def bindChannel (settings : Settings) (events bindingIds : Id → Id)
    (workspaceId channelId : Id) (evaluatedAt : Time) (db : Db) :
    Db × Except String WorkspacePricingBinding :=
  match bindingOf db workspaceId channelId with
  | some binding =>
    match bindingIssue events binding db with
    | (db, some issue) => (db, .error issue)
    | (db, none) => (db, .ok binding)
  | none =>
    match effectivePolicy db channelId with
    | .error issue => (db, .error issue)
    | .ok policy =>
      match matrixAuthority (events channelId) channelId none none db with
      | (db, .error code) => (db, .error code)
      | (db, .ok head) =>
        let binding := newBinding (bindingIds channelId) workspaceId channelId policy head
          settings evaluatedAt
        ({ db with pricingBindings := db.pricingBindings ++ [binding] }, .ok binding)

structure Bindings where
  bindings : List WorkspacePricingBinding := []
  issues : List (Id × String) := []

def bindChannels (settings : Settings) (events bindingIds : Id → Id) (workspaceId : Id)
    (evaluatedAt : Time) : List Id → Db → Db × Bindings
  | [], db => (db, {})
  | channelId :: rest, db =>
    let (db, outcome) := bindChannel settings events bindingIds workspaceId channelId evaluatedAt
      db
    let (db, more) := bindChannels settings events bindingIds workspaceId evaluatedAt rest db
    match outcome with
    | .ok binding => (db, { more with bindings := binding :: more.bindings })
    | .error issue => (db, { more with issues := (channelId, issue) :: more.issues })

def bindWorkspaceChannels (settings : Settings) (events bindingIds : Id → Id)
    (workspaceId : Id) (channelIds : List Id) (evaluatedAt : Time) (db : Db) : Db × Bindings :=
  bindChannels settings events bindingIds workspaceId evaluatedAt (sortedSet channelIds) db

/-- Only authority heads are added. -/
def Seeds (s t : Db) : Prop := ∃ heads, t = { s with authorityHeads := heads }

theorem Seeds.refl (s : Db) : Seeds s s := ⟨s.authorityHeads, rfl⟩

theorem Seeds.trans (h : Seeds s t) (k : Seeds t r) : Seeds s r := by
  obtain ⟨a, rfl⟩ := h
  obtain ⟨b, rfl⟩ := k
  exact ⟨b, rfl⟩

theorem snapshot_seeds
    (h : PricingAuthority.snapshot db channelId eventId = .ok (db', head)) : Seeds db db' := by
  unfold PricingAuthority.snapshot at h
  split at h
  · cases h
    exact .refl db
  · split at h
    · cases h
      exact ⟨_, rfl⟩
    · cases h

theorem matrixAuthority_seeds (eventId channelId : Id) (expectedEventId : Option Id)
    (expectedHeadVersion : Option Nat) (db : Db) :
    Seeds db (matrixAuthority eventId channelId expectedEventId expectedHeadVersion db).1 := by
  unfold matrixAuthority
  split
  · exact .refl db
  rename_i hsnap
  split
  · exact snapshot_seeds hsnap
  · exact snapshot_seeds hsnap

theorem bindingIssue_seeds (binding : WorkspacePricingBinding) (db : Db) :
    Seeds db (bindingIssue events binding db).1 := by
  unfold bindingIssue
  split
  · exact .refl db
  have h := matrixAuthority_seeds (events binding.channelId) binding.channelId
    binding.pricingAuthorityEventId binding.pricingAuthorityHeadVersion db
  split
  · rename_i heq
    rwa [heq] at h
  · rename_i heq
    rwa [heq] at h

theorem verifyChannel_seeds (workspaceId channelId : Id) (db : Db) :
    Seeds db (verifyChannel events workspaceId channelId db).1 := by
  unfold verifyChannel
  split
  · exact .refl db
  · exact bindingIssue_seeds events _ db

theorem verifyChannels_seeds (workspaceId : Id) (channelIds : List Id)
    (db : Db) : Seeds db (verifyChannels events workspaceId channelIds db).1 := by
  induction channelIds generalizing db with
  | nil => exact .refl db
  | cons channelId rest ih =>
    exact (verifyChannel_seeds events workspaceId channelId db).trans (ih _)

end FlowHub.Workspace
