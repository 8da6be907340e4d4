import FlowHub.Store

namespace FlowHub.PricingAuthority

/-- The deterministic legacy default for a Channel without a head. -/
def seedHead (channelId eventId : Id) : ChannelPricingAuthorityHead where
  channelId := channelId
  currentAuthority := .legacyFormulaEngine
  effectiveEventId := eventId
  headVersion := 0

/-- `ChannelPricingAuthorityService.snapshot`: a Channel without a head gets the
legacy default, named by `eventId`. Refusals are the codes of the source. -/
def snapshot (db : Db) (channelId eventId : Id) : Except String (Db × ChannelPricingAuthorityHead) :=
  match Table.get ChannelPricingAuthorityHead.channelId db.authorityHeads channelId with
  | some head => .ok (db, head)
  | none =>
    if Table.has WorkspaceChannel.id db.channels channelId then
      .ok ({ db with authorityHeads := db.authorityHeads ++ [seedHead channelId eventId] },
        seedHead channelId eventId)
    else .error "pricing_authority_channel_not_found"

def conflicts {α : Type} [DecidableEq α] (expected : Option α) (actual : α) : Bool :=
  match expected with
  | some e => e != actual
  | none => false

def assertWriteAuthorized (head : ChannelPricingAuthorityHead) (origin : PricingOrigin)
    (expectedEventId : Option Id) (expectedHeadVersion : Option Nat) : Option String :=
  if conflicts expectedEventId head.effectiveEventId then some "pricing_authority_conflict"
  else if conflicts expectedHeadVersion head.headVersion then some "pricing_authority_conflict"
  else if head.currentAuthority = .migrationLocked then some "pricing_authority_locked"
  else if origin.authority ≠ head.currentAuthority then some "pricing_origin_not_authorized"
  else none

end FlowHub.PricingAuthority
