import FlowHub.PricingAuthority

namespace FlowHub.PricingAuthority

/-- `ChannelPricingAuthorityEvent`. -/
structure AuthorityEvent where
  (id channelId : Id)
  previousAuthority : Option PricingAuthority
  newAuthority : PricingAuthority
  expectedHeadVersion : Nat
  predecessorEventId : Option Id

def allowedTransitions : PricingAuthority → List PricingAuthority
  | .legacyFormulaEngine => [.migrationLocked]
  | .migrationLocked => [.legacyFormulaEngine, .pricingMatrix]
  | .pricingMatrix => [.migrationLocked]

/-- A head and its first event, flushed by a session that has not committed them. -/
structure Seed where
  session : Nat
  (channelId eventId : Id)

def Seed.event (seed : Seed) : AuthorityEvent where
  id := seed.eventId
  channelId := seed.channelId
  previousAuthority := none
  newAuthority := .legacyFormulaEngine
  expectedHeadVersion := 0
  predecessorEventId := none

def Seed.head (seed : Seed) : ChannelPricingAuthorityHead := seedHead seed.channelId seed.eventId

/-- A call of `transition` between its checks and its writes, with the head it has read. -/
structure PendingTransition where
  session : Nat
  channelId : Id
  head : ChannelPricingAuthorityHead
  newAuthority : PricingAuthority
  expectedHeadVersion : Nat
  deriving DecidableEq

def PendingTransition.event (p : PendingTransition) (eventId : Id) : AuthorityEvent where
  id := eventId
  channelId := p.channelId
  previousAuthority := some p.head.currentAuthority
  newAuthority := p.newAuthority
  expectedHeadVersion := p.expectedHeadVersion
  predecessorEventId := some p.head.effectiveEventId

/-- What the compare-and-set writes into a head. -/
def PendingTransition.advance (p : PendingTransition) (eventId : Id)
    (head : ChannelPricingAuthorityHead) : ChannelPricingAuthorityHead where
  channelId := head.channelId
  currentAuthority := p.newAuthority
  effectiveEventId := eventId
  headVersion := p.expectedHeadVersion + 1

/-- The committed tables, and what the sessions are in the middle of. -/
structure World where
  channels : List Id := []
  events : List AuthorityEvent := []
  heads : List ChannelPricingAuthorityHead := []
  seeds : List Seed := []
  calls : List PendingTransition := []

namespace World

variable (w : World)

def head (channelId : Id) : Option ChannelPricingAuthorityHead :=
  Table.get ChannelPricingAuthorityHead.channelId w.heads channelId

variable (session : Nat)

def seedsOf : List Seed :=
  w.seeds.filter fun seed => decide (seed.session = session)

/-- `db.get(ChannelPricingAuthorityHead, channel_id)` of a session. -/
def sees (channelId : Id) : Option ChannelPricingAuthorityHead :=
  match (w.seedsOf session).find? fun seed => decide (seed.channelId = channelId) with
  | some seed => some seed.head
  | none => w.head channelId

def ensureChannelHead (channelId eventId : Id) (w : World) :
    Except String (World × ChannelPricingAuthorityHead) :=
  match w.sees session channelId with
  | some head => .ok (w, head)
  | none =>
    if channelId ∈ w.channels then
      .ok ({ w with seeds := w.seeds ++ [⟨session, channelId, eventId⟩] }, seedHead channelId eventId)
    else .error "pricing_authority_channel_not_found"

/-- `transition` as far as its checks. -/
def startTransition (channelId : Id) (newAuthority : PricingAuthority)
    (expectedHeadVersion : Nat) (eventId : Id) (w : World) : World × Option String :=
  match w.ensureChannelHead session channelId eventId with
  | .error code => (w, some code)
  | .ok (w, head) =>
    if head.headVersion ≠ expectedHeadVersion then (w, some "pricing_authority_head_conflict")
    else if newAuthority ∉ allowedTransitions head.currentAuthority then
      (w, some "pricing_authority_transition_invalid")
    else
      ({ w with
        calls := w.calls ++ [⟨session, channelId, head, newAuthority, expectedHeadVersion⟩] },
        none)

/-- `db.commit()`. -/
def commit (w : World) : World :=
  { w with
    events := w.events ++ (w.seedsOf session).map Seed.event
    heads := w.heads ++ (w.seedsOf session).map Seed.head
    seeds := w.seeds.filter fun seed => decide (seed.session ≠ session) }

/-- `db.rollback()`. -/
def rollback (w : World) : World :=
  { w with seeds := w.seeds.filter fun seed => decide (seed.session ≠ session) }

def withoutCalls (w : World) : World :=
  { w with calls := w.calls.filter fun p => decide (p.session ≠ session) }

/-- The event and the new head of a transition that has won. -/
def record (p : PendingTransition) (eventId : Id) (w : World) : World :=
  { w with
    events := w.events ++ [p.event eventId]
    heads := Table.set ChannelPricingAuthorityHead.channelId w.heads p.channelId
      (p.advance eventId) }

/-- The rest of `transition`: the head is set only where it still has the version expected. -/
def finishTransition (p : PendingTransition) (eventId : Id) (w : World) : World × Option String :=
  let w := w.withoutCalls p.session
  let updated := (w.sees p.session p.channelId).any fun head =>
    decide (head.headVersion = p.expectedHeadVersion)
  if updated then ((w.commit p.session).record p eventId, none)
  else (w.rollback p.session, some "pricing_authority_head_conflict")

/-- Ids are drawn at random. -/
def Unused (eventId : Id) : Prop :=
  eventId ∉ w.events.map AuthorityEvent.id ++ w.seeds.map Seed.eventId

instance (w : World) (eventId : Id) : Decidable (w.Unused eventId) :=
  inferInstanceAs (Decidable (¬_))

def Idle : Prop := ∀ p ∈ w.calls, p.session ≠ session

instance (w : World) (session : Nat) : Decidable (w.Idle session) :=
  inferInstanceAs (Decidable (∀ p ∈ w.calls, _))

/-- A session can read a head of its own accord. It waits for another one that is
inserting the head of the same Channel. -/
structure CanRead (w : World) (session : Nat) (channelId eventId : Id) : Prop where
  idle : w.Idle session
  unused : w.Unused eventId
  alone : ∀ seed ∈ w.seeds, seed.channelId = channelId → seed.session = session

/-- `snapshot` has returned a head. -/
structure Reads (w : World) (session : Nat) (channelId eventId : Id) (w' : World)
    (head : ChannelPricingAuthorityHead) : Prop where
  can : w.CanRead session channelId eventId
  returned : w.ensureChannelHead session channelId eventId = .ok (w', head)

inductive Step : World → World → Prop where
  | channel (w : World) (channelId : Id) : Step w { w with channels := w.channels ++ [channelId] }
  | read {w w' : World} {session : Nat} {channelId eventId : Id}
      {head : ChannelPricingAuthorityHead} : w.Reads session channelId eventId w' head → Step w w'
  | start {w : World} {session : Nat} {channelId eventId : Id} (newAuthority : PricingAuthority)
      (expectedHeadVersion : Nat) : w.CanRead session channelId eventId →
      Step w (w.startTransition session channelId newAuthority expectedHeadVersion eventId).1
  | finish {w : World} {p : PendingTransition} {eventId : Id} : p ∈ w.calls → w.Unused eventId →
      Step w (w.finishTransition p eventId).1
  | commit {w : World} {session : Nat} : w.Idle session → Step w (w.commit session)
  | rollback {w : World} {session : Nat} : w.Idle session → Step w (w.rollback session)

abbrev Run : World → World → Prop := Relation.ReflTransGen Step

/-- From a database without authority rows. -/
def Reachable : Prop := ∃ channels : List Id, Run { channels := channels } w

/-- The history of a Channel, oldest event first. -/
def eventsOf (channelId : Id) : List AuthorityEvent :=
  w.events.filter fun event => decide (event.channelId = channelId)

/-- The history as a session sees it. -/
def visible (channelId : Id) : List AuthorityEvent :=
  w.eventsOf channelId ++
    ((w.seedsOf session).filter fun seed => decide (seed.channelId = channelId)).map Seed.event

/-- The transitions of a Channel that have been committed. -/
def transitions (channelId : Id) : List AuthorityEvent :=
  (w.eventsOf channelId).filter fun event => event.previousAuthority.isSome

end World

end FlowHub.PricingAuthority
