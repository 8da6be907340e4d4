import FlowHub.Ledger
import FlowHub.ShadowValidation.Readiness

namespace FlowHub.ShadowValidation.Windows

open Python Txn PricingEvaluation

inductive ValidationWindowEventKind where
  | opened | accepted | invalidated | closed | casConflict

structure ShadowValidationWindowEvent where
  (id channelId validationWindowId : Id)
  predecessorEventId : Option Id
  eventKind : ValidationWindowEventKind
  reasonCode : Option WindowReadinessReason
  expectedHeadVersion : ℤ
  headVersionSnapshot : ℤ
  configurationChecksum : String
  createdAt : Moment

structure ShadowReadinessDecision where
  (id validationWindowId channelId : Id)
  decision : WindowReadinessState
  reasonCode : Option WindowReadinessReason
  comparedCount : Nat
  aggregateChecksum : String
  requiredComparisonCount : Nat
  comparisonIds : List Id
  authorityEventId : Option Id
  authorityHeadVersion : Nat
  scopeManifestChecksum : Json
  readinessPayload : List (String × Json)

/-- What a transaction on a channel has inserted. -/
inductive Commit where
  | compared (comparison : ShadowValidationComparison)
  | sealed (event : Option ShadowValidationWindowEvent) (decision : ShadowReadinessDecision)

namespace Commit

def comparison : Commit → Option ShadowValidationComparison
  | compared comparison => some comparison
  | sealed _ _ => none

def event : Commit → Option ShadowValidationWindowEvent
  | compared _ => none
  | sealed event _ => event

end Commit

/-- The rows of a table, in the order of their insertion. -/
def comparisonsOf (log : List Commit) : List ShadowValidationComparison :=
  log.filterMap Commit.comparison

def eventsOf (log : List Commit) : List ShadowValidationWindowEvent := log.filterMap Commit.event

def projectedTransition (projection : ShadowValidationReadinessProjection)
    (currentState : ShadowValidationWindowState) : Option ShadowValidationWindowState :=
  if projection.decision = .ready ∧ currentState = .collecting then some .accepted
  else if currentState = .accepted ∧ projection.reasonCode.isSome then some .invalidated
  else if currentState = .collecting ∧ projection.decision = .notReady ∧ projection.isExpired then
    some .closed
  else none

/-- `_projected_event_kind`, of a transition. -/
def projectedEventKind : ShadowValidationWindowState → ValidationWindowEventKind
  | .accepted => .accepted
  | .invalidated => .invalidated
  | .closed => .closed
  | .collecting => .opened

/-- `created_at`, and the id of events of one moment. -/
def Later (a b : ShadowValidationWindowEvent) : Prop :=
  a.createdAt < b.createdAt ∨ (a.createdAt = b.createdAt ∧ a.id < b.id)

instance (a b : ShadowValidationWindowEvent) : Decidable (Later a b) := inferInstanceAs (Decidable (_ ∨ _))

/-- The first event by descending moment and id. -/
def latestEvent (events : List ShadowValidationWindowEvent) : Option ShadowValidationWindowEvent :=
  events.foldl (fun best event => match best with
    | none => some event
    | some b => if Later b event then some event else some b) none

/-- What `seal_window` has found before it takes the lock. -/
structure SealCall where
  expectedHeadVersion : ℤ
  now : Moment
  projection : ShadowValidationReadinessProjection
  transition : Option ShadowValidationWindowState

inductive Phase where
  | idle | assembling
  | sealing (call : SealCall)

/-- A database session: the head row in its identity map, and the call it is in. -/
structure Session where
  loaded : Option ShadowValidationWindowHead := none
  phase : Phase := .idle

abbrev SessionId := Nat

/-- The channel as it is committed, the holder of the lock on its head row, and the sessions. -/
structure State where
  channelId : Id
  windows : List ShadowValidationWindow
  head : ShadowValidationWindowHead
  log : List Commit
  holder : Option SessionId
  sessions : SessionId → Session

namespace State

def set (s : State) (sid : SessionId) (session : Session) : State :=
  { s with sessions := Function.update s.sessions sid session }

/-- A query for the head row: a row that has been loaded is not read again. -/
def headFor (s : State) (sid : SessionId) : ShadowValidationWindowHead :=
  (s.sessions sid).loaded.getD s.head

/-- The lock is free, or the session's own. -/
def lockable (s : State) (sid : SessionId) : Prop := s.holder = none ∨ s.holder = some sid

/-- A commit or a rollback expires what the session has loaded, and frees its lock. -/
def ended (s : State) (sid : SessionId) : State :=
  { s.set sid {} with holder := if s.holder = some sid then none else s.holder }

def inserted (s : State) (commit : Commit) : State := { s with log := s.log ++ [commit] }

end State

def advanceHead (head : ShadowValidationWindowHead) (target : ShadowValidationWindowState) :
    ShadowValidationWindowHead :=
  { head with currentState := target, headVersion := head.headVersion + 1 }

/-- The event of a transition. -/
def windowEvent (s : State) (call : SealCall) (id : Id) (createdAt : Moment)
    (projection : ShadowValidationReadinessProjection) (target : ShadowValidationWindowState) :
    ShadowValidationWindowEvent where
  id := id
  channelId := s.channelId
  validationWindowId := projection.validationWindowId
  predecessorEventId := (latestEvent (eventsOf s.log)).map (·.id)
  eventKind := projectedEventKind target
  reasonCode := projection.reasonCode
  expectedHeadVersion := call.expectedHeadVersion
  headVersionSnapshot := call.expectedHeadVersion
  configurationChecksum := projection.configurationChecksum
  createdAt := createdAt

def readinessDecision (id : Id) (window : ShadowValidationWindow)
    (projection : ShadowValidationReadinessProjection) : ShadowReadinessDecision where
  id := id
  validationWindowId := projection.validationWindowId
  channelId := projection.channelId
  decision := projection.decision
  reasonCode := projection.reasonCode
  comparedCount := projection.comparedCount
  aggregateChecksum := projection.aggregateChecksum
  requiredComparisonCount := projection.requiredComparisonCount
  comparisonIds := projection.comparisonIds
  authorityEventId := some window.pricingAuthorityEventId
  authorityHeadVersion := projection.headVersionSnapshot
  scopeManifestChecksum := (projection.readinessPayload.lookup "scopeManifestChecksum").getD .null
  readinessPayload := projection.readinessPayload

inductive Action where
  | load (sid : SessionId)
  | forget (sid : SessionId)
  | finish (sid : SessionId)
  | startAssemble (sid : SessionId)
  | abandon (sid : SessionId)
  | assemble (sid : SessionId) (request : AssembleRequest) (seen : Db)
  | startSeal (sid : SessionId) (expectedHeadVersion : ℤ) (now : Moment) (seen : Db)
  | lockSeal (sid : SessionId)
  | sealWindow (sid : SessionId) (eventId decisionId : Id) (createdAt : Moment) (seen : Db)

/-- The rows that a query of this moment can find. -/
structure Sees (s : State) (seen : Db) : Prop where
  comparisons : seen.comparisons = comparisonsOf s.log
  windows : seen.windows = s.windows

variable (printable : Char → Bool) (hash : Hashing) (u : Unicode)

inductive Step (s : State) : Action → State → Prop where
  /-- The session reads the head for a purpose of its own, as `project` does. -/
  | load (sid : SessionId) (hidle : (s.sessions sid).phase = .idle) :
      Step s (.load sid) (s.set sid ⟨some (s.headFor sid), .idle⟩)
  /-- Nothing refers to the loaded row any more. -/
  | forget (sid : SessionId) (phase : Phase) (hphase : (s.sessions sid).phase = phase)
      (hheld : ∀ call, phase ≠ .sealing call) : Step s (.forget sid) (s.set sid ⟨none, phase⟩)
  /-- The caller commits, rolls back or closes, or the call rolls back. -/
  | finish (sid : SessionId) : Step s (.finish sid) (s.ended sid)
  /-- `_validate_collection_head` for the first time. -/
  | startAssemble (sid : SessionId) (hidle : (s.sessions sid).phase = .idle)
      (hlock : s.lockable sid) :
      Step s (.startAssemble sid)
        { s.set sid ⟨some (s.headFor sid), .assembling⟩ with holder := some sid }
  /-- `assemble` raises, and leaves the transaction open. -/
  | abandon (sid : SessionId) (hphase : (s.sessions sid).phase = .assembling) :
      Step s (.abandon sid) (s.set sid ⟨(s.sessions sid).loaded, .idle⟩)
  | assemble (sid : SessionId) (request : AssembleRequest) (seen : Db)
      (comparison : ShadowValidationComparison)
      (hphase : (s.sessions sid).phase = .assembling)
      (hcompared : compared printable hash u seen (some (s.headFor sid)) request = .ok comparison) :
      Step s (.assemble sid request seen)
        ((s.inserted (.compared comparison)).ended sid)
  /-- An expected version that is not the loaded one ends the call. -/
  | startSealConflict (sid : SessionId) (expectedHeadVersion : ℤ) (now : Moment) (seen : Db)
      (hidle : (s.sessions sid).phase = .idle)
      (hversion : ((s.headFor sid).headVersion : ℤ) ≠ expectedHeadVersion) :
      Step s (.startSeal sid expectedHeadVersion now seen) (s.set sid ⟨some (s.headFor sid), .idle⟩)
  | startSeal (sid : SessionId) (expectedHeadVersion : ℤ) (now : Moment) (seen : Db)
      (projection : ShadowValidationReadinessProjection)
      (hidle : (s.sessions sid).phase = .idle)
      (hversion : ((s.headFor sid).headVersion : ℤ) = expectedHeadVersion) (hseen : Sees s seen)
      (hprojection : snapshot hash seen (some (s.headFor sid)) s.channelId now = .ok projection) :
      Step s (.startSeal sid expectedHeadVersion now seen)
        (s.set sid ⟨some (s.headFor sid), .sealing ⟨expectedHeadVersion, now, projection,
          projectedTransition projection (s.headFor sid).currentState⟩⟩)
  | lockSeal (sid : SessionId) (call : SealCall)
      (hphase : (s.sessions sid).phase = .sealing call) (hlock : s.lockable sid) :
      Step s (.lockSeal sid) { s with holder := some sid }
  /-- Without a transition there is a decision only. -/
  | sealUnmoved (sid : SessionId) (eventId decisionId : Id) (createdAt : Moment) (seen : Db)
      (call : SealCall) (window : ShadowValidationWindow)
      (hphase : (s.sessions sid).phase = .sealing call) (hlock : s.holder = some sid)
      (hseen : Sees s seen)
      (hversion : ((s.headFor sid).headVersion : ℤ) = call.expectedHeadVersion)
      (hsame : snapshot hash seen (some (s.headFor sid)) s.channelId call.now = .ok call.projection)
      (htransition : projectedTransition call.projection (s.headFor sid).currentState = none)
      (hbefore : call.transition = none)
      (hwindow : windowOf seen call.projection.validationWindowId = some window) :
      Step s (.sealWindow sid eventId decisionId createdAt seen)
        ((s.inserted (.sealed none (readinessDecision decisionId window call.projection))).ended sid)
  | sealMoved (sid : SessionId) (eventId decisionId : Id) (createdAt : Moment) (seen : Db)
      (call : SealCall) (window : ShadowValidationWindow) (target : ShadowValidationWindowState)
      (hphase : (s.sessions sid).phase = .sealing call) (hlock : s.holder = some sid)
      (hseen : Sees s seen)
      (hversion : ((s.headFor sid).headVersion : ℤ) = call.expectedHeadVersion)
      (hsame : snapshot hash seen (some (s.headFor sid)) s.channelId call.now = .ok call.projection)
      (htransition : projectedTransition call.projection (s.headFor sid).currentState = some target)
      (hbefore : call.transition = some target)
      (hupdated : (s.head.headVersion : ℤ) = call.expectedHeadVersion)
      (hwindow : windowOf seen call.projection.validationWindowId = some window) :
      Step s (.sealWindow sid eventId decisionId createdAt seen)
        (({ s with head := advanceHead s.head target }.inserted
          (.sealed (some (windowEvent s call eventId createdAt call.projection target))
            (readinessDecision decisionId window call.projection))).ended sid)

end FlowHub.ShadowValidation.Windows
