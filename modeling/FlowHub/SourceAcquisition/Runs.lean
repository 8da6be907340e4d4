import FlowHub.Python.Text
import FlowHub.Store

namespace FlowHub.SourceAcquisition

open Python

inductive RunStatus where
  | queued | running | succeeded | failed | cancelled | abandoned
  deriving DecidableEq

namespace RunStatus

/-- `ACTIVE_RUN_STATUSES`. -/
def active : RunStatus → Bool
  | .queued | .running => true
  | _ => false

/-- `RETRYABLE_STATUSES`. -/
def retryable : RunStatus → Bool
  | .failed | .cancelled | .abandoned => true
  | _ => false

end RunStatus

inductive RunResult where
  | observed | notModified | contentUnchangedReparse | none
  deriving DecidableEq

structure AcquisitionRun where
  (id sourceId : Id)
  (resourceScope triggerKind : String)
  idempotencyKey : Option String
  (requestFingerprint correlationId : String)
  parentRunId : Option Id
  rootRunId : Id
  attemptNumber : Nat
  status : RunStatus := .queued
  result : RunResult := .none
  queuedAt : Time
  startedAt : Option Time := .none
  terminalAt : Option Time := .none
  cancellationRequestedAt : Option Time := .none
  cancellationRequestedByUserId : Option Nat := .none
  workerId : Option String := .none
  leaseExpiresAt : Option Time := .none
  failureCode : Option String := .none
  updatedAt : Time
  deriving DecidableEq

/-- The code of a `SourceAcquisitionError`. -/
abbrev Fault := String

def maxLeaseSeconds : Int := 3600

section Values

variable (u : Unicode)

/-- `_opaque`. -/
def opaqueValue (value field : String) : Except Fault String :=
  let normalized := strip u (u.nfkc value).toList
  if normalized = [] ∨ 240 < normalized.length then .error (field ++ "_invalid")
  else .ok (String.ofList normalized)

def optionalOpaque (value : Option String) (field : String) : Except Fault (Option String) :=
  match value with
  | none => .ok none
  | some value => (opaqueValue u value field).map some

def triggerKind (value : String) : Except Fault String :=
  let normalized := u.lower (String.ofList (strip u value.toList))
  if normalized ∈ ["manual", "retry", "scheduled", "system", "webhook"] then .ok normalized
  else .error "trigger_kind_invalid"

def workerId (value : String) : Except Fault String :=
  let normalized := strip u value.toList
  if normalized = [] ∨ 120 < normalized.length then .error "worker_id_invalid"
  else .ok (String.ofList normalized)

/-- `_failure_code`: a lower case letter, then letters, digits and underscores. -/
def failureCode (value : String) : Except Fault String :=
  let normalized := u.lower (String.ofList (strip u value.toList))
  let letter (c : Char) : Bool := 'a' ≤ c ∧ c ≤ 'z'
  if normalized.toList.head?.any letter ∧ normalized.length ≤ 120 ∧
      normalized.toList.all fun c => letter c || (decide ('0' ≤ c ∧ c ≤ '9')) || c == '_' then
    .ok normalized
  else .error "failure_code_invalid"

end Values

def leaseSeconds (value : Int) : Except Fault Nat :=
  if 1 ≤ value ∧ value ≤ maxLeaseSeconds then .ok value.toNat else .error "lease_duration_invalid"

def after (now : Time) (seconds : Nat) : Time := now + seconds * 1000000

/-- The committed rows after a row has been written. -/
def put (runs : List AcquisitionRun) (row : AcquisitionRun) : List AcquisitionRun :=
  Table.set AcquisitionRun.id runs row.id fun _ => row

def lockedRun (runs : List AcquisitionRun) (runId : Id) : Except Fault AcquisitionRun :=
  match Table.get AcquisitionRun.id runs runId with
  | none => .error "run_not_found"
  | some row => .ok row

/-- What a call answers, and the rows that are committed then. -/
abbrev Outcome := Except Fault AcquisitionRun × List AcquisitionRun

/-- The row as `_set_terminal` leaves it. -/
def ended (row : AcquisitionRun) (status : RunStatus) (result : RunResult) (now : Time) : AcquisitionRun :=
  { row with
    status := status
    result := result
    terminalAt := some now
    leaseExpiresAt := .none
    updatedAt := now }

def setTerminal (row : AcquisitionRun) (status : RunStatus) (result : RunResult) (now : Time) :
    Except Fault AcquisitionRun :=
  if row.status.active then .ok (ended row status result now) else .error "terminal_run_immutable"

def abandoned (row : AcquisitionRun) (now : Time) : AcquisitionRun :=
  { ended row .abandoned .none now with failureCode := some "worker_lease_expired" }

section Calls

variable (u : Unicode) (runs : List AcquisitionRun) (runId : Id) (worker : String) (now : Time)

def startRun (seconds : Int) : Outcome :=
  match leaseSeconds seconds, lockedRun runs runId with
  | .error fault, _ | _, .error fault => (.error fault, runs)
  | .ok seconds, .ok row =>
    if row.status ≠ .queued then (.error "invalid_run_transition", runs)
    else match workerId u worker with
      | .error fault => (.error fault, runs)
      | .ok worker =>
        let row := { row with
          status := .running
          startedAt := some now
          workerId := some worker
          leaseExpiresAt := some (after now seconds)
          updatedAt := now }
        (.ok row, put runs row)

/-- A row whose lease its worker holds. -/
def Holds (row : AcquisitionRun) (worker : String) (now : Time) : Prop :=
  row.status = .running ∧ row.workerId = some worker ∧ ∃ lease ∈ row.leaseExpiresAt, now < lease

/-- `_assert_worker_lease`, and what is done with the row then; an expired lease is committed. -/
def underLease (act : AcquisitionRun → Outcome) : Outcome :=
  match lockedRun runs runId with
  | .error fault => (.error fault, runs)
  | .ok row =>
    if row.status ≠ .running then (.error "invalid_run_transition", runs)
    else if row.leaseExpiresAt.all fun lease => decide (lease ≤ now) then
      (.error "lease_expired", put runs (abandoned row now))
    else match workerId u worker with
      | .error fault => (.error fault, runs)
      | .ok worker =>
        if row.workerId ≠ some worker then (.error "worker_ownership_conflict", runs) else act row

def heartbeat (seconds : Int) : Outcome :=
  underLease u runs runId worker now fun row =>
    match leaseSeconds seconds with
    | .error fault => (.error fault, runs)
    | .ok seconds =>
      let row := { row with leaseExpiresAt := some (after now seconds), updatedAt := now }
      (.ok row, put runs row)

/-- The end of a row that is written with a failure code. -/
def terminate (row : AcquisitionRun) (status : RunStatus) (result : RunResult)
    (failureCode : Option String) : Outcome :=
  match setTerminal row status result now with
  | .error fault => (.error fault, runs)
  | .ok row =>
    let row := { row with failureCode := failureCode }
    (.ok row, put runs row)

def terminalByWorker (status : RunStatus) (result : RunResult) (failureCode : Option String) : Outcome :=
  underLease u runs runId worker now fun row =>
    if row.cancellationRequestedAt.isSome then (.error "cancellation_requested", runs)
    else terminate runs now row status result failureCode

def succeedRun (result : RunResult) : Outcome :=
  if result = .none then (.error "invalid_run_result", runs)
  else terminalByWorker u runs runId worker now .succeeded result .none

def failRun (code : String) : Outcome :=
  match failureCode u code with
  | .error fault => (.error fault, runs)
  | .ok code => terminalByWorker u runs runId worker now .failed .none (some code)

/-- `complete_with_observation`, where staging the Observation ends as given. -/
def completeWithObservation (result : RunResult) (staged : AcquisitionRun → Except Fault Unit) : Outcome :=
  if result ≠ .observed ∧ result ≠ .contentUnchangedReparse then (.error "invalid_run_result", runs)
  else underLease u runs runId worker now fun row =>
    if row.cancellationRequestedAt.isSome then
      terminate runs now row .cancelled .none row.failureCode
    else match staged row with
      | .error fault => (.error fault, runs)
      | .ok () => terminate runs now row .succeeded result .none

def requestCancellation (requester : Option Nat) : Outcome :=
  match lockedRun runs runId with
  | .error fault => (.error fault, runs)
  | .ok row => match row.status with
    | .cancelled => (.ok row, runs)
    | .succeeded | .failed | .abandoned => (.error "run_not_cancellable", runs)
    | .queued =>
      let row := { ended row .cancelled .none now with
        cancellationRequestedAt := some now
        cancellationRequestedByUserId := requester }
      (.ok row, put runs row)
    | .running =>
      if row.cancellationRequestedAt.isSome then (.ok row, runs)
      else
        let row := { row with
          cancellationRequestedAt := some now
          cancellationRequestedByUserId := requester
          updatedAt := now }
        (.ok row, put runs row)

def acknowledgeCancellation : Outcome :=
  underLease u runs runId worker now fun row =>
    if row.cancellationRequestedAt = .none then (.error "run_not_cancellable", runs)
    else terminate runs now row .cancelled .none row.failureCode

/-- A running row whose lease has run out. -/
def expired (row : AcquisitionRun) : Bool :=
  row.status == .running && row.leaseExpiresAt.any fun lease => decide (lease ≤ now)

/-- `abandon_expired_runs`, with the number of runs it has ended. -/
def abandonExpiredRuns : Nat × List AcquisitionRun :=
  ((runs.filter (expired now)).length, runs.map fun row => if expired now row then abandoned row now else row)

end Calls

end FlowHub.SourceAcquisition
