import FlowHub.SourceAcquisition.Runs

namespace FlowHub.SourceAcquisition

open Python

/-- What the fingerprint of a request is taken of. -/
structure Intent where
  (triggerKind resourceScope : String)
  parentRunId : Option Id
  requestPayload : List (String × Json)

def Intent.json (intent : Intent) : Json :=
  .obj [("parent_run_id", .ofOption .str intent.parentRunId), ("request_payload", .obj intent.requestPayload),
    ("resource_scope", .str intent.resourceScope),
    ("trigger_kind", .str intent.triggerKind)]

/-- A request with its values normalized. -/
structure Normal where
  sourceId : Id
  (idempotencyKey correlationId : Option String)
  intent : Intent
  parent : Option AcquisitionRun

/-- A call of `request_run` or of `retry_run`. -/
inductive Ask where
  | request (sourceId : Id) (kind scope : String) (idempotencyKey correlationId : Option String)
      (payload : Option (List (String × Json)))
  | retry (runId : Id) (idempotencyKey correlationId : Option String)

section

variable (u : Unicode) (hash : Hashing) (sources : Id → Option SourceStatus) (runs : List AcquisitionRun)

/-- The Source must be there and active. -/
def checkSource (sourceId : Id) : Except Fault Unit :=
  match sources sourceId with
  | none => .error "source_not_found"
  | some .archived => .error "source_archived"
  | some .active => .ok ()
  | some _ => .error "source_disabled"

def normalize (sourceId : Id) (kind scope : String) (key correlationId : Option String)
    (payload : List (String × Json)) (parent : Option AcquisitionRun) : Except Fault Normal := do
  let kind ← triggerKind u kind
  let scope ← opaqueValue u scope "resource_scope"
  let key ← optionalOpaque u key "idempotency_key"
  .ok { sourceId := sourceId
        idempotencyKey := key
        correlationId := correlationId
        intent := { triggerKind := kind, resourceScope := scope,
                    parentRunId := parent.map AcquisitionRun.id, requestPayload := payload }
        parent := parent }

def retryParent (runId : Id) : Except Fault AcquisitionRun := do
  let parent ← lockedRun runs runId
  if parent.status.retryable then .ok parent else .error "run_not_retryable"

/-- What a request comes to before any run is looked up. -/
def receive : Ask → Except Fault Normal
  | .request sourceId kind scope key correlationId payload => do
    checkSource sources sourceId
    normalize u sourceId kind scope key correlationId (payload.getD []) none
  | .retry runId key correlationId => do
    let parent ← retryParent runs runId
    checkSource sources parent.sourceId
    normalize u parent.sourceId "retry" parent.resourceScope key correlationId
      [("retry_of_run_id", .str parent.id)] (some parent)

def fingerprint (normal : Normal) : String := hash.json normal.intent.json

/-- A run under the scope of a request. -/
def inScope (normal : Normal) (run : AcquisitionRun) : Bool :=
  run.sourceId == normal.sourceId && run.resourceScope == normal.intent.resourceScope

/-- The answer of a run under the key of a request. -/
def replay (normal : Normal) : Option (Except Fault AcquisitionRun) :=
  match normal.idempotencyKey with
  | none => none
  | some key =>
    (runs.find? fun run => inScope normal run && run.idempotencyKey == some key).map fun existing =>
      if existing.requestFingerprint ≠ fingerprint hash normal then .error "idempotency_key_conflict"
      else .ok existing

def activeRun (normal : Normal) : Option AcquisitionRun :=
  runs.find? fun run => inScope normal run && run.status.active

def nextAttempt (normal : Normal) : Nat :=
  match normal.parent with
  | none => 1
  | some parent => ((runs.filter fun run => run.rootRunId == parent.rootRunId).map
      AcquisitionRun.attemptNumber).foldr max 0 + 1

def newRun (normal : Normal) (rowId : Id) (correlationId : String) (attempt : Nat) (now : Time) :
    AcquisitionRun where
  id := rowId
  sourceId := normal.sourceId
  resourceScope := normal.intent.resourceScope
  triggerKind := normal.intent.triggerKind
  idempotencyKey := normal.idempotencyKey
  requestFingerprint := fingerprint hash normal
  correlationId := correlationId
  parentRunId := normal.parent.map AcquisitionRun.id
  rootRunId := (normal.parent.map AcquisitionRun.rootRunId).getD rowId
  attemptNumber := attempt
  queuedAt := now
  updatedAt := now

/-- The row that a request is going to insert. -/
def prepareRun (normal : Normal) (rowId : Id) (now : Time) : Except Fault AcquisitionRun :=
  if (activeRun runs normal).isSome then .error "active_run_conflict"
  else (optionalOpaque u normal.correlationId "correlation_id").map fun correlationId =>
    newRun hash normal rowId (correlationId.getD rowId) (nextAttempt runs normal) now

/-- A row that a unique index does not admit beside another. -/
def clashes (row run : AcquisitionRun) : Bool :=
  run.id == row.id ||
  (run.sourceId == row.sourceId && run.resourceScope == row.resourceScope &&
    ((row.idempotencyKey.isSome && run.idempotencyKey == row.idempotencyKey) ||
      (row.status.active && run.status.active))) ||
  (run.rootRunId == row.rootRunId && run.attemptNumber == row.attemptNumber)

def resolveCreateConflict (normal : Normal) : Except Fault AcquisitionRun :=
  match replay hash runs normal with
  | some answer => answer
  | none =>
    if (activeRun runs normal).isSome then .error "active_run_conflict"
    else .error "acquisition_run_create_conflict"

end

/-- A call that works on one run. -/
inductive Call where
  | start (runId : Id) (worker : String) (seconds : Int) (now : Time)
  | heartbeat (runId : Id) (worker : String) (seconds : Int) (now : Time)
  | succeed (runId : Id) (worker : String) (result : RunResult) (now : Time)
  | complete (runId : Id) (worker : String) (result : RunResult)
      (staged : AcquisitionRun → Except Fault Unit) (now : Time)
  | fail (runId : Id) (worker code : String) (now : Time)
  | requestCancellation (runId : Id) (requester : Option Nat) (now : Time)
  | acknowledgeCancellation (runId : Id) (worker : String) (now : Time)

def Call.perform (u : Unicode) (runs : List AcquisitionRun) : Call → Outcome
  | .start runId worker seconds now => startRun u runs runId worker now seconds
  | .heartbeat runId worker seconds now => SourceAcquisition.heartbeat u runs runId worker now seconds
  | .succeed runId worker result now => succeedRun u runs runId worker now result
  | .complete runId worker result staged now =>
    completeWithObservation u runs runId worker now result staged
  | .fail runId worker code now => failRun u runs runId worker now code
  | .requestCancellation runId requester now =>
    SourceAcquisition.requestCancellation runs runId now requester
  | .acknowledgeCancellation runId worker now =>
    SourceAcquisition.acknowledgeCancellation u runs runId worker now

/-- A request between its statements. -/
inductive Task where
  | looked (ask : Ask) (normal : Normal)
  | prepared (ask : Ask) (normal : Normal) (row : AcquisitionRun)

/-- The request that a run was created for. -/
structure Creation where
  runId : Id
  ask : Ask
  normal : Normal

/-- The committed rows, the requests under way, and what has been created and started so far. -/
structure World where
  runs : List AcquisitionRun := []
  sources : Id → Option SourceStatus
  tasks : List Task := []
  created : List Creation := []
  started : List (Id × String) := []

/-- What a step shows. -/
inductive Event where
  | called (call : Call) (answer : Except Fault AcquisitionRun)
  | abandoned (now : Time)
  | refused (ask : Ask) (fault : Fault)
  | answered (normal : Normal) (answer : Except Fault AcquisitionRun)
  | silent

def newlyStarted : Call → Except Fault AcquisitionRun → List (Id × String)
  | .start _ _ _ _, .ok row => [(row.id, row.workerId.getD "")]
  | _, _ => []

inductive Step (u : Unicode) (hash : Hashing) : World → Event → World → Prop
  | call {w : World} (call : Call) : Step u hash w (.called call (call.perform u w.runs).1)
        { w with
          runs := (call.perform u w.runs).2
          started := w.started ++ newlyStarted call (call.perform u w.runs).1 }
  | abandon {w : World} (now : Time) :
      Step u hash w (.abandoned now) { w with runs := (abandonExpiredRuns w.runs now).2 }
  | source {w : World} (sources : Id → Option SourceStatus) :
      Step u hash w .silent { w with sources := sources }
  | refuse {w : World} {ask : Ask} {fault : Fault}
      (h : receive u w.sources w.runs ask = .error fault) : Step u hash w (.refused ask fault) w
  | replay {w : World} {ask : Ask} {normal : Normal} {answer : Except Fault AcquisitionRun}
      (h : receive u w.sources w.runs ask = .ok normal)
      (hanswer : SourceAcquisition.replay hash w.runs normal = some answer) :
      Step u hash w (.answered normal answer) w
  | look {w : World} {ask : Ask} {normal : Normal}
      (h : receive u w.sources w.runs ask = .ok normal)
      (hnone : SourceAcquisition.replay hash w.runs normal = none) :
      Step u hash w .silent { w with tasks := w.tasks ++ [.looked ask normal] }
  | conflict {w : World} {before rest : List Task} {ask : Ask} {normal : Normal} {rowId : Id}
      {now : Time} {fault : Fault} (htasks : w.tasks = before ++ .looked ask normal :: rest)
      (h : prepareRun u hash w.runs normal rowId now = .error fault) :
      Step u hash w (.answered normal (.error fault)) { w with tasks := before ++ rest }
  | prepare {w : World} {before rest : List Task} {ask : Ask} {normal : Normal} {rowId : Id}
      {now : Time} {row : AcquisitionRun} (htasks : w.tasks = before ++ .looked ask normal :: rest)
      (h : prepareRun u hash w.runs normal rowId now = .ok row) :
      Step u hash w .silent { w with tasks := before ++ .prepared ask normal row :: rest }
  | insert {w : World} {before rest : List Task} {ask : Ask} {normal : Normal} {row : AcquisitionRun}
      (htasks : w.tasks = before ++ .prepared ask normal row :: rest)
      (h : w.runs.any (clashes row) = false) :
      Step u hash w (.answered normal (.ok row))
        { w with
          runs := w.runs ++ [row]
          tasks := before ++ rest
          created := w.created ++ [⟨row.id, ask, normal⟩] }
  | resolve {w : World} {before rest : List Task} {ask : Ask} {normal : Normal} {row : AcquisitionRun}
      (htasks : w.tasks = before ++ .prepared ask normal row :: rest)
      (h : w.runs.any (clashes row) = true) :
      Step u hash w (.answered normal (resolveCreateConflict hash w.runs normal))
        { w with tasks := before ++ rest }
  | crash {w : World} {before rest : List Task} {task : Task}
      (htasks : w.tasks = before ++ task :: rest) :
      Step u hash w .silent { w with tasks := before ++ rest }

inductive Reachable (u : Unicode) (hash : Hashing) : World → Prop
  | init (sources : Id → Option SourceStatus) : Reachable u hash { sources := sources }
  | step {w w' : World} {event : Event} (before : Reachable u hash w) (step : Step u hash w event w') :
      Reachable u hash w'

end FlowHub.SourceAcquisition
