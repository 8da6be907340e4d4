import FlowHub.Observations.Graph

namespace FlowHub.Observations

open Python
open SourceAcquisition (AcquisitionRun RunResult lockedRun)

/-- The worker, the result and the clock of `complete_with_observation`. -/
structure Completion where
  worker : String
  result : RunResult
  now : Time

/-- An Observation to stage, with the completion of its run or for a run that has succeeded. -/
structure Work where
  run : AcquisitionRun
  prepared : Prepared
  observedAt : Time
  completion : Option Completion := none

/-- A transaction between its statements. -/
inductive Task where
  | looked (work : Work)
  | staged (work : Work) (graph : Graph)
  | appending (row : ObservationEvidence)
  | linking (row : SnapshotReference)

/-- An Observation and the command that it was recorded for. -/
structure Original where
  observationId : Id
  prepared : Prepared

/-- The runs and the tables as committed, the open transactions, the command of each Observation
and the Observations that were extended since. -/
structure World where
  acquisition : SourceAcquisition.World
  tables : Tables := {}
  tasks : List Task := []
  originals : List Original := []
  extended : List Id := []

inductive Event where
  | recorded (runId : Id) (answer : Except Fault SourceObservation)
  | completed (run : AcquisitionRun) (observation : SourceObservation)
  | appended (answer : Except Fault ObservationEvidence)
  | linked (answer : Except Fault SnapshotReference)
  | silent

/-- `complete_with_observation` for a run that it makes succeed. -/
def Completes : SourceAcquisition.Event → Prop
  | .called (.complete _ _ _ _ _) (.ok row) => row.status = .succeeded
  | _ => False

/-- The call by which a completion ends its run once its Observation is staged. -/
def Completion.call (completion : Completion) (runId : Id) : SourceAcquisition.Call :=
  .complete runId completion.worker completion.result (fun _ => .ok ()) completion.now

/-- `_observation_or_error`. -/
def Tables.observation (tables : Tables) (observationId : Id) : Except Fault SourceObservation :=
  match Table.get SourceObservation.id tables.observations observationId with
  | none => .error "observation_not_found"
  | some row => .ok row

/-- The row that `append_evidence` is going to insert. -/
def nextEvidence (hash : Hashing) (tables : Tables) (observation : SourceObservation)
    (item : PreparedEvidence) (recordedAt : Time) : ObservationEvidence :=
  let latest := (tables.evidenceOf observation.id).getLast?
  newEvidence hash observation ((latest.map ObservationEvidence.sequenceNumber).getD 0 + 1) item
    (latest.map ObservationEvidence.evidenceChecksum) recordedAt

def sequenceTaken (tables : Tables) (row : ObservationEvidence) : Bool :=
  tables.evidence.any fun other =>
    other.observationId == row.observationId && other.sequenceNumber == row.sequenceNumber

/-- The reference with the key of another one. -/
def referenceOf (tables : Tables) (row : SnapshotReference) : Option SnapshotReference :=
  tables.snapshots.find? fun other => decide (other.key = row.key)

/-- What `link_snapshot` answers where the reference is there. -/
def answerLinked (existing row : SnapshotReference) : Except Fault SnapshotReference :=
  if existing.snapshotChecksum ≠ row.snapshotChecksum ∨ existing.metadata.same row.metadata = false then
    .error "snapshot_reference_conflict"
  else .ok existing

/-- The new row of `append_evidence` or of `link_snapshot`, as it is before the commit. -/
def prepareAppend (u : Unicode) (hash : Hashing) (tables : Tables) (observationId : Id)
    (evidence : EvidenceInput) (recordedAt : Time) : Except Fault ObservationEvidence := do
  let observation ← tables.observation observationId
  let item ← prepareEvidence u evidence
  .ok (nextEvidence hash tables observation item recordedAt)

def prepareLink (u : Unicode) (tables : Tables) (observationId : Id) (snapshot : SnapshotInput)
    (linkedAt : Time) : Except Fault SnapshotReference := do
  let observation ← tables.observation observationId
  let item ← prepareSnapshotReference u snapshot
  .ok (newSnapshot observation.id item linkedAt)

section

variable (u : Unicode) (hash : Hashing) (isoformat : Time → String)
  (orderBy : List SnapshotReference → List SnapshotReference)

/-- What a record command that has lost against another transaction is answered. -/
def answerLost (tables : Tables) (work : Work) : Except Fault SourceObservation :=
  match tables.observationOf work.run.id with
  | some observation => answerExisting hash orderBy tables observation work.prepared
  | none => .error "observation_create_conflict"

inductive Step : World → Event → World → Prop
  | run {w : World} {event : SourceAcquisition.Event} {acquisition : SourceAcquisition.World}
      (h : SourceAcquisition.Step u hash w.acquisition event acquisition) (hnot : ¬ Completes event) :
      Step w .silent { w with acquisition := acquisition }
  | refuse {w : World} {runId : Id} {command : Command} {fault : Fault}
      (h : receive u w.acquisition.runs runId command = .error fault) :
      Step w (.recorded runId (.error fault)) w
  | replay {w : World} {runId : Id} {command : Command} {run : AcquisitionRun} {prepared : Prepared}
      {observation : SourceObservation}
      (h : receive u w.acquisition.runs runId command = .ok (run, prepared))
      (hthere : w.tables.observationOf run.id = some observation) :
      Step w (.recorded runId (answerExisting hash orderBy w.tables observation prepared)) w
  | look {w : World} {runId : Id} {command : Command} {run : AcquisitionRun} {prepared : Prepared}
      (now : Time) (h : receive u w.acquisition.runs runId command = .ok (run, prepared))
      (hnone : w.tables.observationOf run.id = none) :
      Step w .silent
        { w with
          tasks := w.tasks ++ [.looked
            { run := run
              prepared := prepared
              observedAt := command.observedAt.getD (run.terminalAt.getD now) }] }
  | lookComplete {w : World} {runId : Id} {command : Command} {run : AcquisitionRun}
      {prepared : Prepared} (completion : Completion)
      (hlocked : lockedRun w.acquisition.runs runId = .ok run)
      (hprepared : prepare u command = .ok prepared)
      (hnone : w.tables.observationOf run.id = none) :
      Step w .silent
        { w with
          tasks := w.tasks ++ [.looked
            { run := run
              prepared := prepared
              observedAt := command.observedAt.getD completion.now
              completion := some completion }] }
  | completeExisting {w : World} {runId : Id} {command : Command} {run done : AcquisitionRun}
      {prepared : Prepared} {observation : SourceObservation} {acquisition : SourceAcquisition.World}
      (completion : Completion) (hlocked : lockedRun w.acquisition.runs runId = .ok run)
      (hprepared : prepare u command = .ok prepared)
      (hthere : w.tables.observationOf run.id = some observation)
      (hsame : answerExisting hash orderBy w.tables observation prepared = .ok observation)
      (h : SourceAcquisition.Step u hash w.acquisition (.called (completion.call run.id) (.ok done))
        acquisition) (hdone : done.status = .succeeded) :
      Step w (.completed done observation) { w with acquisition := acquisition }
  | stage {w : World} {before rest : List Task} {work : Work} (rowId : Id)
      (htasks : w.tasks = before ++ .looked work :: rest) :
      Step w .silent
        { w with
          tasks := before ++ .staged work
            (stageGraph hash isoformat w.tables.heads work.run work.prepared rowId work.observedAt) ::
            rest }
  | record {w : World} {before rest : List Task} {work : Work} {graph : Graph}
      (htasks : w.tasks = before ++ .staged work graph :: rest) (hrecord : work.completion = none)
      (hfree : w.tables.refuses graph = false) :
      Step w (.recorded work.run.id (.ok graph.observation))
        { w with
          tables := w.tables.insert graph
          tasks := before ++ rest
          originals := w.originals ++ [⟨graph.observation.id, work.prepared⟩] }
  | lost {w : World} {before rest : List Task} {work : Work} {graph : Graph}
      (htasks : w.tasks = before ++ .staged work graph :: rest) (hrecord : work.completion = none)
      (hclash : w.tables.refuses graph = true) :
      Step w (.recorded work.run.id (answerLost hash orderBy w.tables work))
        { w with tasks := before ++ rest }
  -- the lock on the run is held since it was read
  | complete {w : World} {before rest : List Task} {work : Work} {graph : Graph}
      {completion : Completion} {done : AcquisitionRun} {acquisition : SourceAcquisition.World}
      (htasks : w.tasks = before ++ .staged work graph :: rest)
      (hcompletion : work.completion = some completion)
      (hlocked : lockedRun w.acquisition.runs work.run.id = .ok work.run)
      (hfree : w.tables.refuses graph = false)
      (h : SourceAcquisition.Step u hash w.acquisition
        (.called (completion.call work.run.id) (.ok done)) acquisition)
      (hdone : done.status = .succeeded) :
      Step w (.completed done graph.observation)
        { w with
          acquisition := acquisition
          tables := w.tables.insert graph
          tasks := before ++ rest
          originals := w.originals ++ [⟨graph.observation.id, work.prepared⟩] }
  | append {w : World} {observationId : Id} {evidence : EvidenceInput} {recordedAt : Time}
      {row : ObservationEvidence}
      (h : prepareAppend u hash w.tables observationId evidence recordedAt = .ok row) :
      Step w .silent { w with tasks := w.tasks ++ [.appending row] }
  | refuseAppend {w : World} {observationId : Id} {evidence : EvidenceInput} {recordedAt : Time}
      {fault : Fault}
      (h : prepareAppend u hash w.tables observationId evidence recordedAt = .error fault) :
      Step w (.appended (.error fault)) w
  | appended {w : World} {before rest : List Task} {row : ObservationEvidence}
      (htasks : w.tasks = before ++ .appending row :: rest)
      (hfree : sequenceTaken w.tables row = false) :
      Step w (.appended (.ok row))
        { w with
          tables := { w.tables with evidence := w.tables.evidence ++ [row] }
          tasks := before ++ rest
          extended := w.extended ++ [row.observationId] }
  | appendLost {w : World} {before rest : List Task} {row : ObservationEvidence}
      (htasks : w.tasks = before ++ .appending row :: rest)
      (hclash : sequenceTaken w.tables row = true) :
      Step w (.appended (.error "evidence_append_conflict")) { w with tasks := before ++ rest }
  | link {w : World} {observationId : Id} {snapshot : SnapshotInput} {linkedAt : Time}
      {row : SnapshotReference} (h : prepareLink u w.tables observationId snapshot linkedAt = .ok row)
      (hnone : referenceOf w.tables row = none) :
      Step w .silent { w with tasks := w.tasks ++ [.linking row] }
  | refuseLink {w : World} {observationId : Id} {snapshot : SnapshotInput} {linkedAt : Time}
      {fault : Fault} (h : prepareLink u w.tables observationId snapshot linkedAt = .error fault) :
      Step w (.linked (.error fault)) w
  | relink {w : World} {observationId : Id} {snapshot : SnapshotInput} {linkedAt : Time}
      {row existing : SnapshotReference}
      (h : prepareLink u w.tables observationId snapshot linkedAt = .ok row)
      (hthere : referenceOf w.tables row = some existing) :
      Step w (.linked (answerLinked existing row)) w
  | linked {w : World} {before rest : List Task} {row : SnapshotReference}
      (htasks : w.tasks = before ++ .linking row :: rest) (hfree : referenceOf w.tables row = none) :
      Step w (.linked (.ok row))
        { w with
          tables := { w.tables with snapshots := w.tables.snapshots ++ [row] }
          tasks := before ++ rest
          extended := w.extended ++ [row.observationId] }
  | linkLost {w : World} {before rest : List Task} {row : SnapshotReference}
      (htasks : w.tasks = before ++ .linking row :: rest)
      (hclash : (referenceOf w.tables row).isSome) :
      Step w (.linked (.error "snapshot_reference_conflict")) { w with tasks := before ++ rest }
  | crash {w : World} {before rest : List Task} {task : Task}
      (htasks : w.tasks = before ++ task :: rest) : Step w .silent { w with tasks := before ++ rest }

inductive Reachable : World → Prop
  | init (sources : Id → Option SourceStatus) : Reachable { acquisition := { sources := sources } }
  | step {w w' : World} {event : Event} (before : Reachable w)
      (step : Step u hash isoformat orderBy w event w') : Reachable w'

end

end FlowHub.Observations
