import Mathlib.Data.Prod.Lex
import Mathlib.Data.String.Basic
import FlowHub.Observations.Commands
import FlowHub.SourceAcquisition.Requests

namespace FlowHub.Observations

open Python
open SourceAcquisition (AcquisitionRun RunResult lockedRun)

/-- `SourceObservationVersionHead`. -/
structure VersionHead where
  sourceId : Id
  resourceScope : String
  nextVersion : Nat

structure SourceObservation where
  (id acquisitionRunId sourceId : Id)
  (resourceScope resourceIdentity resourceIdentityHash : String)
  observationVersion : Nat
  observedAt : Time
  provenance : Json
  checksum : String

/-- `SourceObservationEvidence`. -/
structure ObservationEvidence where
  observationId : Id
  sequenceNumber : Nat
  (evidenceKind evidenceReference : String)
  previousEvidenceChecksum : Option String
  evidenceChecksum : String
  metadata : Json
  recordedAt : Time

/-- `SourceObservationSnapshotReference`. -/
structure SnapshotReference where
  observationId : Id
  (snapshotKind snapshotReference snapshotChecksum : String)
  metadata : Json
  linkedAt : Time

structure Tables where
  heads : List VersionHead := []
  observations : List SourceObservation := []
  evidence : List ObservationEvidence := []
  snapshots : List SnapshotReference := []

def identityHash (hash : Hashing) (resourceIdentity : String) : String :=
  hash.json (.obj [("resource_identity", .str resourceIdentity)])

/-- What the checksum of an Observation is taken of. -/
def core (isoformat : Time → String) (run : AcquisitionRun) (resourceIdentityHash : String)
    (version : Nat) (observedAt : Time) (provenance : Json) : Json :=
  .obj [("acquisition_run_id", .str run.id), ("observation_version", .int version),
    ("observed_at", .str (isoformat observedAt)),
    ("provenance", provenance),
    ("resource_identity_hash", .str resourceIdentityHash),
    ("resource_scope", .str run.resourceScope),
    ("source_id", .str run.sourceId)]

/-- What the checksum of a piece of evidence is taken of. -/
def evidenceJson (observationChecksum : String) (sequenceNumber : Nat) (item : PreparedEvidence)
    (previous : Option String) : Json :=
  .obj [("kind", .str item.kind), ("metadata", item.metadata),
    ("observation_checksum", .str observationChecksum),
    ("previous_evidence_checksum", .ofOption .str previous),
    ("reference", .str item.reference),
    ("sequence_number", .int sequenceNumber)]

section

variable (hash : Hashing) (isoformat : Time → String)

def newObservation (run : AcquisitionRun) (prepared : Prepared) (rowId : Id) (version : Nat)
    (observedAt : Time) : SourceObservation where
  id := rowId
  acquisitionRunId := run.id
  sourceId := run.sourceId
  resourceScope := run.resourceScope
  resourceIdentity := prepared.resourceIdentity
  resourceIdentityHash := identityHash hash prepared.resourceIdentity
  observationVersion := version
  observedAt := observedAt
  provenance := prepared.provenance
  checksum := hash.json
    (core isoformat run (identityHash hash prepared.resourceIdentity) version observedAt
      prepared.provenance)

def newEvidence (observation : SourceObservation) (sequenceNumber : Nat) (item : PreparedEvidence)
    (previous : Option String) (recordedAt : Time) : ObservationEvidence where
  observationId := observation.id
  sequenceNumber := sequenceNumber
  evidenceKind := item.kind
  evidenceReference := item.reference
  previousEvidenceChecksum := previous
  evidenceChecksum := hash.json (evidenceJson observation.checksum sequenceNumber item previous)
  metadata := item.metadata
  recordedAt := recordedAt

/-- The evidence of a new Observation, each piece after the one before it. -/
def evidenceRows (observation : SourceObservation) (recordedAt : Time) :
    Nat → Option String → List PreparedEvidence → List ObservationEvidence
  | _, _, [] => []
  | position, previous, item :: rest =>
    let row := newEvidence hash observation position item previous recordedAt
    row :: evidenceRows observation recordedAt (position + 1) (some row.evidenceChecksum) rest

def newSnapshot (observationId : Id) (item : PreparedSnapshot) (linkedAt : Time) : SnapshotReference where
  observationId := observationId
  snapshotKind := item.kind
  snapshotReference := item.reference
  snapshotChecksum := item.checksum
  metadata := item.metadata
  linkedAt := linkedAt

end

def headOf (heads : List VersionHead) (sourceId : Id) (resourceScope : String) : Option VersionHead :=
  heads.find? fun head => head.sourceId == sourceId && head.resourceScope == resourceScope

def nextVersion (heads : List VersionHead) (sourceId : Id) (resourceScope : String) : Nat :=
  match headOf heads sourceId resourceScope with
  | none => 1
  | some head => head.nextVersion

/-- The rows that `_stage_observation` adds to a transaction; `newHead` where it adds the head. -/
structure Graph where
  head : VersionHead
  newHead : Bool
  observation : SourceObservation
  evidence : List ObservationEvidence
  snapshots : List SnapshotReference

def stageGraph (hash : Hashing) (isoformat : Time → String) (heads : List VersionHead)
    (run : AcquisitionRun) (prepared : Prepared) (rowId : Id) (observedAt : Time) : Graph :=
  let version := nextVersion heads run.sourceId run.resourceScope
  let observation := newObservation hash isoformat run prepared rowId version observedAt
  { head := { sourceId := run.sourceId, resourceScope := run.resourceScope, nextVersion := version + 1 }
    newHead := (headOf heads run.sourceId run.resourceScope).isNone
    observation := observation
    evidence := evidenceRows hash observation observedAt 1 none prepared.evidence
    snapshots := prepared.snapshots.map fun item => newSnapshot rowId item observedAt }

/-- A row that a unique constraint does not admit beside another. -/
def rivals (row other : SourceObservation) : Bool :=
  other.id == row.id || other.acquisitionRunId == row.acquisitionRunId ||
  (other.sourceId == row.sourceId && other.resourceScope == row.resourceScope &&
    other.observationVersion == row.observationVersion) ||
  other.checksum == row.checksum

def SnapshotReference.key (row : SnapshotReference) : Id × String × String :=
  (row.observationId, row.snapshotKind, row.snapshotReference)

/-- A unique constraint refuses the rows of a graph. -/
def Tables.refuses (tables : Tables) (graph : Graph) : Bool :=
  tables.observations.any (rivals graph.observation) ||
  (graph.newHead &&
    (headOf tables.heads graph.head.sourceId graph.head.resourceScope).isSome) ||
  !decide (graph.snapshots.map SnapshotReference.key).Nodup

def putHead (heads : List VersionHead) (head : VersionHead) (newHead : Bool) : List VersionHead :=
  if newHead then heads ++ [head]
  else heads.map fun other =>
    if other.sourceId == head.sourceId && other.resourceScope == head.resourceScope then head else other

def Tables.insert (tables : Tables) (graph : Graph) : Tables where
  heads := putHead tables.heads graph.head graph.newHead
  observations := tables.observations ++ [graph.observation]
  evidence := tables.evidence ++ graph.evidence
  snapshots := tables.snapshots ++ graph.snapshots

/-- The evidence of an Observation in the order of its numbers. -/
def Tables.evidenceOf (tables : Tables) (observationId : Id) : List ObservationEvidence :=
  (tables.evidence.filter fun row => row.observationId == observationId).mergeSort
    fun a b => decide (a.sequenceNumber ≤ b.sequenceNumber)

def Tables.snapshotsOf (tables : Tables) (observationId : Id) : List SnapshotReference :=
  tables.snapshots.filter fun row => row.observationId == observationId

def Tables.observationOf (tables : Tables) (runId : Id) : Option SourceObservation :=
  tables.observations.find? fun row => row.acquisitionRunId == runId

/-- Two lists whose entries are pairwise the same. -/
def allSame {α β : Type} (same : α → β → Bool) : List α → List β → Bool
  | [], [] => true
  | a :: rest, b :: rest' => same a b && allSame same rest rest'
  | _, _ => false

def sameEvidence (row : ObservationEvidence) (item : PreparedEvidence) : Bool :=
  decide (row.evidenceKind = item.kind) && decide (row.evidenceReference = item.reference) &&
    row.metadata.same item.metadata

def sameSnapshot (row : SnapshotReference) (item : PreparedSnapshot) : Bool :=
  decide (row.snapshotKind = item.kind) && decide (row.snapshotReference = item.reference) &&
    decide (row.snapshotChecksum = item.checksum) && row.metadata.same item.metadata

/-- What a command's snapshot references are sorted on before their metadata. -/
def PreparedSnapshot.rank (item : PreparedSnapshot) : String ×ₗ String ×ₗ String :=
  toLex (item.kind, toLex (item.reference, item.checksum))

/-- Sorting two references that differ in their metadata only compares dictionaries. -/
def comparable (a b : PreparedSnapshot) : Bool :=
  !decide (a.rank = b.rank) || a.metadata.same b.metadata

/-- The snapshot references of a command, sorted. -/
def sortedSnapshots (items : List PreparedSnapshot) : Except Fault (List PreparedSnapshot) :=
  if items.Pairwise fun a b => comparable a b = true then
    .ok (items.mergeSort fun a b => decide (a.rank ≤ b.rank))
  else .error "TypeError"

section

variable (hash : Hashing) (orderBy : List SnapshotReference → List SnapshotReference) (tables : Tables)

/-- `_assert_exact_replay`; `orderBy` is how the database orders by kind and reference. -/
def assertExactReplay (observation : SourceObservation) (prepared : Prepared) : Except Fault Unit := do
  let expectedSnapshots ← sortedSnapshots prepared.snapshots
  if decide (observation.resourceIdentityHash = identityHash hash prepared.resourceIdentity) &&
      observation.provenance.same prepared.provenance &&
      allSame sameEvidence (tables.evidenceOf observation.id) prepared.evidence &&
      allSame sameSnapshot (orderBy (tables.snapshotsOf observation.id)) expectedSnapshots then
    .ok ()
  else .error "observation_replay_conflict"

/-- The answer of the Observation that a run has. -/
def answerExisting (observation : SourceObservation) (prepared : Prepared) : Except Fault SourceObservation :=
  (assertExactReplay hash orderBy tables observation prepared).map fun _ => observation

end

/-- What `record_observation` comes to before it looks at the Observations. -/
def receive (u : Unicode) (runs : List AcquisitionRun) (runId : Id) (command : Command) :
    Except Fault (AcquisitionRun × Prepared) := do
  let run ← lockedRun runs runId
  if run.status = .succeeded then (prepare u command).map fun prepared => (run, prepared)
  else .error "observation_run_not_succeeded"

end FlowHub.Observations
