import FlowHub.SourceAcquisition.Runs

namespace FlowHub.Observations

open Python

/-- The code of a `SourceAcquisitionError`. -/
abbrev Fault := SourceAcquisition.Fault

structure EvidenceInput where
  (kind reference : String)
  metadata : Json := .null

structure SnapshotInput where
  (kind reference checksum : String)
  metadata : Json := .null

/-- What `record_observation` and `complete_with_observation` are told of an Observation. -/
structure Command where
  resourceIdentity : String
  provenance : Json
  evidence : List EvidenceInput
  snapshotReferences : List SnapshotInput := []
  observedAt : Option Time := none

structure PreparedEvidence where
  (kind reference : String)
  metadata : Json

structure PreparedSnapshot where
  (kind reference checksum : String)
  metadata : Json

/-- A command with its values normalized. -/
structure Prepared where
  resourceIdentity : String
  provenance : Json
  evidence : List PreparedEvidence
  snapshots : List PreparedSnapshot

def maxMetadataBytes : Nat := 16 * 1024

section

variable (u : Unicode)

def text (value field : String) (limit : Nat) : Except Fault String :=
  let normalized := strip u (u.nfkc value).toList
  if normalized = [] ∨ limit < normalized.length then .error (field ++ "_invalid")
  else .ok (String.ofList normalized)

def identifier (value : String) : Bool :=
  let letter (c : Char) : Bool := decide ('a' ≤ c ∧ c ≤ 'z')
  value.toList.head?.any letter && decide (value.length ≤ 80) &&
    value.toList.all fun c => letter c || decide ('0' ≤ c ∧ c ≤ '9') || c == '_'

/-- `_kind`. -/
def kindValue (value field : String) : Except Fault String := do
  let normalized ← text u value field 80
  if identifier (u.lower normalized) then .ok (u.lower normalized) else .error (field ++ "_invalid")

/-- The letters that `re.IGNORECASE` takes for one of a lower case ASCII pattern. -/
def ignoreCase (c : Char) : Char := if c = 'ı' then 'i' else if c = 'ſ' then 's' else c

/-- A key that `_SENSITIVE_KEY` finds and that is not known to be harmless. -/
def sensitiveKey (key : String) : Bool :=
  let normalized := u.lower (String.ofList (strip u key.toList))
  let found (pattern : String) : Bool := decide (pattern.toList <:+: normalized.toList.map ignoreCase)
  ["password", "secret", "token", "authorization", "cookie"].any found &&
    !(["provider_change_token", "change_token_kind"].contains normalized)

mutual

/-- `_assert_safe_metadata`. -/
def safeMetadata : Json → Bool
  | .obj fields => safeFields fields
  | .arr items => safeItems items
  | _ => true

def safeItems : List Json → Bool
  | [] => true
  | item :: rest => safeMetadata item && safeItems rest

def safeFields : List (String × Json) → Bool
  | [] => true
  | (key, value) :: rest => !sensitiveKey u key && safeMetadata value && safeFields rest

end

/-- `_metadata`. -/
def metadataValue (value : Json) (field : String) : Except Fault Json :=
  match value with
  | .obj _ =>
    if !safeMetadata u value then .error "provenance_sensitive_field"
    else if maxMetadataBytes < value.render.utf8ByteSize then .error (field ++ "_too_large")
    else .ok value
  | _ => .error (field ++ "_invalid")

def orEmpty (value : Json) : Json := if value.truthy then value else .obj []

def prepareEvidence (value : EvidenceInput) : Except Fault PreparedEvidence := do
  let kind ← kindValue u value.kind "evidence_kind"
  let reference ← text u value.reference "evidence_reference" 500
  let metadata ← metadataValue u (orEmpty value.metadata) "evidence_metadata"
  .ok { kind := kind, reference := reference, metadata := metadata }

/-- A lower case hexadecimal digest. -/
def isDigest (value : String) : Bool :=
  decide (value.length = 64) &&
    value.toList.all fun c => decide ('0' ≤ c ∧ c ≤ '9') || decide ('a' ≤ c ∧ c ≤ 'f')

def digest (value : String) : Except Fault String :=
  if isDigest value then .ok value else .error "snapshot_checksum_invalid"

def prepareSnapshotReference (value : SnapshotInput) : Except Fault PreparedSnapshot := do
  let checksum ← text u value.checksum "snapshot_checksum" 64
  let checksum ← digest checksum
  let kind ← kindValue u value.kind "snapshot_kind"
  let reference ← text u value.reference "snapshot_reference" 240
  let metadata ← metadataValue u (orEmpty value.metadata) "snapshot_metadata"
  .ok { kind := kind, reference := reference, checksum := checksum, metadata := metadata }

def evidenceRequired (evidence : List PreparedEvidence) : Except Fault Unit :=
  if evidence.isEmpty then .error "observation_evidence_required" else .ok ()

/-- The values of a command, in the order `_stage_observation` takes them. -/
def prepare (command : Command) : Except Fault Prepared := do
  let resourceIdentity ← text u command.resourceIdentity "resource_identity" 240
  let provenance ← metadataValue u command.provenance "provenance"
  let evidence ← command.evidence.mapM (prepareEvidence u)
  evidenceRequired evidence
  let snapshots ← command.snapshotReferences.mapM (prepareSnapshotReference u)
  .ok { resourceIdentity := resourceIdentity, provenance := provenance, evidence := evidence,
        snapshots := snapshots }

end

end FlowHub.Observations
