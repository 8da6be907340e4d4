import FlowHub.Ledger
import FlowHub.Related
import FlowHub.Observations.Writers

namespace FlowHub.Observations

open Python List
open SourceAcquisition (AcquisitionRun RunResult lockedRun)

/-- The Observations of one scope of a Source, in the order they were committed. -/
def Tables.inScope (tables : Tables) (sourceId : Id) (resourceScope : String) : List SourceObservation :=
  tables.observations.filter fun row => row.sourceId == sourceId && row.resourceScope == resourceScope

/-- The evidence of an Observation, in the order it was committed. -/
def Tables.recorded (tables : Tables) (observationId : Id) : List ObservationEvidence :=
  tables.evidence.filter fun row => row.observationId == observationId

/-- A piece of evidence has the next number, and its checksum covers the checksum of the Observation
and of the piece before it. -/
structure Link (hash : Hashing) (observation : SourceObservation) (before : List ObservationEvidence)
    (row : ObservationEvidence) : Prop where
  number : row.sequenceNumber = before.length + 1
  previous : row.previousEvidenceChecksum = before.getLast?.map ObservationEvidence.evidenceChecksum
  checksum : row.evidenceChecksum = hash.json
    (evidenceJson observation.checksum row.sequenceNumber
      ⟨row.evidenceKind, row.evidenceReference, row.metadata⟩ row.previousEvidenceChecksum)

structure Counted (tables : Tables) (sourceId : Id) (resourceScope : String) : Prop where
  versions : EachAfter (fun before row => SourceObservation.observationVersion row = before.length + 1)
    (tables.inScope sourceId resourceScope)
  next : nextVersion tables.heads sourceId resourceScope = (tables.inScope sourceId resourceScope).length + 1

/-- What holds of the committed tables. -/
structure Consistent (hash : Hashing) (tables : Tables) : Prop where
  apart : tables.observations.Pairwise fun other row => rivals row other = false
  counted : ∀ sourceId resourceScope, Counted tables sourceId resourceScope
  chained : ∀ observation ∈ tables.observations,
    EachAfter (Link hash observation) (tables.recorded observation.id)
  evidenceKnown : ∀ row ∈ tables.evidence, ∃ observation ∈ tables.observations,
    observation.id = row.observationId
  snapshotsKnown : ∀ row ∈ tables.snapshots, ∃ observation ∈ tables.observations,
    observation.id = row.observationId
  snapshotKeys : (tables.snapshots.map SnapshotReference.key).Nodup

section Heads

variable {head : VersionHead}

theorem headOf_putHead (hnone : newHead = true → headOf heads head.sourceId head.resourceScope = none)
    (hsome : newHead = false → (headOf heads head.sourceId head.resourceScope).isSome) :
    headOf (putHead heads head newHead) sourceId resourceScope =
      if head.sourceId = sourceId ∧ head.resourceScope = resourceScope then some head
      else headOf heads sourceId resourceScope := by
  cases newHead with
  | true =>
    have hnone := hnone rfl
    simp only [putHead, if_true, headOf, find?_append] at hnone ⊢
    split
    · rename_i hkey
      rw [hkey.1, hkey.2] at hnone
      simp [hnone, hkey.1, hkey.2]
    · rename_i hkey
      rw [find?_cons_of_neg (by simpa using hkey)]
      simp
  | false =>
    have hsome := hsome rfl
    simp only [putHead, headOf] at hsome ⊢
    rw [if_neg (by simp), find?_map]
    have hkey : ∀ other : VersionHead,
        ((fun other : VersionHead => other.sourceId == sourceId && other.resourceScope == resourceScope) ∘
          fun other => if (other.sourceId == head.sourceId && other.resourceScope == head.resourceScope) =
            true then head else other) other =
          (other.sourceId == sourceId && other.resourceScope == resourceScope) := by
      intro other
      simp only [Function.comp]
      split
      · rename_i h
        simp only [Bool.and_eq_true, beq_iff_eq] at h
        rw [h.1, h.2]
      · rfl
    rw [funext hkey]
    split
    · rename_i h
      rw [h.1, h.2] at hsome
      obtain ⟨found, hfound⟩ := Option.isSome_iff_exists.mp hsome
      have hmatch := find?_some hfound
      rw [hfound, Option.map_some, h.1, h.2, if_pos hmatch]
    · rename_i h
      cases hfound : heads.find? fun other =>
          other.sourceId == sourceId && other.resourceScope == resourceScope with
      | none => rfl
      | some found =>
        have hmatch := find?_some hfound
        simp only [Bool.and_eq_true, beq_iff_eq] at hmatch
        rw [Option.map_some, hmatch.1, hmatch.2, if_neg]
        rw [Bool.and_eq_true, beq_iff_eq, beq_iff_eq]
        exact fun hkey => h ⟨hkey.1.symm, hkey.2.symm⟩

theorem nextVersion_putHead (sourceId : Id) (resourceScope : String)
    (hnone : newHead = true → headOf heads head.sourceId head.resourceScope = none)
    (hsome : newHead = false → (headOf heads head.sourceId head.resourceScope).isSome) :
    nextVersion (putHead heads head newHead) sourceId resourceScope =
      if head.sourceId = sourceId ∧ head.resourceScope = resourceScope then head.nextVersion
      else nextVersion heads sourceId resourceScope := by
  unfold nextVersion
  rw [headOf_putHead hnone hsome]
  by_cases hkey : head.sourceId = sourceId ∧ head.resourceScope = resourceScope
  · rw [if_pos hkey, if_pos hkey]
  · rw [if_neg hkey, if_neg hkey]

end Heads

section Evidence

variable {hash : Hashing} {observation : SourceObservation}

/-- A new piece of evidence is linked to the pieces it was made after. -/
theorem newEvidence_link (before : List ObservationEvidence) (item : PreparedEvidence)
    (recordedAt : Time) : Link hash observation before
      (newEvidence hash observation (before.length + 1) item
        (before.getLast?.map ObservationEvidence.evidenceChecksum) recordedAt) :=
  ⟨rfl, rfl, rfl⟩

theorem evidenceRows_chain (items : List PreparedEvidence) :
    ∀ log : List ObservationEvidence, EachAfter (Link hash observation) log →
      EachAfter (Link hash observation)
        (log ++ evidenceRows hash observation recordedAt (log.length + 1)
          (log.getLast?.map ObservationEvidence.evidenceChecksum) items) := by
  induction items with
  | nil =>
    intro log hlog
    rw [evidenceRows, append_nil]
    exact hlog
  | cons item rest ih =>
    intro log hlog
    have hlinked := hlog.snoc (newEvidence_link log item recordedAt)
    have hrest := ih _ hlinked
    rw [length_append, length_singleton, getLast?_concat, Option.map_some,
      append_assoc, singleton_append] at hrest
    exact hrest

theorem evidenceRows_observationId : ∀ row ∈ evidenceRows hash observation recordedAt position previous items,
      row.observationId = observation.id := by
  induction items generalizing position previous with
  | nil =>
    intro row hrow
    cases hrow
  | cons item rest ih =>
    intro row hrow
    rcases mem_cons.mp hrow with rfl | hrest
    · rfl
    · exact ih row hrest

/-- The numbers of a chain put it in order. -/
theorem evidenceOf_eq {tables : Tables}
    (h : EachAfter (Link hash observation) (tables.recorded observation.id)) :
    tables.evidenceOf observation.id = tables.recorded observation.id := by
  apply mergeSort_of_pairwise
  have hnumbers := (h.imp fun _ _ hlink => hlink.number).map_number
  have hsorted : ((tables.recorded observation.id).map ObservationEvidence.sequenceNumber).Pairwise
      (· ≤ ·) := by
    rw [hnumbers]
    have hlt := @pairwise_lt_range' 1 (tables.recorded observation.id).length 1 (by omega)
    exact hlt.imp fun hab => hab.le
  rw [pairwise_map] at hsorted
  exact hsorted.imp fun hle => decide_eq_true hle

/-- The row that `append_evidence` prepares is linked to the evidence it has read. -/
theorem nextEvidence_link (h : EachAfter (Link hash observation) (tables.recorded observation.id)) :
    Link hash observation (tables.recorded observation.id)
      (nextEvidence hash tables observation item recordedAt) := by
  unfold nextEvidence
  rw [evidenceOf_eq h]
  have hnumber : ((tables.recorded observation.id).getLast?.map
      ObservationEvidence.sequenceNumber).getD 0 = (tables.recorded observation.id).length := by
    rw [← getLast?_map, (h.imp fun _ _ hlink => hlink.number).map_number]
    cases (tables.recorded observation.id).length with
    | zero => rfl
    | succ n => simp [range'_concat, Nat.add_comm]
  dsimp only
  rw [hnumber]
  exact newEvidence_link _ item recordedAt

end Evidence

/-- A graph that was staged on the heads as they once were. -/
structure Staged (hash : Hashing) (isoformat : Time → String) (tables : Tables) (work : Work)
    (graph : Graph) : Prop where
  shape : ∃ heads rowId, graph = stageGraph hash isoformat heads work.run work.prepared rowId work.observedAt
  positive : 1 ≤ graph.observation.observationVersion
  bound : graph.observation.observationVersion ≤
    (tables.inScope work.run.sourceId work.run.resourceScope).length + 1
  head : graph.newHead = false → (headOf tables.heads work.run.sourceId work.run.resourceScope).isSome

section Insert

variable {hash : Hashing} {isoformat : Time → String} {tables : Tables} {work : Work} {graph : Graph}

theorem refuses_false (h : tables.refuses graph = false) :
    (∀ row ∈ tables.observations, rivals graph.observation row = false) ∧
    (graph.newHead = true → headOf tables.heads graph.head.sourceId graph.head.resourceScope = none) ∧
    (graph.snapshots.map SnapshotReference.key).Nodup := by
  simp only [Tables.refuses, Bool.or_eq_false_iff, any_eq_false, Bool.not_eq_eq_eq_not,
    Bool.not_false, decide_eq_true_eq] at h
  obtain ⟨⟨hrivals, hhead⟩, hkeys⟩ := h
  refine ⟨fun row hrow => Bool.eq_false_iff.mpr (hrivals row hrow), ?_, hkeys⟩
  intro hnew
  rw [hnew, Bool.true_and] at hhead
  exact Option.isSome_eq_false_iff.mp hhead |> Option.isNone_iff_eq_none.mp

theorem Staged.fields (h : Staged hash isoformat tables work graph) :
    graph.observation.sourceId = work.run.sourceId ∧
    graph.observation.resourceScope = work.run.resourceScope ∧
    graph.head = { sourceId := work.run.sourceId, resourceScope := work.run.resourceScope,
                   nextVersion := graph.observation.observationVersion + 1 } ∧
    graph.evidence = evidenceRows hash graph.observation work.observedAt 1 none work.prepared.evidence ∧
    graph.snapshots =
      work.prepared.snapshots.map fun item => newSnapshot graph.observation.id item work.observedAt := by
  obtain ⟨heads, rowId, rfl⟩ := h.shape
  exact ⟨rfl, rfl, rfl, rfl, rfl⟩

/-- A version that no row has taken is the next one. -/
theorem Staged.version (h : Staged hash isoformat tables work graph)
    (hcounted : Counted tables work.run.sourceId work.run.resourceScope)
    (hfree : tables.refuses graph = false) : graph.observation.observationVersion =
      (tables.inScope work.run.sourceId work.run.resourceScope).length + 1 := by
  by_contra hne
  have hbound := h.bound
  have hle : graph.observation.observationVersion ≤
      (tables.inScope work.run.sourceId work.run.resourceScope).length := by omega
  obtain ⟨row, hrow, hversion⟩ := hcounted.versions.exists_number h.positive hle
  obtain ⟨hmem, hscope⟩ := mem_filter.mp hrow
  rw [Bool.and_eq_true, beq_iff_eq, beq_iff_eq] at hscope
  have hrival := (refuses_false hfree).1 row hmem
  obtain ⟨hsource, hresource, -⟩ := h.fields
  simp [rivals, hscope, hsource, hresource, hversion] at hrival

theorem inScope_insert (sourceId : Id) (resourceScope : String) :
    (tables.insert graph).inScope sourceId resourceScope = tables.inScope sourceId resourceScope ++
        if graph.observation.sourceId = sourceId ∧ graph.observation.resourceScope = resourceScope then
          [graph.observation] else [] := by
  simp [Tables.inScope, Tables.insert, filter_append, filter_cons, filter_nil, Bool.and_eq_true, beq_iff_eq]

theorem Staged.counted (h : Staged hash isoformat tables work graph)
    (hcounted : ∀ sourceId resourceScope, Counted tables sourceId resourceScope)
    (hfree : tables.refuses graph = false) (sourceId : Id) (resourceScope : String) :
    Counted (tables.insert graph) sourceId resourceScope := by
  have hversion := h.version (hcounted _ _) hfree
  obtain ⟨hsource, hscope, hhead, -⟩ := h.fields
  obtain ⟨-, hnone, -⟩ := refuses_false hfree
  have hbefore := hcounted sourceId resourceScope
  have hnext := nextVersion_putHead sourceId resourceScope hnone
    (by rw [hhead]; exact h.head)
  by_cases hkey : work.run.sourceId = sourceId ∧ work.run.resourceScope = resourceScope
  · obtain ⟨rfl, rfl⟩ := hkey
    constructor
    · rw [inScope_insert, if_pos ⟨hsource, hscope⟩]
      exact hbefore.versions.snoc hversion
    · rw [inScope_insert, if_pos ⟨hsource, hscope⟩, length_append, length_singleton]
      show nextVersion (putHead _ _ _) _ _ = _
      rw [hnext, hhead, if_pos ⟨rfl, rfl⟩, hversion]
  · have hother : (tables.insert graph).inScope sourceId resourceScope =
        tables.inScope sourceId resourceScope := by
      rw [inScope_insert, if_neg (by rw [hsource, hscope]; exact hkey), append_nil]
    constructor
    · rw [hother]
      exact hbefore.versions
    · rw [hother]
      show nextVersion (putHead _ _ _) _ _ = _
      rw [hnext, hhead, if_neg hkey]
      exact hbefore.next

theorem fresh_id (hfree : tables.refuses graph = false)
    (hrow : row ∈ tables.observations) : row.id ≠ graph.observation.id := by
  intro hid
  have hrival := (refuses_false hfree).1 row hrow
  simp [rivals, hid] at hrival

theorem recorded_insert (h : Staged hash isoformat tables work graph) (observationId : Id) :
    (tables.insert graph).recorded observationId = tables.recorded observationId ++
      if observationId = graph.observation.id then graph.evidence else [] := by
  obtain ⟨-, -, -, hevidence, -⟩ := h.fields
  simp only [Tables.recorded, Tables.insert, filter_append, append_cancel_left_eq]
  have hids : ∀ row ∈ graph.evidence, row.observationId = graph.observation.id := by
    rw [hevidence]
    exact evidenceRows_observationId
  split
  · rename_i hid
    rw [filter_eq_self]
    intro row hrow
    rw [hids row hrow, hid, beq_self_eq_true]
  · rename_i hid
    rw [filter_eq_nil_iff]
    intro row hrow hsame
    rw [hids row hrow, beq_iff_eq] at hsame
    exact hid hsame.symm

theorem Consistent.no_evidence (h : Consistent hash tables) (hfree : tables.refuses graph = false) :
    tables.recorded graph.observation.id = [] := by
  rw [Tables.recorded, filter_eq_nil_iff]
  intro row hrow hsame
  obtain ⟨observation, hmem, hid⟩ := h.evidenceKnown row hrow
  rw [beq_iff_eq] at hsame
  exact fresh_id hfree hmem (hid.trans hsame)

theorem Consistent.no_snapshots (h : Consistent hash tables) (hfree : tables.refuses graph = false) :
    tables.snapshotsOf graph.observation.id = [] := by
  rw [Tables.snapshotsOf, filter_eq_nil_iff]
  intro row hrow hsame
  obtain ⟨observation, hmem, hid⟩ := h.snapshotsKnown row hrow
  rw [beq_iff_eq] at hsame
  exact fresh_id hfree hmem (hid.trans hsame)

theorem Consistent.insert (h : Consistent hash tables) (hstaged : Staged hash isoformat tables work graph)
    (hfree : tables.refuses graph = false) : Consistent hash (tables.insert graph) := by
  obtain ⟨hrivals, -, hkeys⟩ := refuses_false hfree
  obtain ⟨-, -, -, hevidence, hsnapshots⟩ := hstaged.fields
  have hnew : graph.observation ∈ (tables.insert graph).observations :=
    mem_append_right _ (mem_singleton.mpr rfl)
  constructor
  case apart =>
    show (tables.observations ++ [graph.observation]).Pairwise _
    rw [pairwise_append]
    refine ⟨h.apart, pairwise_singleton _ _, ?_⟩
    intro row hrow new hmem
    rw [mem_singleton] at hmem
    rw [hmem]
    exact hrivals row hrow
  case counted => exact fun sourceId resourceScope => hstaged.counted h.counted hfree sourceId resourceScope
  case chained =>
    intro observation hmem
    rw [recorded_insert hstaged]
    rcases mem_append.mp hmem with hold | hlast
    · rw [if_neg (fresh_id hfree hold), append_nil]
      exact h.chained observation hold
    · rw [mem_singleton] at hlast
      rw [hlast, if_pos rfl, h.no_evidence hfree, nil_append, hevidence]
      exact evidenceRows_chain work.prepared.evidence [] .nil
  case evidenceKnown =>
    intro row hrow
    rcases mem_append.mp hrow with hold | hlast
    · obtain ⟨observation, hmem, hid⟩ := h.evidenceKnown row hold
      exact ⟨observation, mem_append_left _ hmem, hid⟩
    · rw [hevidence] at hlast
      exact ⟨_, hnew, (evidenceRows_observationId row hlast).symm⟩
  case snapshotsKnown =>
    intro row hrow
    rcases mem_append.mp hrow with hold | hlast
    · obtain ⟨observation, hmem, hid⟩ := h.snapshotsKnown row hold
      exact ⟨observation, mem_append_left _ hmem, hid⟩
    · rw [hsnapshots] at hlast
      obtain ⟨item, -, rfl⟩ := mem_map.mp hlast
      exact ⟨_, hnew, rfl⟩
  case snapshotKeys =>
    show ((tables.snapshots ++ graph.snapshots).map SnapshotReference.key).Nodup
    rw [map_append, nodup_append]
    refine ⟨h.snapshotKeys, hkeys, ?_⟩
    intro key hold key' hnew' hsame
    obtain ⟨row, hrow, rfl⟩ := mem_map.mp hold
    obtain ⟨row', hrow', rfl⟩ := mem_map.mp hnew'
    obtain ⟨observation, hmem, hid⟩ := h.snapshotsKnown row hrow
    rw [hsnapshots] at hrow'
    obtain ⟨item, -, rfl⟩ := mem_map.mp hrow'
    exact fresh_id hfree hmem (hid.trans (congrArg Prod.fst hsame))

theorem Consistent.eq_of_rivals (h : Consistent hash tables)
    (ha : a ∈ tables.observations) (hb : b ∈ tables.observations)
    (hid : a.id = b.id ∨ a.acquisitionRunId = b.acquisitionRunId) : a = b := by
  by_contra hne
  have hsymm : Std.Symm fun a b : SourceObservation =>
      ¬ (a.id = b.id ∨ a.acquisitionRunId = b.acquisitionRunId) :=
    ⟨fun _ _ hab hba => hab (hba.imp Eq.symm Eq.symm)⟩
  have hapart : tables.observations.Pairwise fun a b =>
      ¬ (a.id = b.id ∨ a.acquisitionRunId = b.acquisitionRunId) := by
    apply h.apart.imp
    intro a b hab hsame
    rcases hsame with hsame | hsame
    · simp [rivals, hsame] at hab
    · simp [rivals, hsame] at hab
  exact hapart.forall ha hb hne hid

theorem Consistent.eq_of_id (h : Consistent hash tables)
    (ha : a ∈ tables.observations) (hb : b ∈ tables.observations) (hid : a.id = b.id) : a = b :=
  h.eq_of_rivals ha hb (.inl hid)

/-- A piece of evidence that was linked to a beginning of the chain and has a free number. -/
theorem Consistent.appendEvidence (h : Consistent hash tables)
    (hmem : observation ∈ tables.observations) (hid : row.observationId = observation.id)
    (hbefore : before <+: tables.recorded observation.id) (hlink : Link hash observation before row)
    (hfree : sequenceTaken tables row = false) :
    Consistent hash { tables with evidence := tables.evidence ++ [row] } := by
  have hwhole : before = tables.recorded observation.id := by
    obtain ⟨after, hafter⟩ := hbefore
    cases after with
    | nil => rw [← hafter, append_nil]
    | cons next rest =>
      exfalso
      have hnumber := h.chained observation hmem before next rest hafter.symm
      have hnext : next ∈ tables.recorded observation.id := by
        rw [← hafter]
        simp
      obtain ⟨hevidence, hsame⟩ := mem_filter.mp hnext
      rw [sequenceTaken, any_eq_false] at hfree
      apply hfree next hevidence
      rw [beq_iff_eq] at hsame
      simp [hsame, hid, hnumber.number, hlink.number]
  constructor
  case apart => exact h.apart
  case counted => exact fun sourceId resourceScope =>
    ⟨(h.counted sourceId resourceScope).versions, (h.counted sourceId resourceScope).next⟩
  case snapshotsKnown => exact h.snapshotsKnown
  case snapshotKeys => exact h.snapshotKeys
  case chained =>
    intro other hother
    show EachAfter (Link hash other) ((tables.evidence ++ [row]).filter _)
    rw [filter_append]
    by_cases hsame : other.id = observation.id
    · rw [h.eq_of_id hother hmem hsame, filter_cons_of_pos (by rw [hid, beq_self_eq_true]), filter_nil]
      exact (h.chained observation hmem).snoc (hwhole ▸ hlink)
    · rw [filter_cons_of_neg (by rw [hid, beq_iff_eq]; exact fun heq => hsame heq.symm),
        filter_nil, append_nil]
      exact h.chained other hother
  case evidenceKnown =>
    intro other hother
    rcases mem_append.mp hother with hold | hlast
    · exact h.evidenceKnown other hold
    · rw [mem_singleton] at hlast
      exact ⟨observation, hmem, by rw [hlast, hid]⟩

theorem Consistent.appendSnapshot (h : Consistent hash tables)
    (hknown : ∃ observation ∈ tables.observations, observation.id = row.observationId)
    (hfree : referenceOf tables row = none) :
    Consistent hash { tables with snapshots := tables.snapshots ++ [row] } := by
  constructor
  case apart => exact h.apart
  case counted => exact fun sourceId resourceScope =>
    ⟨(h.counted sourceId resourceScope).versions, (h.counted sourceId resourceScope).next⟩
  case chained => exact h.chained
  case evidenceKnown => exact h.evidenceKnown
  case snapshotsKnown =>
    intro other hother
    rcases mem_append.mp hother with hold | hlast
    · exact h.snapshotsKnown other hold
    · rw [mem_singleton] at hlast
      rw [hlast]
      exact hknown
  case snapshotKeys =>
    show ((tables.snapshots ++ [row]).map SnapshotReference.key).Nodup
    rw [map_append, nodup_append]
    refine ⟨h.snapshotKeys, by simp, ?_⟩
    intro key hold key' hnew hsame
    obtain ⟨other, hother, rfl⟩ := mem_map.mp hold
    rw [map_singleton, mem_singleton] at hnew
    rw [referenceOf, find?_eq_none] at hfree
    exact hfree other hother (decide_eq_true (hsame.trans hnew))

end Insert

end FlowHub.Observations
