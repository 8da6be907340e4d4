import FlowHub.Observations.Replay
import FlowHub.SourceAcquisition.Replays

namespace FlowHub.Observations

open Python List Except
open SourceAcquisition (AcquisitionRun RunResult lockedRun)

/-- Nothing is taken away. -/
structure Extends (before after : Tables) : Prop where
  observations : ∀ row ∈ before.observations, row ∈ after.observations
  scope : ∀ sourceId resourceScope, (before.inScope sourceId resourceScope).length ≤
    (after.inScope sourceId resourceScope).length
  recorded : ∀ observationId, before.recorded observationId <+: after.recorded observationId
  heads : ∀ sourceId resourceScope, (headOf before.heads sourceId resourceScope).isSome →
    (headOf after.heads sourceId resourceScope).isSome

theorem Extends.refl (tables : Tables) : Extends tables tables :=
  ⟨fun _ => id, fun _ _ => le_rfl, fun _ => prefix_refl _, fun _ _ => id⟩

section

variable {hash : Hashing} {isoformat : Time → String} {tables tables' : Tables} {work : Work}
  {graph : Graph} {extended : List Id} {original : Original} {observation : SourceObservation}

theorem Staged.extends (h : Staged hash isoformat tables work graph)
    (hfree : tables.refuses graph = false) : Extends tables (tables.insert graph) where
  observations _ hrow := mem_append_left _ hrow
  scope sourceId resourceScope := by
    rw [inScope_insert, length_append]
    omega
  recorded observationId := by
    rw [recorded_insert h]
    exact prefix_append _ _
  heads sourceId resourceScope hhead := by
    obtain ⟨-, hnone, -⟩ := refuses_false hfree
    obtain ⟨-, -, hgraph, -⟩ := h.fields
    show (headOf (putHead _ _ _) _ _).isSome
    rw [headOf_putHead hnone (by rw [hgraph]; exact h.head)]
    split
    · rfl
    · exact hhead

theorem extends_evidence (row : ObservationEvidence) :
    Extends tables { tables with evidence := tables.evidence ++ [row] } where
  observations _ := id
  scope _ _ := le_rfl
  recorded _ := (prefix_append _ _).filter _
  heads _ _ := id

theorem extends_snapshot (row : SnapshotReference) :
    Extends tables { tables with snapshots := tables.snapshots ++ [row] } :=
  ⟨fun _ => id, fun _ _ => le_rfl, fun _ => prefix_refl _, fun _ _ => id⟩

theorem Staged.later (h : Staged hash isoformat tables work graph) (hext : Extends tables tables') :
    Staged hash isoformat tables' work graph where
  shape := h.shape
  positive := h.positive
  bound := h.bound.trans (Nat.succ_le_succ (hext.scope _ _))
  head hnew := hext.heads _ _ (h.head hnew)

/-- What is known of an open transaction. -/
def Ready (hash : Hashing) (isoformat : Time → String) (runs : List AcquisitionRun) (tables : Tables) :
    Task → Prop
  | .looked work => work.completion = none → work.run ∈ runs ∧ work.run.status = .succeeded
  | .staged work graph => (work.completion = none → work.run ∈ runs ∧ work.run.status = .succeeded) ∧
      Staged hash isoformat tables work graph
  | .appending row => ∃ observation ∈ tables.observations, row.observationId = observation.id ∧
      ∃ before, before <+: tables.recorded observation.id ∧ Link hash observation before row
  | .linking row => ∃ observation ∈ tables.observations, observation.id = row.observationId

/-- The runs that are over stay. -/
def KeepsOver (runs runs' : List AcquisitionRun) : Prop :=
  ∀ row ∈ runs, row.status.active = false → row ∈ runs'

theorem Ready.later (h : Ready hash isoformat runs tables task) (hruns : KeepsOver runs runs')
    (hext : Extends tables tables') : Ready hash isoformat runs' tables' task := by
  have hlives : ∀ run : AcquisitionRun, run ∈ runs ∧ run.status = .succeeded →
      run ∈ runs' ∧ run.status = .succeeded := by
    intro run ⟨hmem, hdone⟩
    exact ⟨hruns run hmem (by rw [hdone]; rfl), hdone⟩
  cases task with
  | looked work => exact fun hnone => hlives _ (h hnone)
  | staged work graph => exact ⟨fun hnone => hlives _ (h.1 hnone), h.2.later hext⟩
  | appending row =>
    obtain ⟨observation, hmem, hid, before, hbefore, hlink⟩ := h
    exact ⟨observation, hext.observations _ hmem, hid, before, hbefore.trans (hext.recorded _), hlink⟩
  | linking row =>
    obtain ⟨observation, hmem, hid⟩ := h
    exact ⟨observation, hext.observations _ hmem, hid⟩

theorem snapshotsOf_insert (h : Staged hash isoformat tables work graph) (observationId : Id) :
    (tables.insert graph).snapshotsOf observationId = tables.snapshotsOf observationId ++
      if observationId = graph.observation.id then graph.snapshots else [] := by
  obtain ⟨-, -, -, -, hsnapshots⟩ := h.fields
  simp only [Tables.snapshotsOf, Tables.insert, filter_append, append_cancel_left_eq]
  rw [hsnapshots]
  split
  · rename_i hid
    rw [filter_eq_self]
    intro row hrow
    obtain ⟨item, -, rfl⟩ := mem_map.mp hrow
    rw [hid]
    exact beq_self_eq_true _
  · rename_i hid
    rw [filter_eq_nil_iff]
    intro row hrow hsame
    obtain ⟨item, -, rfl⟩ := mem_map.mp hrow
    rw [beq_iff_eq] at hsame
    exact hid hsame.symm

theorem evidenceRows_records (items : List PreparedEvidence) :
    Forall₂ Records (evidenceRows hash observation recordedAt position previous items) items := by
  induction items generalizing position previous with
  | nil => exact .nil
  | cons item rest ih => exact .cons ⟨rfl, rfl, rfl⟩ ih

theorem Kept.insert (h : Kept hash tables extended original observation)
    (hstaged : Staged hash isoformat tables work graph) (hfree : tables.refuses graph = false) :
    Kept hash (tables.insert graph) extended original observation where
  mem := mem_append_left _ h.mem
  id := h.id
  identity := h.identity
  provenance := h.provenance
  evidence hnot := by
    rw [recorded_insert hstaged, if_neg (fresh_id hfree h.mem), append_nil]
    exact h.evidence hnot
  snapshots hnot := by
    rw [snapshotsOf_insert hstaged, if_neg (fresh_id hfree h.mem), append_nil]
    exact h.snapshots hnot

/-- The Observation that has just been recorded is the one of its command. -/
theorem Kept.new (hconsistent : Consistent hash tables)
    (hstaged : Staged hash isoformat tables work graph) (hfree : tables.refuses graph = false) :
    Kept hash (tables.insert graph) extended ⟨graph.observation.id, work.prepared⟩
      graph.observation := by
  obtain ⟨-, -, -, hevidence, hsnapshots⟩ := hstaged.fields
  obtain ⟨heads, rowId, hgraph⟩ := hstaged.shape
  constructor
  case mem => exact mem_append_right _ (mem_singleton.mpr rfl)
  case id => rfl
  case identity => rw [hgraph]; rfl
  case provenance => rw [hgraph]; rfl
  case evidence =>
    intro _
    rw [recorded_insert hstaged, if_pos rfl, hconsistent.no_evidence hfree, nil_append, hevidence]
    exact evidenceRows_records _
  case snapshots =>
    intro _
    rw [snapshotsOf_insert hstaged, if_pos rfl, hconsistent.no_snapshots hfree, nil_append, hsnapshots]
    rw [hgraph]
    rfl

theorem Kept.appendEvidence (h : Kept hash tables extended original observation) (row : ObservationEvidence) :
    Kept hash { tables with evidence := tables.evidence ++ [row] } (extended ++ [row.observationId])
      original observation where
  mem := h.mem
  id := h.id
  identity := h.identity
  provenance := h.provenance
  evidence hnot := by
    rw [mem_append, not_or, mem_singleton] at hnot
    show Forall₂ Records ((tables.evidence ++ [row]).filter _) _
    rw [filter_append, filter_cons_of_neg, filter_nil, append_nil]
    · exact h.evidence hnot.1
    · rw [beq_iff_eq, h.id]
      exact fun hsame => hnot.2 hsame.symm
  snapshots hnot := h.snapshots fun hmem => hnot (mem_append_left _ hmem)

theorem Kept.appendSnapshot (h : Kept hash tables extended original observation) (row : SnapshotReference) :
    Kept hash { tables with snapshots := tables.snapshots ++ [row] } (extended ++ [row.observationId])
      original observation where
  mem := h.mem
  id := h.id
  identity := h.identity
  provenance := h.provenance
  evidence hnot := h.evidence fun hmem => hnot (mem_append_left _ hmem)
  snapshots hnot := by
    rw [mem_append, not_or, mem_singleton] at hnot
    show (tables.snapshots ++ [row]).filter _ = _
    rw [filter_append, filter_cons_of_neg, filter_nil, append_nil]
    · exact h.snapshots hnot.1
    · rw [beq_iff_eq, h.id]
      exact fun hsame => hnot.2 hsame.symm

end

/-- What holds of every reachable world. -/
structure Sound (u : Unicode) (hash : Hashing) (isoformat : Time → String) (w : World) : Prop where
  acquisition : SourceAcquisition.Reachable u hash w.acquisition
  consistent : Consistent hash w.tables
  backed : ∀ observation ∈ w.tables.observations, ∃ run ∈ w.acquisition.runs,
    run.id = observation.acquisitionRunId ∧ run.status = .succeeded
  ready : ∀ task ∈ w.tasks, Ready hash isoformat w.acquisition.runs w.tables task
  kept : ∀ original ∈ w.originals, ∃ observation, Kept hash w.tables w.extended original observation
  commanded : ∀ observation ∈ w.tables.observations,
    ∃ original ∈ w.originals, original.observationId = observation.id

namespace Sound

variable {u : Unicode} {hash : Hashing} {isoformat : Time → String} {w : World}
  {before rest : List Task} {task : Task}

theorem drop (h : Sound u hash isoformat w) (htasks : w.tasks = before ++ task :: rest) :
    Sound u hash isoformat { w with tasks := before ++ rest } where
  acquisition := h.acquisition
  consistent := h.consistent
  backed := h.backed
  kept := h.kept
  commanded := h.commanded
  ready := by
    intro other hother
    apply h.ready
    rw [htasks]
    rcases mem_append.mp hother with hbefore | hrest
    · exact mem_append_left _ hbefore
    · exact mem_append_right _ (mem_cons_of_mem _ hrest)

theorem ready_of_cut (h : Sound u hash isoformat w) (htasks : w.tasks = before ++ task :: rest) :
    Ready hash isoformat w.acquisition.runs w.tables task := by
  apply h.ready
  rw [htasks]
  simp

theorem open_ (h : Sound u hash isoformat w)
    (hready : Ready hash isoformat w.acquisition.runs w.tables task) :
    Sound u hash isoformat { w with tasks := w.tasks ++ [task] } where
  acquisition := h.acquisition
  consistent := h.consistent
  backed := h.backed
  kept := h.kept
  commanded := h.commanded
  ready := by
    intro other hother
    rcases mem_append.mp hother with hold | hnew
    · exact h.ready other hold
    · rw [mem_singleton] at hnew
      rw [hnew]
      exact hready

theorem replace (h : Sound u hash isoformat w) {next : Task} (htasks : w.tasks = before ++ task :: rest)
    (hready : Ready hash isoformat w.acquisition.runs w.tables next) :
    Sound u hash isoformat { w with tasks := before ++ next :: rest } where
  acquisition := h.acquisition
  consistent := h.consistent
  backed := h.backed
  kept := h.kept
  commanded := h.commanded
  ready := by
    intro other hother
    rcases mem_append.mp hother with hbefore | hrest
    · exact (h.drop htasks).ready other (mem_append_left _ hbefore)
    · rcases mem_cons.mp hrest with rfl | hrest
      · exact hready
      · exact (h.drop htasks).ready other (mem_append_right _ hrest)

theorem acquires (h : Sound u hash isoformat w) {event : SourceAcquisition.Event}
    {acquisition : SourceAcquisition.World}
    (hstep : SourceAcquisition.Step u hash w.acquisition event acquisition) :
    Sound u hash isoformat { w with acquisition := acquisition } := by
  have hover : KeepsOver w.acquisition.runs acquisition.runs := by
    intro row hrow hover
    exact SourceAcquisition.terminal_kept h.acquisition (.single ⟨event, hstep⟩) hrow hover
  constructor
  case acquisition => exact .step h.acquisition hstep
  case consistent => exact h.consistent
  case kept => exact h.kept
  case commanded => exact h.commanded
  case ready => exact fun task htask => (h.ready task htask).later hover (.refl _)
  case backed =>
    intro observation hmem
    obtain ⟨run, hrun, hid, hdone⟩ := h.backed observation hmem
    exact ⟨run, hover run hrun (by rw [hdone]; rfl), hid, hdone⟩

/-- The commit of a staged Observation for a run that has succeeded. -/
theorem inserts (h : Sound u hash isoformat w) {work : Work} {graph : Graph}
    (htasks : w.tasks = before ++ .staged work graph :: rest)
    (hfree : w.tables.refuses graph = false)
    (hbacked : ∃ run ∈ w.acquisition.runs, run.id = work.run.id ∧ run.status = .succeeded) :
    Sound u hash isoformat
      { w with
        tables := w.tables.insert graph
        tasks := before ++ rest
        originals := w.originals ++ [⟨graph.observation.id, work.prepared⟩] } := by
  have hstaged := (h.ready_of_cut htasks).2
  have hrun : graph.observation.acquisitionRunId = work.run.id := by
    obtain ⟨heads, rowId, rfl⟩ := hstaged.shape
    rfl
  constructor
  case acquisition => exact h.acquisition
  case consistent => exact h.consistent.insert hstaged hfree
  case ready =>
    intro other hother
    exact ((h.drop htasks).ready other hother).later (fun _ hrow _ => hrow) (hstaged.extends hfree)
  case backed =>
    intro observation hmem
    rcases mem_append.mp hmem with hold | hnew
    · exact h.backed observation hold
    · rw [mem_singleton] at hnew
      rw [hnew, hrun]
      exact hbacked
  case kept =>
    intro original hmem
    rcases mem_append.mp hmem with hold | hnew
    · obtain ⟨observation, hkept⟩ := h.kept original hold
      exact ⟨observation, hkept.insert hstaged hfree⟩
    · rw [mem_singleton] at hnew
      rw [hnew]
      exact ⟨_, .new h.consistent hstaged hfree⟩
  case commanded =>
    intro observation hmem
    rcases mem_append.mp hmem with hold | hnew
    · obtain ⟨original, horiginal, hid⟩ := h.commanded observation hold
      exact ⟨original, mem_append_left _ horiginal, hid⟩
    · rw [mem_singleton] at hnew
      exact ⟨_, mem_append_right _ (mem_singleton.mpr rfl), by rw [hnew]⟩

theorem appends (h : Sound u hash isoformat w) {row : ObservationEvidence}
    (htasks : w.tasks = before ++ .appending row :: rest)
    (hfree : sequenceTaken w.tables row = false) :
    Sound u hash isoformat
      { w with
        tables := { w.tables with evidence := w.tables.evidence ++ [row] }
        tasks := before ++ rest
        extended := w.extended ++ [row.observationId] } := by
  obtain ⟨observation, hmem, hid, first, hfirst, hlink⟩ := h.ready_of_cut htasks
  constructor
  case acquisition => exact h.acquisition
  case consistent => exact h.consistent.appendEvidence hmem hid hfirst hlink hfree
  case backed => exact h.backed
  case commanded => exact h.commanded
  case ready =>
    intro other hother
    exact ((h.drop htasks).ready other hother).later (fun _ hrow _ => hrow) (extends_evidence row)
  case kept =>
    intro original horiginal
    obtain ⟨observation, hkept⟩ := h.kept original horiginal
    exact ⟨observation, hkept.appendEvidence row⟩

theorem links (h : Sound u hash isoformat w) {row : SnapshotReference}
    (htasks : w.tasks = before ++ .linking row :: rest) (hfree : referenceOf w.tables row = none) :
    Sound u hash isoformat
      { w with
        tables := { w.tables with snapshots := w.tables.snapshots ++ [row] }
        tasks := before ++ rest
        extended := w.extended ++ [row.observationId] } := by
  have hknown := h.ready_of_cut htasks
  constructor
  case acquisition => exact h.acquisition
  case consistent => exact h.consistent.appendSnapshot hknown hfree
  case backed => exact h.backed
  case commanded => exact h.commanded
  case ready =>
    intro other hother
    exact ((h.drop htasks).ready other hother).later (fun _ hrow _ => hrow) (extends_snapshot row)
  case kept =>
    intro original horiginal
    obtain ⟨observation, hkept⟩ := h.kept original horiginal
    exact ⟨observation, hkept.appendSnapshot row⟩

end Sound

section

variable {u : Unicode} {hash : Hashing} {isoformat : Time → String}
  {orderBy : List SnapshotReference → List SnapshotReference} {w w' : World} {event : Event}

variable {prepared : Prepared} {runId : Id}

theorem receive_ok {runs : List AcquisitionRun} {command : Command} {run : AcquisitionRun}
    (h : receive u runs runId command = .ok (run, prepared)) :
    run ∈ runs ∧ run.id = runId ∧ run.status = .succeeded ∧ prepare u command = .ok prepared := by
  obtain ⟨found, hlocked, h⟩ := Txn.bind_eq_ok.mp h
  obtain ⟨hmem, hid⟩ := SourceAcquisition.locked_id hlocked
  split at h
  · rename_i hdone
    obtain ⟨_, hprepared, hpair⟩ := Txn.map_eq_ok.mp h
    cases hpair
    exact ⟨hmem, hid, hdone, hprepared⟩
  · cases h

theorem observation_ok {tables : Tables} {observationId : Id} {observation : SourceObservation}
    (h : tables.observation observationId = .ok observation) : observation ∈ tables.observations := by
  unfold Tables.observation at h
  split at h
  · cases h
  · rename_i hget
    cases h
    exact (Table.get_some hget).1

theorem staged_now {tables : Tables} {work : Work} (hconsistent : Consistent hash tables)
    (rowId : Id) : Staged hash isoformat tables work
      (stageGraph hash isoformat tables.heads work.run work.prepared rowId work.observedAt) := by
  have hnext := (hconsistent.counted work.run.sourceId work.run.resourceScope).next
  constructor
  case shape => exact ⟨_, _, rfl⟩
  case positive =>
    show 1 ≤ nextVersion _ _ _
    omega
  case bound =>
    show nextVersion _ _ _ ≤ _
    omega
  case head =>
    simp [stageGraph]

/-- The run that a completion has made succeed. -/
theorem completed {acquisition acquisition' : SourceAcquisition.World} {completion : Completion}
    {done : AcquisitionRun} {event : SourceAcquisition.Event}
    (h : SourceAcquisition.Step u hash acquisition event acquisition')
    (hevent : event = .called (completion.call runId) (.ok done)) :
    done ∈ acquisition'.runs ∧ done.id = runId := by
  cases h with
  | call call =>
    rw [SourceAcquisition.Event.called.injEq] at hevent
    obtain ⟨rfl, hanswer⟩ := hevent
    obtain ⟨hid, hmem⟩ := SourceAcquisition.complete_ok hanswer
    exact ⟨hmem, hid⟩
  | _ => cases hevent

theorem Sound.step (h : Sound u hash isoformat w) (hstep : Step u hash isoformat orderBy w event w') :
    Sound u hash isoformat w' := by
  cases hstep with
  | run hstep _ => exact h.acquires hstep
  | refuse | replay | refuseAppend | refuseLink | relink => exact h
  | look now hreceive _ =>
    obtain ⟨hmem, -, hdone, -⟩ := receive_ok hreceive
    exact h.open_ fun _ => ⟨hmem, hdone⟩
  | lookComplete completion =>
    apply h.open_
    intro hnone
    cases hnone
  | completeExisting completion _ _ _ _ hstep => exact h.acquires hstep
  | stage rowId htasks =>
    exact h.replace htasks ⟨h.ready_of_cut htasks, staged_now h.consistent rowId⟩
  | record htasks hrecord hfree =>
    obtain ⟨hmem, hdone⟩ := (h.ready_of_cut htasks).1 hrecord
    exact h.inserts htasks hfree ⟨_, hmem, rfl, hdone⟩
  | lost htasks => exact h.drop htasks
  | complete htasks _ _ hfree hstep hdone =>
    obtain ⟨hmem, hid⟩ := completed hstep rfl
    exact (h.acquires hstep).inserts htasks hfree ⟨_, hmem, hid, hdone⟩
  | append happend =>
    obtain ⟨observation, hobservation, happend⟩ := Txn.bind_eq_ok.mp happend
    obtain ⟨item, -, happend⟩ := Txn.bind_eq_ok.mp happend
    cases happend
    have hmem := observation_ok hobservation
    exact h.open_ ⟨observation, hmem, rfl, _, prefix_refl _,
      nextEvidence_link (h.consistent.chained observation hmem)⟩
  | appended htasks hfree => exact h.appends htasks hfree
  | appendLost htasks => exact h.drop htasks
  | link hlink _ =>
    obtain ⟨observation, hobservation, hlink⟩ := Txn.bind_eq_ok.mp hlink
    obtain ⟨item, -, hlink⟩ := Txn.bind_eq_ok.mp hlink
    cases hlink
    exact h.open_ ⟨observation, observation_ok hobservation, rfl⟩
  | linked htasks hfree => exact h.links htasks hfree
  | linkLost htasks => exact h.drop htasks
  | crash htasks => exact h.drop htasks

theorem reachable_sound (h : Reachable u hash isoformat orderBy w) : Sound u hash isoformat w := by
  induction h with
  | init sources =>
    constructor
    case acquisition => exact .init sources
    case consistent =>
      exact ⟨.nil, fun _ _ => ⟨.nil, rfl⟩, by simp, by simp, by simp, .nil⟩
    all_goals
      intro a ha
      cases ha
  | step _ hstep ih => exact ih.step hstep

def recordAgain (u : Unicode) (hash : Hashing)
    (orderBy : List SnapshotReference → List SnapshotReference) (w : World) (runId : Id)
    (command : Command) : Option (Except Fault SourceObservation) :=
  match receive u w.acquisition.runs runId command with
  | .error fault => some (.error fault)
  | .ok (run, prepared) => (w.tables.observationOf run.id).map fun observation =>
    answerExisting hash orderBy w.tables observation prepared

theorem recordAgain_eq (hreceive : receive u w.acquisition.runs runId command = .ok (run, prepared))
    (hthere : w.tables.observationOf run.id = some observation) :
    recordAgain u hash orderBy w runId command =
      some (answerExisting hash orderBy w.tables observation prepared) := by
  unfold recordAgain
  rw [hreceive]
  dsimp only
  rw [hthere, Option.map_some]

/-- A command with other evidence or other snapshots than the rows there are is refused. -/
theorem answerExisting_conflict (hsorted : sortedSnapshots prepared.snapshots = .ok expected)
    (hdiffer : allSame sameEvidence (tables.evidenceOf observation.id) prepared.evidence = false ∨
      allSame sameSnapshot (orderBy (tables.snapshotsOf observation.id)) expected = false) :
    answerExisting hash orderBy tables observation prepared = .error "observation_replay_conflict" := by
  unfold answerExisting assertExactReplay
  rw [hsorted]
  rcases hdiffer with hdiffer | hdiffer
  · simp [bind, Except.bind, Except.map, hdiffer]
  · simp [bind, Except.bind, Except.map, hdiffer]

theorem observationOf_mem (hconsistent : Consistent hash tables) (hmem : observation ∈ tables.observations) :
    tables.observationOf observation.acquisitionRunId = some observation := by
  cases hfind : tables.observationOf observation.acquisitionRunId with
  | none =>
    rw [Tables.observationOf, find?_eq_none] at hfind
    exact absurd (beq_self_eq_true _) (hfind observation hmem)
  | some found =>
    have hrun := find?_some hfind
    rw [beq_iff_eq] at hrun
    rw [hconsistent.eq_of_rivals (mem_of_find?_eq_some hfind) hmem (.inr hrun)]

theorem step_completed (h : Sound u hash isoformat w)
    (hstep : Step u hash isoformat orderBy w (.completed done observation) w') :
    done ∈ w'.acquisition.runs ∧ done.status = .succeeded ∧
      observation ∈ w'.tables.observations ∧ observation.acquisitionRunId = done.id := by
  cases hstep with
  | completeExisting completion _ _ hthere _ hstep hdone =>
    obtain ⟨hmem, hid⟩ := completed hstep rfl
    have hrun := find?_some hthere
    rw [beq_iff_eq] at hrun
    exact ⟨hmem, hdone, mem_of_find?_eq_some hthere, hrun.trans hid.symm⟩
  | complete htasks _ _ _ hstep hdone =>
    obtain ⟨hmem, hid⟩ := completed hstep rfl
    obtain ⟨heads, rowId, rfl⟩ := (h.ready_of_cut htasks).2.shape
    exact ⟨hmem, hdone, mem_append_right _ (mem_singleton.mpr rfl), hid.symm⟩

/-- The Observations, their versions and their evidence are consistent in every interleaving, and the
command of an Observation is answered by it until evidence or a snapshot is added. -/
theorem observation_evidence (horder : ByCodePoint orderBy) (h : Reachable u hash isoformat orderBy w) :
    (∀ observation ∈ w.tables.observations, ∃ run ∈ w.acquisition.runs,
      run.id = observation.acquisitionRunId ∧ run.status = .succeeded) ∧
    (∀ done observation w', Step u hash isoformat orderBy w (.completed done observation) w' →
      done ∈ w'.acquisition.runs ∧ done.status = .succeeded ∧
        observation ∈ w'.tables.observations ∧ observation.acquisitionRunId = done.id) ∧
    (∀ a ∈ w.tables.observations, ∀ b ∈ w.tables.observations,
      a.acquisitionRunId = b.acquisitionRunId → a = b) ∧
    (∀ sourceId resourceScope,
      (w.tables.inScope sourceId resourceScope).map SourceObservation.observationVersion =
        range' 1 (w.tables.inScope sourceId resourceScope).length) ∧
    (∀ observation ∈ w.tables.observations,
      (w.tables.evidenceOf observation.id).map ObservationEvidence.sequenceNumber =
        range' 1 (w.tables.evidenceOf observation.id).length ∧
      EachAfter (Link hash observation) (w.tables.evidenceOf observation.id)) ∧
    (∀ observation ∈ w.tables.observations, ∃ original ∈ w.originals,
      original.observationId = observation.id ∧ (observation.id ∉ w.extended →
        ∀ command prepared, prepare u command = .ok prepared → SameCommand original.prepared prepared →
          recordAgain u hash orderBy w observation.acquisitionRunId command = some (.ok observation))) := by
  have hsound := reachable_sound h
  have hconsistent := hsound.consistent
  refine ⟨hsound.backed, fun _ _ _ hstep => step_completed hsound hstep,
    fun a ha b hb hrun => hconsistent.eq_of_rivals ha hb (.inr hrun),
    fun sourceId resourceScope => (hconsistent.counted sourceId resourceScope).versions.map_number,
    ?_, ?_⟩
  · intro observation hmem
    have hchain := hconsistent.chained observation hmem
    rw [evidenceOf_eq hchain]
    exact ⟨(hchain.imp fun _ _ hlink => hlink.number).map_number, hchain⟩
  · intro observation hmem
    obtain ⟨original, horiginal, hid⟩ := hsound.commanded observation hmem
    refine ⟨original, horiginal, hid, ?_⟩
    intro hextended command prepared hprepared hsame
    obtain ⟨kept, hkept⟩ := hsound.kept original horiginal
    have hthis : kept = observation := hconsistent.eq_of_id hkept.mem hmem (hkept.id.trans hid)
    rw [hthis] at hkept
    obtain ⟨run, hrun, hrunId, hdone⟩ := hsound.backed observation hmem
    have hlocked : lockedRun w.acquisition.runs observation.acquisitionRunId = .ok run := by
      rw [SourceAcquisition.lockedRun_ok, ← hrunId]
      exact Table.get_of_mem
        (SourceAcquisition.reachable_sound hsound.acquisition).apart.distinct hrun
    have hreceive : receive u w.acquisition.runs observation.acquisitionRunId command =
        .ok (run, prepared) := by
      unfold receive
      rw [Txn.bind_eq_ok]
      exact ⟨run, hlocked, by rw [if_pos hdone, hprepared]; rfl⟩
    rw [← hid] at hextended
    rw [recordAgain_eq hreceive (hrunId ▸ observationOf_mem hconsistent hmem),
      hkept.answers hconsistent horder hextended hsame]

end

/-- The order of a database that compares texts by their code points. -/
def codePointOrder (rows : List SnapshotReference) : List SnapshotReference :=
  rows.mergeSort fun a b => decide
    (toLex (a.snapshotKind, a.snapshotReference) ≤ toLex (b.snapshotKind, b.snapshotReference))

theorem codePointOrder_byCodePoint : ByCodePoint codePointOrder := fun rows =>
  ⟨mergeSort_perm _ _,
    pairwise_mergeSort_key (fun row => toLex (row.snapshotKind, row.snapshotReference)) rows⟩

namespace Sample

open SourceAcquisition.Sample (row)

def isoformat (_ : Time) : String := ""

noncomputable def running : AcquisitionRun :=
  { row with
    status := .running
    startedAt := some 0
    workerId := some "worker-1"
    leaseExpiresAt := some 60000000
    updatedAt := 0 }

noncomputable def succeeded (result : RunResult) : AcquisitionRun :=
  { running with
    status := .succeeded
    result := result
    terminalAt := some 1
    leaseExpiresAt := none
    updatedAt := 1 }

variable (result : RunResult)

noncomputable def acquired : SourceAcquisition.World where
  runs := [succeeded result]
  sources := fun _ => some .active
  created := [⟨"run-1", SourceAcquisition.Sample.ask, SourceAcquisition.Sample.normal⟩]
  started := [("run-1", "worker-1")]

def command : Command where
  resourceIdentity := "sheet"
  provenance := .obj []
  evidence := [{ kind := "etag", reference := "1" }]

def prepared : Prepared where
  resourceIdentity := "sheet"
  provenance := .obj []
  evidence := [{ kind := "etag", reference := "1", metadata := .obj [] }]
  snapshots := []

noncomputable def work : Work where
  run := succeeded result
  prepared := prepared
  observedAt := command.observedAt.getD ((succeeded result).terminalAt.getD 1)

noncomputable def graph : Graph :=
  stageGraph exactHashing isoformat [] (succeeded result) prepared "observation-1" 1

noncomputable def unobserved : World where
  acquisition := acquired result

noncomputable def observed : World where
  acquisition := acquired result
  tables := ({} : Tables).insert (graph result)
  originals := [⟨"observation-1", prepared⟩]

theorem unobserved_reachable {result : RunResult} (hresult : result ≠ .none) :
    Reachable .ascii exactHashing isoformat codePointOrder (unobserved result) := by
  have hlooked : Reachable .ascii exactHashing isoformat codePointOrder
      { acquisition := SourceAcquisition.Sample.looking } :=
    .step (.init fun _ => some .active) (.run SourceAcquisition.Sample.look_step id)
  have hprepared := Reachable.step hlooked (.run SourceAcquisition.Sample.prepare_step id)
  have hinserted := Reachable.step hprepared (.run SourceAcquisition.Sample.insert_step id)
  have hstarted := Reachable.step hinserted
    (.run (.call (.start "run-1" "worker-1" 60 0)) (by simp [Completes]))
  have hended := Reachable.step hstarted
    (.run (.call (.succeed "run-1" "worker-1" result 1)) (by simp [Completes]))
  cases result with
  | none => exact absurd rfl hresult
  | observed | notModified | contentUnchangedReparse => exact hended

theorem command_prepared : prepare .ascii command = .ok prepared := by
  rfl

theorem command_received :
    receive .ascii [succeeded result] "run-1" command = .ok (succeeded result, prepared) := by
  rfl

noncomputable def looking : World :=
  { unobserved result with tasks := [.looked (work result)] }

noncomputable def staging : World :=
  { unobserved result with tasks := [.staged (work result) (graph result)] }

theorem look_step : Step .ascii exactHashing isoformat codePointOrder
    (unobserved result) .silent (looking result) :=
  .look 1 (command_received result) rfl

theorem stage_step : Step .ascii exactHashing isoformat codePointOrder
    (looking result) .silent (staging result) := by
  have htasks : (looking result).tasks = [] ++ .looked (work result) :: [] := rfl
  exact .stage "observation-1" htasks

theorem record_step : Step .ascii exactHashing isoformat codePointOrder
    (staging result) (.recorded "run-1" (.ok (graph result).observation)) (observed result) := by
  have htasks : (staging result).tasks = [] ++ .staged (work result) (graph result) :: [] := rfl
  exact .record htasks rfl rfl

theorem observed_reachable {result : RunResult} (hresult : result ≠ .none) :
    Reachable .ascii exactHashing isoformat codePointOrder (observed result) := by
  have hlooked := Reachable.step (unobserved_reachable hresult) (look_step result)
  have hstaged := Reachable.step hlooked (stage_step result)
  exact .step hstaged (record_step result)

/-- The piece of evidence that is appended to what was observed. -/
noncomputable def note : ObservationEvidence :=
  nextEvidence exactHashing (observed .observed).tables (graph .observed).observation
    ⟨"note", "2", .obj []⟩ 2

noncomputable def appending : World := { observed .observed with tasks := [.appending note] }

noncomputable def appended : World :=
  { observed .observed with
    tables := { (observed .observed).tables with
      evidence := (observed .observed).tables.evidence ++ [note] }
    extended := ["observation-1"] }

theorem append_step : Step .ascii exactHashing isoformat codePointOrder (observed .observed) .silent
    appending := by
  have hprepared : prepareAppend .ascii exactHashing (observed .observed).tables "observation-1"
      ⟨"note", "2", .null⟩ 2 = .ok note := by
    rfl
  exact .append hprepared

theorem observed_chain : EachAfter (Link exactHashing (graph .observed).observation)
    ((observed .observed).tables.recorded "observation-1") :=
  (reachable_sound (observed_reachable (by decide))).consistent.chained (graph .observed).observation
    (.head _)

theorem note_number : note.sequenceNumber = 2 :=
  (nextEvidence_link observed_chain).number

theorem appended_reachable : Reachable .ascii exactHashing isoformat codePointOrder appended := by
  have hopened := Reachable.step (observed_reachable (by decide)) append_step
  have htasks : appending.tasks = [] ++ .appending note :: [] := rfl
  have hfree : sequenceTaken appending.tables note = false := by
    have hevidence : appending.tables.evidence = [newEvidence exactHashing
        (graph .observed).observation 1 ⟨"etag", "1", .obj []⟩ none 1] := rfl
    rw [sequenceTaken, hevidence, any_cons, any_nil, note_number]
    simp [newEvidence]
  exact .step hopened (.appended htasks hfree)

def reference : SnapshotReference :=
  newSnapshot "observation-1" ⟨"workbook", "1", String.ofList (List.replicate 64 '0'), .obj []⟩ 2

noncomputable def linking : World := { observed .observed with tasks := [.linking reference] }

noncomputable def linked : World :=
  { observed .observed with
    tables := { (observed .observed).tables with snapshots := [reference] }
    extended := ["observation-1"] }

theorem link_step : Step .ascii exactHashing isoformat codePointOrder (observed .observed) .silent
    linking := by
  have hprepared : prepareLink .ascii (observed .observed).tables "observation-1"
      ⟨"workbook", "1", String.ofList (replicate 64 '0'), .null⟩ 2 = .ok reference := by
    rfl
  exact .link hprepared rfl

theorem linked_reachable : Reachable .ascii exactHashing isoformat codePointOrder linked := by
  have hopened := Reachable.step (observed_reachable (by decide)) link_step
  have htasks : linking.tasks = [] ++ .linking reference :: [] := rfl
  exact .step hopened (.linked htasks rfl)

theorem nothing_sorted : sortedSnapshots prepared.snapshots = .ok [] := by
  simp [sortedSnapshots, prepared]

theorem appended_refused : recordAgain .ascii exactHashing codePointOrder appended "run-1" command =
    some (.error "observation_replay_conflict") := by
  have hchain := (reachable_sound appended_reachable).consistent.chained (graph .observed).observation
    (.head _)
  have hrecorded : (appended.tables.recorded "observation-1").length = 2 := rfl
  have hdiffer : allSame sameEvidence (appended.tables.evidenceOf "observation-1")
      prepared.evidence = false := by
    rw [Bool.eq_false_iff, ne_eq, allSame_iff]
    intro hsame
    have hlength := hsame.length_eq
    have hsorted : appended.tables.evidenceOf "observation-1" =
        appended.tables.recorded "observation-1" := evidenceOf_eq hchain
    rw [hsorted] at hlength
    exact absurd (hrecorded.symm.trans hlength) (by decide)
  have hthere : appended.tables.observationOf (succeeded .observed).id =
      some (graph .observed).observation := rfl
  rw [recordAgain_eq (command_received .observed) hthere]
  exact congrArg some (answerExisting_conflict nothing_sorted (.inl hdiffer))

theorem linked_refused : recordAgain .ascii exactHashing codePointOrder linked "run-1" command =
    some (.error "observation_replay_conflict") := by
  have hsnapshots : linked.tables.snapshotsOf "observation-1" = [reference] := rfl
  have hdiffer : allSame sameSnapshot (codePointOrder (linked.tables.snapshotsOf "observation-1"))
      [] = false := by
    simp [hsnapshots, codePointOrder, allSame]
  exact congrArg some (answerExisting_conflict nothing_sorted (.inr hdiffer))

end Sample

theorem command_answered_again : recordAgain .ascii exactHashing codePointOrder
    (Sample.observed .observed) "run-1" Sample.command = some (.ok (Sample.graph .observed).observation) := by
  obtain ⟨-, -, -, -, -, hreplay⟩ := observation_evidence codePointOrder_byCodePoint
    (Sample.observed_reachable (show RunResult.observed ≠ .none by decide))
  obtain ⟨original, horiginal, -, hagain⟩ := hreplay (Sample.graph .observed).observation (.head _)
  rw [show (Sample.observed .observed).originals = [⟨"observation-1", Sample.prepared⟩] from rfl,
    mem_singleton] at horiginal
  rw [horiginal] at hagain
  exact hagain (by simp [Sample.observed]) Sample.command Sample.prepared Sample.command_prepared
    ⟨rfl, rfl, .cons ⟨rfl, rfl, rfl⟩ .nil, [], .nil, .nil⟩

/-- A run can say `observed` without an Observation and have one without saying so, and a command is
refused once evidence or a snapshot has been added. -/
theorem observations_apart_from_results :
    (∃ w, Reachable .ascii exactHashing Sample.isoformat codePointOrder w ∧
      w.tables.observations = [] ∧ ∃ run ∈ w.acquisition.runs, run.result = .observed) ∧
    (∃ w, Reachable .ascii exactHashing Sample.isoformat codePointOrder w ∧
      ∃ observation ∈ w.tables.observations, ∃ run ∈ w.acquisition.runs,
        run.id = observation.acquisitionRunId ∧ run.result = .notModified) ∧
    (∃ w, Reachable .ascii exactHashing Sample.isoformat codePointOrder w ∧
      ⟨"observation-1", Sample.prepared⟩ ∈ w.originals ∧ w.tables.snapshots = [] ∧
      prepare .ascii Sample.command = .ok Sample.prepared ∧
      recordAgain .ascii exactHashing codePointOrder w "run-1" Sample.command =
        some (.error "observation_replay_conflict")) ∧
    (∃ w, Reachable .ascii exactHashing Sample.isoformat codePointOrder w ∧
      ⟨"observation-1", Sample.prepared⟩ ∈ w.originals ∧ w.tables.evidence.length = 1 ∧
      prepare .ascii Sample.command = .ok Sample.prepared ∧
      recordAgain .ascii exactHashing codePointOrder w "run-1" Sample.command =
        some (.error "observation_replay_conflict")) := by
  refine ⟨⟨_, Sample.unobserved_reachable (by decide), rfl, _, .head _, rfl⟩,
    ⟨_, Sample.observed_reachable (by decide), _, .head _, _, .head _, rfl, rfl⟩,
    ⟨_, Sample.appended_reachable, .head _, rfl, Sample.command_prepared, Sample.appended_refused⟩,
    ⟨_, Sample.linked_reachable, .head _, rfl, Sample.command_prepared, Sample.linked_refused⟩⟩

end FlowHub.Observations
