import FlowHub.SourceAcquisition.Moves

namespace FlowHub.SourceAcquisition

open Python List

/-- The part of what has been started that is about one row. -/
def startedAs (started : List (Id × String)) (runId : Id) : List (Id × String) :=
  started.filter fun pair => pair.1 == runId

/-- What a step makes of the rows that are there. -/
structure Moves (u : Unicode) (event : Event) (w w' : World) (begun : List (Id × String))
    (write : AcquisitionRun → AcquisitionRun) : Prop where
  runs : w'.runs = w.runs.map write
  started : w'.started = w.started ++ begun
  created : w'.created = w.created
  known : ∀ pair ∈ begun, ∃ row ∈ w.runs, row.id = pair.1
  move : ∀ row ∈ w.runs, Move u row event (startedAs begun row.id) (write row)

/-- A prepared row that has found its place. -/
structure Inserts (w w' : World) (ask : Ask) (normal : Normal) (row : AcquisitionRun) : Prop where
  prepared : .prepared ask normal row ∈ w.tasks
  free : w.runs.any (clashes row) = false
  runs : w'.runs = w.runs ++ [row]
  started : w'.started = w.started
  created : w'.created = w.created ++ [⟨row.id, ask, normal⟩]

section

variable {u : Unicode} {hash : Hashing} {w w' : World} {event : Event}

theorem moves_rest (hruns : w'.runs = w.runs) (hstarted : w'.started = w.started)
    (hcreated : w'.created = w.created) : Moves u event w w' [] id where
  runs := by rw [hruns, map_id]
  started := by rw [hstarted, append_nil]
  created := hcreated
  known := by simp
  move := fun _ _ => .rest

theorem startedAs_of_mem (h : Move u row event started row') :
    startedAs started row.id = started ∧ ∀ pair ∈ started, pair.1 = row.id := by
  cases h <;> simp [startedAs]

theorem moves_call (distinct : (w.runs.map AcquisitionRun.id).Nodup) (call : Call) :
    ∃ started write, Moves u (.called call (call.perform u w.runs).1) w
      { w with
        runs := (call.perform u w.runs).2
        started := w.started ++ newlyStarted call (call.perform u w.runs).1 } started write := by
  have hdoes : Does u w.runs call (call.perform u w.runs) := perform_does call
  rcases hdoes with ⟨hruns, hnone⟩ | ⟨row, row', hlocked, hruns, hmove⟩
  · exact ⟨[], id, moves_rest hruns (by simp [hnone]) rfl⟩
  obtain ⟨hmem, -⟩ := locked_id hlocked
  obtain ⟨hpart, hown⟩ := startedAs_of_mem hmove
  refine ⟨_, fun r => if r.id = row'.id then row' else r, hruns, rfl, rfl, ?_, ?_⟩
  · intro pair hpair
    exact ⟨row, hmem, (hown pair hpair).symm⟩
  intro r hr
  by_cases hid : r.id = row.id
  · have hsame : r = row := inj_on_of_nodup_map distinct hr hmem hid
    rw [hsame, if_pos hmove.sameRun.id.symm, hpart]
    exact hmove
  · have hother : startedAs (newlyStarted call (call.perform u w.runs).1) r.id = [] := by
      rw [startedAs, filter_eq_nil_iff]
      intro pair hpair
      simpa [hown pair hpair] using fun heq : row.id = r.id => hid heq.symm
    rw [hother, if_neg (by rw [hmove.sameRun.id]; exact hid)]
    exact .rest

theorem moves_abandon (now : Time) : Moves u event w { w with runs := (abandonExpiredRuns w.runs now).2 } []
      fun row => if expired now row then abandoned row now else row where
  runs := rfl
  started := by simp
  created := rfl
  known := by simp
  move := by
    intro row _
    by_cases hexpired : expired now row
    · rw [if_pos hexpired]
      rw [expired, Bool.and_eq_true, beq_iff_eq] at hexpired
      exact .abandon hexpired.1
    · rw [if_neg hexpired]
      exact .rest

/-- A step moves the rows that are there, or inserts one. -/
theorem step_does (distinct : (w.runs.map AcquisitionRun.id).Nodup) (h : Step u hash w event w') :
    (∃ started write, Moves u event w w' started write) ∨ ∃ ask normal row, Inserts w w' ask normal row := by
  cases h with
  | call call => exact .inl (moves_call distinct call)
  | abandon now => exact .inl ⟨_, _, moves_abandon now⟩
  | @insert _ _ ask normal row htasks hfree =>
    exact .inr ⟨ask, normal, row, by simp [htasks], hfree, rfl, rfl, rfl⟩
  | source | refuse | replay | look | conflict | prepare | resolve | crash =>
    exact .inl ⟨[], id, moves_rest rfl rfl rfl⟩

end

theorem clashes_comm (a b : AcquisitionRun) : clashes a b = clashes b a := by
  rw [Bool.eq_iff_iff]
  simp only [clashes, Bool.or_eq_true, Bool.and_eq_true, beq_iff_eq]
  grind

/-- No two rows are in the way of each other. -/
def Apart (runs : List AcquisitionRun) : Prop := runs.Pairwise fun run row => clashes row run = false

namespace Apart

variable {runs : List AcquisitionRun}

theorem eq_of_clashes (h : Apart runs) (ha : a ∈ runs) (hb : b ∈ runs)
    (hclash : clashes b a = true) : a = b := by
  by_contra hne
  have hsymm : Std.Symm fun run row : AcquisitionRun => clashes row run = false :=
    ⟨fun _ _ hab => by rw [clashes_comm]; exact hab⟩
  have := h.forall ha hb hne
  rw [hclash] at this
  exact Bool.noConfusion this

theorem distinct (h : Apart runs) : (runs.map AcquisitionRun.id).Nodup := by
  rw [Nodup, pairwise_map]
  apply h.imp
  intro a b hab hid
  simp [clashes, hid] at hab

theorem map (h : Apart w.runs) (hm : Moves u event w w' begun write) : Apart w'.runs := by
  rw [Apart, hm.runs, pairwise_map]
  apply Pairwise.imp_of_mem _ h
  intro a b ha hb hab
  have hma := hm.move a ha
  have hmb := hm.move b hb
  have hsa := hma.sameRun
  have hsb := hmb.sameRun
  by_contra hclash
  rw [Bool.not_eq_false] at hclash
  have hstill : clashes b a = true := by
    simp only [clashes, Bool.or_eq_true, Bool.and_eq_true, beq_iff_eq, hsa.id, hsb.id, hsa.sourceId,
      hsb.sourceId, hsa.resourceScope, hsb.resourceScope, hsa.idempotencyKey, hsb.idempotencyKey,
      hsa.rootRunId, hsb.rootRunId, hsa.attemptNumber, hsb.attemptNumber] at hclash ⊢
    rcases hclash with (hid | ⟨hscope, hkey | ⟨hactb, hacta⟩⟩) | hattempt
    · exact .inl (.inl hid)
    · exact .inl (.inr ⟨hscope, .inl hkey⟩)
    · exact .inl (.inr ⟨hscope, .inr ⟨hmb.active hactb, hma.active hacta⟩⟩)
    · exact .inr hattempt
  rw [hab] at hstill
  exact Bool.noConfusion hstill

theorem append (h : Apart runs) (hfree : runs.any (clashes row) = false) : Apart (runs ++ [row]) := by
  rw [Apart, pairwise_append]
  refine ⟨h, pairwise_singleton _ _, ?_⟩
  intro run hrun new hnew
  rw [mem_singleton] at hnew
  rw [hnew]
  rw [any_eq_false] at hfree
  exact Bool.eq_false_iff.mpr (hfree run hrun)

end Apart

namespace Move

variable {u : Unicode} {row row' : AcquisitionRun} {event : Event} {begun : List (Id × String)}

/-- The worker of a row is the one that it has been started for. -/
theorem worker (h : Move u row event begun row') (hqueued : row.status = .queued → row.workerId = none)
    (worker : String) :
    row'.workerId = some worker ↔ row.workerId = some worker ∨ (row.id, worker) ∈ begun := by
  cases h with
  | start hq => simp [hqueued hq, eq_comm]
  | _ => simp [ended, abandoned]

theorem queued (h : Move u row event begun row') (hq : row'.status = .queued) : row' = row := by
  cases h with
  | rest => rfl
  | renew hrunning => simp [hrunning] at hq
  | ask hrunning => simp [hrunning] at hq
  | finish _ _ _ _ _ hstatus =>
    simp only [ended] at hq
    simp [hq] at hstatus
  | _ => cases hq

theorem asked (h : Move u row event begun row') (hasked : row.cancellationRequestedAt.isSome) :
    row'.cancellationRequestedAt.isSome := by
  cases h with
  | cancel _ hsome => exact hsome
  | ask => rfl
  | _ => exact hasked

theorem succeeded (h : Move u row event begun row')
    (hrow : row.status = .succeeded → row.cancellationRequestedAt = none)
    (hdone : row'.status = .succeeded) : row'.cancellationRequestedAt = none := by
  cases h with
  | rest => exact hrow hdone
  | renew hrunning => simp [hrunning] at hdone
  | ask hrunning => simp [hrunning] at hdone
  | finish _ _ _ _ hopen => exact hopen
  | _ => cases hdone

end Move

/-- Each row names the worker that it has been started for, and a queued row none. -/
structure Owned (w : World) : Prop where
  worker : ∀ row ∈ w.runs, ∀ worker, row.workerId = some worker ↔ (row.id, worker) ∈ w.started
  queued : ∀ row ∈ w.runs, row.status = .queued → row.workerId = none
  known : ∀ pair ∈ w.started, ∃ row ∈ w.runs, row.id = pair.1

namespace Owned

variable {u : Unicode} {event : Event} {w w' : World}

theorem map {begun : List (Id × String)} {write : AcquisitionRun → AcquisitionRun} (h : Owned w)
    (hm : Moves u event w w' begun write) : Owned w' where
  worker := by
    rw [hm.runs, hm.started]
    intro row' hrow' worker
    obtain ⟨row, hrow, rfl⟩ := mem_map.mp hrow'
    have hmove := hm.move row hrow
    rw [hmove.worker (h.queued row hrow), h.worker row hrow, hmove.sameRun.id, mem_append]
    simp [startedAs]
  queued := by
    rw [hm.runs]
    intro row' hrow' hq
    obtain ⟨row, hrow, rfl⟩ := mem_map.mp hrow'
    have hsame := (hm.move row hrow).queued hq
    rw [hsame] at hq ⊢
    exact h.queued row hrow hq
  known := by
    rw [hm.runs, hm.started]
    intro pair hpair
    have hrow : ∃ row ∈ w.runs, row.id = pair.1 := by
      rcases mem_append.mp hpair with hold | hnew
      · exact h.known pair hold
      · exact hm.known pair hnew
    obtain ⟨row, hrow, hid⟩ := hrow
    exact ⟨_, mem_map_of_mem hrow, (hm.move row hrow).sameRun.id.trans hid⟩

theorem insert {ask : Ask} {normal : Normal} {row : AcquisitionRun} (h : Owned w)
    (hi : Inserts w w' ask normal row) (hnew : row.status = .queued ∧ row.workerId = none) :
    Owned w' where
  worker := by
    rw [hi.runs, hi.started]
    intro r hr worker
    rcases mem_append.mp hr with hold | hlast
    · exact h.worker r hold worker
    rw [mem_singleton] at hlast
    rw [hlast, hnew.2]
    apply iff_of_false
    · simp
    intro hstarted
    obtain ⟨run, hrun, hid⟩ := h.known _ hstarted
    have hfree := hi.free
    rw [any_eq_false] at hfree
    apply hfree run hrun
    simp [clashes, hid]
  queued := by
    rw [hi.runs]
    intro r hr hq
    rcases mem_append.mp hr with hold | hlast
    · exact h.queued r hold hq
    · rw [mem_singleton] at hlast
      rw [hlast, hnew.2]
  known := by
    rw [hi.runs, hi.started]
    intro pair hpair
    obtain ⟨r, hr, hid⟩ := h.known pair hpair
    exact ⟨r, mem_append_left _ hr, hid⟩

end Owned

/-- A row that was created for a request. -/
structure Matches (hash : Hashing) (creation : Creation) (row : AcquisitionRun) : Prop where
  id : row.id = creation.runId
  sourceId : row.sourceId = creation.normal.sourceId
  resourceScope : row.resourceScope = creation.normal.intent.resourceScope
  idempotencyKey : row.idempotencyKey = creation.normal.idempotencyKey
  requestFingerprint : row.requestFingerprint = fingerprint hash creation.normal

theorem Matches.of_sameRun {hash : Hashing} {creation : Creation} {row row' : AcquisitionRun}
    (h : Matches hash creation row) (hs : SameRun row row') : Matches hash creation row' where
  id := hs.id.trans h.id
  sourceId := hs.sourceId.trans h.sourceId
  resourceScope := hs.resourceScope.trans h.resourceScope
  idempotencyKey := hs.idempotencyKey.trans h.idempotencyKey
  requestFingerprint := hs.requestFingerprint.trans h.requestFingerprint

/-- The rows and the requests they were created for are in correspondence. -/
structure Traced (hash : Hashing) (w : World) : Prop where
  row : ∀ row ∈ w.runs, ∃ creation ∈ w.created, Matches hash creation row
  creation : ∀ creation ∈ w.created, ∃ row ∈ w.runs, Matches hash creation row

namespace Traced

variable {u : Unicode} {hash : Hashing} {event : Event} {w w' : World}

theorem map {begun : List (Id × String)} {write : AcquisitionRun → AcquisitionRun}
    (h : Traced hash w) (hm : Moves u event w w' begun write) : Traced hash w' where
  row := by
    rw [hm.runs, hm.created]
    intro row' hrow'
    obtain ⟨row, hrow, rfl⟩ := mem_map.mp hrow'
    obtain ⟨creation, hmem, hmatches⟩ := h.row row hrow
    exact ⟨creation, hmem, hmatches.of_sameRun (hm.move row hrow).sameRun⟩
  creation := by
    rw [hm.runs, hm.created]
    intro creation hmem
    obtain ⟨row, hrow, hmatches⟩ := h.creation creation hmem
    exact ⟨_, mem_map_of_mem hrow, hmatches.of_sameRun (hm.move row hrow).sameRun⟩

theorem insert {ask : Ask} {normal : Normal} {row : AcquisitionRun} (h : Traced hash w)
    (hi : Inserts w w' ask normal row) (hnew : Matches hash ⟨row.id, ask, normal⟩ row) :
    Traced hash w' where
  row := by
    rw [hi.runs, hi.created]
    intro r hr
    rcases mem_append.mp hr with hold | hlast
    · obtain ⟨creation, hmem, hmatches⟩ := h.row r hold
      exact ⟨creation, mem_append_left _ hmem, hmatches⟩
    · rw [mem_singleton] at hlast
      exact ⟨_, mem_append_right _ (mem_singleton.mpr rfl), hlast ▸ hnew⟩
  creation := by
    rw [hi.runs, hi.created]
    intro creation hc
    rcases mem_append.mp hc with hold | hlast
    · obtain ⟨r, hr, hmatches⟩ := h.creation creation hold
      exact ⟨r, mem_append_left _ hr, hmatches⟩
    · rw [mem_singleton] at hlast
      exact ⟨row, mem_append_right _ (mem_singleton.mpr rfl), hlast ▸ hnew⟩

end Traced

end FlowHub.SourceAcquisition
