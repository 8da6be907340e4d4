import FlowHub.SourceAcquisition.Requests

namespace FlowHub.SourceAcquisition

open Python

def Call.runId : Call → Id
  | .start runId _ _ _ | .heartbeat runId _ _ _ | .succeed runId _ _ _ | .complete runId _ _ _ _
  | .fail runId _ _ _ | .requestCancellation runId _ _ | .acknowledgeCancellation runId _ _ => runId

/-- The worker and the clock of a call that can make a run succeed or fail. -/
def Call.finisher : Call → Option (String × Time)
  | .succeed _ worker _ now | .complete _ worker _ _ now | .fail _ worker _ now => some (worker, now)
  | _ => none

/-- What a step makes of one row, with the workers that it has started the row for. -/
inductive Move (u : Unicode) (row : AcquisitionRun) : Event → List (Id × String) → AcquisitionRun → Prop
  | rest {event : Event} : Move u row event [] row
  | start {event : Event} {name : String} {now lease : Time} (hqueued : row.status = .queued) :
      Move u row event [(row.id, name)]
        { row with
          status := .running
          startedAt := some now
          workerId := some name
          leaseExpiresAt := some lease
          updatedAt := now }
  | renew {event : Event} {now lease : Time} (hrunning : row.status = .running) :
      Move u row event [] { row with leaseExpiresAt := some lease, updatedAt := now }
  | finish {call : Call} {answer : Except Fault AcquisitionRun} {worker name : String} {now : Time}
      {status : RunStatus} {result : RunResult} {code : Option String}
      (hid : call.runId = row.id) (hcall : call.finisher = some (worker, now))
      (hname : workerId u worker = .ok name) (hholds : Holds row name now)
      (hopen : row.cancellationRequestedAt = none) (hstatus : status = .succeeded ∨ status = .failed) :
      Move u row (.called call answer) [] { ended row status result now with failureCode := code }
  | abandon {event : Event} {now : Time} (hrunning : row.status = .running) :
      Move u row event [] (abandoned row now)
  | cancel {event : Event} {now : Time} {asked : Option Time} {requester : Option Nat}
      {code : Option String} (hactive : row.status.active = true) (hasked : asked.isSome) :
      Move u row event []
        { ended row .cancelled .none now with
          cancellationRequestedAt := asked
          cancellationRequestedByUserId := requester
          failureCode := code }
  | ask {event : Event} {now : Time} {requester : Option Nat} (hrunning : row.status = .running) :
      Move u row event []
        { row with
          cancellationRequestedAt := some now
          cancellationRequestedByUserId := requester
          updatedAt := now }

/-- What never changes of a row. -/
structure SameRun (row row' : AcquisitionRun) : Prop where
  id : row'.id = row.id
  sourceId : row'.sourceId = row.sourceId
  resourceScope : row'.resourceScope = row.resourceScope
  idempotencyKey : row'.idempotencyKey = row.idempotencyKey
  requestFingerprint : row'.requestFingerprint = row.requestFingerprint
  rootRunId : row'.rootRunId = row.rootRunId
  attemptNumber : row'.attemptNumber = row.attemptNumber

namespace Move

variable {u : Unicode} {row row' : AcquisitionRun} {event : Event} {started : List (Id × String)}

theorem sameRun (h : Move u row event started row') : SameRun row row' := by
  cases h <;> exact ⟨rfl, rfl, rfl, rfl, rfl, rfl, rfl⟩

theorem of_terminal (h : Move u row event started row') (hover : row.status.active = false) : row' = row := by
  cases h with
  | rest => rfl
  | start hqueued => simp [hqueued, RunStatus.active] at hover
  | renew hrunning => simp [hrunning, RunStatus.active] at hover
  | finish _ _ _ hholds => simp [hholds.1, RunStatus.active] at hover
  | abandon hrunning => simp [hrunning, RunStatus.active] at hover
  | cancel hactive => simp [hactive] at hover
  | ask hrunning => simp [hrunning, RunStatus.active] at hover

theorem active (h : Move u row event started row') (hactive : row'.status.active = true) :
    row.status.active = true := by
  by_contra hover
  rw [Bool.not_eq_true] at hover
  rw [h.of_terminal hover, hover] at hactive
  exact Bool.false_ne_true hactive

end Move

/-- What a call has done: nothing, or what it made of one row. -/
def Does (u : Unicode) (runs : List AcquisitionRun) (call : Call) (out : Outcome) : Prop :=
  (out.2 = runs ∧ newlyStarted call out.1 = []) ∨
    ∃ row row', lockedRun runs call.runId = .ok row ∧ out.2 = put runs row' ∧
      Move u row (.called call out.1) (newlyStarted call out.1) row'

theorem lockedRun_ok :
    lockedRun runs runId = .ok row ↔ Table.get AcquisitionRun.id runs runId = some row := by
  unfold lockedRun
  cases Table.get AcquisitionRun.id runs runId with
  | none => simp
  | some found => simp

theorem locked_id (h : lockedRun runs runId = .ok row) : row ∈ runs ∧ row.id = runId :=
  Table.get_some (lockedRun_ok.mp h)

section

variable {u : Unicode} {runs : List AcquisitionRun} {runId : Id} {worker : String} {now : Time}
  {call : Call}

variable {staged : AcquisitionRun → Except Fault Unit} {done : AcquisitionRun}
  {act : AcquisitionRun → Outcome} {seconds : Int}

/-- A call under a lease stops, gives an expired row up, or works on a row that its worker holds. -/
theorem underLease_does (hid : call.runId = runId) (hnone : ∀ answer, newlyStarted call answer = [])
    (hact : ∀ row name, lockedRun runs runId = .ok row → workerId u worker = .ok name →
      Holds row name now → Does u runs call (act row)) :
    Does u runs call (underLease u runs runId worker now act) := by
  unfold underLease
  cases hlocked : lockedRun runs runId with
  | error fault => exact .inl ⟨rfl, hnone _⟩
  | ok row =>
    dsimp only
    by_cases hrunning : row.status = .running
    · rw [if_neg (by simp [hrunning])]
      by_cases hexpired : row.leaseExpiresAt.all fun lease => decide (lease ≤ now)
      · rw [if_pos hexpired]
        refine .inr ⟨row, abandoned row now, by rw [hid, hlocked], rfl, ?_⟩
        rw [hnone]
        exact .abandon hrunning
      · rw [if_neg hexpired]
        cases hname : workerId u worker with
        | error fault => exact .inl ⟨rfl, hnone _⟩
        | ok name =>
          dsimp only
          by_cases howner : row.workerId = some name
          · rw [if_neg (by simp [howner])]
            have hlease : ∃ lease ∈ row.leaseExpiresAt, now < lease := by
              simpa [Option.all_eq_true] using hexpired
            exact hact row name hlocked hname ⟨hrunning, howner, hlease⟩
          · rw [if_pos howner]
            exact .inl ⟨rfl, hnone _⟩
    · rw [if_pos hrunning]
      exact .inl ⟨rfl, hnone _⟩

theorem startRun_does :
    Does u runs (.start runId worker seconds now) (startRun u runs runId worker now seconds) := by
  unfold startRun
  cases hseconds : leaseSeconds seconds with
  | error fault => exact .inl ⟨rfl, rfl⟩
  | ok lease =>
    cases hlocked : lockedRun runs runId with
    | error fault => exact .inl ⟨rfl, rfl⟩
    | ok row =>
      dsimp only
      by_cases hqueued : row.status = .queued
      · rw [if_neg (by simp [hqueued])]
        cases hname : workerId u worker with
        | error fault => exact .inl ⟨rfl, rfl⟩
        | ok name => exact .inr ⟨row, _, hlocked, rfl, .start hqueued⟩
      · rw [if_pos hqueued]
        exact .inl ⟨rfl, rfl⟩

theorem heartbeat_does :
    Does u runs (.heartbeat runId worker seconds now) (heartbeat u runs runId worker now seconds) := by
  apply underLease_does rfl fun _ => rfl
  intro row name hlocked _ hholds
  cases hseconds : leaseSeconds seconds with
  | error fault => exact .inl ⟨rfl, rfl⟩
  | ok lease => exact .inr ⟨row, _, hlocked, rfl, .renew hholds.1⟩

variable {result : RunResult} {status : RunStatus} {code : Option String}

theorem setTerminal_running (hrunning : row.status = .running) :
    setTerminal row status result now = .ok (ended row status result now) := by
  simp [setTerminal, hrunning, RunStatus.active]

/-- A call by which the worker of a run makes it succeed or fail. -/
theorem finish_does (hcall : call.finisher = some (worker, now))
    (hnone : ∀ answer, newlyStarted call answer = []) (hlocked : lockedRun runs call.runId = .ok row)
    (hname : workerId u worker = .ok name) (hholds : Holds row name now)
    (hopen : row.cancellationRequestedAt = none) (hstatus : status = .succeeded ∨ status = .failed) :
    Does u runs call (terminate runs now row status result code) := by
  unfold terminate
  rw [setTerminal_running hholds.1]
  refine .inr ⟨row, _, hlocked, rfl, ?_⟩
  rw [hnone]
  exact .finish (locked_id hlocked).2.symm hcall hname hholds hopen hstatus

/-- A call by which the worker of a run gives it up after a request to. -/
theorem cancel_does (hnone : ∀ answer, newlyStarted call answer = [])
    (hlocked : lockedRun runs call.runId = .ok row) (hrunning : row.status = .running)
    (hasked : row.cancellationRequestedAt.isSome) :
    Does u runs call (terminate runs now row .cancelled .none row.failureCode) := by
  unfold terminate
  rw [setTerminal_running hrunning]
  refine .inr ⟨row, _, hlocked, rfl, ?_⟩
  rw [hnone]
  exact .cancel (by simp [hrunning, RunStatus.active]) hasked

theorem terminalByWorker_does (hid : call.runId = runId) (hcall : call.finisher = some (worker, now))
    (hnone : ∀ answer, newlyStarted call answer = [])
    (hstatus : status = .succeeded ∨ status = .failed) :
    Does u runs call (terminalByWorker u runs runId worker now status result code) := by
  apply underLease_does hid hnone
  intro row name hlocked hname hholds
  cases hasked : row.cancellationRequestedAt with
  | some asked => exact .inl ⟨rfl, hnone _⟩
  | none => exact finish_does hcall hnone (hid ▸ hlocked) hname hholds hasked hstatus

theorem completeWithObservation_does : Does u runs (.complete runId worker result staged now)
      (completeWithObservation u runs runId worker now result staged) := by
  unfold completeWithObservation
  split
  · exact .inl ⟨rfl, rfl⟩
  apply underLease_does rfl fun _ => rfl
  intro row name hlocked hname hholds
  cases hasked : row.cancellationRequestedAt with
  | some asked =>
    rw [if_pos (by simp)]
    exact cancel_does (fun _ => rfl) hlocked hholds.1 (by rw [hasked]; rfl)
  | none =>
    rw [if_neg (by simp)]
    cases staged row with
    | error fault => exact .inl ⟨rfl, rfl⟩
    | ok _ => exact finish_does rfl (fun _ => rfl) hlocked hname hholds hasked (.inl rfl)

theorem requestCancellation_does : Does u runs (.requestCancellation runId requester now)
      (requestCancellation runs runId now requester) := by
  unfold requestCancellation
  cases hlocked : lockedRun runs runId with
  | error fault => exact .inl ⟨rfl, rfl⟩
  | ok row =>
    dsimp only
    cases hstatus : row.status with
    | queued =>
      exact .inr ⟨row, _, hlocked, rfl, .cancel (by rw [hstatus]; rfl) rfl⟩
    | running =>
      dsimp only
      by_cases hasked : row.cancellationRequestedAt.isSome
      · rw [if_pos hasked]
        exact .inl ⟨rfl, rfl⟩
      · rw [if_neg hasked, ← hstatus]
        exact .inr ⟨row, _, hlocked, rfl, .ask hstatus⟩
    | succeeded => exact .inl ⟨rfl, rfl⟩
    | failed => exact .inl ⟨rfl, rfl⟩
    | cancelled => exact .inl ⟨rfl, rfl⟩
    | abandoned => exact .inl ⟨rfl, rfl⟩

theorem acknowledgeCancellation_does : Does u runs (.acknowledgeCancellation runId worker now)
      (acknowledgeCancellation u runs runId worker now) := by
  apply underLease_does rfl fun _ => rfl
  intro row name hlocked _ hholds
  cases hasked : row.cancellationRequestedAt with
  | none => exact .inl ⟨rfl, rfl⟩
  | some asked =>
    rw [if_neg (by simp)]
    exact cancel_does (fun _ => rfl) hlocked hholds.1 (by rw [hasked]; rfl)

theorem perform_does (call : Call) : Does u runs call (call.perform u runs) := by
  cases call with
  | start => exact startRun_does
  | heartbeat => exact heartbeat_does
  | succeed runId worker result now =>
    simp only [Call.perform, succeedRun]
    split
    · exact .inl ⟨rfl, rfl⟩
    · exact terminalByWorker_does rfl rfl (fun _ => rfl) (.inl rfl)
  | complete => exact completeWithObservation_does
  | fail runId worker code now =>
    simp only [Call.perform, failRun]
    cases failureCode u code with
    | error fault => exact .inl ⟨rfl, rfl⟩
    | ok code => exact terminalByWorker_does rfl rfl (fun _ => rfl) (.inr rfl)
  | requestCancellation => exact requestCancellation_does
  | acknowledgeCancellation => exact acknowledgeCancellation_does

theorem underLease_ok (h : (underLease u runs runId worker now act).1 = .ok done) :
    ∃ row, lockedRun runs runId = .ok row ∧ underLease u runs runId worker now act = act row := by
  unfold underLease at h ⊢
  cases hlocked : lockedRun runs runId with
  | error fault =>
    rw [hlocked] at h
    cases h
  | ok row =>
    rw [hlocked] at h
    dsimp only at h ⊢
    refine ⟨row, rfl, ?_⟩
    split at h
    · cases h
    split at h
    · cases h
    split at h
    · cases h
    split at h
    · cases h
    simp_all

theorem terminate_ok (h : (terminate runs now row status result code).1 = .ok done) :
    done.id = row.id ∧ (terminate runs now row status result code).2 = put runs done := by
  unfold terminate setTerminal at h ⊢
  by_cases hactive : row.status.active = true
  · rw [if_pos hactive] at h ⊢
    cases h
    exact ⟨rfl, rfl⟩
  · rw [if_neg hactive] at h
    cases h

theorem mem_put (hrow : row ∈ runs) (hid : done.id = row.id) : done ∈ put runs done :=
  Table.mem_set.mpr (.inl ⟨row, hrow, hid.symm, rfl⟩)

/-- A run that `complete_with_observation` answers is there afterwards. -/
theorem complete_ok (h : (completeWithObservation u runs runId worker now result staged).1 = .ok done) :
    done.id = runId ∧ done ∈ (completeWithObservation u runs runId worker now result staged).2 := by
  unfold completeWithObservation at h ⊢
  by_cases hresult : result ≠ .observed ∧ result ≠ .contentUnchangedReparse
  · rw [if_pos hresult] at h
    cases h
  rw [if_neg hresult] at h ⊢
  obtain ⟨row, hlocked, hact⟩ := underLease_ok h
  rw [hact] at h ⊢
  obtain ⟨hrow, hid⟩ := locked_id hlocked
  have hterminated : ∀ status result code, (terminate runs now row status result code).1 = .ok done →
      done.id = runId ∧ done ∈ (terminate runs now row status result code).2 := by
    intro status result code hok
    obtain ⟨hsame, hput⟩ := terminate_ok hok
    rw [hput]
    exact ⟨hsame.trans hid, mem_put hrow hsame⟩
  by_cases hasked : row.cancellationRequestedAt.isSome
  · rw [if_pos hasked] at h ⊢
    exact hterminated _ _ _ h
  rw [if_neg hasked] at h ⊢
  cases hstaged : staged row with
  | error fault =>
    rw [hstaged] at h
    cases h
  | ok _ =>
    rw [hstaged] at h
    exact hterminated _ _ _ h

end

end FlowHub.SourceAcquisition
