import FlowHub.DataLayer.JobLifecycle

namespace FlowHub.DataLayer

open List

open Webhooks (seconds)

variable {w : World} {a : Action} {k j : Nat} {job : DlRefreshJob} {log events : List Event}

def closed (status : ReadEngine.JobStatus) : Bool :=
  decide (status = .cancelled) || decide (status = .completed)

/-- A worker executes a job whose lease has not expired. -/
structure World.Holds (w : World) (worker : Nat) (job : DlRefreshJob) : Prop where
  executes : w.executes worker job.id
  row : w.job job.id = some job
  leased : job.leased w.clock = true

/-- A worker has started a job since it was last recovered. -/
def Regained (log : List Event) (worker jobId : Nat) : Prop :=
  ∀ earlier later, log = earlier ++ .recovered jobId :: later → ∃ found, .started worker jobId found ∈ later

/-- Only a worker that has started a job since its last recovery finishes it. -/
def Rightful (log : List Event) : Prop :=
  ∀ earlier later worker jobId, log = earlier ++ .finished worker jobId :: later →
    Regained earlier worker jobId

/-- A cancelled or completed job is not started. -/
structure Final (log : List Event) : Prop where
  found : ∀ worker jobId status, .started worker jobId status ∈ log → closed status = false
  order : log.Pairwise fun e later => ∀ jobId, e.closes = some jobId → later.starts ≠ some jobId

structure Exclusive (w : World) : Prop where
  one : ∀ worker worker' job job', w.Holds worker job → w.Holds worker' job' →
    job.channel = job'.channel → worker = worker'
  rightful : Rightful w.log
  final : Final w.log

/-- Nobody executes the job, and it is neither cancelled nor completed. -/
structure World.Free (w : World) (jobId : Nat) : Prop where
  live : ∀ job, w.job jobId = some job → closed job.status = false
  alone : ∀ worker, ¬ w.executes worker jobId

/-- A job is superseded or started while it is free, a lease is renewed on a running job while no
other worker holds the channel, and a job is finished while it is running. -/
def Undisturbed (w : World) : Action → Prop
  | .supersede worker => ∀ call jobId, w.phases worker = .superseding call jobId → w.Free jobId
  | .start worker _ =>
    ∀ call jobId startedAt, w.phases worker = .chosen call jobId startedAt → w.Free jobId
  | .heartbeat worker _ => ∀ job, w.executes worker job.id → w.job job.id = some job → job.status = .running ∧
      ∀ worker' job', w.Holds worker' job' → job'.channel = job.channel → worker' = worker
  | .finish worker => ∀ job, w.executes worker job.id → w.job job.id = some job → job.status = .running
  | _ => True

theorem split_append (h : log ++ events = earlier ++ e :: later) :
    (∃ before, events = before ++ e :: later ∧ earlier = log ++ before) ∨
      ∃ after, log = earlier ++ e :: after ∧ later = after ++ events := by
  rcases append_eq_append_iff.mp h with ⟨before, hearlier, hevents⟩ | ⟨after, hlog, hlater⟩
  · exact .inl ⟨before, hevents, hearlier⟩
  cases after with
  | nil => exact .inl ⟨[], by simpa using hlater.symm, by simpa using hlog.symm⟩
  | cons e' after =>
    rw [cons_append, cons.injEq] at hlater
    exact .inr ⟨after, by rw [hlog, hlater.1], hlater.2⟩

theorem Regained.append (h : Regained log k j) (hne : .recovered j ∉ events) :
    Regained (log ++ events) k j := by
  intro earlier later heq
  cases split_append heq with
  | inl hsplit =>
    obtain ⟨before, hevents, -⟩ := hsplit
    exact absurd (by simp [hevents]) hne
  | inr hsplit =>
    obtain ⟨after, hlog, hlater⟩ := hsplit
    obtain ⟨found, hmem⟩ := h earlier after hlog
    exact ⟨found, by simp [hlater, hmem]⟩

variable {found : ReadEngine.JobStatus}

theorem regained_started : Regained (log ++ [.started k j found]) k j := by
  intro earlier later heq
  cases split_append heq with
  | inl hsplit =>
    obtain ⟨before, hevents, -⟩ := hsplit
    have hmem : Event.recovered j ∈ [Event.started k j found] := by simp [hevents]
    simp at hmem
  | inr hsplit =>
    obtain ⟨after, -, hlater⟩ := hsplit
    exact ⟨found, by simp [hlater]⟩

/-- An appended piece is rightful if each finish in it is. -/
theorem Rightful.append (h : Rightful log)
    (hnew : ∀ before later k j, events = before ++ .finished k j :: later →
      Regained (log ++ before) k j) : Rightful (log ++ events) := by
  intro earlier later k j heq
  cases split_append heq with
  | inl hsplit =>
    obtain ⟨before, hevents, hearlier⟩ := hsplit
    rw [hearlier]
    exact hnew before later k j hevents
  | inr hsplit =>
    obtain ⟨after, hlog, -⟩ := hsplit
    exact h earlier after k j hlog

theorem Rightful.other (h : Rightful log) (hnew : ∀ k j, .finished k j ∉ events) :
    Rightful (log ++ events) := by
  apply h.append
  intro before later k j hevents
  exact absurd (by simp [hevents]) (hnew k j)

/-- Without a start an appended piece changes nothing. -/
theorem Final.append (h : Final log) (hnew : ∀ e ∈ events, e.starts = none) : Final (log ++ events) := by
  have hstarts : ∀ e ∈ events, ∀ j, e.starts ≠ some j := by
    intro e he j heq
    rw [hnew e he] at heq
    cases heq
  constructor
  · intro worker jobId status hmem
    cases mem_append.mp hmem with
    | inl hlog => exact h.found worker jobId status hlog
    | inr hevents => exact absurd rfl (hstarts _ hevents jobId)
  · rw [pairwise_append]
    exact ⟨h.order, pairwise_of_forall_mem_list fun e _ e' he' j _ => hstarts e' he' j,
      fun e _ e' he' j _ => hstarts e' he' j⟩

theorem Final.start (h : Final log) (hfound : closed found = false)
    (hopen : ∀ e ∈ log, e.closes ≠ some j) : Final (log ++ [.started k j found]) := by
  constructor
  · intro worker jobId status hmem
    cases mem_append.mp hmem with
    | inl hlog => exact h.found worker jobId status hlog
    | inr hlast =>
      simp only [mem_singleton, Event.started.injEq] at hlast
      rw [hlast.2.2]
      exact hfound
  · rw [pairwise_append]
    refine ⟨h.order, pairwise_singleton _ _, ?_⟩
    intro e he e' he' jobId hcloses hstarts
    rw [mem_singleton] at he'
    simp only [he', Event.starts, Option.some.injEq] at hstarts
    exact hopen e he (hstarts ▸ hcloses)

/-- Different workers execute different jobs, and what one executes runs or has been recovered. -/
structure Sound (w : World) : Prop where
  unique : (w.jobs.map DlRefreshJob.id).Nodup
  apart : ∀ k k' j, w.executes k j → w.executes k' j → k = k'
  rows : ∀ k j, w.executes k j → ∃ job, w.job j = some job ∧
    (job.status = .running ∨ job.status = .failed ∧ job.leaseExpiresAt = none)
  terminal : ∀ e ∈ w.log, ∀ j, e.closes = some j → ∃ job, w.job j = some job ∧ closed job.status = true
  regained : ∀ k j job, w.executes k j → w.job j = some job → job.status = .running → Regained w.log k j
  exclusive : Exclusive w

theorem job_id (h : w.job j = some job) : job.id = j := (Table.get_some h).2

theorem leased_none (h : job.leaseExpiresAt = none) : job.leased now = false := by
  simp [DlRefreshJob.leased, h]

/-- What a worker holds runs. -/
theorem Sound.running (h : Sound w) (hold : w.Holds k job) : job.status = .running := by
  obtain ⟨row, hrow, hstatus⟩ := h.rows k job.id hold.executes
  rw [hold.row, Option.some.injEq] at hrow
  subst hrow
  cases hstatus with
  | inl hrun => exact hrun
  | inr hfailed =>
    have hleased := hold.leased
    rw [leased_none hfailed.2] at hleased
    cases hleased

/-- An update of a row and of the worker that makes it, and what it adds to the log. -/
def World.touch (w : World) (j : Nat) (f : DlRefreshJob → DlRefreshJob) (k : Nat) (phase : Phase)
    (events : List Event) : World :=
  ((w.setJob j f).enter k phase).record events

section

variable {f : DlRefreshJob → DlRefreshJob} {phase : Phase}

variable {job' : DlRefreshJob} {i k' : Nat}

theorem touch_executes : (w.touch j f k phase events).executes k' i ↔
    if k' = k then phase.job = some i else w.executes k' i := by
  by_cases hk : k' = k
  · subst hk
    simp [World.executes, World.touch, World.enter, World.setJob, World.record]
  · simp [World.executes, World.touch, World.enter, World.setJob, World.record, hk]

theorem touch_job (hid : ∀ job, (f job).id = job.id) :
    (w.touch j f k phase events).job i = if i = j then (w.job j).map f else w.job i :=
  Table.get_set hid

theorem touch_ids (hid : ∀ job, (f job).id = job.id) :
    (w.touch j f k phase events).jobs.map DlRefreshJob.id = w.jobs.map DlRefreshJob.id := by
  have hrow : ∀ r ∈ w.jobs, DlRefreshJob.id (if r.id = j then f r else r) = r.id := by
    intro r _
    by_cases hr : r.id = j
    · rw [if_pos hr, hid]
    · rw [if_neg hr]
  simp only [World.touch, World.record, World.enter, World.setJob, Table.set, map_map]
  exact map_congr_left hrow

/-- What an update of a row has to respect. -/
structure Touch (w : World) (j : Nat) (job : DlRefreshJob) (f : DlRefreshJob → DlRefreshJob)
    (k : Nat) (phase : Phase) : Prop where
  row : w.job j = some job
  keeps : ∀ r, (f r).id = r.id ∧ (f r).channel = r.channel
  before : ∀ i, w.executes k i → i = j
  after : ∀ i, phase.job = some i → i = j
  alone : ∀ k', w.executes k' j → k' = k
  rows : phase.job = some j →
    (f job).status = .running ∨ (f job).status = .failed ∧ (f job).leaseExpiresAt = none
  leased : phase.job = some j → (f job).leased w.clock = true →
    ∀ k' job', w.Holds k' job' → job'.channel = job.channel → k' = k
  closed : closed job.status = true → closed (f job).status = true

/-- What an addition to the log has to respect where a row becomes `job`. -/
structure Logged (w : World) (j : Nat) (job : DlRefreshJob) (k : Nat) (phase : Phase)
    (events : List Event) : Prop where
  closes : ∀ e ∈ events, ∀ i, e.closes = some i → i = j ∧ closed job.status = true
  regained : phase.job = some j → job.status = .running → Regained (w.log ++ events) k j
  recovers : ∀ i, .recovered i ∉ events
  rightful : Rightful (w.log ++ events)
  final : Final (w.log ++ events)

theorem Touch.apart (t : Touch w j job f k phase) (h : Sound w)
    (h₁ : (w.touch j f k phase events).executes k₁ i)
    (h₂ : (w.touch j f k phase events).executes k₂ i) : k₁ = k₂ := by
  rw [touch_executes] at h₁ h₂
  by_cases hk₁ : k₁ = k
  · by_cases hk₂ : k₂ = k
    · rw [hk₁, hk₂]
    · rw [if_pos hk₁] at h₁
      rw [if_neg hk₂, t.after i h₁] at h₂
      exact absurd (t.alone k₂ h₂) hk₂
  · by_cases hk₂ : k₂ = k
    · rw [if_pos hk₂] at h₂
      rw [if_neg hk₁, t.after i h₂] at h₁
      exact absurd (t.alone k₁ h₁) hk₁
    · rw [if_neg hk₁] at h₁
      rw [if_neg hk₂] at h₂
      exact h.apart k₁ k₂ i h₁ h₂

/-- Another worker executes another job, whose row is the one before. -/
theorem Touch.other (t : Touch w j job f k phase) (hk : k' ≠ k)
    (hex : (w.touch j f k phase events).executes k' i) :
    w.executes k' i ∧ (w.touch j f k phase events).job i = w.job i := by
  rw [touch_executes, if_neg hk] at hex
  have hi : i ≠ j := fun hi => hk (t.alone k' (hi ▸ hex))
  rw [touch_job fun r => (t.keeps r).1, if_neg hi]
  exact ⟨hex, rfl⟩

theorem Touch.own (t : Touch w j job f k phase) (hex : (w.touch j f k phase events).executes k i) :
    phase.job = some j ∧ i = j ∧ (w.touch j f k phase events).job j = some (f job) := by
  rw [touch_executes, if_pos rfl] at hex
  have hi := t.after i hex
  subst hi
  rw [touch_job fun r => (t.keeps r).1, if_pos rfl, t.row]
  exact ⟨hex, rfl, rfl⟩

theorem Touch.holds_other (t : Touch w j job f k phase)
    (hk : k' ≠ k) (hold : (w.touch j f k phase events).Holds k' job') : w.Holds k' job' := by
  obtain ⟨hex, hrow⟩ := t.other hk hold.executes
  exact ⟨hex, hrow ▸ hold.row, hold.leased⟩

theorem Touch.one (t : Touch w j job f k phase) (hold : (w.touch j f k phase events).Holds k mine)
    (hold' : (w.touch j f k phase events).Holds k' job') (hc : mine.channel = job'.channel) :
    k = k' := by
  by_cases hk : k' = k
  · exact hk.symm
  obtain ⟨hphase, hid, hrow⟩ := t.own hold.executes
  have hmine : f job = mine := by
    have := hold.row
    rw [hid, hrow] at this
    exact Option.some.inj this
  rw [← hmine, (t.keeps job).2] at hc
  exact (t.leased hphase (hmine ▸ hold.leased) k' job' (t.holds_other hk hold') hc.symm).symm

theorem Sound.touch (h : Sound w) (t : Touch w j job f k phase)
    (l : Logged w j (f job) k phase events) : Sound (w.touch j f k phase events) := by
  have hid : ∀ r, (f r).id = r.id := fun r => (t.keeps r).1
  constructor
  case unique =>
    rw [touch_ids hid]
    exact h.unique
  case apart =>
    intro k₁ k₂ i h₁ h₂
    exact t.apart h h₁ h₂
  case rows =>
    intro k' i hex
    by_cases hk : k' = k
    · subst hk
      obtain ⟨hphase, hi, hrow⟩ := t.own hex
      exact ⟨f job, hi ▸ hrow, t.rows hphase⟩
    · obtain ⟨hold, hrow⟩ := t.other hk hex
      rw [hrow]
      exact h.rows k' i hold
  case terminal =>
    intro e he i hcloses
    rw [touch_job hid]
    cases mem_append.mp he with
    | inl hlog =>
      obtain ⟨row, hrow, hclosed⟩ := h.terminal e hlog i hcloses
      by_cases hi : i = j
      · subst hi
        rw [t.row, Option.some.injEq] at hrow
        subst hrow
        exact ⟨f job, by rw [if_pos rfl, t.row]; rfl, t.closed hclosed⟩
      · rw [if_neg hi]
        exact ⟨row, hrow, hclosed⟩
    | inr hevents =>
      obtain ⟨hi, hclosed⟩ := l.closes e hevents i hcloses
      exact ⟨f job, by rw [if_pos hi, t.row]; rfl, hclosed⟩
  case regained =>
    intro k' i row hex hrow hstatus
    by_cases hk : k' = k
    · subst hk
      obtain ⟨hphase, hi, hown⟩ := t.own hex
      subst hi
      rw [hown, Option.some.injEq] at hrow
      exact l.regained hphase (hrow ▸ hstatus)
    · obtain ⟨hold, hsame⟩ := t.other hk hex
      exact (h.regained k' i row hold (hsame ▸ hrow) hstatus).append (l.recovers i)
  case exclusive =>
    constructor
    · intro k₁ k₂ job₁ job₂ h₁ h₂ hc
      by_cases hk₁ : k₁ = k
      · subst hk₁
        exact t.one h₁ h₂ hc
      · by_cases hk₂ : k₂ = k
        · subst hk₂
          exact (t.one h₂ h₁ hc.symm).symm
        · exact h.exclusive.one k₁ k₂ job₁ job₂ (t.holds_other hk₁ h₁) (t.holds_other hk₂ h₂) hc
    · exact l.rightful
    · exact l.final

/-- An update that nothing is logged of. -/
theorem Sound.quiet (h : Sound w) (t : Touch w j job f k phase)
    (regained : phase.job = some j → (f job).status = .running → Regained w.log k j) :
    Sound ((w.setJob j f).enter k phase) := by
  have hlog : w.log ++ [] = w.log := append_nil _
  have l : Logged w j (f job) k phase [] := {
    closes := by simp
    regained := by rwa [hlog]
    recovers := by simp
    rightful := by rw [hlog]; exact h.exclusive.rightful
    final := by rw [hlog]; exact h.exclusive.final }
  simpa [World.touch, World.record] using h.touch t l

end

/-- Time passes, or a worker no longer executes. -/
theorem Sound.fewer (h : Sound w) (hjobs : w'.jobs = w.jobs) (hlog : w'.log = w.log)
    (hclock : w.clock ≤ w'.clock) (hex : ∀ k j, w'.executes k j → w.executes k j) : Sound w' := by
  have hjob : ∀ i, w'.job i = w.job i := by
    intro i
    rw [World.job, hjobs]
    rfl
  have hholds : ∀ k job, w'.Holds k job → w.Holds k job := by
    intro k job hold
    have hleased := hold.leased
    simp only [DlRefreshJob.leased, Option.any_eq_true, decide_eq_true_eq] at hleased
    obtain ⟨t, ht, hlt⟩ := hleased
    refine ⟨hex k job.id hold.executes, hjob job.id ▸ hold.row, ?_⟩
    simp only [DlRefreshJob.leased, Option.any_eq_true, decide_eq_true_eq]
    exact ⟨t, ht, Nat.lt_of_le_of_lt hclock hlt⟩
  constructor
  case unique => exact hjobs ▸ h.unique
  case apart =>
    intro k k' j h₁ h₂
    exact h.apart k k' j (hex k j h₁) (hex k' j h₂)
  case rows =>
    intro k j he
    rw [hjob]
    exact h.rows k j (hex k j he)
  case terminal =>
    intro e he j hcloses
    rw [hjob]
    exact h.terminal e (hlog ▸ he) j hcloses
  case regained =>
    intro k j job he hrow hstatus
    rw [hlog]
    exact h.regained k j job (hex k j he) (hjob j ▸ hrow) hstatus
  case exclusive =>
    constructor
    · intro k k' job job' h₁ h₂ hc
      exact h.exclusive.one k k' job job' (hholds k job h₁) (hholds k' job' h₂) hc
    · exact hlog ▸ h.exclusive.rightful
    · exact hlog ▸ h.exclusive.final

theorem enter_executes : (w.enter k phase).executes k' i ↔
    if k' = k then phase.job = some i else w.executes k' i := by
  by_cases hk : k' = k
  · subst hk
    simp [World.executes, World.enter]
  · simp [World.executes, World.enter, hk]

theorem Sound.leave (h : Sound w) (hphase : phase.job = none) : Sound (w.enter k phase) := by
  have hex : ∀ k' i, (w.enter k phase).executes k' i → w.executes k' i := by
    intro k' i hex
    rw [enter_executes, hphase] at hex
    by_cases hk : k' = k
    · rw [if_pos hk] at hex
      cases hex
    · rwa [if_neg hk] at hex
  exact h.fewer rfl rfl (Nat.le_refl _) hex

theorem Sound.append (h : Sound w) (hnew : job.id = w.nextJob) :
    Sound { w with jobs := w.jobs ++ [job] } := by
  have hjob : ∀ i row, w.job i = some row →
      ({ w with jobs := w.jobs ++ [job] } : World).job i = some row := by
    intro i row hrow
    exact Table.get_append_of_some hrow
  have hrow : ∀ k i row, w.executes k i →
      ({ w with jobs := w.jobs ++ [job] } : World).job i = some row → w.job i = some row := by
    intro k i row hex hget
    obtain ⟨old, hold, -⟩ := h.rows k i hex
    rw [hjob i old hold] at hget
    rwa [← hget]
  constructor
  case unique =>
    rw [map_append, nodup_append]
    refine ⟨h.unique, by simp, ?_⟩
    intro i hi i' hi' heq
    rw [map_singleton, mem_singleton, hnew] at hi'
    rw [heq, hi'] at hi
    exact Table.next_notMem _ hi
  case apart => exact h.apart
  case rows =>
    intro k i hex
    obtain ⟨row, hget, hstatus⟩ := h.rows k i hex
    exact ⟨row, hjob i row hget, hstatus⟩
  case terminal =>
    intro e he i hcloses
    obtain ⟨row, hget, hclosed⟩ := h.terminal e he i hcloses
    exact ⟨row, hjob i row hget, hclosed⟩
  case regained =>
    intro k i row hex hget hstatus
    exact h.regained k i row hex (hrow k i row hex hget) hstatus
  case exclusive =>
    constructor
    · intro k k' row row' h₁ h₂ hc
      exact h.exclusive.one k k' row row' ⟨h₁.executes, hrow k row.id row h₁.executes h₁.row, h₁.leased⟩
        ⟨h₂.executes, hrow k' row'.id row' h₂.executes h₂.row, h₂.leased⟩ hc
    · exact h.exclusive.rightful
    · exact h.exclusive.final

/-- What is recovered runs. -/
theorem recoverable_running (h : job ∈ w.recoverable now limit) : job ∈ w.jobs ∧ job.status = .running := by
  have hmem := mem_of_mem_take (mem_of_mem_filter h)
  rw [(perm_insertionSort _ _).mem_iff, mem_filter, decide_eq_true_eq] at hmem
  exact hmem

/-- The row of a job after the recovery of some. -/
def recoveredRow (ids : List Nat) (job : DlRefreshJob) : DlRefreshJob :=
  if job.id ∈ ids then { job with status := .failed, leaseExpiresAt := none } else job

theorem recoveredRow_id (ids : List Nat) (job : DlRefreshJob) : (recoveredRow ids job).id = job.id := by
  by_cases hmem : job.id ∈ ids
  · simp [recoveredRow, hmem]
  · simp [recoveredRow, hmem]

/-- The jobs that a recovery touches run. -/
theorem Sound.recover_running (h : Sound w)
    (hj : j ∈ (w.recoverable now limit).map DlRefreshJob.id) (hrow : w.job j = some job) :
    job.status = .running := by
  rw [mem_map] at hj
  obtain ⟨found, hmem, rfl⟩ := hj
  obtain ⟨hjobs, hstatus⟩ := recoverable_running hmem
  rw [World.job, Table.get_of_mem h.unique hjobs, Option.some.injEq] at hrow
  exact hrow ▸ hstatus

theorem Sound.recovered (h : Sound w) (hids : ∀ j ∈ ids, ∀ job, w.job j = some job → job.status = .running) :
    Sound { w with jobs := w.jobs.map (recoveredRow ids), log := w.log ++ ids.map .recovered } := by
  generalize hw : ({ w with
    jobs := w.jobs.map (recoveredRow ids), log := w.log ++ ids.map .recovered } : World) = w'
  have hjob : ∀ i, w'.job i = (w.job i).map (recoveredRow ids) := by
    intro i
    rw [← hw]
    exact Table.get_map (recoveredRow_id ids)
  have hex : ∀ k i, w'.executes k i ↔ w.executes k i := by
    intro k i
    rw [← hw]
    rfl
  have hlog : w'.log = w.log ++ ids.map .recovered := by rw [← hw]
  have hkept : ∀ {i row}, w'.job i = some row → row.status ≠ .failed → w.job i = some row ∧ i ∉ ids := by
    intro i row hrow hstatus
    rw [hjob, Option.map_eq_some_iff] at hrow
    obtain ⟨old, hold, hrow⟩ := hrow
    by_cases hi : i ∈ ids
    · rw [recoveredRow, if_pos (job_id hold ▸ hi)] at hrow
      exact absurd (hrow ▸ rfl) hstatus
    · rw [recoveredRow, if_neg (job_id hold ▸ hi)] at hrow
      exact ⟨hrow ▸ hold, hi⟩
  have hrows : ∀ k i, w'.executes k i → ∃ job, w'.job i = some job ∧
      (job.status = .running ∨ job.status = .failed ∧ job.leaseExpiresAt = none) := by
    intro k i he
    obtain ⟨row, hrow, hstatus⟩ := h.rows k i ((hex k i).mp he)
    refine ⟨recoveredRow ids row, by rw [hjob, hrow]; rfl, ?_⟩
    by_cases hi : row.id ∈ ids
    · simp [recoveredRow, hi]
    · simpa [recoveredRow, hi] using hstatus
  have hholds : ∀ k job, w'.Holds k job → w.Holds k job := by
    intro k job hold
    obtain ⟨row, hrow, hstatus⟩ := hrows k job.id hold.executes
    rw [hold.row, Option.some.injEq] at hrow
    subst hrow
    cases hstatus with
    | inl hrun =>
      have hold' := (hkept hold.row (by simp [hrun])).1
      exact ⟨(hex k job.id).mp hold.executes, hold', by simpa [← hw] using hold.leased⟩
    | inr hfailed =>
      have hleased := hold.leased
      rw [leased_none hfailed.2] at hleased
      cases hleased
  constructor
  case unique =>
    have hmap : w'.jobs.map DlRefreshJob.id = w.jobs.map DlRefreshJob.id := by
      rw [← hw]
      simp [recoveredRow_id]
    rw [hmap]
    exact h.unique
  case apart =>
    intro k k' i h₁ h₂
    exact h.apart k k' i ((hex k i).mp h₁) ((hex k' i).mp h₂)
  case rows => exact hrows
  case terminal =>
    intro e he i hcloses
    rw [hlog] at he
    cases mem_append.mp he with
    | inl hold =>
      obtain ⟨row, hrow, hclosed⟩ := h.terminal e hold i hcloses
      have hi : row.id ∉ ids := by
        intro hi
        have hrun := hids i (job_id hrow ▸ hi) row hrow
        simp [closed, hrun] at hclosed
      refine ⟨row, ?_, hclosed⟩
      rw [hjob, hrow, Option.map_some, recoveredRow, if_neg hi]
    | inr hnew =>
      obtain ⟨i', -, rfl⟩ := mem_map.mp hnew
      cases hcloses
  case regained =>
    intro k i row he hrow hstatus
    obtain ⟨hold, hi⟩ := hkept hrow (by simp [hstatus])
    rw [hlog]
    exact (h.regained k i row ((hex k i).mp he) hold hstatus).append (by simpa using hi)
  case exclusive =>
    constructor
    · intro k k' job job' h₁ h₂ hc
      exact h.exclusive.one k k' job job' (hholds k job h₁) (hholds k' job' h₂) hc
    · rw [hlog]
      exact h.exclusive.rightful.other (by simp)
    · rw [hlog]
      apply h.exclusive.final.append
      intro e he
      obtain ⟨i, -, rfl⟩ := mem_map.mp he
      rfl

theorem not_executes (hphase : w.phases k = phase) (hnone : phase.job = none)
    (i : Nat) : ¬ w.executes k i := by
  intro hex
  rw [World.executes, hphase, hnone] at hex
  cases hex

theorem Sound.supersede (h : Sound w) (free : Undisturbed w (.supersede k)) : Sound (w.supersede k) := by
  cases hphase : w.phases k with
  | superseding call j =>
    cases hrow : w.job j with
    | none =>
      simp only [World.supersede, hphase, hrow]
      exact h.leave rfl
    | some job =>
      simp only [World.supersede, hphase, hrow]
      have hfree := free call j hphase
      exact h.quiet {
        row := hrow
        keeps := fun _ => ⟨rfl, rfl⟩
        before := fun i hex => absurd hex (not_executes hphase rfl i)
        after := fun i hi => by cases hi
        alone := fun k' hex => absurd hex (hfree.alone k')
        rows := fun hi => by cases hi
        leased := fun hi => by cases hi
        closed := fun hc => by rw [hfree.live job hrow] at hc; cases hc } nofun
  | _ => simpa only [World.supersede, hphase] using h

theorem Sound.look (h : Sound w) (call : Call) (existing : Option Nat) : Sound (w.look k call existing) := by
  unfold World.look
  by_cases hidle : w.phases k = .idle ∧ w.isNewest call.connectorId existing
  · rw [if_pos hidle]
    cases existing.bind w.job with
    | none => exact h.leave rfl
    | some job =>
      by_cases hforce : call.forceFull = true
      · simp only [hforce, if_true]
        exact h.leave rfl
      · by_cases hresume : job.resumable = true
        · simp only [hforce, hresume, if_true, Bool.false_eq_true, if_false]
          exact h.leave rfl
        · simp only [hforce, hresume, Bool.false_eq_true, if_false]
          exact h.leave rfl
  · rw [if_neg hidle]
    exact h

theorem Sound.create (h : Sound w) : Sound (w.create k) := by
  cases hphase : w.phases k with
  | creating call =>
    simp only [World.create, hphase]
    exact (h.append rfl).leave rfl
  | _ => simpa only [World.create, hphase] using h

/-- Where no other job of the channel is active nobody holds it. -/
theorem Sound.vacant (h : Sound w) (hrow : w.job j = some job) (alone : ∀ k, ¬ w.executes k j)
    (hactive : w.active job (w.clock - lag) = false)
    (hold : w.Holds k' job') : job'.channel ≠ job.channel := by
  intro hc
  have hid : job'.id ≠ job.id := by
    intro heq
    rw [job_id hrow] at heq
    exact alone k' (heq ▸ hold.executes)
  have hleased : job'.leased (w.clock - lag) = true := by
    have hnow := hold.leased
    simp only [DlRefreshJob.leased, Option.any_eq_true, decide_eq_true_eq] at hnow ⊢
    obtain ⟨t, ht, hlt⟩ := hnow
    exact ⟨t, ht, Nat.lt_of_le_of_lt (Nat.sub_le _ _) hlt⟩
  have hmem := (Table.get_some hold.row).1
  rw [World.active, any_eq_false] at hactive
  apply hactive job' hmem
  simp [hc, hid, h.running hold, hleased]

theorem Sound.start (h : Sound w) (lag : Time) (free : Undisturbed w (.start k lag)) :
    Sound (w.start k lag) := by
  cases hphase : w.phases k with
  | chosen call j startedAt =>
    cases hrow : w.job j with
    | none =>
      simp only [World.start, hphase, hrow]
      exact h.leave rfl
    | some job =>
      have hfree := free call j startedAt hphase
      have hlive := hfree.live job hrow
      by_cases hactive : w.active job (w.clock - lag) = true
      · simp only [World.start, hphase, hrow, hactive, if_true]
        exact h.touch {
          row := hrow
          keeps := fun _ => ⟨rfl, rfl⟩
          before := fun i hex => absurd hex (not_executes hphase rfl i)
          after := fun i hi => by cases hi
          alone := fun k' hex => absurd hex (hfree.alone k')
          rows := fun hi => by cases hi
          leased := fun hi => by cases hi
          closed := fun _ => rfl } {
          closes := by simp [Event.closes, closed]
          regained := fun hi => by cases hi
          recovers := by simp
          rightful := h.exclusive.rightful.other (by simp)
          final := h.exclusive.final.append (by simp [Event.starts]) }
      · rw [Bool.not_eq_true] at hactive
        simp only [World.start, hphase, hrow, hactive, Bool.false_eq_true, if_false]
        exact h.touch {
          row := hrow
          keeps := fun _ => ⟨rfl, rfl⟩
          before := fun i hex => absurd hex (not_executes hphase rfl i)
          after := fun i hi => (Option.some.inj hi).symm
          alone := fun k' hex => absurd hex (hfree.alone k')
          rows := fun _ => .inl rfl
          leased := fun _ _ k' job' hold hc =>
            absurd hc (h.vacant hrow hfree.alone hactive hold)
          closed := fun hc => by rw [hlive] at hc; cases hc } {
          closes := by simp [Event.closes]
          regained := fun _ _ => regained_started
          recovers := by simp
          rightful := h.exclusive.rightful.other (by simp)
          final := h.exclusive.final.start hlive fun e he hcloses => by
            obtain ⟨row, hget, hclosed⟩ := h.terminal e he j hcloses
            rw [hfree.live row hget] at hclosed
            cases hclosed }
  | _ => simpa only [World.start, hphase] using h

/-- What holds of the row that a worker executes. -/
theorem Sound.executed (h : Sound w) (hphase : w.phases k = .executing j strategy saved) :
    w.executes k j ∧ (∀ i, w.executes k i → i = j) ∧ (∀ k', w.executes k' j → k' = k) := by
  have hex : w.executes k j := by
    rw [World.executes, hphase]
    rfl
  exact ⟨hex, fun i hi => by
      rw [World.executes, hphase] at hi
      exact (Option.some.inj hi).symm, fun k' hk' => h.apart k' k j hk' hex⟩

theorem Sound.page (h : Sound w) : Sound (w.page k) := by
  cases hphase : w.phases k with
  | executing j strategy saved =>
    cases saved with
    | true => simpa only [World.page, hphase] using h
    | false =>
      simp only [World.page, hphase]
      obtain ⟨hex, hbefore, halone⟩ := h.executed hphase
      obtain ⟨job, hrow, hstatus⟩ := h.rows k j hex
      have hid := job_id hrow
      exact h.quiet {
        row := hrow
        keeps := fun _ => ⟨rfl, rfl⟩
        before := hbefore
        after := fun i hi => (Option.some.inj hi).symm
        alone := halone
        rows := fun _ => hstatus
        leased := fun _ hleased k' job' hold hc => by
          subst hid
          exact h.exclusive.one k' k job' job hold ⟨hex, hrow, hleased⟩ hc
        closed := fun hc => hc } fun _ hrun => h.regained k j job hex hrow hrun
  | _ => simpa only [World.page, hphase] using h

theorem Sound.heartbeat (h : Sound w) (lag : Time) (kept : Undisturbed w (.heartbeat k lag)) :
    Sound (w.heartbeat k lag) := by
  cases hphase : w.phases k with
  | executing j strategy saved =>
    cases saved with
    | false => simpa only [World.heartbeat, hphase] using h
    | true =>
      simp only [World.heartbeat, hphase]
      obtain ⟨hex, hbefore, halone⟩ := h.executed hphase
      obtain ⟨job, hrow, -⟩ := h.rows k j hex
      have hid := job_id hrow
      subst hid
      obtain ⟨hrun, hone⟩ := kept job hex hrow
      exact h.quiet {
        row := hrow
        keeps := fun _ => ⟨rfl, rfl⟩
        before := hbefore
        after := fun i hi => (Option.some.inj hi).symm
        alone := halone
        rows := fun _ => .inl hrun
        leased := fun _ _ => hone
        closed := fun hc => hc } fun _ _ => h.regained k job.id job hex hrow hrun
  | _ => simpa only [World.heartbeat, hphase] using h

theorem Sound.fail (h : Sound w) : Sound (w.fail k) := by
  cases hphase : w.phases k with
  | executing j strategy saved =>
    simp only [World.fail, hphase]
    obtain ⟨hex, hbefore, halone⟩ := h.executed hphase
    obtain ⟨job, hrow, hstatus⟩ := h.rows k j hex
    exact h.quiet {
      row := hrow
      keeps := fun _ => ⟨rfl, rfl⟩
      before := hbefore
      after := fun i hi => by cases hi
      alone := halone
      rows := fun hi => by cases hi
      leased := fun hi => by cases hi
      closed := fun hc => by
        cases hstatus with
        | inl hrun => simp [DataLayer.closed, hrun] at hc
        | inr hfailed => simp [DataLayer.closed, hfailed.1] at hc } nofun
  | _ => simpa only [World.fail, hphase] using h

theorem Sound.finish (h : Sound w) (kept : Undisturbed w (.finish k)) : Sound (w.finish k) := by
  cases hphase : w.phases k with
  | executing j strategy saved =>
    cases saved with
    | true => simpa only [World.finish, hphase] using h
    | false =>
      simp only [World.finish, hphase]
      obtain ⟨hex, hbefore, halone⟩ := h.executed hphase
      obtain ⟨job, hrow, -⟩ := h.rows k j hex
      have hid := job_id hrow
      subst hid
      have hregained := h.regained k job.id job hex hrow (kept job hex hrow)
      exact h.touch {
        row := hrow
        keeps := fun _ => ⟨rfl, rfl⟩
        before := hbefore
        after := fun i hi => by cases hi
        alone := halone
        rows := fun hi => by cases hi
        leased := fun hi => by cases hi
        closed := fun _ => rfl } {
        closes := by simp [Event.closes, closed]
        regained := fun hi => by cases hi
        recovers := by simp
        rightful := by
          apply h.exclusive.rightful.append
          intro before later k' j' hevents
          cases before with
          | nil =>
            simp only [nil_append, cons.injEq, Event.finished.injEq] at hevents
            rw [append_nil, ← hevents.1.1, ← hevents.1.2]
            exact hregained
          | cons e rest => simp at hevents
        final := h.exclusive.final.append (by simp [Event.starts]) }
  | _ => simpa only [World.finish, hphase] using h

theorem Sound.step (h : Sound w) (undisturbed : Undisturbed w a) : Sound (w.step a) := by
  cases a with
  | tick duration => exact h.fewer rfl rfl (Nat.le_add_right _ _) fun _ _ hex => hex
  | look worker call existing => exact h.look call existing
  | supersede worker => exact h.supersede undisturbed
  | create worker => exact h.create
  | start worker lag => exact h.start lag undisturbed
  | page worker => exact h.page
  | heartbeat worker lag => exact h.heartbeat lag undisturbed
  | fail worker => exact h.fail
  | finish worker => exact h.finish undisturbed
  | crash worker => exact h.leave rfl
  | recover lag limit =>
    exact h.recovered fun j hj job hrow => h.recover_running hj hrow

theorem Sound.run (h : Sound w) (along : Along Undisturbed w actions) : Sound (w.after actions) := by
  induction actions generalizing w with
  | nil => exact h
  | cons a rest ih => exact ih (h.step along.1) along.2

/-- Before any call: jobs of whatever kind and state, each with an id of its own. -/
structure Initial (w : World) : Prop where
  unique : (w.jobs.map DlRefreshJob.id).Nodup
  idle : ∀ worker, w.phases worker = .idle
  log : w.log = []

theorem Initial.sound (h : Initial w) : Sound w := by
  have hnone : ∀ k j, ¬ w.executes k j := fun k j => not_executes (h.idle k) rfl j
  constructor
  case unique => exact h.unique
  case apart =>
    intro k k' j hex
    exact absurd hex (hnone k j)
  case rows =>
    intro k j hex
    exact absurd hex (hnone k j)
  case terminal => simp [h.log]
  case regained =>
    intro k j job hex
    exact absurd hex (hnone k j)
  case exclusive =>
    constructor
    · intro k k' job job' hold
      exact absurd hold.executes (hnone k job.id)
    · intro earlier later k j heq
      simp [h.log] at heq
    · rw [h.log]
      exact ⟨by simp, Pairwise.nil⟩

/-- A call that reads what has been modified. -/
def modified : Call := ⟨"shop", "modified_since", false⟩

/-- A new job, started. -/
def opened : List Action := [.look 0 modified none, .create 0, .start 0 0]

/-- A second call finds the channel taken, and the first one renews its lease and finishes. -/
def renewed : List Action :=
  opened ++ [.look 1 modified none, .create 1, .start 1 0, .page 0, .heartbeat 0 0, .recover 0 100, .finish 0]

/-- A job has failed halfway, and two workers pick it up. -/
def resumed : List Action := opened ++ [.fail 0, .look 0 modified (some 1), .look 1 modified (some 1)]

end FlowHub.DataLayer
