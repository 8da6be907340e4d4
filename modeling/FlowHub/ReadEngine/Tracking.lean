import FlowHub.ReadEngine.Watermark

namespace FlowHub.ReadEngine

open Python List

section

variable {k : Connector} {w : World} {r : Run} {n : Nat} {c : Change}

theorem World.run_some (h : w.run key = some r) : r ∈ w.runs ∧ r.key = key := Table.get_some h

/-- An execution is under way alone, and nothing is left to resume. -/
theorem Tracked.alone (h : Tracked k w) (hr : r ∈ w.runs) :
    w.runs = [r] ∧ ∀ job ∈ w.jobs, job.status ≠ .pending := by
  have hone := h.one
  cases hruns : w.runs with
  | nil => simp [hruns] at hr
  | cons first rest =>
    rw [hruns, length_cons] at hone
    have hrest : rest = [] := length_eq_zero_iff.mp (by omega)
    have hnone : w.jobs.filter (fun job => decide (job.status = .pending)) = [] :=
      length_eq_zero_iff.mp (by omega)
    subst hrest
    rw [hruns, mem_singleton] at hr
    subst hr
    refine ⟨rfl, fun job hjob hpending => ?_⟩
    have := filter_eq_nil_iff.mp hnone job hjob
    simp [hpending] at this

theorem Tracked.waits (h : Tracked k w) (hr : r ∈ w.runs) (hw : Waits k w n c) : Ahead k r n c := by
  obtain ⟨hruns, hnone⟩ := h.alone hr
  rcases hw with ⟨other, hother, hahead⟩ | ⟨job, hjob, hpending, -⟩
  · rw [hruns, mem_singleton] at hother
    exact hother ▸ hahead
  · exact absurd hpending (hnone job hjob)

variable {jobs : List DlRefreshJob} {job : DlRefreshJob}

/-- The pending job is the only one, and no execution is under way. -/
theorem Tracked.idle (h : Tracked k w) (hjob : job ∈ w.jobs) (hpending : job.status = .pending) :
    w.runs = [] ∧ ∀ other ∈ w.jobs, other.status = .pending → other = job := by
  have hone := h.one
  have hmem : job ∈ w.jobs.filter fun job => decide (job.status = .pending) := by
    simp [hjob, hpending]
  cases hfilter : w.jobs.filter (fun job => decide (job.status = .pending)) with
  | nil =>
    rw [hfilter] at hmem
    cases hmem
  | cons first rest =>
    rw [hfilter, length_cons] at hone
    have hrest : rest = [] := length_eq_zero_iff.mp (by omega)
    subst hrest
    rw [hfilter, mem_singleton] at hmem
    refine ⟨length_eq_zero_iff.mp (by omega), fun other hother hp => ?_⟩
    have hin : other ∈ w.jobs.filter fun job => decide (job.status = .pending) := by
      simp [hother, hp]
    rw [hfilter, mem_singleton] at hin
    rw [hin, hmem]

/-- What a run will still bring lies behind the last page it has stored. -/
theorem Ahead.behind (h : Ahead k r n c)
    (items : ∀ items next, r.phase = .fetched items next →
      (∀ f ∈ items, w.changes[f.2]? = some f.1 ∧ ∀ id ∈ r.cursor, id < f.1.id k) ∧
        ∀ id ∈ next, ∀ old ∈ r.cursor, old < id) :
    ∀ id ∈ r.cursor, id < c.id k := by
  intro id hid
  unfold Ahead at h
  split at h
  · exact h.2 id hid
  · exact h.1 id hid
  · rename_i brought next hphase
    obtain ⟨hitems, hnext⟩ := items brought next hphase
    rcases h with ⟨f, hf, hsame, -⟩ | ⟨⟨last, hlast, hlt⟩, -⟩
    · exact hsame ▸ (hitems f hf).2 id hid
    · exact (hnext last hlast id hid).trans hlt
  · exact h.elim

theorem Due.behind (h : Due k r n c)
    (items : ∀ items next, r.phase = .fetched items next →
      (∀ f ∈ items, w.changes[f.2]? = some f.1 ∧ ∀ id ∈ r.cursor, id < f.1.id k) ∧
        ∀ id ∈ next, ∀ old ∈ r.cursor, old < id) :
    ∀ id ∈ r.cursor, id < c.id k := by
  unfold Due at h
  split at h
  · exact h
  · exact Ahead.behind h items

theorem Ahead.due (h : Ahead k r n c) : Due k r n c := by
  unfold Due
  split
  · rename_i hphase
    rw [Ahead, hphase] at h
    exact h.2
  · exact h

theorem jobs_unique (unique : (jobs.map DlRefreshJob.id).Nodup)
    (id : Nat) (h : ∀ job ∈ jobs, p job = true → job.id = id) : (jobs.filter p).length ≤ 1 := by
  have hids : (jobs.filter p).map DlRefreshJob.id = replicate (jobs.filter p).length id := by
    rw [eq_replicate_iff, length_map]
    refine ⟨rfl, fun i hi => ?_⟩
    obtain ⟨job, hjob, rfl⟩ := mem_map.mp hi
    obtain ⟨hmem, hp⟩ := mem_filter.mp hjob
    exact h job hmem hp
  have hnodup : ((jobs.filter p).map DlRefreshJob.id).Nodup :=
    unique.sublist (filter_sublist.map _)
  rw [hids] at hnodup
  exact nodup_replicate.mp hnodup

theorem setJob_ids (id : Nat) (f : DlRefreshJob → DlRefreshJob) (hf : ∀ job, (f job).id = job.id) :
    (Table.set DlRefreshJob.id jobs id f).map DlRefreshJob.id = jobs.map DlRefreshJob.id := by
  rw [Table.set, map_map]
  refine map_congr_left fun job _ => ?_
  by_cases h : job.id = id
  · simp [h, hf]
  · simp [h]

theorem no_pending (h : ∀ job ∈ jobs, job.status ≠ .pending) :
    (jobs.filter fun job => decide (job.status = .pending)).length = 0 := by
  rw [length_eq_zero_iff, filter_eq_nil_iff]
  intro job hjob
  simpa using h job hjob

theorem Tracked.tick (h : Tracked k w) (duration : Nat) : Tracked k (step k w (.tick duration)) :=
  { h with
    past := fun c hc => (h.past c hc).trans (Nat.le_add_right _ _)
    fetched := fun row hrow t ht => (h.fetched row hrow t ht).trans (Nat.le_add_right _ _)
    jobStarts := fun job hjob t ht => (h.jobStarts job hjob t ht).trans (Nat.le_add_right _ _)
    runStarts := fun r hr =>
      ⟨(h.runStarts r hr).1.trans (Nat.le_add_right _ _), (h.runStarts r hr).2⟩ }

theorem Tracked.change (h : Tracked k w) (item : Json) : Tracked k (step k w (.change item)) := by
  by_cases hempty : Change.id k ⟨w.clock, item⟩ = ""
  · rw [step, if_pos hempty]
    exact h
  rw [step, if_neg hempty]
  -- What is changed now is not older than any read, nor than any start.
  have hold : ∀ (n : Nat) (c : Change), (w.changes ++ [⟨w.clock, item⟩])[n]? = some c →
      ∀ t ≤ w.clock, c.at_ < t → w.changes[n]? = some c := by
    intro n c hget t ht hlt
    rcases Nat.lt_or_ge n w.changes.length with hn | hn
    · rwa [getElem?_append_left hn] at hget
    rw [getElem?_append_right hn, getElem?_singleton] at hget
    split at hget
    · cases hget
      exact absurd ht (Nat.not_le.mpr hlt)
    · cases hget
  have hkept : ∀ f : Change × Nat, w.changes[f.2]? = some f.1 →
      (w.changes ++ [⟨w.clock, item⟩])[f.2]? = some f.1 := by
    intro f hf
    obtain ⟨hlt, -⟩ := List.getElem?_eq_some_iff.mp hf
    exact (getElem?_append_left hlt).trans hf
  exact { h with
    ordered := by
      rw [pairwise_append]
      refine ⟨h.ordered, pairwise_singleton _ _, fun a ha b hb => ?_⟩
      rw [mem_singleton] at hb
      exact hb ▸ h.past a ha
    past := by
      intro c hc
      rcases mem_append.mp hc with hc | hc
      · exact h.past c hc
      · obtain rfl := mem_singleton.mp hc
        exact Nat.le_refl w.clock
    items := fun r hr items next hphase =>
      ⟨fun f hf => ⟨hkept f ((h.items r hr items next hphase).1 f hf).1,
        ((h.items r hr items next hphase).1 f hf).2⟩, (h.items r hr items next hphase).2⟩
    reads := fun read hread f hf => hkept f (h.reads read hread f hf)
    mark := by
      rintro n c hget ⟨t, ht, hlt⟩
      have hbefore := hold n c hget t (watermark_le h.fetched t ht) hlt
      exact (h.mark n c hbefore ⟨t, ht, hlt⟩).imp (fun hr => hr.append _) id
    due := by
      intro r hr n c hget hlt
      have hbefore := hold n c hget _ (h.runStarts r hr).1 hlt
      exact (h.due r hr n c hbefore hlt).imp (fun hr => hr.append _) id
    pendingDue := by
      intro job hjob hpending
      obtain ⟨t, ht, hdue⟩ := h.pendingDue job hjob hpending
      refine ⟨t, ht, fun n c hget hlt => ?_⟩
      have hbefore := hold n c hget t (h.jobStarts job hjob t ht) hlt
      exact (hdue n c hbefore hlt).imp (fun hr => hr.append _) id }

/-- No execution begins where another job runs. -/
theorem refuses_eq {id : Nat}
    (same : ∀ job : DlRefreshJob, job.status = .running → (job ∈ jobs ↔ job ∈ w.jobs))
    (other : ∀ job ∈ w.jobs, job.status = .running → job.id ≠ id) :
    { w with jobs := jobs }.refuses id = w.busy := by
  rw [Bool.eq_iff_iff]
  simp only [World.refuses, World.busy, any_eq_true, Bool.and_eq_true, decide_eq_true_eq]
  constructor
  · rintro ⟨job, hjob, ⟨-, hrunning⟩, hlease⟩
    exact ⟨job, (same job hrunning).mp hjob, hrunning, hlease⟩
  · rintro ⟨job, hjob, hrunning, hlease⟩
    exact ⟨job, (same job hrunning).mpr hjob, ⟨other job hjob hrunning, hrunning⟩, hlease⟩

/-- An execution begins with what its job has still to bring. -/
theorem Tracked.begun (h : Tracked k w) (ids : (jobs.map DlRefreshJob.id).Nodup) (hjob : job ∈ jobs)
    (only : ∀ other ∈ jobs, other.status = .pending → other.id = job.id)
    (starts : ∀ job ∈ jobs, ∀ t ∈ job.startedAt, t ≤ w.clock)
    (hmark : ∀ n c, w.changes[n]? = some c → (∃ t ∈ watermark w.cache, c.at_ < t) →
      Reflected k w.changes w.cache n (c.id k) ∨
        (job.strategy = .initialFullRead ∨ resumed = true) ∧ ∀ id ∈ job.cursor, id < c.id k)
    (hdue : ∀ n c, w.changes[n]? = some c → c.at_ < job.startedAt.getD w.clock →
      Reflected k w.changes w.cache n (c.id k) ∨ ∀ id ∈ job.cursor, id < c.id k)
    (hruns : w.runs = []) (hfree : { w with jobs := jobs }.refuses job.id = false) :
    Tracked k ({ w with jobs := jobs }.begin_ job forceFull resumed) := by
  unfold World.begin_
  rw [hfree, if_neg Bool.false_ne_true]
  have hstarted : job.startedAt.getD w.clock ≤ w.clock := by
    cases hstart : job.startedAt with
    | none => exact le_rfl
    | some t => exact starts job hjob t hstart
  have hnone : ∀ other ∈ Table.set DlRefreshJob.id jobs job.id (fun job' => { job' with
      status := .running, startedAt := some (job.startedAt.getD w.clock),
      leaseExpiresAt := some (w.lease job'.strategy) }), other.status ≠ .pending := by
    intro other hother hpending
    rcases Table.mem_set.mp hother with ⟨_, _, _, rfl⟩ | ⟨hmem, hne⟩
    · cases hpending
    · exact hne (only other hmem hpending)
  constructor
  case ordered => exact h.ordered
  case past => exact h.past
  case fetched => exact h.fetched
  case jobIds =>
    refine (congrArg Nodup (setJob_ids _ _ ?_)).mpr ids
    exact fun _ => rfl
  case jobStarts =>
    intro other hother t ht
    rcases Table.mem_set.mp hother with ⟨_, _, _, rfl⟩ | ⟨hmem, -⟩
    · cases ht
      exact hstarted
    · exact starts other hmem t ht
  case runStarts =>
    intro r hr
    change r ∈ w.runs ++ [_] at hr
    rw [hruns, nil_append, mem_singleton] at hr
    subst hr
    exact ⟨hstarted, _, Table.mem_set.mpr (.inl ⟨job, hjob, rfl, rfl⟩), rfl, rfl⟩
  case one =>
    have hcount := no_pending hnone
    rw [hruns]
    exact (Nat.add_le_add_left hcount.le 1).trans le_rfl
  case items =>
    intro r hr items next hphase
    change r ∈ w.runs ++ [_] at hr
    rw [hruns, nil_append, mem_singleton] at hr
    subst hr
    cases hphase
  case reads => exact h.reads
  case mark =>
    intro n c hget ht
    refine (hmark n c hget ht).imp id fun hahead => .inl ?_
    change ∃ r ∈ w.runs ++ [_], Ahead k r n c
    rw [hruns, nil_append]
    exact ⟨_, mem_singleton_self _, hahead⟩
  case due =>
    intro r hr n c hget hlt
    change r ∈ w.runs ++ [_] at hr
    rw [hruns, nil_append, mem_singleton] at hr
    subst hr
    exact hdue n c hget hlt
  case pendingDue =>
    intro other hother hpending
    exact absurd hpending (hnone other hother)

/-- A job that may not run is given up. -/
theorem Tracked.refused (h : Tracked k w) (ids : (jobs.map DlRefreshJob.id).Nodup)
    (only : ∀ other ∈ jobs, other.status = .pending → other.id = job.id)
    (starts : ∀ job ∈ jobs, ∀ t ∈ job.startedAt, t ≤ w.clock)
    (runStarts : ∀ r ∈ w.runs, ∃ other ∈ jobs, other.id = r.jobId ∧
      other.startedAt = some r.startedAt ∧ other.id ≠ job.id)
    (hmark : ∀ n c, w.changes[n]? = some c → (∃ t ∈ watermark w.cache, c.at_ < t) →
      Reflected k w.changes w.cache n (c.id k) ∨ ∃ r ∈ w.runs, Ahead k r n c)
    (hbusy : { w with jobs := jobs }.refuses job.id = true) :
    Tracked k ({ w with jobs := jobs }.begin_ job forceFull resumed) := by
  unfold World.begin_
  rw [hbusy, if_pos rfl]
  have hnone : ∀ other ∈ Table.set DlRefreshJob.id jobs job.id (fun job =>
      { job with status := .cancelled }), other.status ≠ .pending := by
    intro other hother hpending
    rcases Table.mem_set.mp hother with ⟨_, _, _, rfl⟩ | ⟨hmem, hne⟩
    · cases hpending
    · exact hne (only other hmem hpending)
  constructor
  case ordered => exact h.ordered
  case past => exact h.past
  case fetched => exact h.fetched
  case jobIds =>
    refine (congrArg Nodup (setJob_ids _ _ ?_)).mpr ids
    exact fun _ => rfl
  case jobStarts =>
    intro other hother t ht
    rcases Table.mem_set.mp hother with ⟨old, hold, -, rfl⟩ | ⟨hmem, -⟩
    · exact starts old hold t ht
    · exact starts other hmem t ht
  case runStarts =>
    intro r hr
    obtain ⟨other, hother, hid, hstart, hne⟩ := runStarts r hr
    exact ⟨(h.runStarts r hr).1, other, Table.mem_set.mpr (.inr ⟨hother, hne⟩), hid, hstart⟩
  case one =>
    have hcount := no_pending hnone
    have hone := h.one
    change w.runs.length + _ ≤ 1
    refine (Nat.add_le_add_left hcount.le _).trans ?_
    omega
  case items => exact h.items
  case reads => exact h.reads
  case mark => exact fun n c hget ht => (hmark n c hget ht).imp id .inl
  case due => exact h.due
  case pendingDue =>
    intro other hother hpending
    exact absurd hpending (hnone other hother)

theorem pending_none (h : w.pending = none) : ∀ job ∈ w.jobs, job.status ≠ .pending := by
  intro job hjob hpending
  have hnil := getLast?_eq_none_iff.mp h
  have := filter_eq_nil_iff.mp hnil job hjob
  simp [hpending] at this

theorem pending_some (h : w.pending = some job) : job ∈ w.jobs ∧ job.status = .pending := by
  have hmem := mem_filter.mp (mem_of_getLast? h)
  exact ⟨hmem.1, of_decide_eq_true hmem.2⟩

theorem World.nextJob_fresh (h : job ∈ w.jobs) : job.id ≠ w.nextJob := by
  intro heq
  have hmem : job.id ∈ w.jobs.map DlRefreshJob.id := mem_map_of_mem h
  rw [heq] at hmem
  exact Table.next_notMem _ hmem

theorem nodup_fresh (ids : (jobs.map DlRefreshJob.id).Nodup) (fresh : ∀ other ∈ jobs, other.id ≠ job.id) :
    ((jobs ++ [job]).map DlRefreshJob.id).Nodup := by
  rw [map_append, nodup_append]
  refine ⟨ids, nodup_singleton _, fun i hi j hj => ?_⟩
  obtain ⟨other, hother, rfl⟩ := mem_map.mp hi
  rw [map_singleton, mem_singleton] at hj
  exact hj ▸ fresh other hother

/-- The jobs a new job is added to: none of them is pending, and those that run are the same. -/
theorem Tracked.startFresh (h : Tracked k w) (jobs : List DlRefreshJob)
    (ids : (jobs.map DlRefreshJob.id).Nodup)
    (fresh : ∀ other ∈ jobs, other.id ≠ job.id) (hnone : ∀ other ∈ jobs, other.status ≠ .pending)
    (starts : ∀ job ∈ jobs, ∀ t ∈ job.startedAt, t ≤ w.clock)
    (same : ∀ job : DlRefreshJob, job.status = .running → (job ∈ jobs ↔ job ∈ w.jobs))
    (runStarts : ∀ r ∈ w.runs, ∃ other ∈ jobs, other.id = r.jobId ∧ other.startedAt = some r.startedAt)
    (hjob : job.status = .pending ∧ job.cursor = none ∧ job.startedAt = none)
    (hruns : w.busy = false → w.runs = [])
    (hmark : ∀ n c, w.changes[n]? = some c → (∃ t ∈ watermark w.cache, c.at_ < t) →
      Reflected k w.changes w.cache n (c.id k) ∨
        if w.busy then ∃ r ∈ w.runs, Ahead k r n c else job.strategy = .initialFullRead) :
    Tracked k ({ w with jobs := jobs ++ [job] }.begin_ job forceFull false) := by
  obtain ⟨hpending, hcursor, hstart⟩ := hjob
  have honly : ∀ other ∈ jobs ++ [job], other.status = .pending → other.id = job.id := by
    intro other hother hp
    rcases mem_append.mp hother with hother | hother
    · exact absurd hp (hnone other hother)
    · rw [mem_singleton.mp hother]
  have hstarts : ∀ other ∈ jobs ++ [job], ∀ t ∈ other.startedAt, t ≤ w.clock := by
    intro other hother t ht
    rcases mem_append.mp hother with hother | hother
    · exact starts other hother t ht
    · rw [mem_singleton.mp hother, hstart] at ht
      cases ht
  have hrefuses : { w with jobs := jobs ++ [job] }.refuses job.id = w.busy := by
    refine refuses_eq (fun other hrunning => ?_) fun other hother hrunning => ?_
    · rw [← same other hrunning, mem_append]
      refine or_iff_left fun hnew => ?_
      rw [mem_singleton.mp hnew, hpending] at hrunning
      cases hrunning
    · exact fresh other ((same other hrunning).mpr hother)
  cases hbusy : w.busy with
  | true =>
    rw [hbusy] at hrefuses
    refine h.refused (nodup_fresh ids fresh) honly hstarts ?_ ?_ hrefuses
    · intro r hr
      obtain ⟨other, hother, hid, hs⟩ := runStarts r hr
      exact ⟨other, mem_append_left _ hother, hid, hs, fresh other hother⟩
    · intro n c hget ht
      simpa [hbusy] using hmark n c hget ht
  | false =>
    rw [hbusy] at hrefuses
    refine h.begun (nodup_fresh ids fresh) mem_concat_self
      honly hstarts ?_ ?_ (hruns hbusy) hrefuses
    · intro n c hget ht
      have hfull := hmark n c hget ht
      rw [hbusy] at hfull
      refine hfull.imp id fun hfull => ⟨.inl (by simpa using hfull), ?_⟩
      simp [hcursor]
    · simp [hcursor]

theorem Tracked.start (h : Tracked k w) (hc : Covers k w (.start forceFull)) :
    Tracked k (step k w (.start forceFull)) := by
  change Tracked k (w.start forceFull)
  have hidle : w.busy = false → w.runs = [] := by
    intro hbusy
    rw [Covers, hbusy, if_neg Bool.false_ne_true] at hc
    exact hc
  unfold World.start
  cases hpending : w.pending with
  | none =>
    have hnone := pending_none hpending
    refine h.startFresh w.jobs h.jobIds (fun other hother => World.nextJob_fresh hother) hnone
      h.jobStarts (fun _ _ => Iff.rfl) (fun r hr => (h.runStarts r hr).2) ⟨rfl, rfl, rfl⟩ hidle ?_
    intro n c hget ht
    cases hbusy : w.busy with
    | true =>
      refine (h.mark n c hget ht).imp id fun hwaits => ?_
      rcases hwaits with hahead | ⟨job, hjob, hp, -⟩
      · simpa using hahead
      · exact absurd hp (hnone job hjob)
    | false =>
      refine (h.mark n c hget ht).imp id fun hwaits => ?_
      rcases hwaits with ⟨r, hr, -⟩ | ⟨job, hjob, hp, -⟩
      · rw [hidle hbusy] at hr
        cases hr
      · exact absurd hp (hnone job hjob)
  | some pending =>
    obtain ⟨hmem, hstatus⟩ := pending_some hpending
    obtain ⟨hruns, honly⟩ := h.idle hmem hstatus
    have hsettled : w.busy = true → Settled k w := by
      intro hbusy
      rw [Covers, hbusy, if_pos rfl] at hc
      exact hc (by rw [hpending]; rfl)
    cases forceFull with
    | true =>
      have hfailed : ∀ job ∈ Table.set DlRefreshJob.id w.jobs pending.id (fun job =>
          { job with status := .failed }), job.status ≠ .pending := by
        intro job hjob hp
        rcases Table.mem_set.mp hjob with ⟨_, _, _, rfl⟩ | ⟨hold, hne⟩
        · cases hp
        · exact hne (congrArg DlRefreshJob.id (honly job hold hp))
      refine h.startFresh (Table.set DlRefreshJob.id w.jobs pending.id _)
        ?_ ?_ hfailed ?_ ?_ ?_ ⟨rfl, rfl, rfl⟩ hidle ?_
      · refine (congrArg Nodup (setJob_ids _ _ ?_)).mpr h.jobIds
        exact fun _ => rfl
      · intro other hother
        rcases Table.mem_set.mp hother with ⟨old, hold, -, rfl⟩ | ⟨hold, -⟩
        · have hfresh : old.id ≠ w.nextJob := World.nextJob_fresh hold
          exact hfresh
        · exact World.nextJob_fresh hold
      · intro other hother t ht
        rcases Table.mem_set.mp hother with ⟨old, hold, -, rfl⟩ | ⟨hold, -⟩
        · exact h.jobStarts old hold t ht
        · exact h.jobStarts other hold t ht
      · intro job hrunning
        constructor
        · intro hjob
          rcases Table.mem_set.mp hjob with ⟨_, _, _, rfl⟩ | ⟨hold, -⟩
          · cases hrunning
          · exact hold
        · intro hjob
          refine Table.mem_set.mpr (.inr ⟨hjob, fun heq => ?_⟩)
          have hsame := inj_on_of_nodup_map h.jobIds hjob hmem heq
          rw [hsame, hstatus] at hrunning
          cases hrunning
      · intro r hr
        rw [hruns] at hr
        cases hr
      · intro n c hget ht
        cases hbusy : w.busy with
        | true => exact .inl (hsettled hbusy n c hget ht)
        | false => exact .inr rfl
    | false =>
      have hids : ∀ other ∈ w.jobs, other.status = .pending → other.id = pending.id :=
        fun other hother hp => congrArg DlRefreshJob.id (honly other hother hp)
      have hrefuses : w.refuses pending.id = w.busy := by
        refine refuses_eq (fun _ _ => Iff.rfl) fun job hjob hrunning heq => ?_
        have hsame := inj_on_of_nodup_map h.jobIds hjob hmem heq
        rw [hsame, hstatus] at hrunning
        cases hrunning
      cases hbusy : w.busy with
      | true =>
        refine h.refused h.jobIds hids h.jobStarts ?_ ?_ (hrefuses.trans hbusy)
        · intro r hr
          rw [hruns] at hr
          cases hr
        · exact fun n c hget ht => .inl (hsettled hbusy n c hget ht)
      | false =>
        refine h.begun h.jobIds hmem hids h.jobStarts ?_ ?_ hruns (hrefuses.trans hbusy)
        · intro n c hget ht
          refine (h.mark n c hget ht).imp id fun hwaits => ⟨.inr rfl, ?_⟩
          rcases hwaits with ⟨r, hr, -⟩ | ⟨job, hjob, hp, hcursor⟩
          · rw [hruns] at hr
            cases hr
          · exact honly job hjob hp ▸ hcursor
        · intro n c hget hlt
          obtain ⟨t, ht, hdue⟩ := h.pendingDue pending hmem hstatus
          rw [ht] at hlt
          exact hdue n c hget hlt

theorem World.enter_alone (hruns : w.runs = [r]) (f : Run → Run) :
    w.enter r.key f = { w with runs := [f r] } := by
  simp [World.enter, Table.set, hruns]

theorem World.leave_alone (hruns : w.runs = [r]) : w.leave r.key = { w with runs := [] } := by
  simp [World.leave, hruns]

/-- An execution moves on without a commit, and forgets nothing. -/
theorem Tracked.moved (h : Tracked k w) (hr : r ∈ w.runs)
    (same : (f r).startedAt = r.startedAt ∧ (f r).jobId = r.jobId)
    (hitems : ∀ items next, (f r).phase = .fetched items next →
      (∀ g ∈ items, w.changes[g.2]? = some g.1 ∧ ∀ id ∈ (f r).cursor, id < g.1.id k) ∧
        ∀ id ∈ next, ∀ old ∈ (f r).cursor, old < id)
    (hmark : ∀ n c, w.changes[n]? = some c → (∃ t ∈ watermark w.cache, c.at_ < t) →
      Reflected k w.changes w.cache n (c.id k) ∨ Ahead k (f r) n c)
    (hdue : ∀ n c, w.changes[n]? = some c → c.at_ < r.startedAt →
      Reflected k w.changes w.cache n (c.id k) ∨ Due k (f r) n c) : Tracked k (w.enter r.key f) := by
  obtain ⟨hruns, hnone⟩ := h.alone hr
  rw [World.enter_alone hruns]
  exact { h with
    runStarts := by
      intro other hother
      rw [mem_singleton.mp hother, same.1, same.2]
      exact h.runStarts r hr
    one := by
      have hone := h.one
      rw [hruns] at hone
      exact hone
    items := by
      intro other hother
      rw [mem_singleton.mp hother]
      exact hitems
    mark := fun n c hget ht => (hmark n c hget ht).imp id fun hahead =>
      .inl ⟨_, mem_singleton_self _, hahead⟩
    due := by
      intro other hother n c hget hlt
      rw [mem_singleton.mp hother, same.1] at hlt
      rw [mem_singleton.mp hother]
      exact hdue n c hget hlt
    pendingDue := fun job hjob hpending => absurd hpending (hnone job hjob) }

theorem Tracked.opened (h : Tracked k w) (hr : r ∈ w.runs)
    (hc : r.resumed = true → r.strategy = .modifiedSince → Settled k w) : Tracked k (w.open_ r) := by
  unfold World.open_
  cases hphase : r.phase with
  | ready => exact h
  | fetched => exact h
  | drained => exact h
  | started =>
    cases hstrategy : r.strategy with
    | initialFullRead =>
      refine h.moved hr ⟨rfl, rfl⟩ (fun _ _ hfetched => by cases hfetched) ?_ ?_
      · intro n c hget ht
        refine (h.mark n c hget ht).imp id fun hwaits => ?_
        have hahead := h.waits hr hwaits
        rw [Ahead, hphase] at hahead
        simpa [Ahead, hstrategy] using hahead.2
      · intro n c hget hlt
        refine (h.due r hr n c hget hlt).imp id fun hdue => ?_
        rw [Due, hphase] at hdue
        simpa [Due, Ahead, hstrategy] using hdue
    | modifiedSince =>
      -- The new watermark: what is older has been read, or else the run was resumed.
      have hread : ∀ n c, w.changes[n]? = some c → (∃ t ∈ watermark w.cache, c.at_ < t) →
          Reflected k w.changes w.cache n (c.id k) := by
        intro n c hget ht
        rcases h.mark n c hget ht with hreflected | hwaits
        · exact hreflected
        have hahead := h.waits hr hwaits
        rw [Ahead, hphase, hstrategy] at hahead
        rcases hahead.1 with hfull | hresumed
        · cases hfull
        · exact hc hresumed hstrategy n c hget ht
      refine h.moved hr ⟨rfl, rfl⟩ (fun _ _ hfetched => by cases hfetched) ?_ ?_
      · exact fun n c hget ht => .inl (hread n c hget ht)
      intro n c hget hlt
      by_cases ht : ∃ t ∈ watermark w.cache, c.at_ < t
      · exact .inl (hread n c hget ht)
      refine (h.due r hr n c hget hlt).imp id fun hdue => ?_
      rw [Due, hphase] at hdue
      have hsince : ∀ t ∈ watermark w.cache, t ≤ c.at_ := by
        intro t hmem
        exact Nat.le_of_not_lt fun hlt => ht ⟨t, hmem, hlt⟩
      simp only [Due, Ahead, hstrategy]
      exact ⟨hdue, hsince⟩

/-- The items of a page are on it or behind it. -/
theorem fetched_ahead (ordered : w.changes.Pairwise fun a b => a.at_ ≤ b.at_) (limit : Nat)
    (hget : w.changes[n]? = some c) (hcursor : ∀ id ∈ r.cursor, id < c.id k)
    (hsince : ∀ t ∈ r.since, t ≤ c.at_) :
    let rest := listed k w.changes r.since r.cursor
    let items := rest.take (limit + 1)
    let next := if items.length < rest.length then items.getLast?.map fun c => c.1.id k else none
    (∃ f ∈ items, f.1.id k = c.id k ∧ n ≤ f.2) ∨ Behind k r next c := by
  intro rest items next
  obtain ⟨f, hcurrent, hle⟩ := current_newest hget
  obtain ⟨hfget, hid⟩ := current_some hcurrent
  have hlater := at_mono ordered hget hfget hle
  have hmem : f ∈ rest := by
    rw [mem_listed, hid]
    exact ⟨hcurrent, fun t ht => (hsince t ht).trans hlater, hcursor⟩
  by_cases hitem : f ∈ items
  · exact .inl ⟨f, hitem, hid, hle⟩
  right
  have hdrop : f ∈ rest.drop (limit + 1) := by
    have hsplit := take_append_drop (limit + 1) rest
    rw [← hsplit, mem_append] at hmem
    exact hmem.resolve_left hitem
  have hlong : limit + 1 < rest.length := by
    by_contra hshort
    rw [drop_eq_nil_of_le (Nat.le_of_not_lt hshort)] at hdrop
    cases hdrop
  have hlength : items.length = limit + 1 := by
    rw [length_take]
    omega
  have hlast : items.getLast? = some (items.getLast (by
      intro hnil
      rw [hnil] at hlength
      simp at hlength)) := getLast?_eq_some_getLast _
  have hnext : next = items.getLast?.map fun c => c.1.id k := if_pos (by omega)
  refine ⟨?_, hsince⟩
  rw [hnext, hlast]
  refine ⟨_, rfl, ?_⟩
  have hsorted : rest.Pairwise fun a b => a.1.id k < b.1.id k := listed_sorted _ _
  have hcross : ∀ a ∈ rest.take (limit + 1), ∀ b ∈ rest.drop (limit + 1), a.1.id k < b.1.id k := by
    have hpair : (rest.take (limit + 1) ++ rest.drop (limit + 1)).Pairwise
        fun a b => a.1.id k < b.1.id k := by
      rw [take_append_drop]
      exact hsorted
    exact (pairwise_append.mp hpair).2.2
  rw [← hid]
  exact hcross _ (getLast_mem _) f hdrop

theorem Tracked.paged (h : Tracked k w) (hr : r ∈ w.runs) (limit : Nat) : Tracked k (w.fetch k r limit) := by
  unfold World.fetch
  cases hphase : r.phase with
  | started => exact h
  | fetched => exact h
  | drained => exact h
  | ready =>
    let rest := listed k w.changes r.since r.cursor
    let items := rest.take (limit + 1)
    let next := if items.length < rest.length then items.getLast?.map fun c => c.1.id k else none
    have hbrings : ∀ n c, w.changes[n]? = some c → Ahead k r n c →
        Ahead k { r with phase := .fetched items next } n c := by
      intro n c hget hahead
      rw [Ahead, hphase] at hahead
      exact fetched_ahead h.ordered limit hget hahead.1 hahead.2
    refine h.moved hr ⟨rfl, rfl⟩ ?_ ?_ ?_
    · intro items next hfetched
      obtain ⟨rfl, rfl⟩ := RunPhase.fetched.inj hfetched
      have hmem : ∀ f ∈ items, w.changes[f.2]? = some f.1 ∧ ∀ id ∈ r.cursor, id < f.1.id k := by
        intro f hf
        obtain ⟨hcurrent, -, hcursor⟩ := mem_listed.mp (mem_of_mem_take hf)
        exact ⟨(current_some hcurrent).1, hcursor⟩
      refine ⟨hmem, ?_⟩
      intro id hid old hold
      split at hid
      · obtain ⟨last, hlast, rfl⟩ := Option.map_eq_some_iff.mp hid
        exact (hmem last (mem_of_getLast? hlast)).2 old hold
      · cases hid
    · intro n c hget ht
      exact (h.mark n c hget ht).imp id fun hwaits => hbrings n c hget (h.waits hr hwaits)
    · intro n c hget hlt
      refine (h.due r hr n c hget hlt).imp id fun hdue => ?_
      rw [Due, hphase] at hdue
      exact hbrings n c hget hdue

/-- A job that fails waits behind the last page it has stored. -/
theorem Tracked.failed (h : Tracked k w) (hr : r ∈ w.runs) : Tracked k (w.fail r) := by
  obtain ⟨hruns, hnone⟩ := h.alone hr
  obtain ⟨hstarted, job, hjob, hid, hstart⟩ := h.runStarts r hr
  have hleft : w.fail r = { w.setJob r.jobId fun job =>
      { job with status := .pending, cursor := r.cursor } with runs := [] } :=
    World.leave_alone (w := w.setJob r.jobId _) hruns
  have hwaiting : ∀ other ∈ Table.set DlRefreshJob.id w.jobs r.jobId (fun job =>
      { job with status := .pending, cursor := r.cursor }), other.status = .pending →
      other.id = r.jobId ∧ other.cursor = r.cursor ∧ other.startedAt = some r.startedAt := by
    intro other hother hpending
    rcases Table.mem_set.mp hother with ⟨old, hold, hsame, rfl⟩ | ⟨hmem, -⟩
    · have heq := inj_on_of_nodup_map h.jobIds hold hjob (hsame.trans hid.symm)
      exact ⟨hsame, rfl, heq ▸ hstart⟩
    · exact absurd hpending (hnone other hmem)
  have hids : ((Table.set DlRefreshJob.id w.jobs r.jobId fun job =>
      { job with status := .pending, cursor := r.cursor }).map DlRefreshJob.id).Nodup := by
    refine (congrArg Nodup (setJob_ids _ _ ?_)).mpr h.jobIds
    exact fun _ => rfl
  rw [hleft]
  constructor
  case ordered => exact h.ordered
  case past => exact h.past
  case fetched => exact h.fetched
  case jobIds => exact hids
  case jobStarts =>
    intro other hother t ht
    rcases Table.mem_set.mp hother with ⟨old, hold, -, rfl⟩ | ⟨hmem, -⟩
    · exact h.jobStarts old hold t ht
    · exact h.jobStarts other hmem t ht
  case runStarts => simp
  case one =>
    have hcount := jobs_unique hids (p := fun job => decide (job.status = .pending)) r.jobId
      fun other hother hpending =>
        (hwaiting other hother (of_decide_eq_true hpending)).1
    exact (Nat.zero_add _).trans_le hcount
  case items => simp
  case reads => exact h.reads
  case mark =>
    intro n c hget ht
    refine (h.mark n c hget ht).imp id fun hwaits => .inr ?_
    have hbehind := (h.waits hr hwaits).behind (h.items r hr)
    exact ⟨_, Table.mem_set.mpr (.inl ⟨job, hjob, hid, rfl⟩), rfl, hbehind⟩
  case due => simp
  case pendingDue =>
    intro other hother hpending
    obtain ⟨-, hcursor, hat⟩ := hwaiting other hother hpending
    refine ⟨_, hat, fun n c hget hlt => ?_⟩
    rw [hcursor]
    exact (h.due r hr n c hget hlt).imp id fun hdue => hdue.behind (h.items r hr)

theorem Tracked.crashed (h : Tracked k w) (hc : (w.run key).isSome → Settled k w) :
    Tracked k (w.leave key) := by
  cases hrun : w.run key with
  | none =>
    have hall : w.leave key = w := by
      have hsame : w.runs.filter (fun r => decide (r.key ≠ key)) = w.runs := by
        rw [filter_eq_self]
        intro r hr
        exact decide_eq_true (Table.get_none.mp hrun r hr)
      rw [World.leave, hsame]
    rw [hall]
    exact h
  | some r =>
    obtain ⟨hr, rfl⟩ := World.run_some hrun
    obtain ⟨hruns, hnone⟩ := h.alone hr
    have hsettled := hc (by rw [hrun]; rfl)
    rw [World.leave_alone hruns]
    exact { h with
      runStarts := by simp
      one := by
        rw [no_pending hnone]
        simp
      items := by simp
      mark := fun n c hget ht => .inl (hsettled n c hget ht)
      due := by simp
      pendingDue := fun job hjob hpending => absurd hpending (hnone job hjob) }

theorem Tracked.expired (h : Tracked k w) : Tracked k w.expire := by
  have hold : ∀ job ∈ w.expire.jobs, ∃ old ∈ w.jobs, job.id = old.id ∧ job.cursor = old.cursor ∧
      job.startedAt = old.startedAt ∧ (job.status = .pending ↔ old.status = .pending) := by
    intro job hjob
    obtain ⟨old, hmem, rfl⟩ := mem_map.mp hjob
    refine ⟨old, hmem, ?_⟩
    split
    · rename_i hrunning
      simp [hrunning.1]
    · simp
  have hnew : ∀ old ∈ w.jobs, ∃ job ∈ w.expire.jobs, job.id = old.id ∧ job.cursor = old.cursor ∧
      job.startedAt = old.startedAt ∧ (job.status = .pending ↔ old.status = .pending) := by
    intro old hmem
    refine ⟨_, mem_map_of_mem hmem, ?_⟩
    split
    · rename_i hrunning
      simp [hrunning.1]
    · simp
  constructor
  case ordered => exact h.ordered
  case past => exact h.past
  case fetched => exact h.fetched
  case jobIds =>
    have hids : w.expire.jobs.map DlRefreshJob.id = w.jobs.map DlRefreshJob.id := by
      rw [World.expire, map_map]
      refine map_congr_left fun job _ => ?_
      dsimp only [Function.comp]
      split <;> rfl
    rw [hids]
    exact h.jobIds
  case jobStarts =>
    intro job hjob t ht
    obtain ⟨old, hmem, -, -, hstart, -⟩ := hold job hjob
    exact h.jobStarts old hmem t (hstart ▸ ht)
  case runStarts =>
    intro r hr
    obtain ⟨hstarted, old, hmem, hid, hstart⟩ := h.runStarts r hr
    obtain ⟨job, hjob, hsame, -, hat, -⟩ := hnew old hmem
    exact ⟨hstarted, job, hjob, hsame.trans hid, hat.trans hstart⟩
  case one =>
    have hcount : (w.expire.jobs.filter fun job => decide (job.status = .pending)).length =
        (w.jobs.filter fun job => decide (job.status = .pending)).length := by
      rw [World.expire, filter_map, length_map]
      congr 1
      refine filter_congr fun job _ => ?_
      dsimp only [Function.comp]
      split
      · rename_i hrunning
        simp [hrunning.1]
      · rfl
    rw [hcount]
    exact h.one
  case items => exact h.items
  case reads => exact h.reads
  case mark =>
    intro n c hget ht
    refine (h.mark n c hget ht).imp id fun hwaits => ?_
    rcases hwaits with hahead | ⟨old, hmem, hpending, hbehind⟩
    · exact .inl hahead
    · obtain ⟨job, hjob, -, hcursor, -, hsame⟩ := hnew old hmem
      exact .inr ⟨job, hjob, hsame.mpr hpending, hcursor ▸ hbehind⟩
  case due => exact h.due
  case pendingDue =>
    intro job hjob hpending
    obtain ⟨old, hmem, -, hcursor, hstart, hsame⟩ := hold job hjob
    obtain ⟨t, ht, hdue⟩ := h.pendingDue old hmem (hsame.mp hpending)
    exact ⟨t, hstart.trans ht, hcursor ▸ hdue⟩

theorem watermark_sweep (id : Id) (startedAt : Time) (cache : Cache) :
    watermark (sweep id startedAt cache) = watermark cache := by
  rw [watermark, watermark, sweep, filterMap_map]
  congr 1
  refine filterMap_congr fun row _ => ?_
  dsimp only [Function.comp]
  split <;> rfl

theorem Tracked.finished (h : Tracked k w) (hr : r ∈ w.runs) : Tracked k (w.finish k r) := by
  unfold World.finish
  cases hphase : r.phase with
  | started => exact h
  | ready => exact h
  | fetched => exact h
  | drained =>
    obtain ⟨hruns, hnone⟩ := h.alone hr
    have hcompleted : ∀ job ∈ Table.set DlRefreshJob.id w.jobs r.jobId (fun job =>
        { job with status := .completed, leaseExpiresAt := none }), job.status ≠ .pending := by
      intro job hjob hpending
      rcases Table.mem_set.mp hjob with ⟨_, _, _, rfl⟩ | ⟨hmem, -⟩
      · cases hpending
      · exact hnone job hmem hpending
    have hread : ∀ n c, w.changes[n]? = some c → (∃ t ∈ watermark w.cache, c.at_ < t) →
        Reflected k w.changes w.cache n (c.id k) := by
      intro n c hget ht
      rcases h.mark n c hget ht with hreflected | hwaits
      · exact hreflected
      · have hahead := h.waits hr hwaits
        rw [Ahead, hphase] at hahead
        exact hahead.elim
    dsimp only
    rw [World.leave_alone (w := w.setJob r.jobId _) hruns]
    constructor
    case ordered => exact h.ordered
    case past => exact h.past
    case fetched =>
      intro row hrow t ht
      have hmark : ∀ cache, cache = w.cache ∨ cache = sweep k.id r.startedAt w.cache →
          row ∈ cache → ∃ old ∈ w.cache, row.columns.lastSuccessfulRead = old.columns.lastSuccessfulRead := by
        rintro cache (rfl | rfl) hmem
        · exact ⟨row, hmem, rfl⟩
        · obtain ⟨old, hold, rfl⟩ := mem_map.mp hmem
          refine ⟨old, hold, ?_⟩
          split <;> rfl
      obtain ⟨old, hold, hsame⟩ := hmark _ (by split <;> simp) hrow
      exact h.fetched old hold t (hsame ▸ ht)
    case jobIds =>
      refine (congrArg Nodup (setJob_ids _ _ ?_)).mpr h.jobIds
      exact fun _ => rfl
    case jobStarts =>
      intro job hjob t ht
      rcases Table.mem_set.mp hjob with ⟨old, hold, -, rfl⟩ | ⟨hmem, -⟩
      · exact h.jobStarts old hold t ht
      · exact h.jobStarts job hmem t ht
    case runStarts => simp
    case one => exact (Nat.zero_add _).trans_le ((no_pending hcompleted).trans_le (Nat.zero_le 1))
    case items => simp
    case reads => exact h.reads
    case mark =>
      intro n c hget ht
      left
      cases hforce : r.forceFull with
      | false =>
        rw [hforce] at ht
        exact hread n c hget ht
      | true =>
        rw [hforce] at ht
        rw [if_pos rfl] at ht ⊢
        rw [watermark_sweep] at ht
        exact (hread n c hget ht).sweep r.startedAt
    case due => simp
    case pendingDue => exact fun job hjob hpending => absurd hpending (hcompleted job hjob)

end

end FlowHub.ReadEngine
