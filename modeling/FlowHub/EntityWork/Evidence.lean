import FlowHub.EntityWork.Ownership

namespace FlowHub.EntityWork

open List

open Webhooks (seconds)

/-- The evidence there was when the read started that a task goes by. -/
def Task.seen (t : Task) : Option Nat :=
  match t.phase with
  | .reading _ seen | .read _ seen _ | .settling _ _ seen _ _ => some seen
  | _ => none

def Task.completes (t : Task) : Bool :=
  match t.phase with
  | .settling _ _ _ ending _ => decide (ending = .completed)
  | _ => false

/-- The evidence about a task's row that was committed once its read had started. -/
def World.unseen (w : World) (t : Task) : List Evidence :=
  t.seen.elim [] fun seen => (w.log.drop seen).filter fun e => decide (e.workId = t.workId)

/-- No receipt is marked processed, and no row completed, on a read older than its evidence. -/
def Observes (w : World) : Action → Prop
  | .flip key _ => ∀ t ∈ w.task key, t.completes = true → ∀ id ∈ t.turn, ∀ e ∈ w.unseen t,
      e.receiptId ≠ some id
  | .close key => ∀ t ∈ w.task key, t.completes = true → t.turn = none → w.unseen t = []
  | _ => True

instance (w : World) (a : Action) : Decidable (Observes w a) :=
  match a with
  | .flip key _ => inferInstanceAs (Decidable (∀ t ∈ w.task key, t.completes = true →
      ∀ id ∈ t.turn, ∀ e ∈ w.unseen t, e.receiptId ≠ some id))
  | .close key => inferInstanceAs (Decidable (∀ t ∈ w.task key, t.completes = true →
      t.turn = none → w.unseen t = []))
  | .enqueue .. | .claim .. | .load _ | .startRead _ | .endRead .. | .complete .. | .crash _
  | .recover .. | .flipRecovered .. | .webhook _ => isTrue trivial

/-- The object whose outcome a successful read decides, unless the session has committed. -/
def Task.stale (t : Task) (row : ChannelEntityWork) : Bool :=
  match t.phase with
  | .read (some object) _ .completed => row.superseded && !object.superseded
  | _ => false

/-- The read has been answered. -/
def Task.answered (t : Task) : Bool :=
  match t.phase with
  | .read _ _ .completed => true
  | _ => false

/-- Evidence about a running row is dated after its start, and comes before any completion of it
is decided; a worker completes only a row that is still its own, and decides from what the row
is at that moment. -/
def Timely (w : World) : Action → Prop
  | .enqueue new now => ∀ row ∈ new.existing w.db, row.status = .running →
      (∀ started ∈ row.startedAt, started < now) ∧
      ∀ t ∈ w.tasks, t.workId = row.id → Holder w t → t.completes = false
  | .complete key _ => ∀ t ∈ w.task key, t.answered = true → Holder w t ∧
      ∀ row ∈ w.db.work t.workId, t.stale row = false
  | .flip key _ | .close key => ∀ t ∈ w.task key, t.completes = true → Holder w t
  | _ => True

instance (w : World) (a : Action) : Decidable (Timely w a) :=
  match a with
  | .enqueue new now => inferInstanceAs (Decidable (∀ row ∈ new.existing w.db,
      row.status = .running → (∀ started ∈ row.startedAt, started < now) ∧
      ∀ t ∈ w.tasks, t.workId = row.id → Holder w t → t.completes = false))
  | .complete key _ => inferInstanceAs (Decidable (∀ t ∈ w.task key, t.answered = true →
      Holder w t ∧ ∀ row ∈ w.db.work t.workId, t.stale row = false))
  | .flip key _ | .close key => inferInstanceAs (Decidable (∀ t ∈ w.task key,
      t.completes = true → Holder w t))
  | .claim .. | .load _ | .startRead _ | .endRead .. | .crash _ | .recover .. | .flipRecovered ..
  | .webhook _ => isTrue trivial

/-- What is known of the evidence since a claim while the claim holds. -/
structure Watched (w : World) : Prop where
  ids : (w.db.works.map ChannelEntityWork.id).Nodup
  known : ∀ t, w.task t.key = some t → ∃ row, w.db.work t.workId = some row ∧ t.attempt ≤ row.attemptCount
  since : ∀ t, w.task t.key = some t → t.since ≤ w.log.length ∧ ∀ seen ∈ t.seen, t.since ≤ seen
  superseded : ∀ t, w.task t.key = some t → Holder w t → (∃ e ∈ w.log.drop t.since, e.workId = t.workId) →
    ∃ row, w.db.work t.workId = some row ∧ row.superseded = true
  settled : ∀ t, w.task t.key = some t → Holder w t → t.completes = true →
    ∀ e ∈ w.log.drop t.since, e.workId ≠ t.workId

section

variable {w : World} {t : Task} {phase : Phase} {a : Action}

theorem Watched.same (h : Watched w) (works : v.db.works = w.db.works) (tasks : v.tasks = w.tasks)
    (log : v.log = w.log) : Watched v := by
  have htask : v.task = w.task := by
    funext key
    rw [World.task, World.task, tasks]
  have hwork : v.db.work = w.db.work := by
    funext id
    rw [Db.work, Db.work, works]
  have hholder : ∀ t, Holder v t ↔ Holder w t := by
    intro t
    rw [Holder, Holder, hwork]
  refine ⟨works ▸ h.ids, ?_, ?_, ?_, ?_⟩
  · simpa only [htask, hwork] using h.known
  · simpa only [htask, log] using h.since
  · simpa only [htask, hwork, hholder, log] using h.superseded
  · simpa only [htask, hholder, log] using h.settled

theorem Watched.enter (h : Watched w) (ht : w.task t.key = some t)
    (seen : ∀ s ∈ ({ t with phase := phase } : Task).seen, t.since ≤ s)
    (settled : Holder w t → ({ t with phase := phase } : Task).completes = true →
      ∀ e ∈ w.log.drop t.since, e.workId ≠ t.workId) : Watched (w.enter t phase) where
  ids := h.ids
  known t' h' := by
    rcases enter_cases ht h' with rfl | ⟨-, hold⟩
    · exact h.known t ht
    · exact h.known t' hold
  since t' h' := by
    rcases enter_cases ht h' with rfl | ⟨-, hold⟩
    · exact ⟨(h.since t ht).1, seen⟩
    · exact h.since t' hold
  superseded t' h' holds hevidence := by
    rcases enter_cases ht h' with rfl | ⟨-, hold⟩
    · exact h.superseded t ht holds hevidence
    · exact h.superseded t' hold holds hevidence
  settled t' h' holds hdone := by
    rcases enter_cases ht h' with rfl | ⟨-, hold⟩
    · exact settled holds hdone
    · exact h.settled t' hold holds hdone

/-- A task that has ended has seen nothing and completes nothing. -/
theorem Watched.ended (h : Watched w) (ht : w.task t.key = some t) (raised : Bool) :
    Watched (w.enter t (.ended raised)) :=
  h.enter ht (fun _ hs => by cases hs) fun _ hdone => by cases hdone

/-- An update of rows that forgets no evidence a claim has still to look at. -/
structure Retains (rows : List ChannelEntityWork) (f : ChannelEntityWork → ChannelEntityWork) : Prop where
  id : ∀ r, (f r).id = r.id
  attempts : ∀ r, r.attemptCount ≤ (f r).attemptCount
  running : ∀ r ∈ rows, (f r).status = .running → (f r).attemptCount = r.attemptCount →
    r.status = .running ∧ (f r).workerId = r.workerId ∧ (r.superseded = true → (f r).superseded = true)

variable {f : ChannelEntityWork → ChannelEntityWork}

theorem Retains.ite {rows : List ChannelEntityWork}
    (hf : Retains rows f) (p : ChannelEntityWork → Prop) [DecidablePred p] :
    Retains rows fun r => if p r then f r else r where
  id r := by
    by_cases h : p r
    · simp [h, hf.id]
    · simp [h]
  attempts r := by
    by_cases h : p r
    · simp [h, hf.attempts]
    · simp [h]
  running r hr := by
    by_cases h : p r
    · simpa [h] using hf.running r hr
    · simp [h]

/-- A row that stops running has no claim left to hold. -/
theorem Retains.stops (id : ∀ r, (f r).id = r.id) (attempts : ∀ r, (f r).attemptCount = r.attemptCount)
    (stops : ∀ r, (f r).status ≠ .running) : Retains rows f :=
  ⟨id, fun r => (attempts r).ge, fun r _ hstatus => absurd hstatus (stops r)⟩

theorem Watched.rows (h : Watched w)
    (hf : Retains w.db.works f) : Watched { w with db := { w.db with works := w.db.works.map f } } := by
  have hwork : ∀ id, ({ w.db with works := w.db.works.map f } : Db).work id =
      (w.db.work id).map f := fun id => Table.get_map hf.id
  have hholder : ∀ t, w.task t.key = some t →
      Holder { w with db := { w.db with works := w.db.works.map f } } t →
      Holder w t ∧ ∀ row, w.db.work t.workId = some row → row.superseded = true →
        (f row).superseded = true := by
    intro t ht holds
    obtain ⟨row', hrow', hstatus, hworker, hattempt⟩ := holds
    obtain ⟨row, hrow, rfl⟩ := Option.map_eq_some_iff.mp ((hwork t.workId).symm.trans hrow')
    obtain ⟨known, hknown, hle⟩ := h.known t ht
    obtain rfl := Option.some.inj (hknown.symm.trans hrow)
    have hsame : (f known).attemptCount = known.attemptCount := by
      have := hf.attempts known
      omega
    obtain ⟨hrunning, hsameWorker, hkept⟩ :=
      hf.running known (Table.get_some hknown).1 hstatus hsame
    refine ⟨⟨known, hknown, hrunning, hsameWorker.symm.trans hworker, hsame.symm.trans hattempt⟩,
      fun row hrow hsuperseded => ?_⟩
    obtain rfl := Option.some.inj (hknown.symm.trans hrow)
    exact hkept hsuperseded
  refine ⟨?_, fun t ht => ?_, h.since, fun t ht holds hevidence => ?_, fun t ht holds => ?_⟩
  · have hids : (w.db.works.map f).map ChannelEntityWork.id = w.db.works.map ChannelEntityWork.id := by
      simp only [map_map]
      exact map_congr_left fun r _ => hf.id r
    exact hids ▸ h.ids
  · obtain ⟨row, hrow, hle⟩ := h.known t ht
    exact ⟨f row, by rw [hwork, hrow, Option.map_some], hle.trans (hf.attempts row)⟩
  · obtain ⟨hheld, hkept⟩ := hholder t ht holds
    obtain ⟨row, hrow, hsuperseded⟩ := h.superseded t ht hheld hevidence
    exact ⟨f row, by rw [hwork, hrow, Option.map_some], hkept row hrow hsuperseded⟩
  · exact h.settled t ht (hholder t ht holds).1

/-- The evidence of an enqueue, once the row shows it. -/
theorem Watched.logged (h : Watched w) (e : Evidence)
    (shown : ∀ t, w.task t.key = some t → Holder w t → e.workId = t.workId →
      t.completes = false ∧ ∃ row, w.db.work t.workId = some row ∧ row.superseded = true) :
    Watched { w with log := w.log ++ [e] } := by
  have hdrop : ∀ t, w.task t.key = some t → (w.log ++ [e]).drop t.since = w.log.drop t.since ++ [e] := by
    intro t ht
    exact drop_append_of_le_length (h.since t ht).1
  refine ⟨h.ids, h.known, fun t ht => ⟨?_, (h.since t ht).2⟩, fun t ht holds hevidence => ?_,
    fun t ht holds hdone e' he' => ?_⟩
  · have := (h.since t ht).1
    simp only [length_append, length_singleton]
    omega
  · obtain ⟨e', he', hid⟩ := hevidence
    rw [hdrop t ht] at he'
    rcases mem_append.mp he' with hold | hnew
    · exact h.superseded t ht holds ⟨e', hold, hid⟩
    · obtain rfl := mem_singleton.mp hnew
      exact (shown t ht holds hid).2
  · rw [hdrop t ht] at he'
    rcases mem_append.mp he' with hold | hnew
    · exact h.settled t ht holds hdone e' hold
    obtain rfl := mem_singleton.mp hnew
    intro hid
    have hopen := (shown t ht holds hid).1
    rw [hdone] at hopen
    cases hopen

theorem Watched.inserted (h : Watched w) (new : NewWork) :
    Watched { w with db := { w.db with works := w.db.works ++ [new.row w.db.nextId] } } := by
  have hkeeps : ∀ {id row}, w.db.work id = some row →
      ({ w.db with works := w.db.works ++ [new.row w.db.nextId] } : Db).work id = some row :=
    fun hrow => Table.get_append_of_some hrow
  have hholder : ∀ t, w.task t.key = some t → Holder
      { w with db := { w.db with works := w.db.works ++ [new.row w.db.nextId] } } t → Holder w t := by
    intro t ht holds
    obtain ⟨row, hrow, hrest⟩ := holds
    obtain ⟨known, hknown, -⟩ := h.known t ht
    obtain rfl := Option.some.inj ((hkeeps hknown).symm.trans hrow)
    exact ⟨known, hknown, hrest⟩
  refine ⟨?_, fun t ht => ?_, h.since, fun t ht holds hevidence => ?_, fun t ht holds => ?_⟩
  · rw [map_append, nodup_append]
    refine ⟨h.ids, by simp, fun id hid other hother heq => ?_⟩
    obtain rfl : other = w.db.nextId := by simpa [NewWork.row] using hother
    exact Table.next_notMem _ (heq ▸ hid)
  · obtain ⟨row, hrow, hle⟩ := h.known t ht
    exact ⟨row, hkeeps hrow, hle⟩
  · obtain ⟨row, hrow, hsuperseded⟩ := h.superseded t ht (hholder t ht holds) hevidence
    exact ⟨row, hkeeps hrow, hsuperseded⟩
  · exact h.settled t ht (hholder t ht holds)

theorem NewWork.existing_some {new : NewWork} {db : Db} {row : ChannelEntityWork}
    (h : new.existing db = some row) : row ∈ db.works ∧ row.active = true := by
  have hfound := find?_some h
  rw [Bool.and_eq_true] at hfound
  exact ⟨mem_of_find?_eq_some h, hfound.2⟩

/-- A running row shows the evidence it takes in. -/
theorem coalesce_superseded (new : NewWork) {now : Time} {row : ChannelEntityWork}
    (hstatus : row.status = .running) (late : ∀ started ∈ row.startedAt, started < now) :
    (new.coalesce now row).superseded = true := by
  cases hstarted : row.startedAt with
  | none => simp [ChannelEntityWork.superseded, NewWork.coalesce, hstatus, hstarted]
  | some started =>
    have := late started hstarted
    simp [ChannelEntityWork.superseded, NewWork.coalesce, hstatus, hstarted, this]

theorem coalesce_retains (new : NewWork) {now : Time} {existing : ChannelEntityWork}
    (ids : (w.db.works.map ChannelEntityWork.id).Nodup) (hmem : existing ∈ w.db.works)
    (late : existing.status = .running → ∀ started ∈ existing.startedAt, started < now) :
    Retains w.db.works fun r => if r.id = existing.id then new.coalesce now r else r where
  id r := by split <;> rfl
  attempts r := by split <;> rfl
  running r hr hstatus _ := by
    by_cases hid : r.id = existing.id
    · obtain rfl := inj_on_of_nodup_map ids hr hmem hid
      have hrunning : r.status = .running := by simpa [NewWork.coalesce] using hstatus
      have hshown := coalesce_superseded new hrunning (late hrunning)
      exact ⟨hrunning, by simp [NewWork.coalesce], fun _ => by simpa using hshown⟩
    · simp only [if_neg hid] at hstatus
      exact ⟨hstatus, by rw [if_neg hid], fun hold => by rwa [if_neg hid]⟩

theorem Watched.enqueue (h : Watched w) (new : NewWork) (now : Time)
    (timely : Timely w (.enqueue new now)) : Watched (w.enqueue new now) := by
  unfold World.enqueue
  split
  · cases hexisting : new.existing w.db with
    | none =>
      obtain ⟨more, hlink, -⟩ := linkReceipt_eq (new.row w.db.nextId).id new.receiptId
        { w.db with works := w.db.works ++ [new.row w.db.nextId] }
      simp only [enqueueEntityWork, hexisting, hlink]
      refine ((h.inserted new).logged ⟨w.db.nextId, new.receiptId⟩
        fun t ht _ hid => ?_).same rfl rfl rfl
      obtain ⟨row, hrow, -⟩ := h.known t ht
      obtain ⟨hmem, hrid⟩ := Table.get_some hrow
      have hfresh := Table.next_notMem (w.db.works.map ChannelEntityWork.id)
      have hused : w.db.nextId ∈ w.db.works.map ChannelEntityWork.id := by
        rw [show w.db.nextId = row.id from hid.trans hrid.symm]
        exact mem_map_of_mem hmem
      exact absurd hused hfresh
    | some existing =>
      obtain ⟨more, hlink, -⟩ := linkReceipt_eq existing.id new.receiptId
        (w.db.update existing.id (new.coalesce now))
      simp only [enqueueEntityWork, hexisting, hlink]
      obtain ⟨hmem, hactive⟩ := NewWork.existing_some hexisting
      have hretains := coalesce_retains new h.ids hmem fun hstatus =>
        (timely existing hexisting hstatus).1
      have hfound : w.db.work existing.id = some existing := Table.get_of_mem h.ids hmem
      have hnow : ∀ id, (w.db.update existing.id (new.coalesce now)).work id =
          (w.db.work id).map fun r => if r.id = existing.id then new.coalesce now r else r :=
        fun id => Table.get_map hretains.id
      refine ((h.rows hretains).logged ⟨existing.id, new.receiptId⟩
        fun t ht holds hid => ?_).same rfl rfl rfl
      replace hid : existing.id = t.workId := hid
      obtain ⟨row, hrow, hstatus, hworker, hattempt⟩ := holds
      replace hrow := (hnow t.workId).symm.trans hrow
      rw [← hid, hfound, Option.map_some, if_pos rfl] at hrow
      cases hrow
      have hrunning : existing.status = .running := hstatus
      have hheld : Holder w t := ⟨existing, hid ▸ hfound, hrunning, hworker, hattempt⟩
      obtain ⟨hlate, hopen⟩ := timely existing hexisting hrunning
      refine ⟨hopen t (Table.get_some ht).1 hid.symm hheld, new.coalesce now existing, ?_, ?_⟩
      · refine (hnow t.workId).trans ?_
        rw [← hid, hfound, Option.map_some, if_pos rfl]
      · exact coalesce_superseded new hrunning hlate
  · exact h

theorem Watched.started (h : Watched w)
    (fresh : ∀ t ∈ more, Holder w t ∧ t.phase = .claimed ∧ t.since = w.log.length) :
    Watched { w with tasks := w.tasks ++ more } := by
  have hcases : ∀ t, ({ w with tasks := w.tasks ++ more } : World).task t.key = some t →
      w.task t.key = some t ∨ t ∈ more := by
    intro t ht
    cases hold : w.task t.key with
    | some t' =>
      left
      exact (Table.get_append_of_some hold).symm.trans ht
    | none =>
      right
      exact (Table.get_some ((Table.get_append_of_none hold).symm.trans ht)).1
  refine ⟨h.ids, fun t ht => ?_, fun t ht => ?_, fun t ht holds hevidence => ?_, fun t ht holds hdone => ?_⟩
  · rcases hcases t ht with hold | hnew
    · exact h.known t hold
    · obtain ⟨row, hrow, -, -, hattempt⟩ := (fresh t hnew).1
      exact ⟨row, hrow, hattempt.ge⟩
  · rcases hcases t ht with hold | hnew
    · exact h.since t hold
    · obtain ⟨-, hphase, hsince⟩ := fresh t hnew
      exact ⟨hsince.le, by simp [Task.seen, hphase]⟩
  · rcases hcases t ht with hold | hnew
    · exact h.superseded t hold holds hevidence
    · obtain ⟨e, he, -⟩ := hevidence
      rw [(fresh t hnew).2.2, drop_length] at he
      cases he
  · rcases hcases t ht with hold | hnew
    · exact h.settled t hold holds hdone
    · simp [Task.completes, (fresh t hnew).2.1] at hdone

theorem Watched.claim (h : Watched w) (worker : String) (limit leaseSeconds : Nat) (now : Time)
    (locked : List Nat) : Watched (w.claim worker limit leaseSeconds now locked) := by
  have hclaimed : Retains w.db.works fun r => r.claimed worker leaseSeconds now :=
    ⟨fun _ => rfl, fun r => Nat.le_succ r.attemptCount, fun r _ _ hsame =>
      absurd hsame (Nat.succ_ne_self r.attemptCount)⟩
  have hrows := h.rows (hclaimed.ite fun r => r ∈ claimCandidates limit locked now w.db)
  refine hrows.started fun t ht => ?_
  obtain ⟨claimed, hmem, rfl⟩ := mem_map.mp ht
  obtain ⟨row, hrow, rfl⟩ := mem_map.mp hmem
  refine ⟨⟨row.claimed worker leaseSeconds now, ?_, rfl, rfl, rfl⟩, rfl, rfl⟩
  have hget : w.db.work row.id = some row := Table.get_of_mem h.ids (mem_claimCandidates hrow).1
  refine (Table.get_map (hclaimed.ite _).id).trans ?_
  refine (congrArg (Option.map _) hget).trans ?_
  rw [Option.map_some, if_pos hrow]

theorem Watched.recover (h : Watched w) (limit : Nat) (now : Time) : Watched (w.recover limit now) := by
  have hrecovered : Retains w.db.works fun r => r.recovered now := by
    refine .stops ?_ ?_ ?_
    all_goals
      intro r
      unfold ChannelEntityWork.recovered
      split
    all_goals simp
  exact (h.rows (hrecovered.ite fun r => r ∈ recoverable limit now w.db)).same rfl rfl rfl

theorem Watched.reading (h : Watched w) (ht : w.task t.key = some t) :
    Watched (w.load t) ∧ Watched (w.startRead t) ∧
      ∀ committed outcome, Watched (w.endRead t committed outcome) := by
  have plain : ∀ {phase : Phase}, ({ t with phase := phase } : Task).seen = none →
      ({ t with phase := phase } : Task).completes = false → Watched (w.enter t phase) := by
    intro phase hseen hopen
    refine h.enter ht (fun s hs => ?_) fun _ hdone => ?_
    · rw [hseen] at hs
      cases hs
    · rw [hopen] at hdone
      cases hdone
  have later : ∀ {phase : Phase} {seen : Nat}, ({ t with phase := phase } : Task).seen = some seen →
      t.since ≤ seen → ({ t with phase := phase } : Task).completes = false →
      Watched (w.enter t phase) := by
    intro phase seen hseen hle hopen
    refine h.enter ht (fun s hs => ?_) fun _ hdone => ?_
    · rw [hseen] at hs
      cases hs
      exact hle
    · rw [hopen] at hdone
      cases hdone
  have hsince := h.since t ht
  refine ⟨?_, ?_, fun committed outcome => ?_⟩
  · unfold World.load
    split
    · split
      · split
        · exact plain rfl rfl
        · exact plain rfl rfl
      · exact plain rfl rfl
    · exact h
  · unfold World.startRead
    split
    · exact later rfl hsince.1 rfl
    · exact h
  · unfold World.endRead
    split
    · rename_i hphase
      exact later rfl (hsince.2 _ (by simp [Task.seen, hphase])) rfl
    · exact later rfl hsince.1 rfl
    · exact h

/-- A completion is decided only where no evidence has come since the claim. -/
theorem Watched.complete (h : Watched w) (ht : w.task t.key = some t) (now : Time)
    (timely : Timely w (.complete t.key now)) : Watched (w.complete t now) := by
  unfold World.complete
  split
  · rename_i object seen outcome hphase
    have hseen : t.seen = some seen := by simp [Task.seen, hphase]
    split
    · exact h.ended ht _
    rename_i work hwork
    refine h.enter ht (fun s hs => ?_) fun holds hdone e he hid => ?_
    · cases hs
      exact (h.since t ht).2 seen hseen
    have hending : endingOf work outcome = .completed := of_decide_eq_true hdone
    obtain ⟨row, hrow, hsuperseded⟩ := h.superseded t ht holds ⟨e, he, hid⟩
    cases outcome with
    | failed category =>
      simp only [endingOf] at hending
      split at hending <;> cases hending
    | completed =>
      have hcalm : work.superseded = false := by
        cases hw : work.superseded with
        | false => rfl
        | true => simp [endingOf, hw] at hending
      obtain ⟨-, hfresh⟩ := timely t ht (by simp [Task.answered, hphase])
      cases object with
      | none =>
        obtain rfl := Option.some.inj (hrow.symm.trans hwork)
        rw [hsuperseded] at hcalm
        cases hcalm
      | some object =>
        obtain rfl : object = work := Option.some.inj hwork
        have := hfresh row hrow
        simp [Task.stale, hphase, hsuperseded, hcalm] at this
  · exact h

theorem Watched.flip (h : Watched w) (ht : w.task t.key = some t) (now : Time) : Watched (w.flip t now) := by
  unfold World.flip
  split
  · rename_i flipped receiptId rest seen ending at_ hphase
    split
    · rename_i db hflip
      have hsettled := h.settled t ht
      have hseen : t.seen = some seen := by simp [Task.seen, hphase]
      have hmoved : Watched { w with db := db } := h.same (flipReceipt_works hflip) rfl rfl
      refine hmoved.enter ht (fun s hs => ?_) fun holds hdone => ?_
      · cases hs
        exact (h.since t ht).2 seen hseen
      · have hending : ending = .completed := of_decide_eq_true hdone
        refine hsettled ?_ (by simp [Task.completes, hphase, hending])
        rw [Holder, Db.work, flipReceipt_works hflip] at holds
        exact holds
    · exact h.ended ht _
  · exact h

/-- Nobody holds a row its completion has just closed, so a closing commit hides no evidence. -/
theorem Watched.close (h : Watched w) (ht : w.task t.key = some t) : Watched (w.close t) := by
  unfold World.close
  split
  · rename_i flipped seen ending now _
    have hended : Watched (w.enter t (.ended false)) := h.ended ht _
    unfold settle
    split
    · rename_i hsettle
      split at hsettle
      · cases hsettle
      cases hsettle
      have hstops : Retains w.db.works fun r => ending.apply now r := by
        refine .stops ?_ ?_ ?_
        all_goals
          intro r
          cases ending <;> simp [Ending.apply]
      exact hended.rows (hstops.ite fun r => r.id = t.workId)
    · exact h.ended ht _
  · exact h

theorem Watched.step (h : Watched w) (timely : Timely w a) : Watched (step w a) := by
  cases a with
  | enqueue new now => exact h.enqueue new now timely
  | claim worker limit leaseSeconds now locked => exact h.claim worker limit leaseSeconds now locked
  | load key => exact onTask_cases key _ h fun t ht _ => (h.reading ht).1
  | startRead key => exact onTask_cases key _ h fun t ht _ => (h.reading ht).2.1
  | endRead key committed outcome =>
    exact onTask_cases key (fun w t => w.endRead t committed outcome) h fun t ht _ =>
      (h.reading ht).2.2 committed outcome
  | complete key now =>
    refine onTask_cases key (fun w t => w.complete t now) h fun t ht hkey => h.complete ht now ?_
    rw [hkey]
    exact timely
  | flip key now => exact onTask_cases key (fun w t => w.flip t now) h fun t ht _ => h.flip ht now
  | close key => exact onTask_cases key _ h fun t ht _ => h.close ht
  | crash key =>
    exact onTask_cases key (fun w t => w.enter t (.ended false)) h fun t ht _ =>
      h.ended ht _
  | recover limit now => exact h.recover limit now
  | flipRecovered workId receiptId now =>
    change Watched (w.flipRecovered workId receiptId now)
    unfold World.flipRecovered
    split
    · split
      · rename_i hflip
        exact h.same (flipReceipt_works hflip) rfl rfl
      · exact h
    · exact h
  | webhook a => exact h.same rfl rfl rfl

theorem Initial.watched (h : Initial w) : Watched w where
  ids := by rw [h.works]; simp
  known t ht := by simp [World.task, h.tasks, Table.get] at ht
  since t ht := by simp [World.task, h.tasks, Table.get] at ht
  superseded t ht := by simp [World.task, h.tasks, Table.get] at ht
  settled t ht := by simp [World.task, h.tasks, Table.get] at ht

theorem Watched.unseen (h : Watched w) (ht : w.task t.key = some t) (holds : Holder w t)
    (hdone : t.completes = true) : w.unseen t = [] := by
  unfold World.unseen
  cases hseen : t.seen with
  | none => rfl
  | some seen =>
    have hle := (h.since t ht).2 seen hseen
    refine filter_eq_nil_iff.mpr fun e he hid => ?_
    have hmem : e ∈ w.log.drop t.since := (drop_sublist_drop_left w.log hle).subset he
    exact h.settled t ht holds hdone e hmem (of_decide_eq_true hid)

theorem Watched.observes (h : Watched w) (timely : Timely w a) : Observes w a := by
  cases a with
  | flip key now =>
    intro t ht hdone id _ e he
    obtain rfl := (Table.get_some ht).2
    rw [h.unseen ht (timely t ht hdone) hdone] at he
    cases he
  | close key =>
    intro t ht hdone _
    obtain rfl := (Table.get_some ht).2
    exact h.unseen ht (timely t ht hdone) hdone
  | _ => trivial

/-- With evidence dated after the row's start and none between a completion's decision and its
commit, with workers that complete only what is still theirs and decide on the row as it is: no
row is completed, and no receipt processed, on a read older than its evidence. -/
theorem newest_observed (start : Initial w) (actions : List Action)
    (cond : Throughout Timely w actions) : Throughout Observes w actions :=
  Throughout.of_invariant (fun _ _ h timely => h.step timely) (fun _ _ h timely => h.observes timely)
    start.watched cond

end

namespace Sample

def first : List Action := [.enqueue (product 1) 0, .claim "a" 25 10 0 [], .load (1, 1)]

def finish (attempt : Nat) (now : Time) : List Action :=
  [.complete (1, attempt) now, .flip (1, attempt) now, .flip (1, attempt) now, .close (1, attempt)]

/-- The provider has no page for the product, so nothing is stored, and the session goes by the
row it loaded before the evidence came. -/
def kept : List Action :=
  first ++ [.startRead (1, 1), .enqueue (product 2) (seconds 5), .endRead (1, 1) false .completed] ++
    finish 1 (seconds 6)

/-- The evidence comes between the decision and the closing commit. -/
def between : List Action :=
  first ++ [.startRead (1, 1), .endRead (1, 1) true .completed, .complete (1, 1) (seconds 5),
    .flip (1, 1) (seconds 5), .enqueue (product 2) (seconds 6), .close (1, 1)]

/-- The enqueue has read its clock before the claim has. -/
def earlyClock : List Action :=
  [.enqueue (product 1) 0, .claim "a" 25 10 (seconds 2) [], .load (1, 1), .startRead (1, 1),
    .enqueue (product 2) (seconds 1), .endRead (1, 1) true .completed] ++ finish 1 (seconds 3)

/-- A second claim clears the evidence that the first worker has not seen. -/
def reclaimed : List Action :=
  first ++ [.startRead (1, 1), .enqueue (product 2) (seconds 5), .recover 200 (seconds 20),
    .claim "b" 25 10 (seconds 20) [], .endRead (1, 1) true .completed] ++ finish 1 (seconds 21)

def requeued : List Action :=
  first ++ [.startRead (1, 1), .enqueue (product 2) (seconds 5), .endRead (1, 1) true .completed,
    .complete (1, 1) (seconds 6), .close (1, 1), .claim "b" 25 10 (seconds 20) [], .load (1, 2),
    .startRead (1, 2), .endRead (1, 2) true .completed] ++ finish 2 (seconds 21)

end Sample

open Sample

/-- Each of the four ways to complete a row on a read older than its evidence. -/
theorem newest_not_observed : Initial deliveries ∧
    (¬ Throughout Observes deliveries Sample.kept ∧
      (run deliveries Sample.kept).db.webhooks.receipts.map (·.processingState) = [.processed, .processed]) ∧
    ¬ Throughout Observes deliveries between ∧
    ¬ Throughout Observes deliveries earlyClock ∧
    ¬ Throughout Observes deliveries reclaimed := by
  refine ⟨deliveries_initial, ⟨?_, ?_⟩, ?_, ?_, ?_⟩
  all_goals decide +kernel

theorem newest_observed_requeued : Throughout Observes deliveries requeued ∧
    (run deliveries requeued).db.webhooks.receipts.map (·.processingState) = [.processed, .processed] :=
  ⟨newest_observed deliveries_initial requeued (by decide +kernel), by decide +kernel⟩

end FlowHub.EntityWork
