import FlowHub.Python.Encoding
import FlowHub.SourceAcquisition.Lifecycle

namespace FlowHub.SourceAcquisition

open Python List Except

theorem Intent.json_injective : Function.Injective Intent.json := by
  intro a b h
  simp only [Intent.json, Json.obj.injEq, cons.injEq, Prod.mk.injEq, Json.str.injEq, true_and, and_true] at h
  obtain ⟨hparent, hpayload, hscope, hkind⟩ := h
  have hparent : a.parentRunId = b.parentRunId := by
    cases ha : a.parentRunId <;> cases hb : b.parentRunId <;> simp_all [Json.ofOption]
  cases a
  cases b
  simp_all

/-- What a request comes to whenever its Source is active. -/
def Repeats (u : Unicode) (runs : List AcquisitionRun) (ask : Ask) (normal : Normal) : Prop :=
  ∀ sources, sources normal.sourceId = some .active → receive u sources runs ask = .ok normal

section

variable {runs runs' : List AcquisitionRun} {ask : Ask}

theorem checkSource_ok : checkSource sources sourceId = .ok () ↔ sources sourceId = some .active := by
  unfold checkSource
  split <;> simp_all

theorem normalize_sourceId
    (h : normalize u sourceId kind scope key correlationId payload parent = .ok normal) :
    normal.sourceId = sourceId := by
  unfold normalize at h
  obtain ⟨_, _, h⟩ := Txn.bind_eq_ok.mp h
  obtain ⟨_, _, h⟩ := Txn.bind_eq_ok.mp h
  obtain ⟨_, _, h⟩ := Txn.bind_eq_ok.mp h
  cases h
  rfl

theorem receive_repeats (h : receive u sources runs ask = .ok normal) : Repeats u runs ask normal := by
  intro sources' hactive
  cases ask with
  | request sourceId kind scope key correlationId payload =>
    obtain ⟨_, _, hnormal⟩ := Txn.bind_eq_ok.mp h
    rw [normalize_sourceId hnormal] at hactive
    exact Txn.bind_eq_ok.mpr ⟨(), checkSource_ok.mpr hactive, hnormal⟩
  | retry runId key correlationId =>
    obtain ⟨parent, hparent, h⟩ := Txn.bind_eq_ok.mp h
    obtain ⟨_, _, hnormal⟩ := Txn.bind_eq_ok.mp h
    rw [normalize_sourceId hnormal] at hactive
    exact Txn.bind_eq_ok.mpr ⟨parent, hparent, Txn.bind_eq_ok.mpr ⟨(), checkSource_ok.mpr hactive, hnormal⟩⟩

theorem retryParent_ok : retryParent runs runId = .ok parent ↔
      lockedRun runs runId = .ok parent ∧ parent.status.retryable = true := by
  unfold retryParent
  rw [Txn.bind_eq_ok]
  constructor
  · rintro ⟨row, hrow, h⟩
    split at h
    · cases h
      exact ⟨hrow, ‹_›⟩
    · cases h
  · intro ⟨hrow, hretryable⟩
    exact ⟨parent, hrow, if_pos hretryable⟩

/-- The runs that are over stay as they are. -/
def RestOver (runs runs' : List AcquisitionRun) : Prop :=
  ∀ runId row, lockedRun runs runId = .ok row → row.status.active = false → lockedRun runs' runId = .ok row

theorem retryable_over {status : RunStatus} (h : status.retryable = true) : status.active = false := by
  cases status <;> first | rfl | cases h

theorem Repeats.later (h : Repeats u runs ask normal) (hrest : RestOver runs runs') :
    Repeats u runs' ask normal := by
  intro sources hactive
  have hreceive := h sources hactive
  cases ask with
  | request => exact hreceive
  | retry runId key correlationId =>
    obtain ⟨parent, hparent, hafter⟩ := Txn.bind_eq_ok.mp hreceive
    obtain ⟨hrow, hretryable⟩ := retryParent_ok.mp hparent
    have hkept := hrest runId parent hrow (retryable_over hretryable)
    exact Txn.bind_eq_ok.mpr ⟨parent, retryParent_ok.mpr ⟨hkept, hretryable⟩, hafter⟩

end

/-- What is known of a request under way. -/
def Pending (u : Unicode) (hash : Hashing) (runs : List AcquisitionRun) : Task → Prop
  | .looked ask normal => Repeats u runs ask normal
  | .prepared ask normal row => Repeats u runs ask normal ∧
      ∃ rowId correlationId attempt now, row = newRun hash normal rowId correlationId attempt now

theorem Pending.later {hash : Hashing}
    (h : Pending u hash runs task) (hrest : RestOver runs runs') : Pending u hash runs' task := by
  cases task with
  | looked => exact Repeats.later h hrest
  | prepared => exact ⟨h.1.later hrest, h.2⟩

theorem prepareRun_ok {hash : Hashing} (h : prepareRun u hash runs normal rowId now = .ok row) :
    ∃ correlationId attempt, row = newRun hash normal rowId correlationId attempt now := by
  unfold prepareRun at h
  split at h
  · cases h
  · obtain ⟨correlationId, _, rfl⟩ := Txn.map_eq_ok.mp h
    exact ⟨_, _, rfl⟩

section

variable {u : Unicode} {hash : Hashing} {w w' : World} {event : Event}

theorem step_pending (h : Step u hash w event w') (hw : ∀ task ∈ w.tasks, Pending u hash w.runs task) :
    ∀ task ∈ w'.tasks, Pending u hash w.runs task := by
  cases h with
  | look h =>
    intro task hmem
    rcases mem_append.mp hmem with hold | hnew
    · exact hw task hold
    · rw [mem_singleton] at hnew
      rw [hnew]
      exact receive_repeats h
  | @prepare before rest ask normal rowId now row htasks h =>
    intro task hmem
    rw [htasks] at hw
    simp only [mem_append, mem_cons] at hw hmem
    rcases hmem with hold | rfl | hold
    · exact hw task (.inl hold)
    · obtain ⟨correlationId, attempt, hrow⟩ := prepareRun_ok h
      exact ⟨hw _ (.inr (.inl rfl)), rowId, correlationId, attempt, now, hrow⟩
    · exact hw task (.inr (.inr hold))
  | conflict htasks | insert htasks | resolve htasks | crash htasks =>
    intro task hmem
    rw [htasks] at hw
    simp only [mem_append, mem_cons] at hw hmem
    rcases hmem with hold | hold
    · exact hw task (.inl hold)
    · exact hw task (.inr (.inr hold))
  | call | abandon | source | refuse | replay => exact hw

/-- What holds of every reachable world. -/
structure Sound (u : Unicode) (hash : Hashing) (w : World) : Prop where
  apart : Apart w.runs
  owned : Owned w
  uncancelled : ∀ row ∈ w.runs, row.status = .succeeded → row.cancellationRequestedAt = none
  traced : Traced hash w
  pending : ∀ task ∈ w.tasks, Pending u hash w.runs task
  repeats : ∀ creation ∈ w.created, Repeats u w.runs creation.ask creation.normal

variable {row : AcquisitionRun}

variable {answer : Except Fault AcquisitionRun}

theorem Moves.over (hm : Moves u event w w' begun write) (hrow : row ∈ w.runs)
    (hover : row.status.active = false) : row ∈ w'.runs := by
  rw [hm.runs, ← (hm.move row hrow).of_terminal hover]
  exact mem_map_of_mem hrow

theorem restOver_of_mem (apart : Apart runs')
    (h : ∀ row ∈ runs, row.status.active = false → row ∈ runs') : RestOver runs runs' := by
  intro runId row hlocked hover
  obtain ⟨hrow, hid⟩ := locked_id hlocked
  rw [lockedRun_ok, ← hid]
  exact Table.get_of_mem apart.distinct (h row hrow hover)

theorem Inserts.row_new {ask : Ask} {normal : Normal}
    (hi : Inserts w w' ask normal row) (hw : ∀ task ∈ w.tasks, Pending u hash w.runs task) :
    Repeats u w.runs ask normal ∧ Matches hash ⟨row.id, ask, normal⟩ row ∧
      row.status = .queued ∧ row.workerId = none ∧ row.cancellationRequestedAt = none := by
  obtain ⟨hrepeats, rowId, correlationId, attempt, now, hrow⟩ := hw _ hi.prepared
  rw [hrow]
  exact ⟨hrepeats, ⟨rfl, rfl, rfl, rfl, rfl⟩, rfl, rfl, rfl⟩

theorem Sound.map (h : Sound u hash w) (hm : Moves u event w w' begun write)
    (hpending : ∀ task ∈ w'.tasks, Pending u hash w.runs task) : Sound u hash w' := by
  have apart := h.apart.map hm
  have hrest : RestOver w.runs w'.runs := restOver_of_mem apart fun _ hrow hover => hm.over hrow hover
  constructor
  case apart => exact apart
  case owned => exact h.owned.map hm
  case traced => exact h.traced.map hm
  case pending =>
    intro task htask
    exact (hpending task htask).later hrest
  case repeats =>
    rw [hm.created]
    intro creation hc
    exact (h.repeats creation hc).later hrest
  case uncancelled =>
    rw [hm.runs]
    intro row' hrow' hdone
    obtain ⟨row, hrow, rfl⟩ := mem_map.mp hrow'
    exact (hm.move row hrow).succeeded (h.uncancelled row hrow) hdone

theorem Sound.insert {ask : Ask} {normal : Normal} (h : Sound u hash w)
    (hi : Inserts w w' ask normal row) (hpending : ∀ task ∈ w'.tasks, Pending u hash w.runs task) :
    Sound u hash w' := by
  obtain ⟨hrepeats, hmatches, hqueued, hworker, hasked⟩ := hi.row_new h.pending
  have apart : Apart w'.runs := hi.runs ▸ h.apart.append hi.free
  have hrest : RestOver w.runs w'.runs := by
    apply restOver_of_mem apart
    intro r hr _
    rw [hi.runs]
    exact mem_append_left _ hr
  constructor
  case apart => exact apart
  case owned => exact h.owned.insert hi ⟨hqueued, hworker⟩
  case traced => exact h.traced.insert hi hmatches
  case pending =>
    intro task htask
    exact (hpending task htask).later hrest
  case repeats =>
    rw [hi.created]
    intro creation hc
    rcases mem_append.mp hc with hold | hnew
    · exact (h.repeats creation hold).later hrest
    · rw [mem_singleton] at hnew
      rw [hnew]
      exact hrepeats.later hrest
  case uncancelled =>
    rw [hi.runs]
    intro r hr hdone
    rcases mem_append.mp hr with hold | hnew
    · exact h.uncancelled r hold hdone
    · rw [mem_singleton] at hnew
      rw [hnew, hasked]

theorem Sound.step (h : Sound u hash w) (hstep : Step u hash w event w') : Sound u hash w' := by
  have hpending := step_pending hstep h.pending
  rcases step_does h.apart.distinct hstep with ⟨begun, write, hm⟩ | ⟨ask, normal, row, hi⟩
  · exact h.map hm hpending
  · exact h.insert hi hpending

theorem reachable_sound (h : Reachable u hash w) : Sound u hash w := by
  induction h with
  | init sources =>
    refine ⟨.nil, ⟨?_, ?_, ?_⟩, ?_, ⟨?_, ?_⟩, ?_, ?_⟩ <;> intro a ha <;> cases ha
  | step _ hstep ih => exact ih.step hstep

def Leads (u : Unicode) (hash : Hashing) : World → World → Prop :=
  Relation.ReflTransGen fun w w' => ∃ event, Step u hash w event w'

theorem Reachable.leads (h : Reachable u hash w) (hleads : Leads u hash w w') : Reachable u hash w' := by
  induction hleads with
  | refl => exact h
  | tail _ hstep ih =>
    obtain ⟨_, hstep⟩ := hstep
    exact .step ih hstep

/-- A run that is over is never written again. -/
theorem terminal_kept (h : Reachable u hash w) (hleads : Leads u hash w w')
    (hrow : row ∈ w.runs) (hover : row.status.active = false) : row ∈ w'.runs := by
  induction hleads with
  | refl => exact hrow
  | tail hbefore hstep ih =>
    obtain ⟨_, hstep⟩ := hstep
    have hsound := reachable_sound (h.leads hbefore)
    rcases step_does hsound.apart.distinct hstep with ⟨_, _, hm⟩ | ⟨_, _, _, hi⟩
    · exact hm.over ih hover
    · rw [hi.runs]
      exact mem_append_left _ ih

/-- A request to cancel stays with its run. -/
theorem request_kept (h : Reachable u hash w) (hleads : Leads u hash w w')
    (hrow : row ∈ w.runs) (hasked : row.cancellationRequestedAt.isSome) :
    ∃ row' ∈ w'.runs, row'.id = row.id ∧ row'.cancellationRequestedAt.isSome := by
  induction hleads with
  | refl => exact ⟨row, hrow, rfl, hasked⟩
  | tail hbefore hstep ih =>
    obtain ⟨_, hstep⟩ := hstep
    obtain ⟨row', hrow', hid, hasked'⟩ := ih
    have hsound := reachable_sound (h.leads hbefore)
    rcases step_does hsound.apart.distinct hstep with ⟨_, _, hm⟩ | ⟨_, _, _, hi⟩
    · have hmove := hm.move row' hrow'
      rw [hm.runs]
      exact ⟨_, mem_map_of_mem hrow', hmove.sameRun.id.trans hid, hmove.asked hasked'⟩
    · rw [hi.runs]
      exact ⟨row', mem_append_left _ hrow', hid, hasked'⟩

/-- At most one run of each scope of a Source is queued or running. -/
def SingleActive (runs : List AcquisitionRun) : Prop :=
  ∀ a ∈ runs, ∀ b ∈ runs, a.sourceId = b.sourceId → a.resourceScope = b.resourceScope →
    a.status.active = true → b.status.active = true → a = b

/-- The attempts under one root run have numbers of their own. -/
def DistinctAttempts (runs : List AcquisitionRun) : Prop :=
  ∀ a ∈ runs, ∀ b ∈ runs, a.rootRunId = b.rootRunId → a.attemptNumber = b.attemptNumber → a = b

/-- Only the one worker that has started a run makes it succeed or fail, under a lease that has not
run out. -/
def EndedByHolder (u : Unicode) (w : World) (event : Event) (w' : World) : Prop :=
  ∀ row' ∈ w'.runs, row'.status = .succeeded ∨ row'.status = .failed → row' ∈ w.runs ∨
    ∃ row ∈ w.runs, row.id = row'.id ∧ ∃ call answer worker name now,
      event = .called call answer ∧ call.runId = row.id ∧ call.finisher = some (worker, now) ∧
        workerId u worker = .ok name ∧ Holds row name now ∧
          ∀ other, (row.id, other) ∈ w.started ↔ other = name

/-- Two requests under one key of a scope. -/
structure SameKey (a b : Normal) : Prop where
  keyed : a.idempotencyKey.isSome
  key : a.idempotencyKey = b.idempotencyKey
  sourceId : a.sourceId = b.sourceId
  resourceScope : a.intent.resourceScope = b.intent.resourceScope

/-- What a call is answered from the runs that are there under its key. -/
def lookup (u : Unicode) (hash : Hashing) (w : World) (ask : Ask) : Option (Except Fault AcquisitionRun) :=
  match receive u w.sources w.runs ask with
  | .error fault => some (.error fault)
  | .ok normal => replay hash w.runs normal

def AnswersByIntent (hash : Hashing) (w : World) (event : Event) (w' : World) : Prop :=
  ∀ normal answer, normal.idempotencyKey.isSome → event = .answered normal answer →
    (∀ row, answer = .ok row → row ∈ w'.runs ∧ ∃ creation ∈ w'.created,
      Matches hash creation row ∧ SameKey normal creation.normal ∧ creation.normal.intent = normal.intent) ∧
    (answer = .error "idempotency_key_conflict" → ∃ creation ∈ w.created,
      SameKey normal creation.normal ∧ creation.normal.intent ≠ normal.intent)

/-- A request under a key that has a run is answered by the intent, and the request that the run was
created for with the run, as long as its Source is active. -/
def RepeatsFirst (u : Unicode) (hash : Hashing) (w : World) : Prop :=
  ∀ creation ∈ w.created, ∃ row ∈ w.runs, Matches hash creation row ∧
    (∀ ask normal, receive u w.sources w.runs ask = .ok normal → SameKey normal creation.normal →
      (normal.intent = creation.normal.intent → lookup u hash w ask = some (.ok row)) ∧
      (normal.intent ≠ creation.normal.intent →
        lookup u hash w ask = some (.error "idempotency_key_conflict"))) ∧
    (creation.normal.idempotencyKey.isSome → w.sources creation.normal.sourceId = some .active →
      lookup u hash w creation.ask = some (.ok row))

theorem Apart.singleActive (h : Apart runs) : SingleActive runs := by
  intro a ha b hb hsource hscope hacta hactb
  apply h.eq_of_clashes ha hb
  simp [clashes, hsource, hscope, hacta, hactb]

theorem Apart.distinctAttempts (h : Apart runs) : DistinctAttempts runs := by
  intro a ha b hb hroot hattempt
  apply h.eq_of_clashes ha hb
  simp [clashes, hroot, hattempt]

theorem Move.finished
    (h : Move u row event begun row') (hdone : row'.status = .succeeded ∨ row'.status = .failed) :
    row' = row ∨ ∃ call answer worker name now, event = .called call answer ∧ call.runId = row.id ∧
      call.finisher = some (worker, now) ∧ workerId u worker = .ok name ∧ Holds row name now := by
  cases h with
  | rest => exact .inl rfl
  | renew hrunning => simp [hrunning] at hdone
  | ask hrunning => simp [hrunning] at hdone
  | finish hid hcall hname hholds => exact .inr ⟨_, _, _, _, _, rfl, hid, hcall, hname, hholds⟩
  | _ => simp [ended, abandoned] at hdone

theorem step_endedByHolder (h : Sound u hash w) (hstep : Step u hash w event w') :
    EndedByHolder u w event w' := by
  intro row' hrow' hdone
  rcases step_does h.apart.distinct hstep with ⟨begun, write, hm⟩ | ⟨ask, normal, row, hi⟩
  · rw [hm.runs] at hrow'
    obtain ⟨row, hrow, rfl⟩ := mem_map.mp hrow'
    rcases (hm.move row hrow).finished hdone with hsame | ⟨call, answer, worker, name, now, hends⟩
    · rw [hsame]
      exact .inl hrow
    obtain ⟨hevent, hid, hcall, hname, hholds⟩ := hends
    refine .inr ⟨row, hrow, (hm.move row hrow).sameRun.id.symm, call, answer, worker, name, now,
      hevent, hid, hcall, hname, hholds, ?_⟩
    intro other
    rw [← h.owned.worker row hrow, hholds.2.1]
    simp [eq_comm]
  · rw [hi.runs] at hrow'
    rcases mem_append.mp hrow' with hold | hnew
    · exact .inl hold
    · obtain ⟨-, -, hqueued, -⟩ := hi.row_new h.pending
      rw [mem_singleton] at hnew
      simp [hnew, hqueued] at hdone

/-- The answer of a row under the key of a request. -/
def answerOf (hash : Hashing) (normal : Normal) (row : AcquisitionRun) : Except Fault AcquisitionRun :=
  if row.requestFingerprint ≠ fingerprint hash normal then .error "idempotency_key_conflict" else .ok row

theorem replay_some (h : replay hash runs normal = some answer) :
    ∃ row ∈ runs, normal.idempotencyKey.isSome ∧ row.idempotencyKey = normal.idempotencyKey ∧
      row.sourceId = normal.sourceId ∧ row.resourceScope = normal.intent.resourceScope ∧
      answer = answerOf hash normal row := by
  unfold replay at h
  cases hkey : normal.idempotencyKey with
  | none => simp [hkey] at h
  | some key =>
    simp only [hkey] at h
    obtain ⟨row, hfind, hanswer⟩ := Option.map_eq_some_iff.mp h
    have hrow := find?_some hfind
    simp only [inScope, Bool.and_eq_true, beq_iff_eq] at hrow
    exact ⟨row, mem_of_find?_eq_some hfind, rfl, hrow.2, hrow.1.1, hrow.1.2, hanswer.symm⟩

theorem replay_of_row (apart : Apart runs) (hrow : row ∈ runs) (hkeyed : normal.idempotencyKey.isSome)
    (hkey : row.idempotencyKey = normal.idempotencyKey) (hsource : row.sourceId = normal.sourceId)
    (hscope : row.resourceScope = normal.intent.resourceScope) :
    replay hash runs normal = some (answerOf hash normal row) := by
  cases hanswer : replay hash runs normal with
  | none =>
    exfalso
    unfold replay at hanswer
    cases hk : normal.idempotencyKey with
    | none => simp [hk] at hkeyed
    | some key =>
      simp only [hk, Option.map_eq_none_iff, find?_eq_none] at hanswer
      apply hanswer row hrow
      simp [inScope, hsource, hscope, hkey, hk]
  | some answer =>
    obtain ⟨other, hother, -, hkey', hsource', hscope', hans⟩ := replay_some hanswer
    have hsame : other = row := by
      apply apart.eq_of_clashes hother hrow
      simp [clashes, hsource, hsource', hscope, hscope', hkey, hkey', hkeyed]
    rw [hans, hsame]

theorem answerOf_intent (injective : Function.Injective hash.json) {creation : Creation}
    (hmatches : Matches hash creation row) (normal : Normal) :
    (normal.intent = creation.normal.intent → answerOf hash normal row = .ok row) ∧
      (normal.intent ≠ creation.normal.intent →
        answerOf hash normal row = .error "idempotency_key_conflict") := by
  constructor
  · intro hintent
    apply if_neg
    rw [not_not, hmatches.requestFingerprint, fingerprint, fingerprint, hintent]
  · intro hintent
    apply if_pos
    intro hsame
    rw [hmatches.requestFingerprint] at hsame
    exact hintent (Intent.json_injective (injective hsame)).symm

theorem replay_answers (injective : Function.Injective hash.json) (h : Sound u hash w)
    {normal : Normal} (hanswer : replay hash w.runs normal = some answer) :
    (∀ row, answer = .ok row → row ∈ w.runs ∧ ∃ creation ∈ w.created,
      Matches hash creation row ∧ SameKey normal creation.normal ∧ creation.normal.intent = normal.intent) ∧
    (answer = .error "idempotency_key_conflict" → ∃ creation ∈ w.created,
      SameKey normal creation.normal ∧ creation.normal.intent ≠ normal.intent) := by
  obtain ⟨found, hfound, hkeyed, hkey, hsource, hscope, rfl⟩ := replay_some hanswer
  obtain ⟨creation, hcreation, hmatches⟩ := h.traced.row found hfound
  have hsame : SameKey normal creation.normal :=
    ⟨hkeyed, hkey.symm.trans hmatches.idempotencyKey, hsource.symm.trans hmatches.sourceId,
      hscope.symm.trans hmatches.resourceScope⟩
  obtain ⟨hok, hconflict⟩ := answerOf_intent injective hmatches normal
  by_cases hintent : normal.intent = creation.normal.intent
  · rw [hok hintent]
    constructor
    · intro row hrow
      cases hrow
      exact ⟨hfound, creation, hcreation, hmatches, hsame, hintent.symm⟩
    · intro hfault
      cases hfault
  · rw [hconflict hintent]
    constructor
    · intro row hrow
      cases hrow
    · intro _
      exact ⟨creation, hcreation, hsame, fun heq => hintent heq.symm⟩

theorem prepareRun_error {runs : List AcquisitionRun} {normal : Normal} {rowId : Id} {now : Time}
    (h : prepareRun u hash runs normal rowId now = .error "idempotency_key_conflict") : False := by
  unfold prepareRun at h
  split at h
  · simp at h
  cases hcorrelation : normal.correlationId with
  | none => simp [hcorrelation, optionalOpaque, Except.map] at h
  | some value =>
    simp only [hcorrelation, optionalOpaque, opaqueValue] at h
    split at h
    · simp [Except.map] at h
    · simp [Except.map] at h

theorem step_answersByIntent (injective : Function.Injective hash.json) (h : Sound u hash w)
    (hstep : Step u hash w event w') : AnswersByIntent hash w event w' := by
  intro normal answer hkeyed hevent
  cases hstep with
  | replay _ hanswer =>
    cases hevent
    exact replay_answers injective h hanswer
  | conflict _ hprepare =>
    cases hevent
    constructor
    · intro row hrow
      cases hrow
    · intro hfault
      cases hfault
      exact (prepareRun_error hprepare).elim
  | @insert before rest ask normal row htasks hfree =>
    cases hevent
    have hi : Inserts w { w with
        runs := w.runs ++ [row]
        tasks := before ++ rest
        created := w.created ++ [⟨row.id, ask, normal⟩] } ask normal row :=
      ⟨by simp [htasks], hfree, rfl, rfl, rfl⟩
    obtain ⟨-, hmatches, -⟩ := hi.row_new h.pending
    constructor
    · intro r hr
      cases hr
      exact ⟨mem_append_right _ (mem_singleton.mpr rfl), _,
        mem_append_right _ (mem_singleton.mpr rfl), hmatches, ⟨hkeyed, rfl, rfl, rfl⟩, rfl⟩
    · intro hfault
      cases hfault
  | resolve htasks hclash =>
    cases hevent
    unfold resolveCreateConflict
    cases hreplay : replay hash w.runs normal with
    | some answer => exact replay_answers injective h hreplay
    | none =>
      constructor
      · intro row hrow
        simp only at hrow
        split at hrow <;> cases hrow
      · intro hfault
        simp only at hfault
        split at hfault <;> simp at hfault
  | call | abandon | source | refuse | look | prepare | crash => cases hevent

theorem Sound.repeatsFirst (injective : Function.Injective hash.json) (h : Sound u hash w) :
    RepeatsFirst u hash w := by
  intro creation hcreation
  obtain ⟨row, hrow, hmatches⟩ := h.traced.creation creation hcreation
  have hanswer : ∀ ask normal, receive u w.sources w.runs ask = .ok normal →
      SameKey normal creation.normal → lookup u hash w ask = some (answerOf hash normal row) := by
    intro ask normal hreceive hsame
    unfold lookup
    rw [hreceive]
    exact replay_of_row h.apart hrow hsame.keyed (hmatches.idempotencyKey.trans hsame.key.symm)
      (hmatches.sourceId.trans hsame.sourceId.symm)
      (hmatches.resourceScope.trans hsame.resourceScope.symm)
  refine ⟨row, hrow, hmatches, ?_, ?_⟩
  · intro ask normal hreceive hsame
    rw [hanswer ask normal hreceive hsame]
    obtain ⟨hok, hconflict⟩ := answerOf_intent injective hmatches normal
    exact ⟨fun hintent => congrArg some (hok hintent), fun hintent => congrArg some (hconflict hintent)⟩
  · intro hkeyed hactive
    have hreceive := h.repeats creation hcreation w.sources hactive
    rw [hanswer creation.ask creation.normal hreceive ⟨hkeyed, rfl, rfl, rfl⟩]
    exact congrArg some ((answerOf_intent injective hmatches _).1 rfl)

/-- The runs of every interleaving keep to their lifecycle, and a repeated key to its first run. -/
theorem run_lifecycle (injective : Function.Injective hash.json) (h : Reachable u hash w) :
    SingleActive w.runs ∧ DistinctAttempts w.runs ∧
    (∀ w', Leads u hash w w' → ∀ row ∈ w.runs, row.status.active = false →
      Table.get AcquisitionRun.id w'.runs row.id = some row) ∧
    (∀ event w', Step u hash w event w' → EndedByHolder u w event w') ∧
    (∀ w', Leads u hash w w' → ∀ row ∈ w.runs, row.cancellationRequestedAt.isSome →
      ∀ row' ∈ w'.runs, row'.id = row.id → row'.status ≠ .succeeded) ∧
    (∀ event w', Step u hash w event w' → AnswersByIntent hash w event w') ∧
    RepeatsFirst u hash w := by
  have hsound := reachable_sound h
  refine ⟨hsound.apart.singleActive, hsound.apart.distinctAttempts, ?_,
    fun _ _ hstep => step_endedByHolder hsound hstep, ?_,
    fun _ _ hstep => step_answersByIntent injective hsound hstep, hsound.repeatsFirst injective⟩
  · intro w' hleads row hrow hover
    have apart := (reachable_sound (h.leads hleads)).apart
    exact Table.get_of_mem apart.distinct (terminal_kept h hleads hrow hover)
  · intro w' hleads row hrow hasked row' hrow' hid hdone
    have hsound' := reachable_sound (h.leads hleads)
    obtain ⟨kept, hkept, hid', hstill⟩ := request_kept h hleads hrow hasked
    have hsame : kept = row' :=
      inj_on_of_nodup_map hsound'.apart.distinct hkept hrow' (hid'.trans hid.symm)
    rw [hsame, hsound'.uncancelled row' hrow' hdone] at hstill
    cases hstill

end

namespace Sample

def ask : Ask := .request "source-1" " Manual" "source" (some "key-1") none none

def normal : Normal where
  sourceId := "source-1"
  idempotencyKey := some "key-1"
  correlationId := none
  intent := { triggerKind := "manual", resourceScope := "source", parentRunId := none, requestPayload := [] }
  parent := none

noncomputable def row : AcquisitionRun := newRun exactHashing normal "run-1" "run-1" 1 0

noncomputable def created (sources : Id → Option SourceStatus) : World where
  runs := [row]
  sources := sources
  created := [⟨"run-1", ask, normal⟩]

theorem received : receive .ascii (fun _ => some .active) [] ask = .ok normal := by
  rfl

theorem prepared : prepareRun .ascii exactHashing [] normal "run-1" 0 = .ok row := by
  rfl

def idle : World := { sources := fun _ => some .active }

def looking : World := { idle with tasks := [.looked ask normal] }

noncomputable def waiting : World := { idle with tasks := [.prepared ask normal row] }

theorem look_step : Step .ascii exactHashing idle .silent looking := .look received rfl

theorem prepare_step : Step .ascii exactHashing looking .silent waiting := by
  have htasks : looking.tasks = [] ++ .looked ask normal :: [] := rfl
  exact .prepare htasks prepared

theorem insert_step : Step .ascii exactHashing waiting (.answered normal (.ok row))
    (created fun _ => some .active) := by
  have htasks : waiting.tasks = [] ++ .prepared ask normal row :: [] := rfl
  exact .insert htasks rfl

theorem reachable (sources : Id → Option SourceStatus) : Reachable .ascii exactHashing (created sources) := by
  have hlooked := Reachable.step (.init fun _ => some .active) look_step
  have hprepared := Reachable.step hlooked prepare_step
  have hinserted := Reachable.step hprepared insert_step
  exact .step hinserted (.source sources)

end Sample

theorem repeated_key_answered : ∃ row ∈ (Sample.created fun _ => some .active).runs,
    lookup .ascii exactHashing (Sample.created fun _ => some .active) Sample.ask = some (.ok row) := by
  obtain ⟨-, -, -, -, -, -, hrepeats⟩ :=
    run_lifecycle exactHashing_injective (Sample.reachable fun _ => some .active)
  obtain ⟨row, hrow, -, -, hagain⟩ := hrepeats ⟨"run-1", Sample.ask, Sample.normal⟩ (.head _)
  exact ⟨row, hrow, hagain rfl rfl⟩

/-- The key is not answered once its Source is archived. -/
theorem archived_key_refused : ¬ ∀ w, Reachable .ascii exactHashing w → ∀ creation ∈ w.created,
    creation.normal.idempotencyKey.isSome →
      ∃ row, lookup .ascii exactHashing w creation.ask = some (.ok row) := by
  intro h
  obtain ⟨row, hrow⟩ := h _ (Sample.reachable fun _ => some .archived) _ (.head _) rfl
  have hrefused : lookup .ascii exactHashing (Sample.created fun _ => some .archived) Sample.ask =
      some (.error "source_archived") := by
    rfl
  cases hrefused.symm.trans hrow

end FlowHub.SourceAcquisition
