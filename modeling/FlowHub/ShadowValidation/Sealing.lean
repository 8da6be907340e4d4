import FlowHub.ShadowValidation.Soundness
import FlowHub.ShadowValidation.Windows

namespace FlowHub.ShadowValidation.Windows

open Python Txn PricingEvaluation List Option

/-- The state that an event leads to. -/
def stateAfter : ValidationWindowEventKind → ShadowValidationWindowState
  | .accepted => .accepted
  | .invalidated => .invalidated
  | .closed => .closed
  | .opened | .casConflict => .collecting

/-- The head after what has been committed since. -/
def replay (head : ShadowValidationWindowHead) (log : List Commit) : ShadowValidationWindowHead :=
  (eventsOf log).foldl (fun head event => advanceHead head (stateAfter event.eventKind)) head

def Moves (a b : ShadowValidationWindowState) : Prop :=
  (a = .collecting ∧ (b = .accepted ∨ b = .closed)) ∨ (a = .accepted ∧ b = .invalidated)

/-- Each event names the one before it. -/
def Linked (events : List ShadowValidationWindowEvent) : Prop :=
  EachAfter (fun before event => event.predecessorEventId = before.getLast?.map (·.id)) events

variable (printable : Char → Bool) (hash : Hashing) (u : Unicode)

/-- The comparisons of a decision are those that a ready projection of a log counts. -/
def DecidedOn (channelId : Id) (head : ShadowValidationWindowHead) (log : List Commit)
    (decision : ShadowReadinessDecision) : Prop :=
  ∃ seen now projection, seen.comparisons = comparisonsOf log ∧
    snapshot hash seen (some head) channelId now = .ok projection ∧
    projection.decision = .ready ∧ decision.comparisonIds = projection.comparisonIds

/-- A decision names the authority of its window. -/
def Pinned (windows : List ShadowValidationWindow) (decision : ShadowReadinessDecision) : Prop :=
  ∃ window ∈ windows, window.id = decision.validationWindowId ∧
    decision.authorityEventId = some window.pricingAuthorityEventId ∧
    decision.authorityHeadVersion = window.pricingAuthorityHeadVersion

/-- What may be committed after what has been committed since `start`. -/
def Lawful (start : State) (before : List Commit) : Commit → Prop
  | .compared comparison => (replay start.head before).currentState = .collecting ∧
      start.head.currentWindowId = some comparison.validationWindowId
  | .sealed event decision => Pinned start.windows decision ∧
      ∀ e ∈ event, Moves (replay start.head before).currentState (stateAfter e.eventKind) ∧
        (e.eventKind = .accepted →
          DecidedOn hash start.channelId (replay start.head before) (start.log ++ before) decision)

/-- A step that stays clear of the head rows of the past, of clocks that have fallen behind, and
of windows whose own head version is not the one of their pricing authority. -/
def Careful (s : State) : Action → Prop
  | .startAssemble sid => ∀ head ∈ (s.sessions sid).loaded, head = s.head
  | .sealWindow sid eventId _ createdAt _ => ∀ call, (s.sessions sid).phase = .sealing call →
      (call.transition.isSome → ∀ event ∈ eventsOf s.log,
        event.createdAt < createdAt ∨ (event.createdAt = createdAt ∧ event.id < eventId)) ∧
      ∀ window ∈ s.windows, window.id = call.projection.validationWindowId →
        window.pricingAuthorityHeadVersion = (s.headFor sid).headVersion
  | _ => True

/-- A head row that was committed at some time. -/
structure Past (old head : ShadowValidationWindowHead) : Prop where
  version : old.headVersion ≤ head.headVersion
  same : old.headVersion = head.headVersion → old = head
  window : old.currentWindowId = head.currentWindowId

/-- What a session has loaded was once the head. In the midst of `assemble` it is, and the
session holds the lock. -/
structure SessionOk (head : ShadowValidationWindowHead) (holder : Option SessionId)
    (sid : SessionId) (session : Session) : Prop where
  loaded : ∀ old ∈ session.loaded, Past old head
  assembling : session.phase = .assembling → holder = some sid ∧ ∀ old ∈ session.loaded, old = head

def SessionsOk (s : State) : Prop := ∀ sid, SessionOk s.head s.holder sid (s.sessions sid)

theorem Past.refl (head : ShadowValidationWindowHead) : Past head head := ⟨le_refl _, fun _ => rfl, rfl⟩

theorem Past.advanced {old head : ShadowValidationWindowHead} (h : Past old head)
    (target : ShadowValidationWindowState) : Past old (advanceHead head target) where
  version := h.version.trans (Nat.le_succ _)
  same heq := by
    have hle := h.version
    simp only [advanceHead] at heq
    omega
  window := h.window

section Sessions

theorem headFor_past (h : SessionsOk s) (sid : SessionId) : Past (s.headFor sid) s.head := by
  unfold State.headFor
  cases hloaded : (s.sessions sid).loaded with
  | none => exact .refl _
  | some old => exact (h sid).loaded old hloaded

theorem SessionsOk.set {session : Session} (h : SessionsOk s)
    (hsession : SessionOk s.head s.holder sid session) : SessionsOk (s.set sid session) := by
  intro other
  by_cases heq : other = sid
  · subst heq
    simpa [State.set] using hsession
  · simpa [State.set, heq] using h other

/-- The lock that a session frees is not that of another one in the midst of `assemble`. -/
theorem SessionsOk.ended (h : SessionsOk s) (sid : SessionId) : SessionsOk (s.ended sid) := by
  intro other
  by_cases heq : other = sid
  · subst heq
    constructor
    · intro old hold
      simp [State.ended, State.set] at hold
    · intro hphase
      simp [State.ended, State.set] at hphase
  · have hother := h other
    simp only [State.ended, State.set, Function.update_of_ne heq]
    refine ⟨hother.loaded, ?_⟩
    intro hphase
    obtain ⟨hholder, hloaded⟩ := hother.assembling hphase
    have hfree : s.holder ≠ some sid := by
      rw [hholder]
      intro hsome
      exact heq (some.inj hsome)
    rw [if_neg hfree]
    exact ⟨hholder, hloaded⟩

/-- A session that takes the lock takes it from nobody. -/
theorem SessionsOk.lock (h : SessionsOk s) (hlock : s.lockable sid)
    (hsession : SessionOk s.head (some sid) sid session) :
    SessionsOk { s.set sid session with holder := some sid } := by
  intro other
  by_cases heq : other = sid
  · subst heq
    simpa [State.set] using hsession
  have hother := h other
  simp only [State.set, Function.update_of_ne heq]
  refine ⟨hother.loaded, ?_⟩
  intro hphase
  have hholder := (hother.assembling hphase).1
  rcases hlock with hnone | hown
  · rw [hnone] at hholder
    cases hholder
  · rw [hown] at hholder
    exact absurd (some.inj hholder).symm heq

end Sessions

section Commits

variable {printable hash u} {start s : State} {recent : List Commit}

/-- What has been committed since `start`, and the head that it has led to. -/
structure Committed (hash : Hashing) (start s : State) (recent : List Commit) : Prop where
  log : s.log = start.log ++ recent
  head : s.head = replay start.head recent
  lawful : EachAfter (Lawful hash start) recent
  later : (eventsOf s.log).Pairwise Later
  linked : Linked (eventsOf s.log)
  windows : s.windows = start.windows
  channel : s.channelId = start.channelId

theorem latestEvent_snoc (events : List ShadowValidationWindowEvent)
    (event : ShadowValidationWindowEvent) : latestEvent (events ++ [event]) = match latestEvent events with
      | none => some event
      | some best => if Later best event then some event else some best := by
  rw [latestEvent, foldl_append]
  rfl

/-- Where clocks go forward, the latest event is the last one committed. -/
theorem latestEvent_eq (h : events.Pairwise Later) : latestEvent events = events.getLast? := by
  induction events using reverseRecOn with
  | nil => rfl
  | append_singleton events event ih =>
    obtain ⟨hbefore, -, hlater⟩ := pairwise_append.mp h
    rw [latestEvent_snoc, ih hbefore, getLast?_concat]
    cases hlast : events.getLast? with
    | none => rfl
    | some best =>
      have hbest := hlater best (mem_of_getLast? hlast) event (mem_singleton.mpr rfl)
      simp [hbest, if_true]

@[simp] theorem eventsOf_moved (log : List Commit) (event : ShadowValidationWindowEvent)
    (decision : ShadowReadinessDecision) :
    eventsOf (log ++ [.sealed (some event) decision]) = eventsOf log ++ [event] := by
  simp [eventsOf, Commit.event]

variable {head : ShadowValidationWindowHead}

theorem projectedTransition_moves (h : projectedTransition projection state = some target) :
    Moves state target ∧ stateAfter (projectedEventKind target) = target ∧
      (projectedEventKind target = .accepted → projection.decision = .ready) := by
  unfold projectedTransition at h
  split at h
  · rename_i hready
    cases h
    exact ⟨.inl ⟨hready.2, .inl rfl⟩, rfl, fun _ => hready.1⟩
  · split at h
    · rename_i haccepted
      cases h
      exact ⟨.inr ⟨haccepted.1, rfl⟩, rfl, fun hkind => by cases hkind⟩
    · split at h
      · rename_i hclosed
        cases h
        exact ⟨.inl ⟨hclosed.1, .inr rfl⟩, rfl, fun hkind => by cases hkind⟩
      · cases h

theorem snapshot_head (hwindow : head.currentWindowId.isSome)
    (h : snapshot hash seen (some head) channelId now = .ok projection) :
    projection.headVersionSnapshot = head.headVersion := by
  obtain ⟨windowId, hid⟩ := isSome_iff_exists.mp hwindow
  simp only [snapshot, hid] at h
  split at h
  · cases h
    rfl
  · obtain ⟨verdict, -, rfl⟩ := map_eq_ok.mp h
    rfl

theorem decision_pinned {id : Id} (hsees : Sees s seen) (hopen : head.currentWindowId.isSome)
    (hsnapshot : snapshot hash seen (some head) channelId now = .ok projection)
    (hwindow : windowOf seen projection.validationWindowId = some window)
    (hversion : ∀ window ∈ s.windows, window.id = projection.validationWindowId →
      window.pricingAuthorityHeadVersion = head.headVersion) :
    Pinned s.windows (readinessDecision id window projection) := by
  obtain ⟨hmem, hid⟩ := Table.get_some hwindow
  rw [hsees.windows] at hmem
  refine ⟨window, hmem, hid, rfl, ?_⟩
  rw [hversion window hmem hid]
  exact snapshot_head hopen hsnapshot

/-- A commit that leaves the head alone. -/
theorem Committed.unmoved (h : Committed hash start s recent)
    (hevent : commit.event = none) (hlawful : Lawful hash start recent commit) :
    Committed hash start (s.inserted commit) (recent ++ [commit]) := by
  have hevents : ∀ log : List Commit, eventsOf (log ++ [commit]) = eventsOf log := by
    intro log
    simp [eventsOf, hevent]
  constructor
  · simp [State.inserted, h.log]
  · simp only [State.inserted, replay, hevents]
    exact h.head
  · exact h.lawful.snoc hlawful
  · simp only [State.inserted, hevents]
    exact h.later
  · simp only [State.inserted, hevents]
    exact h.linked
  · exact h.windows
  · exact h.channel

theorem Committed.moved (h : Committed hash start s recent) (htarget : stateAfter event.eventKind = target)
    (hlawful : Lawful hash start recent (.sealed (some event) decision))
    (hlater : ∀ before ∈ eventsOf s.log, Later before event)
    (hlinked : event.predecessorEventId = (eventsOf s.log).getLast?.map (·.id)) :
    Committed hash start ({ s with head := advanceHead s.head target }.inserted
      (.sealed (some event) decision)) (recent ++ [.sealed (some event) decision]) := by
  constructor
  · simp [State.inserted, h.log]
  · simp only [State.inserted, replay, eventsOf_moved, foldl_append, foldl_cons, foldl_nil, htarget]
    rw [h.head]
    rfl
  · exact h.lawful.snoc hlawful
  · simp only [State.inserted, eventsOf_moved]
    rw [pairwise_append]
    refine ⟨h.later, pairwise_singleton _ _, ?_⟩
    intro before hbefore after hafter
    rw [mem_singleton.mp hafter]
    exact hlater before hbefore
  · simp only [State.inserted, eventsOf_moved]
    exact h.linked.snoc hlinked
  · exact h.windows
  · exact h.channel

theorem Committed.ended (h : Committed hash start s recent) (sid : SessionId) :
    Committed hash start (s.ended sid) recent :=
  ⟨h.log, h.head, h.lawful, h.later, h.linked, h.windows, h.channel⟩

theorem replay_window (head : ShadowValidationWindowHead) (log : List Commit) :
    (replay head log).currentWindowId = head.currentWindowId := by
  unfold replay
  induction eventsOf log generalizing head with
  | nil => rfl
  | cons event rest ih =>
    rw [foldl_cons, ih]
    rfl

/-- Every event has raised the version by one. -/
theorem replay_version (head : ShadowValidationWindowHead) (log : List Commit) :
    (replay head log).headVersion = head.headVersion + (eventsOf log).length := by
  unfold replay
  induction eventsOf log generalizing head with
  | nil => rfl
  | cons event rest ih =>
    rw [foldl_cons, ih, length_cons]
    simp only [advanceHead]
    omega

/-- A channel with an open window, whose sessions hold heads of the past. -/
structure Inv (hash : Hashing) (start s : State) : Prop where
  sessions : SessionsOk s
  committed : ∃ recent, Committed hash start s recent
  opened : start.head.currentWindowId.isSome

theorem Committed.opened (h : Committed hash start s recent)
    (hopened : start.head.currentWindowId.isSome) : s.head.currentWindowId.isSome := by
  rw [h.head, replay_window]
  exact hopened

theorem compared_head (h : compared printable hash u seen (some head) request = .ok comparison) :
    head.currentState = .collecting ∧ head.currentWindowId = some comparison.validationWindowId := by
  unfold compared at h
  obtain ⟨algorithm, -, h⟩ := bind_eq_ok.mp h
  obtain ⟨e, -, h⟩ := bind_eq_ok.mp h
  obtain ⟨_, hhead, h⟩ := bind_eq_ok.mp h
  obtain ⟨_, -, h⟩ := bind_eq_ok.mp h
  obtain ⟨outcome, -, h⟩ := bind_eq_ok.mp h
  cases h
  unfold validateCollectionHead at hhead
  obtain ⟨row, hrow, hhead⟩ := bind_eq_ok.mp hhead
  rw [found_ok] at hrow
  cases hrow
  obtain ⟨_, hwindow, hhead⟩ := bind_eq_ok.mp hhead
  obtain ⟨_, hstate, -⟩ := bind_eq_ok.mp hhead
  have hid : head.currentWindowId = some e.window.id := by simpa using hwindow
  exact ⟨by simpa using hstate, hid⟩

variable {sid : SessionId}

theorem inserted_sessions (h : SessionsOk s) (commit : Commit) : SessionsOk (s.inserted commit) := h

/-- While a session seals, no other is in the midst of `assemble`. -/
theorem advanced_sessions (h : SessionsOk s) (hholder : s.holder = some sid)
    (hphase : (s.sessions sid).phase = .sealing call) (target : ShadowValidationWindowState) :
    SessionsOk { s with head := advanceHead s.head target } := by
  intro other
  refine ⟨fun old hold => ((h other).loaded old hold).advanced target, ?_⟩
  intro hassembling
  have hown := ((h other).assembling hassembling).1
  rw [hholder] at hown
  rw [← some.inj hown, hphase] at hassembling
  cases hassembling

theorem headFor_ok (h : SessionsOk s) (phase : Phase) (hphase : phase ≠ .assembling) :
    SessionOk s.head s.holder sid ⟨some (s.headFor sid), phase⟩ where
  loaded old hold := by
    cases hold
    exact headFor_past h sid
  assembling heq := absurd heq hphase

theorem step_inv {next : State} (h : Inv hash start s)
    (step : Step printable hash u s a next) (careful : Careful s a) : Inv hash start next := by
  obtain ⟨hsessions, ⟨recent, hcommitted⟩, hopened⟩ := h
  have hkeep : ∀ s' : State, s'.log = s.log → s'.head = s.head → s'.windows = s.windows →
      s'.channelId = s.channelId → SessionsOk s' → Inv hash start s' := by
    intro s' hlog hhead hwindows hchannel hs'
    refine ⟨hs', ⟨recent, ?_, ?_, hcommitted.lawful, ?_, ?_, ?_, ?_⟩, hopened⟩
    · rw [hlog, hcommitted.log]
    · rw [hhead, hcommitted.head]
    · rw [hlog]
      exact hcommitted.later
    · rw [hlog]
      exact hcommitted.linked
    · rw [hwindows, hcommitted.windows]
    · rw [hchannel, hcommitted.channel]
  cases step with
  | load sid hidle =>
    exact hkeep _ rfl rfl rfl rfl (hsessions.set (headFor_ok hsessions _ (by simp)))
  | forget sid phase hphase hheld =>
    refine hkeep _ rfl rfl rfl rfl (hsessions.set ⟨by simp, ?_⟩)
    intro heq
    rw [← hphase] at heq
    exact ⟨((hsessions sid).assembling heq).1, by simp⟩
  | finish sid => exact hkeep _ rfl rfl rfl rfl (hsessions.ended sid)
  | startAssemble sid hidle hlock =>
    refine hkeep _ rfl rfl rfl rfl (hsessions.lock hlock ⟨?_, ?_⟩)
    · intro old hold
      cases hold
      exact headFor_past hsessions sid
    · intro _
      refine ⟨rfl, ?_⟩
      intro old hold
      cases hold
      unfold State.headFor
      cases hloaded : (s.sessions sid).loaded with
      | none => rfl
      | some old => exact careful old hloaded
  | abandon sid hphase =>
    refine hkeep _ rfl rfl rfl rfl (hsessions.set ⟨(hsessions sid).loaded, ?_⟩)
    intro heq
    cases heq
  | assemble sid request seen comparison hphase hcompared =>
    obtain ⟨hcollecting, hwindow⟩ := compared_head hcompared
    have hcurrent : s.headFor sid = s.head := by
      unfold State.headFor
      cases hloaded : (s.sessions sid).loaded with
      | none => rfl
      | some old => exact ((hsessions sid).assembling hphase).2 old hloaded
    rw [hcurrent, hcommitted.head] at hcollecting hwindow
    rw [replay_window] at hwindow
    have hlawful : Lawful hash start recent (.compared comparison) := ⟨hcollecting, hwindow⟩
    have hinserted := inserted_sessions hsessions (.compared comparison)
    exact ⟨hinserted.ended sid, ⟨_, (hcommitted.unmoved rfl hlawful).ended sid⟩, hopened⟩
  | startSealConflict sid expected now seen hidle hversion =>
    exact hkeep _ rfl rfl rfl rfl (hsessions.set (headFor_ok hsessions _ (by simp)))
  | startSeal sid expected now seen projection hidle hversion hseen hprojection =>
    exact hkeep _ rfl rfl rfl rfl (hsessions.set (headFor_ok hsessions _ (by simp)))
  | lockSeal sid call hphase hlock =>
    have hown : s.set sid (s.sessions sid) = s := by simp [State.set]
    have hok : SessionOk s.head (some sid) sid (s.sessions sid) := by
      refine ⟨(hsessions sid).loaded, ?_⟩
      intro heq
      rw [hphase] at heq
      cases heq
    have hlocked := hsessions.lock hlock hok
    rw [hown] at hlocked
    exact hkeep _ rfl rfl rfl rfl hlocked
  | sealUnmoved sid eventId decisionId createdAt seen call window hphase hholder hseen hversion
      hsame htransition hbefore hwindow =>
      have hopen : (s.headFor sid).currentWindowId.isSome := by
        rw [(headFor_past hsessions sid).window]
        exact hcommitted.opened hopened
      have hpinned : Pinned s.windows (readinessDecision decisionId window call.projection) :=
        decision_pinned hseen hopen hsame hwindow (careful call hphase).2
      rw [hcommitted.windows] at hpinned
      have hlawful : Lawful hash start recent
          (.sealed none (readinessDecision decisionId window call.projection)) :=
        ⟨hpinned, by simp⟩
      have hinserted := inserted_sessions hsessions
        (.sealed none (readinessDecision decisionId window call.projection))
      exact ⟨hinserted.ended sid, ⟨_, (hcommitted.unmoved rfl hlawful).ended sid⟩, hopened⟩
  | sealMoved sid eventId decisionId createdAt seen call window target hphase hholder hseen hversion
      hsame htransition hbefore hupdated hwindow =>
      -- The update has found the version that the call expects, so the loaded head is the head.
      have hcurrent : s.headFor sid = s.head := by
        apply (headFor_past hsessions sid).same
        omega
      have hopen : (s.headFor sid).currentWindowId.isSome := by
        rw [hcurrent]
        exact hcommitted.opened hopened
      have hpinned : Pinned s.windows (readinessDecision decisionId window call.projection) :=
        decision_pinned hseen hopen hsame hwindow (careful call hphase).2
      obtain ⟨hmoves, htarget, hready⟩ := projectedTransition_moves htransition
      have hlater := (careful call hphase).1 (by simp [hbefore])
      have hlast := latestEvent_eq hcommitted.later
      rw [hcommitted.windows] at hpinned
      rw [hcurrent, hcommitted.head] at hmoves
      rw [hcurrent, hcommitted.head, hcommitted.channel] at hsame
      have hlawful : Lawful hash start recent
          (.sealed (some (windowEvent s call eventId createdAt call.projection target))
            (readinessDecision decisionId window call.projection)) := by
        refine ⟨hpinned, ?_⟩
        intro e he
        cases he
        constructor
        · simp only [windowEvent, htarget]
          exact hmoves
        · intro hkind
          refine ⟨seen, call.now, call.projection, ?_, hsame, hready hkind, rfl⟩
          rw [hseen.comparisons, hcommitted.log]
      have hmoved := hcommitted.moved htarget hlawful hlater (by simp only [windowEvent, hlast])
      have hadvanced := inserted_sessions (advanced_sessions hsessions hholder hphase target)
        (.sealed (some (windowEvent s call eventId createdAt call.projection target))
          (readinessDecision decisionId window call.projection))
      exact ⟨hadvanced.ended sid, ⟨_, hmoved.ended sid⟩, hopened⟩

end Commits

/-- A channel with an open window, whose events are a chain by their times. -/
structure Start (s : State) : Prop where
  sessions : SessionsOk s
  opened : s.head.currentWindowId.isSome
  later : (eventsOf s.log).Pairwise Later
  linked : Linked (eventsOf s.log)

inductive Run (condition : State → Action → Prop) (start : State) : State → Prop where
  | start : Run condition start start
  | step {s next : State} {a : Action} (run : Run condition start s) (meets : condition s a)
      (step : Step printable hash u s a next) : Run condition start next

variable {printable hash u}

theorem run_inv (hstart : Start start) (h : Run printable hash u Careful start s) : Inv hash start s := by
  induction h with
  | start =>
    refine ⟨hstart.sessions, ⟨[], ?_⟩, hstart.opened⟩
    exact ⟨by simp, rfl, .nil, hstart.later, hstart.linked, rfl, rfl⟩
  | step _ meets step ih => exact step_inv ih step meets

/-- The head is what the events since have made of it, one version each, and every commit was
lawful when it was made. -/
theorem window_machine {start s : State} (hstart : Start start) (h : Run printable hash u Careful start s) :
    Linked (eventsOf s.log) ∧ ∃ recent, s.log = start.log ++ recent ∧ s.head = replay start.head recent ∧
      s.head.headVersion = start.head.headVersion + (eventsOf recent).length ∧
      EachAfter (Lawful hash start) recent := by
  obtain ⟨recent, hcommitted⟩ := (run_inv hstart h).committed
  refine ⟨hcommitted.linked, recent, hcommitted.log, hcommitted.head, ?_, hcommitted.lawful⟩
  rw [hcommitted.head, replay_version]

namespace Sample

open ShadowValidation.Sample

def first : ShadowValidationComparison := comparison 1 100 "1" "v1" 0 equal

def second : ShadowValidationComparison := comparison 1 100 "2" "v2" 1 equal

def head (version : Nat) : ShadowValidationWindowHead := ⟨"c", some "w", .collecting, version⟩

/-- A window with all its matches, under a head of some version. Session 0 has loaded the head. -/
def start (version : Nat) : State where
  channelId := "c"
  windows := [window 1]
  head := head version
  log := [.compared first]
  holder := none
  sessions sid := if sid = 0 then ⟨some (head version), .idle⟩ else {}

theorem start_ok (version : Nat) : Start (start version) where
  sessions sid := by
    by_cases hsid : sid = 0
    · simp [start, hsid]
      exact ⟨fun old hold => by cases hold; exact .refl _, fun h => by cases h⟩
    · simp [start, hsid]
      exact ⟨by simp, fun h => by cases h⟩
  opened := rfl
  later := .nil
  linked := .nil

theorem sees (version : Nat) : Sees (start version) (db 1 100 [first]) := ⟨rfl, rfl⟩

/-- The head of version 0 or 1 is sealed by session 1. -/
theorem ready {version : Nat} (h : version = 0 ∨ version = 1) : ∃ projection,
    snapshot rendered (db 1 100 [first]) (some (head version)) "c" 0 = .ok projection ∧
      projection.decision = .ready ∧ projection.validationWindowId = "w" ∧
      projection.headVersionSnapshot = version := by
  have hready : (snapshot rendered (db 1 100 [first]) (some (head version)) "c" 0).map (fun p =>
      (p.decision, p.validationWindowId, p.headVersionSnapshot)) = .ok (.ready, "w", version) := by
    rcases h with rfl | rfl
    · decide +kernel
    · decide +kernel
  obtain ⟨projection, hprojection, heq⟩ := map_eq_ok.mp hready
  simp only [Prod.mk.injEq] at heq
  exact ⟨projection, hprojection, heq⟩

def call (version : Nat) (projection : ShadowValidationReadinessProjection) : SealCall :=
  ⟨version, 0, projection, some .accepted⟩

/-- Session 1 is about to seal the window, and holds the lock. -/
def locked (version : Nat) (projection : ShadowValidationReadinessProjection) : State :=
  { (start version).set 1 ⟨some (head version), .sealing (call version projection)⟩ with
    holder := some 1 }

def accepted (version : Nat) (projection : ShadowValidationReadinessProjection) : State :=
  ({ locked version projection with head := advanceHead (head version) .accepted }.inserted
    (.sealed (some (windowEvent (locked version projection) (call version projection) "e" 0 projection
        .accepted))
      (readinessDecision "d" (window 1) projection))).ended 1

theorem accepted_run {version : Nat} {projection : ShadowValidationReadinessProjection}
    {condition : State → Action → Prop}
    (hprojection : snapshot rendered (db 1 100 [first]) (some (head version)) "c" 0 = .ok projection)
    (hready : projection.decision = .ready) (hwindow : projection.validationWindowId = "w")
    (hstart : condition (start version) (.startSeal 1 version 0 (db 1 100 [first])))
    (hlock : ∀ s, condition s (.lockSeal 1))
    (hseal : condition (locked version projection) (.sealWindow 1 "e" "d" 0 (db 1 100 [first]))) :
    Run (fun _ => true) rendered .ascii condition (start version) (accepted version projection) := by
  have htransition : projectedTransition projection .collecting = some .accepted := by
    simp [projectedTransition, hready]
  have hfirst : Step (fun _ => true) rendered .ascii (start version)
      (.startSeal 1 version 0 (db 1 100 [first]))
      ((start version).set 1 ⟨some (head version), .sealing ⟨version, 0, projection,
        projectedTransition projection .collecting⟩⟩) :=
    .startSeal 1 version 0 _ projection rfl rfl (sees version) hprojection
  rw [htransition] at hfirst
  have hsecond : Step (fun _ => true) rendered .ascii
      ((start version).set 1 ⟨some (head version), .sealing (call version projection)⟩)
      (.lockSeal 1) (locked version projection) :=
    .lockSeal 1 (call version projection) rfl (.inl rfl)
  have hthird : Step (fun _ => true) rendered .ascii (locked version projection)
      (.sealWindow 1 "e" "d" 0 (db 1 100 [first])) (accepted version projection) := by
    have hrow : windowOf (db 1 100 [first]) projection.validationWindowId = some (window 1) := by
      rw [hwindow]
      decide +kernel
    exact .sealMoved 1 "e" "d" 0 _ (call version projection) (window 1) .accepted rfl rfl
      ⟨rfl, rfl⟩ rfl hprojection htransition rfl rfl hrow
  exact .step (.step (.step .start hstart hfirst) (hlock _) hsecond) hseal hthird

end Sample

/-- A window whose own head version is the one it pins is accepted. -/
theorem accepted_linked : ∃ s, Run (fun _ => true) Sample.rendered .ascii Careful (Sample.start 1) s ∧
    s.head.currentState = .accepted ∧ s.head.headVersion = 2 ∧ Linked (eventsOf s.log) := by
  obtain ⟨projection, hprojection, hready, hwindow, -⟩ := Sample.ready (.inr rfl)
  have hseal : Careful (Sample.locked 1 projection)
      (.sealWindow 1 "e" "d" 0 (Sample.db 1 100 [Sample.first])) := by
    intro call hcall
    refine ⟨fun _ => by simp [eventsOf, Sample.locked, Sample.start, State.set, Commit.event], ?_⟩
    intro window hmem _
    rw [mem_singleton.mp hmem]
    rfl
  have hrun := Sample.accepted_run hprojection hready hwindow trivial (fun _ => trivial) hseal
  exact ⟨_, hrun, rfl, rfl, (window_machine (Sample.start_ok 1) hrun).1⟩

/-- A session that has loaded the head before the window was accepted stores a comparison after
that. The decision names the version of the head where its window pins that of the authority. -/
theorem accepted_compared : ∃ s, Run (fun _ => true) Sample.rendered .ascii (fun _ _ => True)
      (Sample.start 0) s ∧ s.head.currentState = .accepted ∧
    ∃ event decision, s.log = [.compared Sample.first, .sealed (some event) decision,
        .compared Sample.second] ∧ event.eventKind = .accepted ∧
      Sample.second.validationWindowId = event.validationWindowId ∧
      decision.authorityHeadVersion = 0 ∧
      s.windows.map (fun w => (w.id, w.pricingAuthorityHeadVersion)) =
        [(decision.validationWindowId, 1)] := by
  obtain ⟨projection, hprojection, hready, hwindow, hversion⟩ := Sample.ready (.inl rfl)
  have hrun : Run (fun _ => true) Sample.rendered .ascii (fun _ _ => True) (Sample.start 0)
      (Sample.accepted 0 projection) :=
    Sample.accepted_run hprojection hready hwindow trivial (fun _ => trivial) trivial
  have hcompared : compared (fun _ => true) Sample.rendered .ascii (Sample.db 1 100 [Sample.first])
      (some (Sample.head 0)) (Sample.request "2" "v2" 1) = .ok Sample.second := by decide +kernel
  have hstart := Run.step hrun trivial (.startAssemble 0 rfl (.inl rfl))
  have hstored := Run.step hstart trivial (.assemble 0 (Sample.request "2" "v2" 1) _ _ rfl hcompared)
  refine ⟨_, hstored, rfl, _, _, rfl, rfl, ?_, hversion, ?_⟩
  · exact hwindow.symm
  · simp only [readinessDecision, hwindow]
    rfl

end FlowHub.ShadowValidation.Windows
