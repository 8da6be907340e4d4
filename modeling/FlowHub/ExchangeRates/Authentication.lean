import FlowHub.ExchangeRates.Budget

namespace FlowHub.ExchangeRates

open List

/-- After a block no request is made before a key has been stored. -/
def Refused (log : List Event) : Prop :=
  ∀ earlier key between request later,
    log = earlier ++ .blocked key :: between ++ .requested request :: later → .keyStored ∈ between

/-- A block that no stored key has lifted. -/
def Standing (log : List Event) : Prop :=
  ∃ earlier key between, log = earlier ++ .blocked key :: between ∧ .keyStored ∉ between

theorem Standing.before {log : List Event} (h : Standing (log ++ [event])) :
    event ≠ .keyStored ∧ ((∃ key, event = .blocked key) ∨ Standing log) := by
  obtain ⟨earlier, key, between, heq, hnone⟩ := h
  cases between using reverseRecOn with
  | nil =>
    obtain ⟨-, hevent⟩ := append_inj' heq rfl
    cases singleton_inj.mp hevent
    exact ⟨nofun, .inl ⟨key, rfl⟩⟩
  | append_singleton rest last _ =>
    rw [← cons_append, ← append_assoc] at heq
    obtain ⟨hlog, hevent⟩ := append_inj' heq rfl
    cases singleton_inj.mp hevent
    simp only [mem_append, mem_singleton, not_or] at hnone
    exact ⟨fun h => hnone.2 h.symm, .inr ⟨earlier, key, rest, hlog, hnone.1⟩⟩

theorem Refused.snoc {log : List Event} (h : Refused log)
    (free : ∀ key, event = .requested key → ¬ Standing log) : Refused (log ++ [event]) := by
  intro earlier key between request later heq
  cases later using reverseRecOn with
  | nil =>
    obtain ⟨hlog, hevent⟩ := append_inj' heq rfl
    by_contra hnone
    exact free request (singleton_inj.mp hevent) ⟨earlier, key, between, hlog, hnone⟩
  | append_singleton rest last _ =>
    rw [← cons_append, ← append_assoc] at heq
    obtain ⟨hlog, -⟩ := append_inj' heq rfl
    exact h earlier key between request rest hlog

section

variable {w : World} {p : Process}

variable {a : Action}

theorem scheduleFailure_blocked : (scheduleFailure env now code c).authenticationBlocked =
      (decide (code = authenticationFailed) || c.authenticationBlocked) := by
  unfold scheduleFailure
  by_cases hcode : code = authenticationFailed
  · simp [hcode]
  · simp only [hcode, ↓reduceIte]
    split_ifs <;> simp

/-- Who commits a block has been refused by the provider. -/
theorem flush_blocks {fetchedAt : Time} {kind : Kind} {s : Session}
    (h : (s.flush (World.assignments env now kind answer fetchedAt) row).authenticationBlocked = true)
    (free : row.authenticationBlocked = false) :
    ∃ responded, answer = .error authenticationFailed responded := by
  have blocks : ∃ c : ExchangeRateProviderConfig, c.authenticationBlocked = false ∧
      (World.assignments env now kind answer fetchedAt c).authenticationBlocked = true := by
    unfold Session.flush at h
    cases hcopy : s.copy with
    | none =>
      simp only [hcopy] at h
      exact ⟨row, free, h⟩
    | some loaded =>
      simp only [hcopy, written] at h
      split at h
      · rw [free] at h
        cases h
      · rename_i hchanged
        refine ⟨loaded, ?_, h⟩
        rw [h] at hchanged
        simpa using hchanged
  obtain ⟨c, hc, hblocks⟩ := blocks
  unfold World.assignments at hblocks
  split at hblocks
  · cases hblocks
  · rename_i code responded
    simp only [scheduleFailure_blocked, hc, Bool.or_false, decide_eq_true_eq] at hblocks
    exact ⟨responded, by rw [hblocks]⟩
  · simp only [scheduleFailure_blocked, hc, Bool.or_false, decide_eq_true_eq] at hblocks
    exact absurd hblocks (by decide)
  · rw [hc] at hblocks
    cases hblocks
  · rename_i code responded
    split at hblocks
    · rename_i hcode
      exact ⟨responded, by rw [hcode]⟩
    · rw [hc] at hblocks
      cases hblocks
  · rename_i code responded
    split at hblocks
    · rename_i hcode
      exact ⟨responded, by rw [hcode]⟩
    · rw [hc] at hblocks
      cases hblocks
  · rw [hc] at hblocks
    cases hblocks

/-- A block is only seen where there is one. -/
theorem eventOf_blocked {key : Nat}
    (h : World.eventOf p answer row = some (.blocked key)) : row.authenticationBlocked = true := by
  unfold World.eventOf at h
  split at h
  · cases h
  · split at h
    · rename_i hblocked
      exact hblocked.2
    · cases h
  · cases h

/-- Calls keep out of each other's way: who takes the lock has not been blocked since it looked, and
who commits a block is alone with the provider. -/
structure Exclusive (w : World) (a : Action) : Prop where
  lock : ∀ p, a = .advance p.id → w.process p.id = some p → p.phase = .ready →
    (acquireLock p.key p.now).criteria w.row = true → w.row.authenticationBlocked = false
  block : ∀ p responded fetchedAt, a = .advance p.id → w.process p.id = some p →
    p.phase = .saving (.error authenticationFailed responded) fetchedAt →
      ∀ q ∈ w.processes, q.phase.inFlight = true → q.id = p.id

/-- While the provider is blocked no call is under way. -/
structure Guarded (w : World) : Prop where
  quiet : w.row.authenticationBlocked = true → ∀ p ∈ w.processes, p.phase.inFlight = false
  standing : Standing w.log → w.row.authenticationBlocked = true
  refused : Refused w.log

/-- A step that leaves the block as it is. -/
theorem Guarded.kept {keys : ℕ} {events : List Event} (h : Guarded w)
    (blocked : row'.authenticationBlocked = true → w.row.authenticationBlocked = true)
    (waiting : row'.authenticationBlocked = true → p'.phase.inFlight = false)
    (standing : Standing (w.log ++ events) → row'.authenticationBlocked = true)
    (refused : Refused (w.log ++ events)) : Guarded (w.turned p' row' events keys storedKey) := by
  constructor
  · intro hblocked q hq
    rcases mem_put hq with rfl | ⟨hold, -⟩
    · exact waiting hblocked
    · exact h.quiet (blocked hblocked) q hold
  · exact standing
  · exact refused

/-- A step that writes nothing to the log. -/
theorem Guarded.silent {keys : ℕ} (h : Guarded w) (found : p ∈ w.processes)
    (blocked : row'.authenticationBlocked = w.row.authenticationBlocked)
    (waiting : w.row.authenticationBlocked = true → p.phase.inFlight = false →
      p'.phase.inFlight = false) : Guarded (w.turned p' row' [] keys storedKey) := by
  apply h.kept blocked.symm.trans
  · intro hblocked
    have hrow := blocked.symm.trans hblocked
    exact waiting hrow (h.quiet hrow p found)
  · rw [append_nil]
    intro hstanding
    exact blocked.trans (h.standing hstanding)
  · rw [append_nil]
    exact h.refused

theorem Follows.waits (f : Follows w p p') (live : p.phase ≠ .ready)
    (waiting : p.phase.inFlight = false) : p'.phase.inFlight = false := by
  cases hflight : p'.phase.inFlight with
  | false => rfl
  | true =>
    rcases f.flight hflight with hbefore | hready
    · rw [waiting] at hbefore
      cases hbefore
    · exact absurd hready live

theorem Guarded.turn (h : Guarded w) (found : p ∈ w.processes) (t : Turn env w p w')
    (acts : a = .advance p.id ∧ w.process p.id = some p ∨ p.phase = .requested)
    (exclusive : Exclusive w a) : Guarded w' := by
  have hquiet (hflight : p.phase.inFlight = true) : w.row.authenticationBlocked = false := by
    cases hblocked : w.row.authenticationBlocked with
    | false => rfl
    | true =>
      rw [h.quiet hblocked p found] at hflight
      cases hflight
  cases t with
  | idle => exact h
  | move follows key stage books blocked dated unlocked =>
    apply h.silent found blocked
    intro _ hwaiting
    by_cases hready : p.phase = .ready
    · exact unlocked hready
    · exact follows.waits hready hwaiting
  | locked follows key ready free stage =>
    have hfree : w.row.authenticationBlocked = false := by
      rcases acts with ⟨hacts, hprocess⟩ | hrequested
      · exact exclusive.lock p hacts hprocess ready free
      · rw [ready] at hrequested
        cases hrequested
    refine h.silent found ?_ ?_
    · rfl
    · intro hblocked
      rw [hfree] at hblocked
      cases hblocked
  | reset follows key stage stamped live =>
    apply h.silent found
    · unfold Update.on
      split <;> rfl
    · exact fun _ => follows.waits live
  | counted follows key counting stage fits =>
    have hfree := hquiet (by rw [counting]; rfl)
    apply h.kept
    · exact id
    · intro hblocked
      have hrow : w.row.authenticationBlocked = true := hblocked
      rw [hfree] at hrow
      cases hrow
    · intro hstanding
      rcases hstanding.before with ⟨-, ⟨_, hevent⟩ | hbefore⟩
      · cases hevent
      · exact h.standing hbefore
    · exact h.refused.snoc fun _ hevent => by cases hevent
  | requested follows key reserved stage =>
    have hfree := hquiet (by rw [reserved]; rfl)
    apply h.kept id
    · intro hblocked
      rw [hfree] at hblocked
      cases hblocked
    · intro hstanding
      rcases hstanding.before with ⟨-, ⟨_, hevent⟩ | hbefore⟩
      · cases hevent
      · exact h.standing hbefore
    · apply h.refused.snoc
      intro _ _ hstanding
      rw [h.standing hstanding] at hfree
      cases hfree
  | committed follows key saving stage =>
    rename_i p' answer fetchedAt
    have hfree := hquiet (by rw [saving]; rfl)
    have hnone : ¬ Standing w.log := by
      intro hstanding
      rw [h.standing hstanding] at hfree
      cases hfree
    generalize hrow : p.session.flush (World.assignments env w.clock p.kind answer fetchedAt) w.row = row'
    constructor
    · intro hblocked q hq
      rcases mem_put hq with rfl | ⟨hold, hid⟩
      · rw [stage]
        rfl
      rw [World.turned, ← hrow] at hblocked
      obtain ⟨responded, rfl⟩ := flush_blocks hblocked hfree
      cases hflight : q.phase.inFlight with
      | false => rfl
      | true =>
        rw [follows.id] at hid
        rcases acts with ⟨hacts, hprocess⟩ | hrequested
        · exact absurd (exclusive.block p _ _ hacts hprocess saving q hold hflight) hid
        · rw [saving] at hrequested
          cases hrequested
    · intro hstanding
      cases hevent : World.eventOf p answer row' with
      | none =>
        rw [hevent] at hstanding
        simp only [World.turned, Option.toList_none, append_nil] at hstanding
        exact absurd hstanding hnone
      | some event =>
        rw [hevent] at hstanding
        rcases hstanding.before with ⟨-, ⟨key, rfl⟩ | hbefore⟩
        · exact eventOf_blocked hevent
        · exact absurd hbefore hnone
    · cases hevent : World.eventOf p answer row' with
      | none =>
        simp only [World.turned, Option.toList_none, append_nil]
        exact h.refused
      | some event =>
        apply h.refused.snoc
        exact fun _ _ hstanding => hnone hstanding
  | started follows key stage books blocked =>
    apply h.silent found blocked
    rw [stage]
    exact fun _ _ => rfl
  | configured id key kind stage waiting blocked seen =>
    apply h.kept blocked (fun _ => waiting)
    · intro hstanding
      rcases seen with ⟨rfl, hkept⟩ | ⟨rfl, -⟩
      · rw [append_nil] at hstanding
        exact hkept.trans (h.standing hstanding)
      · exact absurd rfl hstanding.before.1
    · rcases seen with ⟨rfl, -⟩ | ⟨rfl, -⟩
      · rw [append_nil]
        exact h.refused
      · exact h.refused.snoc fun _ hevent => by cases hevent

theorem Guarded.move (h : Guarded w) (m : Move env w a w') (exclusive : Exclusive w a) : Guarded w' := by
  cases m with
  | elapse duration => exact ⟨h.quiet, h.standing, h.refused⟩
  | spawn copies stage called =>
    refine ⟨?_, h.standing, h.refused⟩
    intro hblocked q hq
    simp only [World.spawn, mem_append, mem_singleton] at hq
    rcases hq with hold | rfl
    · exact h.quiet hblocked q hold
    · rcases stage with rfl | rfl <;> rfl
  | turn found acts turn => exact h.turn found turn acts exclusive
  | crash found =>
    rw [World.enter, put_turned]
    exact h.silent found rfl fun _ _ => rfl
  | idle => exact h

theorem guarded_run (actions : List Action) (h : Guarded w)
    (exclusive : Along env Exclusive w actions) : Guarded (w.after env actions) := by
  induction actions generalizing w with
  | nil => exact h
  | cons a rest ih => exact ih (h.move (step_move env w a) exclusive.1) exclusive.2

theorem new_guarded (clock : Time) (row : ExchangeRateProviderConfig) (storedKey : String) :
    Guarded (.new clock row storedKey) := by
  constructor
  · intro _ p hp
    cases hp
  · rintro ⟨earlier, key, between, heq, -⟩
    cases earlier <;> cases heq
  · intro earlier key between request later heq
    cases earlier <;> cases heq

/-- While the provider is blocked nothing is requested, and only an update that has stored a key
lifts the block. -/
theorem Guarded.blocked (h : Guarded w) (m : Move env w a w') (blocked : w.row.authenticationBlocked = true) :
    w'.requests = w.requests ∧ (w'.row.authenticationBlocked = false →
      ∃ p values, a = .advance p.id ∧ w.process p.id = some p ∧
        p.kind = .updateAdminConfig values ∧ p.phase = .keyed) := by
  have stays {b : Bool} (hkept : b = w.row.authenticationBlocked) (hfree : b = false) : False := by
    rw [hkept, blocked] at hfree
    cases hfree
  cases m with
  | elapse | spawn | idle => exact ⟨rfl, fun hfree => (stays rfl hfree).elim⟩
  | crash found =>
    rw [World.enter, put_turned]
    exact ⟨by simp [World.turned, World.requests], fun hfree => (stays rfl hfree).elim⟩
  | turn found acts turn =>
    rename_i p
    have hwaiting := h.quiet blocked p found
    have silent (p' : Process) (row' : ExchangeRateProviderConfig) (keys : Nat) (storedKey : String) :
        (w.turned p' row' [] keys storedKey).requests = w.requests := by
      simp [World.turned, World.requests]
    cases turn with
    | idle => exact ⟨rfl, fun hfree => (stays rfl hfree).elim⟩
    | move follows key stage books hblocked =>
      exact ⟨silent _ _ _ _, fun hfree => (stays hblocked hfree).elim⟩
    | locked => exact ⟨silent _ _ _ _, fun hfree => (stays rfl hfree).elim⟩
    | reset =>
      refine ⟨silent _ _ _ _, fun hfree => (stays ?_ hfree).elim⟩
      simp only [World.turned, Update.on]
      split <;> rfl
    | counted follows key counting =>
      rw [counting] at hwaiting
      cases hwaiting
    | requested follows key reserved =>
      rw [reserved] at hwaiting
      cases hwaiting
    | committed follows key saving =>
      rw [saving] at hwaiting
      cases hwaiting
    | started follows key stage books hblocked =>
      exact ⟨silent _ _ _ _, fun hfree => (stays hblocked hfree).elim⟩
    | configured id key kind stage waiting hblocked seen =>
      rcases seen with ⟨rfl, hkept⟩ | ⟨rfl, hkeyed⟩
      · exact ⟨silent _ _ _ _, fun hfree => (stays hkept hfree).elim⟩
      rcases acts with ⟨hacts, hprocess⟩ | hrequested
      · refine ⟨?_, fun _ => ⟨p, _, hacts, hprocess, kind, hkeyed⟩⟩
        simp [World.turned, World.requests, Event.isRequested]
      · rw [hkeyed] at hrequested
        cases hrequested

end

/-- The block holds in every run of calls that keep out of each other's way. -/
theorem block_stands (env : Environment) (clock : Time) (row : ExchangeRateProviderConfig)
    (storedKey : String) (actions : List Action)
    (exclusive : Along env Exclusive (.new clock row storedKey) actions) :
    Refused ((World.new clock row storedKey).after env actions).log ∧
      ∀ before a later, actions = before ++ a :: later →
        let w := (World.new clock row storedKey).after env before
        w.row.authenticationBlocked = true → (w.step env a).requests = w.requests ∧
            ((w.step env a).row.authenticationBlocked = false →
              ∃ p values, a = .advance p.id ∧ w.process p.id = some p ∧
                p.kind = .updateAdminConfig values ∧ p.phase = .keyed) := by
  have hnew := new_guarded clock row storedKey
  refine ⟨(guarded_run actions hnew exclusive).refused, ?_⟩
  intro before a later heq w hblocked
  subst heq
  have hbefore := guarded_run before hnew (along_append.mp exclusive).1
  exact hbefore.blocked (step_move env w a) hblocked

/-- `Exclusive`, to be evaluated. -/
def keepsOut (w : World) : Action → Bool
  | .advance id =>
    match w.process id with
    | some p =>
      match p.phase with
      | .ready => !(acquireLock p.key p.now).criteria w.row || !w.row.authenticationBlocked
      | .saving (.error code _) _ =>
        decide (code ≠ authenticationFailed) ||
          w.processes.all fun q => !q.phase.inFlight || decide (q.id = id)
      | _ => true
    | none => true
  | _ => true

theorem exclusive_of_keepsOut (h : keepsOut w a = true) : Exclusive w a := by
  constructor
  · rintro p rfl hprocess hready hfree
    simpa [keepsOut, hprocess, hready, hfree] using h
  rintro p responded fetchedAt rfl hprocess hsaving q hq hflight
  simp only [keepsOut, hprocess, hsaving, ne_eq, not_true_eq_false, decide_false, Bool.false_or,
    all_eq_true, Bool.or_eq_true, Bool.not_eq_true', decide_eq_true_eq] at h
  rcases h q hq with hwaits | hsame
  · rw [hflight] at hwaits
    cases hwaits
  · exact hsame

theorem along_exclusive
    (h : Along env (fun w a => keepsOut w a = true) w actions) : Along env Exclusive w actions := by
  induction actions generalizing w with
  | nil => trivial
  | cons a rest ih => exact ⟨exclusive_of_keepsOut h.1, ih h.2⟩

/-- A call that the provider refuses, from its first step to its last. -/
def refusedCall (id : Nat) (kind : Kind) : List Action :=
  .call false kind :: List.replicate 8 (.advance id) ++
    .answer id (.error authenticationFailed true) :: List.replicate 5 (.advance id)

/-- A refresh looks at the block before another call is refused, and goes on after it. -/
def overtaken : List Action :=
  [.call false (.refresh false), .advance 0] ++ refusedCall 1 .testConnection ++
    List.replicate 7 (.advance 0) ++ .answer 0 (.served 13) :: List.replicate 5 (.advance 0)

/-- The refresh requests although the provider is blocked, and lifts the block. -/
theorem block_overtaken : ((World.new 0 fourRequests "").after oneDay overtaken).log =
        [.reserved 1, .requested 1, .blocked 1, .reserved 0, .requested 0] ∧
      ((World.new 0 fourRequests "").after oneDay
        ([.call false (.refresh false), .advance 0] ++ refusedCall 1 .testConnection)).row.authenticationBlocked
          = true ∧
      ((World.new 0 fourRequests "").after oneDay overtaken).row.authenticationBlocked = false := by
  decide +kernel

/-- A refused call, and a refresh that finds the provider blocked. -/
def refusedOnce : List Action :=
  refusedCall 0 .testConnection ++ [.call false (.refresh false), .advance 1]

theorem block_stands_once : Refused ((World.new 0 fourRequests "").after oneDay refusedOnce).log := by
  apply (block_stands oneDay 0 fourRequests "" refusedOnce ?_).1
  apply along_exclusive
  decide +kernel

end FlowHub.ExchangeRates
