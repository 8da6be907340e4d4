import FlowHub.ExchangeRates.Calls

namespace FlowHub.ExchangeRates

namespace ExchangeRateProviderConfig

def limits (c : ExchangeRateProviderConfig) : Int × Int := (c.dailyRequestLimit, c.reservedRequestCount)

/-- The columns that the budget rests on. -/
def books (c : ExchangeRateProviderConfig) : (Int × Int) × Option Date × Nat × Option Nat :=
  (c.limits, c.requestCountDate, c.requestCount, c.providerDailyUsage)

end ExchangeRateProviderConfig

namespace Session

variable {s s' s'' : Session} {row : ExchangeRateProviderConfig}

/-- The limits that a session shows are those of the row or those it has shown before. -/
def Sees (s : Session) (row : ExchangeRateProviderConfig) (s' : Session) : Prop :=
  ∀ c ∈ s'.copy, c.limits = row.limits ∨ ∃ c₀ ∈ s.copy, c.limits = c₀.limits

theorem Sees.refl (s : Session) (row : ExchangeRateProviderConfig) : Sees s row s :=
  fun c hc => .inr ⟨c, hc, rfl⟩

theorem Sees.trans (h : Sees s row s') (h' : Sees s' row s'') : Sees s row s'' := by
  intro c hc
  rcases h' c hc with hrow | ⟨c₁, hc₁, heq⟩
  · exact .inl hrow
  · rw [heq]
    exact h c₁ hc₁

theorem sees_load (s : Session) (row : ExchangeRateProviderConfig) : Sees s row (s.load row) := by
  intro c hc
  simp only [load, Option.mem_def, Option.some.injEq] at hc
  subst hc
  cases hcopy : s.copy with
  | none =>
    simp [view, hcopy]
  | some old =>
    right
    exact ⟨old, rfl, by simp [view, hcopy]⟩

theorem sees_rolledBack (s : Session) (row : ExchangeRateProviderConfig) : Sees s row s.rolledBack := by
  intro c hc
  cases hc

theorem sees_committed (s : Session) (row : ExchangeRateProviderConfig) : Sees s row s.committed := by
  unfold committed
  split
  · exact .refl s row
  · exact sees_rolledBack s row

theorem sees_ensure (s : Session) (row : ExchangeRateProviderConfig) : Sees s row (s.ensure row) :=
  ((sees_load s row).trans (sees_committed _ row)).trans (sees_load _ row)

theorem sees_map (hf : ∀ c, (f c).limits = c.limits) (s : Session) (row : ExchangeRateProviderConfig) :
    Sees s row { s with copy := s.copy.map f } := by
  intro c hc
  obtain ⟨c₀, hc₀, rfl⟩ := Option.map_eq_some_iff.mp hc
  exact .inr ⟨c₀, hc₀, hf c₀⟩

theorem sees_execute {u : Update} (hu : ∀ c, (u.on c).limits = c.limits) (s : Session)
    (row : ExchangeRateProviderConfig) : Sees s row (s.execute u) :=
  (sees_map hu s row).trans (sees_committed _ row)

theorem sees_save {assign : ExchangeRateProviderConfig → ExchangeRateProviderConfig}
    (h : ∀ c, (assign c).limits = c.limits) (s : Session) (row : ExchangeRateProviderConfig) :
    Sees s row (s.save assign) :=
  (sees_map h s row).trans (sees_committed _ row)

end Session

theorem Update.on_limits {u : Update} (h : ∀ c, (u.values c).limits = c.limits)
    (c : ExchangeRateProviderConfig) : (u.on c).limits = c.limits := by
  unfold Update.on
  split
  · exact h c
  · rfl

theorem resetIfNeeded_limits (today : Date) (c : ExchangeRateProviderConfig) :
    ((resetIfNeeded today).on c).limits = c.limits := Update.on_limits (fun _ => rfl) c

/-- A column that the assignments leave is left in the row. -/
theorem flush_kept {α : Type} {column : ExchangeRateProviderConfig → α} {s : Session}
    {assign : ExchangeRateProviderConfig → ExchangeRateProviderConfig}
    {row : ExchangeRateProviderConfig} (kept : ∀ c, column (assign c) = column c)
    (hwritten : ∀ loaded, column (assign loaded) = column loaded →
      column (written loaded (assign loaded) row) = column row) :
    column (s.flush assign row) = column row := by
  unfold Session.flush
  cases s.copy with
  | none => exact kept row
  | some loaded => exact hwritten loaded (kept loaded)

theorem flush_books {s : Session} {assign : ExchangeRateProviderConfig → ExchangeRateProviderConfig}
    {row : ExchangeRateProviderConfig} (kept : ∀ c, (assign c).books = c.books) :
    (s.flush assign row).books = row.books := by
  apply flush_kept kept
  intro loaded h
  simp only [ExchangeRateProviderConfig.books, ExchangeRateProviderConfig.limits, Prod.mk.injEq] at h ⊢
  obtain ⟨⟨h₁, h₂⟩, h₃, h₄, h₅⟩ := h
  simp [written, h₁, h₂, h₃, h₄, h₅]

theorem flush_blocked {s : Session} {assign : ExchangeRateProviderConfig → ExchangeRateProviderConfig}
    {row : ExchangeRateProviderConfig}
    (kept : ∀ c, (assign c).authenticationBlocked = c.authenticationBlocked) :
    (s.flush assign row).authenticationBlocked = row.authenticationBlocked := by
  apply flush_kept kept
  intro loaded h
  simp [written, h]

namespace Phase

/-- 0 before the request is counted, 1 until it is made. -/
def stage : Phase → Nat
  | .tickBegun | .begun | .clocked | .checked | .ready | .locked | .reserving _ | .counting .. => 0
  | .counted | .reserved => 1
  | _ => 2

/-- The call has read its clock. -/
def stamped : Phase → Bool
  | .tickBegun | .tickSynced | .begun | .checked | .releasing | .configuring | .keyed | .ended => false
  | _ => true

/-- The call has made sure of the date, and not yet counted. -/
def dated : Phase → Bool
  | .reserving _ | .counting .. => true
  | _ => false

def isCounting : Phase → Bool
  | .counting .. => true
  | _ => false

theorem not_counting {phase : Phase} (h : phase.isCounting = false) (tries : Nat)
    (seen : ExchangeRateProviderConfig) : phase ≠ .counting tries seen := by
  rintro rfl
  cases h

theorem dated_counting {phase : Phase} (h : phase.dated = false) : phase.isCounting = false := by
  cases phase with
  | counting tries seen => cases h
  | _ => rfl

/-- From the lock to the commit of what the call was answered. -/
def inFlight : Phase → Bool
  | .locked | .reserving _ | .counting .. | .counted | .reserved | .requested | .completing _
  | .completed _ | .processing _ | .saving .. => true
  | _ => false

end Phase

/-- What a process takes over a step of its own. -/
structure Follows (w : World) (p p' : Process) : Prop where
  id : p'.id = p.id
  kind : p'.kind = p.kind ∨ (∃ s, p'.kind = .refresh s) ∨ ∃ f, p'.kind = .syncUsage f
  copies : p.session.Sees w.row p'.session
  now : p'.phase.stamped = true → p.phase.stamped = true ∧ p'.now = p.now ∨
    (p.phase = .begun ∨ p.phase = .checked) ∧ p'.now = w.clock
  dated : p'.phase.dated = true → p.phase.dated = true ∨ p.phase = .locked
  seen : ∀ tries seen, p'.phase = .counting tries seen → seen.exhausted = false ∧
    (seen.limits = w.row.limits ∨ ∃ c ∈ p.session.copy, seen.limits = c.limits)
  flight : p'.phase.inFlight = true → p.phase.inFlight = true ∨ p.phase = .ready

/-- A world after a step of a process. -/
def World.turned (w : World) (p : Process) (row : ExchangeRateProviderConfig) (events : List Event)
    (keys : Nat) (storedKey : String) : World :=
  { w.put p with row, log := w.log ++ events, keys, storedKey }

/-- What a step of a process does. -/
inductive Turn (env : Environment) (w : World) (p : Process) : World → Prop
  | idle : Turn env w p w
  | move {p' : Process} {row' : ExchangeRateProviderConfig} (follows : Follows w p p')
      (key : p'.key = p.key) (stage : p'.phase.stage = p.phase.stage ∨ p'.phase.stage = 2)
      (books : row'.books = w.row.books)
      (blocked : row'.authenticationBlocked = w.row.authenticationBlocked)
      (dated : p'.phase.dated = true → p.phase.dated = true)
      (unlocked : p.phase = .ready → p'.phase.inFlight = false) :
      Turn env w p (w.turned p' row' [] w.keys w.storedKey)
  | locked {p' : Process} (follows : Follows w p p') (key : p'.key = p.key) (ready : p.phase = .ready)
      (free : (acquireLock p.key p.now).criteria w.row = true) (stage : p'.phase = .locked) :
      Turn env w p (w.turned p' ((acquireLock p.key p.now).values w.row) [] w.keys w.storedKey)
  | reset {p' : Process} (follows : Follows w p p') (key : p'.key = p.key)
      (stage : p'.phase.stage = p.phase.stage) (stamped : p.phase.stamped = true)
      (live : p.phase ≠ .ready) :
      Turn env w p (w.turned p' ((resetIfNeeded (env.budgetDate p.now)).on w.row) [] w.keys w.storedKey)
  | counted {p' : Process} {tries : Nat} {seen : ExchangeRateProviderConfig} (follows : Follows w p p')
      (key : p'.key = p.key) (counting : p.phase = .counting tries seen) (stage : p'.phase = .counted)
      (fits : (countRequest seen).criteria w.row = true) :
      Turn env w p
        (w.turned p' ((countRequest seen).values w.row) [.reserved p.key] w.keys w.storedKey)
  | requested {p' : Process} (follows : Follows w p p') (key : p'.key = p.key)
      (reserved : p.phase = .reserved) (stage : p'.phase = .requested) :
      Turn env w p (w.turned p' w.row [.requested p.key] w.keys w.storedKey)
  | committed {p' : Process} {answer : Answer} {fetchedAt : Time} (follows : Follows w p p')
      (key : p'.key = p.key) (saving : p.phase = .saving answer fetchedAt)
      (stage : p'.phase = .releasing) :
      Turn env w p (w.turned p' (p.session.flush (World.assignments env w.clock p.kind answer fetchedAt) w.row)
        (World.eventOf p answer
          (p.session.flush (World.assignments env w.clock p.kind answer fetchedAt) w.row)).toList
        w.keys w.storedKey)
  | started {p' : Process} {row' : ExchangeRateProviderConfig} (follows : Follows w p p')
      (key : p'.key = w.keys) (stage : p'.phase = .begun) (books : row'.books = w.row.books)
      (blocked : row'.authenticationBlocked = w.row.authenticationBlocked) :
      Turn env w p (w.turned p' row' [] (w.keys + 1) w.storedKey)
  | configured {p' : Process} {row' : ExchangeRateProviderConfig} {events : List Event}
      {storedKey : String} {values : AdminValues} (id : p'.id = p.id) (key : p'.key = p.key)
      (kind : p.kind = .updateAdminConfig values) (stage : p'.phase.stage = 2)
      (waiting : p'.phase.inFlight = false)
      (blocked : row'.authenticationBlocked = true → w.row.authenticationBlocked = true)
      (seen : events = [] ∧ row'.authenticationBlocked = w.row.authenticationBlocked ∨
        events = [.keyStored] ∧ p.phase = .keyed) :
      Turn env w p (w.turned p' row' events w.keys storedKey)

section

variable {env : Environment} {w : World} {p : Process}

theorem put_turned (p' : Process) : w.put p' = w.turned p' w.row [] w.keys w.storedKey := by
  simp [World.turned, World.put]

theorem Follows.onward {session : Session} {phase : Phase} (copies : p.session.Sees w.row session)
    (now : phase.stamped = true → p.phase.stamped = true)
    (dated : phase.dated = true → p.phase.dated = true ∨ p.phase = .locked)
    (counting : phase.isCounting = false)
    (flight : phase.inFlight = true → p.phase.inFlight = true ∨ p.phase = .ready) :
    Follows w p { p with session, phase } where
  id := rfl
  kind := .inl rfl
  copies := copies
  now h := .inl ⟨now h, rfl⟩
  dated := dated
  seen tries seen h := absurd h (Phase.not_counting counting tries seen)
  flight := flight

/-- A step that only moves on. -/
theorem Turn.onward {session : Session} {phase : Phase} (copies : p.session.Sees w.row session)
    (now : phase.stamped = true → p.phase.stamped = true) (dated : phase.dated = false)
    (flight : phase.inFlight = true → p.phase.inFlight = true)
    (stage : phase.stage = p.phase.stage ∨ phase.stage = 2) :
    Turn env w p (w.put { p with session, phase }) := by
  rw [put_turned]
  apply Turn.move (.onward copies now ?_ (Phase.dated_counting dated) (fun h => .inl (flight h))) rfl
    stage rfl rfl ?_
  · intro hready
    cases hphase : phase.inFlight with
    | false => rfl
    | true =>
      have := flight hphase
      rw [hready] at this
      cases this
  · intro h
    rw [dated] at h
    cases h
  · intro h
    exact absurd (dated.symm.trans h) nofun

/-- A call that ends here. -/
theorem finish_turn {session : Session} (copies : p.session.Sees w.row session) :
    Turn env w p (w.finish { p with session }) := by
  have leaves (phase : Phase) (h : phase = .ended ∨ phase = .tickSynced) :
      Turn env w p (w.put { p with session, phase }) := by
    rcases h with rfl | rfl
    · exact .onward copies nofun rfl nofun (.inr rfl)
    · exact .onward copies nofun rfl nofun (.inr rfl)
  unfold World.finish
  split
  · exact leaves _ (.inr rfl)
  · exact leaves _ (.inl rfl)

theorem check_turn {next : Phase} (now : next.stamped = true → p.phase.stamped = true)
    (dated : next.dated = false) (flight : next.inFlight = false)
    (stage : next.stage = p.phase.stage) : Turn env w p (w.check env p next) := by
  have copies := Session.sees_ensure p.session w.row
  unfold World.check
  dsimp only
  split
  · apply Turn.onward copies now dated _ (.inl stage)
    intro h
    rw [flight] at h
    cases h
  · exact finish_turn copies

theorem lock_turn (ready : p.phase = .ready) : Turn env w p (w.lock p) := by
  have copies : p.session.Sees w.row (p.session.execute (acquireLock p.key p.now)) :=
    Session.sees_execute (Update.on_limits fun _ => rfl) p.session w.row
  unfold World.lock
  by_cases hfree : (acquireLock p.key p.now).criteria w.row = true
  · rw [if_pos hfree]
    have hrow : (acquireLock p.key p.now).on w.row = (acquireLock p.key p.now).values w.row :=
      if_pos hfree
    have heq : w.execute p (acquireLock p.key p.now) .locked =
        w.turned { p with session := p.session.execute (acquireLock p.key p.now), phase := .locked }
          ((acquireLock p.key p.now).values w.row) [] w.keys w.storedKey := by
      simp [World.execute, World.turned, hrow, World.put]
    rw [heq]
    refine .locked (.onward copies ?_ nofun rfl fun _ => .inr ready) rfl ready hfree rfl
    rw [ready]
    exact fun _ => rfl
  · rw [if_neg hfree]
    exact finish_turn copies

theorem reset_turn {phase : Phase} (stage : phase.stage = p.phase.stage)
    (stamped : p.phase.stamped = true) (live : p.phase ≠ .ready)
    (dated : phase.dated = true → p.phase = .locked) (counting : phase.isCounting = false)
    (flight : p.phase.inFlight = true) : Turn env w p (w.reset env p phase) := by
  have copies : p.session.Sees w.row
      ((p.session.load w.row).execute (resetIfNeeded (env.budgetDate p.now))) :=
    (Session.sees_load p.session w.row).trans (Session.sees_execute (resetIfNeeded_limits _) _ _)
  have heq : w.reset env p phase = w.turned
      { p with session := (p.session.load w.row).execute (resetIfNeeded (env.budgetDate p.now)), phase }
      ((resetIfNeeded (env.budgetDate p.now)).on w.row) [] w.keys w.storedKey := by
    simp [World.reset, World.execute, World.turned, World.put]
  rw [heq]
  exact .reset (.onward copies (fun _ => stamped) (fun h => .inr (dated h)) counting fun _ => .inl flight)
    rfl stage stamped live

theorem read_turn {tries : Nat} (reserving : p.phase = .reserving tries) : Turn env w p (w.read p tries) := by
  have stamped : p.phase.stamped = true := by rw [reserving]; rfl
  have flight : p.phase.inFlight = true := by rw [reserving]; rfl
  have copies := Session.sees_load p.session w.row
  cases tries with
  | zero => exact .onward (.refl _ _) (fun _ => stamped) rfl (fun _ => flight) (.inr rfl)
  | succ tries =>
    simp only [World.read]
    by_cases hexhausted : ((p.session.load w.row).view w.row).exhausted = true
    · rw [if_pos hexhausted]
      exact .onward copies (fun _ => stamped) rfl (fun _ => flight) (.inr rfl)
    rw [if_neg hexhausted, put_turned]
    refine .move ⟨rfl, .inl rfl, copies, fun _ => .inl ⟨stamped, rfl⟩, ?_, ?_, fun _ => .inl flight⟩ rfl
      ?_ rfl rfl ?_ ?_
    · intro _
      rw [reserving]
      exact .inl rfl
    · rintro tries' seen ⟨⟩
      constructor
      · exact eq_false_of_ne_true hexhausted
      · exact Session.sees_load p.session w.row _ rfl
    · rw [reserving]
      exact .inl rfl
    · rw [reserving]
      exact fun _ => rfl
    · intro hready
      rw [reserving] at hready
      cases hready

theorem count_turn {tries : Nat} {seen : ExchangeRateProviderConfig}
    (counting : p.phase = .counting tries seen) : Turn env w p (w.count p tries seen) := by
  have stamped : p.phase.stamped = true := by rw [counting]; rfl
  have flight : p.phase.inFlight = true := by rw [counting]; rfl
  unfold World.count
  by_cases hfits : (countRequest seen).criteria w.row = true
  · rw [if_pos hfits]
    have hrow : (countRequest seen).on w.row = (countRequest seen).values w.row := if_pos hfits
    have copies : p.session.Sees w.row (p.session.execute (countRequest seen)) :=
      Session.sees_execute (Update.on_limits fun _ => rfl) p.session w.row
    have heq : (w.execute p (countRequest seen) .counted).record (.reserved p.key) =
        w.turned { p with session := p.session.execute (countRequest seen), phase := .counted }
          ((countRequest seen).values w.row) [.reserved p.key] w.keys w.storedKey := by
      simp [World.execute, World.turned, hrow, World.put, World.record]
    rw [heq]
    exact .counted (.onward copies (fun _ => stamped) nofun rfl fun _ => .inl flight) rfl counting rfl hfits
  · rw [if_neg hfits, put_turned]
    refine .move (.onward (Session.sees_rolledBack _ _) (fun _ => stamped) ?_ rfl fun _ => .inl flight) rfl
      ?_ rfl rfl ?_ ?_
    · rw [counting]
      exact fun _ => .inl rfl
    · rw [counting]
      exact .inl rfl
    · rw [counting]
      exact fun _ => rfl
    · intro hready
      rw [counting] at hready
      cases hready

theorem snapshot_turn (counted : p.phase = .counted) : Turn env w p (w.snapshot env p) := by
  have copies : p.session.Sees w.row
      ((p.session.load w.row).execute (resetIfNeeded (env.budgetDate p.now))) :=
    (Session.sees_load p.session w.row).trans (Session.sees_execute (resetIfNeeded_limits _) _ _)
  have hlimits := resetIfNeeded_limits (env.budgetDate p.now) w.row
  have copies' : p.session.Sees w.row
      (((p.session.load w.row).execute (resetIfNeeded (env.budgetDate p.now))).load
        ((resetIfNeeded (env.budgetDate p.now)).on w.row)) := by
    apply copies.trans
    intro c hc
    have := Session.sees_load ((p.session.load w.row).execute (resetIfNeeded (env.budgetDate p.now)))
      ((resetIfNeeded (env.budgetDate p.now)).on w.row) c hc
    rw [hlimits] at this
    exact this
  have heq : w.snapshot env p = w.turned
      { p with
        session := ((p.session.load w.row).execute (resetIfNeeded (env.budgetDate p.now))).load
          ((resetIfNeeded (env.budgetDate p.now)).on w.row)
        phase := .reserved }
      ((resetIfNeeded (env.budgetDate p.now)).on w.row) [] w.keys w.storedKey := by
    simp [World.snapshot, World.turned, World.put]
  rw [heq]
  refine .reset (.onward copies' ?_ nofun rfl ?_) rfl ?_ ?_ ?_
  · rw [counted]
    exact fun _ => rfl
  · rw [counted]
    exact fun _ => .inl rfl
  · rw [counted]
    rfl
  · rw [counted]
    rfl
  · rw [counted]
    nofun

theorem request_turn (reserved : p.phase = .reserved) : Turn env w p (w.request env p) := by
  have stamped : p.phase.stamped = true := by rw [reserved]; rfl
  have flight : p.phase.inFlight = true := by rw [reserved]; rfl
  unfold World.request
  by_cases hkey : w.hasCredentials env = true
  · rw [if_pos hkey]
    exact .requested (.onward (.refl _ _) (fun _ => stamped) nofun rfl fun _ => .inl flight) rfl
      reserved rfl
  · rw [if_neg hkey]
    exact .onward (.refl _ _) (fun _ => stamped) rfl (fun _ => flight) (.inr rfl)

theorem processAnswer_turn {answer : Answer} (processing : p.phase = .processing answer) :
    Turn env w p (w.processAnswer p answer) := by
  have stamped : p.phase.stamped = true := by rw [processing]; rfl
  have flight : p.phase.inFlight = true := by rw [processing]; rfl
  have saves (session : Session) (copies : p.session.Sees w.row session) (answer' : Answer) :
      Turn env w p (w.enter { p with session } (.saving answer' w.clock)) :=
    .onward copies (fun _ => stamped) rfl (fun _ => flight) (.inr rfl)
  have leaves : Turn env w p (w.enter p .releasing) :=
    .onward (.refl _ _) nofun rfl nofun (.inr rfl)
  have hload := Session.sees_load p.session w.row
  unfold World.processAnswer
  split
  · split
    · exact saves _ (Session.sees_ensure p.session w.row) _
    · exact saves _ (Session.sees_ensure p.session w.row) _
  · exact saves _ hload _
  · exact saves _ ((Session.sees_rolledBack p.session w.row).trans (Session.sees_load _ _)) _
  · split
    · exact saves _ hload _
    · exact leaves
  · exact saves _ hload _
  · exact saves _ hload _
  · exact leaves

theorem scheduleFailure_books (now : Time) (code : String) (c : ExchangeRateProviderConfig) :
    (scheduleFailure env now code c).books = c.books := by
  unfold scheduleFailure
  dsimp only
  split_ifs <;> rfl

/-- Only a report changes what the budget rests on. -/
theorem assignments_books {now fetchedAt : Time} {kind : Kind} {answer : Answer}
    (quiet : ∀ force n, kind = .syncUsage force → answer ≠ .served n) (c : ExchangeRateProviderConfig) :
    (World.assignments env now kind answer fetchedAt c).books = c.books := by
  unfold World.assignments
  split
  · rfl
  · exact scheduleFailure_books now _ c
  · exact scheduleFailure_books now _ c
  · exact absurd rfl (quiet _ _ rfl)
  · split <;> rfl
  · split <;> rfl
  · rfl

theorem assignments_limits (c : ExchangeRateProviderConfig) :
    (World.assignments env now kind answer fetchedAt c).limits = c.limits := by
  by_cases quiet : ∀ force n, kind = .syncUsage force → answer ≠ .served n
  · exact congrArg Prod.fst (assignments_books quiet c)
  · simp only [not_forall, not_not] at quiet
    obtain ⟨force, n, rfl, rfl⟩ := quiet
    rfl

theorem commitAnswer_turn {answer : Answer} {fetchedAt : Time} (saving : p.phase = .saving answer fetchedAt) :
    Turn env w p (w.commitAnswer env p answer fetchedAt) := by
  have copies : p.session.Sees w.row
      (p.session.save (World.assignments env w.clock p.kind answer fetchedAt)) :=
    Session.sees_save assignments_limits p.session w.row
  exact .committed (.onward copies nofun nofun rfl nofun) rfl saving rfl

theorem release_turn : Turn env w p (w.release p) := by
  have copies : p.session.Sees w.row (p.session.execute (releaseLock p.key)) :=
    Session.sees_execute (Update.on_limits fun _ => rfl) p.session w.row
  have hbooks : ((releaseLock p.key).on w.row).books = w.row.books := by
    unfold Update.on
    split <;> rfl
  have hblocked : ((releaseLock p.key).on w.row).authenticationBlocked = w.row.authenticationBlocked := by
    unfold Update.on
    split <;> rfl
  have leaves (phase : Phase) (h : phase = .ended ∨ phase = .tickSynced) : Turn env w p
        { w.put { p with session := p.session.execute (releaseLock p.key), phase } with
          row := (releaseLock p.key).on w.row } := by
    have heq : { w.put { p with session := p.session.execute (releaseLock p.key), phase } with
          row := (releaseLock p.key).on w.row } =
        w.turned { p with session := p.session.execute (releaseLock p.key), phase }
          ((releaseLock p.key).on w.row) [] w.keys w.storedKey := by
      simp [World.turned, World.put]
    rw [heq]
    rcases h with rfl | rfl
    · exact .move (.onward copies nofun nofun rfl nofun) rfl (.inr rfl) hbooks hblocked nofun
        fun _ => rfl
    · exact .move (.onward copies nofun nofun rfl nofun) rfl (.inr rfl) hbooks hblocked nofun
        fun _ => rfl
  unfold World.release World.finish
  dsimp only
  split
  · exact leaves _ (.inr rfl)
  · exact leaves _ (.inl rfl)

/-- A process starts a call, with a row that differs in `next_refresh_at` at most. -/
theorem start_turn {p₀ : Process} {row' : ExchangeRateProviderConfig} {kind : Kind}
    (id : p₀.id = p.id) (copies : p.session.Sees w.row p₀.session)
    (requests : (∃ s, kind = .refresh s) ∨ ∃ f, kind = .syncUsage f)
    (books : row'.books = w.row.books)
    (blocked : row'.authenticationBlocked = w.row.authenticationBlocked) :
    Turn env w p (World.start { w with row := row' } p₀ kind) := by
  have heq : World.start { w with row := row' } p₀ kind =
      w.turned { p₀ with kind, key := w.keys, phase := .begun } row' [] (w.keys + 1) w.storedKey := by
    simp [World.start, World.turned, World.put]
  rw [heq]
  exact .started ⟨id, .inr requests, copies, nofun, nofun,
    fun _ _ h => absurd h (Phase.not_counting rfl _ _), nofun⟩ rfl rfl books blocked

theorem due_books (next : Option Time) (c : ExchangeRateProviderConfig) : (c.due next).books = c.books := rfl

theorem due_limits (next : Option Time) (c : ExchangeRateProviderConfig) :
    (c.due next).limits = c.limits := rfl

theorem due_blocked (next : Option Time) (c : ExchangeRateProviderConfig) :
    (c.due next).authenticationBlocked = c.authenticationBlocked := rfl

theorem beginTick_turn : Turn env w p (w.beginTick env p) := by
  have copies := Session.sees_ensure p.session w.row
  unfold World.beginTick
  dsimp only
  split
  · exact start_turn rfl copies (.inr ⟨_, rfl⟩) rfl rfl
  have heq : w.save { p with session := p.session.ensure w.row } (.due none) .ended =
      w.turned { p with session := (p.session.ensure w.row).save (.due none), phase := .ended }
        ((p.session.ensure w.row).flush (.due none) w.row) [] w.keys w.storedKey := by
    simp [World.save, World.turned, World.put]
  have hsees := copies.trans (Session.sees_save (due_limits none) _ _)
  rw [heq]
  exact .move (.onward hsees nofun nofun rfl nofun) rfl (.inr rfl) (flush_books (due_books none))
    (flush_blocked (due_blocked none)) nofun fun _ => rfl

theorem dueRefresh_turn : Turn env w p (w.dueRefresh p) := by
  have copies := Session.sees_load p.session w.row
  unfold World.dueRefresh
  dsimp only
  split
  · exact start_turn rfl (copies.trans (Session.sees_save (due_limits _) _ _)) (.inl ⟨_, rfl⟩)
      (flush_books (due_books _)) (flush_blocked (due_blocked _))
  · split
    · exact .onward copies nofun rfl nofun (.inr rfl)
    · exact start_turn rfl copies (.inl ⟨_, rfl⟩) rfl rfl

theorem readConfig_turn {values : AdminValues} : Turn env w p (w.readConfig p values) := by
  have copies := Session.sees_ensure p.session w.row
  unfold World.readConfig
  dsimp only
  split
  · exact .onward copies nofun rfl nofun (.inr rfl)
  · exact .onward copies nofun rfl nofun (.inr rfl)

theorem storeConfig_turn {values : AdminValues} (kind : p.kind = .updateAdminConfig values) :
    Turn env w p (w.storeConfig env p values) := by
  unfold World.storeConfig
  dsimp only
  split
  · have heq : w.save p (fun c => w.restarted env (World.configured values c)) .ended =
        w.turned { p with
            session := p.session.save fun c => w.restarted env (World.configured values c)
            phase := .ended }
          (p.session.flush (fun c => w.restarted env (World.configured values c)) w.row) [] w.keys
          w.storedKey := by
      simp [World.save, World.turned, World.put]
    have hblocked := @flush_blocked p.session (fun c => w.restarted env (World.configured values c))
      w.row fun _ => rfl
    rw [heq]
    exact .configured rfl rfl kind rfl rfl hblocked.symm.trans (.inl ⟨rfl, hblocked⟩)
  · have heq : { w.save p (World.configured values) .keyed with
          storedKey := String.ofList (Python.strip env.unicode values.apiKey.toList) } =
        w.turned { p with session := p.session.save (World.configured values), phase := .keyed }
          (p.session.flush (World.configured values) w.row) [] w.keys
          (String.ofList (Python.strip env.unicode values.apiKey.toList)) := by
      simp [World.save, World.turned, World.put]
    have hblocked := @flush_blocked p.session (World.configured values) w.row fun _ => rfl
    rw [heq]
    exact .configured rfl rfl kind rfl rfl hblocked.symm.trans (.inl ⟨rfl, hblocked⟩)

/-- A block that is not written is left in the row. -/
theorem flush_cleared {s : Session} {assign : ExchangeRateProviderConfig → ExchangeRateProviderConfig}
    {row : ExchangeRateProviderConfig} (clears : ∀ c, (assign c).authenticationBlocked = false)
    (h : (s.flush assign row).authenticationBlocked = true) : row.authenticationBlocked = true := by
  unfold Session.flush at h
  cases hcopy : s.copy with
  | none =>
    simp only [hcopy, clears] at h
    cases h
  | some loaded =>
    simp only [hcopy, written, clears] at h
    split at h
    · exact h
    · cases h

theorem unblock_turn {values : AdminValues} (kind : p.kind = .updateAdminConfig values)
    (keyed : p.phase = .keyed) : Turn env w p (w.unblock env p) := by
  refine .configured rfl rfl kind rfl rfl ?_ (.inr ⟨rfl, keyed⟩)
  apply flush_cleared
  exact fun _ => rfl

theorem answered_turn (answer : Answer) : Turn env w p (w.answered p answer) := by
  unfold World.answered
  split
  · rename_i requested
    have stamped : p.phase.stamped = true := by rw [requested]; rfl
    have flight : p.phase.inFlight = true := by rw [requested]; rfl
    split
    · exact .onward (.refl _ _) (fun _ => stamped) rfl (fun _ => flight) (.inr rfl)
    · exact .onward (.refl _ _) (fun _ => stamped) rfl (fun _ => flight) (.inr rfl)
    · exact .onward (.refl _ _) (fun _ => stamped) rfl (fun _ => flight) (.inr rfl)
    · exact .onward (.refl _ _) (fun _ => stamped) rfl (fun _ => flight) (.inr rfl)
  · exact .idle

/-- The call reads its clock. -/
theorem clock_turn {phase : Phase} (read : p.phase = .begun ∨ p.phase = .checked)
    (next : phase = .clocked ∨ phase = .ready) :
    Turn env w p (w.put { p with now := w.clock, phase }) := by
  rw [put_turned]
  have hstage : phase.stage = 0 := by rcases next with rfl | rfl <;> rfl
  have hflight : phase.inFlight = false := by rcases next with rfl | rfl <;> rfl
  have hdated : phase.dated = false := by rcases next with rfl | rfl <;> rfl
  refine .move ⟨rfl, .inl rfl, .refl _ _, fun _ => .inr ⟨read, rfl⟩, ?_, ?_, ?_⟩ rfl (.inl ?_) rfl rfl ?_
    fun _ => hflight
  · intro h
    exact absurd (hdated.symm.trans h) nofun
  · intro tries seen h
    exact absurd h (Phase.not_counting (Phase.dated_counting hdated) tries seen)
  · intro h
    exact absurd (hflight.symm.trans h) nofun
  · rw [hstage]
    rcases read with hp | hp <;> rw [hp] <;> rfl
  · intro h
    exact absurd (hdated.symm.trans h) nofun

/-- Every step of a process is one of these. -/
theorem advance_turn : Turn env w p (w.advance env p) := by
  unfold World.advance
  cases hphase : p.phase with
  | tickBegun => exact beginTick_turn
  | tickSynced => exact dueRefresh_turn
  | begun =>
    have hbefore : Phase.checked.stage = p.phase.stage := by rw [hphase]; rfl
    cases hkind : p.kind with
    | syncUsage force =>
      dsimp only
      rw [← hkind]
      exact clock_turn (.inl hphase) (.inl rfl)
    | updateAdminConfig values => exact readConfig_turn
    | refresh scheduled => exact check_turn nofun rfl rfl hbefore
    | testConnection => exact check_turn nofun rfl rfl hbefore
  | clocked =>
    apply check_turn _ rfl rfl
    · rw [hphase]
      rfl
    · rw [hphase]
      exact fun _ => rfl
  | checked => exact clock_turn (.inr hphase) (.inr rfl)
  | ready => exact lock_turn hphase
  | locked =>
    apply reset_turn
    · rw [hphase]
      rfl
    · rw [hphase]
      rfl
    · rw [hphase]
      nofun
    · exact fun _ => hphase
    · rfl
    · rw [hphase]
      rfl
  | reserving tries => exact read_turn hphase
  | counting tries seen => exact count_turn hphase
  | counted => exact snapshot_turn hphase
  | reserved => exact request_turn hphase
  | completing answer =>
    apply reset_turn
    · rw [hphase]
      rfl
    · rw [hphase]
      rfl
    · rw [hphase]
      nofun
    · nofun
    · rfl
    · rw [hphase]
      rfl
  | completed answer =>
    have copies : p.session.Sees w.row
        (p.session.execute (countCompleted (env.budgetDate p.now))) :=
      Session.sees_execute (Update.on_limits fun _ => rfl) p.session w.row
    have heq : w.execute p (countCompleted (env.budgetDate p.now)) (.processing answer) =
        w.turned { p with
            session := p.session.execute (countCompleted (env.budgetDate p.now))
            phase := .processing answer }
          ((countCompleted (env.budgetDate p.now)).on w.row) [] w.keys w.storedKey := by
      simp [World.execute, World.turned, World.put]
    dsimp only
    rw [heq]
    refine .move (.onward copies ?_ nofun rfl ?_) rfl (.inr rfl) ?_ ?_ nofun ?_
    · rw [hphase]
      exact fun _ => rfl
    · rw [hphase]
      exact fun _ => .inl rfl
    · unfold Update.on
      split <;> rfl
    · unfold Update.on
      split <;> rfl
    · rw [hphase]
      nofun
  | processing answer => exact processAnswer_turn hphase
  | saving answer fetchedAt => exact commitAnswer_turn hphase
  | releasing => exact release_turn
  | configuring =>
    cases hkind : p.kind with
    | updateAdminConfig values => exact storeConfig_turn hkind
    | refresh _ | testConnection | syncUsage _ => exact .idle
  | keyed =>
    cases hkind : p.kind with
    | updateAdminConfig values => exact unblock_turn hkind hphase
    | refresh _ | testConnection | syncUsage _ => exact .idle
  | requested | ended => exact .idle

theorem Turn.log (t : Turn env w p w') : ∃ events, w'.log = w.log ++ events := by
  cases t with
  | idle => exact ⟨[], (List.append_nil _).symm⟩
  | move | locked | reset | counted | requested | committed | started | configured => exact ⟨_, rfl⟩

/-- A step of a run is time that passes, a new process or a step of a process. -/
inductive Move (env : Environment) (w : World) (a : Action) : World → Prop
  | elapse (duration : Time) : Move env w a { w with clock := w.clock + duration }
  | spawn {session : Session} {kind : Kind} {phase : Phase}
      (copies : ∀ c ∈ session.copy, c = w.row) (stage : phase = .begun ∨ phase = .tickBegun)
      (called : ∀ values, kind = .updateAdminConfig values → ∃ keeps, a = .call keeps kind) :
      Move env w a (w.spawn session kind phase)
  | turn {p : Process} {w' : World} (found : p ∈ w.processes)
      (acts : a = .advance p.id ∧ w.process p.id = some p ∨ p.phase = .requested)
      (turn : Turn env w p w') : Move env w a w'
  | crash {p : Process} (found : p ∈ w.processes) : Move env w a (w.enter p .ended)
  | idle : Move env w a w

theorem enter_ended_turn : Turn env w p (w.enter p .ended) :=
  .onward (.refl _ _) nofun rfl nofun (.inr rfl)

theorem step_move (env : Environment) (w : World) (a : Action) : Move env w a (w.step env a) := by
  cases a with
  | elapse duration => exact .elapse duration
  | call keeps kind =>
    refine .spawn ?_ (.inl rfl) fun _ _ => ⟨keeps, rfl⟩
    intro c hc
    cases hc
  | tick keeps =>
    refine .spawn ?_ (.inr rfl) nofun
    intro c hc
    cases keeps with
    | true => exact (Option.some.inj hc).symm
    | false => cases hc
  | advance id =>
    simp only [World.step]
    cases hp : w.process id with
    | none => exact .idle
    | some p =>
      obtain ⟨hmem, rfl⟩ := Table.get_some hp
      exact .turn hmem (.inl ⟨rfl, hp⟩) advance_turn
  | answer id answer =>
    simp only [World.step]
    cases hp : w.process id with
    | none => exact .idle
    | some p =>
      dsimp only [Option.map_some, Option.getD_some]
      by_cases hphase : p.phase = .requested
      · exact .turn (Table.get_some hp).1 (.inr hphase) (answered_turn answer)
      have hidle : w.answered p answer = w := by
        unfold World.answered
        split
        · contradiction
        · rfl
      rw [hidle]
      exact .idle
  | crash id =>
    simp only [World.step]
    cases hp : w.process id with
    | none => exact .idle
    | some p => exact .crash (Table.get_some hp).1

end

end FlowHub.ExchangeRates
