import FlowHub.ExchangeRates.Provider
import FlowHub.Table

namespace FlowHub.ExchangeRates

structure AdminValues where
  enabled : Option Bool := none
  refreshesPerDay : Option Int := none
  dailyRequestLimit : Option Int := none
  reservedRequestCount : Option Int := none
  apiKey : String := ""

inductive Kind where
  | refresh (scheduled : Bool)
  | testConnection
  | syncUsage (force : Bool)
  | updateAdminConfig (values : AdminValues)

/-- How a request ends: the configured rates of the response or the daily usage in it, an
`ExchangeRateProviderError` with or without a response, or another exception. -/
inductive Answer where
  | served (number : Nat)
  | error (code : String) (responded : Bool)
  | raises
  deriving DecidableEq

/-- How far a process has come. -/
inductive Phase where
  | tickBegun | tickSynced | begun | clocked | checked | ready | locked
  | reserving (tries : Nat)
  | counting (tries : Nat) (seen : ExchangeRateProviderConfig)
  | counted | reserved | requested
  | completing (answer : Answer)
  | completed (answer : Answer)
  | processing (answer : Answer)
  | saving (answer : Answer) (fetchedAt : Time)
  | releasing | configuring | keyed | ended
  deriving DecidableEq

/-- A process that makes one call after the other, of which only a tick makes two. The key names the
call; it is the token of its lock. -/
structure Process where
  id : Nat
  tick : Option Time
  session : Session
  kind : Kind
  key : Nat
  now : Time
  phase : Phase

/-- What is seen from outside. -/
inductive Event where
  | reserved (key : Nat)
  | requested (key : Nat)
  | reported (key : Nat)
  | blocked (key : Nat)
  | keyStored
  deriving DecidableEq

structure World where
  clock : Time
  row : ExchangeRateProviderConfig
  storedKey : String
  processes : List Process := []
  keys : Nat := 0
  log : List Event := []

/-- Nobody has called yet. -/
def World.new (clock : Time) (row : ExchangeRateProviderConfig) (storedKey : String) : World :=
  { clock, row, storedKey }

inductive Action where
  | elapse (duration : Time)
  | call (keeps : Bool) (kind : Kind)
  | tick (keeps : Bool)
  | advance (process : Nat)
  | answer (process : Nat) (answer : Answer)
  | crash (process : Nat)

namespace World

variable (w : World)

def process (id : Nat) : Option Process := Table.get Process.id w.processes id

variable (p : Process)

def put : World :=
  { w with processes := Table.set Process.id w.processes p.id fun _ => p }

def enter (phase : Phase) : World := w.put { p with phase }

/-- An `UPDATE` and its commit. -/
def execute (w : World) (p : Process) (u : Update) (phase : Phase) : World :=
  { w.put { p with session := p.session.execute u, phase } with row := u.on w.row }

/-- The commit of assignments to the loaded object. -/
def save (w : World) (p : Process)
    (assign : ExchangeRateProviderConfig → ExchangeRateProviderConfig) (phase : Phase) : World :=
  { w.put { p with session := p.session.save assign, phase } with row := p.session.flush assign w.row }

def record (event : Event) : World := { w with log := w.log ++ [event] }

/-- The next call of a process. -/
def start (kind : Kind) : World :=
  { w.put { p with kind, key := w.keys, phase := .begun } with keys := w.keys + 1 }

/-- The end of a call. -/
def finish : World :=
  match p.tick, p.kind with
  | some _, .syncUsage _ => w.enter p .tickSynced
  | _, _ => w.enter p .ended

section

variable (env : Environment)

variable (w : World)

def hasCredentials : Bool :=
  let key := if env.apiKey ≠ "" then env.apiKey else w.storedKey
  !(Python.strip env.unicode key.toList).isEmpty

variable (p : Process)

/-- The usage that was last reported is recent enough. -/
def cached (seen : ExchangeRateProviderConfig) : Bool :=
  match p.kind with
  | .syncUsage force => !force && seen.usageNextSyncAt.any fun t => decide (p.now < t)
  | _ => false

/-- The tests before the lock is taken. -/
def check (next : Phase) : World :=
  let session := p.session.ensure w.row
  let seen := session.view w.row
  if seen.enabled && w.hasCredentials env && !seen.authenticationBlocked && !cached p seen then
    w.put { p with session, phase := next }
  else w.finish { p with session }

def lock : World :=
  let update := acquireLock p.key p.now
  if update.criteria w.row then w.execute p update .locked
  else w.finish { p with session := p.session.execute update }

/-- `_reset_if_needed`. -/
def reset (phase : Phase) : World :=
  w.execute { p with session := p.session.load w.row } (resetIfNeeded (env.budgetDate p.now)) phase

/-- A try of `reserve` reads the row. -/
def read : Nat → World
  | 0 => w.enter p (.processing (.error "budget_contention" false))
  | tries + 1 =>
    let session := p.session.load w.row
    let seen := session.view w.row
    if seen.exhausted then
      w.put { p with session, phase := .processing (.error "budget_exhausted" false) }
    else w.put { p with session, phase := .counting tries seen }

/-- A try of `reserve` counts the request. -/
def count (tries : Nat) (seen : ExchangeRateProviderConfig) : World :=
  if (countRequest seen).criteria w.row then
    (w.execute p (countRequest seen) .counted).record (.reserved p.key)
  else w.put { p with session := p.session.rolledBack, phase := .reserving tries }

/-- The end of `reserve`, which reads the row for a snapshot. -/
def snapshot : World :=
  let update := resetIfNeeded (env.budgetDate p.now)
  let row := update.on w.row
  let session := ((p.session.load w.row).execute update).load row
  { w.put { p with session, phase := .reserved } with row }

def request : World :=
  if w.hasCredentials env then (w.enter p .requested).record (.requested p.key)
  else w.enter p (.processing (.error "missing_credentials" false))

/-- The response, or the exception that stands for it. -/
def answered (answer : Answer) : World :=
  match p.phase with
  | .requested =>
    match answer with
    | .served _ | .error _ true => w.enter p (.completing answer)
    | .error _ false | .raises => w.enter p (.processing answer)
  | _ => w

/-- What a call makes of the answer. -/
def processAnswer (answer : Answer) : World :=
  let loaded : Process := { p with session := p.session.load w.row }
  match p.kind, answer with
  | .refresh _, .served number =>
    let ensured : Process := { p with session := p.session.ensure w.row }
    if number = 0 then w.enter ensured (.saving (.error "partial_response" false) w.clock)
    else w.enter ensured (.saving answer w.clock)
  | .refresh _, .error .. => w.enter loaded (.saving answer w.clock)
  | .refresh _, .raises =>
    w.enter { p with session := p.session.rolledBack.load w.row } (.saving answer w.clock)
  | .testConnection, .error code _ =>
    if code = authenticationFailed then w.enter loaded (.saving answer w.clock)
    else w.enter p .releasing
  | .syncUsage _, .served _ | .syncUsage _, .error .. => w.enter loaded (.saving answer w.clock)
  | _, _ => w.enter p .releasing

/-- The assignments that a call commits in the end. -/
def assignments (now : Time) (kind : Kind) (answer : Answer) (fetchedAt : Time)
    (c : ExchangeRateProviderConfig) : ExchangeRateProviderConfig :=
  match kind, answer with
  | .refresh _, .served _ =>
    { c with
      consecutiveFailures := 0
      authenticationBlocked := false
      nextRefreshAt := some (fetchedAt + env.interval c.refreshesPerDay) }
  | .refresh _, .error code _ => scheduleFailure env now code c
  | .refresh _, .raises => scheduleFailure env now "internal_refresh_error" c
  | .syncUsage _, .served daily =>
    { c with providerDailyUsage := some daily, usageNextSyncAt := some (now + usageSyncInterval) }
  | .syncUsage _, .error code _ =>
    if code = authenticationFailed then
      { c with usageNextSyncAt := none, authenticationBlocked := true }
    else { c with usageNextSyncAt := some (now + minutes 60) }
  | .testConnection, .error code _ =>
    if code = authenticationFailed then
      { c with authenticationBlocked := true, nextRefreshAt := none }
    else c
  | _, _ => c

/-- What is seen of a commit, of a block where the row is left blocked. -/
def eventOf (answer : Answer) (row : ExchangeRateProviderConfig) : Option Event :=
  match p.kind, answer with
  | .syncUsage _, .served _ => some (.reported p.key)
  | _, .error code _ =>
    if code = authenticationFailed ∧ row.authenticationBlocked = true then some (.blocked p.key)
    else none
  | _, _ => none

def commitAnswer (answer : Answer) (fetchedAt : Time) : World :=
  let w' := w.save p (assignments env w.clock p.kind answer fetchedAt) .releasing
  { w' with log := w'.log ++ (eventOf p answer w'.row).toList }

def release : World :=
  let p' : Process := { p with session := p.session.execute (releaseLock p.key) }
  { w.finish p' with row := (releaseLock p.key).on w.row }

/-- The first part of `scheduler_tick`. -/
def beginTick : World :=
  let session := p.session.ensure w.row
  let seen := session.view w.row
  if seen.enabled && w.hasCredentials env && !seen.authenticationBlocked then
    w.start { p with session, tick := some w.clock } (.syncUsage false)
  else w.save { p with session } (.due none) .ended

/-- The second part of `scheduler_tick`. -/
def dueRefresh : World :=
  let session := p.session.load w.row
  let seen := session.view w.row
  let now := p.tick.getD 0
  match seen.nextRefreshAt with
  | none =>
    let w' : World := { w with row := session.flush (.due (some now)) w.row }
    w'.start { p with session := session.save (.due (some now)) } (.refresh true)
  | some next =>
    if now < next then w.put { p with session, phase := .ended }
    else w.start { p with session } (.refresh true)

/-- The values of `update_admin_config` fit together. -/
def validConfig (c : ExchangeRateProviderConfig) : Bool :=
  decide (2 ≤ c.dailyRequestLimit ∧ 0 ≤ c.reservedRequestCount ∧
    c.reservedRequestCount < c.dailyRequestLimit ∧ 1 ≤ c.refreshesPerDay ∧
    c.refreshesPerDay ≤ c.dailyRequestLimit - c.reservedRequestCount - 1)

def configured (values : AdminValues) (c : ExchangeRateProviderConfig) : ExchangeRateProviderConfig :=
  { c with
    enabled := values.enabled.getD c.enabled
    refreshesPerDay := values.refreshesPerDay.getD c.refreshesPerDay
    dailyRequestLimit := values.dailyRequestLimit.getD c.dailyRequestLimit
    reservedRequestCount := values.reservedRequestCount.getD c.reservedRequestCount }

def readConfig (values : AdminValues) : World :=
  let session := p.session.ensure w.row
  if validConfig (configured values (session.view w.row)) then
    w.put { p with session, phase := .configuring }
  else w.put { p with session, phase := .ended }

/-- `next_refresh_at` after an update. -/
def restarted (c : ExchangeRateProviderConfig) : ExchangeRateProviderConfig :=
  { c with nextRefreshAt := if c.enabled && w.hasCredentials env then some w.clock else none }

def storeConfig (values : AdminValues) : World :=
  let submitted := Python.strip env.unicode values.apiKey.toList
  if submitted.isEmpty then w.save p (fun c => w.restarted env (configured values c)) .ended
  else
    { w.save p (configured values) .keyed with storedKey := String.ofList submitted }

/-- The second commit of an update that has stored a key. -/
def unblock : World :=
  (w.save p (fun c => w.restarted env
    { c with authenticationBlocked := false, usageNextSyncAt := none }) .ended).record .keyStored

/-- The next step of a process, up to its next commit or its next wait. -/
def advance : World :=
  match p.phase with
  | .tickBegun => w.beginTick env p
  | .tickSynced => w.dueRefresh p
  | .begun =>
    match p.kind with
    | .syncUsage _ => w.put { p with now := w.clock, phase := .clocked }
    | .updateAdminConfig values => w.readConfig p values
    | .refresh _ | .testConnection => w.check env p .checked
  | .clocked => w.check env p .ready
  | .checked => w.put { p with now := w.clock, phase := .ready }
  | .ready => w.lock p
  | .locked => w.reset env p (.reserving 5)
  | .reserving tries => w.read p tries
  | .counting tries seen => w.count p tries seen
  | .counted => w.snapshot env p
  | .reserved => w.request env p
  | .completing answer => w.reset env p (.completed answer)
  | .completed answer =>
    w.execute p (countCompleted (env.budgetDate p.now)) (.processing answer)
  | .processing answer => w.processAnswer p answer
  | .saving answer fetchedAt => w.commitAnswer env p answer fetchedAt
  | .releasing => w.release p
  | .configuring =>
    match p.kind with
    | .updateAdminConfig values => w.storeConfig env p values
    | _ => w
  | .keyed =>
    match p.kind with
    | .updateAdminConfig _ => w.unblock env p
    | _ => w
  | .requested | .ended => w

def spawn (session : Session) (kind : Kind) (phase : Phase) : World :=
  { w with
    processes := w.processes ++ [⟨w.processes.length, none, session, kind, w.keys, 0, phase⟩]
    keys := w.keys + 1 }

/-- The runner has read the row before its tick. -/
def step : Action → World
  | .elapse duration => { w with clock := w.clock + duration }
  | .call keeps kind => w.spawn { keeps } kind .begun
  | .tick keeps =>
    w.spawn { keeps, copy := if keeps then some w.row else none } (.syncUsage false) .tickBegun
  | .advance id => ((w.process id).map (w.advance env)).getD w
  | .answer id answer => ((w.process id).map fun p => w.answered p answer).getD w
  | .crash id => ((w.process id).map fun p => w.enter p .ended).getD w

def after (actions : List Action) : World := actions.foldl (step env) w

end

end World

/-- Every step of a run meets a condition on it and on the world before it. -/
def Along (env : Environment) (condition : World → Action → Prop) : World → List Action → Prop
  | _, [] => True
  | w, a :: rest => condition w a ∧ Along env condition (w.step env a) rest

instance (env : Environment) (condition : World → Action → Prop)
    [∀ w a, Decidable (condition w a)] (w : World) (actions : List Action) :
    Decidable (Along env condition w actions) := by
  induction actions generalizing w with
  | nil => exact isTrue trivial
  | cons a rest ih => exact @instDecidableAnd _ _ _ (ih _)

theorem along_append : Along env condition w (before ++ later) ↔
      Along env condition w before ∧ Along env condition (w.after env before) later := by
  induction before generalizing w with
  | nil => simp [Along, World.after]
  | cons a rest ih => simp [Along, World.after, ih, and_assoc]

end FlowHub.ExchangeRates
