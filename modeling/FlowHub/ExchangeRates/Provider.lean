import FlowHub.Python.Text
import FlowHub.Domain

namespace FlowHub.ExchangeRates

/-- A date of the budget. -/
abbrev Date := Nat

structure ExchangeRateProviderConfig where
  enabled : Bool := false
  refreshesPerDay : Int := 1
  dailyRequestLimit : Int := 120
  reservedRequestCount : Int := 10
  requestCountDate : Option Date := none
  requestCount : Nat := 0
  requestCompletedCount : Nat := 0
  providerDailyUsage : Option Nat := none
  usageNextSyncAt : Option Time := none
  nextRefreshAt : Option Time := none
  consecutiveFailures : Nat := 0
  authenticationBlocked : Bool := false
  refreshLockUntil : Option Time := none
  refreshLockToken : Option Nat := none
  deriving DecidableEq

namespace ExchangeRateProviderConfig

variable (c : ExchangeRateProviderConfig)

def safeLimit : Int :=
  max 0 (c.dailyRequestLimit - c.reservedRequestCount)

def effectiveUsage : Nat :=
  max c.requestCount (c.providerDailyUsage.getD 0)

/-- The test of `reserve`. -/
def exhausted : Bool :=
  decide (c.safeLimit < 1) || decide (c.safeLimit ≤ c.effectiveUsage)

def due (next : Option Time) (c : ExchangeRateProviderConfig) : ExchangeRateProviderConfig :=
  { c with nextRefreshAt := next }

end ExchangeRateProviderConfig

/-- An `UPDATE` of the provider's row. -/
structure Update where
  criteria : ExchangeRateProviderConfig → Bool
  values : ExchangeRateProviderConfig → ExchangeRateProviderConfig

def Update.on (u : Update) (c : ExchangeRateProviderConfig) : ExchangeRateProviderConfig :=
  if u.criteria c then u.values c else c

/-- The row with the columns that an object has changed since it was loaded. -/
def written (loaded changed row : ExchangeRateProviderConfig) : ExchangeRateProviderConfig :=
  let pick {α : Type} [DecidableEq α] (column : ExchangeRateProviderConfig → α) : α :=
    if column changed = column loaded then column row else column changed
  { enabled := pick (·.enabled)
    refreshesPerDay := pick (·.refreshesPerDay)
    dailyRequestLimit := pick (·.dailyRequestLimit)
    reservedRequestCount := pick (·.reservedRequestCount)
    requestCountDate := pick (·.requestCountDate)
    requestCount := pick (·.requestCount)
    requestCompletedCount := pick (·.requestCompletedCount)
    providerDailyUsage := pick (·.providerDailyUsage)
    usageNextSyncAt := pick (·.usageNextSyncAt)
    nextRefreshAt := pick (·.nextRefreshAt)
    consecutiveFailures := pick (·.consecutiveFailures)
    authenticationBlocked := pick (·.authenticationBlocked)
    refreshLockUntil := pick (·.refreshLockUntil)
    refreshLockToken := pick (·.refreshLockToken) }

/-- A session, with its copy of the row. The one of the runner keeps the copy over a commit. -/
structure Session where
  keeps : Bool
  copy : Option ExchangeRateProviderConfig := none

namespace Session

variable (s : Session)

variable (row : ExchangeRateProviderConfig)

/-- What the session shows of a row. -/
def view : ExchangeRateProviderConfig :=
  s.copy.getD row

def load : Session :=
  { s with copy := some (s.view row) }

def committed : Session := if s.keeps then s else { s with copy := none }

def rolledBack : Session := { s with copy := none }

/-- An `UPDATE` changes the session's copy as it would the row, and is committed. -/
def execute (u : Update) : Session := { s with copy := s.copy.map u.on }.committed

/-- The row after assignments to the loaded object. -/
def flush (assign : ExchangeRateProviderConfig → ExchangeRateProviderConfig)
    (row : ExchangeRateProviderConfig) : ExchangeRateProviderConfig :=
  match s.copy with
  | none => assign row
  | some loaded => written loaded (assign loaded) row

def save (assign : ExchangeRateProviderConfig → ExchangeRateProviderConfig) : Session :=
  { s with copy := s.copy.map assign }.committed

/-- `ensure_provider`, and the attributes that are read after it. -/
def ensure : Session :=
  (s.load row).committed.load row

end Session

/-- What comes from outside the tables. -/
structure Environment where
  unicode : Python.Unicode
  /-- `FLOWHUB_NAVASAN_API_KEY` -/
  apiKey : String
  /-- `local_budget_date` -/
  budgetDate : Time → Date
  nextBudgetReset : Time → Time
  interval : Int → Time

def lockTtl : Time := minutes 5

def usageSyncInterval : Time := minutes (24 * 60)

section

variable (env : Environment)

def resetIfNeeded (today : Date) : Update where
  criteria c := decide (c.requestCountDate ≠ some today)
  values c := { c with
    requestCountDate := some today
    requestCount := 0
    requestCompletedCount := 0
    providerDailyUsage := none }

/-- The compare-and-set of `reserve`, for the row that it has read. -/
def countRequest (seen : ExchangeRateProviderConfig) : Update where
  criteria c := decide (c.requestCountDate = seen.requestCountDate ∧
    c.requestCount = seen.requestCount ∧ c.providerDailyUsage = seen.providerDailyUsage)
  values c := { c with requestCount := seen.requestCount + 1 }

/-- The last statement of `mark_completed`. -/
def countCompleted (today : Date) : Update where
  criteria c := decide (c.requestCountDate = some today)
  values c := { c with requestCompletedCount := c.requestCompletedCount + 1 }

/-- `_acquire_refresh_lock`. -/
def acquireLock (token : Nat) (now : Time) : Update where
  criteria c := c.refreshLockUntil.all fun t => decide (t ≤ now)
  values c := { c with refreshLockUntil := some (now + lockTtl), refreshLockToken := some token }

/-- `_release_refresh_lock`. -/
def releaseLock (token : Nat) : Update where
  criteria c := decide (c.refreshLockToken = some token)
  values c := { c with refreshLockUntil := none, refreshLockToken := none }

def authenticationFailed : String := "authentication_failed"

def scheduleFailure (now : Time) (errorCode : String) (c : ExchangeRateProviderConfig) :
    ExchangeRateProviderConfig :=
  let failures := c.consecutiveFailures + 1
  let interval := env.interval c.refreshesPerDay
  let backoff := minutes (min 60 (5 * 2 ^ (failures - 1)))
  let c := { c with consecutiveFailures := failures }
  if errorCode = authenticationFailed then
    { c with authenticationBlocked := true, nextRefreshAt := none }
  else if errorCode = "budget_exhausted" then
    { c with nextRefreshAt := some (env.nextBudgetReset now) }
  else if failures ≤ 3 then
    { c with nextRefreshAt := some (now + min interval backoff) }
  else { c with nextRefreshAt := some (now + interval) }

end

end FlowHub.ExchangeRates
