import Mathlib.Data.Rat.Lemmas
import FlowHub.Spacing
import FlowHub.Table

namespace FlowHub.RateLimit

def minRpm : Int := 1

def maxRpm : Int := 1000

/-- A rate that `_clamp_rpm` gives. -/
def Rpm : Type := { n : Int // minRpm ≤ n ∧ n ≤ maxRpm }

deriving instance DecidableEq for Rpm

def clampRpm (value : Int) : Rpm :=
  ⟨min maxRpm (max minRpm value), by simp only [minRpm, maxRpm]; omega⟩

structure RateLimitAcquireResult where
  (connectorId operation : String)
  rpm : Int
  delaySeconds : Rat
  delayed : Bool
  queueLength : Nat
  estimatedDelayMs : Rat
  (requestsCompleted requestsDelayed throttleEvents : Nat)
  averageRequestDurationMs : Rat
  lastThrottleAt : Option Int
  lastConnectorDelayMs : Rat
  deriving DecidableEq

structure AsyncTokenBucket where
  (connectorId operation : String)
  rpm : Rpm
  nextAvailable : Rat := 0
  queueLength : Nat := 0
  requestsCompleted : Nat := 0
  requestsDelayed : Nat := 0
  throttleEvents : Nat := 0
  lastThrottleAt : Option Int := none
  lastConnectorDelayMs : Rat := 0
  avgRequestDurationMs : Rat := 0

/-- The seconds between two grants. -/
def Rpm.interval (rpm : Rpm) : Rat := 60 / rpm.val

/-- What a caller takes from its first hold of the lock. -/
structure Reservation where
  rpm : Rpm
  (now delay : Rat)

namespace Reservation

def grant (r : Reservation) : Rat := r.now + r.delay

def gap (r : Reservation) : Rat := r.rpm.interval

end Reservation

namespace AsyncTokenBucket

variable (b : AsyncTokenBucket)

def updateRpm (rpm : Int) : AsyncTokenBucket := { b with rpm := clampRpm rpm }

def delay (now : Rat) : Rat := max 0 (b.nextAvailable - now)

def reservation (now : Rat) : Reservation := ⟨b.rpm, now, b.delay now⟩

/-- The first hold of the lock in `acquire`. -/
def reserve (now : Rat) (wall : Int) : AsyncTokenBucket :=
  let delayed := decide (0 < b.delay now)
  { b with
    queueLength := b.queueLength + 1
    nextAvailable := max now b.nextAvailable + b.rpm.interval
    requestsDelayed := if delayed then b.requestsDelayed + 1 else b.requestsDelayed
    throttleEvents := if delayed then b.throttleEvents + 1 else b.throttleEvents
    lastThrottleAt := if delayed then some wall else b.lastThrottleAt
    lastConnectorDelayMs := if delayed then b.delay now * 1000 else b.lastConnectorDelayMs }

/-- The second hold of the lock in `acquire`. -/
def account (elapsedMs : Rat) : AsyncTokenBucket :=
  { b with
    queueLength := b.queueLength - 1
    requestsCompleted := b.requestsCompleted + 1
    avgRequestDurationMs :=
      if elapsedMs ≠ 0 ∨ b.avgRequestDurationMs = 0 then
        if b.avgRequestDurationMs = 0 then elapsedMs
        else b.avgRequestDurationMs * (8 / 10) + elapsedMs * (2 / 10)
      else b.avgRequestDurationMs }

def result (rpm : Rpm) (delay : Rat) : RateLimitAcquireResult where
  connectorId := b.connectorId
  operation := b.operation
  rpm := rpm.val
  delaySeconds := delay
  delayed := decide (0 < delay)
  queueLength := b.queueLength
  estimatedDelayMs := rpm.interval * 1000
  requestsCompleted := b.requestsCompleted
  requestsDelayed := b.requestsDelayed
  throttleEvents := b.throttleEvents
  averageRequestDurationMs := b.avgRequestDurationMs
  lastThrottleAt := b.lastThrottleAt
  lastConnectorDelayMs := b.lastConnectorDelayMs

def snapshot : RateLimitAcquireResult := b.result b.rpm 0

end AsyncTokenBucket

/-- Where a caller is in `acquire`. -/
inductive Phase where
  | reserved
  | sleeping (started : Rat)
  | returned (result : RateLimitAcquireResult)
  | cancelled
  deriving DecidableEq

structure Caller where
  reservation : Reservation
  phase : Phase

namespace Caller

/-- It has called `acquire`, which has neither returned nor been cancelled. -/
def waiting (c : Caller) : Bool :=
  match c.phase with
  | .reserved | .sleeping _ => true
  | .returned _ | .cancelled => false

def isCancelled (c : Caller) : Bool := decide (c.phase = .cancelled)

end Caller

/-- A bucket, with those who called `acquire` in the order they took the lock. -/
structure Limiter where
  bucket : AsyncTokenBucket
  callers : List Caller := []

/-- A step of a caller, or a new rate. -/
inductive Call where
  | acquire (wall : Int)
  | sleep (caller : Nat)
  | wake (caller : Nat)
  | cancel (caller : Nat)
  | updateRpm (rpm : Int)

namespace Limiter

def new (connectorId operation : String) (rpm : Int) : Limiter :=
  { bucket := { connectorId, operation, rpm := clampRpm rpm } }

variable (l : Limiter)

def acquire (now : Rat) (wall : Int) : Limiter where
  bucket := l.bucket.reserve now wall
  callers := l.callers ++ [⟨l.bucket.reservation now, .reserved⟩]

/-- The caller enters a phase. -/
def put (i : Nat) (c : Caller) (phase : Phase) : Limiter :=
  { l with callers := l.callers.set i { c with phase } }

/-- The sleeper has returned, or there is no delay to sleep. -/
def wake (now : Rat) (i : Nat) (c : Caller) (started : Rat) : Limiter :=
  let bucket := l.bucket.account (max 0 ((now - started) * 1000))
  { l with bucket }.put i c (.returned (bucket.result c.reservation.rpm c.reservation.delay))

def step (now : Rat) : Call → Limiter
  | .acquire wall => l.acquire now wall
  | .sleep i =>
    match l.callers[i]? with
    | some c => if c.phase = .reserved then l.put i c (.sleeping now) else l
    | none => l
  | .wake i =>
    match l.callers[i]? with
    | some c =>
      match c.phase with
      | .sleeping started => l.wake now i c started
      | _ => l
    | none => l
  | .cancel i =>
    match l.callers[i]? with
    | some c =>
      match c.phase with
      | .sleeping _ => if 0 < c.reservation.delay then l.put i c .cancelled else l
      | _ => l
    | none => l
  | .updateRpm rpm => { l with bucket := l.bucket.updateRpm rpm }

/-- A run: each step with what the clock shows at it. -/
def after (calls : List (Rat × Call)) : Limiter :=
  calls.foldl (fun l call => l.step call.1 call.2) l

def waiting (l : Limiter) : Nat := l.callers.countP Caller.waiting

def cancelled : Nat := l.callers.countP Caller.isCancelled

/-- The scheduled grants, in the order of the calls. -/
def grants : List Reservation := l.callers.map Caller.reservation

/-- The grants from an instant on, for some seconds. -/
def window (start length : Rat) : List Reservation :=
  l.grants.filter fun r => decide (start ≤ r.grant ∧ r.grant ≤ start + length)

end Limiter

end FlowHub.RateLimit
