import FlowHub.ReadEngine.Incremental
import FlowHub.Webhooks.Receipts

namespace FlowHub.DataLayer

open ReadEngine (JobStatus)
open Webhooks (seconds)

structure DlRefreshJob where
  id : Nat
  entityType : String
  connectorId : Option Id
  status : JobStatus
  strategy : Option String
  resumable : Bool
  createdAt : Time
  (startedAt heartbeatAt leaseExpiresAt : Option Time)
  deriving DecidableEq

def policySeconds : List (String × Nat) :=
  [("products:initial_full_read", 1800), ("products:modified_since", 900),
   ("products:metadata_filter", 600), ("products:default", 900), ("source:default", 1800),
   ("destination:default", 1800), ("connectors:default", 600)]

namespace DlRefreshJob

def leaseSeconds (job : DlRefreshJob) : Nat :=
  let strategy := (job.strategy.filter (· ≠ "")).getD "default"
  (policySeconds.lookup (job.entityType ++ ":" ++ strategy)).getD
    ((policySeconds.lookup (job.entityType ++ ":default")).getD 900)

def lease (job : DlRefreshJob) (now : Time) : Time := now + seconds job.leaseSeconds

/-- What a lease is held on. -/
def channel (job : DlRefreshJob) : Option Id × String := (job.connectorId, job.entityType)

def leased (job : DlRefreshJob) (now : Time) : Bool :=
  job.leaseExpiresAt.any fun t => decide (now < t)

def isExpired (job : DlRefreshJob) (now : Time) : Bool :=
  match job.leaseExpiresAt with
  | some t => decide (t < now)
  | none =>
    decide (job.lease ((job.heartbeatAt.or job.startedAt).getD job.createdAt) < now)

/-- The order of recovery: a run without a start comes last. -/
def startedBefore (job other : DlRefreshJob) : Bool :=
  match job.startedAt, other.startedAt with
  | some s, some t => decide (s < t) || decide (s = t) && decide (job.id ≤ other.id)
  | some _, none => true
  | none, some _ => false
  | none, none => decide (job.id ≤ other.id)

end DlRefreshJob

/-- The arguments of a call of `run_manual`, with the strategy that it determined. -/
structure Call where
  connectorId : Id
  strategy : String
  forceFull : Bool
  deriving DecidableEq

/-- How far a worker is with its call. It executes a job between start and finish; `saved` is true
between the commit of a page's meta and that of the heartbeat. -/
inductive Phase where
  | idle
  | superseding (call : Call) (jobId : Nat)
  | creating (call : Call)
  | chosen (call : Call) (jobId : Nat) (startedAt : Option Time)
  | executing (jobId : Nat) (strategy : String) (saved : Bool)
  deriving DecidableEq

def Phase.job : Phase → Option Nat
  | .executing jobId _ _ => some jobId
  | _ => none

/-- What has been done to a job. -/
inductive Event where
  | started (worker jobId : Nat) (found : JobStatus)
  | cancelled (jobId : Nat)
  | finished (worker jobId : Nat)
  | recovered (jobId : Nat)
  deriving DecidableEq

namespace Event

/-- The job that is closed for good. -/
def closes : Event → Option Nat
  | .cancelled jobId | .finished _ jobId => some jobId
  | .started .. | .recovered _ => none

def starts : Event → Option Nat
  | .started _ jobId _ => some jobId
  | _ => none

end Event

structure World where
  clock : Time := 0
  jobs : List DlRefreshJob := []
  phases : Nat → Phase := fun _ => .idle
  log : List Event := []

/-- A step of a worker ends at its next commit. `lag` is how long it had waited for its locks since
it read the clock. -/
inductive Action where
  | tick (duration : Time)
  | look (worker : Nat) (call : Call) (existing : Option Nat)
  | supersede (worker : Nat)
  | create (worker : Nat)
  | start (worker : Nat) (lag : Time)
  | page (worker : Nat)
  | heartbeat (worker : Nat) (lag : Time)
  | fail (worker : Nat)
  | finish (worker : Nat)
  | crash (worker : Nat)
  | recover (lag : Time) (limit : Nat)

namespace World

variable (w : World)

def job (id : Nat) : Option DlRefreshJob := Table.get DlRefreshJob.id w.jobs id

variable (worker : Nat)

/-- A worker is between start and finish. -/
def executes (jobId : Nat) : Prop := (w.phases worker).job = some jobId

def setJob (id : Nat) (f : DlRefreshJob → DlRefreshJob) : World :=
  { w with jobs := Table.set DlRefreshJob.id w.jobs id f }

def enter (phase : Phase) : World :=
  { w with phases := Function.update w.phases worker phase }

def record (events : List Event) : World := { w with log := w.log ++ events }

def nextJob : Nat := (w.jobs.map DlRefreshJob.id).foldr max 0 + 1

def pendingJobs (connectorId : Id) : List DlRefreshJob :=
  w.jobs.filter fun job => decide (job.connectorId = some connectorId) &&
    decide (job.entityType = "products") && decide (job.status = .pending)

/-- A pending job with no newer one, if there is any pending job. -/
def isNewest (connectorId : Id) : Option Nat → Bool
  | some id => (w.pendingJobs connectorId).any fun job => decide (job.id = id) &&
      (w.pendingJobs connectorId).all fun other => decide (other.createdAt ≤ job.createdAt)
  | none => (w.pendingJobs connectorId).isEmpty

/-- The first query of `_resume_or_create_job`. -/
def look (call : Call) (existing : Option Nat) : World :=
  if w.phases worker = .idle ∧ w.isNewest call.connectorId existing then
    match existing.bind w.job with
    | some job =>
      if call.forceFull then w.enter worker (.superseding call job.id)
      else if job.resumable then w.enter worker (.chosen call job.id job.startedAt)
      else w.enter worker (.creating call)
    | none => w.enter worker (.creating call)
  else w

def supersede : World :=
  match w.phases worker with
  | .superseding call jobId =>
    match w.job jobId with
    | none => w.enter worker .idle
    | some _ =>
      (w.setJob jobId fun job => { job with status := .failed }).enter worker (.creating call)
  | _ => w

def create : World :=
  match w.phases worker with
  | .creating call =>
    let job : DlRefreshJob := {
      id := w.nextJob
      entityType := "products"
      connectorId := some call.connectorId
      status := .pending
      strategy := some call.strategy
      resumable := false
      createdAt := w.clock
      startedAt := none
      heartbeatAt := none
      leaseExpiresAt := none }
    { w with jobs := w.jobs ++ [job] }.enter worker (.chosen call job.id none)
  | _ => w

/-- Another job of the channel that runs under an unexpired lease. -/
def active (job : DlRefreshJob) (now : Time) : Bool :=
  w.jobs.any fun contender => decide (contender.channel = job.channel) &&
    decide (contender.id ≠ job.id) && decide (contender.status = .running) && contender.leased now

/-- `RefreshJobLifecycle.start`, and the strategy that the run goes on with. -/
def start (lag : Time) : World :=
  match w.phases worker with
  | .chosen call jobId startedAt =>
    match w.job jobId with
    | none => w.enter worker .idle
    | some job =>
      let now := w.clock - lag
      if w.active job now then
        ((w.setJob jobId fun job => { job with status := .cancelled }).enter worker .idle).record
          [.cancelled jobId]
      else
        ((w.setJob jobId fun job => { job with
            status := .running
            startedAt := some (startedAt.getD now)
            heartbeatAt := some now
            leaseExpiresAt := some (job.lease now) }).enter worker
          (.executing jobId ((job.strategy.filter (· ≠ "")).getD call.strategy) false)).record
          [.started worker jobId job.status]
  | _ => w

/-- `_save_job_meta`. -/
def page : World :=
  match w.phases worker with
  | .executing jobId strategy false =>
    (w.setJob jobId fun job => { job with strategy := some strategy, resumable := false }).enter worker
      (.executing jobId strategy true)
  | _ => w

def heartbeat (lag : Time) : World :=
  match w.phases worker with
  | .executing jobId strategy true =>
    let now := w.clock - lag
    (w.setJob jobId fun job => { job with
      heartbeatAt := some now, leaseExpiresAt := some (job.lease now) }).enter worker
      (.executing jobId strategy false)
  | _ => w

/-- An exception leaves the loop over the pages. -/
def fail : World :=
  match w.phases worker with
  | .executing jobId _ _ =>
    (w.setJob jobId fun job => { job with status := .pending, resumable := true }).enter worker .idle
  | _ => w

def finish : World :=
  match w.phases worker with
  | .executing jobId _ false =>
    ((w.setJob jobId fun job => { job with
      status := .completed, heartbeatAt := some w.clock, leaseExpiresAt := none }).enter worker
      .idle).record [.finished worker jobId]
  | _ => w

def recoverable (now : Time) (limit : Nat) : List DlRefreshJob :=
  (((w.jobs.filter fun job => decide (job.status = .running)).insertionSort
    (DlRefreshJob.startedBefore · ·)).take limit).filter (·.isExpired now)

/-- `recover_expired`. -/
def recover (lag : Time) (limit : Nat) : World :=
  let ids := (w.recoverable (w.clock - lag) limit).map DlRefreshJob.id
  let jobs := w.jobs.map fun job : DlRefreshJob =>
    if job.id ∈ ids then { job with status := .failed, leaseExpiresAt := none } else job
  { w with jobs }.record (ids.map .recovered)

def step : Action → World
  | .tick duration => { w with clock := w.clock + duration }
  | .look worker call existing => w.look worker call existing
  | .supersede worker => w.supersede worker
  | .create worker => w.create worker
  | .start worker lag => w.start worker lag
  | .page worker => w.page worker
  | .heartbeat worker lag => w.heartbeat worker lag
  | .fail worker => w.fail worker
  | .finish worker => w.finish worker
  | .crash worker => w.enter worker .idle
  | .recover lag limit => w.recover lag limit

def after (actions : List Action) : World := actions.foldl step w

end World

/-- Every step of a run meets a condition on it and on the world before it. -/
def Along (condition : World → Action → Prop) : World → List Action → Prop
  | _, [] => True
  | w, a :: rest => condition w a ∧ Along condition (w.step a) rest

end FlowHub.DataLayer
