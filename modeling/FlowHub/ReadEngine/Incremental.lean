import FlowHub.ReadEngine.FullRead
import FlowHub.Python.Collections

namespace FlowHub.ReadEngine

open Python

/-- A connector whose provider can be asked for what was modified since a time. -/
structure Connector where
  unicode : Unicode
  printable : Char → Bool
  dialect : Dialect
  id : Id

inductive JobStatus where
  | pending | running | completed | failed | cancelled
  deriving DecidableEq

inductive Strategy where
  | initialFullRead | modifiedSince
  deriving DecidableEq

def Strategy.leaseSeconds : Strategy → Nat
  | .initialFullRead => 1800
  | .modifiedSince => 900

structure DlRefreshJob where
  id : Nat
  status : JobStatus
  strategy : Strategy
  cursor : Option String
  (startedAt leaseExpiresAt : Option Time)

/-- What the provider has from some moment on for a product. -/
structure Change where
  at_ : Time
  item : Json

def Change.id (k : Connector) (c : Change) : String := productId k.unicode k.printable c.item

/-- The current item of a product, and which change brought it. -/
def current (k : Connector) (changes : List Change) (id : String) : Option (Change × Nat) :=
  changes.zipIdx.reverse.find? fun c => decide (c.1.id k = id)

/-- The products a read lists behind a cursor, in the order of their ids: those modified at or
after a time, or all. -/
def listed (k : Connector) (changes : List Change) (since : Option Time) (cursor : Option String) :
    List (Change × Nat) :=
  ((sortedSet (changes.map (·.id k))).filterMap (current k changes)).filter fun c =>
    since.all (fun t => decide (t ≤ c.1.at_)) && cursor.all fun id => decide (id < c.1.id k)

/-- How far an execution of `run_manual` has come. -/
inductive RunPhase where
  | started | ready
  | fetched (items : List (Change × Nat)) (next : Option String)
  | drained

structure Run where
  (key jobId : Nat)
  (forceFull resumed : Bool)
  strategy : Strategy
  startedAt : Time
  since : Option Time
  cursor : Option String
  seen : List String
  phase : RunPhase

/-- A single-entity read that the provider has answered. -/
structure EntityRead where
  id : String
  found : Option (Change × Nat)

/-- An adapter reports what it has not found. -/
def EntityRead.item (read : EntityRead) : Json :=
  match read.found with
  | some c => c.1.item
  | none => .obj [("product_id", .str read.id), ("exists", .bool false)]

/-- The provider and one connector's part of the database. -/
structure World where
  clock : Time := 0
  changes : List Change := []
  cache : Cache := []
  jobs : List DlRefreshJob := []
  runs : List Run := []
  reads : List EntityRead := []
  executions : Nat := 0

/-- `_modified_since`. -/
def watermark (cache : Cache) : Option Time := (cache.filterMap (·.columns.lastSuccessfulRead)).max?

namespace World

variable (w : World)

def run (key : Nat) : Option Run := Table.get Run.key w.runs key

def enter (key : Nat) (f : Run → Run) : World :=
  { w with runs := Table.set Run.key w.runs key f }

def leave (key : Nat) : World :=
  { w with runs := w.runs.filter fun r => decide (r.key ≠ key) }

def setJob (id : Nat) (f : DlRefreshJob → DlRefreshJob) : World :=
  { w with jobs := Table.set DlRefreshJob.id w.jobs id f }

def nextJob : Nat := (w.jobs.map DlRefreshJob.id).foldr max 0 + 1

/-- The newest pending job. What is pending here can be resumed. -/
def pending (w : World) : Option DlRefreshJob :=
  (w.jobs.filter fun job => decide (job.status = .pending)).getLast?

/-- Another job of the connector that runs under an unexpired lease. -/
def refuses (id : Nat) : Bool :=
  w.jobs.any fun other => decide (other.id ≠ id) && decide (other.status = .running) &&
    other.leaseExpiresAt.any fun t => decide (w.clock < t)

def lease (strategy : Strategy) : Time :=
  w.clock + strategy.leaseSeconds * 1000000

def begin_ (job : DlRefreshJob) (forceFull resumed : Bool) : World :=
  if w.refuses job.id then w.setJob job.id fun job => { job with status := .cancelled }
  else
    let startedAt := job.startedAt.getD w.clock
    { w.setJob job.id fun job => { job with
        status := .running
        startedAt := some startedAt
        leaseExpiresAt := some (w.lease job.strategy) } with
      runs := w.runs ++ [{
        key := w.executions, jobId := job.id, forceFull, resumed, strategy := job.strategy
        startedAt, since := none, cursor := job.cursor, seen := [], phase := .started }]
      executions := w.executions + 1 }

/-- `determine_strategy`. -/
def strategy (forceFull : Bool) : Strategy :=
  if forceFull || w.cache.isEmpty then .initialFullRead else .modifiedSince

/-- `run_manual` up to its lease: a full read that is asked for supersedes the pending job, which
any other call resumes. -/
def start (forceFull : Bool) : World :=
  let job : DlRefreshJob := {
    id := w.nextJob, status := .pending, strategy := w.strategy forceFull, cursor := none
    startedAt := none, leaseExpiresAt := none }
  match w.pending, forceFull with
  | some pending, false => w.begin_ pending forceFull true
  | some pending, true =>
    let v := w.setJob pending.id fun job => { job with status := .failed }
    { v with jobs := v.jobs ++ [job] }.begin_ job forceFull false
  | none, _ => { w with jobs := w.jobs ++ [job] }.begin_ job forceFull false

/-- The watermark is read anew by every execution. -/
def open_ (r : Run) : World :=
  match r.phase with
  | .started => w.enter r.key fun r => { r with
      phase := .ready
      since := match r.strategy with
        | .initialFullRead => none
        | .modifiedSince => watermark w.cache }
  | _ => w

def fetch (k : Connector) (r : Run) (limit : Nat) : World :=
  match r.phase with
  | .ready =>
    let rest := listed k w.changes r.since r.cursor
    let items := rest.take (limit + 1)
    let next := if items.length < rest.length then items.getLast?.map fun c => c.1.id k else none
    w.enter r.key fun r => { r with phase := .fetched items next }
  | _ => w

/-- An exception: the job can be resumed behind the last page it has stored. -/
def fail (r : Run) : World :=
  (w.setJob r.jobId fun job => { job with status := .pending, cursor := r.cursor }).leave r.key

/-- The commit of a page, of the cursor behind it and of a new lease. -/
def store (k : Connector) (r : Run) (owned : Owned) : World :=
  match r.phase with
  | .fetched items next =>
    match storePage k.unicode k.printable k.dialect owned k.id (items.map (·.1.item)) w.clock w.clock
        ⟨w.cache, r.seen, 0⟩ with
    | none => w.fail r
    | some p =>
      let v := w.setJob r.jobId fun job => { job with
        cursor := next, leaseExpiresAt := some (w.lease r.strategy) }
      { v with cache := p.cache }.enter r.key fun r => { r with
        cursor := next, seen := p.seen, phase := if next.isSome then .ready else .drained }
  | _ => w

def finish (k : Connector) (r : Run) : World :=
  match r.phase with
  | .drained =>
    let v := w.setJob r.jobId fun job => { job with status := .completed, leaseExpiresAt := none }
    { v.leave r.key with
      cache := if r.forceFull then sweep k.id r.startedAt w.cache else w.cache }
  | _ => w

/-- `recover_expired`. -/
def expire : World :=
  { w with jobs := w.jobs.map fun job =>
      if job.status = .running ∧ job.leaseExpiresAt.any (fun t => decide (t < w.clock)) then
        { job with status := .failed, leaseExpiresAt := none }
      else job }

def storeRead (k : Connector) (read : EntityRead) (owned : Owned) : World :=
  { w with cache := (storeEntity k.unicode k.printable owned k.id read.item w.clock w.clock
      w.cache).getD w.cache }

/-- What is done to an execution that is under way. -/
def onRun (key : Nat) (f : World → Run → World) : World :=
  match w.run key with
  | some r => f w r
  | none => w

end World

/-- Time passes, the provider changes a product, or the engine takes a step. -/
inductive Action where
  | tick (duration : Nat)
  | change (item : Json)
  | start (forceFull : Bool)
  | open_ (run : Nat)
  | fetch (run limit : Nat)
  | store (run : Nat) (owned : Owned)
  | fail (run : Nat)
  | crash (run : Nat)
  | finish (run : Nat)
  | expire
  | fetchEntity (id : String)
  | storeEntity (read : Nat) (owned : Owned)

def step (k : Connector) (w : World) : Action → World
  | .tick duration => { w with clock := w.clock + duration }
  | .change item =>
    if Change.id k ⟨w.clock, item⟩ = "" then w
    else { w with changes := w.changes ++ [⟨w.clock, item⟩] }
  | .start forceFull => w.start forceFull
  | .open_ run => w.onRun run .open_
  | .fetch run limit => w.onRun run fun w r => w.fetch k r limit
  | .store run owned => w.onRun run fun w r => w.store k r owned
  | .fail run => w.onRun run .fail
  | .crash run => w.leave run
  | .finish run => w.onRun run fun w r => w.finish k r
  | .expire => w.expire
  | .fetchEntity id => { w with reads := w.reads ++ [⟨id, current k w.changes id⟩] }
  | .storeEntity read owned =>
    match w.reads[read]? with
    | some read => w.storeRead k read owned
    | none => w

def run (k : Connector) (w : World) (actions : List Action) : World := actions.foldl (step k) w

/-- Every step of a run has the property, in the world it is taken in. -/
def Throughout (k : Connector) (P : World → Action → Prop) : World → List Action → Prop
  | _, [] => True
  | w, a :: rest => P w a ∧ Throughout k P (step k w a) rest

end FlowHub.ReadEngine
