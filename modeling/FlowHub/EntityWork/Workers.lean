import FlowHub.EntityWork.Queue

namespace FlowHub.EntityWork

/-- Evidence an enqueue has committed. -/
structure Evidence where
  workId : Nat
  receiptId : Option Nat

/-- How far `_process_one` has come. `seen` counts the evidence there was when the provider read
started; an object of the session is gone once the session has committed. -/
inductive Phase where
  | claimed
  | loaded (work : ChannelEntityWork)
  | reading (work : ChannelEntityWork) (seen : Nat)
  | read (work : Option ChannelEntityWork) (seen : Nat) (outcome : Outcome)
  | settling (flipped rest : List Nat) (seen : Nat) (ending : Ending) (now : Time)
  | ended (raised : Bool)
  deriving DecidableEq

/-- What one worker does about one claim. `since` counts the evidence at the claim. -/
structure Task where
  worker : String
  (workId attempt since : Nat)
  phase : Phase

/-- Every claim of a row raises its attempts, so the two name the claim. -/
def Task.key (t : Task) : Nat × Nat := (t.workId, t.attempt)

def Task.live (t : Task) : Bool :=
  match t.phase with
  | .ended _ => false
  | _ => true

/-- The committed tables, what the workers are in the middle of, the rows a recovery has failed
and whose receipts it has still to flip, and the evidence in the order it was committed. -/
structure World where
  db : Db := {}
  tasks : List Task := []
  recovered : List Nat := []
  log : List Evidence := []

namespace World

def task (w : World) (key : Nat × Nat) : Option Task := Table.get Task.key w.tasks key

def enter (w : World) (t : Task) (phase : Phase) : World :=
  { w with tasks := Table.set Task.key w.tasks t.key fun t => { t with phase := phase } }

end World

/-- One committed transaction, one answer of the provider, or a crash. -/
inductive Action where
  | enqueue (new : NewWork) (now : Time)
  | claim (worker : String) (limit leaseSeconds : Nat) (now : Time) (locked : List Nat)
  | load (task : Nat × Nat)
  | startRead (task : Nat × Nat)
  | endRead (task : Nat × Nat) (committed : Bool) (outcome : Outcome)
  | complete (task : Nat × Nat) (now : Time)
  | flip (task : Nat × Nat) (now : Time)
  | close (task : Nat × Nat)
  | crash (task : Nat × Nat)
  | recover (limit : Nat) (now : Time)
  | flipRecovered (workId receiptId : Nat) (now : Time)
  | webhook (a : Webhooks.Action)

/-- The worker whose code a step is of. -/
def Action.task : Action → Option (Nat × Nat)
  | .load key | .startRead key | .endRead key .. | .complete key _ | .flip key _ | .close key
  | .crash key => some key
  | _ => none

variable (w : World)

/-- A link needs its receipt. -/
def World.enqueue (new : NewWork) (now : Time) : World :=
  if new.receiptId.all fun id => (w.db.webhooks.receipt id).isSome then
    let (db, workId) := enqueueEntityWork new now w.db
    { w with db := db, log := w.log ++ [⟨workId, new.receiptId⟩] }
  else w

def World.claim (worker : String) (limit leaseSeconds : Nat) (now : Time) (locked : List Nat) : World :=
  let (db, claimed) := claimEntityWork worker limit leaseSeconds now locked w.db
  { w with
    db := db
    tasks := w.tasks ++ claimed.map fun row =>
      ⟨worker, row.id, row.attemptCount, w.log.length, .claimed⟩ }

variable (t : Task)

/-- `work is None or work.status != "running"`: recovered or completed by another. -/
def World.load : World :=
  match t.phase with
  | .claimed =>
    match w.db.work t.workId with
    | some work =>
      if work.status = .running then w.enter t (.loaded work) else w.enter t (.ended false)
    | none => w.enter t (.ended false)
  | _ => w

def World.startRead : World :=
  match t.phase with
  | .loaded work => w.enter t (.reading work w.log.length)
  | _ => w

/-- The read has been answered, or it has failed, at the latest before it is made. -/
def World.endRead (committed : Bool) (outcome : Outcome) : World :=
  match t.phase, outcome with
  | .reading work seen, outcome =>
    w.enter t (.read (if committed then none else some work) seen outcome)
  | .loaded work, .failed category =>
    w.enter t (.read (if committed then none else some work) w.log.length (.failed category))
  | _, _ => w

/-- The decision of `complete_entity_work`: the object is loaded again where it is gone, and the
receipts are those linked by now. -/
def World.complete (now : Time) : World :=
  match t.phase with
  | .read object seen outcome =>
    match object.or (w.db.work t.workId) with
    | none => w.enter t (.ended false)
    | some work =>
      let ending := endingOf work outcome
      let receipts := if ending.flips then w.db.receiptsOf t.workId else []
      w.enter t (.settling [] receipts seen ending now)
  | _ => w

def World.flip (now : Time) : World :=
  match t.phase with
  | .settling flipped (receiptId :: rest) seen ending at_ =>
    match flipReceipt ending receiptId now w.db with
    | .ok db =>
      { w with db := db }.enter t (.settling (flipped ++ [receiptId]) rest seen ending at_)
    | .error _ => w.enter t (.ended true)
  | _ => w

def World.close : World :=
  match t.phase with
  | .settling _ [] _ ending now =>
    match settle ending t.workId now w.db with
    | some db => { w with db := db }.enter t (.ended false)
    | none => w.enter t (.ended true)
  | _ => w

def World.recover (limit : Nat) (now : Time) : World :=
  let (db, failed) := recoverExpiredEntityWork limit now w.db
  { w with db := db, recovered := w.recovered ++ failed }

def World.flipRecovered (workId receiptId : Nat) (now : Time) : World :=
  if workId ∈ w.recovered ∧ receiptId ∈ w.db.receiptsOf workId then
    match flipReceipt (.failed "execution_lease_expired") receiptId now w.db with
    | .ok db => { w with db := db }
    | .error _ => w
  else w

/-- What is done to the task of a step, as long as it is there. -/
def World.onTask (key : Nat × Nat) (f : World → Task → World) : World :=
  match w.task key with
  | some t => f w t
  | none => w

def step : Action → World
  | .enqueue new now => w.enqueue new now
  | .claim worker limit leaseSeconds now locked => w.claim worker limit leaseSeconds now locked
  | .load key => w.onTask key .load
  | .startRead key => w.onTask key .startRead
  | .endRead key committed outcome => w.onTask key fun w t => w.endRead t committed outcome
  | .complete key now => w.onTask key fun w t => w.complete t now
  | .flip key now => w.onTask key fun w t => w.flip t now
  | .close key => w.onTask key .close
  | .crash key => w.onTask key fun w t => w.enter t (.ended false)
  | .recover limit now => w.recover limit now
  | .flipRecovered workId receiptId now => w.flipRecovered workId receiptId now
  | .webhook a => { w with db := { w.db with webhooks := Webhooks.perform w.db.webhooks a } }

def run (actions : List Action) : World := actions.foldl step w

/-- Every step of a run has the property, in the world it is taken in. -/
def Throughout (P : World → Action → Prop) : World → List Action → Prop
  | _, [] => True
  | w, a :: rest => P w a ∧ Throughout P (step w a) rest

def Throughout.decide (P : World → Action → Prop) [∀ w a, Decidable (P w a)] :
    ∀ w actions, Decidable (Throughout P w actions)
  | _, [] => isTrue trivial
  | w, a :: rest =>
    have : Decidable (Throughout P (step w a) rest) := Throughout.decide P (step w a) rest
    inferInstanceAs (Decidable (P w a ∧ Throughout P (step w a) rest))

instance (P : World → Action → Prop) [∀ w a, Decidable (P w a)] (w : World)
    (actions : List Action) : Decidable (Throughout P w actions) := Throughout.decide P w actions

/-- What an invariant gives of each step, it gives throughout the run that keeps it. -/
theorem Throughout.of_invariant {I : World → Prop}
    (keeps : ∀ w a, I w → C w a → I (step w a)) (gives : ∀ w a, I w → C w a → P w a) :
    ∀ {w : World} {actions : List Action}, I w → Throughout C w actions → Throughout P w actions := by
  intro w actions hI hC
  induction actions generalizing w with
  | nil => trivial
  | cons a rest ih => exact ⟨gives w a hI hC.1, ih (keeps w a hI hC.1) hC.2⟩

/-- The worker still has its claim of the row. -/
def Holder : Prop :=
  ∃ row, w.db.work t.workId = some row ∧ row.status = .running ∧
    row.workerId = some t.worker ∧ row.attemptCount = t.attempt

instance (w : World) (t : Task) : Decidable (Holder w t) :=
  decidable_of_iff (∃ row ∈ w.db.work t.workId, row.status = .running ∧
    row.workerId = some t.worker ∧ row.attemptCount = t.attempt) Iff.rfl

/-- The queue is empty and nobody works; whatever receipts there are. -/
structure Initial (w : World) : Prop where
  works : w.db.works = []
  links : w.db.links = []
  tasks : w.tasks = []
  recovered : w.recovered = []
  receipts : Webhooks.Consistent w.db.webhooks

end FlowHub.EntityWork
