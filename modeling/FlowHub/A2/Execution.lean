import FlowHub.A2.ChangeSets

namespace FlowHub.A2

open Python Txn List

structure FreshnessContext where
  (productId proposalId proposalHash : String)
  proposedPrice : ℚ
  currentPrice : Option ℚ
  (destinationChannel changeSetDigest confirmationDigest : String)

structure FreshnessResult where
  verified : Bool
  reason : Option String := none

structure ExecuteItemResult where
  success : Bool
  isTransientFailure : Bool := false
  reason : Option String := none

/-- A call of an adapter with its answer. `none` is an exception. -/
inductive Call where
  | verifyFreshness (context : FreshnessContext) (answer : Option FreshnessResult)
  | executeItem (context : FreshnessContext) (answer : Option ExecuteItemResult)

/-- An adapter answers from all it was called with. -/
structure ChannelExecutionAdapter where
  verifyFreshness : List Call → FreshnessContext → Option FreshnessResult
  executeItem : List Call → FreshnessContext → Option ExecuteItemResult

inductive ExecutionStatus where
  | pending | running | succeeded | failed | blocked | cancelled
  deriving DecidableEq

/-- `_VALID_EXECUTION_TRANSITIONS`. -/
def validExecutionTransitions : ExecutionStatus → List ExecutionStatus
  | .pending => [.running, .cancelled, .blocked]
  | .running => [.succeeded, .failed, .blocked, .cancelled]
  | .succeeded | .failed | .blocked | .cancelled => []

inductive ItemStatus where
  | pending | running | succeeded | failed | blocked | skipped
  deriving DecidableEq

/-- `_VALID_ITEM_TRANSITIONS`. -/
def validItemTransitions : ItemStatus → List ItemStatus
  | .pending => [.running, .skipped, .blocked]
  | .running => [.succeeded, .failed, .blocked]
  | .succeeded | .failed | .blocked | .skipped => []

structure ExecutionAttempt where
  attemptNumber : ℕ
  status : ItemStatus
  errorMessage : Option String

structure ExecutionItem extends ChangeSetItemInput where
  idempotencyKey : String
  status : ItemStatus := .pending
  freshnessVerified : Bool := false
  errorMessage : Option String := none
  attempts : List ExecutionAttempt := []

/-- An execution with its one batch and its items. -/
structure Execution where
  (changeSetId changeSetRevisionId changeSetDigest confirmationId confirmationDigest : String)
  (destinationChannel scope sourceSnapshotId idempotencyKey : String)
  status : ExecutionStatus := .pending
  errorMessage : Option String := none
  batch : Option ExecutionStatus := none
  items : List ExecutionItem := []

structure ExecuteRequest where
  (changeSetId changeSetRevisionId changeSetDigest : String)
  items : List ChangeSetItemInput
  (destinationChannel scope sourceSnapshotId dryRunResult : String)
  dryRunDigestVerified : Bool
  (confirmationId confirmationDigest : String)
  confirmationIsValid : Bool
  idempotencyKey : String
  maxAttempts : ℤ := 3

inductive Raised where
  | notFound | invalidTransition | integrity | adapter

/-- An item under way and the adapter's calls so far. -/
structure ItemRun where
  item : ExecutionItem
  log : List Call

/-- An execution under way and the adapter's calls so far. -/
structure Run where
  execution : Execution
  log : List Call

namespace ItemRun

variable (run : ItemRun)

/-- `transition_item`. -/
def transition (newState : ItemStatus) (errorMessage : Option String) : Except (Raised × ItemRun) ItemRun :=
  if newState ∈ validItemTransitions run.item.status then
    .ok { run with item := { run.item with
      status := newState, errorMessage := errorMessage.or run.item.errorMessage } }
  else .error (.invalidTransition, run)

def recordAttempt (attemptNumber : ℕ) (status : ItemStatus) (errorMessage : Option String) : ItemRun :=
  { run with item := { run.item with
    attempts := run.item.attempts ++ [⟨attemptNumber, status, errorMessage⟩] } }

def called (call : Call) : ItemRun := { run with log := run.log ++ [call] }

end ItemRun

section

variable (adapter : ChannelExecutionAdapter) (context : FreshnessContext) (maxAttempts : ℤ)

/-- The retries of `execute` that are left. -/
def executeWithRetry : ℕ → ItemRun → Except (Raised × ItemRun) ItemRun
  | 0, run => run.transition .failed (some s!"Max attempts ({maxAttempts}) exhausted")
  | left + 1, run =>
    let answer := adapter.executeItem run.log context
    let run := run.called (.executeItem context answer)
    match answer with
    | none => .error (.adapter, run)
    | some result =>
      let run := run.recordAttempt (maxAttempts.toNat - left)
        (if result.success then .succeeded else .failed) result.reason
      if result.success then run.transition .succeeded none
      else if !result.isTransientFailure then run.transition .failed result.reason
      else executeWithRetry left run

/-- What `execute` does with an item it has created. -/
def processItem (created : ItemRun) : Except (Raised × ItemRun) ItemRun := do
  let run ← created.transition .running none
  let answer := adapter.verifyFreshness run.log context
  let run := run.called (.verifyFreshness context answer)
  match answer with
  | none => .error (.adapter, run)
  | some fresh =>
    if !fresh.verified then
      (run.recordAttempt 1 .blocked fresh.reason).transition .blocked fresh.reason
    else
      let run := { run with item := { run.item with freshnessVerified := true } }
      executeWithRetry adapter context maxAttempts maxAttempts.toNat run

end

namespace Run

variable (run : Run)

/-- `transition_execution`. -/
def transition (newState : ExecutionStatus) (errorMessage : Option String) : Except (Raised × Run) Run :=
  if newState ∈ validExecutionTransitions run.execution.status then
    .ok { run with execution := { run.execution with
      status := newState, errorMessage := errorMessage.or run.execution.errorMessage } }
  else .error (.invalidTransition, run)

def batch (status : ExecutionStatus) : Run :=
  { run with execution := { run.execution with batch := some status } }

def add (done : ItemRun) : Run :=
  ⟨{ run.execution with items := run.execution.items ++ [done.item] }, done.log⟩

end Run

namespace ExecuteRequest

variable (request : ExecuteRequest)

def context (input : ChangeSetItemInput) : FreshnessContext :=
  ⟨input.productId, input.proposalId, input.proposalHash, input.proposedPrice, input.currentPrice,
    request.destinationChannel, request.changeSetDigest, request.confirmationDigest⟩

def itemKey (input : ChangeSetItemInput) : String :=
  s!"{request.idempotencyKey}:{input.productId}"

/-- `create_item`. -/
def item (input : ChangeSetItemInput) : ExecutionItem :=
  { input with idempotencyKey := request.itemKey input }

/-- `create_execution`. -/
def created : Execution :=
  { request with items := [] }

/-- `_validate_prerequisites`, with the `repr` of a text. -/
def validatePrerequisites (hash : Hashing) (repr : String → String) : Option String :=
  let current := repr request.changeSetDigest
  let confirmed := repr request.confirmationDigest
  let digest := computeChangeSetDigest hash request.items request.destinationChannel request.scope
    request.sourceSnapshotId
  let computed := repr digest
  if !request.confirmationIsValid then
    some ("SellerConfirmation is invalid - the Change Set may have changed since " ++
      "confirmation was recorded. A new Dry Run and confirmation are required.")
  else if request.confirmationDigest ≠ request.changeSetDigest then
    some (s!"Confirmation digest mismatch: confirmation was bound to {confirmed} but current " ++
      s!"Change Set digest is {current}. A new Dry Run and confirmation are required.")
  else if request.dryRunResult = "BLOCK" then
    some ("Dry Run validation result is BLOCK - execution is not permitted. " ++
      "Resolve all blocking issues and re-run the Dry Run.")
  else if !request.dryRunDigestVerified then
    some ("Dry Run did not verify the Change Set digest (digest_verified=False). " ++
      "The Change Set may have been modified after the Dry Run. A new Dry Run is required.")
  else if digest ≠ request.changeSetDigest then
    some (s!"Change Set digest integrity failure: provided digest {current} does not match " ++
      s!"recomputed digest {computed}. The item set may have been tampered with.")
  else none

/-- One item of `execute`. The rows of other executions have taken their keys. -/
def executeInput (taken : List String) (adapter : ChannelExecutionAdapter) (run : Run)
    (input : ChangeSetItemInput) : Except (Raised × Run) Run :=
  if request.itemKey input ∈ taken ++ run.execution.items.map (·.idempotencyKey) then
    .error (.integrity, run)
  else
    match processItem adapter (request.context input) request.maxAttempts
        ⟨request.item input, run.log⟩ with
    | .error (raised, done) => .error (raised, run.add done)
    | .ok done => .ok (run.add done)

end ExecuteRequest

def finalExecutionState (items : List ExecutionItem) : ExecutionStatus :=
  if items.any fun i => i.status = .blocked then .blocked
  else if items.any fun i => i.status = .failed then .failed
  else .succeeded

section

variable (hash : Hashing) (repr : String → String) (executions : List Execution)

def takenKeys : List String := executions.flatMap fun e => e.items.map (·.idempotencyKey)

/-- `execute` from the creation of the row on. -/
def executeNew (request : ExecuteRequest) (adapter : ChannelExecutionAdapter) : Except (Raised × Run) Run :=
  let created : Run := ⟨request.created, []⟩
  match request.validatePrerequisites hash repr with
  | some blockReason => created.transition .blocked (some blockReason)
  | none => do
    let run ← created.transition .running none
    let run ← request.items.foldlM (request.executeInput (takenKeys executions) adapter)
      (run.batch .pending)
    let finalState := finalExecutionState run.execution.items
    (run.batch finalState).transition finalState none

def execute (request : ExecuteRequest) (adapter : ChannelExecutionAdapter) :
    Except (Raised × Run) (List Execution × Run) :=
  match Table.get Execution.idempotencyKey executions request.idempotencyKey with
  | some existing => .ok (executions, ⟨existing, []⟩)
  | none => (executeNew hash repr executions request adapter).map fun run =>
    (executions ++ [run.execution], run)

/-- `cancel`, for the execution with a key. -/
def cancel (idempotencyKey : String) : Except Raised (List Execution) :=
  match Table.get Execution.idempotencyKey executions idempotencyKey with
  | none => .error .notFound
  | some execution =>
    if .cancelled ∈ validExecutionTransitions execution.status then
      .ok (Table.set Execution.idempotencyKey executions idempotencyKey fun e =>
        { e with status := .cancelled })
    else .error .invalidTransition

end

section Report

/-- What holds of a call that returns and of one that raises. -/
def Ends (returned : β → Prop) (raises : Raised → α → Prop) : Except (Raised × α) β → Prop
  | .ok b => returned b
  | .error (raised, a) => raises raised a

theorem Ends.imp {outcome : Except (Raised × α) β} (h : Ends returned raises outcome)
    (hok : ∀ b, returned b → returned' b) (herror : ∀ e a, raises e a → raises' e a) :
    Ends returned' raises' outcome := by
  rcases outcome with ⟨e, a⟩ | b
  · exact herror e a h
  · exact hok b h

theorem Ends.bind {outcome : Except (Raised × α) β} {f : β → Except (Raised × α) γ}
    (h : Ends returned raises outcome) (hf : ∀ b, returned b → Ends returned' raises (f b)) :
    Ends returned' raises (outcome >>= f) := by
  rcases outcome with e | b
  · exact h
  · exact hf b h

/-- The attempts that the answers of `execute_item` are recorded as. -/
def attemptsOf (results : List ExecuteItemResult) : List ExecutionAttempt :=
  results.mapIdx fun i r => ⟨i + 1, if r.success then .succeeded else .failed, r.reason⟩

/-- All answers ask for a retry. -/
def Retried (results : List ExecuteItemResult) : Prop :=
  ∀ r ∈ results, r.success = false ∧ r.isTransientFailure = true

/-- The answers an item was settled by: no answer but the last asks for a retry that is made. -/
structure Tried (maxAttempts : ℤ) (results : List ExecuteItemResult) : Prop where
  bound : results.length ≤ maxAttempts.toNat
  retried : Retried results.dropLast
  decided : results.length < maxAttempts.toNat → ¬ Retried results

/-- The status and the message of an item after the answers to its attempts. -/
def verdict (maxAttempts : ℤ) (results : List ExecuteItemResult) : ItemStatus × Option String :=
  match results.getLast? with
  | none => (.failed, some s!"Max attempts ({maxAttempts}) exhausted")
  | some r =>
    if r.success then (.succeeded, none)
    else if !r.isTransientFailure then (.failed, r.reason)
    else (.failed, some s!"Max attempts ({maxAttempts}) exhausted")

def executeCalls (context : FreshnessContext) (results : List ExecuteItemResult) : List Call :=
  results.map fun r => .executeItem context (some r)

variable (request : ExecuteRequest) (input : ChangeSetItemInput)

/-- The row of an item with its attempts under way. -/
def triedItem (results : List ExecuteItemResult) : ExecutionItem :=
  { request.item input with
    status := .running, freshnessVerified := true, attempts := attemptsOf results }

/-- An item that was settled, with the calls made for it. -/
inductive Handled : ExecutionItem → List Call → Prop
  | stale (reason) :
      Handled { request.item input with
          status := .blocked, errorMessage := reason, attempts := [⟨1, .blocked, reason⟩] }
        [.verifyFreshness (request.context input) (some ⟨false, reason⟩)]
  | tried (reason) {results} (h : Tried request.maxAttempts results) :
      Handled { triedItem request input results with
          status := (verdict request.maxAttempts results).1
          errorMessage := (verdict request.maxAttempts results).2 }
        (.verifyFreshness (request.context input) (some ⟨true, reason⟩) ::
          executeCalls (request.context input) results)

/-- An item at which the adapter raised, with the calls made for it. -/
inductive Broken : ExecutionItem → List Call → Prop
  | freshness : Broken { request.item input with status := .running }
      [.verifyFreshness (request.context input) none]
  | attempt (reason) {results} (retried : Retried results)
      (bound : results.length < request.maxAttempts.toNat) :
      Broken (triedItem request input results)
        (.verifyFreshness (request.context input) (some ⟨true, reason⟩) ::
          executeCalls (request.context input) results ++ [.executeItem (request.context input) none])

variable {request input}

theorem attemptsOf_snoc (done : List ExecuteItemResult) (r : ExecuteItemResult) :
    attemptsOf (done ++ [r]) = attemptsOf done ++
      [⟨done.length + 1, if r.success then .succeeded else .failed, r.reason⟩] := by
  simp [attemptsOf, mapIdx_append]

theorem Retried.snoc (h : Retried done) (hr : r.success = false ∧ r.isTransientFailure = true) :
    Retried (done ++ [r]) := by
  intro a ha
  rcases mem_append.mp ha with hold | hnew
  · exact h a hold
  · exact mem_singleton.mp hnew ▸ hr

theorem verdict_retried (h : Retried done) :
    verdict maxAttempts done = (.failed, some s!"Max attempts ({maxAttempts}) exhausted") := by
  unfold verdict
  cases hlast : done.getLast? with
  | none => rfl
  | some r =>
    obtain ⟨hfailed, htransient⟩ := h r (mem_of_getLast? hlast)
    simp [hfailed, htransient]

/-- Answers that end with one that asks for no retry. -/
theorem Tried.snoc (hretried : Retried done) (hbound : done.length < maxAttempts.toNat)
    (hr : ¬ (r.success = false ∧ r.isTransientFailure = true)) :
    Tried maxAttempts (done ++ [r]) := by
  refine ⟨?_, ?_, ?_⟩
  · rw [length_append, length_singleton]
    omega
  · rw [dropLast_concat]
    exact hretried
  · intro _ hall
    exact hr (hall r (by simp))

/-- The retries end an item, or the adapter raises. -/
theorem executeWithRetry_report (adapter : ChannelExecutionAdapter) (before : List Call)
    (input : ChangeSetItemInput) {done : List ExecuteItemResult} (hretried : Retried done)
    (hleft : done.length + left = request.maxAttempts.toNat) :
    Ends
      (fun r => ∃ results, Tried request.maxAttempts results ∧ r =
        ⟨{ triedItem request input results with
            status := (verdict request.maxAttempts results).1
            errorMessage := (verdict request.maxAttempts results).2 },
          before ++ executeCalls (request.context input) results⟩)
      (fun raised r => raised = .adapter ∧ ∃ results, Retried results ∧
        results.length < request.maxAttempts.toNat ∧ r = ⟨triedItem request input results,
          before ++ (executeCalls (request.context input) results ++
            [.executeItem (request.context input) none])⟩)
      (executeWithRetry adapter (request.context input) request.maxAttempts left
        ⟨triedItem request input done, before ++ executeCalls (request.context input) done⟩) := by
  induction left generalizing done with
  | zero =>
    refine ⟨done, ⟨by omega, fun r hr => hretried r (mem_of_mem_dropLast hr), fun h => by omega⟩, ?_⟩
    rw [verdict_retried hretried]
    rfl
  | succ left ih =>
    have hnumber : request.maxAttempts.toNat - left = done.length + 1 := by omega
    unfold executeWithRetry
    dsimp only
    generalize adapter.executeItem _ _ = answer
    cases answer with
    | none => exact ⟨rfl, done, hretried, by omega, by simp [ItemRun.called]⟩
    | some r =>
      have hcalls : executeCalls (request.context input) (done ++ [r]) =
          executeCalls (request.context input) done ++
            [.executeItem (request.context input) (some r)] := map_append
      have hitem : ((⟨triedItem request input done, before ++
            executeCalls (request.context input) done⟩ : ItemRun).called
            (.executeItem (request.context input) (some r))).recordAttempt
            (request.maxAttempts.toNat - left) (if r.success then .succeeded else .failed) r.reason =
          ⟨triedItem request input (done ++ [r]),
            before ++ executeCalls (request.context input) (done ++ [r])⟩ := by
        simp [ItemRun.called, ItemRun.recordAttempt, triedItem, attemptsOf_snoc, hcalls, hnumber]
      dsimp only
      rw [hitem]
      by_cases hsuccess : r.success = true
      · have hverdict : verdict request.maxAttempts (done ++ [r]) = (.succeeded, none) := by
          simp [verdict, hsuccess]
        rw [if_pos hsuccess]
        refine ⟨done ++ [r], Tried.snoc hretried (by omega) (by simp [hsuccess]), ?_⟩
        rw [hverdict]
        rfl
      by_cases htransient : r.isTransientFailure = true
      · simp only [hsuccess, htransient, Bool.not_true, Bool.false_eq_true, ite_false]
        apply ih (hretried.snoc ⟨by simpa using hsuccess, htransient⟩)
        rw [length_append, length_singleton]
        omega
      · have hverdict : verdict request.maxAttempts (done ++ [r]) = (.failed, r.reason) := by
          simp [verdict, hsuccess, htransient]
        rw [if_neg hsuccess, if_pos (by simpa using htransient)]
        refine ⟨done ++ [r], Tried.snoc hretried (by omega) fun h => htransient h.2, ?_⟩
        rw [hverdict]
        simp [triedItem, ExecuteRequest.item]

/-- An item is settled, or the adapter raises. -/
theorem processItem_report (request : ExecuteRequest) (adapter : ChannelExecutionAdapter)
    (input : ChangeSetItemInput) (log : List Call) :
    Ends (fun r => ∃ item calls, Handled request input item calls ∧ r = ⟨item, log ++ calls⟩)
      (fun raised r => raised = .adapter ∧
        ∃ item calls, Broken request input item calls ∧ r = ⟨item, log ++ calls⟩)
      (processItem adapter (request.context input) request.maxAttempts ⟨request.item input, log⟩) := by
  have hrunning : (⟨request.item input, log⟩ : ItemRun).transition .running none =
      .ok ⟨{ request.item input with status := .running }, log⟩ := rfl
  unfold processItem
  rw [hrunning]
  simp only [bind, Except.bind]
  generalize adapter.verifyFreshness _ _ = answer
  cases answer with
  | none => exact ⟨rfl, _, _, .freshness, rfl⟩
  | some fresh =>
    obtain ⟨verified, reason⟩ := fresh
    cases verified with
    | false =>
      refine ⟨_, _, .stale reason, ?_⟩
      simp [ItemRun.called, ItemRun.recordAttempt, ExecuteRequest.item]
    | true =>
      have hretry := executeWithRetry_report adapter
        (log ++ [.verifyFreshness (request.context input) (some ⟨true, reason⟩)]) input
        (show Retried [] from nofun) (Nat.zero_add request.maxAttempts.toNat)
      simp only [append_assoc, singleton_append] at hretry
      rw [executeCalls, map_nil] at hretry
      refine hretry.imp ?_ ?_
      · rintro _ ⟨results, htried, rfl⟩
        exact ⟨_, _, .tried reason htried, rfl⟩
      · rintro e _ ⟨he, results, hretried, hbound, rfl⟩
        exact ⟨he, _, _, .attempt reason hretried hbound, rfl⟩

/-- Items with their calls, one after the other. -/
abbrev HandledItems := List (ExecutionItem × List Call)

/-- An execution under way. -/
def underWay (request : ExecuteRequest) (handled : HandledItems) : Run :=
  ⟨{ request.created with
      status := .running, batch := some .pending, items := handled.map Prod.fst },
    (handled.map Prod.snd).flatten⟩

/-- No key is an earlier item's or another execution's. -/
def Unused (taken : List String) (handled : HandledItems) : Prop :=
  (handled.map (·.1.idempotencyKey)).Nodup ∧ ∀ h ∈ handled, h.1.idempotencyKey ∉ taken

def AllHandled (request : ExecuteRequest) : List ChangeSetItemInput → HandledItems → Prop :=
  Forall₂ fun input h => Handled request input h.1 h.2

/-- Where an execution is left by an exception: at an item whose key is taken, or within an item. -/
inductive Halted (request : ExecuteRequest) (taken : List String) (handled : HandledItems)
    (input : ChangeSetItemInput) : Raised → Run → Prop
  | key (h : request.itemKey input ∈ taken ++ handled.map (·.1.idempotencyKey)) :
      Halted request taken handled input .integrity (underWay request handled)
  | within {item calls} (unused : Unused taken (handled ++ [(item, calls)]))
      (h : Broken request input item calls) :
      Halted request taken handled input .adapter (underWay request (handled ++ [(item, calls)]))

theorem Handled.key (h : Handled request input item calls) : item.idempotencyKey = request.itemKey input := by
  cases h <;> rfl

theorem Broken.key (h : Broken request input item calls) : item.idempotencyKey = request.itemKey input := by
  cases h <;> rfl

theorem Unused.snoc {handled : HandledItems} (h : Unused taken handled)
    (hkey : item.idempotencyKey ∉ taken ++ handled.map (·.1.idempotencyKey)) :
    Unused taken (handled ++ [(item, calls)]) := by
  rw [mem_append, not_or] at hkey
  refine ⟨Table.nodup_snoc h.1 fun a ha hsame => hkey.2 (mem_map.mpr ⟨a, ha, hsame⟩), ?_⟩
  intro a ha
  rcases mem_append.mp ha with hold | hnew
  · exact h.2 a hold
  · exact mem_singleton.mp hnew ▸ hkey.1

/-- One item more, or an exception. -/
theorem executeInput_report (request : ExecuteRequest) (adapter : ChannelExecutionAdapter)
    {handled : HandledItems} (hunused : Unused taken handled) (input : ChangeSetItemInput) :
    Ends (fun r => ∃ h, Handled request input h.1 h.2 ∧ Unused taken (handled ++ [h]) ∧
        r = underWay request (handled ++ [h]))
      (Halted request taken handled input)
      (request.executeInput taken adapter (underWay request handled) input) := by
  have hitems : (underWay request handled).execution.items.map (·.idempotencyKey) =
      handled.map (·.1.idempotencyKey) := map_map
  have hadd : ∀ item calls, (underWay request handled).add
      ⟨item, (handled.map Prod.snd).flatten ++ calls⟩ = underWay request (handled ++ [(item, calls)]) := by
    intro item calls
    simp [underWay, Run.add]
  unfold ExecuteRequest.executeInput
  rw [hitems]
  split
  · rename_i htaken
    exact .key htaken
  rename_i hfree
  have hprocess := processItem_report request adapter input (handled.map Prod.snd).flatten
  change Ends _ _ (match processItem adapter (request.context input) request.maxAttempts
    ⟨request.item input, (handled.map Prod.snd).flatten⟩ with
    | .error (raised, done) => .error (raised, (underWay request handled).add done)
    | .ok done => .ok ((underWay request handled).add done))
  revert hprocess
  generalize processItem _ _ _ _ = outcome
  intro hprocess
  rcases outcome with ⟨e, r⟩ | r
  · obtain ⟨rfl, item, calls, hbroken, rfl⟩ := hprocess
    dsimp only
    rw [hadd]
    exact .within (hunused.snoc (hbroken.key ▸ hfree)) hbroken
  · obtain ⟨item, calls, hhandled, rfl⟩ := hprocess
    exact ⟨(item, calls), hhandled, hunused.snoc (hhandled.key ▸ hfree), hadd item calls⟩

/-- The items are handled up to one at which the execution is left. -/
def Stopped (request : ExecuteRequest) (taken : List String) (inputs : List ChangeSetItemInput)
    (handled : HandledItems) (raised : Raised) (run : Run) : Prop :=
  ∃ done input rest more, inputs = done ++ input :: rest ∧ AllHandled request done more ∧
    Unused taken (handled ++ more) ∧ Halted request taken (handled ++ more) input raised run

/-- The items one after the other, up to the first exception. -/
theorem inputs_report (request : ExecuteRequest) (adapter : ChannelExecutionAdapter)
    {handled : HandledItems} (hunused : Unused taken handled) (inputs : List ChangeSetItemInput) :
    Ends (fun r => ∃ more, AllHandled request inputs more ∧ Unused taken (handled ++ more) ∧
        r = underWay request (handled ++ more))
      (Stopped request taken inputs handled)
      (inputs.foldlM (request.executeInput taken adapter) (underWay request handled)) := by
  induction inputs generalizing handled with
  | nil => exact ⟨[], .nil, by simpa using hunused, by simp⟩
  | cons input rest ih =>
    rw [foldlM_cons]
    refine ((executeInput_report request adapter hunused input).imp (fun _ h => h) ?_).bind ?_
    · intro e r hhalted
      rw [← append_nil handled] at hhalted hunused
      exact ⟨[], input, rest, [], rfl, .nil, hunused, hhalted⟩
    · rintro _ ⟨h, hhandled, hnext, rfl⟩
      refine (ih hnext).imp ?_ ?_
      · rintro _ ⟨more, hmore, hused, rfl⟩
        exact ⟨h :: more, .cons hhandled hmore, by simpa using hused, by simp⟩
      · rintro e r ⟨done, last, left, more, rfl, hmore, hused, hhalted⟩
        refine ⟨input :: done, last, left, h :: more, rfl, .cons hhandled hmore, ?_, ?_⟩
        · simpa using hused
        · simpa using hhalted

/-- An execution whose items are all handled. -/
def finished (request : ExecuteRequest) (handled : HandledItems) : Run :=
  let run := underWay request handled
  let finalState := finalExecutionState run.execution.items
  { run with execution := { run.execution with status := finalState, batch := some finalState } }

/-- How an execution ends that is created. -/
inductive Reported (request : ExecuteRequest) (taken : List String) : Option String → Run → Prop
  | blocked (reason) : Reported request taken (some reason)
      ⟨{ request.created with status := .blocked, errorMessage := some reason }, []⟩
  | executed {handled} (h : AllHandled request request.items handled) (unused : Unused taken handled) :
      Reported request taken none (finished request handled)

theorem finalExecutionState_valid (items : List ExecutionItem) :
    finalExecutionState items ∈ validExecutionTransitions .running := by
  unfold finalExecutionState
  split
  · decide
  · split <;> decide

section

variable (hash : Hashing) (repr : String → String) (executions : List Execution)
  (request : ExecuteRequest) (adapter : ChannelExecutionAdapter)

theorem executeNew_report :
    Ends (Reported request (takenKeys executions) (request.validatePrerequisites hash repr))
      (fun raised r => request.validatePrerequisites hash repr = none ∧
        Stopped request (takenKeys executions) request.items [] raised r)
      (executeNew hash repr executions request adapter) := by
  unfold executeNew
  cases request.validatePrerequisites hash repr with
  | some reason => exact .blocked reason
  | none =>
    have hinputs := inputs_report request adapter
      (show Unused (takenKeys executions) [] from ⟨nodup_nil, nofun⟩) request.items
    refine (hinputs.imp (fun _ h => h) fun _ _ h => ⟨rfl, h⟩).bind ?_
    rintro _ ⟨handled, hall, hunused, rfl⟩
    have hend : ((underWay request handled).batch (finalExecutionState (handled.map Prod.fst))).transition
        (finalExecutionState (handled.map Prod.fst)) none = .ok (finished request handled) :=
      if_pos (finalExecutionState_valid _)
    exact hend ▸ .executed hall hunused

/-- A call returns the execution that its key names, or makes one: it is blocked before any call of the
adapter, or each item in its order is found stale or is tried until an answer that is no transient failure,
at most `max_attempts` times, the records tell the answers, and the final state is the worst of the items'.
It raises at the first item whose key is taken, or where the adapter does. -/
theorem execute_report :
    Ends (fun result : List Execution × Run =>
        (result.1 = executions ∧ result.2.log = [] ∧ Table.get Execution.idempotencyKey executions
          request.idempotencyKey = some result.2.execution) ∨
        (result.1 = executions ++ [result.2.execution] ∧ Reported request (takenKeys executions)
          (request.validatePrerequisites hash repr) result.2))
      (fun raised r => request.validatePrerequisites hash repr = none ∧
        Stopped request (takenKeys executions) request.items [] raised r)
      (execute hash repr executions request adapter) := by
  unfold execute
  split
  · rename_i existing hfound
    exact .inl ⟨rfl, rfl, hfound⟩
  · have hnew := executeNew_report hash repr executions request adapter
    cases hresult : executeNew hash repr executions request adapter with
    | error e =>
      rw [hresult] at hnew
      exact hnew
    | ok r =>
      rw [hresult] at hnew
      exact .inr ⟨rfl, hnew⟩

end

end Report

/-- The stored executions, and all calls of adapters by the key of the execution they were made for. -/
structure World where
  executions : List Execution
  calls : List (String × Call)

namespace World

variable (hash : Hashing) (repr : String → String)

def logged (w : World) (idempotencyKey : String) (log : List Call) : List (String × Call) :=
  w.calls ++ log.map (idempotencyKey, ·)

/-- A call of the service. What it wrote is committed or rolled back by its caller, also after an adapter
has raised. -/
inductive Step : World → World → Prop where
  | committed {w : World} (request : ExecuteRequest) (adapter : ChannelExecutionAdapter) {rows run}
      (h : execute hash repr w.executions request adapter = .ok (rows, run)) :
      Step w ⟨rows, w.logged request.idempotencyKey run.log⟩
  | rolledBack {w : World} (request : ExecuteRequest) (adapter : ChannelExecutionAdapter) {run}
      (h : (∃ rows, execute hash repr w.executions request adapter = .ok (rows, run)) ∨
        ∃ e, execute hash repr w.executions request adapter = .error (e, run)) :
      Step w { w with calls := w.logged request.idempotencyKey run.log }
  | kept {w : World} (request : ExecuteRequest) (adapter : ChannelExecutionAdapter) {run}
      (h : execute hash repr w.executions request adapter = .error (.adapter, run)) :
      Step w ⟨w.executions ++ [run.execution], w.logged request.idempotencyKey run.log⟩
  | cancel {w : World} (idempotencyKey : String) {rows}
      (h : A2.cancel w.executions idempotencyKey = .ok rows) : Step w { w with executions := rows }

variable {hash : Hashing} {repr : String → String} {w next start : World}

/-- An execution whose keys are its own. -/
def Adds (executions : List Execution) (idempotencyKey : String) (e : Execution) : Prop :=
  e.idempotencyKey = idempotencyKey ∧ (e.items.map (·.idempotencyKey)).Nodup ∧
    ∀ i ∈ e.items, i.idempotencyKey ∉ takenKeys executions

theorem adds_of_unused {rows : List Execution} {e : Execution} {handled : HandledItems}
    (hitems : e.items = handled.map Prod.fst) (hunused : Unused (takenKeys rows) handled) :
    Adds rows e.idempotencyKey e := by
  refine ⟨rfl, ?_, ?_⟩
  · rw [hitems, map_map]
    exact hunused.1
  · intro i hi
    rw [hitems] at hi
    obtain ⟨h, hmem, rfl⟩ := mem_map.mp hi
    exact hunused.2 h hmem

/-- A key that is known is answered from its row. -/
theorem execute_cases (hash : Hashing) (repr : String → String) (executions : List Execution)
    (request : ExecuteRequest) (adapter : ChannelExecutionAdapter) :
    (∃ existing, execute hash repr executions request adapter = .ok (executions, ⟨existing, []⟩)) ∨
    ((∀ e ∈ executions, e.idempotencyKey ≠ request.idempotencyKey) ∧
      Ends (fun result => result.1 = executions ++ [result.2.execution] ∧
          Adds executions request.idempotencyKey result.2.execution)
        (fun raised r => raised = .adapter → Adds executions request.idempotencyKey r.execution)
        (execute hash repr executions request adapter)) := by
  have hreport := execute_report hash repr executions request adapter
  cases hget : Table.get Execution.idempotencyKey executions request.idempotencyKey with
  | some existing =>
    refine .inl ⟨existing, ?_⟩
    unfold execute
    rw [hget]
  | none =>
    refine .inr ⟨Table.get_none.mp hget, hreport.imp ?_ ?_⟩
    · rintro ⟨rows, run⟩ (⟨-, -, hfound⟩ | ⟨hrows, hreported⟩)
      · rw [hget] at hfound
        cases hfound
      refine ⟨hrows, ?_⟩
      generalize request.validatePrerequisites hash repr = reason at hreported
      cases hreported with
      | blocked reason => exact ⟨rfl, nodup_nil, nofun⟩
      | executed hall hunused => exact adds_of_unused rfl hunused
    · rintro e run ⟨-, _, _, _, handled, -, -, -, hhalted⟩ rfl
      cases hhalted with
      | within hunused => exact adds_of_unused rfl hunused

/-- No two executions share a key, and no two items. -/
structure Ok (w : World) : Prop where
  keys : (w.executions.map (·.idempotencyKey)).Nodup
  itemKeys : (takenKeys w.executions).Nodup

def callsUnder (w : World) (idempotencyKey : String) : List Call :=
  (w.calls.filter fun c => c.1 = idempotencyKey).map Prod.snd

/-- A stored execution stands as it is, but for a cancellation, and is not executed again. -/
def Stands (w next : World) (e : Execution) : Prop :=
  next.callsUnder e.idempotencyKey = w.callsUnder e.idempotencyKey ∧
    (e ∈ next.executions ∨
      (e.status = .pending ∨ e.status = .running) ∧ { e with status := .cancelled } ∈ next.executions)

theorem Ok.add (hok : Ok w) (hadds : Adds w.executions idempotencyKey e)
    (hnew : ∀ e ∈ w.executions, e.idempotencyKey ≠ idempotencyKey) :
    Ok ⟨w.executions ++ [e], calls'⟩ := by
  obtain ⟨hkey, hitems, hfree⟩ := hadds
  constructor
  · exact Table.nodup_snoc hok.keys fun other hother hsame => hnew other hother (hsame.trans hkey)
  · have htaken : takenKeys (w.executions ++ [e]) =
        takenKeys w.executions ++ e.items.map (·.idempotencyKey) := by
      simp [takenKeys]
    dsimp only
    rw [htaken, nodup_append']
    refine ⟨hok.itemKeys, hitems, ?_⟩
    intro key htaken hmem
    obtain ⟨i, hi, rfl⟩ := mem_map.mp hmem
    exact hfree i hi htaken

/-- Calls made under one key are not made under another. -/
theorem callsUnder_logged (hother : other ≠ idempotencyKey) (log : List Call) :
    (⟨rows, w.logged idempotencyKey log⟩ : World).callsUnder other = w.callsUnder other := by
  have hnone : (log.map (idempotencyKey, ·)).filter (fun c => c.1 = other) = [] := by
    simp [filter_eq_nil_iff, hother.symm]
  simp only [callsUnder, logged, filter_append, hnone, append_nil]

theorem logged_nil : w.logged idempotencyKey [] = w.calls := append_nil _

theorem step_stands (hok : Ok w) (hstep : Step hash repr w next) :
    Ok next ∧ ∀ e ∈ w.executions, Stands w next e := by
  cases hstep with
  | committed request adapter h =>
    rcases execute_cases hash repr w.executions request adapter with ⟨existing, hknown⟩ | ⟨hnew, hends⟩
    · rw [hknown] at h
      cases h
      rw [logged_nil]
      exact ⟨hok, fun e he => ⟨rfl, .inl he⟩⟩
    · rw [h] at hends
      obtain ⟨hrows, hadds⟩ := hends
      dsimp only at hrows hadds
      subst hrows
      exact ⟨hok.add hadds hnew, fun e he =>
        ⟨callsUnder_logged (hnew e he) _, .inl (mem_append_left _ he)⟩⟩
  | rolledBack request adapter h =>
    rcases execute_cases hash repr w.executions request adapter with ⟨existing, hknown⟩ | ⟨hnew, -⟩
    · simp only [hknown, Except.ok.injEq, Prod.mk.injEq, reduceCtorEq, exists_false, or_false] at h
      obtain ⟨-, -, rfl⟩ := h
      rw [logged_nil]
      exact ⟨hok, fun e he => ⟨rfl, .inl he⟩⟩
    · exact ⟨⟨hok.1, hok.2⟩, fun e he => ⟨callsUnder_logged (hnew e he) _, .inl he⟩⟩
  | kept request adapter h =>
    rcases execute_cases hash repr w.executions request adapter with ⟨existing, hknown⟩ | ⟨hnew, hends⟩
    · rw [hknown] at h
      cases h
    · rw [h] at hends
      exact ⟨hok.add (hends rfl) hnew, fun e he =>
        ⟨callsUnder_logged (hnew e he) _, .inl (mem_append_left _ he)⟩⟩
  | cancel idempotencyKey h =>
    unfold A2.cancel at h
    cases hget : Table.get Execution.idempotencyKey w.executions idempotencyKey with
    | none =>
      rw [hget] at h
      cases h
    | some found =>
      rw [hget] at h
      dsimp only at h
      split at h
      case isFalse => cases h
      rename_i hallowed
      cases h
      refine ⟨⟨?_, ?_⟩, ?_⟩
      · rw [Table.map_set (by intro; rfl)]
        exact hok.keys
      · dsimp only
        rw [takenKeys, flatMap_def, Table.map_set (by intro; rfl)]
        exact hok.itemKeys
      · intro e he
        refine ⟨rfl, ?_⟩
        by_cases hkey : e.idempotencyKey = idempotencyKey
        · subst hkey
          rw [Table.get_of_mem hok.keys he] at hget
          rw [← Option.some.inj hget] at hallowed
          refine .inr ⟨?_, Table.mem_set.mpr (.inl ⟨e, he, rfl, rfl⟩)⟩
          revert hallowed
          cases e.status <;> decide
        · exact .inl (Table.mem_set.mpr (.inr ⟨he, hkey⟩))

/-- In every run of `execute` and `cancel` no two executions share a key and no two items do, and an
execution that is stored stands: it is not executed again, and nothing changes but that it may be cancelled
while it is pending or running. -/
theorem executed_once (hstart : Relation.ReflTransGen (Step hash repr) ⟨[], []⟩ start)
    (hrun : Relation.ReflTransGen (Step hash repr) start w) :
    Ok w ∧ ∀ e ∈ start.executions, Stands start w e := by
  refine @run_stands World (Step hash repr) (fun w next => ∀ e ∈ w.executions, Stands w next e) Ok
    ⟨[], []⟩ _ _ ⟨nodup_nil, nodup_nil⟩ (fun _ e he => ⟨rfl, .inl he⟩) ?_
    (fun h hstep => step_stands h hstep) hstart hrun
  intro w next later hfirst hsecond e he
  obtain ⟨hcalls, hsame | ⟨hopen, hcancelled⟩⟩ := hfirst e he
  · obtain ⟨hcalls', hmem⟩ := hsecond e hsame
    exact ⟨hcalls'.trans hcalls, hmem⟩
  · obtain ⟨hcalls', hmem | ⟨hfalse, -⟩⟩ := hsecond _ hcancelled
    · exact ⟨hcalls'.trans hcalls, .inr ⟨hopen, hmem⟩⟩
    · rcases hfalse with hfalse | hfalse <;> cases hfalse

namespace Sample

def input : ChangeSetItemInput :=
  ⟨"p-1", "p", "h", "s", "r", 5, some 4⟩

def request : ExecuteRequest where
  changeSetId := "cs-1"
  changeSetRevisionId := "r-1"
  changeSetDigest := "digest"
  items := [input]
  destinationChannel := "woocommerce"
  scope := "all"
  sourceSnapshotId := "snap"
  dryRunResult := "PASS"
  dryRunDigestVerified := true
  confirmationId := "c-1"
  confirmationDigest := "digest"
  confirmationIsValid := true
  idempotencyKey := "k"

/-- The item is written at its first attempt. -/
def written : Run where
  execution := { request.created with
    status := .succeeded
    batch := some .succeeded
    items := [{ triedItem request input [⟨true, false, none⟩] with status := .succeeded }] }
  log := [.verifyFreshness (request.context input) (some ⟨true, none⟩),
    .executeItem (request.context input) (some ⟨true, false, none⟩)]

def stored : World :=
  ⟨[written.execution], written.log.map ("k", ·)⟩

end Sample

/-- The same request again. -/
theorem executed_once_repeated : Stands Sample.stored Sample.stored Sample.written.execution := by
  have hfirst : execute Db.Sample.constant id [] Sample.request
      ⟨fun _ _ => some ⟨true, none⟩, fun _ _ => some ⟨true, false, none⟩⟩ =
      .ok ([Sample.written.execution], Sample.written) := rfl
  have hagain : execute Db.Sample.constant id Sample.stored.executions Sample.request
      ⟨fun _ _ => none, fun _ _ => none⟩ =
      .ok (Sample.stored.executions, ⟨Sample.written.execution, []⟩) := rfl
  exact (executed_once (.single (.committed _ _ hfirst)) (.single (.committed _ _ hagain))).2 _ mem_cons_self

end World

end FlowHub.A2
