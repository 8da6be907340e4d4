import FlowHub.Webhooks.Payload
import FlowHub.Domain
import FlowHub.Table

namespace FlowHub.Webhooks

open Python

structure HTTPException where
  status : Nat
  detail : String
  deriving DecidableEq

inductive Provider where
  | tapsishop | woocommerce
  deriving DecidableEq

inductive ProcessingState where
  | queued | retryScheduled | processed | deadLetter
  deriving DecidableEq

/-- What `normalize_woocommerce_product_payload` keeps. -/
structure WooCommerceEvent where
  topic : String
  wcProductId : Option String
  deriving DecidableEq

inductive NormalizedEvent where
  | tapsishop (webhook : TapsiShopWebhook)
  | woocommerce (event : WooCommerceEvent)
  deriving DecidableEq

structure WebhookReceipt where
  id : Nat
  channelId : Id
  provider : Provider
  (providerEventId payloadHash : String)
  normalizedEvent : NormalizedEvent
  receivedAt : Time
  processingState : ProcessingState
  attemptCount : Nat
  lastErrorCategory : Option String
  (processedAt nextAttemptAt : Option Time)
  deriving DecidableEq

structure WebhookProviderEventIdentity where
  receiptId : Nat
  channelId : Id
  provider : Provider
  providerEventId : String
  deriving DecidableEq

structure WebhookProcessingAttempt where
  (receiptId attemptNumber : Nat)
  state : ProcessingState
  errorCategory : Option String
  retryable : Bool
  nextAttemptAt : Option Time
  deriving DecidableEq

structure WebhookDeadLetter where
  receiptId : Nat
  (providerEventId errorCategory : String)
  deriving DecidableEq

structure Db where
  receipts : List WebhookReceipt := []
  identities : List WebhookProviderEventIdentity := []
  attempts : List WebhookProcessingAttempt := []
  deadLetters : List WebhookDeadLetter := []
  deriving DecidableEq

namespace Db

def receipt (db : Db) (id : Nat) : Option WebhookReceipt :=
  Table.get WebhookReceipt.id db.receipts id

def save (db : Db) (receipt : WebhookReceipt) : Db :=
  { db with receipts := Table.set WebhookReceipt.id db.receipts receipt.id fun _ => receipt }

def attemptsOf (db : Db) (id : Nat) : List WebhookProcessingAttempt :=
  db.attempts.filter fun a => decide (a.receiptId = id)

def deadLettersOf (db : Db) (id : Nat) : List WebhookDeadLetter :=
  db.deadLetters.filter fun d => decide (d.receiptId = id)

/-- The autoincrement key of the next receipt. -/
def nextId (db : Db) : Nat := (db.receipts.map WebhookReceipt.id).foldr max 0 + 1

end Db

theorem nextId_notMem (db : Db) : db.nextId ∉ db.receipts.map WebhookReceipt.id :=
  Table.next_notMem _

def maxProcessingAttempts : Nat := 5

def transientErrors : List String :=
  ["timeout", "rate_limit", "rate_limited", "upstream_unavailable", "storage_unavailable",
    "temporary", "dns_error", "tls_error"]

def seconds (n : Nat) : Time := n * 1000000

def backoff (attemptNo : Nat) : Time := seconds (min 300 (2 ^ (attemptNo - 1)))

/-- A receipt as its acceptance inserts it. -/
def acceptedReceipt (id : Nat) (channelId : Id) (provider : Provider)
    (providerEventId payloadHash : String) (event : NormalizedEvent) (now : Time) :
    WebhookReceipt where
  id := id
  channelId := channelId
  provider := provider
  providerEventId := providerEventId
  payloadHash := payloadHash
  normalizedEvent := event
  receivedAt := now
  processingState := .queued
  attemptCount := 0
  lastErrorCategory := none
  processedAt := none
  nextAttemptAt := none

def deadLetter (receipt : WebhookReceipt) (category : String) (db : Db) : Db :=
  if (db.deadLettersOf receipt.id).isEmpty then
    { db with deadLetters := db.deadLetters ++ [⟨receipt.id, receipt.providerEventId, category⟩] }
  else db

section

variable (receipt : WebhookReceipt) (category : String) (db : Db)

@[simp] theorem deadLetter_receipts : (deadLetter receipt category db).receipts = db.receipts := by
  unfold deadLetter
  split <;> rfl

@[simp] theorem deadLetter_attempts : (deadLetter receipt category db).attempts = db.attempts := by
  unfold deadLetter
  split <;> rfl

theorem deadLetter_deadLetters : (deadLetter receipt category db).deadLetters =
    if db.deadLettersOf receipt.id = [] then
      db.deadLetters ++ [⟨receipt.id, receipt.providerEventId, category⟩]
    else db.deadLetters := by
  unfold deadLetter
  simp only [List.isEmpty_iff]
  split <;> rfl

end

/-- The attempt that leaves a receipt as it is given. -/
def attemptAt (receipt : WebhookReceipt) (errorCategory : Option String) (retryable : Bool) :
    WebhookProcessingAttempt where
  receiptId := receipt.id
  attemptNumber := receipt.attemptCount
  state := receipt.processingState
  errorCategory := errorCategory
  retryable := retryable
  nextAttemptAt := receipt.nextAttemptAt

def recordAttempt (receipt : WebhookReceipt) (errorCategory : Option String) (retryable : Bool)
    (db : Db) : Db :=
  { db.save receipt with attempts := db.attempts ++ [attemptAt receipt errorCategory retryable] }

variable (now : Time)

def WebhookReceipt.finished (receipt : WebhookReceipt) : WebhookReceipt :=
  { receipt with
    attemptCount := receipt.attemptCount + 1
    processingState := .processed
    processedAt := some now
    lastErrorCategory := none
    nextAttemptAt := none }

/-- `_mark_receipt_processed`: the receipt is the one its caller has read. -/
def markReceiptProcessed (receipt : WebhookReceipt) (db : Db) : Db :=
  recordAttempt (receipt.finished now) none false db

/-- A transient failure is retried while the attempts at its receipt are not used up. -/
def WebhookReceipt.retryable (receipt : WebhookReceipt) (category : String) : Bool :=
  decide (category ∈ transientErrors) && decide (receipt.attemptCount + 1 < maxProcessingAttempts)

def WebhookReceipt.failed (category : String) (receipt : WebhookReceipt) : WebhookReceipt :=
  { receipt with
    attemptCount := receipt.attemptCount + 1
    processingState := if receipt.retryable category then .retryScheduled else .deadLetter
    lastErrorCategory := some category
    nextAttemptAt :=
      if receipt.retryable category then some (now + backoff (receipt.attemptCount + 1)) else none }

def markReceiptFailed (receipt : WebhookReceipt) (category : String) (db : Db) : Db :=
  let failed := receipt.failed now category
  let db := recordAttempt failed (some category) (receipt.retryable category) db
  if receipt.retryable category then db else deadLetter failed category db

/-- A WooCommerce receipt waits for its backoff; a TapsiShop one does not. -/
def waiting (receipt : WebhookReceipt) : Bool :=
  decide (receipt.provider = .woocommerce) && decide (receipt.processingState = .retryScheduled) &&
    receipt.nextAttemptAt.any fun due => decide (now < due)

/-- `_process_receipt`, with whether it made a transition. -/
def processReceipt (receiptId : Nat) (errorCategory : Option String) (db : Db) :
    Except HTTPException (Db × Bool) :=
  match db.receipt receiptId with
  | none => .error ⟨404, "Webhook receipt not found."⟩
  | some receipt =>
    match receipt.processingState with
    | .processed => .ok (db, false)
    | .deadLetter => .error ⟨409, "Dead-lettered webhook must be replayed before processing."⟩
    | .queued | .retryScheduled =>
      if waiting now receipt then .ok (db, false)
      else match errorCategory.filter (· ≠ "") with
        | some category => .ok (markReceiptFailed now receipt category db, true)
        | none => .ok (markReceiptProcessed now receipt db, true)

/-- A receipt made due again. -/
def WebhookReceipt.requeued (receipt : WebhookReceipt) : WebhookReceipt :=
  { receipt with processingState := .queued, nextAttemptAt := none }

def replay (role : String) (receiptId : Nat) (db : Db) : Except HTTPException Db :=
  if role ∉ ["owner", "super_admin", "admin"] then .error ⟨403, "Admin permission required."⟩
  else match db.receipt receiptId with
    | none => .error ⟨404, "Webhook receipt not found."⟩
    | some receipt =>
      if receipt.processingState = .processed then .ok db
      else .ok (db.save receipt.requeued)

def markWoocommerceReceiptProcessed (receiptId : Nat) (db : Db) : Except HTTPException (Db × Bool) :=
  processReceipt now receiptId none db

/-- `mark_woocommerce_receipt_failed`: a deferred refresh is no failure. -/
def markWoocommerceReceiptFailed (receiptId : Nat) (errorCategory : String) (db : Db) :
    Except HTTPException (Db × Bool) :=
  if errorCategory = "refresh_in_progress" then
    match db.receipt receiptId with
    | none => .error ⟨404, "Webhook receipt not found."⟩
    | some _ => .ok (db, false)
  else processReceipt now receiptId (some errorCategory) db

end FlowHub.Webhooks
