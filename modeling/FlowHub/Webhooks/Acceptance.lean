import FlowHub.Webhooks.Receipts
import FlowHub.Txn.Interleaving

namespace FlowHub.Webhooks

open Python Txn

/-- The transactions of an acceptance, with what its lookups look for. -/
inductive Tag where
  | find (channelId : Id) (eventIds : List String)
  | findDelivery (channelId : Id) (eventId : String)
  | duplicate | insert | confirm

inductive Fault where
  | http (e : HTTPException)
  | overflow | integrity | operational
  deriving DecidableEq

/-- Webhooks are accepted without asking anyone. -/
abbrev store : Interface where
  State := Db
  Tag := Tag
  Query := Empty
  Answer := nofun
  Fault := Fault

abbrev Program := Proc store

structure AcceptedWebhook where
  receipt : WebhookReceipt
  duplicate : Bool

namespace Db

def identitiesFor (db : Db) (channelId : Id) (eventIds : List String) : List WebhookProviderEventIdentity :=
  db.identities.filter fun i => decide (i.channelId = channelId ∧ i.providerEventId ∈ eventIds)

def receiptFor (db : Db) (channelId : Id) (eventId : String) : Option WebhookReceipt :=
  db.receipts.find? fun r => decide (r.channelId = channelId ∧ r.providerEventId = eventId)

end Db

def matchingTapsishopReceipt (channelId : Id) (eventIds : List String) (db : Db) :
    Except Fault (Option WebhookReceipt) :=
  match db.identitiesFor channelId eventIds, eventIds with
  -- Compatibility with receipts stored before item-level identities existed.
  | [], [eventId] => .ok (db.receiptFor channelId eventId)
  | [], _ => .ok none
  | identity :: rest, eventIds =>
    let matched := (identity :: rest).map WebhookProviderEventIdentity.providerEventId
    if (∀ id ∈ eventIds, id ∈ matched) ∧ ∀ other ∈ rest, other.receiptId = identity.receiptId then
      .ok (db.receipt identity.receiptId)
    else .error (.http ⟨409, "TapsiShop webhook contains a partially duplicated requestId batch."⟩)

def matchingDelivery (channelId : Id) (eventId : String) (db : Db) : Option WebhookReceipt :=
  db.receipts.find? fun r =>
    decide (r.channelId = channelId ∧ r.provider = .woocommerce ∧ r.providerEventId = eventId)

/-- What an acceptance writes: a receipt under its own event id, and the ids of its items. -/
structure NewReceipt where
  channelId : Id
  provider : Provider
  (providerEventId payloadHash : String)
  event : NormalizedEvent
  eventIds : List String

def NewReceipt.receipt (new : NewReceipt) (id : Nat) (now : Time) : WebhookReceipt :=
  acceptedReceipt id new.channelId new.provider new.providerEventId new.payloadHash new.event now

def NewReceipt.identities (new : NewReceipt) (id : Nat) : List WebhookProviderEventIdentity :=
  new.eventIds.map fun eventId => ⟨id, new.channelId, new.provider, eventId⟩

/-- The receipt and its identities, unless one of the two unique constraints is in the way. -/
def insertReceipt (new : NewReceipt) (now : Time) (db : Db) : Except Fault (Db × WebhookReceipt) :=
  if (db.receiptFor new.channelId new.providerEventId).isSome ∨
      db.identitiesFor new.channelId new.eventIds ≠ [] then .error .integrity
  else
    let receipt := new.receipt db.nextId now
    .ok ({ db with
      receipts := db.receipts ++ [receipt]
      identities := db.identities ++ new.identities receipt.id }, receipt)

def refresh (receipt : WebhookReceipt) (db : Db) : Except Fault WebhookReceipt :=
  (db.receipt receipt.id).elim (.error .operational) .ok

/-- The insertion of a receipt. Where a constraint refuses it, whoever came first is looked
for again. -/
def insertOrFind (find : Program (Option WebhookReceipt)) (new : NewReceipt) (now : Time) :
    Program AcceptedWebhook :=
  (Proc.transact (I := store) .insert (insertReceipt new now)).tryElse
    (fun receipt => do
      let receipt ← Proc.consult (I := store) .confirm (refresh receipt)
      pure ⟨receipt, false⟩)
    fun e =>
      if e = .integrity then do
        match ← find with
        | none => .raise .integrity
        | some duplicate => pure ⟨duplicate, true⟩
      else .raise e

/-- The acknowledgement of a delivery that is there already is recorded in a commit of its own. -/
def acceptOnce (find : Program (Option WebhookReceipt)) (new : NewReceipt) (now : Time) :
    Program AcceptedWebhook := do
  match ← find with
  | some existing => do
    Proc.transact (I := store) .duplicate fun db => .ok (db, ())
    pure ⟨existing, true⟩
  | none => insertOrFind find new now

section

variable (u : Unicode) (printable : Char → Bool) (hash : Hashing)

def normalizeTapsishopPayload (payload : Json) : Except Fault TapsiShopWebhook :=
  match normalizeTapsishopWebhookPayload u printable payload with
  | .ok webhook => .ok webhook
  | .error (.invalid message) => .error (.http ⟨422, message⟩)
  | .error .overflow => .error .overflow

def tapsishopReceipt (channelId : Id) (webhook : TapsiShopWebhook) (rawBody : String) : NewReceipt where
  channelId := channelId
  provider := .tapsishop
  providerEventId := webhook.requestId hash
  payloadHash := hash.text rawBody
  event := .tapsishop webhook
  eventIds := webhook.requestIds

def acceptTapsishop (channelId : Id) (payload : Json) (rawBody : String) (now : Time) :
    Program AcceptedWebhook := do
  let normalized ← Proc.ofExcept (I := store) (normalizeTapsishopPayload u printable payload)
  acceptOnce (Proc.consult (I := store) (.find channelId normalized.requestIds)
      (matchingTapsishopReceipt channelId normalized.requestIds))
    (tapsishopReceipt hash channelId normalized rawBody) now

def normalizeWoocommerceProductPayload (topic : String) (payload : Json) : WooCommerceEvent where
  topic := topic
  wcProductId := match payload.get "id" with
    | .null => none
    | id => some (str printable id)

def deliveryReceipt (channelId : Id) (topic : String) (payload : Json) (rawBody eventId : String) :
    NewReceipt where
  channelId := channelId
  provider := .woocommerce
  providerEventId := eventId
  payloadHash := hash.text rawBody
  event := .woocommerce (normalizeWoocommerceProductPayload printable topic payload)
  eventIds := [eventId]

def acceptWoocommerceEvent (channelId : Id) (topic : String) (payload : Json)
    (rawBody webhookId deliveryId : String) (now : Time) : Program AcceptedWebhook :=
  let eventId := webhookId ++ ":" ++ deliveryId
  acceptOnce (Proc.consult (I := store) (.findDelivery channelId eventId)
      fun db => .ok (matchingDelivery channelId eventId db))
    (deliveryReceipt printable hash channelId topic payload rawBody eventId) now

/-- A call of either of the two acceptances. -/
inductive Acceptance where
  | tapsishop (channelId : Id) (payload : Json) (rawBody : String) (now : Time)
  | woocommerce (channelId : Id) (topic : String) (payload : Json)
      (rawBody webhookId deliveryId : String) (now : Time)

def accept : Acceptance → Program AcceptedWebhook
  | .tapsishop channelId payload rawBody now =>
    acceptTapsishop u printable hash channelId payload rawBody now
  | .woocommerce channelId topic payload rawBody webhookId deliveryId now =>
    acceptWoocommerceEvent printable hash channelId topic payload rawBody webhookId deliveryId now

namespace Acceptance

def channelId : Acceptance → Id
  | .tapsishop channelId .. | .woocommerce channelId .. => channelId

/-- The provider event ids of a call's payload, where it has a payload that normalizes. -/
def eventIds : Acceptance → List String
  | .tapsishop _ payload _ _ =>
    match normalizeTapsishopWebhookPayload u printable payload with
    | .ok webhook => webhook.requestIds
    | .error _ => []
  | .woocommerce _ _ _ _ webhookId deliveryId _ => [webhookId ++ ":" ++ deliveryId]

end Acceptance

end

end FlowHub.Webhooks
