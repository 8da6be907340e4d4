import FlowHub.Float.Float64

namespace FlowHub

/-- Row identities are opaque texts; uuids are drawn from the caller's supply. -/
abbrev Id := String

/-- Moments, counted in microseconds. -/
abbrev Time := Nat

def minutes (n : Nat) : Time := n * 60000000

inductive WriteOutcome where
  | pending | dispatchIntentRecorded | dispatched | providerAccepted | verifiedApplied | failed
  | reconciliationRequired | recovering
  deriving DecidableEq

inductive ApplyState where
  | pending | running | partiallyApplied | applied | failed | cancelled | blocked | stale
  | reconciliationRequired
  deriving DecidableEq

inductive ReviewState where
  | ready | blocked | stale
  deriving DecidableEq

inductive EntryPoint where
  | source | manual
  deriving DecidableEq

inductive MappingState where
  | resolved | unresolved | conflict
  deriving DecidableEq

inductive DraftState where
  | draft | reviewed | applied

inductive DryRunStatus where
  | running | passed | blocked | error | invalidated
  deriving DecidableEq

inductive Disposition where
  | write | noOp | blocked
  deriving DecidableEq

/-- The fields a Draft may change. -/
inductive Field where
  | price | stock | status
  deriving DecidableEq

def Field.name : Field → String
  | .price => "price"
  | .stock => "stock"
  | .status => "status"

/-- Values of `ApplyJobItem.status`. -/
inductive ItemStatus where
  | pending | dispatched | providerAccepted | recovering | reconciliationRequired | applied | failed
  | cancelled
  deriving DecidableEq

inductive PricingAuthority where
  | legacyFormulaEngine | migrationLocked | pricingMatrix
  deriving DecidableEq

inductive PricingOrigin where
  | legacyFormulaEngine | pricingMatrix
  deriving DecidableEq

/-- The authority whose stored text is the origin's. -/
def PricingOrigin.authority : PricingOrigin → PricingAuthority
  | .legacyFormulaEngine => .legacyFormulaEngine
  | .pricingMatrix => .pricingMatrix

/-- A value of a connector's observation. Decimals and floats arrive as text. -/
inductive LiveValue where
  | null
  | bool (b : Bool)
  | int (n : Int)
  | text (s : String)
  deriving DecidableEq

/-- `str(value)`, and the empty text for None. -/
def LiveValue.str : LiveValue → String
  | .null => ""
  | .bool b => if b then "True" else "False"
  | .int n => toString n
  | .text s => s

def LiveValue.ofOption : Option String → LiveValue
  | none => .null
  | some s => .text s

/-- A dictionary with text keys. -/
abbrev Evidence := List (String × LiveValue)

structure ChannelCapabilities where
  (writePrice writeStock writeStatus writeAvailable requiresStockManagement : Bool)
  supportedStatuses : List String
  (currency unit version : String)

def ChannelCapabilities.canWrite (capabilities : ChannelCapabilities) : Field → Bool
  | .price => capabilities.writeAvailable && capabilities.writePrice
  | .stock => capabilities.writeAvailable && capabilities.writeStock
  | .status => capabilities.writeAvailable && capabilities.writeStatus

/-- What the service code raises, and what connectors and the database raise at it. -/
inductive Fault where
  | httpException (status : Nat) (code : String)
  | workspaceDomainError (message : String)
  | runtimeError (message : String)
  | valueError (message : String)
  | keyError (key : Id)
  | indexError | noResultFound | integrityError
  | provider (message : String)
  deriving DecidableEq

/-- `str(exc)`. -/
def Fault.message : Fault → String
  | .httpException status code => toString status ++ ": " ++ code
  | .workspaceDomainError m | .runtimeError m | .valueError m | .provider m => m
  | .keyError k => "'" ++ k ++ "'"
  | .indexError => "tuple index out of range"
  | .noResultFound => "No row was found when one was required"
  | .integrityError => "IntegrityError"

structure WorkspaceWriteIntent where
  applyJobId : Id
  applyItemIds : List Id
  (workspaceId snapshotId draftRevisionId reviewId : Id)
  selectionChecksum : String
  (listingId channelId : Id)
  externalPrimaryId : String
  sku : Option String
  productType : String
  parentExternalId : Option String
  (currentPrice currentStock : Option Float64)
  currentStatus : Option String
  (targetPrice targetStock : Option Float64)
  (targetStatus currency unit : Option String)
  (mappingVersion cacheVersion : Nat)
  (cacheChecksum capabilityVersion currencyDigest idempotencyKey payloadHash : String)
  pricingOrigin : Option PricingOrigin := none
  expectedPricingAuthority : Option PricingAuthority := none
  pricingAuthorityEventId : Option Id := none
  pricingAuthorityHeadVersion : Option Nat := none
  deriving DecidableEq

structure WorkspaceWriteBatchCommand where
  (workspaceId snapshotId draftRevisionId reviewId : Id)
  (selectionChecksum correlationId requestedBy : String)
  intents : List WorkspaceWriteIntent
  fencingToken : Option Nat := none
  leaseToken : Option String := none
  sourceWorkflow : String := "unified_workspace"
  pricingOrigin : Option PricingOrigin := none

def WorkspaceWriteBatchCommand.workflow (command : WorkspaceWriteBatchCommand) : String :=
  if command.sourceWorkflow = "" then "unified_workspace" else command.sourceWorkflow

structure WorkspaceWriteResult where
  listingId : Id
  outcome : WriteOutcome
  providerAccepted : Bool := false
  externalResponseId : Option String := none
  errorCategory : Option String := none
  errorMessage : Option String := none
  retryEligible : Bool := false
  acceptedPrice : Option Float64 := none
  acceptedStock : Option Float64 := none
  acceptedStatus : Option String := none
  deriving DecidableEq

end FlowHub
