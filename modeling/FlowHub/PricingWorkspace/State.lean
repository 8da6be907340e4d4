import FlowHub.PricingWorkspace.Values
import FlowHub.Workspace.Draft

namespace FlowHub.PricingWorkspace

def historyLimit : Nat := 100

inductive PricingSelectionMode where
  | automatic | manualSelected | manualDeselected
  deriving DecidableEq

structure PricingFieldIdentity where
  (productId listingId channelId : String)
  field : Field
  deriving DecidableEq

structure PricingFieldPolicy where
  (writable mapped supported channelEnabled comingSoon valid : Bool)
  blockedReason : Option String := none
  warning : Option String := none
  deriving DecidableEq

structure PricingFieldDescriptor where
  identity : PricingFieldIdentity
  (currentValue targetValue currency unit : Option String)
  policy : PricingFieldPolicy
  decimalScale : Option ℤ := none
  deriving DecidableEq

/-- A change, whose key is its identity. -/
structure PricingFieldChange where
  identity : PricingFieldIdentity
  currentValue : Option String
  targetValue : String
  (currency unit : Option String)
  policy : PricingFieldPolicy
  decimalScale : Option ℤ
  selectionMode : PricingSelectionMode
  deriving DecidableEq

/-- The changes under their keys. -/
abbrev PricingWorkspaceSnapshot := List PricingFieldChange

structure PricingWorkspaceState where
  (workspaceId scopeId : String)
  revision : ℤ
  present : PricingWorkspaceSnapshot
  (past future : List PricingWorkspaceSnapshot)
  deriving DecidableEq

inductive Thrown where
  | required (name : String)
  | decimalScale | invalidIdentity
  | duplicate (identity : PricingFieldIdentity)
  | staleBulkPreview
  | staleBulkPreviewFor (identity : PricingFieldIdentity)
  deriving DecidableEq

namespace PricingWorkspaceSnapshot

def get (changes : PricingWorkspaceSnapshot) (key : PricingFieldIdentity) : Option PricingFieldChange :=
  Table.get PricingFieldChange.identity changes key

variable (changes : PricingWorkspaceSnapshot)

/-- `changes[key] = change`. -/
def put (change : PricingFieldChange) : PricingWorkspaceSnapshot :=
  if Table.has PricingFieldChange.identity changes change.identity then
    Table.set PricingFieldChange.identity changes change.identity fun _ => change
  else changes ++ [change]

def delete (key : PricingFieldIdentity) : PricingWorkspaceSnapshot :=
  changes.filter fun change => decide (change.identity ≠ key)

end PricingWorkspaceSnapshot

/-- `pricingFieldKey` of an identity that has one. -/
def PricingFieldIdentity.named (identity : PricingFieldIdentity) : Bool :=
  !identity.productId.isEmpty && !identity.listingId.isEmpty && !identity.channelId.isEmpty

def isPricingFieldEligible (policy : PricingFieldPolicy) : Bool :=
  policy.writable && policy.mapped && policy.supported && policy.channelEnabled &&
    !policy.comingSoon && policy.valid && decide (policy.blockedReason.getD "" = "")

/-- The check of `freezeDescriptor`. -/
def scaleValid (scale : Option ℤ) : Bool := decide (0 ≤ scale.getD 0 ∧ scale.getD 0 ≤ 12)

/-- `uniqueDescriptors` and `uniqueEdits`. -/
def unique {α : Type} (descriptor : α → PricingFieldDescriptor) (items : List α) : Except Thrown (List α) :=
  if items.any fun item => !scaleValid (descriptor item).decimalScale then .error .decimalScale
  else items.foldlM (fun seen item =>
    let key := (descriptor item).identity
    if !key.named then .error .invalidIdentity
    else if seen.any fun other => decide ((descriptor other).identity = key) then
      .error (.duplicate key)
    else .ok (seen ++ [item])) []

def descriptorForTarget (descriptor : PricingFieldDescriptor) (targetValue : String) :
    PricingFieldDescriptor :=
  let valid := inputValid descriptor.identity.field targetValue
  { descriptor with
    policy := { descriptor.policy with
      valid := descriptor.policy.valid && valid
      blockedReason := descriptor.policy.blockedReason.or (if valid then none else some "invalid_value") } }

def makeChange (descriptor : PricingFieldDescriptor) (targetValue : String)
    (selectionMode : PricingSelectionMode) : PricingFieldChange where
  identity := descriptor.identity
  currentValue := descriptor.currentValue
  targetValue := targetValue
  currency := descriptor.currency
  unit := descriptor.unit
  policy := descriptor.policy
  decimalScale := descriptor.decimalScale
  selectionMode := selectionMode

def changeTo (descriptor : PricingFieldDescriptor) (targetValue : String)
    (selectionMode : PricingSelectionMode) : PricingFieldChange :=
  makeChange (descriptorForTarget descriptor targetValue) targetValue selectionMode

/-- The round of `snapshotFromDescriptors`: the target that the server has. -/
def addServerTarget (changes : PricingWorkspaceSnapshot) (descriptor : PricingFieldDescriptor) :
    PricingWorkspaceSnapshot :=
  if valuesEqual descriptor.currentValue descriptor.targetValue descriptor.identity.field then changes
  else changes.put (changeTo descriptor (descriptor.targetValue.getD "") .automatic)

def snapshotFromDescriptors (fields : List PricingFieldDescriptor) : Except Thrown PricingWorkspaceSnapshot :=
  (unique id fields).map fun descriptors => descriptors.foldl addServerTarget []

def createPricingWorkspaceState (workspaceId : String) (fields : List PricingFieldDescriptor)
    (scopeId : String) : Except Thrown PricingWorkspaceState :=
  if workspaceId.isEmpty then .error (.required "workspaceId")
  else if scopeId.isEmpty then .error (.required "scopeId")
  else (snapshotFromDescriptors fields).map fun present => ⟨workspaceId, scopeId, 0, present, [], []⟩

/-- The round of `refreshSnapshot`. -/
def refreshField (addServerTargets : Bool) (changes : PricingWorkspaceSnapshot)
    (descriptor : PricingFieldDescriptor) : PricingWorkspaceSnapshot :=
  match changes.get descriptor.identity with
  | none => if addServerTargets then addServerTarget changes descriptor else changes
  | some existing =>
    if valuesEqual descriptor.currentValue (some existing.targetValue) descriptor.identity.field then
      changes.delete descriptor.identity
    else changes.put (changeTo descriptor existing.targetValue existing.selectionMode)

def refreshSnapshot (snapshot : PricingWorkspaceSnapshot) (descriptors : List PricingFieldDescriptor)
    (addServerTargets : Bool) : PricingWorkspaceSnapshot :=
  descriptors.foldl (refreshField addServerTargets) snapshot

variable (state : PricingWorkspaceState)

def registerPricingFields (fields : List PricingFieldDescriptor) : Except Thrown PricingWorkspaceState :=
  (unique id fields).map fun descriptors =>
    let refreshed := { state with
      present := refreshSnapshot state.present descriptors true
      past := state.past.map fun snapshot => refreshSnapshot snapshot descriptors false
      future := state.future.map fun snapshot => refreshSnapshot snapshot descriptors false }
    if refreshed = state then state else { refreshed with revision := state.revision + 1 }

def commitUserSnapshot (changes : PricingWorkspaceSnapshot) : PricingWorkspaceState :=
  let past := state.past ++ [state.present]
  { state with
    revision := state.revision + 1
    present := changes
    past := past.drop (past.length - historyLimit)
    future := [] }

structure PricingEdit where
  descriptor : PricingFieldDescriptor
  targetValue : String

/-- The round of `editPricingFields`. -/
def editField (changes : PricingWorkspaceSnapshot) (edit : PricingEdit) : PricingWorkspaceSnapshot :=
  let descriptor := edit.descriptor
  if valuesEqual descriptor.currentValue (some edit.targetValue) descriptor.identity.field then
    changes.delete descriptor.identity
  else
    let mode := ((changes.get descriptor.identity).map (·.selectionMode)).getD .automatic
    changes.put (changeTo descriptor edit.targetValue mode)

def editPricingFields (edits : List PricingEdit) : Except Thrown PricingWorkspaceState :=
  (unique PricingEdit.descriptor edits).map fun edits =>
    let next := edits.foldl editField state.present
    if next = state.present then state else commitUserSnapshot state next

def setPricingFieldSelected (identity : PricingFieldIdentity)
    (selected : Bool) : Except Thrown PricingWorkspaceState :=
  if !identity.named then .error .invalidIdentity
  else .ok <| match state.present.get identity with
    | none => state
    | some existing =>
      let mode := if selected then .manualSelected else .manualDeselected
      if selected && !isPricingFieldEligible existing.policy then state
      else if existing.selectionMode = mode then state
      else commitUserSnapshot state (state.present.put { existing with selectionMode := mode })

/-- `setPricingFieldsSelectedByKey`. A key that names no field is passed over. -/
def setPricingFieldsSelectedByKey (keys : List PricingFieldIdentity)
    (selected : Bool) : Except Thrown PricingWorkspaceState :=
  (keys.filter PricingFieldIdentity.named).foldlM
    (fun state identity => setPricingFieldSelected state identity selected) state

def undoPricingWorkspace : PricingWorkspaceState :=
  match state.past.getLast? with
  | none => state
  | some previous =>
    { state with
      revision := state.revision + 1
      present := previous
      past := state.past.dropLast
      future := (state.present :: state.future).take historyLimit }

def redoPricingWorkspace : PricingWorkspaceState :=
  match state.future with
  | [] => state
  | next :: future =>
    let past := state.past ++ [state.present]
    { state with
      revision := state.revision + 1
      present := next
      past := past.drop (past.length - historyLimit)
      future }

inductive BulkTransformationKind where
  | setPrice | increasePriceFixed | decreasePriceFixed | increasePricePercent | decreasePricePercent
  | setStock | setStatus
  deriving DecidableEq

def bulkField : BulkTransformationKind → Field
  | .setStock => .stock
  | .setStatus => .status
  | _ => .price

structure BulkTransformation where
  kind : BulkTransformationKind
  value : String

/-- The decimal that a transformation of a price comes to. -/
def transformed : BulkTransformationKind → Decimal → Decimal → Decimal
  | .increasePriceFixed, base, operand => addDecimal base operand
  | .decreasePriceFixed, base, operand => addDecimal base ⟨-operand.coefficient, operand.scale⟩
  | .increasePricePercent, base, operand =>
    multiplyDecimal base ⟨100 * 10 ^ operand.scale + operand.coefficient, operand.scale + 2⟩
  | .decreasePricePercent, base, operand =>
    multiplyDecimal base ⟨100 * 10 ^ operand.scale - operand.coefficient, operand.scale + 2⟩
  | _, _, operand => operand

def transformPrice (current : String) (descriptor : PricingFieldDescriptor)
    (operation : BulkTransformation) : Except String String :=
  match parseDecimal operation.value with
  | none => .error "invalid_numeric_value"
  | some operand =>
    let base := parseDecimal current
    if operation.kind ≠ .setPrice ∧ base.isNone then .error "invalid_numeric_value"
    else if operand.coefficient < 0 then .error "negative_operand"
    else
      let result := transformed operation.kind (base.getD ⟨0, 0⟩) operand
      if result.coefficient < 0 then .error "negative_value"
      else
        let scale := if operation.kind = .setPrice then operand.scale else (base.map (·.scale)).getD 0
        let scale := (descriptor.decimalScale.map Int.toNat).getD scale
        .ok (formatDecimal (roundDecimal result scale))

def transformValue (current : String) (descriptor : PricingFieldDescriptor)
    (operation : BulkTransformation) : Except String String :=
  match operation.kind with
  | .setStatus => if operation.value.isEmpty then .error "status_required" else .ok operation.value
  | .setStock =>
    let text := operation.value.toList
    if text.isEmpty || !text.all Char.isDigit || decide (maxNumericDigits < text.length) then
      .error "invalid_stock"
    else .ok (toString (natural text))
  | _ => transformPrice current descriptor operation

structure BulkPreviewItem where
  descriptor : PricingFieldDescriptor
  previousValue : String
  resultingValue : Option String
  changed : Bool
  blockedReason : Option String

structure BulkTransformationPreview where
  (workspaceId scopeId : String)
  stateRevision : ℤ
  items : List BulkPreviewItem

/-- The value that a bulk transformation starts from. -/
def liveValue (changes : PricingWorkspaceSnapshot) (descriptor : PricingFieldDescriptor) : String :=
  (((changes.get descriptor.identity).map (·.targetValue)).or
    (descriptor.targetValue.or descriptor.currentValue)).getD ""

def previewItem (changes : PricingWorkspaceSnapshot) (operation : BulkTransformation)
    (descriptor : PricingFieldDescriptor) : BulkPreviewItem :=
  let previousValue := liveValue changes descriptor
  let result :=
    if isPricingFieldEligible descriptor.policy then transformValue previousValue descriptor operation
    else
      let reason := descriptor.policy.blockedReason.getD ""
      .error (if reason = "" then "field_not_eligible" else reason)
  match result with
  | .ok value => ⟨descriptor, previousValue, some value, decide (value ≠ previousValue), none⟩
  | .error reason => ⟨descriptor, previousValue, none, false, some reason⟩

/-- `previewBulkTransformation`. The items have different keys, whatever their order. -/
def previewBulkTransformation (fields : List PricingFieldDescriptor)
    (operation : BulkTransformation) : Except Thrown BulkTransformationPreview :=
  (unique id fields).map fun descriptors =>
    ⟨state.workspaceId, state.scopeId, state.revision,
      (descriptors.filter fun d => decide (d.identity.field = bulkField operation.kind)).map
        (previewItem state.present operation)⟩

/-- The round of `applyBulkTransformation`. -/
def applyItem (changes : PricingWorkspaceSnapshot) (item : BulkPreviewItem) :
    Except Thrown PricingWorkspaceSnapshot :=
  if liveValue changes item.descriptor ≠ item.previousValue then
    .error (.staleBulkPreviewFor item.descriptor.identity)
  else if item.blockedReason.getD "" ≠ "" || !item.changed then .ok changes
  else match item.resultingValue with
    | none => .ok changes
    | some value => .ok (editField changes ⟨item.descriptor, value⟩)

/-- An item that changes the snapshot. -/
def BulkPreviewItem.applicable (item : BulkPreviewItem) : Bool :=
  decide (item.blockedReason.getD "" = "") && item.changed && item.resultingValue.isSome

def applyBulkTransformation (preview : BulkTransformationPreview) : Except Thrown PricingWorkspaceState :=
  if preview.workspaceId ≠ state.workspaceId ∨ preview.scopeId ≠ state.scopeId ∨
      preview.stateRevision ≠ state.revision then .error .staleBulkPreview
  else (preview.items.foldlM applyItem state.present).map fun next =>
    if preview.items.any BulkPreviewItem.applicable then commitUserSnapshot state next else state

/-- What is stored of a state. A change that is not one, or whose key is not its identity's, is
`none`. -/
structure Stored where
  (workspaceId scopeId : String)
  revision : ℤ
  present : List (Option PricingFieldChange)
  (past future : List (List (Option PricingFieldChange)))

/-- `snapshotFromUnknown`, where it does not raise. -/
def snapshotFromUnknown (value : List (Option PricingFieldChange)) : Option PricingWorkspaceSnapshot :=
  if 50000 < value.length then none
  else do
    let changes ← value.mapM id
    if (changes.map PricingFieldChange.identity).Nodup ∧
        ∀ change ∈ changes, change.identity.named = true ∧ scaleValid change.decimalScale = true then
      some changes
    else none

/-- `serializePricingWorkspaceState`. -/
def serialize : Stored :=
  ⟨state.workspaceId, state.scopeId, state.revision, state.present.map some,
    state.past.map (·.map some), state.future.map (·.map some)⟩

def hydrated (stored : Stored) (workspaceId scopeId : String) : Option PricingWorkspaceState :=
  if stored.workspaceId ≠ workspaceId ∨ stored.scopeId ≠ scopeId then none
  else do
    let present ← snapshotFromUnknown stored.present
    let past ← (stored.past.drop (stored.past.length - historyLimit)).mapM snapshotFromUnknown
    let future ← (stored.future.take historyLimit).mapM snapshotFromUnknown
    some ⟨workspaceId, scopeId, stored.revision, present, past, future⟩

/-- `hydratePricingWorkspaceState`: a text that is not a stored state is as good as none. -/
def hydratePricingWorkspaceState (stored : Option Stored) (workspaceId scopeId : String) :
    Except Thrown PricingWorkspaceState :=
  match stored.bind fun s => hydrated s workspaceId scopeId with
  | some state => .ok state
  | none => createPricingWorkspaceState workspaceId [] scopeId

/-- A change as the Draft is sent it. -/
def draftChangeFrom (change : PricingFieldChange) : Workspace.DraftChange where
  canonicalProductId := change.identity.productId
  listingId := change.identity.listingId
  channelId := change.identity.channelId
  field := change.identity.field
  targetValue := change.targetValue
  currency := change.currency
  unit := change.unit

end FlowHub.PricingWorkspace
