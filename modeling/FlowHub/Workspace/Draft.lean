import FlowHub.Workspace.Review

namespace FlowHub.Workspace

open Python Txn

section

/-- A change as the request has it. -/
structure DraftChange where
  (canonicalProductId listingId channelId : Id)
  field : Field
  targetValue : String
  currency : Option String := none
  unit : Option String := none

def DraftRevisionChange.draftChange (c : DraftRevisionChange) : DraftChange :=
  ⟨c.canonicalProductId, c.listingId, c.channelId, c.field, c.targetValue, c.currency, c.unit⟩

/-- Identities a new Draft Revision draws. -/
structure RevisionFresh where
  revision : Id
  change : Nat → Id

def maxDraftChanges : Nat := 30000

variable (u : Unicode) (hash : Hashing) (settings : Settings)

def nonnegative : Option Numeral → Bool
  | some (.finite q) => decide (0 ≤ q)
  | _ => false

/-- `DraftChange.__post_init__`. -/
def validDraftChange (change : DraftChange) : Except Fault Unit := do
  refuse (change.canonicalProductId == "" || change.listingId == "" || change.channelId == "")
    (.workspaceDomainError "Canonical product, listing, and channel are required.")
  if change.field ≠ .status then
    refuse (number u change.targetValue).isNone
      (.workspaceDomainError (change.field.name ++ " must be numeric."))
    refuse (!nonnegative (number u change.targetValue))
      (.workspaceDomainError (change.field.name ++ " must be finite and non-negative."))
  refuse (change.field == .price && (change.currency.getD "" == "" || change.unit.getD "" == ""))
    (.workspaceDomainError "Price changes require explicit currency and unit.")

def DraftChange.key (c : DraftChange) : Id × Field := (c.listingId, c.field)

def contentOf (db : Db) (revisionId : Id) : List DraftChange :=
  (changesOf db revisionId).map DraftRevisionChange.draftChange

/-- What a save starts from: the current revision's changes, unless they are replaced. -/
def keptChanges (db : Db) (draft : Draft) (replaceExisting : Bool) : List DraftChange :=
  match draft.currentRevisionId with
  | some revisionId => if replaceExisting then [] else contentOf db revisionId
  | none => []

/-- A change whose target the cache already shows takes the cell out of the Draft. -/
def mergeChange (db : Db) (merged : List DraftChange) (change : DraftChange) : List DraftChange :=
  let rest := merged.filter fun c => decide (c.key ≠ change.key)
  let current := (cacheOf db change.listingId).bind fun cache => currentValue cache change.field
  if valuesEqual u change.field (current.getD "") change.targetValue then rest
  else rest ++ [change]

/-- What `save_draft` demands of one cell of the new revision. -/
def validateCell (db : Db) (snapshot : WorkspaceSnapshot) (change : DraftChange) : Except Fault Unit := do
  let identity := unprocessable "DRAFT_IDENTITY_INVALID"
  let listing ← found identity (listingOf db change.listingId)
  let product ← found identity (productOf db change.canonicalProductId)
  refuse (listing.canonicalProductId != product.id || listing.channelId != change.channelId)
    identity
  refuse (!db.snapshotRows.any fun r =>
      decide (r.snapshotId = snapshot.id) && decide (r.listingId = listing.id))
    (unprocessable "DRAFT_OUTSIDE_SNAPSHOT")
  refuse (!listing.enabled) (unprocessable "LISTING_DISABLED")
  refuse (!channelAvailable (channelOf db listing.channelId)) (unprocessable "CHANNEL_UNAVAILABLE")
  refuse (product.productType == "variable") (.workspaceDomainError
    "Variable parent products are grouping-only and cannot be edited.")
  refuse (!productEditable product.productType)
    (.workspaceDomainError "Unsupported product type.")
  refuse (listing.mappingState != .resolved) (unprocessable "MAPPING_UNRESOLVED")
  let capabilities ← found (unprocessable "CHANNEL_UNAVAILABLE")
    (settings.capabilities listing.channelId)
  refuse (!capabilities.canWrite change.field) (unprocessable "FIELD_READ_ONLY")
  refuse (change.field == .price && !currencyMatches u change.currency change.unit capabilities)
    (unprocessable "CURRENCY_UNIT_INVALID")
  refuse (change.field == .status && !decide (change.targetValue ∈ capabilities.supportedStatuses))
    (unprocessable "STATUS_UNSUPPORTED")

def changeRow (change : DraftChange) : Json :=
  .obj [("canonical_product_id", .str change.canonicalProductId),
    ("channel_id", .str change.channelId), ("currency", .ofOption .str change.currency),
    ("field", .str change.field.name), ("listing_id", .str change.listingId),
    ("target_value", .str (canonicalText u change.targetValue)),
    ("unit", .ofOption .str change.unit)]

/-- `deterministic_revision_checksum`. -/
def revisionChecksum (changes : List DraftChange) (metadata : Json) : String :=
  hash.json (.obj [
    ("changes", .arr ((sortedBy (fun c => [c.canonicalProductId, c.listingId, c.field.name])
      changes).map (changeRow u))),
    ("metadata", metadata)])

def newChange (id revisionId : Id) (change : DraftChange) : DraftRevisionChange where
  id := id
  revisionId := revisionId
  canonicalProductId := change.canonicalProductId
  listingId := change.listingId
  channelId := change.channelId
  field := change.field
  targetValue := canonicalText u change.targetValue
  currency := change.currency
  unit := change.unit

def revisionClashes (a b : DraftRevision) : Bool :=
  decide (a.id = b.id) || (decide (a.draftId = b.draftId) &&
    (decide (a.revisionNumber = b.revisionNumber) || decide (a.checksum = b.checksum)))

/-- The new revision becomes the Draft's current one. -/
def insertRevision (draft : Draft) (revision : DraftRevision)
    (changes : List DraftRevisionChange) (db : Db) : Except Fault Db :=
  if db.draftRevisions.any (revisionClashes revision) ||
      changes.any (fun c => Table.has DraftRevisionChange.id db.draftChanges c.id) then
    .error .integrityError
  else .ok { db with
    draftRevisions := db.draftRevisions ++ [revision]
    draftChanges := db.draftChanges ++ changes
    drafts := Table.set Draft.id db.drafts draft.id fun d => { d with
      currentRevisionId := some revision.id
      version := draft.version + 1 } }

/-- The transaction of `save_draft`. -/
def writeDraft (fresh : RevisionFresh) (workspaceId : Id) (expectedVersion : Nat)
    (incoming : List DraftChange) (metadata : Json) (replaceExisting : Bool) (user : FlowHubUser)
    (db : Db) : Except Fault Db := do
  let workspace ← editableWorkspace db workspaceId user
  let draft ← found (conflict "WORKSPACE_INCOMPLETE") (draftOf db workspace.id)
  let snapshot ← found (conflict "WORKSPACE_INCOMPLETE") (snapshotOf db workspace.id)
  refuse (draft.version != expectedVersion) (conflict "DRAFT_VERSION_CONFLICT")
  refuse (decide (maxDraftChanges < incoming.length)) (unprocessable "DRAFT_BATCH_LIMIT")
  incoming.forM (validDraftChange u)
  refuse (!decide (incoming.map DraftChange.key).Nodup) (unprocessable "DUPLICATE_DRAFT_CHANGE")
  let changes := sortedBy (fun c => [c.listingId, c.field.name])
    (incoming.foldl (mergeChange u db) (keptChanges db draft replaceExisting))
  changes.forM (validateCell u settings db snapshot)
  let checksum := revisionChecksum u hash changes metadata
  let current := draft.currentRevisionId.bind (Table.get DraftRevision.id db.draftRevisions)
  if current.map (·.checksum) = some checksum then .ok db
  else
    insertRevision draft ⟨fresh.revision, draft.id, workspace.id, snapshot.id, draft.version + 1,
      draft.currentRevisionId, checksum⟩
      (changes.mapIdx fun n c => newChange u (fresh.change n) fresh.revision c) db

def saveDraft (fresh : RevisionFresh) (workspaceId : Id) (expectedVersion : Nat)
    (incoming : List DraftChange) (metadata : Json) (replaceExisting : Bool)
    (user : FlowHubUser) : Program Unit :=
  (Proc.transact (I := service) (.saveDraft workspaceId) fun db =>
    (writeDraft u hash settings fresh workspaceId expectedVersion incoming metadata replaceExisting
      user db).map (·, ())).rescue fun e =>
    .raise (if e = .integrityError then conflict "DRAFT_VERSION_CONFLICT" else e)

/-- The transaction of `restore_revision`. -/
def writeRestored (fresh : RevisionFresh) (workspaceId revisionId : Id) (expectedVersion : Nat)
    (user : FlowHubUser) (db : Db) : Except Fault Db := do
  let workspace ← editableWorkspace db workspaceId user
  let missing := notFound "REVISION_NOT_FOUND"
  let draft ← found missing (draftOf db workspace.id)
  let source ← found missing (Table.get DraftRevision.id db.draftRevisions revisionId)
  refuse (source.draftId != draft.id) missing
  refuse (draft.version != expectedVersion) (conflict "DRAFT_VERSION_CONFLICT")
  let checksum := hash.json (.obj [("restored_from", .str source.id),
    ("revision", .int ((draft.version + 1 : Nat) : Int)), ("source_checksum", .str source.checksum)])
  insertRevision draft ⟨fresh.revision, draft.id, workspace.id, source.snapshotId,
    draft.version + 1, draft.currentRevisionId, checksum⟩ ((changesOf db source.id).mapIdx fun n c =>
      { c with id := fresh.change n, revisionId := fresh.revision }) db

def restoreRevision (fresh : RevisionFresh) (workspaceId revisionId : Id) (expectedVersion : Nat)
    (user : FlowHubUser) : Program Unit :=
  Proc.transact (.restoreRevision workspaceId) fun db =>
    (writeRestored hash fresh workspaceId revisionId expectedVersion user db).map (·, ())

end

namespace Sample

/-- One cell of a small catalogue: what the cache shows and what the Draft wants. -/
structure Cell where
  listingId : Id
  field : Field
  (current target : String)

def twoCells : List Cell := [⟨"7", .stock, "3", "5"⟩, ⟨"8", .stock, "3", "5"⟩]

def owner : FlowHubUser := ⟨1, "owner", "owner"⟩

def settings : Settings where
  capabilities _ := some {
    writePrice := true, writeStock := true, writeStatus := true, writeAvailable := true
    requiresStockManagement := false, supportedStatuses := ["instock", "outofstock"]
    currency := "EUR", unit := "EUR", version := "1" }

def mix (h n : Nat) : Nat := (257 * h + n) % 2305843009213693951

def mixText (h : Nat) (text : String) : Nat :=
  text.toByteArray.data.toList.foldl (fun h byte => mix h byte.toNat) (mix h 1)

mutual

/-- A short digest that tells the documents of these runs apart. -/
def mixJson (h : Nat) : Json → Nat
  | .null => mix h 2
  | .bool b => mix (mix h 3) b.toNat
  | .int n => mix (mix h 4) n.toNat
  | .float _ => mix h 5
  | .str s => mixText (mix h 6) s
  | .arr items => mixItems (mix h 7) items
  | .obj fields => mixFields (mix h 8) fields

def mixItems (h : Nat) : List Json → Nat
  | [] => mix h 9
  | item :: rest => mixItems (mixJson h item) rest

def mixFields (h : Nat) : List (String × Json) → Nat
  | [] => mix h 10
  | (key, value) :: rest => mixFields (mixJson (mixText h key) value) rest

end

def documents : Hashing where
  text text := toString (mixText 7 text)
  json document := toString (mixJson 7 document)

def listing (id : Id) : Listing where
  id := id
  canonicalProductId := id
  channelId := "woocommerce:primary"
  externalPrimaryId := id
  mappingState := .resolved
  mappingVersion := 1
  enabled := true

def cached (cells : List Cell) (listingId : Id) : ChannelCache :=
  let current := fun field => (cells.find? fun c =>
    decide (c.listingId = listingId) && decide (c.field = field)).map (·.current)
  { listingId := listingId, priceRaw := current .price, stockQuantity := current .stock,
    status := current .status, cacheVersion := 1, checksum := "cache", freshness := "fresh",
    fetchStatus := "success", fetchedAt := 0 }

def catalogue (cells : List Cell) : Db :=
  let listingIds := (cells.map (·.listingId)).dedup
  { workspaces := [⟨"workspace", .manual, 1⟩]
    snapshots := [⟨"snapshot", "workspace", .manual, "content", "profile", {}⟩]
    currencyProfiles := [⟨"profile", "global", "default", 1, "profile", true⟩]
    channels := [{ id := "woocommerce:primary" }]
    products := listingIds.map fun id => ⟨id, "simple", none⟩
    listings := listingIds.map listing
    snapshotRows := listingIds.map fun id => ⟨"snapshot", id⟩
    channelCache := listingIds.map (cached cells)
    drafts := [⟨"draft", "workspace", some "revision", 1, .draft⟩]
    draftRevisions := [⟨"revision", "draft", "workspace", "snapshot", 1, none, "revision"⟩]
    draftChanges := cells.mapIdx fun n c =>
      ⟨"change" ++ toString n, "revision", c.listingId, c.listingId, "woocommerce:primary",
        c.field, c.target, none, none⟩ }

end Sample

end FlowHub.Workspace
