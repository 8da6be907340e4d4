import FlowHub.Workspace.Review
import FlowHub.WritePipeline.Execute

namespace FlowHub.Workspace

open Python Txn

def selectionDocument (review : Review) (items : List ReviewItem) : Json :=
  let ordered := sortedBy (fun i => [i.channelId, i.listingId, i.field.name, i.id]) items
  let texts := fun ids : List String => Json.arr (ids.map .str)
  .obj [ ("channel_ids", texts (sortedSet (ordered.map (·.channelId)))),
    ("draft_revision_id", .str review.draftRevisionId),
    ("field_changes", .arr (ordered.map fun i => .obj [("channel_id", .str i.channelId),
      ("field", .str i.field.name), ("listing_id", .str i.listingId)])),
    ("listing_ids", texts (sortedSet (ordered.map (·.listingId)))),
    ("review_checksum", .str review.checksum),
    ("review_id", .str review.id),
    ("review_item_ids", texts (ordered.map (·.id))),
    ("selection_version", .int review.selectionVersion),
    ("snapshot_id", .str review.snapshotId),
    ("workspace_id", .str review.workspaceId)]

def invalidateDryRuns (db : Db) (reviewId : Id) : Db :=
  { db with dryRuns := db.dryRuns.map fun d =>
      if d.reviewId = reviewId ∧ (d.status = .running ∨ d.status = .passed) then
        { d with status := .invalidated }
      else d }

def defaultChannels : List Id := ["woocommerce:primary", "snappshop:main"]

def preferenceOf (db : Db) (userId : Nat) : Option UserWorkspacePreference :=
  Table.get UserWorkspacePreference.userId db.preferences userId

variable (hash : Hashing)

/-- The Review's selection is replaced, and with it version, Channels and checksum. -/
def replaceSelection (review : Review) (items : List ReviewItem) (ids : List Id) (userId : Nat)
    (db : Db) : Db :=
  let next := { review with selectionVersion := review.selectionVersion + 1 }
  let selectionChecksum := hash.json (selectionDocument next items)
  let others := db.reviewSelections.filter fun s => decide (s.reviewId ≠ review.id)
  let selections := others ++ ids.map fun id => ⟨review.id, id, userId⟩
  invalidateDryRuns (updateReview { db with reviewSelections := selections } review.id fun r =>
    { r with
    selectionVersion := review.selectionVersion + 1
    selectedChannelIds := sortedSet (items.map (·.channelId))
    selectionChecksum := some selectionChecksum }) review.id

/-- The transaction of `select_review_items`. -/
def chooseItems (workspaceId reviewId : Id) (itemIds : List Id) (user : FlowHubUser) (db : Db) :
    Except Fault Db := do
  let workspace ← editableWorkspace db workspaceId user
  let review ← found (notFound "REVIEW_NOT_FOUND") (reviewOf db reviewId)
  refuse (review.workspaceId != workspace.id) (notFound "REVIEW_NOT_FOUND")
  refuse (review.status != .ready) (conflict "REVIEW_NOT_READY")
  let ids := sortedSet itemIds
  refuse (ids.isEmpty || ids.length != itemIds.length) (unprocessable "REVIEW_SELECTION_INVALID")
  let items := reviewItemsIn db review.id ids
  refuse (items.length != ids.length || items.any fun i => !i.eligible)
    (unprocessable "REVIEW_SELECTION_INELIGIBLE")
  let visible := ((preferenceOf db user.id).map (·.visibleChannelIds)).getD defaultChannels
  refuse (items.any fun i => !decide (i.channelId ∈ visible)) (conflict "SELECTION_CHANGED")
  pure (replaceSelection hash review items ids user.id db)

def selectReviewItems (workspaceId reviewId : Id) (itemIds : List Id) (user : FlowHubUser) : Program Unit :=
  Proc.transact (.selectReviewItems reviewId) fun db =>
    (chooseItems hash workspaceId reviewId itemIds user db).map (·, ())

/-- What `save_preference` reads of its payload. -/
structure PreferencePayload where
  (visibleChannelIds channelOrder : List Id)
  displayNameSource : String

def itemIdsOn (db : Db) (reviewId : Id) (channels : List Id) : List Id :=
  ((itemsOfReview db reviewId).filter fun i => decide (i.channelId ∈ channels)).map (·.id)

/-- The Reviews in which the user selected an item on a Channel now hidden. -/
def affectedReviews (db : Db) (userId : Nat) (hidden : List Id) : List Id :=
  (db.reviews.filter fun r => (selectionsOf db r.id).any fun s =>
    decide (s.selectedByUserId = userId) &&
      db.reviewItems.any fun i => decide (i.id = s.reviewItemId) && decide (i.channelId ∈ hidden)).map
    (·.id)

/-- The hidden Channels leave one Review's selection. -/
def hideFrom (hidden : List Id) (reviewId : Id) (db : Db) : Db :=
  let gone := itemIdsOn db reviewId hidden
  let db := { db with reviewSelections := db.reviewSelections.filter fun s =>
    !(decide (s.reviewId = reviewId) && decide (s.reviewItemId ∈ gone)) }
  let remaining := (selectionsOf db reviewId).map (·.reviewItemId)
  updateReview db reviewId fun r => { r with
    selectionVersion := r.selectionVersion + 1
    selectionChecksum := none
    selectedChannelIds := sortedSet
      ((db.reviewItems.filter fun i => decide (i.id ∈ remaining)).map (·.channelId)) }

def storePreference (row : UserWorkspacePreference) (db : Db) : Db :=
  if Table.has UserWorkspacePreference.userId db.preferences row.userId then
    { db with preferences :=
        Table.set UserWorkspacePreference.userId db.preferences row.userId fun _ => row }
  else { db with preferences := db.preferences ++ [row] }

/-- The transaction of `save_preference`. -/
def hideChannels (payload : PreferencePayload) (expectedVersion : Nat) (user : FlowHubUser)
    (db : Db) : Except Fault Db := do
  let implemented := WritePipeline.implementedChannels
  refuse ((payload.visibleChannelIds ++ payload.channelOrder).any (fun c =>
      !decide (c ∈ implemented)) || !decide payload.visibleChannelIds.Nodup ||
      !decide payload.channelOrder.Nodup) (unprocessable "PREFERENCE_CHANNEL_INVALID")
  refuse (payload.displayNameSource != "canonical" &&
    !decide (payload.displayNameSource ∈ implemented)) (unprocessable "DISPLAY_NAME_SOURCE_INVALID")
  let before := preferenceOf db user.id
  refuse ((before.map (·.version)).getD 0 != expectedVersion)
    (conflict "PREFERENCE_VERSION_CONFLICT")
  let previously := (before.map (·.visibleChannelIds)).getD []
  let hidden := previously.filter fun c => decide (c ∉ payload.visibleChannelIds)
  let db := storePreference ⟨user.id, payload.visibleChannelIds, payload.channelOrder,
    payload.displayNameSource, expectedVersion + 1⟩ db
  pure ((affectedReviews db user.id hidden).foldl (fun db reviewId => hideFrom hidden reviewId db)
    db)

def savePreference (payload : PreferencePayload) (expectedVersion : Nat) (user : FlowHubUser) :
    Program Unit :=
  Proc.transact (.savePreference user.id) fun db =>
    (hideChannels payload expectedVersion user db).map (·, ())

end FlowHub.Workspace
