import FlowHub.Workspace.Draft
import FlowHub.Workspace.Selection

namespace FlowHub.Workspace

open Python Txn

section

variable (u : Unicode) (hash : Hashing) (settings : Settings)

variable (evidence : Evidence)

/-- `observed.get(key)`, as `str` writes it. -/
def valueOf (key : String) : String :=
  ((evidence.lookup key).map LiveValue.str).getD ""

/-- `canonical_text(evidence.get(key))`. -/
def textOf (key : String) : String := canonicalText u (valueOf evidence key)

/-- `_expected_live_state`: identity, the one governed field, and currency and unit
where that is the price. -/
def expectedLiveState (item : ReviewItem) (listing : Listing) (product : CanonicalProduct)
    (parent : Option String) (capabilities : ChannelCapabilities) : Evidence :=
  [("external_id", .text listing.externalPrimaryId),
    ("product_type", .text (u.casefold (canonicalText u product.productType))),
    ("parent_external_id", .ofOption parent),
    (item.field.name, .ofOption item.currentValue)] ++
  (if item.field = .price then
    [("currency", .text (u.upper (canonicalText u capabilities.currency))),
      ("unit", .text (u.upper (canonicalText u capabilities.unit)))]
  else [])

def governedFields (expected : Evidence) : List Field :=
  [Field.price, .stock, .status].filter fun f => (expected.lookup f.name).isSome

/-- `_live_evidence_is_unverifiable`. -/
def unverifiable (observed expected : Evidence) : Bool :=
  let governed := governedFields expected
  let monetary := if .price ∈ governed then ["currency", "unit"] else []
  let identity := ["external_id", "product_type"]
  let required := identity ++ ["parent_external_id"] ++ governed.map Field.name ++ monetary
  let parent := observed.lookup "parent_external_id"
  required.any (fun key => (observed.lookup key).isNone) ||
    (identity ++ monetary).any (fun key => textOf u observed key == "") ||
    ((parent != some .null) && textOf u observed "parent_external_id" == "") ||
    -- A value that is not equal to itself is no evidence.
    governed.any (fun f =>
      !valuesEqual u f (valueOf observed f.name) (valueOf observed f.name)) ||
    textOf u observed "external_id" != textOf u expected "external_id" ||
    (identity ++ monetary).any (fun key => textOf u expected key == "")

/-- None stays None; anything else is compared as text. -/
def parentText : Option String :=
  match evidence.lookup "parent_external_id" with
  | none | some .null => none
  | some value => some value.str

/-- `_live_evidence_drifted`. -/
def drifted (observed expected : Evidence) : Bool :=
  u.casefold (textOf u observed "product_type") != u.casefold (textOf u expected "product_type") ||
    parentText observed != parentText expected ||
    ((expected.lookup "price").isSome &&
      (u.upper (textOf u observed "currency") != u.upper (textOf u expected "currency") ||
        u.upper (textOf u observed "unit") != u.upper (textOf u expected "unit")))

/-- What one item of the selection is found to be. -/
structure Scope where
  item : ReviewItem
  disposition : Disposition
  reason : Option String
  (observed expected : Evidence)

def dryRunBlock (item : ReviewItem) (reason : String) (observed : Evidence) (expected : Evidence) : Scope :=
  ⟨item, .blocked, some reason, observed, expected⟩

def noExpectation (item : ReviewItem) : Evidence := [("price", .ofOption item.currentValue)]

/-- The cascade that dispositions one item against its live observation. -/
def disposition (item : ReviewItem) (observed : Evidence) (error : Bool) (expected : Evidence) : Scope :=
  let live := valueOf observed item.field.name
  if error || observed.isEmpty || unverifiable u observed expected then
    dryRunBlock item "CHANNEL_STATE_UNVERIFIABLE" observed expected
  else if drifted u observed expected then dryRunBlock item "CHANNEL_DRIFT" observed expected
  else if valuesEqual u item.field live item.targetValue then
    ⟨item, .noOp, some "ALREADY_CURRENT", observed, expected⟩
  else if !valuesEqual u item.field live (item.currentValue.getD "") then
    dryRunBlock item "CHANNEL_DRIFT" observed expected
  else ⟨item, .write, none, observed, expected⟩

/-- Listing, cache row and product behind an item, when all are there. -/
def listingState (db : Db) (listingId : Id) : Option (Listing × ChannelCache × CanonicalProduct) := do
  let listing ← listingOf db listingId
  let cache ← cacheOf db listingId
  let product ← productOf db listing.canonicalProductId
  pure (listing, cache, product)

/-- What a Dry Run reads before it asks a Channel about one Listing. -/
structure Probed where
  listing : Listing
  product : CanonicalProduct
  parent : Option String
  capabilities : ChannelCapabilities
  probe : LiveProbe

def dryRunProbe (review : Review) (group : List ReviewItem) (listing : Listing)
    (cache : ChannelCache) (product : CanonicalProduct) (parent : Option String)
    (capabilities : ChannelCapabilities) : LiveProbe where
  listingId := listing.id
  channelId := listing.channelId
  externalPrimaryId := listing.externalPrimaryId
  sku := listing.sku
  productType := product.productType
  parentExternalId := parent
  price := cache.priceRaw
  stock := cache.stockQuantity
  status := cache.status
  currency := cache.priceCurrency
  unit := cache.priceUnit
  mappingVersion := listing.mappingVersion
  cacheVersion := cache.cacheVersion
  cacheChecksum := cache.checksum
  capabilityVersion := capabilities.version
  currencyDigest := review.currencyDigest
  idempotencyKey := "dry-run"
  payloadHash := "dry-run"
  governedFields := (group.map (·.field)).dedup

/-- The Listing behind one group; none where its state is incomplete. -/
def probeListing (review : Review) (listingId : Id) (group : List ReviewItem) (db : Db) :
    Except Fault (Option Probed) :=
  match listingState db listingId with
  | none => .ok none
  | some (listing, cache, product) => do
    let parent := parentExternalId db product listing.channelId
    let capabilities ← settings.capabilitiesOf listing.channelId
    pure (some ⟨listing, product, parent, capabilities,
      dryRunProbe review group listing cache product parent capabilities⟩)

/-- A read that fails counts as an error, and one without a dictionary as no observation. -/
def readLive (channelId : Id) (probe : LiveProbe) : Program (Evidence × Bool) :=
  (ask (.readLive channelId probe)).tryElse
    (fun verification => pure (verification.observed.getD [], verification.error))
    (fun _ => pure ([], true))

def verifyGroup (review : Review) (listingId : Id) (group : List ReviewItem) : Program (List Scope) := do
  let probed ← Proc.consult (.readListing listingId) (probeListing settings review listingId group)
  match probed with
  | none => pure (group.map fun item =>
    dryRunBlock item "CHANNEL_STATE_UNVERIFIABLE" [] (noExpectation item))
  | some probed =>
    let (observed, error) ← readLive probed.listing.channelId probed.probe
    pure (group.map fun item => disposition u item observed error
      (expectedLiveState u item probed.listing probed.product probed.parent probed.capabilities))

def verifyGroups (review : Review) : List (Id × List ReviewItem) → Program (List Scope)
  | [] => pure []
  | (listingId, group) :: rest => do
    let scopes ← verifyGroup u settings review listingId group
    let more ← verifyGroups review rest
    pure (scopes ++ more)

structure OpenDryRun where
  review : Review
  selectionChecksum : String
  items : List ReviewItem

/-- The tests before anything is read live. A Review found stale is marked so. -/
def openDryRun (events : Id → Id) (workspaceId reviewId : Id) (user : FlowHubUser) (now : Time)
    (db : Db) : Except Fault (Db × Except Fault OpenDryRun) := do
  let workspace ← editableWorkspace db workspaceId user
  let missing := notFound "REVIEW_NOT_FOUND"
  let review ← found missing (reviewOf db reviewId)
  let snapshot ← found missing (snapshotOf db workspace.id)
  refuse (review.workspaceId != workspace.id) missing
  assertSourceEvidenceCurrent u workspace snapshot db
  let selected := (selectionsOf db review.id).map (·.reviewItemId)
  refuse selected.isEmpty (unprocessable "DRY_RUN_SELECTION_REQUIRED")
  let items := reviewItemsIn db review.id selected
  let selectionChecksum := hash.json (selectionDocument review items)
  refuse (some selectionChecksum != review.selectionChecksum) (conflict "SELECTION_STALE")
  let policyChanged := (pricingBindingIssues events review db).2 ≠ []
  match assertReviewFresh hash settings events now review db with
  | (db, .ok ()) => pure (db, .ok ⟨review, selectionChecksum, items⟩)
  | (db, .error _) => pure (db, .error (conflict
      (if policyChanged then "POLICY_CHANGED" else "SOURCE_MAPPING_CHANGED")))

def LiveValue.json : LiveValue → Json
  | .null => .null
  | .bool b => .bool b
  | .int n => .int n
  | .text s => .str s

def evidenceJson : Json :=
  .obj ((sortedBy (fun e => [e.1]) evidence).map fun (key, value) => (key, LiveValue.json value))

def Disposition.name : Disposition → String
  | .write => "write"
  | .noOp => "no_op"
  | .blocked => "blocked"

def Scope.json (scope : Scope) : Json :=
  .obj [("disposition", .str (Disposition.name scope.disposition)),
    ("expected", evidenceJson scope.expected), ("item", .str scope.item.id),
    ("observed", evidenceJson scope.observed), ("reason", .ofOption .str scope.reason)]

def fingerprint (observed : Evidence) : Option String :=
  if observed.isEmpty then none else some (hash.json (evidenceJson observed))

def Scope.row (dryRunId : Id) (scope : Scope) : DryRunScope where
  dryRunId := dryRunId
  reviewItemId := scope.item.id
  listingId := scope.item.listingId
  channelId := scope.item.channelId
  disposition := scope.disposition
  reasonCode := scope.reason
  expectedBefore := scope.expected
  observedLive := scope.observed
  liveFingerprint := fingerprint hash scope.observed

def dryRunStatus (scopes : List Scope) : DryRunStatus :=
  if scopes.any fun s => decide (s.disposition = .blocked) then .blocked else .passed

def operationPayload (listing : Listing) (cache : ChannelCache)
    (capabilities : ChannelCapabilities) (targets : List (String × String)) : Json :=
  .obj [("cache_checksum", .str cache.checksum), ("cache_version", .int cache.cacheVersion),
    ("capability_version", .str capabilities.version), ("channel", .str listing.channelId),
    ("listing", .str listing.id), ("mapping_version", .int listing.mappingVersion),
    ("targets", .obj (targets.map fun (field, target) => (field, .str target)))]

/-- `\x7bitem.field: item.target_value for item in group\x7d`: the last one of a field. -/
def targetOf (group : List ReviewItem) (field : Field) : Option String :=
  ((group.filter fun i => decide (i.field = field)).getLast?).map (·.targetValue)

def targetsOf (group : List ReviewItem) : List (String × String) :=
  [Field.price, .status, .stock].filterMap fun field =>
    (targetOf group field).map fun target => (field.name, target)

/-- One listing's payload in a manifest. -/
def listingPayload (db : Db) (listingId : Id) (group : List ReviewItem) : Except Fault Json := do
  let missing := Fault.workspaceDomainError "Apply Listing state is unavailable."
  let listing ← found missing (listingOf db listingId)
  let cache ← found missing (cacheOf db listingId)
  let capabilities ← found (.workspaceDomainError "Channel capabilities are unavailable.")
    (settings.capabilities listing.channelId)
  pure (operationPayload listing cache capabilities (targetsOf group))

def listingPayloads (db : Db) (items : List ReviewItem) : Except Fault (List (Id × Json)) :=
  (groupedBy ReviewItem.listingId items).mapM fun (listingId, group) => do
    let payload ← listingPayload settings db listingId group
    pure (listingId, payload)

def manifestDocument (db : Db) (review : Review) (items : List ReviewItem) (dryRunId : Id)
    (evidenceChecksum : String) : Except Fault (Json × List (Id × Json)) := do
  let payloads ← listingPayloads settings db items
  let ordered := sortedBy (fun i => [i.channelId, i.listingId, i.field.name, i.id]) items
  let operations := ordered.map fun i => Json.obj [("channel_id", .str i.channelId),
    ("field", .str i.field.name), ("listing_id", .str i.listingId),
    ("listing_payload", (payloads.lookup i.listingId).getD .null), ("review_item_id", .str i.id)]
  pure (.obj [ ("draft_revision_id", .str review.draftRevisionId), ("dry_run_id", .str dryRunId),
    ("live_evidence_checksum", .str evidenceChecksum),
    ("manifest_version", .str "uw-manifest-op-v2"),
    ("operations", .arr operations),
    ("review_checksum", .str review.checksum),
    ("review_id", .str review.id),
    ("selection_checksum", .ofOption .str review.selectionChecksum),
    ("selection_version", .int review.selectionVersion),
    ("snapshot_id", .str review.snapshotId),
    ("workspace_id", .str review.workspaceId)], payloads)

structure DryRunFresh where
  (dryRun manifest : Id)
  authorityEvent : Id → Id

def manifestOperation (manifestId : Id) (payloads : List (Id × Json)) (item : ReviewItem) :
    ApplyManifestOperation where
  manifestId := manifestId
  reviewItemId := item.id
  listingId := item.listingId
  channelId := item.channelId
  field := item.field
  currentValue := item.currentValue
  targetValue := item.targetValue
  currency := if item.field = .price then item.normalizedCurrency else none
  unit := if item.field = .price then item.normalizedUnit else none
  listingPayloadHash := hash.json ((payloads.lookup item.listingId).getD .null)

def generateApplyManifest (manifestId : Id) (review : Review) (items : List ReviewItem)
    (dryRun : DryRun) (db : Db) : Except Fault Db := do
  let (document, payloads) ← manifestDocument settings db review items dryRun.id
    dryRun.evidenceChecksum
  if Table.has ApplyManifest.id db.applyManifests manifestId then .error .integrityError
  else .ok { db with
    applyManifests := db.applyManifests ++ [⟨manifestId, review.id, some dryRun.id,
      review.selectionVersion, review.selectionChecksum.getD "", hash.json document⟩]
    applyManifestOperations := db.applyManifestOperations ++
      items.map (manifestOperation hash manifestId payloads) }

def newDryRun (dryRunId : Id) (opened : OpenDryRun) (scopes : List Scope) (now : Time) : DryRun where
  id := dryRunId
  reviewId := opened.review.id
  selectionVersion := opened.review.selectionVersion
  selectionChecksum := opened.selectionChecksum
  status := dryRunStatus scopes
  evidenceChecksum := hash.json (.arr (scopes.map Scope.json))
  createdAt := now

def insertDryRun (dryRun : DryRun) (scopes : List DryRunScope) (db : Db) : Except Fault Db :=
  if Table.has DryRun.id db.dryRuns dryRun.id then .error .integrityError
  else .ok { db with
    dryRuns := db.dryRuns ++ [dryRun]
    dryRunScopes := db.dryRunScopes ++ scopes }

def writesOf (scopes : List Scope) : List ReviewItem :=
  (scopes.filter fun s => decide (s.disposition = .write)).map (·.item)

/-- The evidence is stored, and with it the manifest of a Dry Run that passed. -/
def closeDryRun (fresh : DryRunFresh) (opened : OpenDryRun) (scopes : List Scope) (now : Time)
    (db : Db) : Except Fault Db := do
  let db := invalidateDryRuns db opened.review.id
  let dryRun := newDryRun hash fresh.dryRun opened scopes now
  let db ← insertDryRun dryRun (scopes.map (Scope.row hash dryRun.id)) db
  if dryRun.status = .passed ∧ writesOf scopes ≠ [] then
    generateApplyManifest hash settings fresh.manifest opened.review (writesOf scopes) dryRun db
  else .ok db

def runDryRun (fresh : DryRunFresh) (workspaceId reviewId : Id) (user : FlowHubUser)
    (openedAt closedAt : Time) : Program (List Scope) := do
  let opened ← Proc.transact (.openDryRun reviewId)
    (openDryRun u hash settings fresh.authorityEvent workspaceId reviewId user openedAt)
  let opened ← Proc.ofExcept opened
  let scopes ← verifyGroups u settings opened.review
    (groupedBy ReviewItem.listingId opened.items)
  Proc.transact (.closeDryRun fresh.dryRun) fun db =>
    (closeDryRun hash settings fresh opened scopes closedAt db).map (·, scopes)

end

namespace Sample

/-- Every commit goes through; the provider reports `live` of each Listing and field. -/
def reports (live : Id → Field → String) : Surroundings service where
  refuse _ _ := none
  answer _
    | .acquire _ | .transportReports _ _ => .ok ()
    | .applyUpdates _ _ intents | .verifyUpdates _ _ intents =>
      .ok (intents.map fun i => { listingId := i.listingId, outcome := .verifiedApplied })
    | .readLive _ probe => .ok {
        observed := some ([("external_id", .text probe.externalPrimaryId),
          ("product_type", .text probe.productType), ("parent_external_id", .null)] ++
          probe.governedFields.map fun f => (f.name, .text (live probe.listingId f)))
        error := false }

def reviewFresh : ReviewFresh where
  review := "review"
  item n := "item" ++ toString n
  binding channelId := "binding:" ++ channelId
  authorityEvent channelId := "authority:" ++ channelId

def dryRunFresh : DryRunFresh where
  dryRun := "dry-run"
  manifest := "manifest"
  authorityEvent channelId := "authority:" ++ channelId

def reviewed (cells : List Cell) : World service :=
  (replay (reports fun _ _ => "") 3 (generateReview .ascii documents settings reviewFresh
    "workspace" "revision" owner 1) (.initial (catalogue cells))).2

def selected (cells : List Cell) (itemIds : List Id) : World service :=
  (replay (reports fun _ _ => "") 3 (selectReviewItems documents "workspace" "review" itemIds
    owner) (reviewed cells)).2

end Sample

end FlowHub.Workspace
