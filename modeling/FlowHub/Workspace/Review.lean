import FlowHub.Workspace.Freshness

namespace FlowHub.Workspace

open Python Txn

/-- Identities a call to `generate_review` draws. -/
structure ReviewFresh where
  review : Id
  item : Nat → Id
  (binding authorityEvent : Id → Id)

/-- `DraftRepository.changes`. -/
def changesOf (db : Db) (revisionId : Id) : List DraftRevisionChange :=
  sortedBy (fun c => [c.canonicalProductId, c.listingId, c.field.name])
    (db.draftChanges.filter fun c => decide (c.revisionId = revisionId))

variable (u : Unicode) (hash : Hashing) (settings : Settings)

/-- What Review reads for one change. -/
structure ReviewEvidence where
  listing : Option Listing
  product : Option CanonicalProduct
  cache : Option ChannelCache
  channel : Option WorkspaceChannel
  capabilities : Option ChannelCapabilities

def evidenceFor (db : Db) (change : DraftRevisionChange) : ReviewEvidence where
  listing := listingOf db change.listingId
  product := productOf db change.canonicalProductId
  cache := cacheOf db change.listingId
  channel := channelOf db change.channelId
  capabilities := settings.capabilities change.channelId

def flag (condition : Bool) (error : String) : List String := if condition then [error] else []

variable (change : DraftRevisionChange)

/-- The errors of the capabilities a change needs. -/
def capabilityErrors (cache : ChannelCache) : Option ChannelCapabilities → List String
  | none => []
  | some capabilities =>
    flag (!capabilities.canWrite change.field) "field_capability_unavailable" ++
      flag (change.field == .price && !currencyMatches u change.currency change.unit capabilities)
        "currency_unit_invalid" ++
      flag (change.field == .stock && cache.manageStock == some false &&
        capabilities.requiresStockManagement) "stock_management_disabled"

/-- The errors of one change, before pricing. -/
def changeErrors (e : ReviewEvidence) : List String :=
  match e.listing, e.product, e.cache with
  | some listing, some product, some cache =>
    flag (!listing.enabled) "listing_disabled" ++
      flag (!(channelAvailable e.channel && e.capabilities.isSome)) "channel_unavailable" ++
      flag (listing.mappingState != .resolved) "mapping_unresolved" ++
      flag (cache.fetchStatus != "success") "channel_cache_unavailable" ++
      flag (!productEditable product.productType) "variable_parent_read_only" ++
      capabilityErrors u change cache e.capabilities
  | _, _, _ => ["listing_or_cache_unavailable"]

def changeWarnings (e : ReviewEvidence) : List String :=
  match e.listing, e.product, e.cache with
  | some _, some _, some cache =>
    flag (cache.fetchStatus == "success" && cache.freshness != "fresh") "channel_cache_not_fresh"
  | _, _, _ => []

/-- `_money` refuses an amount or a currency it cannot hold, and with it the Review. -/
def checkMoney (e : ReviewEvidence) : Except Fault Unit :=
  match e.listing, e.product, e.cache, e.capabilities with
  | some _, some _, some _, some capabilities =>
    if change.field = .price ∧ currencyMatches u change.currency change.unit capabilities then
      (money u change.targetValue capabilities).map fun _ => ()
    else .ok ()
  | _, _, _, _ => .ok ()

/-- One entry of `prepared`. -/
structure Prepared where
  change : DraftRevisionChange
  evidence : ReviewEvidence
  current : Option String
  (errors warnings : List String)
  eligible : Bool
  normalized : Option (String × String)

/-- `_normalized_target`, of which only a price keeps currency and unit. -/
def normalizedTarget (errors : List String) :
    Option ChannelCapabilities → Except Fault (Option (String × String))
  | some capabilities =>
    if errors = [] ∧ change.field = .price then
      (money u change.targetValue capabilities).map some
    else .ok none
  | none => .ok none

def prepare (db : Db) (change : DraftRevisionChange) : Except Fault Prepared := do
  let evidence := evidenceFor settings db change
  checkMoney u change evidence
  let errors := changeErrors u change evidence
  let current := evidence.cache.bind fun c => currentValue c change.field
  let unchanged := valuesEqual u change.field (current.getD "") change.targetValue
  let normalized ← normalizedTarget u change errors evidence.capabilities
  pure { change, evidence, current, errors, warnings := changeWarnings evidence,
         eligible := errors.isEmpty && !unchanged, normalized }

/-- The documents over all changes of the revision. -/
def reviewPayloads (prepared : List Prepared) : Payloads where
  mapping := prepared.filterMap fun p => p.evidence.listing
  capability := prepared.map fun p =>
    (p.change.channelId, p.evidence.channel, p.evidence.capabilities)
  currency := prepared.map fun p => channelCurrency p.change.channelId p.evidence.capabilities

def cacheRow (cache : ChannelCache) : Json :=
  .obj [("checksum", .str cache.checksum), ("listing", .str cache.listingId),
    ("version", .int cache.cacheVersion)]

/-- `_binding_contract`. -/
def bindingRow (binding : WorkspacePricingBinding) : Json :=
  let moment := Json.int binding.workspacePricingEvaluatedAt
  .obj [("channelConfigRevisionId", .str binding.channelConfigRevisionId),
    ("channelId", .str binding.channelId),
    ("executionPolicySnapshot", .obj [ ("cacheMaxAgeMinutes", .int binding.cacheMaxAgeMinutes),
      ("currencyRulesetVersion", .str currencyRulesetVersion),
      ("normalizationVersion", .str "uw-normalization-1"),
      ("operationVersion", .str "unified-workspace-pricing-v1"),
      ("schemaVersion", .str "uw-snapshot-1"),
      ("validationRulesetVersion", .str validationVersion),
      ("workspacePricingEvaluatedAt", moment)]),
    ("expectedPricingAuthority", .ofOption (fun _ => .str "pricing_matrix")
      binding.expectedPricingAuthority),
    ("id", .str binding.id),
    ("policyRevisionId", .str binding.policyRevisionId),
    ("pricingAuthorityEventId", .ofOption .str binding.pricingAuthorityEventId),
    ("pricingAuthorityHeadVersion", .ofOption (fun n => .int n)
      binding.pricingAuthorityHeadVersion),
    ("pricingPolicyActivationId", .str binding.pricingPolicyActivationId),
    ("workspaceId", .str binding.workspaceId),
    ("workspacePricingEvaluatedAt", moment)]

/-- A price change of a Channel without a binding is blocked too. -/
def blockUnpriced (issues : List (Id × String)) (p : Prepared) : Prepared :=
  match issues.lookup p.change.channelId with
  | some issue =>
    if p.change.field = .price ∧ issue ∉ p.errors then
      { p with errors := p.errors ++ [issue], eligible := false }
    else p
  | none => p

/-- The price Channels are pinned, each or with the reason it is not. -/
def bindPricing (fresh : ReviewFresh) (workspaceId : Id) (now : Time)
    (prepared : List Prepared) (db : Db) : Db × Bindings :=
  let channelIds := (prepared.filter fun p => decide (p.change.field = .price)).map fun p =>
    p.change.channelId
  bindWorkspaceChannels settings fresh.authorityEvent fresh.binding workspaceId channelIds now db

def reviewChecksum (snapshot : WorkspaceSnapshot) (revision : DraftRevision)
    (profile : CurrencyProfile) (payloads : Payloads) (prepared : List Prepared)
    (pricing : Bindings) : String :=
  hash.json (.obj [ ("cache", .arr ((prepared.filterMap fun p => p.evidence.cache).map cacheRow)),
    ("capability", .str (payloads.capabilityDigest hash)),
    ("currency", .str (payloads.currencyDigest hash)),
    ("currency_profile", .str profile.id),
    ("currency_profile_checksum", .str profile.checksum),
    ("currency_profile_version", .int profile.version),
    ("currency_ruleset", .str currencyRulesetVersion),
    ("mapping", .str (payloads.mappingDigest hash)),
    ("pricing_binding_issues", .obj (pricing.issues.map fun (c, issue) => (c, .str issue))),
    ("pricing_bindings", .arr (pricing.bindings.map bindingRow)),
    ("revision", .str revision.checksum),
    ("ruleset", .str validationVersion),
    ("snapshot", .str snapshot.contentChecksum)])

def newReview (reviewId : Id) (workspace : UnifiedWorkspace) (snapshot : WorkspaceSnapshot)
    (revision : DraftRevision) (profile : CurrencyProfile) (payloads : Payloads)
    (prepared : List Prepared) (pricing : Bindings) : Review where
  id := reviewId
  workspaceId := workspace.id
  snapshotId := snapshot.id
  draftRevisionId := revision.id
  -- Blocked items do not keep the others from Review.
  status := if prepared.any fun p => p.errors.isEmpty then .ready else .blocked
  rulesetVersion := validationVersion
  capabilityDigest := payloads.capabilityDigest hash
  currencyDigest := payloads.currencyDigest hash
  currencyProfileId := profile.id
  currencyProfileVersion := profile.version
  currencyProfileChecksum := profile.checksum
  currencySourceReference := sourceReference profile
  currencyChannelReferences := channelReferences payloads.currency
  currencyRulesetVersion := currencyRulesetVersion
  mappingDigest := payloads.mappingDigest hash
  checksum := reviewChecksum hash snapshot revision profile payloads prepared pricing

def newReviewItem (id reviewId : Id) (p : Prepared) : ReviewItem where
  id := id
  reviewId := reviewId
  draftChangeId := p.change.id
  canonicalProductId := p.change.canonicalProductId
  listingId := p.change.listingId
  channelId := p.change.channelId
  field := p.change.field
  currentValue := p.current
  targetValue := p.change.targetValue
  normalizedCurrency := p.normalized.map Prod.fst
  normalizedUnit := p.normalized.map Prod.snd
  warnings := p.warnings
  errors := p.errors
  eligible := p.eligible

/-- What Review captures of one change's cache row, if it has a Listing and a row. -/
def capture (reviewId : Id) (p : Prepared) : Option ReviewCacheVersion :=
  match p.evidence.listing, p.evidence.cache with
  | some listing, some cache => some {
      reviewId
      listingId := listing.id
      channelId := listing.channelId
      cacheVersion := cache.cacheVersion
      cacheChecksum := cache.checksum
      mappingVersion := listing.mappingVersion
      capabilityVersion := versionOf p.evidence.capabilities }
  | _, _ => none

/-- Each captured Listing once, as its first change has it. -/
def captures (reviewId : Id) (prepared : List Prepared) : List ReviewCacheVersion :=
  firstByKey ReviewCacheVersion.listingId (prepared.filterMap (capture reviewId))

def insertReview (review : Review) (items : List ReviewItem)
    (captured : List ReviewCacheVersion) (db : Db) : Except Fault Db :=
  if Table.has Review.id db.reviews review.id ||
      items.any (fun i => Table.has ReviewItem.id db.reviewItems i.id) ||
      !decide (items.map ReviewItem.id).Nodup then .error .integrityError
  else .ok { db with
    reviews := db.reviews ++ [review]
    reviewItems := db.reviewItems ++ items
    reviewCacheVersions := db.reviewCacheVersions ++ captured }

/-- The transaction of `generate_review`. -/
def buildReview (fresh : ReviewFresh) (workspaceId revisionId : Id) (user : FlowHubUser)
    (now : Time) (db : Db) : Except Fault Db := do
  let workspace ← editableWorkspace db workspaceId user
  let invalid := unprocessable "REVIEW_INPUT_INVALID"
  let snapshot ← found invalid (snapshotOf db workspace.id)
  let revision ← found invalid (Table.get DraftRevision.id db.draftRevisions revisionId)
  refuse (revision.workspaceId != workspace.id || revision.snapshotId != snapshot.id) invalid
  let changes := changesOf db revision.id
  refuse changes.isEmpty (unprocessable "REVIEW_EMPTY")
  let prepared ← changes.mapM (prepare u settings db)
  let payloads := reviewPayloads prepared
  let profile ← found (conflict "CURRENCY_PROFILE_MISSING")
    (Table.get CurrencyProfile.id db.currencyProfiles snapshot.currencyProfileId)
  let (db, pricing) := bindPricing settings fresh workspace.id now prepared db
  let prepared := prepared.map (blockUnpriced pricing.issues)
  let review := newReview hash fresh.review workspace snapshot revision profile payloads prepared
    pricing
  let items := prepared.mapIdx fun n p => newReviewItem (fresh.item n) review.id p
  insertReview review items (captures review.id prepared) db

def generateReview (fresh : ReviewFresh) (workspaceId revisionId : Id) (user : FlowHubUser)
    (now : Time) : Program Unit :=
  Proc.transact (.generateReview fresh.review) fun db =>
    (buildReview u hash settings fresh workspaceId revisionId user now db).map (·, ())

end FlowHub.Workspace
