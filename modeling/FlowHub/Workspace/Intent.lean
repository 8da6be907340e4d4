import FlowHub.Workspace.DryRun

namespace FlowHub.Workspace

open Python Txn Option

variable (u : Unicode) (hash : Hashing) (settings : Settings)

def readFloat (text : String) : Except Fault Float64 :=
  found (.valueError ("could not convert string to float: '" ++ text ++ "'")) (float u text)

/-- `float(text) if text is not None else None`. -/
def readOptional : Option String → Except Fault (Option Float64)
  | none => .ok none
  | some text => (readFloat u text).map some

def currentPrice (cache : ChannelCache) : Except Fault (Option Float64) :=
  readOptional u (if cache.priceRaw = some "" then none else cache.priceRaw)

/-- The binding whose authority a price write names. -/
def authorityBinding (db : Db) (job : ApplyJob) (listing : Listing) :
    Option ReviewItem → Except Fault (Option WorkspacePricingBinding)
  | none => .ok none
  | some _ => do
    let missing := Fault.workspaceDomainError "Pricing authority binding is unavailable."
    let binding ← found missing (bindingOf db job.workspaceId listing.channelId)
    refuse (binding.pricingAuthorityEventId.isNone || binding.pricingAuthorityHeadVersion.isNone ||
      binding.expectedPricingAuthority != some .pricingMatrix) missing
    pure (some binding)

/-- Everything `_write_intent` reads before it converts a number. -/
structure IntentBasis where
  listing : Listing
  cache : ChannelCache
  product : CanonicalProduct
  capabilities : ChannelCapabilities
  itemIds : List Id
  review : Review
  priceItem : Option ReviewItem
  binding : Option WorkspacePricingBinding

def intentBasis (db : Db) (job : ApplyJob) (listingId : Id) (items : List ReviewItem) :
    Except Fault IntentBasis := do
  let (listing, cache, product) ← found
    (.workspaceDomainError "Apply Listing state is unavailable.") (listingState db listingId)
  let capabilities ← settings.capabilitiesOf listing.channelId
  let itemIds := ((db.applyJobItems.filter fun i =>
    decide (i.applyJobId = job.id) && decide (i.reviewItemId ∈ items.map (·.id))).map
      (·.id)).insertionSort (· ≤ ·)
  let review ← found (.workspaceDomainError "Apply Review state is unavailable.")
    (reviewOf db job.reviewId)
  let priceItem := items.find? fun i => decide (i.field = .price)
  let binding ← authorityBinding db job listing priceItem
  pure { listing, cache, product, capabilities, itemIds, review, priceItem, binding }

/-- The numbers of an intent, read from the cache and from the targets. -/
structure IntentNumbers where
  (currentPrice currentStock targetPrice targetStock : Option Float64)

def intentNumbers (cache : ChannelCache) (items : List ReviewItem) : Except Fault IntentNumbers := do
  let price ← currentPrice u cache
  let stock ← readOptional u cache.stockQuantity
  let targetPrice ← readOptional u (targetOf items .price)
  let targetStock ← readOptional u (targetOf items .stock)
  pure ⟨price, stock, targetPrice, targetStock⟩

def newIntent (db : Db) (job : ApplyJob) (items : List ReviewItem) (selectionChecksum : String)
    (b : IntentBasis) (n : IntentNumbers) : WorkspaceWriteIntent where
  applyJobId := job.id
  applyItemIds := b.itemIds
  workspaceId := job.workspaceId
  snapshotId := job.snapshotId
  draftRevisionId := job.draftRevisionId
  reviewId := job.reviewId
  selectionChecksum := selectionChecksum
  listingId := b.listing.id
  channelId := b.listing.channelId
  externalPrimaryId := b.listing.externalPrimaryId
  sku := b.listing.sku
  productType := b.product.productType
  parentExternalId := parentExternalId db b.product b.listing.channelId
  currentPrice := n.currentPrice
  currentStock := n.currentStock
  currentStatus := b.cache.status
  targetPrice := n.targetPrice
  targetStock := n.targetStock
  targetStatus := targetOf items .status
  currency := match b.priceItem with
    | some item => item.normalizedCurrency
    | none => b.cache.priceCurrency
  unit := match b.priceItem with
    | some item => item.normalizedUnit
    | none => b.cache.priceUnit
  mappingVersion := b.listing.mappingVersion
  cacheVersion := b.cache.cacheVersion
  cacheChecksum := b.cache.checksum
  capabilityVersion := b.capabilities.version
  currencyDigest := b.review.currencyDigest
  idempotencyKey := hash.json (.obj [("listing", .str b.listing.id),
    ("logical_operation", .str job.logicalOperationKey)])
  payloadHash := hash.json (operationPayload b.listing b.cache b.capabilities (targetsOf items))
  pricingOrigin := b.binding.map fun _ => .pricingMatrix
  expectedPricingAuthority := b.binding.map fun _ => .pricingMatrix
  pricingAuthorityEventId := b.binding.bind (·.pricingAuthorityEventId)
  pricingAuthorityHeadVersion := b.binding.bind (·.pricingAuthorityHeadVersion)

def writeIntent (db : Db) (job : ApplyJob) (listingId : Id) (items : List ReviewItem)
    (selectionChecksum : String) : Except Fault WorkspaceWriteIntent := do
  let basis ← intentBasis settings db job listingId items
  let numbers ← intentNumbers u basis.cache items
  pure (newIntent hash db job items selectionChecksum basis numbers)

/-- One intent a Listing, in the order of their ids. -/
def writeIntents (db : Db) (job : ApplyJob) (items : List ReviewItem)
    (selectionChecksum : String) : Except Fault (List WorkspaceWriteIntent) :=
  (groupedBy ReviewItem.listingId items).mapM fun (listingId, group) =>
    writeIntent u hash settings db job listingId group selectionChecksum

variable {u hash settings}

theorem intentBasis_listing (h : intentBasis settings db job listingId group = .ok basis) :
    basis.listing.id = listingId := by
  obtain ⟨⟨listing, cache, product⟩, hstate, h⟩ := bind_eq_ok.mp h
  obtain ⟨capabilities, -, h⟩ := bind_eq_ok.mp h
  obtain ⟨review, -, h⟩ := bind_eq_ok.mp h
  obtain ⟨binding, -, h⟩ := bind_eq_ok.mp h
  cases h
  have hstate := found_ok.mp hstate
  simp only [listingState, bind_eq_bind, bind_eq_some_iff, pure_def] at hstate
  obtain ⟨l, hlisting, c, -, p, -, heq⟩ := hstate
  cases heq
  exact (Table.get_some hlisting).2

theorem intentNumbers_ok : intentNumbers u cache items = .ok n ↔ currentPrice u cache = .ok n.currentPrice ∧
      readOptional u cache.stockQuantity = .ok n.currentStock ∧
      readOptional u (targetOf items .price) = .ok n.targetPrice ∧
      readOptional u (targetOf items .stock) = .ok n.targetStock := by
  simp only [intentNumbers, bind_eq_ok]
  constructor
  · rintro ⟨a, ha, b, hb, c, hc, d, hd, h⟩
    cases h
    exact ⟨ha, hb, hc, hd⟩
  · rintro ⟨ha, hb, hc, hd⟩
    exact ⟨_, ha, _, hb, _, hc, _, hd, rfl⟩

theorem writeIntent_listing
    (h : writeIntent u hash settings db job listingId group selectionChecksum = .ok intent) :
    intent.listingId = listingId := by
  obtain ⟨basis, hbasis, h⟩ := bind_eq_ok.mp h
  obtain ⟨n, -, h⟩ := bind_eq_ok.mp h
  cases h
  exact intentBasis_listing hbasis

end FlowHub.Workspace
