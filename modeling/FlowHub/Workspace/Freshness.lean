import FlowHub.Workspace.Pricing

namespace FlowHub.Workspace

open Python

def validationVersion : String := "uw-validation-1"

def currencyRulesetVersion : String := "uw-currency-1"

def MappingState.name : MappingState → String
  | .resolved => "resolved"
  | .unresolved => "unresolved"
  | .conflict => "conflict"

def mappingRow (listing : Listing) : Json :=
  .obj [("channel", .str listing.channelId), ("enabled", .bool listing.enabled),
    ("listing", .str listing.id), ("state", .str (MappingState.name listing.mappingState)),
    ("version", .int listing.mappingVersion)]

/-- `capabilities.version if capabilities else "unavailable"`. -/
def versionOf (capabilities : Option ChannelCapabilities) : String :=
  (capabilities.map (·.version)).getD "unavailable"

def capabilityRow (channelId : Id) (channel : Option WorkspaceChannel)
    (capabilities : Option ChannelCapabilities) : Json :=
  .obj [("channel", .str channelId), ("enabled", .bool ((channel.map (·.enabled)).getD false)),
    ("implementation_state", .str ((channel.map (·.implementationState)).getD "missing")),
    ("version", .str (versionOf capabilities))]

/-- A Channel's currency and unit, as the currency digest has them. -/
structure ChannelCurrency where
  channelId : Id
  (currency unit : String)

def channelCurrency (channelId : Id) (capabilities : Option ChannelCapabilities) : ChannelCurrency where
  channelId := channelId
  currency := (capabilities.map (·.currency)).getD ""
  unit := (capabilities.map (·.unit)).getD ""

def ChannelCurrency.row (c : ChannelCurrency) : Json :=
  .obj [("channel", .str c.channelId), ("currency", .str c.currency), ("unit", .str c.unit)]

def ChannelCurrency.reference (c : ChannelCurrency) : String :=
  c.channelId ++ ":" ++ c.currency ++ ":" ++ c.unit

/-- Keep the first of the items with one key. -/
def firstByKey {α : Type} (key : α → String) : List α → List α
  | [] => []
  | a :: rest => a :: (firstByKey key rest).filter fun b => key b != key a

/-- `_unique_dicts`: one of each rendering, in the order of the renderings. -/
def uniqueDicts {α : Type} (row : α → Json) (items : List α) : List α :=
  sortedBy (fun a => [(row a).render]) (firstByKey (fun a => (row a).render) items)

variable (u : Unicode) (hash : Hashing) (settings : Settings)

def digest {α : Type} (row : α → Json) (items : List α) : String :=
  hash.json (.arr ((uniqueDicts row items).map row))

def channelReferences (currencies : List ChannelCurrency) : List String :=
  ((uniqueDicts ChannelCurrency.row currencies).map ChannelCurrency.reference).insertionSort
    (· ≤ ·)

/-- The three documents of mapping, capability and currency evidence. -/
structure Payloads where
  mapping : List Listing := []
  capability : List (Id × Option WorkspaceChannel × Option ChannelCapabilities) := []
  currency : List ChannelCurrency := []

def Payloads.mappingDigest (p : Payloads) : String := digest hash mappingRow p.mapping

def Payloads.capabilityDigest (p : Payloads) : String :=
  digest hash (fun (c, channel, capabilities) => capabilityRow c channel capabilities)
    p.capability

def Payloads.currencyDigest (p : Payloads) : String := digest hash ChannelCurrency.row p.currency

/-- The newest enabled Currency Profile of a scope. -/
def latestProfile (db : Db) (profile : CurrencyProfile) : Option CurrencyProfile :=
  Table.latest CurrencyProfile.version (db.currencyProfiles.filter fun p =>
    decide (p.scope = profile.scope) && decide (p.scopeReference = profile.scopeReference) &&
      p.enabled)

def sourceReference (profile : CurrencyProfile) : String :=
  profile.scope ++ ":" ++ profile.scopeReference

def currencyProfileCurrent (db : Db) (review : Review) : Bool :=
  match Table.get CurrencyProfile.id db.currencyProfiles review.currencyProfileId with
  | none => false
  | some profile =>
    match latestProfile db profile with
    | none => false
    | some latest =>
      latest.id == review.currencyProfileId &&
        profile.version == review.currencyProfileVersion &&
        profile.checksum == review.currencyProfileChecksum &&
        review.currencySourceReference == sourceReference profile &&
        review.currencyRulesetVersion == currencyRulesetVersion

/-- `ReviewRepository.cache_versions`. -/
def capturedOf (db : Db) (reviewId : Id) : List ReviewCacheVersion :=
  db.reviewCacheVersions.filter fun c => decide (c.reviewId = reviewId)

/-- The reasons one captured Listing is stale. -/
def capturedReasons (now : Time) (db : Db) (captured : ReviewCacheVersion) : List String :=
  let capabilities := settings.capabilities captured.channelId
  let cacheReasons := match cacheOf db captured.listingId with
    | none => ["cache:" ++ captured.listingId]
    | some cache =>
      if cache.cacheVersion ≠ captured.cacheVersion ∨ cache.checksum ≠ captured.cacheChecksum then
        ["cache:" ++ captured.listingId]
      else if cache.fetchedAt + minutes settings.maxAgeMinutes < now then
        ["cache_age:" ++ captured.listingId]
      else []
  let mappingCurrent : Bool := match listingOf db captured.listingId with
    | none => false
    | some listing =>
      listing.channelId == captured.channelId &&
        listing.mappingVersion == captured.mappingVersion &&
        listing.mappingState == .resolved && listing.enabled
  cacheReasons ++ (if mappingCurrent then [] else ["mapping:" ++ captured.listingId]) ++
    (if channelAvailable (channelOf db captured.channelId) && capabilities.isSome then []
      else ["channel:" ++ captured.channelId]) ++
    (if versionOf capabilities = captured.capabilityVersion then []
      else ["capability:" ++ captured.channelId])

/-- The documents over the captured Listings. -/
def capturedPayloads (db : Db) (captured : List ReviewCacheVersion) : Payloads where
  mapping := captured.filterMap fun c => listingOf db c.listingId
  capability := captured.map fun c =>
    (c.channelId, channelOf db c.channelId, settings.capabilities c.channelId)
  currency := captured.map fun c => channelCurrency c.channelId (settings.capabilities c.channelId)

def configurationReasons (review : Review) (p : Payloads) : List String :=
  (if p.mappingDigest hash = review.mappingDigest ∧ p.capabilityDigest hash = review.capabilityDigest ∧
      p.currencyDigest hash = review.currencyDigest then [] else ["configuration_digest"]) ++
    (if channelReferences p.currency = review.currencyChannelReferences.insertionSort (· ≤ ·) then []
      else ["currency_channel_override"])

/-- `_pricing_channel_ids_for_review`, before it is sorted. -/
def pricingChannels (db : Db) (reviewId : Id) : List Id :=
  ((itemsOfReview db reviewId).filter fun i => decide (i.field = .price)).map (·.channelId)

variable (events : Id → Id)

/-- `_pricing_binding_issues_for_review`. -/
def pricingBindingIssues (review : Review) (db : Db) : Db × List (Id × String) :=
  verifyWorkspaceChannels events review.workspaceId (pricingChannels db review.id) db

/-- Everything `_assert_review_fresh` finds out of date. -/
def staleReasons (now : Time) (review : Review) (db : Db) : Db × List String :=
  let captured := capturedOf db review.id
  let (after, issues) := pricingBindingIssues events review db
  (after, (if review.rulesetVersion = validationVersion then [] else ["validation_ruleset"]) ++
      (if currencyProfileCurrent db review then [] else ["currency_profile"]) ++
      captured.flatMap (capturedReasons settings now db) ++
      configurationReasons hash review (capturedPayloads settings db captured) ++
      issues.map fun (channelId, issue) => "pricing:" ++ channelId ++ ":" ++ issue)

def updateReview (db : Db) (reviewId : Id) (f : Review → Review) : Db :=
  { db with reviews := Table.set Review.id db.reviews reviewId f }

def markStale (now : Time) (reason : String) (review : Review) : Review :=
  { review with status := .stale, invalidatedAt := some now, staleReason := some reason }

/-- `_assert_review_fresh`: a Review that is not fresh is marked so, and that is
committed before the exception. -/
def assertReviewFresh (now : Time) (review : Review) (db : Db) : Db × Except Fault Unit :=
  let (db, reasons) := staleReasons hash settings events now review db
  if reasons = [] then (db, .ok ())
  else (updateReview db review.id (markStale now (";".intercalate (sortedSet reasons))),
    .error (conflict "STALE_REVIEW"))

/-- A fresh Review passes and nothing but authority heads changes; one that is not
is marked stale. -/
theorem assertReviewFresh_cases {events : Id → Id}
    (h : assertReviewFresh hash settings events now review db = (db', outcome)) :
    (outcome = .ok () ∧ Seeds db db' ∧ (staleReasons hash settings events now review db).2 = []) ∨
      (outcome = .error (conflict "STALE_REVIEW") ∧ ∃ seeded reason, Seeds db seeded ∧
        db' = updateReview seeded review.id (markStale now reason)) := by
  have hseeds : Seeds db (staleReasons hash settings events now review db).1 :=
    verifyChannels_seeds events review.workspaceId _ db
  unfold assertReviewFresh at h
  dsimp only at h
  split at h
  · rename_i hfresh
    cases h
    exact .inl ⟨rfl, hseeds, hfresh⟩
  · cases h
    exact .inr ⟨rfl, _, _, hseeds, rfl⟩

def assertSourceEvidenceCurrent (workspace : UnifiedWorkspace) (snapshot : WorkspaceSnapshot)
    (db : Db) : Except Fault Unit := do
  if workspace.entryPoint ≠ .source then return ()
  let text := fun value : Option String => canonicalText u (value.getD "")
  let sourceId := text snapshot.sourceMetadata.sourceId
  let mappingId := text snapshot.sourceMetadata.mappingRevisionId
  let mappingChecksum := text snapshot.sourceMetadata.mappingChecksum
  let sheetRevisionId := text snapshot.sourceMetadata.sheetRevisionId
  let sheetRevisionChecksum := text snapshot.sourceMetadata.sheetRevisionChecksum
  let unverifiable := conflict "SOURCE_STATE_UNVERIFIABLE"
  let binding ← found unverifiable
    (Table.get WorkspaceSourceBinding.workspaceId db.sourceBindings workspace.id)
  let source ← found unverifiable (Table.get SourceProfile.id db.sourceProfiles sourceId)
  let sourceVersion ← found unverifiable snapshot.sourceMetadata.sourceVersion
  refuse (sourceId == "" || mappingId == "" || mappingChecksum == "" || sheetRevisionId == "" ||
    sheetRevisionChecksum == "") unverifiable
  refuse (source.version != binding.sourceVersion || source.version != sourceVersion)
    (conflict "SOURCE_CHANGED")
  let mapping ← found (conflict "SOURCE_MAPPING_CHANGED")
    (Table.get SourceMappingRevision.id db.sourceMappings mappingId)
  refuse (mapping.sourceId != source.id || mapping.checksum != mappingChecksum)
    (conflict "SOURCE_MAPPING_CHANGED")
  let revision ← found unverifiable (Table.get SheetRevision.id db.sheetRevisions sheetRevisionId)
  let sheet ← found unverifiable (Table.get FlowHubSheet.id db.sheets revision.sheetId)
  refuse (sheet.sourceId != source.id) unverifiable
  refuse (revision.checksum != sheetRevisionChecksum || sheet.currentVersion != revision.version)
    (conflict "SOURCE_CHANGED")

end FlowHub.Workspace
