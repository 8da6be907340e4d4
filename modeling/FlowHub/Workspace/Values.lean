import FlowHub.Python.Collections
import FlowHub.Python.Text
import FlowHub.Store

namespace FlowHub.Workspace

open Python Txn

def unprocessable (code : String) : Fault := .httpException 422 code

def conflict (code : String) : Fault := .httpException 409 code

def notFound (code : String) : Fault := .httpException 404 code

/-- `row is None` raises. -/
def found {α : Type} (fault : Fault) : Option α → Except Fault α
  | some a => .ok a
  | none => .error fault

/-- `if condition: raise fault`. -/
def refuse (condition : Bool) (fault : Fault) : Except Fault Unit :=
  if condition then .error fault else .ok ()

theorem found_error : found fault o = .error e ↔ o = none ∧ fault = e := by
  cases o <;> simp [found]

theorem refuse_error : refuse condition fault = .error e ↔ condition = true ∧ fault = e := by
  cases condition <;> simp [refuse]

@[simp] theorem found_ok : found fault o = .ok a ↔ o = some a := by
  cases o <;> simp [found]

@[simp] theorem refuse_ok : refuse condition fault = .ok x ↔ condition = false := by
  cases condition <;> simp [refuse]

/-- `connectors.get(channel_id).capabilities()` for every Channel, and the
`workspace.channel_cache_max_age_minutes` setting where it is a number. -/
structure Settings where
  capabilities : Id → Option ChannelCapabilities
  cacheMaxAgeMinutes : Option Int := none

/-- `_cache_max_age_minutes`. -/
def Settings.maxAgeMinutes (settings : Settings) : Nat :=
  (min (max (settings.cacheMaxAgeMinutes.getD 60) 1) 10080).toNat

/-- `_capabilities`. -/
def Settings.capabilitiesOf (settings : Settings) (channelId : Id) : Except Fault ChannelCapabilities :=
  found (.workspaceDomainError
      ("Channel " ++ channelId ++ " is Coming Soon and cannot participate in Workspace Apply."))
    (settings.capabilities channelId)

def allPermissions : List String :=
  ["workspace.read", "workspace.create", "workspace.edit", "draft.save", "review.generate",
    "apply.execute", "channel_cache.refresh", "mapping.approve", "audit.read", "workspace.admin"]

def rolePermissions (role : String) : List String :=
  if role ∈ ["owner", "super_admin", "admin"] then allPermissions
  else if role = "operator" then
    ["workspace.read", "workspace.create", "workspace.edit", "draft.save", "review.generate",
      "apply.execute", "audit.read"]
  else if role = "viewer" then ["workspace.read", "audit.read"]
  else []

def hasPermission (user : FlowHubUser) (permission : String) : Bool :=
  decide (permission ∈ rolePermissions user.role)

/-- `_workspace_for_user(..., edit=True)`. -/
def editableWorkspace (db : Db) (workspaceId : Id) (user : FlowHubUser) : Except Fault UnifiedWorkspace := do
  let workspace ← found (notFound "WORKSPACE_NOT_FOUND")
    (Table.get UnifiedWorkspace.id db.workspaces workspaceId)
  refuse (workspace.ownerUserId != user.id && !hasPermission user "workspace.admin")
    (.httpException 403 "WORKSPACE_ACCESS_DENIED")
  refuse (!hasPermission user "workspace.edit") (.httpException 403 "WORKSPACE_PERMISSION_DENIED")
  pure workspace

theorem editableWorkspace_ok (h : editableWorkspace db workspaceId user = .ok workspace) :
    Table.get UnifiedWorkspace.id db.workspaces workspaceId = some workspace ∧
      workspace.id = workspaceId := by
  obtain ⟨row, hrow, h⟩ := bind_eq_ok.mp h
  obtain ⟨_, -, h⟩ := bind_eq_ok.mp h
  obtain ⟨_, -, h⟩ := bind_eq_ok.mp h
  cases h
  have hget := found_ok.mp hrow
  exact ⟨hget, (Table.get_some hget).2⟩

def snapshotOf (db : Db) (workspaceId : Id) : Option WorkspaceSnapshot :=
  Table.get WorkspaceSnapshot.workspaceId db.snapshots workspaceId

def draftOf (db : Db) (workspaceId : Id) : Option Draft :=
  Table.get Draft.workspaceId db.drafts workspaceId

def reviewOf (db : Db) (reviewId : Id) : Option Review := Table.get Review.id db.reviews reviewId

def listingOf (db : Db) (listingId : Id) : Option Listing :=
  Table.get Listing.id db.listings listingId

def cacheOf (db : Db) (listingId : Id) : Option ChannelCache :=
  Table.get ChannelCache.listingId db.channelCache listingId

def productOf (db : Db) (productId : Id) : Option CanonicalProduct :=
  Table.get CanonicalProduct.id db.products productId

def channelOf (db : Db) (channelId : Id) : Option WorkspaceChannel :=
  Table.get WorkspaceChannel.id db.channels channelId

/-- `_workspace_channel_available`. -/
def channelAvailable (channel : Option WorkspaceChannel) : Bool :=
  match channel with
  | some c => c.enabled && c.implementationState == "implemented"
  | none => false

/-- `ReviewRepository.selections`. -/
def selectionsOf (db : Db) (reviewId : Id) : List ReviewSelection :=
  db.reviewSelections.filter fun s => decide (s.reviewId = reviewId)

def itemsOfReview (db : Db) (reviewId : Id) : List ReviewItem :=
  db.reviewItems.filter fun i => decide (i.reviewId = reviewId)

def reviewItemsIn (db : Db) (reviewId : Id) (ids : List Id) : List ReviewItem :=
  (itemsOfReview db reviewId).filter fun i => decide (i.id ∈ ids)

/-- `external_primary_id` of the parent product's Listing on the same Channel. -/
def parentExternalId (db : Db) (product : CanonicalProduct) (channelId : Id) : Option String :=
  match product.parentId with
  | none | some "" => none
  | some parentId =>
    (db.listings.find? fun l =>
      decide (l.canonicalProductId = parentId) && decide (l.channelId = channelId)).map
        (·.externalPrimaryId)

/-- `validate_product_editable`. -/
def productEditable (productType : String) : Bool :=
  productType == "simple" || productType == "variation"

def currentValue (cache : ChannelCache) : Field → Option String
  | .price => cache.priceRaw
  | .stock => cache.stockQuantity
  | .status => cache.status

variable (u : Unicode)

/-- The number a business value denotes. -/
def number (value : String) : Option Numeral := decimal u (withoutCommas (canonicalText u value))

def sameNumber : Option Numeral → Option Numeral → Bool
  | some (.finite x), some (.finite y) => decide (x = y)
  | _, _ => false

def canonicalStatus : List (String × String) :=
  [("instock", "in_stock"), ("outofstock", "out_of_stock"), ("in_stock", "in_stock"),
    ("out_of_stock", "out_of_stock")]

/-- `canonical_status.get(...)`: None for a status the table does not list. -/
def statusAlias (status : String) : Option String :=
  canonicalStatus.lookup (u.casefold (canonicalText u status))

/-- `values_equal`, of values as `str` writes them. -/
def valuesEqual (field : Field) (current target : String) : Bool :=
  match field with
  | .price | .stock => sameNumber (number u current) (number u target)
  | .status => decide (statusAlias u current = statusAlias u target)

/-- `canonical_text(capabilities.currency)` and unit, upper case, as `Money` keeps them. -/
def money (target : String) (capabilities : ChannelCapabilities) : Except Fault (String × String) := do
  let currency := u.upper (canonicalText u capabilities.currency)
  let unit := u.upper (canonicalText u capabilities.unit)
  refuse (currency == "" || unit == "")
    (.workspaceDomainError "Currency and unit must be explicit.")
  refuse (currency == "TMN" || currency == "TOMAN")
    (.workspaceDomainError "Toman is a unit, not an ISO currency code.")
  match number u target with
  | none => .error (.workspaceDomainError "Money amount and conversion factor must be numeric.")
  | some (.finite _) => pure (currency, unit)
  | some _ => .error (.workspaceDomainError
      "Money values must be finite and conversion factor must be positive.")

/-- A price change names the Channel's own currency and unit. -/
def currencyMatches (currency unit : Option String) (capabilities : ChannelCapabilities) : Bool :=
  decide (currency = some capabilities.currency) &&
    u.upper (unit.getD "None") == u.upper capabilities.unit

example : valuesEqual .ascii .price "1,250.50" "1250.5" = true := by decide +kernel

end FlowHub.Workspace

namespace FlowHub.Workspace

open Python Option

variable (u : Unicode)

/-- The status a text stands for: its alias, or itself where it has none. -/
def statusOf (status : String) : String :=
  (statusAlias u status).getD (u.casefold (canonicalText u status))

/-- Two texts are the same business value of a field. -/
def SameValue (field : Field) (a b : String) : Prop :=
  match field with
  | .price | .stock => ∃ q, number u a = some (.finite q) ∧ number u b = some (.finite q)
  | .status => statusOf u a = statusOf u b

/-- Two different statuses, neither of which has an alias. -/
def BothUnlisted (a b : String) : Prop :=
  statusAlias u a = none ∧ statusAlias u b = none ∧ statusOf u a ≠ statusOf u b

theorem statusAlias_values (h : statusAlias u status = some canonical) :
    canonical = "in_stock" ∨ canonical = "out_of_stock" := by
  simp only [statusAlias, canonicalStatus, List.lookup_cons] at h
  split at h
  · exact .inl (some.inj h).symm
  split at h
  · exact .inr (some.inj h).symm
  split at h
  · exact .inl (some.inj h).symm
  · split at h
    · exact .inr (some.inj h).symm
    · cases h

/-- A text without an alias is no alias itself. -/
theorem statusOf_unlisted (h : statusAlias u status = none)
    (hc : canonical = "in_stock" ∨ canonical = "out_of_stock") : statusOf u status ≠ canonical := by
  intro heq
  rw [statusOf, h, getD_none] at heq
  rw [statusAlias, heq] at h
  rcases hc with rfl | rfl
  · cases h
  · cases h

theorem statusOf_eq_iff (a b : String) :
    statusOf u a = statusOf u b ↔ statusAlias u a = statusAlias u b ∧ ¬BothUnlisted u a b := by
  cases ha : statusAlias u a with
  | none =>
    cases hb : statusAlias u b with
    | none => simp [BothUnlisted, ha, hb]
    | some y =>
      have hne := statusOf_unlisted u ha (statusAlias_values u hb)
      have hy : statusOf u b = y := by rw [statusOf, hb, getD_some]
      simp [hy, hne]
  | some x =>
    have hx : statusOf u a = x := by rw [statusOf, ha, getD_some]
    cases hb : statusAlias u b with
    | none =>
      have hne := statusOf_unlisted u hb (statusAlias_values u ha)
      simp [hx, Ne.symm hne]
    | some y =>
      have hy : statusOf u b = y := by rw [statusOf, hb, getD_some]
      simp [hx, hy, BothUnlisted, ha]

/-- `values_equal` takes two unlisted statuses for one. -/
theorem BothUnlisted.equal (h : BothUnlisted u a b) : valuesEqual u .status a b = true := by
  simp [valuesEqual, h.1, h.2.1, decide_true]

theorem sameNumber_iff (a b : Option Numeral) :
    sameNumber a b = true ↔ ∃ q, a = some (.finite q) ∧ b = some (.finite q) := by
  constructor
  · intro h
    unfold sameNumber at h
    split at h
    · rename_i x y
      obtain rfl := of_decide_eq_true h
      exact ⟨x, rfl, rfl⟩
    · cases h
  · rintro ⟨q, rfl, rfl⟩
    simp [sameNumber]

/-- `values_equal` is sameness of business values, but for pairs of unlisted statuses. -/
theorem sameValue_iff (field : Field) (a b : String) : SameValue u field a b ↔
      valuesEqual u field a b = true ∧ ¬(field = .status ∧ BothUnlisted u a b) := by
  cases field with
  | price | stock => simp [SameValue, valuesEqual, sameNumber_iff]
  | status => simp [SameValue, valuesEqual, statusOf_eq_iff]

end FlowHub.Workspace
