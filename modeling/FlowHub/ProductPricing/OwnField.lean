import FlowHub.ProductPricing.Apply
import FlowHub.Txn.Proc

namespace FlowHub.ProductPricing

open Python Connectors Channels Txn List Except

/-- What `dry_run` leaves in an item of each field. -/
def Proposed (item : ProductPriceOperationItem) : Prop :=
  match item.field with
  | .status => item.proposedValue = none ∧ item.outboundValue = none ∧
      ∃ s ∈ statusValues, item.proposedStatusValue = some s
  | _ => ∃ x : FiniteDouble, x.val.den = 1 ∧ 0 ≤ x.val ∧
      item.proposedValue = some (.finite x) ∧ item.outboundValue = some (.finite x)

/-- What a state of a field that is to be changed holds. -/
def Ready (state : FieldState) : Field → Prop
  | .status => ∃ s ∈ statusValues, state.proposedValue = some (.text s)
  | _ => ∃ x : FiniteDouble, x.val.den = 1 ∧ 0 ≤ x.val ∧ state.proposedValue = some (.number (.finite x)) ∧
      state.outboundValue = some (.number (.finite x))

def AllReady (channels : List ChannelState) : Prop :=
  ∀ c ∈ channels, ∀ field, c.changed field = true → Ready (c.fields field) field

section

theorem when_nil : ProductPricing.when condition message = [] ↔ condition = false := by
  cases condition with
  | false => simp [ProductPricing.when]
  | true => simp [ProductPricing.when]

theorem whole_amount (hamount : notAmount value = false)
    (hwhole : fractional value = false) : ∃ x : FiniteDouble, x.val.den = 1 ∧ 0 ≤ x.val ∧
      value = .finite x := by
  cases value with
  | finite x =>
    simp only [fractional, isInteger, Bool.not_eq_false', decide_eq_true_eq] at hwhole
    simp only [notAmount, Float64.isFinite, Bool.not_true, Bool.false_or] at hamount
    have hlt : (Float64.finite x).lt .zero = decide (x.val < ((0 : ℕ) : ℚ)) := rfl
    rw [hlt, decide_eq_false_iff_not, not_lt, Nat.cast_zero] at hamount
    exact ⟨x, hwhole, hamount, rfl⟩
  | infinite negative => simp [notAmount, Float64.isFinite] at hamount
  | nan => simp [notAmount, Float64.isFinite] at hamount

theorem priceErrors_nil (h : priceErrors rt proposal value field = []) :
    notAmount value = false ∧ fractional value = false := by
  simp only [priceErrors, append_eq_nil_iff] at h
  by_cases hamount : notAmount value = true
  · simp [hamount] at h
  · rw [Bool.not_eq_true] at hamount
    simp only [hamount, Bool.false_eq_true, if_false] at h
    exact ⟨hamount, when_nil.mp h.1.1.1.1⟩

theorem stockErrors_nil (h : stockErrors value = []) :
    notAmount value = false ∧ fractional value = false := by
  have hor := when_nil.mp h
  rw [Bool.or_eq_false_iff] at hor
  exact hor

theorem outboundPrice_ok (h : outboundPrice channelId value = .ok outbound) : outbound = value := by
  unfold outboundPrice at h
  split_ifs at h
  all_goals exact (ok.inj h).symm

/-- A field that a proposal leaves valid is ready. -/
theorem applyFieldProposal_ready {after : FieldState} (h : applyFieldProposal rt proposal field = .ok after)
    (valid : after.validationState = .valid) : Ready after proposal.proposal.field := by
  obtain ⟨v, hverdict, hafter⟩ := map_eq_ok.mp h
  have herrors : v.errors = [] := by
    by_contra hne
    have hfalse : v.errors.isEmpty = false := by simpa using hne
    simp [← hafter, hfalse] at valid
  unfold verdict at hverdict
  cases hproposal : proposal.proposal with
  | price value =>
    simp only [hproposal] at hverdict
    obtain ⟨outbound, hsent, rfl⟩ := map_eq_ok.mp hverdict
    simp only at herrors hafter
    rw [herrors] at hsent
    have hsame := outboundPrice_ok hsent
    obtain ⟨hamount, hwhole⟩ := priceErrors_nil (append_eq_nil_iff.mp herrors).2
    obtain ⟨x, hden, hpos, hx⟩ := whole_amount hamount hwhole
    refine ⟨x, hden, hpos, ?_, ?_⟩
    · rw [← hafter, hx]
    · rw [← hafter, hsame, hx]
  | stock value =>
    simp only [hproposal, ok.injEq] at hverdict
    subst hverdict
    simp only at herrors hafter
    obtain ⟨hamount, hwhole⟩ := stockErrors_nil (append_eq_nil_iff.mp herrors).2
    obtain ⟨x, hden, hpos, hx⟩ := whole_amount hamount hwhole
    refine ⟨x, hden, hpos, ?_, ?_⟩
    · rw [← hafter, hx]
    · rw [← hafter, hx]
  | status value =>
    simp only [hproposal, ok.injEq] at hverdict
    subst hverdict
    simp only at herrors hafter
    have hmem := when_nil.mp (append_eq_nil_iff.mp herrors).2
    rw [decide_eq_false_iff_not, not_not] at hmem
    exact ⟨value, hmem, by rw [← hafter]⟩

/-- Before any proposal no field is to be changed. -/
theorem load_ready (h : load rt shop productId = .ok channels) : AllReady channels := by
  unfold load at h
  cases hrow : canonicalRow shop.cache productId with
  | none =>
    rw [hrow] at h
    cases h
  | some canonical =>
    rw [hrow, ok.injEq] at h
    intro c hc field hchanged
    rw [← h, mem_map] at hc
    obtain ⟨channel, -, rfl⟩ := hc
    cases field <;> simp [ChannelState.changed, channelState, fieldState, fieldBase] at hchanged

theorem validateProposal_ready {channels after : List ChannelState}
    (ready : AllReady channels) (h : validateProposal rt channels proposal = .ok after) :
    AllReady after := by
  unfold validateProposal at h
  split at h
  · cases h
  rename_i channel hfind
  split at h
  · cases h
  obtain ⟨field, hfield, hafter⟩ := bind_eq_ok.mp h
  have hafter := ok.inj hafter
  intro c hc f hchanged
  rw [← hafter, mem_map] at hc
  obtain ⟨old, hold, rfl⟩ := hc
  by_cases hchannel : old.channel = channel.channel
  · simp only [hchannel, if_true, ChannelState.changed, Bool.and_eq_true, decide_eq_true_eq] at hchanged ⊢
    by_cases hf : f = proposal.proposal.field
    · subst hf
      simp only [Function.update_self] at hchanged ⊢
      exact applyFieldProposal_ready hfield hchanged.2
    · simp only [Function.update_of_ne hf] at hchanged ⊢
      apply ready old hold f
      simp [ChannelState.changed, hchanged]
  · simp only [hchannel, if_false] at hchanged ⊢
    exact ready old hold f hchanged

theorem validateProposals_ready {after : List ChannelState}
    {proposals : List FieldProposal} (ready : AllReady channels)
    (h : validateProposals rt channels proposals = .ok after) : AllReady after := by
  unfold validateProposals at h
  induction proposals generalizing channels with
  | nil =>
    rw [foldlM_nil] at h
    exact ok.inj h ▸ ready
  | cons proposal rest ih =>
    rw [foldlM_cons] at h
    obtain ⟨next, hnext, h⟩ := bind_eq_ok.mp h
    exact ih (validateProposal_ready ready hnext) h

/-- Every item of a dry run proposes a whole amount, or one of the two statuses. -/
theorem dryRun_proposed (h : dryRun rt shop productId opened changes operationId firstId = .ok op)
    (mem : item ∈ op.items) : Proposed item := by
  simp only [dryRun, bind_eq_ok] at h
  obtain ⟨states, hload, proposals, -, h⟩ := h
  split at h
  · cases h
  obtain ⟨validated, hvalidated, h⟩ := bind_eq_ok.mp h
  split at h
  · cases h
  rw [← ok.inj h, mem_map] at mem
  obtain ⟨⟨⟨c, field⟩, i⟩, hmem, rfl⟩ := mem
  have hchanged := fst_mem_of_mem_zipIdx hmem
  simp only [flattenChangedFields, mem_flatMap, mem_map, mem_filter, Prod.mk.injEq] at hchanged
  obtain ⟨c', hc, f', ⟨-, hchanged⟩, rfl, rfl⟩ := hchanged
  have hready := validateProposals_ready (load_ready hload) hvalidated c' hc f' hchanged
  cases f' with
  | price | stock =>
    obtain ⟨x, hden, hpos, hproposed, houtbound⟩ := hready
    refine ⟨x, hden, hpos, ?_, ?_⟩
    · simp [newItem, hproposed, FieldValue.number?]
    · simp [newItem, houtbound, FieldValue.number?]
  | status =>
    obtain ⟨s, hs, hproposed⟩ := hready
    exact ⟨rfl, rfl, s, hs, by simp [newItem, hproposed, FieldValue.text?]⟩

end

/-- The item's number is a whole one. -/
def Targets (item : ProductPriceOperationItem) (n : ℤ) : Prop :=
  ∃ x : FiniteDouble, item.outboundValue = some (.finite x) ∧ x.val = n

/-- The column of the item's field shows its target. -/
def Shown (item : ProductPriceOperationItem) (row : DlProductCache) : Prop :=
  match item.field with
  | .price => ∃ n : ℤ, Targets item n ∧ row.regularPrice = some (toString n) ∧ row.price = some (toString n)
  | .stock => ∃ n : ℤ, Targets item n ∧ row.stockQty = some n
  | .status => ∃ s, item.proposedStatusValue = some s ∧ row.stockStatus = some s

/-- The columns of a field are those before. -/
def Kept (before after : DlProductCache) : Field → Prop
  | .price => after.regularPrice = before.regularPrice ∧ after.price = before.price ∧
      after.salePrice = before.salePrice ∧ after.lastPrice = before.lastPrice
  | .stock => after.stockQty = before.stockQty
  | .status => after.stockStatus = before.stockStatus

/-- A verified item returns, is recorded as applied, and has changed the column of its own field. -/
structure WritesOwnField (rt : Runtime) (env : Surroundings) (item : ProductPriceOperationItem)
    (row : Option DlProductCache) : Prop where
  returns : ∃ result after, executeProductPricingItem rt env item row = .ok (result, after)
  applied : (applyItem rt env item row).1 = .applied
  cached : ∃ before after, row = some before ∧ (applyItem rt env item row).2 = some after ∧
    Shown item after ∧ ∀ field, field ≠ item.field → Kept before after field

/-- The item is of a price and its row is cached. An item of a quantity changes nothing that matters
only where the row shows the quantity already, and shows it as its price too. -/
def Harmless (item : ProductPriceOperationItem) (row : Option DlProductCache) : Prop :=
  match item.field with
  | .price => row.isSome = true
  | .stock => ∃ before n, row = some before ∧ Targets item n ∧ before.stockQty = some n ∧
      before.regularPrice = some (toString n) ∧ before.price = some (toString n)
  | .status => False

def Verified (env : Surroundings) (item : ProductPriceOperationItem) : Prop :=
  ∃ result : WorkspaceWriteResult, env.answer item.id = .engine (.ok [result]) ∧
    result.outcome = .verifiedApplied

section

variable {rt : Runtime} {env : Surroundings} {item : ProductPriceOperationItem}
  {row : Option DlProductCache}

/-- What a verified item of a cached row comes to. -/
theorem execute_verified (rt : Runtime) (verified : Verified env item) (before : DlProductCache) :
    ∃ result : WorkspaceWriteResult, result.outcome = .verifiedApplied ∧
      executeProductPricingItem rt env item (some before) = (storedPrice item.proposedValue).map fun stored =>
          (result, some (before.patched rt stored (env.verifiedAt item.id))) := by
  obtain ⟨result, hanswer, houtcome⟩ := verified
  refine ⟨result, houtcome, ?_⟩
  simp only [executeProductPricingItem, hanswer, engineResult, houtcome, decide_true]
  cases storedPrice item.proposedValue with
  | ok stored => rfl
  | error e => rfl

theorem stored_whole (hden : x.val.den = 1) : storedPrice (some (.finite x)) = .ok (toString x.val.num) := by
  simp [storedPrice, hden]

/-- A number is written into the price columns, of whatever field it is. -/
theorem applyItem_number (verified : Verified env item) {x : FiniteDouble} (hden : x.val.den = 1)
    (hproposed : item.proposedValue = some (.finite x)) (before : DlProductCache) :
    applyItem rt env item (some before) =
      (.applied, some (before.patched rt (toString x.val.num) (env.verifiedAt item.id))) := by
  obtain ⟨result, houtcome, hexec⟩ := execute_verified rt verified before
  rw [hproposed, stored_whole hden] at hexec
  simp [applyItem, hexec, Except.map, houtcome, ItemStatus.ofOutcome]

theorem uncached (h : WritesOwnField rt env item none) : False := by
  obtain ⟨before, after, hrow, -⟩ := h.cached
  cases hrow

theorem whole_val {x : FiniteDouble} (hden : x.val.den = 1) : x.val = (x.val.num : ℚ) :=
  (Rat.den_eq_one_iff _).mp hden |>.symm

/-- The target of a whole number is unique. -/
theorem targets_iff (hden : x.val.den = 1) (houtbound : item.outboundValue = some (.finite x)) :
    Targets item n ↔ n = x.val.num := by
  constructor
  · intro h
    obtain ⟨y, hy, hval⟩ := h
    rw [houtbound, Option.some.injEq, Float64.finite.injEq] at hy
    rw [← hy, whole_val hden] at hval
    exact_mod_cast hval.symm
  · intro h
    exact ⟨x, houtbound, by rw [h]; exact whole_val hden⟩

theorem price_writes (hfield : item.field = .price) (proposed : Proposed item)
    (verified : Verified env item) (before : DlProductCache) :
    WritesOwnField rt env item (some before) := by
  simp only [Proposed, hfield] at proposed
  obtain ⟨x, hden, -, hproposed, houtbound⟩ := proposed
  have happly := @applyItem_number rt env item verified x hden hproposed before
  constructor
  case returns =>
    obtain ⟨result, -, hexec⟩ := execute_verified rt verified before
    rw [hproposed, stored_whole hden] at hexec
    exact ⟨result, _, hexec⟩
  case applied => rw [happly]
  case cached =>
    refine ⟨before, _, rfl, by rw [happly], ?_, ?_⟩
    · simp only [Shown, hfield]
      exact ⟨x.val.num, (targets_iff hden houtbound).mpr rfl, rfl, rfl⟩
    · intro field hne
      cases field with
      | price => exact absurd hfield.symm hne
      | stock => rfl
      | status => rfl

theorem stock_writes_iff (hfield : item.field = .stock) (proposed : Proposed item)
    (verified : Verified env item) (before : DlProductCache) :
    WritesOwnField rt env item (some before) ↔ Harmless item (some before) := by
  simp only [Proposed, hfield] at proposed
  obtain ⟨x, hden, -, hproposed, houtbound⟩ := proposed
  have happly := @applyItem_number rt env item verified x hden hproposed before
  simp only [Harmless, hfield]
  constructor
  · intro h
    obtain ⟨before', after, hrow, hafter, hshown, hkept⟩ := h.cached
    rw [Option.some.injEq] at hrow
    subst hrow
    rw [happly, Option.some.injEq] at hafter
    subst hafter
    simp only [Shown, hfield] at hshown
    obtain ⟨n, htarget, hqty⟩ := hshown
    have hn := (targets_iff hden houtbound).mp htarget
    obtain ⟨hregular, hprice, -⟩ := hkept .price (by simp [hfield])
    exact ⟨before, n, rfl, htarget, hqty, by rw [← hregular, hn]; rfl, by rw [← hprice, hn]; rfl⟩
  · rintro ⟨before', n, hrow, htarget, hqty, hregular, hprice⟩
    rw [Option.some.injEq] at hrow
    subst hrow
    have hn := (targets_iff hden houtbound).mp htarget
    constructor
    case returns =>
      obtain ⟨result, -, hexec⟩ := execute_verified rt verified before
      rw [hproposed, stored_whole hden] at hexec
      exact ⟨result, _, hexec⟩
    case applied => rw [happly]
    case cached =>
      refine ⟨before, _, rfl, by rw [happly], ?_, ?_⟩
      · simp only [Shown, hfield]
        exact ⟨n, htarget, hqty⟩
      · intro field hne
        cases field with
        | price => exact ⟨by rw [hregular, hn]; rfl, by rw [hprice, hn]; rfl, rfl, rfl⟩
        | stock => exact absurd hfield.symm hne
        | status => rfl

/-- A verified item of a status raises on a cached row. -/
theorem status_raises (hfield : item.field = .status) (proposed : Proposed item)
    (verified : Verified env item) (before : DlProductCache) :
    ¬ WritesOwnField rt env item (some before) := by
  intro h
  simp only [Proposed, hfield] at proposed
  obtain ⟨result, after, hreturns⟩ := h.returns
  obtain ⟨result', -, hexec⟩ := execute_verified rt verified before
  rw [proposed.1, hreturns] at hexec
  cases hexec

end

/-- A verified item of a dry run writes its own field and no other exactly where it is harmless. -/
theorem editor_own_field {rt : Runtime} {env : Surroundings} {shop : Shop} {productId opened : String}
    {changes : List Json} {operationId : Id} {firstId : Nat} {op : ProductPriceOperation}
    {item : ProductPriceOperationItem} {row : Option DlProductCache}
    (dry : dryRun rt shop productId opened changes operationId firstId = .ok op)
    (mem : item ∈ op.items) (verified : Verified env item) :
    WritesOwnField rt env item row ↔ Harmless item row := by
  have proposed := dryRun_proposed dry mem
  cases row with
  | none =>
    constructor
    · intro h
      exact (uncached h).elim
    · intro h
      cases hfield : item.field <;> simp [Harmless, hfield] at h
  | some before =>
    cases hfield : item.field with
    | price =>
      constructor
      · intro _
        simp [Harmless, hfield]
      · intro _
        exact price_writes hfield proposed verified before
    | stock => exact stock_writes_iff hfield proposed verified before
    | status =>
      constructor
      · intro h
        exact (status_raises hfield proposed verified before h).elim
      · intro h
        simp [Harmless, hfield] at h

namespace Sample

def rt : Runtime where
  unicode := .ascii
  printable _ := true
  hash := ⟨id, fun _ => "payload"⟩
  timeText t := toString t
  currency := "EUR"

/-- A product of the shop, without a price or a quantity yet. -/
def row : DlProductCache where
  connectorId := "woocommerce:primary"
  productId := "7"
  sku := some "SKU"
  price := none
  lastPrice := none
  regularPrice := none
  salePrice := none
  stockQty := none
  stockStatus := some "instock"
  freshness := "fresh"
  lastSuccessfulRead := none
  recordHash := none

def shop : Shop := ⟨[row], fun _ => some ⟨true, false⟩⟩

def twenty : Float64 := .ofNat 20 (by norm_num)

def five : Float64 := .ofNat 5 (by norm_num)

def change (field : String) (value : Json) : Json :=
  .obj [("channelId", .str "woocommerce:primary"), ("field", .str field), ("proposedValue", value),
    ("staleToken", .str (staleToken rt (some row)))]

def changes : List Json :=
  [change "price" (.float twenty), change "stock" (.float five), change "status" (.str "outofstock")]

def opened : String := version rt (directory.map (channelState rt shop row))

def item (id : Nat) (field : Field) (value : Option Float64) (status : Option String)
    (currency unit : String) : ProductPriceOperationItem where
  id := id
  operationId := "mcp"
  channelId := "woocommerce:primary"
  channelProductId := "7"
  sku := "SKU"
  field := field
  currentValue := none
  proposedValue := value
  currentStatusValue := if field = .status then some "instock" else none
  proposedStatusValue := status
  currency := currency
  unit := unit
  outboundValue := value
  outboundUnit := unit
  staleToken := staleToken rt (some row)

def priceItem : ProductPriceOperationItem := item 1 .price (some twenty) none "EUR" "EUR"
def stockItem : ProductPriceOperationItem := item 2 .stock (some five) none "" "units"
def statusItem : ProductPriceOperationItem := item 3 .status none (some "outofstock") "" ""

def op : ProductPriceOperation := ⟨"mcp", "7", .dryRunReady, [priceItem, stockItem, statusItem]⟩

theorem dry : dryRun rt shop "7" opened changes "mcp" 1 = .ok op := by decide +kernel

/-- Every write is verified. -/
def env : Surroundings where
  actor := "owner"
  verifiedAt _ := 0
  listing _ := none
  authority _ := ("event", 0)
  answer _ := .engine (.ok [{ listingId := "woocommerce:primary:7", outcome := .verifiedApplied }])

theorem verified (item : ProductPriceOperationItem) : Verified env item :=
  ⟨{ listingId := "woocommerce:primary:7", outcome := .verifiedApplied }, rfl, rfl⟩

end Sample

open Sample

/-- The edit of the price is harmless. -/
theorem editor_own_field_price : WritesOwnField rt env priceItem (some Sample.row) ↔
      Harmless priceItem (some Sample.row) :=
  editor_own_field dry (by simp [op]) (Sample.verified _)

/-- The quantity of the second item becomes the price of the cached row, and the third item, applied
by the provider, is recorded as failed. -/
theorem editor_other_fields : dryRun rt shop "7" Sample.opened changes "mcp" 1 = .ok op ∧
      Verified env stockItem ∧ Verified env statusItem ∧
      ¬ WritesOwnField rt env stockItem (some Sample.row) ∧
      ¬ WritesOwnField rt env statusItem (some Sample.row) ∧
      ((applyItem rt env stockItem (some Sample.row)).2.bind (·.price) = some "5") ∧
      (applyItem rt env statusItem (some Sample.row)).1 = .failed := by
  have hstock : stockItem ∈ op.items := by simp [op]
  have hstatus : statusItem ∈ op.items := by simp [op]
  refine ⟨dry, Sample.verified _, Sample.verified _, ?_, ?_, by decide +kernel, rfl⟩
  · intro h
    have hharmless := (stock_writes_iff rfl (dryRun_proposed dry hstock) (Sample.verified _)
      Sample.row).mp h
    obtain ⟨before, n, hrow, -, hqty, -⟩ := hharmless
    rw [← Option.some.inj hrow] at hqty
    cases hqty
  · exact status_raises rfl (dryRun_proposed dry hstatus) (Sample.verified _) Sample.row

end FlowHub.ProductPricing
