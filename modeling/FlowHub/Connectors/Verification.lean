import FlowHub.Connectors.Atomicity

namespace FlowHub.Connectors

open Python Channels Txn Option

variable (u : Unicode)

/-- The spellings that the connectors compare units by. -/
structure CaseLaws : Prop where
  lower_toman : u.lower "toman" = "toman"
  upper_rial : u.upper "RIAL" = "RIAL"

def Identifies (update : WorkspaceWriteIntent) (record : CurrentStateRecord) : Connector → Prop
  | .wooCommerce => record.provider = "woocommerce" ∧ record.externalId = update.externalPrimaryId ∧
      record.parentExternalId = (if update.productType = "variation" then update.parentExternalId else none) ∧
      (record.productType = none ∨ record.productType = some update.productType)
  | .snappShop => record.provider = "snappshop" ∧ record.externalId = update.externalPrimaryId ∧
      record.parentExternalId = update.parentExternalId
  | .technolife => record.provider = "technolife" ∧ record.externalId = update.externalPrimaryId ∧
      record.parentExternalId = update.parentExternalId
  | .tapsiShop => False

/-- The price of the record is in the channel's own unit. -/
def OwnUnit (record : CurrentStateRecord) : Connector → Prop
  | .snappShop => record.currency = some "IRR" ∧ u.lower (record.unit.getD "") = "toman"
  | .technolife => record.currency = some "IRR" ∧ u.upper (record.unit.getD "") = "RIAL"
  | _ => True

/-- A status as the channel spells it. -/
def channelStatus (status : String) : Connector → Option String
  | .wooCommerce => wooStockStatus u status
  | _ => some status

/-- A field of the record equals the value that a write of the intent carries for it. -/
def Shows (connector : Connector) (update : WorkspaceWriteIntent) (record : CurrentStateRecord) : Field → Prop
  | .price => OwnUnit u record connector ∧ ∃ x q, priceSent update = some x ∧
      canonicalDecimal u x = some q ∧ record.price = some q
  | .stock => ∃ x y, stockSent update = some x ∧ record.stock = some y ∧ y.eq x = true
  | .status => ∃ t s, update.targetStatus = some t ∧ channelStatus u t connector = some s ∧
      record.status = some s

/-- Price and stock of SnappShop are written whole. Elsewhere a write governs what it targets. -/
def Governs (connector : Connector) (update : WorkspaceWriteIntent) (field : Field) : Prop :=
  targeted update field = true ∨ connector = .snappShop ∧ field ≠ .status

/-- What a verified write should mean. -/
def Holds (connector : Connector) (update : WorkspaceWriteIntent) (record : CurrentStateRecord) : Prop :=
  Identifies update record connector ∧
    ∀ field, Governs connector update field → Shows u connector update record field

/-- The decimal of a price exists: the price is finite. -/
def Legible (price : Option Float64) : Prop := ∃ x q, price = some x ∧ canonicalDecimal u x = some q

/-- The match compares what the intent governs, all of it and nothing else. A stock that is not a
number equals nothing, in the match as in the record. -/
def Comparable (update : WorkspaceWriteIntent) : Connector → Prop
  | .wooCommerce => update.targetStock = some .nan ∨
      (update.targetPrice ≠ none → Legible u update.targetPrice) ∧
        ∀ t, update.targetStatus = some t → wooStockStatus u t ≠ none
  | .snappShop => stockSent update = some .nan ∨
      Legible u (priceSent update) ∧ stockSent update ≠ none ∧ update.targetStatus = none
  | .technolife => (stockSent update = some .nan ∧ (update.targetStock = some .nan ∨
        update.targetPrice ≠ none ∧ ¬Legible u update.targetPrice)) ∨
      Legible u update.targetPrice ∧ update.targetStock ≠ none ∧ update.targetStatus = none
  | .tapsiShop => True

variable {u} {connector : Connector} {update : WorkspaceWriteIntent} {record : CurrentStateRecord}

theorem mem_governedFields (some_targeted : ∃ field, targeted update field = true)
    (field : Field) : field ∈ governedFields [update] ↔ targeted update field = true := by
  have hmem (f : Field) : f ∈ [Field.price, .stock, .status].filter
      (fun field => [update].any (targeted · field)) ↔ targeted update f = true := by
    rw [List.mem_filter]
    cases f <;> simp
  unfold governedFields
  dsimp only
  split
  · rename_i hempty
    obtain ⟨f, hf⟩ := some_targeted
    rw [List.isEmpty_iff.mp hempty] at hmem
    exact absurd ((hmem f).mpr hf) List.not_mem_nil
  · exact hmem field

theorem sameStock_some : sameStock a (some x) = true ↔ ∃ y, a = some y ∧ y.eq x = true := by
  cases a with
  | none => simp [sameStock]
  | some y => simp [sameStock]

theorem eq_nan (y : Float64) : y.eq .nan = false := by
  cases y <;> simp [Float64.eq]

theorem eq_self {x : Float64} (h : x ≠ .nan) : x.eq x = true := by
  simp [Float64.eq, h]

theorem not_sameStock_nan (a : Option Float64) : sameStock a (some .nan) = false := by
  cases a with
  | none => rfl
  | some y => exact eq_nan y

theorem sameStock_self {a : Option Float64} (h : a ≠ some .nan) : sameStock a a = true := by
  cases a with
  | none => rfl
  | some x => exact eq_self fun hx => h (congrArg some hx)

theorem priceSent_targeted (h : update.targetPrice ≠ none) : priceSent update = update.targetPrice := by
  cases htarget : update.targetPrice with
  | none => exact absurd htarget h
  | some x => rw [priceSent, htarget, some_or]

theorem stockSent_targeted (h : update.targetStock ≠ none) : stockSent update = update.targetStock := by
  cases htarget : update.targetStock with
  | none => exact absurd htarget h
  | some x => rw [stockSent, htarget, some_or]

/-- Where a price has a decimal, comparing the two optional decimals compares the prices. -/
theorem price_compared (h : Legible u price) : record.price = price.bind (canonicalDecimal u) ↔
      ∃ x q, price = some x ∧ canonicalDecimal u x = some q ∧ record.price = some q := by
  obtain ⟨x, q, rfl, hq⟩ := h
  rw [bind_some, hq]
  constructor
  · intro hprice
    exact ⟨x, q, rfl, hq, hprice⟩
  · rintro ⟨y, r, hy, hr, hprice⟩
    cases hy
    rw [hprice, ← hr, hq]

theorem stock_compared (h : stock ≠ none) : sameStock record.stock stock = true ↔
      ∃ x y, stock = some x ∧ record.stock = some y ∧ y.eq x = true := by
  cases stock with
  | none => exact absurd rfl h
  | some x =>
    rw [sameStock_some]
    constructor
    · rintro ⟨y, hy, heq⟩
      exact ⟨x, y, rfl, hy, heq⟩
    · rintro ⟨x', y, hx, hy, heq⟩
      cases hx
      exact ⟨y, hy, heq⟩

theorem wooCommerceMatches_iff (some_targeted : ∃ field, targeted update field = true) :
    wooCommerceMatches u update record = true ↔ Identifies update record .wooCommerce ∧
      (update.targetPrice ≠ none → record.price = update.targetPrice.bind (canonicalDecimal u)) ∧
      (update.targetStock ≠ none → sameStock record.stock update.targetStock = true) ∧
      (update.targetStatus ≠ none → record.status = update.targetStatus.bind (wooStockStatus u)) := by
  have hfields (field : Field) := mem_governedFields some_targeted field
  have hor (p q : Prop) [Decidable p] : ¬p ∨ q ↔ (p → q) := Decidable.imp_iff_not_or.symm
  simp only [wooCommerceMatches, Identifies, hfields, Bool.and_eq_true, Bool.or_eq_true,
    decide_eq_true_eq, isNone_iff_eq_none, and_assoc, hor, targeted,
    isSome_iff_ne_none]

theorem snappShopMatches_iff : snappShopMatches u update record = true ↔
    Identifies update record .snappShop ∧ OwnUnit u record .snappShop ∧
      record.price = (priceSent update).bind (canonicalDecimal u) ∧
      sameStock record.stock (stockSent update) = true := by
  simp only [snappShopMatches, combinedMatches, Identifies, OwnUnit, Bool.and_eq_true, decide_eq_true_eq]
  tauto

theorem technolifeMatches_iff : technolifeMatches u update record = true ↔
    Identifies update record .technolife ∧ OwnUnit u record .technolife ∧
      record.price = (priceSent update).bind (canonicalDecimal u) ∧
      sameStock record.stock (stockSent update) = true := by
  simp only [technolifeMatches, combinedMatches, Identifies, OwnUnit, Bool.and_eq_true, decide_eq_true_eq]
  tauto

theorem forall_field {P : Field → Prop} : (∀ field, P field) ↔ P .price ∧ P .stock ∧ P .status := by
  constructor
  · intro h
    exact ⟨h _, h _, h _⟩
  · rintro ⟨hprice, hstock, hstatus⟩ field
    cases field <;> assumption

/-- What it takes to hold on a channel that writes its fields apart. -/
theorem holds_apart (hconnector : connector ≠ .snappShop) : Holds u connector update record ↔
    Identifies update record connector ∧
      (update.targetPrice ≠ none → Shows u connector update record .price) ∧
      (update.targetStock ≠ none → Shows u connector update record .stock) ∧
      (update.targetStatus ≠ none → Shows u connector update record .status) := by
  simp [Holds, forall_field, Governs, targeted, isSome_iff_ne_none, hconnector, false_and, or_false]

theorem holds_snappShop : Holds u .snappShop update record ↔
    Identifies update record .snappShop ∧ Shows u .snappShop update record .price ∧
      Shows u .snappShop update record .stock ∧
      (update.targetStatus ≠ none → Shows u .snappShop update record .status) := by
  simp [Holds, forall_field, Governs, targeted, isSome_iff_ne_none]

theorem wooCommerce_exact (some_targeted : ∃ field, targeted update field = true)
    (h : Comparable u update .wooCommerce) :
    wooCommerceMatches u update record = true ↔ Holds u .wooCommerce update record := by
  rw [wooCommerceMatches_iff some_targeted, holds_apart (by decide)]
  rcases h with hnan | ⟨hprice, hstatus⟩
  · have hne : update.targetStock ≠ none := by
      rw [hnan]
      exact some_ne_none _
    constructor
    · rintro ⟨-, -, hstock, -⟩
      have := hstock hne
      rw [hnan, not_sameStock_nan] at this
      cases this
    · rintro ⟨-, -, hstock, -⟩
      obtain ⟨x, y, hx, -, heq⟩ := hstock hne
      rw [stockSent_targeted hne, hnan] at hx
      cases hx
      rw [eq_nan] at heq
      cases heq
  · refine and_congr_right fun _ => and_congr ?_ (and_congr ?_ ?_)
    · refine imp_congr_right fun hne => ?_
      simp only [Shows, OwnUnit, true_and, priceSent_targeted hne]
      exact price_compared (hprice hne)
    · refine imp_congr_right fun hne => ?_
      simp only [Shows, stockSent_targeted hne]
      exact stock_compared hne
    · refine imp_congr_right fun hne => ?_
      obtain ⟨t, ht⟩ := ne_none_iff_exists'.mp hne
      obtain ⟨s, hs⟩ := ne_none_iff_exists'.mp (hstatus t ht)
      simp [Shows, channelStatus, ht, hs]

theorem snappShop_exact (h : Comparable u update .snappShop) :
    snappShopMatches u update record = true ↔ Holds u .snappShop update record := by
  rw [snappShopMatches_iff, holds_snappShop]
  rcases h with hnan | ⟨hprice, hstock, hstatus⟩
  · constructor
    · rintro ⟨-, -, -, hstock⟩
      rw [hnan, not_sameStock_nan] at hstock
      cases hstock
    · rintro ⟨-, -, ⟨x, y, hx, -, heq⟩, -⟩
      rw [hnan] at hx
      cases hx
      rw [eq_nan] at heq
      cases heq
  · simp only [Shows, ← price_compared hprice, ← stock_compared hstock, hstatus]
    tauto

theorem technolife_exact (h : Comparable u update .technolife) :
    technolifeMatches u update record = true ↔ Holds u .technolife update record := by
  rw [technolifeMatches_iff, holds_apart (by decide)]
  rcases h with ⟨hnan, hnever⟩ | ⟨hprice, hstock, hstatus⟩
  · constructor
    · rintro ⟨-, -, -, hstock⟩
      rw [hnan, not_sameStock_nan] at hstock
      cases hstock
    · rintro ⟨-, hprice, hstock, -⟩
      rcases hnever with htarget | ⟨hne, hillegible⟩
      · obtain ⟨x, y, hx, -, heq⟩ := hstock (by simp [htarget])
        rw [hnan] at hx
        cases hx
        rw [eq_nan] at heq
        cases heq
      · obtain ⟨-, x, q, hx, hq, -⟩ := hprice hne
        rw [priceSent_targeted hne] at hx
        exact absurd ⟨x, q, hx, hq⟩ hillegible
  · have hne : update.targetPrice ≠ none := by
      obtain ⟨x, q, hx, -⟩ := hprice
      simp [hx]
    simp only [Shows, priceSent_targeted hne, stockSent_targeted hstock,
      ← price_compared hprice, ← stock_compared hstock, hstatus]
    tauto

/-- A record of the intent's product that reads as the match expects. -/
def expectedRecord (u : Unicode) (update : WorkspaceWriteIntent) (connector : Connector) :
    CurrentStateRecord where
  provider := match connector with
    | .wooCommerce => "woocommerce"
    | .snappShop => "snappshop"
    | .technolife => "technolife"
    | .tapsiShop => ""
  externalId := update.externalPrimaryId
  parentExternalId :=
    if connector = .wooCommerce ∧ update.productType ≠ "variation" then none
    else update.parentExternalId
  price := (priceSent update).bind (canonicalDecimal u)
  stock := stockSent update
  status := update.targetStatus.bind fun t => channelStatus u t connector
  currency := some "IRR"
  unit := some (if connector = .snappShop then "toman" else "RIAL")

theorem expectedRecord_identifies (u : Unicode) (update : WorkspaceWriteIntent)
    (hreads : connector ≠ .tapsiShop) :
    Identifies update (expectedRecord u update connector) connector := by
  cases connector with
  | tapsiShop => exact absurd rfl hreads
  | wooCommerce =>
    refine ⟨rfl, rfl, ?_, .inl rfl⟩
    by_cases hvariation : update.productType = "variation" <;>
      simp [expectedRecord, hvariation]
  | snappShop | technolife => exact ⟨rfl, rfl, rfl⟩

theorem expectedRecord_unit (laws : CaseLaws u) (update : WorkspaceWriteIntent) (connector : Connector) :
    OwnUnit u (expectedRecord u update connector) connector := by
  cases connector with
  | wooCommerce | tapsiShop => trivial
  | snappShop => exact ⟨rfl, laws.lower_toman⟩
  | technolife => exact ⟨rfl, laws.upper_rial⟩

theorem wooCommerce_comparable (some_targeted : ∃ field, targeted update field = true)
    (h : ∀ record, wooCommerceMatches u update record = true ↔
      Holds u .wooCommerce update record) : Comparable u update .wooCommerce := by
  by_cases hnan : update.targetStock = some .nan
  · exact .inl hnan
  right
  have hmatch : wooCommerceMatches u update (expectedRecord u update .wooCommerce) = true := by
    rw [wooCommerceMatches_iff some_targeted]
    refine ⟨expectedRecord_identifies u update (by decide), fun hne => ?_, fun hne => ?_, fun _ => rfl⟩
    · rw [← priceSent_targeted hne]
      rfl
    · rw [expectedRecord, stockSent_targeted hne]
      exact sameStock_self hnan
  rw [h, holds_apart (by decide)] at hmatch
  obtain ⟨-, hprice, -, hstatus⟩ := hmatch
  constructor
  · intro hne
    obtain ⟨-, x, q, hx, hq, -⟩ := hprice hne
    rw [priceSent_targeted hne] at hx
    exact ⟨x, q, hx, hq⟩
  · intro t ht hunknown
    obtain ⟨t', s, ht', hs, -⟩ := hstatus (by simp [ht])
    obtain rfl := some.inj (ht.symm.trans ht')
    rw [channelStatus, hunknown] at hs
    cases hs

/-- A status target is never looked at by a match of price and stock. -/
theorem status_ignored {matched : CurrentStateRecord → Bool}
    (h : ∀ record, matched record = true ↔ Holds u connector update record)
    (hmatch : ∀ status, matched { expectedRecord u update connector with status } = true) :
    update.targetStatus = none := by
  by_contra hne
  have hholds := (h _).mp (hmatch none)
  obtain ⟨t, s, -, -, hs⟩ := hholds.2 .status (.inl (isSome_iff_ne_none.mpr hne))
  cases hs

theorem snappShop_comparable (laws : CaseLaws u)
    (h : ∀ record, snappShopMatches u update record = true ↔ Holds u .snappShop update record) :
    Comparable u update .snappShop := by
  by_cases hnan : stockSent update = some .nan
  · exact .inl hnan
  right
  have hidentifies : Identifies update (expectedRecord u update .snappShop) .snappShop :=
    expectedRecord_identifies u update (by decide)
  have hunit := expectedRecord_unit laws update .snappShop
  have hmatch (status : Option String) :
      snappShopMatches u update { expectedRecord u update .snappShop with status } = true :=
    snappShopMatches_iff.mpr ⟨hidentifies, hunit, rfl, sameStock_self hnan⟩
  have hholds := (h _).mp (hmatch none)
  rw [holds_snappShop] at hholds
  obtain ⟨-, ⟨-, x, q, hx, hq, -⟩, ⟨y, -, hy, -, -⟩, -⟩ := hholds
  refine ⟨⟨x, q, hx, hq⟩, ?_, status_ignored h hmatch⟩
  rw [hy]
  exact some_ne_none y

/-- Some other stock than the given one. -/
def otherStock : Option Float64 → Option Float64
  | none => some .nan
  | some _ => none

theorem otherStock_differs (stock : Option Float64) : sameStock (otherStock stock) stock = false := by
  cases stock <;> rfl

theorem technolife_comparable (laws : CaseLaws u)
    (h : ∀ record, technolifeMatches u update record = true ↔
      Holds u .technolife update record) : Comparable u update .technolife := by
  have hidentifies : Identifies update (expectedRecord u update .technolife) .technolife :=
    expectedRecord_identifies u update (by decide)
  have hunit := expectedRecord_unit laws update .technolife
  by_cases hnan : stockSent update = some .nan
  · -- The match is never true, and so the record must never hold either.
    left
    refine ⟨hnan, ?_⟩
    by_contra hnever
    rw [not_or, not_and_not_right] at hnever
    have huntargeted : update.targetStock = none := by
      by_contra hne
      rw [← stockSent_targeted hne] at hnever
      exact hnever.1 hnan
    have hholds : Holds u .technolife update (expectedRecord u update .technolife) := by
      rw [holds_apart (by decide)]
      refine ⟨hidentifies, fun hne => ?_, fun hne => absurd huntargeted hne, fun hne => ?_⟩
      · obtain ⟨x, q, hx, hq⟩ := hnever.2 hne
        rw [← priceSent_targeted hne] at hx
        exact ⟨hunit, x, q, hx, hq, by simp [expectedRecord, hx, hq]⟩
      · obtain ⟨t, ht⟩ := ne_none_iff_exists'.mp hne
        exact ⟨t, t, ht, rfl, by simp [expectedRecord, ht, channelStatus]⟩
    have hmatch := technolifeMatches_iff.mp ((h _).mpr hholds)
    rw [hnan, not_sameStock_nan] at hmatch
    cases hmatch.2.2.2
  · right
    have hmatch (status : Option String) :
        technolifeMatches u update { expectedRecord u update .technolife with status } = true :=
      technolifeMatches_iff.mpr ⟨hidentifies, hunit, rfl, sameStock_self hnan⟩
    have hstatus := status_ignored h hmatch
    have hholds := (holds_apart (by decide)).mp ((h _).mp (hmatch none))
    have hprice : update.targetPrice ≠ none := by
      -- Another currency changes the match, and nothing that the intent targets.
      intro huntargeted
      have hother : Holds u .technolife update
          { expectedRecord u update .technolife with status := none, currency := none } :=
        (holds_apart (by decide)).mpr ⟨hidentifies, fun hne => absurd huntargeted hne,
          hholds.2.2.1, fun hne => absurd hstatus hne⟩
      have hcurrency := (technolifeMatches_iff.mp ((h _).mpr hother)).2.1.1
      cases hcurrency
    have hstock : update.targetStock ≠ none := by
      intro huntargeted
      have hother : Holds u .technolife update { expectedRecord u update .technolife with
          status := none, stock := otherStock (stockSent update) } :=
        (holds_apart (by decide)).mpr ⟨hidentifies, hholds.2.1,
          fun hne => absurd huntargeted hne, fun hne => absurd hstatus hne⟩
      have hsame := (technolifeMatches_iff.mp ((h _).mpr hother)).2.2.2
      rw [otherStock_differs] at hsame
      cases hsame
    obtain ⟨-, x, q, hx, hq, -⟩ := hholds.2.1 hprice
    rw [priceSent_targeted hprice] at hx
    exact ⟨⟨x, q, hx, hq⟩, hstock, hstatus⟩

end FlowHub.Connectors
