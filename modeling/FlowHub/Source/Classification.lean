import FlowHub.Source.Numbers
import FlowHub.Workspace.Values

/-! Targets of one Channel row. -/
namespace FlowHub.Source

open Python Workspace List

variable (u : Unicode)

def iso4217ZeroDecimalCurrencies : List String :=
  ["BIF", "CLP", "DJF", "GNF", "ISK", "JPY", "KMF", "KRW", "PYG", "RWF", "UGX", "UYI", "VND", "VUV", "XAF",
    "XOF", "XPF"]

def iso4217ThreeDecimalCurrencies : List String := ["BHD", "IQD", "JOD", "KWD", "LYD", "OMR", "TND"]

def defaultMonetaryPrecision (currency : Option String) : Int :=
  let code := upperText u currency
  if code ∈ iso4217ZeroDecimalCurrencies then 0
  else if code ∈ iso4217ThreeDecimalCurrencies then 3
  else 2

/-- `str(capability or cached or "").upper() or None`. -/
def declaredText (capability cached : Option String) : Option String :=
  some (u.upper (((capability.filter (· ≠ "")).or cached).getD "")) |>.filter (· ≠ "")

/-- The cells of the mapped fields of a Channel row. -/
structure ChannelCells where
  price : Option Cell := none
  stock : Option Cell := none
  status : Option Cell := none
  deriving DecidableEq

/-- `targets`. -/
structure ChannelTargets where
  price : Option String := none
  stock : Option String := none
  status : Option String := none
  deriving DecidableEq

structure Classification where
  targets : ChannelTargets
  fields : List (Field × NormalizedSourceField)
  desiredStockStatus : Option AvailabilitySignal
  blockers : List String
  warnings : List (Field × String)
  deriving DecidableEq

def currentCanonical (status : Option String) : Option AvailabilitySignal :=
  [("instock", AvailabilitySignal.inStock), ("outofstock", .outOfStock)].lookup
    (u.casefold (status.getD ""))

/-- The contract that the price of a row is read under. -/
def priceContract (fields : ChannelCells) (policy : ValuePolicy) (channel : WorkspaceChannel)
    (cache : ChannelCache) : PriceContract :=
  let capabilities := channel.capabilitiesJson
  let currency := declaredText u capabilities.currency cache.priceCurrency
  let unit := declaredText u capabilities.unit cache.priceUnit
  let isRialOrToman := decide (currency = some "IRR" ∧ unit ∈ [some "RIAL", some "TOMAN"])
  { currency, unit, monetaryPrecision := if isRialOrToman then some 0
      else some (capabilities.monetaryPrecision.getD (defaultMonetaryPrecision u currency)),
    fixZeroDecimalPrices := policy.fixZeroDecimalPrices.lookup channel.id,
    mapped := fields.price.isSome }

def classifyChannelTargets (fields : ChannelCells) (policy : ValuePolicy) (channel : WorkspaceChannel)
    (cache : ChannelCache) : Except Signal Classification := do
  let price ← normalizeDirectPrice u (fields.price.getD .null) (priceContract u fields policy channel cache)
  let quantity ← normalizeQuantity u (fields.stock.getD .null) fields.stock.isSome
  let stockStatus := normalizeStockStatus u (fields.status.getD .null) fields.status.isSome
  let normalized := [(Field.price, price), (.stock, quantity), (.status, stockStatus)]
  let (desired, blockers) := resolveAvailability (normalized.map (·.2))
  let warnings := normalized.filterMap fun (field, result) => result.warningCode.map (field, ·)
  if blockers ≠ [] then
    .ok { targets := {}, fields := normalized, desiredStockStatus := none, blockers, warnings }
  else
    let currentCanonical := currentCanonical u cache.status
    let targets : ChannelTargets := {
      price := if price.instruction = .set then price.target else none
      stock := if quantity.instruction = .set ∧
          ¬(desired = some .outOfStock ∧ quantity.target ≠ some "0") then quantity.target else none
      status := if currentCanonical ≠ none ∧ desired ≠ currentCanonical then
        desired.map AvailabilitySignal.value else none }
    .ok { targets, fields := normalized, desiredStockStatus := desired, blockers := [], warnings }

/-- What the tables make of the availability words. -/
structure StatusTables : Prop where
  blank : u.casefold "" = ""
  inStock : u.casefold (canonicalText u "IN_STOCK") = "in_stock"
  outOfStock : u.casefold (canonicalText u "OUT_OF_STOCK") = "out_of_stock"
  canonical : ∀ text, u.casefold text ∈ ["instock", "outofstock"] →
    u.casefold (canonicalText u text) = u.casefold text

/-- Targets that agree with their cells, with each other and with the cached status. -/
structure Consistent (fields : ChannelCells) (cached : Option String) (row : Classification) : Prop where
  blocked : (∃ field ∈ row.fields, field.2.blockerCode ≠ none) → row.targets = {}
  stock : ∀ target q, row.targets.stock = some target → Denotes .ascii target.toList q →
    (row.desiredStockStatus = some .outOfStock → ¬0 < q) ∧ (row.desiredStockStatus = some .inStock → q ≠ 0)
  price : ∀ target, row.targets.price = some target → ∃ raw q, fields.price = some raw ∧
    Denotes u (cellText u raw) q ∧ 0 < q
  status : ∀ status, cached = some status → u.casefold status ∈ ["instock", "outofstock"] →
    ∀ target, row.targets.status = some target ↔ ∃ signal, row.desiredStockStatus = some signal ∧
      target = signal.value ∧ valuesEqual u .status status signal.value = false
  unlisted : (∀ status, cached = some status → statusAlias u status = none) → row.targets.status = none

variable {u}

theorem signal_of_quantity (h : normalizeQuantity u raw mapped = .ok field) (hset : field.instruction = .set) :
    ∃ value text, QuantityTaken u raw value ∧ decimalText value = .ok text ∧ field.target = some text ∧
      field.availabilitySignal = some (if value.value = 0 then .outOfStock else .inStock) := by
  obtain ⟨rfl, value, taken, text, htext, htarget⟩ := normalizeQuantity_set.mp ⟨field, h, hset, rfl⟩
  refine ⟨value, text, taken, htext, htarget, ?_⟩
  obtain ⟨lexeme, hreads⟩ := taken.reads
  have hgood : ¬(decide (value.value < 0) || !value.whole) = true := by
    simp [taken.whole, taken.nonnegative]
  simp only [normalizeQuantity, Bool.not_true, Bool.false_eq_true, if_false, hreads, if_neg hgood,
    if_neg (filled_of_lexeme hreads), htext] at h
  rw [← Except.ok.inj h]

/-- A whole number that is not zero is not written as zero. -/
theorem zero_of_denotes {exponent : Int} (hwhole : (Decimal.finite false coefficient exponent).whole = true)
    (htext : decimalText (.finite false coefficient exponent) = .ok text)
    (hzero : Denotes .ascii text.toList 0) : (Decimal.finite false coefficient exponent).value = 0 := by
  by_contra hne
  rw [decimalText, if_pos hne] at htext
  obtain ⟨normal, hnormal, rfl⟩ := Txn.map_eq_ok.mp htext
  obtain ⟨rounded, hfix, hkept, m, j, rfl⟩ := Decimal.normalize_ok hnormal
  have hvalue := (denotes_fixed m j).unique ascii_digitTables hzero
  rw [hkept] at hvalue
  exact Decimal.fix_ne_zero (Decimal.int_of_whole hwhole) hne hfix hvalue

variable {fields : ChannelCells} {policy : ValuePolicy} {channel : WorkspaceChannel} {cache : ChannelCache}
  {row : Classification}

theorem resolveAvailability_cases (results : List NormalizedSourceField) :
    ((∃ result ∈ results, result.blockerCode ≠ none) ↔ (resolveAvailability results).2 ≠ []) ∧
      ((resolveAvailability results).2 = [] → (∃ result ∈ results, result.availabilitySignal = some .outOfStock) →
        (resolveAvailability results).1 = some .outOfStock) := by
  have hblockers : (∃ result ∈ results, result.blockerCode ≠ none) ↔
      results.filterMap (·.blockerCode) ≠ [] := by
    simp [filterMap_eq_nil_iff]
  unfold resolveAvailability
  by_cases hblocked : results.filterMap (·.blockerCode) = []
  · simp only [hblocked, ne_eq, not_true_eq_false, if_false] at hblockers ⊢
    constructor
    · rw [hblockers]
      split_ifs <;> simp
    · rintro - ⟨result, hresult, hsignal⟩
      rw [if_pos]
      rw [mem_map]
      exact ⟨result, hresult, hsignal⟩
  · rw [if_pos hblocked]
    exact ⟨hblockers, fun hnone => absurd hnone hblocked⟩

theorem currentCanonical_some (h : currentCanonical u status = some signal) :
    u.casefold (status.getD "") = "instock" ∧ signal = .inStock ∨
      u.casefold (status.getD "") = "outofstock" ∧ signal = .outOfStock := by
  unfold currentCanonical at h
  simp only [lookup_cons] at h
  split at h
  · rename_i heq
    exact .inl ⟨eq_of_beq heq, (Option.some.inj h).symm⟩
  · split at h
    · rename_i heq
      exact .inr ⟨eq_of_beq heq, (Option.some.inj h).symm⟩
    · cases h

theorem alias_of_signal (tables : StatusTables u) (signal : AvailabilitySignal) :
    statusAlias u signal.value = some (if signal = .inStock then "in_stock" else "out_of_stock") := by
  cases signal with
  | inStock =>
    rw [statusAlias, AvailabilitySignal.value, tables.inStock]
    rfl
  | outOfStock =>
    rw [statusAlias, AvailabilitySignal.value, tables.outOfStock]
    rfl

/-- A status that the row recognises is the one that `values_equal` takes it for. -/
theorem alias_of_current (tables : StatusTables u) (h : currentCanonical u (some status) = some signal) :
    statusAlias u status = statusAlias u signal.value := by
  rw [alias_of_signal tables]
  rcases currentCanonical_some h with ⟨hword, rfl⟩ | ⟨hword, rfl⟩
  · rw [Option.getD_some] at hword
    rw [statusAlias, tables.canonical status (by simp [hword]), hword]
    rfl
  · rw [Option.getD_some] at hword
    rw [statusAlias, tables.canonical status (by simp [hword]), hword]
    rfl

theorem currentCanonical_of_word (h : u.casefold status ∈ ["instock", "outofstock"]) :
    ∃ signal, currentCanonical u (some status) = some signal := by
  rw [currentCanonical, Option.getD_some]
  rcases mem_cons.mp h with h | h
  · exact ⟨.inStock, by rw [h]; rfl⟩
  · exact ⟨.outOfStock, by rw [mem_singleton.mp h]; rfl⟩

/-- What a row sets agrees with its cells, with itself and with a cached status that the row recognises. -/
theorem classify_consistent (digits : DigitTables u) (tables : StatusTables u)
    (h : classifyChannelTargets u fields policy channel cache = .ok row) :
    Consistent u fields cache.status row := by
  unfold classifyChannelTargets at h
  obtain ⟨price, hprice, h⟩ := Txn.bind_eq_ok.mp h
  obtain ⟨quantity, hquantity, h⟩ := Txn.bind_eq_ok.mp h
  have hcases := resolveAvailability_cases ([price, quantity,
    normalizeStockStatus u (fields.status.getD .null) fields.status.isSome])
  generalize normalizeStockStatus u (fields.status.getD .null) fields.status.isSome = stockStatus at h hcases
  generalize hresolved : resolveAvailability [price, quantity, stockStatus] = resolved at hcases
  obtain ⟨desired, blockers⟩ := resolved
  simp only [map_cons, map_nil, hresolved] at h
  by_cases hblockers : blockers = []
  · rw [if_neg (not_not.mpr hblockers)] at h
    cases h
    refine ⟨?_, ?_, ?_, ?_, ?_⟩
    · rintro ⟨field, hmem, hblocked⟩
      have hmem' : field.2 ∈ [price, quantity, stockStatus] := mem_map_of_mem hmem
      exact absurd hblockers (hcases.1.mp ⟨field.2, hmem', hblocked⟩)
    · intro target q htarget hdenotes
      dsimp only at htarget
      split at htarget
      · rename_i hgoverned
        obtain ⟨value, text, taken, htext, hfound, hsignal⟩ := signal_of_quantity hquantity hgoverned.1
        obtain rfl : target = text := Option.some.inj (htarget.symm.trans hfound)
        constructor
        · intro hdesired
          have hzero : quantity.target = some "0" := by
            by_contra hne
            exact hgoverned.2 ⟨hdesired, hne⟩
          obtain rfl : target = "0" := Option.some.inj (htarget.symm.trans hzero)
          have hnone : Denotes .ascii "0".toList (Decimal.finite false 0 0).value := denotes_fixed 0 0
          rw [hdenotes.unique ascii_digitTables hnone]
          simp [Decimal.value]
        · rintro hdesired rfl
          obtain ⟨lexeme, hreads⟩ := taken.reads
          obtain ⟨⟨c, e, rfl⟩, -⟩ := decimalFromLexeme_ok digits hreads
          rw [if_pos (zero_of_denotes taken.whole htext hdenotes)] at hsignal
          have hout : desired = some .outOfStock := hcases.2 hblockers ⟨quantity, by simp, hsignal⟩
          rw [hout] at hdesired
          cases hdesired
      · cases htarget
    · intro target htarget
      split at htarget
      · rename_i hset
        obtain ⟨value, taken, -⟩ := normalizeDirectPrice_set.mp ⟨price, hprice, hset, rfl⟩
        obtain ⟨raw, hraw⟩ := Option.isSome_iff_exists.mp taken.mapped
        obtain ⟨lexeme, precision, hreads, -⟩ := taken.takes
        rw [hraw] at hreads
        exact ⟨raw, _, hraw, (decimalFromLexeme_ok digits hreads).2, taken.positive⟩
      · cases htarget
    · intro status hcached hword target
      obtain ⟨current, hcurrent⟩ := currentCanonical_of_word hword
      have hsame : ∀ signal : AvailabilitySignal,
          valuesEqual u .status status signal.value = decide (current = signal) := by
        intro signal
        simp only [valuesEqual, alias_of_current tables hcurrent, alias_of_signal tables]
        cases current <;> cases signal <;> rfl
      simp only [hcached, hcurrent, hsame]
      cases desired with
      | none => simp
      | some signal => cases signal <;> cases current <;> simp [eq_comm]
    · intro hunlisted
      cases hcurrent : currentCanonical u cache.status with
      | none => simp
      | some current =>
        cases hcached : cache.status with
        | none =>
          rw [hcached] at hcurrent
          rcases currentCanonical_some hcurrent with ⟨hword, -⟩ | ⟨hword, -⟩
          · rw [Option.getD_none, tables.blank] at hword
            exact absurd hword (by decide)
          · rw [Option.getD_none, tables.blank] at hword
            exact absurd hword (by decide)
        | some status =>
          rw [hcached] at hcurrent
          have halias := alias_of_current tables hcurrent
          rw [hunlisted status hcached, alias_of_signal tables] at halias
          cases halias
  · rw [if_pos hblockers] at h
    cases h
    exact ⟨fun _ => rfl, by simp, by simp, by simp, by simp⟩

namespace Sample

theorem ascii_statusTables : StatusTables .ascii where
  blank := by decide
  inStock := by decide
  outOfStock := by decide
  canonical text h := by
    have hletters : ∀ word ∈ ["instock", "outofstock"], word.toList ≠ [] ∧
        ∀ c ∈ word.toList, 'a' ≤ c ∧ c ≤ 'z' := by simp
    have hword := hletters _ h
    have htext : (Unicode.ascii.casefold text).toList = text.toList.map Char.toLower := String.toList_ofList
    rw [htext] at hword
    rw [canonicalText_of_visible Unicode.ascii_asciiNormal]
    · intro hnil
      simp [hnil] at hword
    intro c hc
    have hlower := hword.2 c.toLower (mem_map_of_mem hc)
    have hrange : 97 ≤ c.toLower.toNat ∧ c.toLower.toNat ≤ 122 := by
      simpa [Char.le_def, UInt32.le_iff_toNat_le] using hlower
    by_cases hupper : 'A'.val ≤ c.val ∧ c.val ≤ 'Z'.val
    · have hcode : 65 ≤ c.toNat ∧ c.toNat ≤ 90 := by
        simpa [UInt32.le_iff_toNat_le] using hupper
      omega
    · have hsame : c.toLower = c := dif_neg hupper
      rw [hsame] at hrange
      omega

def euros : WorkspaceChannel where
  id := "woocommerce:primary"
  capabilitiesJson := { currency := some "EUR", unit := some "EUR" }

def cachedAs (status : String) : ChannelCache where
  listingId := "7"
  priceRaw := some "3"
  stockQuantity := some "5"
  status := some status
  cacheVersion := 1
  checksum := ""
  freshness := "fresh"
  fetchStatus := "success"
  fetchedAt := 0

/-- A positive quantity of a product that the Source takes off sale. -/
def offSale : ChannelCells where
  price := some (.text "12.50")
  stock := some (.text "5")
  status := some (.text "0")

end Sample

open Sample

theorem classify_consistent_off_sale :
    ∃ row, classifyChannelTargets .ascii offSale {} euros (cachedAs "instock") = .ok row ∧
      row.targets = { price := some "12.5", status := some "OUT_OF_STOCK" } ∧
      Consistent .ascii offSale (some "instock") row := by
  have hok : (classifyChannelTargets .ascii offSale {} euros (cachedAs "instock")).map
      (·.targets) = .ok { price := some "12.5", status := some "OUT_OF_STOCK" } := by decide +kernel
  obtain ⟨row, hrow, htargets⟩ := Txn.map_eq_ok.mp hok
  exact ⟨row, hrow, htargets, classify_consistent ascii_digitTables ascii_statusTables hrow⟩

/-- A cached status in another spelling or of another kind differs from the desired one, and no status
is set. -/
theorem cached_status_unrecognised :
    ["IN_STOCK", "onbackorder"].map (fun status =>
      (classifyChannelTargets .ascii offSale {} euros (cachedAs status)).map fun row =>
        (row.desiredStockStatus, row.targets.status,
          valuesEqual .ascii .status status AvailabilitySignal.outOfStock.value)) =
      [.ok (some .outOfStock, none, false), .ok (some .outOfStock, none, false)] := by
  decide +kernel

end FlowHub.Source
