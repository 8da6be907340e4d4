import FlowHub.Domain
import FlowHub.Python.Coercion
import FlowHub.Python.IsoFormat
import FlowHub.Table

namespace FlowHub.ReadEngine

open Python List Option

inductive Freshness where
  | fresh | stale | error

/-- The columns `_shape_product` fills. -/
structure ProductColumns where
  (sku name : Json)
  externalId : Option Int
  productType : Json
  parentId : Option String
  status : Json
  (price regularPrice salePrice : Option String)
  stockQty : Option Int
  stockStatus : Json
  manageStock : Option Bool
  backordersAllowed : Bool
  (categories images : List Json)
  lastSuccessfulRead : Option Time
  lastModified : Json
  providerObservedAt : Option Time
  exists_ : Bool

structure DlProductCache where
  connectorId : Id
  productId : String
  columns : ProductColumns
  freshness : Freshness
  lastFetchedAt : Option Time

/-- `uq_dl_product`. -/
def DlProductCache.key (row : DlProductCache) : Id × String := (row.connectorId, row.productId)

abbrev Cache := List DlProductCache

def Cache.row (cache : Cache) (connectorId : Id) (productId : String) : Option DlProductCache :=
  Table.get DlProductCache.key cache (connectorId, productId)

/-- A write of the row of a product, where it is cached. -/
def Cache.update (cache : Cache) (connectorId : Id) (productId : String)
    (f : DlProductCache → DlProductCache) : Cache :=
  Table.set DlProductCache.key cache (connectorId, productId) f

/-- `value in (None, "")`. -/
def isEmpty : Json → Bool
  | .null | .str "" => true
  | _ => false

section

variable (u : Unicode) (printable : Char → Bool)

def stripped (text : String) : String := String.ofList (strip u text.toList)

def productId (item : Json) : String :=
  stripped u (str printable (firstTrue [item.get "product_id", item.get "id", .str ""]))

/-- `_parse_modified`; none where the value has no `replace`. -/
def parseModified (value : Json) : Option (Option Time) :=
  if !truthy value then some none
  else match value with
    | .str text =>
      some ((Iso.fromIsoFormat (Iso.zuluAsOffset text)).map fun t => t.wall.toNat)
    | _ => none

def intOrNone (value : Json) : Option Int :=
  match value with
  | .bool _ => none
  | value => if isEmpty value then none else intText u (str printable value)

def strOrNone : Json → Option String
  | .null => none
  | value => some (str printable value)

def textOrNone (value : Json) : Option String :=
  if isEmpty value then none else some (str printable value)

def boolOrNone (value : Json) : Option Bool :=
  match value with
  | .null => none
  | .bool b => some b
  | value =>
    let normalized := u.lower (stripped u (str printable value))
    if normalized ∈ ["true", "1", "yes"] then some true
    else if normalized ∈ ["false", "0", "no"] then some false
    else none

def getOr (item : Json) (key : String) (default : Json) : Json :=
  match item with
  | .obj fields => ((fields.find? fun f => decide (f.1 = key)).map Prod.snd).getD default
  | _ => default

def listOr : Json → List Json
  | .arr items => items
  | _ => []

/-- `_shape_product`; none where it raises. -/
def shapeProduct (now : Time) (item : Json) : Option ProductColumns := do
  let price := getOr item "last_price" (item.get "price")
  let price :=
    if isEmpty price then firstTrue [item.get "sale_price", item.get "regular_price"] else price
  let lastModified :=
    firstTrue [item.get "last_modified", item.get "date_modified_gmt", item.get "updated_at"]
  let providerObservedAt ← parseModified lastModified
  some {
    sku := item.get "sku"
    name := item.get "name"
    externalId := intOrNone u printable (getOr item "external_id" (item.get "id"))
    productType := firstTrue [item.get "product_type", item.get "type"]
    parentId := textOrNone printable (item.get "parent_id")
    status := item.get "status"
    price := strOrNone printable price
    regularPrice := textOrNone printable (item.get "regular_price")
    salePrice := textOrNone printable (item.get "sale_price")
    stockQty := intOrNone u printable (getOr item "stock_quantity" (item.get "stock_qty"))
    stockStatus := item.get "stock_status"
    manageStock := boolOrNone u printable (item.get "manage_stock")
    backordersAllowed := decide (u.lower (str printable
      (firstTrue [item.get "backorders", .str ""])) ∈ ["yes", "notify", "true", "1"])
    categories := listOr (item.get "categories")
    images := listOr (item.get "media")
    lastSuccessfulRead := some now
    lastModified
    providerObservedAt
    exists_ := truthy (getOr item "exists" (.bool true)) }

end

/-- A row as it is written. -/
def written (connectorId : Id) (productId : String) (columns : ProductColumns) (now : Time) :
    DlProductCache where
  connectorId := connectorId
  productId := productId
  columns := columns
  freshness := .fresh
  lastFetchedAt := some now

/-- A stored row with every column but its key as a row that is written has it. -/
def DlProductCache.overwrite (row stored : DlProductCache) : DlProductCache :=
  { row with connectorId := stored.connectorId, productId := stored.productId }

/-- Insert a row, or overwrite it. -/
def put (row : DlProductCache) (cache : Cache) : Cache :=
  match cache.row row.connectorId row.productId with
  | some _ => cache.update row.connectorId row.productId row.overwrite
  | none => cache ++ [row]

/-- The listings an Apply job owns, by channel and external id. -/
abbrev Owned := List (Id × String)

/-- `upsert`; none where the listing guard is held. -/
def upsert (owned : Owned) (connectorId : Id) (productId : String) (columns : ProductColumns)
    (now : Time) (cache : Cache) : Option Cache :=
  if (connectorId, productId) ∈ owned then none
  else some (put (written connectorId productId columns now) cache)

/-- `_bulk_upsert_postgresql` for one row: its `WHERE` is not true where a time is null. -/
def upsertPostgresql (cache : Cache) (row : DlProductCache) : Cache :=
  match cache.row row.connectorId row.productId with
  | none => cache ++ [row]
  | some stored =>
    match stored.columns.providerObservedAt, row.columns.providerObservedAt with
    | none, _ => cache.update row.connectorId row.productId row.overwrite
    | some observed, some incoming =>
      if observed ≤ incoming then cache.update row.connectorId row.productId row.overwrite else cache
    | some _, none => cache

/-- `_bulk_upsert_fallback` for one row. -/
def upsertFallback (cache : Cache) (row : DlProductCache) : Cache :=
  match cache.row row.connectorId row.productId with
  | none => cache ++ [row]
  | some existing =>
    match existing.columns.providerObservedAt with
    | none => cache.update row.connectorId row.productId row.overwrite
    | some observed =>
      if row.columns.providerObservedAt.all fun incoming => decide (incoming < observed) then cache
      else cache.update row.connectorId row.productId row.overwrite

inductive Dialect where
  | postgresql | other

/-- `bulk_upsert`, with the number of rows it has offered. A row whose listing is owned is left
out. -/
def bulkUpsert (dialect : Dialect) (owned : Owned) (connectorId : Id)
    (items : List (String × ProductColumns)) (now : Time) (cache : Cache) : Cache × Nat :=
  let rows := (items.filter fun item => decide ((connectorId, item.1) ∉ owned)).map fun item =>
    written connectorId item.1 item.2 now
  let write := match dialect with
    | .postgresql => upsertPostgresql
    | .other => upsertFallback
  (rows.foldl write cache, rows.length)

def DlProductCache.gone (now : Time) (row : DlProductCache) : DlProductCache :=
  { row with
    columns := { row.columns with exists_ := false }
    freshness := .stale
    lastFetchedAt := some now }

def markNotFound (owned : Owned) (connectorId : Id) (productId : String) (now : Time)
    (cache : Cache) : Option Cache :=
  if (connectorId, productId) ∈ owned then none
  else some (cache.update connectorId productId (·.gone now))

/-- The rows the sweep of a full read takes for missing. -/
def DlProductCache.unseen (connectorId : Id) (startedAt : Time) (row : DlProductCache) : Bool :=
  decide (row.connectorId = connectorId) && row.lastFetchedAt.all fun t => decide (t < startedAt)

def sweep (connectorId : Id) (startedAt : Time) (cache : Cache) : Cache :=
  cache.map fun row =>
    if row.unseen connectorId startedAt then
      { row with columns := { row.columns with exists_ := false }, freshness := .stale }
    else row

/-- A newer observation is stored already, or the row has none to be compared by. -/
def fenced (stored : Option DlProductCache) (row : DlProductCache) : Bool :=
  stored.any fun stored => stored.columns.providerObservedAt.any fun observed =>
    row.columns.providerObservedAt.all fun incoming => decide (incoming < observed)

section

variable {cache : Cache} {connectorId : Id} {productId : String}

theorem upsertFallback_eq (cache : Cache) (row : DlProductCache) : upsertFallback cache row =
    if fenced (cache.row row.connectorId row.productId) row then cache else put row cache := by
  unfold upsertFallback put fenced
  cases cache.row row.connectorId row.productId with
  | none => simp
  | some stored =>
    cases hobserved : stored.columns.providerObservedAt with
    | none => simp [hobserved]
    | some observed => simp [hobserved]

/-- The dialects skip the same rows. -/
theorem upsertPostgresql_eq (cache : Cache) (row : DlProductCache) :
    upsertPostgresql cache row = upsertFallback cache row := by
  unfold upsertPostgresql upsertFallback
  cases cache.row row.connectorId row.productId with
  | none => rfl
  | some stored =>
    cases hobserved : stored.columns.providerObservedAt with
    | none => simp [hobserved]
    | some observed =>
      cases hincoming : row.columns.providerObservedAt with
      | none => simp [hobserved]
      | some incoming =>
        by_cases hle : observed ≤ incoming
        · simp [hobserved, hle, Nat.not_lt.mpr hle]
        · simp [hobserved, hle, Nat.lt_of_not_le hle]

theorem row_update {f : DlProductCache → DlProductCache} (hf : ∀ r, (f r).key = r.key)
    (i : Id) (k : String) : (cache.update connectorId productId f).row i k =
      if (i, k) = (connectorId, productId) then (cache.row connectorId productId).map f
      else cache.row i k :=
  Table.get_set hf

theorem row_put (row : DlProductCache) (cache : Cache) (i : Id) (k : String) :
    (put row cache).row i k = if (i, k) = row.key then some row else cache.row i k := by
  unfold put
  cases hstored : cache.row row.connectorId row.productId with
  | none =>
    by_cases hkey : (i, k) = row.key
    · rw [if_pos hkey, Cache.row, hkey]
      refine (Table.get_append_of_none hstored).trans ?_
      simp [Table.get, DlProductCache.key]
    · rw [if_neg hkey, Cache.row, Cache.row]
      simp only [Table.get, find?_append, find?_singleton]
      have hne : row.key ≠ (i, k) := fun h => hkey h.symm
      simp [hne]
  | some stored =>
    have hkey := (Table.get_some hstored).2
    have hrow : row.overwrite stored = row := by
      obtain ⟨hc, hp⟩ := Prod.mk.inj hkey
      simp [DlProductCache.overwrite, hc, hp]
    refine (row_update (f := row.overwrite) (fun _ => rfl) i k).trans ?_
    rw [hstored, map_some, hrow]
    rfl

theorem row_upsertFallback (cache : Cache) (row : DlProductCache) (i : Id) (k : String) :
    (upsertFallback cache row).row i k =
      if (i, k) = row.key ∧ fenced (cache.row i k) row = false then some row
      else cache.row i k := by
  rw [upsertFallback_eq]
  by_cases hkey : (i, k) = row.key
  · obtain ⟨rfl, rfl⟩ := Prod.mk.inj hkey
    cases hfenced : fenced (cache.row row.connectorId row.productId) row with
    | true => simp
    | false =>
      rw [if_neg (by simp), row_put]
      simp [hkey]
  · split
    · simp [hkey]
    · rw [row_put, if_neg hkey]
      simp [hkey]

/-- Rows of different products are written independently. -/
theorem row_upserts (distinct : (rows.map DlProductCache.key).Nodup) (i : Id) (k : String) :
    (rows.foldl upsertFallback cache).row i k = match Table.get DlProductCache.key rows (i, k) with
      | some row => if fenced (cache.row i k) row then cache.row i k else some row
      | none => cache.row i k := by
  induction rows generalizing cache with
  | nil => rfl
  | cons row rest ih =>
    rw [map_cons, nodup_cons] at distinct
    obtain ⟨habsent, hrest⟩ := distinct
    rw [foldl_cons, ih hrest, row_upsertFallback]
    by_cases hkey : row.key = (i, k)
    · have hnone : Table.get DlProductCache.key rest (i, k) = none := by
        rw [Table.get_none]
        intro r hr heq
        exact habsent (hkey ▸ heq ▸ mem_map_of_mem hr)
      have hsome : Table.get DlProductCache.key (row :: rest) (i, k) = some row := by
        simp [Table.get, hkey]
      rw [hnone, hsome]
      cases hfenced : fenced (cache.row i k) row with
      | true => simp [hfenced]
      | false => simp [hkey, hfenced]
    · have hskip : Table.get DlProductCache.key (row :: rest) (i, k) =
          Table.get DlProductCache.key rest (i, k) := by
        simp [Table.get, hkey]
      have hne : ¬ ((i, k) = row.key ∧ fenced (cache.row i k) row = false) :=
        fun h => hkey h.1.symm
      rw [hskip, if_neg hne]

theorem bulkUpsert_eq (dialect : Dialect) (owned : Owned) (connectorId : Id)
    (items : List (String × ProductColumns)) (now : Time) (cache : Cache) :
    (bulkUpsert dialect owned connectorId items now cache).1 =
      ((items.filter fun item => decide ((connectorId, item.1) ∉ owned)).map fun item =>
        written connectorId item.1 item.2 now).foldl upsertFallback cache := by
  cases dialect with
  | other => rfl
  | postgresql =>
    have hsame : upsertPostgresql = upsertFallback := by
      funext cache row
      exact upsertPostgresql_eq cache row
    simp [bulkUpsert, hsame]

variable {items : List (String × ProductColumns)}

/-- The rows a page offers are of different products. -/
theorem offered_nodup (owned : Owned) (connectorId : Id)
    (distinct : (items.map Prod.fst).Nodup) (now : Time) :
    (((items.filter fun item => decide ((connectorId, item.1) ∉ owned)).map fun item =>
      written connectorId item.1 item.2 now).map DlProductCache.key).Nodup := by
  have hsub : ((items.filter fun item => decide ((connectorId, item.1) ∉ owned)).map
      Prod.fst).Nodup := distinct.sublist (filter_sublist.map _)
  have hmap : ((items.filter fun item => decide ((connectorId, item.1) ∉ owned)).map fun item =>
      written connectorId item.1 item.2 now).map DlProductCache.key =
      ((items.filter fun item => decide ((connectorId, item.1) ∉ owned)).map Prod.fst).map
        fun id => (connectorId, id) := by
    simp [DlProductCache.key, written]
  rw [hmap]
  exact hsub.map fun a b h => (Prod.mk.inj h).2

theorem row_bulkUpsert (dialect : Dialect) (owned : Owned) (connectorId : Id)
    (distinct : (items.map Prod.fst).Nodup) (now : Time)
    (cache : Cache) (i : Id) (k : String) :
    (bulkUpsert dialect owned connectorId items now cache).1.row i k =
      match Table.get DlProductCache.key ((items.filter fun item =>
        decide ((connectorId, item.1) ∉ owned)).map fun item =>
          written connectorId item.1 item.2 now) (i, k) with
      | some row => if fenced (cache.row i k) row then cache.row i k else some row
      | none => cache.row i k := by
  rw [bulkUpsert_eq]
  exact row_upserts (offered_nodup owned connectorId distinct now) i k

/-- What a page leaves of a product that it holds and that no job owns. -/
theorem row_bulkUpsert_offered (dialect : Dialect)
    (distinct : (items.map Prod.fst).Nodup) (offered : (productId, columns) ∈ items)
    (free : (connectorId, productId) ∉ owned) (now : Time) (cache : Cache) :
    (bulkUpsert dialect owned connectorId items now cache).1.row connectorId productId =
      if fenced (cache.row connectorId productId) (written connectorId productId columns now) then
        cache.row connectorId productId else some (written connectorId productId columns now) := by
  have hmem : written connectorId productId columns now ∈
      (items.filter fun item => decide ((connectorId, item.1) ∉ owned)).map fun item =>
        written connectorId item.1 item.2 now :=
    mem_map.mpr ⟨(productId, columns), mem_filter.mpr ⟨offered, by simpa using free⟩, rfl⟩
  have hget : Table.get DlProductCache.key ((items.filter fun item =>
      decide ((connectorId, item.1) ∉ owned)).map fun item =>
        written connectorId item.1 item.2 now) (connectorId, productId) =
      some (written connectorId productId columns now) :=
    Table.get_of_mem (offered_nodup owned connectorId distinct now) hmem
  rw [row_bulkUpsert dialect owned connectorId distinct, hget]

theorem shapeProduct_lastSuccessfulRead (h : shapeProduct u printable now item = some columns) :
    columns.lastSuccessfulRead = some now := by
  simp only [shapeProduct, bind_eq_bind, bind_eq_some_iff] at h
  obtain ⟨providerObservedAt, -, h⟩ := h
  rw [← some.inj h]

theorem mem_put (h : r ∈ put row cache) : r ∈ cache ∨ r.columns = row.columns := by
  unfold put at h
  split at h
  · rcases Table.mem_set.mp h with ⟨stored, -, -, rfl⟩ | ⟨hold, -⟩
    · exact .inr rfl
    · exact .inl hold
  · rcases mem_append.mp h with hold | hnew
    · exact .inl hold
    · obtain rfl := mem_singleton.mp hnew
      exact .inr rfl

theorem mem_bulkUpsert (h : r ∈ (bulkUpsert dialect owned connectorId items now cache).1) :
    r ∈ cache ∨ ∃ item ∈ items, r.columns = item.2 := by
  have hfold : ∀ (rows : List DlProductCache) (cache : Cache), r ∈ rows.foldl upsertFallback cache →
      r ∈ cache ∨ ∃ row ∈ rows, r.columns = row.columns := by
    intro rows
    induction rows with
    | nil => exact fun cache h => .inl h
    | cons row rest ih =>
      intro cache h
      rcases ih _ h with hone | ⟨other, hother, hcolumns⟩
      · rw [upsertFallback_eq] at hone
        split at hone
        · exact .inl hone
        · rcases mem_put hone with hold | hnew
          · exact .inl hold
          · exact .inr ⟨row, mem_cons_self, hnew⟩
      · exact .inr ⟨other, mem_cons_of_mem _ hother, hcolumns⟩
  rw [bulkUpsert_eq] at h
  rcases hfold _ _ h with hold | ⟨row, hrow, hcolumns⟩
  · exact .inl hold
  · obtain ⟨item, hitem, rfl⟩ := mem_map.mp hrow
    exact .inr ⟨item, (mem_filter.mp hitem).1, hcolumns⟩

end

end FlowHub.ReadEngine
