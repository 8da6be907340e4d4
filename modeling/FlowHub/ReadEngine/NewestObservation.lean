import FlowHub.ReadEngine.Cache

namespace FlowHub.ReadEngine

open Python List

/-- The columns that two observations of a product are compared by. -/
structure Observation where
  price : Option String
  stockQty : Option Int
  (status stockStatus : Json)
  exists_ : Bool

def ProductColumns.observation (columns : ProductColumns) : Observation where
  price := columns.price
  stockQty := columns.stockQty
  status := columns.status
  stockStatus := columns.stockStatus
  exists_ := columns.exists_

/-- What writes the cached row of a product: a page of a read, a read of the entity, a read that
found it gone, and the end of a verified apply with the text of its price. -/
inductive Writer where
  | page | entity | notFound
  | verified (storedPrice : String)

/-- A write, with the provider's state when it was fetched. -/
structure Write where
  writer : Writer
  fetchedAt : Time
  columns : ProductColumns

/-- The end of `execute_product_pricing_item` on the cached row. -/
def DlProductCache.verifiedPrice (storedPrice : String) (verifiedAt : Time) (row : DlProductCache) :
    DlProductCache :=
  { row with
    columns := { row.columns with
      regularPrice := some storedPrice
      price := some storedPrice
      lastSuccessfulRead := some verifiedAt
      providerObservedAt := some verifiedAt }
    freshness := .fresh }

/-- One write of a product is committed. A page holds other products too. -/
inductive Commit (connectorId : Id) (productId : String) (w : Write) : Cache → Cache → Prop
  | page {dialect : Dialect} {owned : Owned} {items : List (String × ProductColumns)} {now : Time}
      {cache : Cache} (writer : w.writer = .page) (distinct : (items.map Prod.fst).Nodup)
      (offered : (productId, w.columns) ∈ items) (free : (connectorId, productId) ∉ owned) :
      Commit connectorId productId w cache (bulkUpsert dialect owned connectorId items now cache).1
  | entity {owned : Owned} {now : Time} {cache after : Cache} (writer : w.writer = .entity)
      (stored : upsert owned connectorId productId w.columns now cache = some after) :
      Commit connectorId productId w cache after
  | notFound {owned : Owned} {now : Time} {cache after : Cache} (writer : w.writer = .notFound)
      (marked : markNotFound owned connectorId productId now cache = some after) :
      Commit connectorId productId w cache after
  | verified {storedPrice : String} {verifiedAt : Time} {cache : Cache}
      (writer : w.writer = .verified storedPrice) :
      Commit connectorId productId w cache
        (cache.update connectorId productId (·.verifiedPrice storedPrice verifiedAt))

/-- The fence of a page write turns these columns away. -/
def turnedAway (row : Option DlProductCache) (columns : ProductColumns) : Bool :=
  row.any fun stored => stored.columns.providerObservedAt.any fun observed =>
    columns.providerObservedAt.all fun incoming => decide (incoming < observed)

/-- What a write leaves of the row. -/
def Write.effect (connectorId : Id) (productId : String) (now : Time) (w : Write)
    (row : Option DlProductCache) : Option DlProductCache :=
  match w.writer with
  | .page =>
    if turnedAway row w.columns then row else some (written connectorId productId w.columns now)
  | .entity => some (written connectorId productId w.columns now)
  | .notFound => row.map (·.gone now)
  | .verified storedPrice => row.map (·.verifiedPrice storedPrice now)

/-- The row has what the write has to say: the whole observation, or that the product is gone. -/
def Write.Shown (w : Write) (row : Option DlProductCache) : Prop :=
  ∃ r, row = some r ∧ match w.writer with
    | .notFound => r.columns.exists_ = false
    | _ => r.columns.observation = w.columns.observation

/-- The write fetched last is the one that the row shows. -/
def NewestWins (committed : List Write) (row : Option DlProductCache) : Prop :=
  ∀ w ∈ committed, (∀ v ∈ committed, v.fetchedAt ≤ w.fetchedAt) → w.Shown row

/-- Committed writes of a product, each one allowed by what was there before it. Writes of other
products leave its row alone. -/
inductive WriteRun (connectorId : Id) (productId : String)
    (allowed : Option DlProductCache → List Write → Write → Prop) : Cache → List Write → Prop
  | start (cache : Cache) : WriteRun connectorId productId allowed cache []
  | commit {cache after : Cache} {committed : List Write} {w : Write}
      (run : WriteRun connectorId productId allowed cache committed)
      (apart : ∀ v ∈ committed, v.fetchedAt ≠ w.fetchedAt)
      (ok : allowed (cache.row connectorId productId) committed w)
      (write : Commit connectorId productId w cache after) :
      WriteRun connectorId productId allowed after (committed ++ [w])
  | elsewhere {cache after : Cache} {committed : List Write}
      (run : WriteRun connectorId productId allowed cache committed)
      (same : after.row connectorId productId = cache.row connectorId productId) :
      WriteRun connectorId productId allowed after committed

/-- A write newer than all before it takes hold of the row, and an older one finds the fence closed
or changes nothing that is compared. -/
def Orderly (row : Option DlProductCache) (committed : List Write) (w : Write) : Prop :=
  if ∀ v ∈ committed, v.fetchedAt < w.fetchedAt then
    match w.writer with
    | .page => turnedAway row w.columns = false
    | .entity => True
    | .notFound => row ≠ none
    | .verified storedPrice => ∃ r, row = some r ∧
        { r.columns.observation with price := some storedPrice } = w.columns.observation
  else
    match w.writer with
    | .page => turnedAway row w.columns = true ∨ w.Shown row
    | .entity | .notFound => w.Shown row
    | .verified storedPrice => ∃ r, row = some r ∧ r.columns.price = some storedPrice

variable {connectorId : Id} {productId : String} {w v : Write} {committed : List Write}
  {stored : Option DlProductCache} {now : Time}

theorem Commit.row {after : Cache} (h : Commit connectorId productId w cache after) :
    ∃ now, after.row connectorId productId =
      w.effect connectorId productId now (cache.row connectorId productId) := by
  cases h with
  | @page dialect owned items now _ writer distinct offered free =>
    refine ⟨now, ?_⟩
    rw [row_bulkUpsert_offered dialect distinct offered free, Write.effect, writer]
    rfl
  | @entity owned now _ _ writer stored =>
    refine ⟨now, ?_⟩
    rw [upsert] at stored
    split at stored
    · cases stored
    · cases stored
      rw [row_put, Write.effect, writer]
      exact if_pos rfl
  | @notFound owned now _ _ writer marked =>
    refine ⟨now, ?_⟩
    rw [markNotFound] at marked
    split at marked
    · cases marked
    · cases marked
      rw [@row_update cache _ _ (·.gone now) fun _ => rfl, Write.effect, writer]
      exact if_pos rfl
  | @verified storedPrice verifiedAt _ writer =>
    refine ⟨verifiedAt, ?_⟩
    rw [@row_update cache _ _ (·.verifiedPrice storedPrice verifiedAt) fun _ => rfl, Write.effect, writer]
    exact if_pos rfl

theorem Write.Shown.congr (h : w.Shown (some r))
    (same : r'.columns.observation = r.columns.observation) : w.Shown (some r') := by
  obtain ⟨_, heq, hshown⟩ := h
  cases heq
  refine ⟨r', rfl, ?_⟩
  cases hw : w.writer with
  | notFound =>
    rw [hw] at hshown
    exact (congrArg Observation.exists_ same).trans hshown
  | page | entity | verified =>
    rw [hw] at hshown
    exact same.trans hshown

/-- The newest write so far shows afterwards. -/
theorem Orderly.shows (newest : ∀ v ∈ committed, v.fetchedAt < w.fetchedAt)
    (h : Orderly stored committed w) : w.Shown (w.effect connectorId productId now stored) := by
  rw [Orderly, if_pos newest] at h
  unfold Write.Shown Write.effect
  cases hw : w.writer with
  | page =>
    rw [hw] at h
    exact ⟨_, if_neg (by simp [h]), rfl⟩
  | entity => exact ⟨_, rfl, rfl⟩
  | notFound =>
    rw [hw] at h
    obtain ⟨r, rfl⟩ := Option.ne_none_iff_exists'.mp h
    exact ⟨_, rfl, rfl⟩
  | verified storedPrice =>
    rw [hw] at h
    obtain ⟨r, rfl, hcolumns⟩ := h
    exact ⟨_, rfl, hcolumns⟩

/-- An older write leaves what is compared as it was. -/
theorem Orderly.keeps (connectorId : Id) (productId : String) (now : Time)
    (older : ¬∀ v ∈ committed, v.fetchedAt < w.fetchedAt) (h : Orderly (some r) committed w) :
    ∃ r', w.effect connectorId productId now (some r) = some r' ∧
      r'.columns.observation = r.columns.observation := by
  rw [Orderly, if_neg older] at h
  unfold Write.effect
  cases hw : w.writer with
  | page =>
    rw [hw] at h
    cases haway : turnedAway (some r) w.columns with
    | true => exact ⟨r, rfl, rfl⟩
    | false =>
      rcases h with h | ⟨_, heq, hsame⟩
      · rw [haway] at h
        cases h
      · cases heq
        rw [hw] at hsame
        exact ⟨_, rfl, hsame.symm⟩
  | entity =>
    rw [hw] at h
    obtain ⟨_, heq, hsame⟩ := h
    cases heq
    rw [hw] at hsame
    exact ⟨_, rfl, hsame.symm⟩
  | notFound =>
    rw [hw] at h
    obtain ⟨_, heq, hgone⟩ := h
    cases heq
    rw [hw] at hgone
    exact ⟨_, rfl, by simp [ProductColumns.observation, DlProductCache.gone, hgone]⟩
  | verified storedPrice =>
    rw [hw] at h
    obtain ⟨_, heq, hprice⟩ := h
    cases heq
    exact ⟨_, rfl, by
      simp [ProductColumns.observation, DlProductCache.verifiedPrice, hprice]⟩

/-- An orderly write keeps the newest one shown. -/
theorem NewestWins.write (h : NewestWins committed stored)
    (apart : ∀ v ∈ committed, v.fetchedAt ≠ w.fetchedAt) (ok : Orderly stored committed w) :
    NewestWins (committed ++ [w]) (w.effect connectorId productId now stored) := by
  intro x hx latest
  by_cases newest : ∀ v ∈ committed, v.fetchedAt < w.fetchedAt
  · rcases mem_append.mp hx with hx | hx
    · have hle := latest w (mem_append_right _ (mem_singleton_self w))
      exact absurd hle (Nat.not_le.mpr (newest x hx))
    · obtain rfl := mem_singleton.mp hx
      exact ok.shows newest
  · have hlater : ∃ v ∈ committed, w.fetchedAt < v.fetchedAt := by
      simp only [not_forall] at newest
      obtain ⟨v, hv, hnot⟩ := newest
      exact ⟨v, hv, Nat.lt_of_le_of_ne (Nat.not_lt.mp hnot) (apart v hv).symm⟩
    rcases mem_append.mp hx with hx | hx
    · have hshown := h x hx fun v hv => latest v (mem_append_left _ hv)
      obtain ⟨r, rfl, -⟩ := id hshown
      obtain ⟨r', heffect, hsame⟩ := ok.keeps connectorId productId now newest
      rw [heffect]
      exact hshown.congr hsame
    · obtain rfl := mem_singleton.mp hx
      obtain ⟨v, hv, hlt⟩ := hlater
      exact absurd (latest v (mem_append_left _ hv)) (Nat.not_le.mpr hlt)

/-- The provider's states of a product. Each carries its modification time, which grows with every
change. -/
structure Timeline where
  columns : Time → ProductColumns
  modified : Time → Time
  dated : ∀ t, (columns t).providerObservedAt = some (modified t)
  grows : ∀ {s t}, s ≤ t → modified s ≤ modified t
  changes : ∀ {s t}, modified s = modified t → (columns s).observation = (columns t).observation

variable (timeline : Timeline)

/-- The write carries the provider's state at its fetch, and marks what is gone there. -/
def Timeline.Carries (w : Write) : Prop :=
  w.columns = timeline.columns w.fetchedAt ∧ (w.columns.exists_ = false ↔ w.writer = .notFound)

namespace Sample

def priced (price : String) (modified : Time) : ProductColumns where
  sku := .null
  name := .null
  externalId := some 7
  productType := .null
  parentId := none
  status := .null
  price := some price
  regularPrice := some price
  salePrice := none
  stockQty := some 3
  stockStatus := .null
  manageStock := none
  backordersAllowed := false
  categories := []
  images := []
  lastSuccessfulRead := none
  lastModified := .null
  providerObservedAt := some modified
  exists_ := true

/-- The price is raised at time 2. -/
def raised : Timeline where
  columns t := if t < 2 then priced "100" 1 else priced "200" 2
  modified t := if t < 2 then 1 else 2
  dated t := by split <;> rfl
  grows {s t} h := by
    by_cases ht : t < 2
    · rw [if_pos ht, if_pos (Nat.lt_of_le_of_lt h ht)]
    · rw [if_neg ht]
      split <;> decide
  changes {s t} h := by
    by_cases hs : s < 2
    · by_cases ht : t < 2
      · rw [if_pos hs, if_pos ht]
      · rw [if_pos hs, if_neg ht] at h
        exact absurd h (by decide)
    · by_cases ht : t < 2
      · rw [if_neg hs, if_pos ht] at h
        exact absurd h (by decide)
      · rw [if_neg hs, if_neg ht]

def readAt (writer : Writer) (t : Time) : Write := ⟨writer, t, raised.columns t⟩

def entityStored (t : Time) (cache : Cache) : Cache :=
  put (written "woocommerce:primary" "7" (raised.columns t) 5) cache

theorem entity_commit (t : Time) (cache : Cache) :
    Commit "woocommerce:primary" "7" (readAt .entity t) cache (entityStored t cache) :=
  @Commit.entity _ _ _ [] 5 _ _ rfl rfl

theorem readAt_carries (t : Time) : raised.Carries (readAt .entity t) := by
  refine ⟨rfl, ?_⟩
  by_cases ht : t < 2
  · simp only [readAt, raised, if_pos ht]
    simp [priced]
  · simp only [readAt, raised, if_neg ht]
    simp [priced]

end Sample

open Sample

end FlowHub.ReadEngine
