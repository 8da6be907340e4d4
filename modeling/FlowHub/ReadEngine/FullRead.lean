import FlowHub.ReadEngine.Cache

namespace FlowHub.ReadEngine

open Python List Option

section

variable (u : Unicode) (printable : Char → Bool)

/-- The items of a page that no page before has had, with their product ids. -/
def newItems : List String → List Json → List (String × Json)
  | _, [] => []
  | seen, item :: rest =>
    let id := productId u printable item
    if id = "" ∨ id ∈ seen then newItems seen rest
    else (id, item) :: newItems (id :: seen) rest

/-- A run of `run_manual` under way. -/
structure Progress where
  cache : Cache
  seen : List String := []
  productsStored : Nat := 0

/-- What a page stores of what it lists; none where an item cannot be shaped. -/
def shaped (seen : List String) (items : List Json) (shapedAt : Time) :
    Option (List (String × ProductColumns)) :=
  (newItems u printable seen items).mapM fun item =>
    (shapeProduct u printable shapedAt item.2).map (item.1, ·)

def storePage (dialect : Dialect) (owned : Owned) (connectorId : Id) (items : List Json)
    (shapedAt now : Time) (p : Progress) : Option Progress := do
  let page ← shaped u printable p.seen items shapedAt
  let (cache, stored) := bulkUpsert dialect owned connectorId page now p.cache
  some ⟨cache, p.seen ++ page.map Prod.fst, p.productsStored + stored⟩

def saysGone (item : Json) : Bool :=
  match item.get "exists" with
  | .bool b => !b
  | _ => false

/-- The commit of one item of `run_entity`; none where it raises. -/
def storeEntity (owned : Owned) (connectorId : Id) (item : Json) (shapedAt now : Time)
    (cache : Cache) : Option Cache :=
  let id := productId u printable item
  if id = "" then some cache
  else if saysGone item then markNotFound owned connectorId id now cache
  else do upsert owned connectorId id (← shapeProduct u printable shapedAt item) now cache

/-- What is committed while a full read runs: its own pages, and what single-entity reads of its
connector store. The listings are those owned at that moment. -/
inductive Event where
  | page (items : List Json) (owned : Owned) (shapedAt now : Time)
  | entity (item : Json) (owned : Owned) (shapedAt now : Time)

variable (dialect : Dialect) (connectorId : Id)

def perform (p : Progress) : Event → Option Progress
  | .page items owned shapedAt now =>
    storePage u printable dialect owned connectorId items shapedAt now p
  | .entity item owned shapedAt now =>
    some { p with
      cache := (storeEntity u printable owned connectorId item shapedAt now p.cache).getD p.cache }

/-- `run_manual(force_full=True)` from its start on, with what others commit before it sweeps; none
where it raises. -/
def runFull (startedAt : Time) (events : List Event) (cache : Cache) : Option Cache :=
  (events.foldlM (perform u printable dialect connectorId) ⟨cache, [], 0⟩).map fun p =>
    sweep connectorId startedAt p.cache

/-- A page contains the product, or a single-entity read finds it. -/
def Event.names (id : String) : Event → Prop
  | .page items _ _ _ => id ≠ "" ∧ id ∈ items.map (productId u printable)
  | .entity item owned shapedAt _ => id ≠ "" ∧ id = productId u printable item ∧
      saysGone item = false ∧ (connectorId, id) ∉ owned ∧
      (shapeProduct u printable shapedAt item).isSome

/-- Only what nothing in the run names is missing after it. -/
def Spares (events : List Event) (final : Cache) : Prop :=
  ∀ id row, final.row connectorId id = some row → row.columns.exists_ = false →
    ∀ e ∈ events, ¬ e.names u printable connectorId id

local instance : LawfulBEq (Id × String) := inferInstance

/-- The row an event writes for a product: not where its listing is owned, and on a page not where
a newer observation is stored or the item has none. -/
def Event.writes (p : Progress) (id : String) : Event → Option DlProductCache
  | .page items owned shapedAt now =>
    ((shaped u printable p.seen items shapedAt).bind fun page =>
        (page.find? fun item => decide (item.1 = id)).map fun item =>
          written connectorId id item.2 now).filter fun row =>
      decide ((connectorId, id) ∉ owned) && !fenced (p.cache.row connectorId id) row
  | .entity item owned shapedAt now =>
    if id = "" ∨ id ≠ productId u printable item ∨ (connectorId, id) ∈ owned then none
    else if saysGone item then (p.cache.row connectorId id).map (·.gone now)
    else (shapeProduct u printable shapedAt item).map fun columns =>
      written connectorId id columns now

/-- The last row a run writes for a product. -/
def lastWritten (id : String) : List Event → Progress → Option DlProductCache
  | [], _ => none
  | e :: rest, p =>
    match perform u printable dialect connectorId p e with
    | some q => (lastWritten id rest q).or (e.writes u printable connectorId p id)
    | none => none

/-- The last row written for the product exists and dates from the run, or so does the one it had
where the run writes none. -/
def Kept (startedAt : Time) (events : List Event) (cache : Cache) (id : String) : Prop :=
  ∀ row ∈ (lastWritten u printable dialect connectorId id events ⟨cache, [], 0⟩).or
      (cache.row connectorId id),
    row.columns.exists_ = true ∧ row.lastFetchedAt.any (fun t => decide (startedAt ≤ t)) = true

end

section

variable {u : Unicode} {printable : Char → Bool} {dialect : Dialect} {connectorId : Id}
  {cache : Cache}

theorem newItems_ids (seen : List String) (items : List Json) :
    ((newItems u printable seen items).map Prod.fst).Nodup ∧
      ∀ id ∈ (newItems u printable seen items).map Prod.fst, id ∉ seen := by
  induction items generalizing seen with
  | nil => simp [newItems]
  | cons item rest ih =>
    by_cases hskip : productId u printable item = "" ∨ productId u printable item ∈ seen
    · simp only [newItems, if_pos hskip]
      exact ih seen
    obtain ⟨hnodup, hnew⟩ := ih (productId u printable item :: seen)
    simp only [newItems, if_neg hskip, map_cons, nodup_cons]
    refine ⟨⟨fun hmem => ?_, hnodup⟩, fun id hid => ?_⟩
    · exact hnew _ hmem mem_cons_self
    · rcases mem_cons.mp hid with rfl | hid
      · exact fun hseen => hskip (.inr hseen)
      · exact fun hseen => hnew id hid (mem_cons_of_mem _ hseen)

variable {page : List (String × ProductColumns)}

theorem shaped_ids {shapedAt : Time} (h : shaped u printable seen items shapedAt = some page) :
    page.map Prod.fst = (newItems u printable seen items).map Prod.fst := by
  unfold shaped at h
  generalize newItems u printable seen items = new at h
  induction new generalizing page with
  | nil =>
    cases h
    rfl
  | cons item rest ih =>
    simp only [mapM_cons, bind_eq_bind, bind_eq_some_iff] at h
    obtain ⟨first, hfirst, more, hmore, h⟩ := h
    cases h
    obtain ⟨columns, -, rfl⟩ := map_eq_some_iff.mp hfirst
    rw [map_cons, map_cons, ih hmore]

theorem get_written (owned : Owned) (now : Time)
    (id : String) : Table.get DlProductCache.key ((page.filter fun item =>
        decide ((connectorId, item.1) ∉ owned)).map fun item =>
          written connectorId item.1 item.2 now) (connectorId, id) =
      ((page.find? fun item => decide (item.1 = id)).map fun item =>
        written connectorId id item.2 now).filter fun _ => decide ((connectorId, id) ∉ owned) := by
  induction page with
  | nil => rfl
  | cons item rest ih =>
    by_cases hid : item.1 = id
    · subst hid
      by_cases howned : (connectorId, item.1) ∈ owned
      · have hnone : ∀ (rest : List (String × ProductColumns)), Table.get DlProductCache.key
            ((rest.filter fun item => decide ((connectorId, item.1) ∉ owned)).map fun item =>
              written connectorId item.1 item.2 now) (connectorId, item.1) = none := by
          intro rest
          rw [Table.get_none]
          intro row hrow hkey
          obtain ⟨other, hother, rfl⟩ := mem_map.mp hrow
          have hfree := of_decide_eq_true (mem_filter.mp hother).2
          have hsame : other.1 = item.1 := (Prod.mk.inj hkey).2
          exact hfree (hsame ▸ howned)
        rw [hnone]
        simp [howned]
      · simp [howned, Table.get, DlProductCache.key, written, Option.filter]
    · have hskip : Table.get DlProductCache.key (((item :: rest).filter fun item =>
          decide ((connectorId, item.1) ∉ owned)).map fun item =>
            written connectorId item.1 item.2 now) (connectorId, id) =
          Table.get DlProductCache.key ((rest.filter fun item =>
            decide ((connectorId, item.1) ∉ owned)).map fun item =>
              written connectorId item.1 item.2 now) (connectorId, id) := by
        by_cases howned : (connectorId, item.1) ∈ owned
        · simp [howned]
        · simp [howned, Table.get, DlProductCache.key, written, hid]
      rw [hskip, ih]
      simp [hid]

theorem storeEntity_other {owned : Owned} {item : Json} {shapedAt now : Time} {c : Cache} {id : String}
    (h : storeEntity u printable owned connectorId item shapedAt now cache = some c)
    (hid : id ≠ productId u printable item) : c.row connectorId id = cache.row connectorId id := by
  dsimp only [storeEntity] at h
  by_cases hempty : productId u printable item = ""
  · rw [if_pos hempty] at h
    cases h
    rfl
  · rw [if_neg hempty] at h
    split at h
    · unfold markNotFound at h
      split at h
      · cases h
      · cases h
        rw [row_update (f := fun r => r.gone now) (fun _ => rfl)]
        simp [hid]
    · simp only [bind_eq_bind, bind_eq_some_iff] at h
      obtain ⟨columns, -, h⟩ := h
      unfold upsert at h
      split at h
      · cases h
      · cases h
        rw [row_put]
        simp [DlProductCache.key, written, hid]

theorem storeEntity_self {owned : Owned} {item : Json} {shapedAt now : Time} {id : String}
    (hempty : id ≠ "") (hid : id = productId u printable item) :
    ((storeEntity u printable owned connectorId item shapedAt now cache).getD cache).row
        connectorId id =
      (if (connectorId, id) ∈ owned then none
        else if saysGone item then (cache.row connectorId id).map (·.gone now)
        else (shapeProduct u printable shapedAt item).map fun columns =>
          written connectorId id columns now).or (cache.row connectorId id) := by
  subst hid
  unfold storeEntity
  by_cases howned : (connectorId, productId u printable item) ∈ owned
  · cases hgone : saysGone item with
    | true => simp [hempty, howned, markNotFound]
    | false =>
      cases hshape : shapeProduct u printable shapedAt item with
      | none => simp [hempty, howned]
      | some columns => simp [hempty, howned, upsert]
  · cases hgone : saysGone item with
    | true =>
      simp only [hempty, howned, markNotFound, if_false, if_true, getD_some,
        row_update (f := fun r => r.gone now) (fun _ => rfl)]
      cases cache.row connectorId (productId u printable item) with
      | none => rfl
      | some row => rfl
    | false =>
      cases hshape : shapeProduct u printable shapedAt item with
      | none => simp [hempty, howned]
      | some columns => simp [hempty, howned, upsert, row_put, DlProductCache.key, written]

/-- An event leaves a row as it writes it, and any other as it was. -/
theorem perform_row {e : Event} (h : perform u printable dialect connectorId p e = some q)
    (id : String) : q.cache.row connectorId id =
      (e.writes u printable connectorId p id).or (p.cache.row connectorId id) := by
  cases e with
  | page items owned shapedAt now =>
    simp only [perform, storePage, bind_eq_bind, bind_eq_some_iff] at h
    obtain ⟨page, hpage, h⟩ := h
    cases h
    have hdistinct : (page.map Prod.fst).Nodup := by
      rw [shaped_ids hpage]
      exact (newItems_ids p.seen items).1
    simp only [row_bulkUpsert dialect owned connectorId hdistinct, get_written, Event.writes,
      hpage, bind_some]
    cases (page.find? fun item => decide (item.1 = id)) with
    | none => rfl
    | some item =>
      by_cases howned : (connectorId, id) ∈ owned
      · simp [howned]
      cases hfenced : fenced (p.cache.row connectorId id)
        (written connectorId id item.2 now) with
      | true => simp [howned, hfenced, Option.filter]
      | false => simp [howned, hfenced, Option.filter]
  | entity item owned shapedAt now =>
    cases h
    simp only [Event.writes]
    by_cases hid : id = productId u printable item
    · by_cases hempty : id = ""
      · have hitem : productId u printable item = "" := hid ▸ hempty
        simp [storeEntity, hempty, hitem]
      · rw [storeEntity_self hempty hid]
        simp [hempty, false_or, ← hid, ne_eq, not_true_eq_false]
    · rw [if_pos (.inr (.inl hid)), none_or]
      cases hstore : storeEntity u printable owned connectorId item shapedAt now p.cache with
      | none => rfl
      | some c => exact storeEntity_other hstore hid

theorem mapM_mem {α β : Type} {f : α → Option β} {as : List α} {bs : List β}
    (h : as.mapM f = some bs) {b : β} (hb : b ∈ bs) : ∃ a ∈ as, f a = some b := by
  induction as generalizing bs with
  | nil =>
    cases h
    cases hb
  | cons a rest ih =>
    simp only [mapM_cons, bind_eq_bind, bind_eq_some_iff] at h
    obtain ⟨first, hfirst, more, hmore, h⟩ := h
    cases h
    rcases mem_cons.mp hb with rfl | hb
    · exact ⟨a, mem_cons_self, hfirst⟩
    · obtain ⟨a', ha', hf⟩ := ih hmore hb
      exact ⟨a', mem_cons_of_mem _ ha', hf⟩

theorem shaped_mem {shapedAt : Time}
    (h : shaped u printable seen items shapedAt = some page) {stored : String × ProductColumns}
    (hstored : stored ∈ page) : ∃ item ∈ items, productId u printable item = stored.1 ∧
      shapeProduct u printable shapedAt item = some stored.2 := by
  have hnew : ∀ (seen : List String) (items : List Json), ∀ new ∈ newItems u printable seen items,
      new.2 ∈ items ∧ productId u printable new.2 = new.1 := by
    intro seen items
    induction items generalizing seen with
    | nil => simp [newItems]
    | cons item rest ih =>
      intro new hmem
      simp only [newItems] at hmem
      split at hmem
      · exact ⟨mem_cons_of_mem _ (ih seen new hmem).1, (ih seen new hmem).2⟩
      · rcases mem_cons.mp hmem with rfl | hmem
        · exact ⟨mem_cons_self, rfl⟩
        · exact ⟨mem_cons_of_mem _ (ih _ new hmem).1, (ih _ new hmem).2⟩
  obtain ⟨new, hmem, hshape⟩ := mapM_mem h hstored
  obtain ⟨columns, hcolumns, rfl⟩ := map_eq_some_iff.mp hshape
  exact ⟨new.2, (hnew seen items new hmem).1, (hnew seen items new hmem).2, hcolumns⟩

theorem run_row (h : events.foldlM (perform u printable dialect connectorId) p = some q) (id : String) :
    q.cache.row connectorId id = (lastWritten u printable dialect connectorId id events p).or
      (p.cache.row connectorId id) := by
  induction events generalizing p with
  | nil =>
    cases h
    rfl
  | cons e rest ih =>
    simp only [foldlM_cons, bind_eq_bind, bind_eq_some_iff] at h
    obtain ⟨middle, hmiddle, hrest⟩ := h
    rw [ih hrest, perform_row hmiddle id, lastWritten, hmiddle, Option.or_assoc]

/-- The rows after an event were there, but for whether they exist, or were read by it. -/
theorem perform_fetched {e : Event} {now : Time} (h : perform u printable dialect connectorId p e = some q)
    (hnow : match e with
      | .page _ _ shapedAt _ => shapedAt = now
      | .entity _ _ shapedAt _ => shapedAt = now) :
    ∀ row ∈ q.cache, row.columns.lastSuccessfulRead = some now ∨
      ∃ old ∈ p.cache, row.columns.lastSuccessfulRead = old.columns.lastSuccessfulRead := by
  intro row hrow
  cases e with
  | page items owned shapedAt now' =>
    subst hnow
    simp only [perform, storePage, bind_eq_bind, bind_eq_some_iff] at h
    obtain ⟨page, hpage, h⟩ := h
    cases h
    rcases mem_bulkUpsert hrow with hold | ⟨stored, hstored, hcolumns⟩
    · exact .inr ⟨row, hold, rfl⟩
    · obtain ⟨item, -, -, hshape⟩ := shaped_mem hpage hstored
      rw [hcolumns]
      exact .inl (shapeProduct_lastSuccessfulRead hshape)
  | entity item owned shapedAt now' =>
    subst hnow
    cases h
    cases hstore : storeEntity u printable owned connectorId item shapedAt now' p.cache with
    | none =>
      simp only [hstore, getD_none] at hrow
      exact .inr ⟨row, hrow, rfl⟩
    | some c =>
      simp only [hstore, getD_some] at hrow
      dsimp only [storeEntity] at hstore
      split at hstore
      · cases hstore
        exact .inr ⟨row, hrow, rfl⟩
      split at hstore
      · unfold markNotFound at hstore
        split at hstore
        · cases hstore
        cases hstore
        rcases Table.mem_set.mp hrow with ⟨old, hold, -, rfl⟩ | ⟨hold, -⟩
        · exact .inr ⟨old, hold, rfl⟩
        · exact .inr ⟨row, hold, rfl⟩
      · simp only [bind_eq_bind, bind_eq_some_iff] at hstore
        obtain ⟨columns, hshape, hstore⟩ := hstore
        unfold upsert at hstore
        split at hstore
        · cases hstore
        cases hstore
        rcases mem_put hrow with hold | hcolumns
        · exact .inr ⟨row, hold, rfl⟩
        · rw [hcolumns]
          exact .inl (shapeProduct_lastSuccessfulRead hshape)

/-- What the sweep leaves as it is was fetched since the start. -/
theorem sweep_row (startedAt : Time) (cache : Cache) (id : String) :
    (∀ row ∈ (sweep connectorId startedAt cache).row connectorId id, row.columns.exists_ = true) ↔
      ∀ row ∈ cache.row connectorId id, row.columns.exists_ = true ∧
        row.lastFetchedAt.any (fun t => decide (startedAt ≤ t)) = true := by
  have hget : (sweep connectorId startedAt cache).row connectorId id =
      (cache.row connectorId id).map fun row =>
        if row.unseen connectorId startedAt then
          { row with columns := { row.columns with exists_ := false }, freshness := .stale }
        else row := by
    refine Table.get_map fun row => ?_
    split <;> rfl
  rw [hget]
  cases hrow : cache.row connectorId id with
  | none => simp
  | some row =>
    have hconnector : row.connectorId = connectorId := (Prod.mk.inj (Table.get_some hrow).2).1
    simp only [map_some, mem_def, some.injEq, forall_eq']
    cases hfetched : row.lastFetchedAt with
    | none => simp [DlProductCache.unseen, hconnector, hfetched]
    | some t =>
      by_cases hlate : startedAt ≤ t
      · simp [DlProductCache.unseen, hfetched, hlate, Nat.not_lt.mpr hlate]
      · simp [DlProductCache.unseen, hconnector, hfetched, hlate, Nat.lt_of_not_le hlate]

end

namespace Sample

def item (id : String) (modified : List (String × Json)) : Json :=
  .obj ([("product_id", .str id), ("price", .int 10)] ++ modified)

def modified (text : String) : List (String × Json) := [("last_modified", .str text)]

/-- The row that a full read at noon leaves of a dated product. -/
def stored : Cache :=
  ((shapeProduct .ascii (fun _ => true) 12 (item "7" (modified "2024-01-02T00:00:00"))).map
    fun columns => written "woo" "7" columns 12).toList

def pages (owned : Owned) (modified : List (String × Json)) : List Event :=
  [.page [item "7" modified] owned 14 14]

/-- A full read at one o'clock whose only page lists the product. -/
def reread (owned : Owned) (modified : List (String × Json)) : Option Cache :=
  runFull .ascii (fun _ => true) .postgresql "woo" 13 (pages owned modified) stored

def rereadExists (owned : Owned) (modified : List (String × Json)) : Option Bool :=
  (reread owned modified).bind fun cache => (cache.row "woo" "7").map (·.columns.exists_)

/-- The read is completed, and does not spare what it names. -/
def Marks (owned : Owned) (modified : List (String × Json)) : Prop :=
  ∃ final, reread owned modified = some final ∧
    ¬ Spares .ascii (fun _ => true) "woo" (pages owned modified) final

theorem not_spares {owned : Owned}
    {modified : List (String × Json)} (h : rereadExists owned modified = some false)
    (listed : productId .ascii (fun _ => true) (item "7" modified) = "7") :
    Marks owned modified := by
  obtain ⟨final, hfinal, hrow⟩ := bind_eq_some_iff.mp h
  obtain ⟨row, hget, hmissing⟩ := map_eq_some_iff.mp hrow
  refine ⟨final, hfinal, fun spares => ?_⟩
  refine spares "7" row hget hmissing _ mem_cons_self ⟨by decide, ?_⟩
  exact mem_map.mpr ⟨_, mem_cons_self, listed⟩

end Sample

end FlowHub.ReadEngine
