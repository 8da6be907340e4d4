import FlowHub.Connectors.SnappShop

namespace FlowHub.Connectors.SnappShop

open Python Channels List

section Walk

variable (rt : Runtime) (provider : Provider) (vendorId : String)

/-- The page that a scan asks for after a page. -/
def next (page : Int) : Option Int :=
  match listProductsPage rt provider vendorId page with
  | .ok result => result.pagination.onward page
  | .error _ => none

/-- The page that the links of a page lead to. -/
def linked (page : Int) : Option Int :=
  match listProductsPage rt provider vendorId page with
  | .ok result => result.pagination.linked page
  | .error _ => none

def Lists (page : Int) (id : String) : Prop :=
  ∃ result, listProductsPage rt provider vendorId page = .ok result ∧
    ∃ product ∈ result.items, externalId product = id

/-- A page that a scan can come to. -/
def Scanned (page : Int) : Prop := Reached (next rt provider vendorId) 1 page

variable (req : CurrentStateRequest)

/-- What holds of a scan before each round. -/
structure Scanning (s : Scan) : Prop where
  trail : Walk (next rt provider vendorId) 1 s.visited s.page
  read : ∀ page ∈ s.visited, ∃ result, listProductsPage rt provider vendorId page = .ok result
  pending : ∀ e, e ∈ s.pending ↔
    e ∈ req.entities ∧ ∀ page ∈ s.visited, ¬Lists rt provider vendorId page e.externalId
  keys : (s.records.map Prod.fst ++ s.pending.map CurrentStateIdentity.key).Perm
    (req.entities.map CurrentStateIdentity.key)

/-- What holds of a scan that has ended. -/
structure Ended (s : Scan) (failure : Option Failure) : Prop where
  once : s.visited.Nodup
  read : failure = none →
    ∀ page ∈ s.visited, ∃ result, listProductsPage rt provider vendorId page = .ok result
  pending : ∀ e, e ∈ s.pending ↔ e ∈ req.entities ∧ ∀ page, Scanned rt provider vendorId page →
      ¬Lists rt provider vendorId page e.externalId
  keys : (s.records.map Prod.fst ++ s.pending.map CurrentStateIdentity.key).Perm
    (req.entities.map CurrentStateIdentity.key)
  failed : ∀ f ∈ failure, s.pending ≠ [] ∧ ∃ page ∈ s.visited, Scanned rt provider vendorId page ∧
      listProductsPage rt provider vendorId page = .error f
  through : failure = none → s.pending ≠ [] → {page | Scanned rt provider vendorId page}.Finite ∧
      ∀ page, Scanned rt provider vendorId page →
        ∃ result, listProductsPage rt provider vendorId page = .ok result

variable {rt provider vendorId req}

variable (products : List ChannelProduct)

@[simp] theorem found_page (s : Scan) : (products.foldl (Scan.found rt) s).page = s.page := by
  induction products generalizing s with
  | nil => rfl
  | cons product rest ih => exact ih (s.found rt product)

@[simp] theorem found_visited (s : Scan) : (products.foldl (Scan.found rt) s).visited = s.visited := by
  induction products generalizing s with
  | nil => rfl
  | cons product rest ih => exact ih (s.found rt product)

theorem mem_found_pending (s : Scan) (e : CurrentStateIdentity) :
    e ∈ (products.foldl (Scan.found rt) s).pending ↔
      e ∈ s.pending ∧ ∀ product ∈ products, externalId product ≠ e.externalId := by
  induction products generalizing s with
  | nil => simp
  | cons product rest ih =>
    rw [foldl_cons, ih]
    simp [Scan.found, mem_filter, decide_eq_true_eq, forall_mem_cons, and_assoc, ne_comm]

theorem found_keys (s : Scan) :
    ((products.foldl (Scan.found rt) s).records.map Prod.fst ++
      (products.foldl (Scan.found rt) s).pending.map CurrentStateIdentity.key).Perm
        (s.records.map Prod.fst ++ s.pending.map CurrentStateIdentity.key) := by
  induction products generalizing s with
  | nil => exact .refl _
  | cons product rest ih =>
    refine (ih (s.found rt product)).trans ?_
    have hperm := (filter_append_perm (fun e => decide (e.externalId = externalId product)) s.pending).map
      CurrentStateIdentity.key
    simpa [Scan.found, Function.comp_def] using hperm.append_left (s.records.map Prod.fst)

theorem start_scanning : Scanning rt provider vendorId req (scanStart req) where
  trail := .start
  read := nofun
  pending e := by simp [scanStart]
  keys := .refl _

theorem next_of_ok {page : Int} {result : PaginatedResult ChannelProduct}
    (h : listProductsPage rt provider vendorId page = .ok result) :
    next rt provider vendorId page = result.pagination.onward page := by
  simp [next, h]

theorem next_of_error {page : Int} {failure : Failure}
    (h : listProductsPage rt provider vendorId page = .error failure) :
    next rt provider vendorId page = none := by
  simp [next, h]

theorem lists_of_ok {id : String} (h : listProductsPage rt provider vendorId page = .ok result) :
    Lists rt provider vendorId page id ↔ ∃ product ∈ result.items, externalId product = id := by
  constructor
  · rintro ⟨result', h', hlists⟩
    rw [h] at h'
    cases h'
    exact hlists
  · exact fun hlists => ⟨result, h, hlists⟩

theorem not_lists_of_error {page : Int} {failure : Failure} {id : String}
    (h : listProductsPage rt provider vendorId page = .error failure) :
    ¬Lists rt provider vendorId page id := by
  rintro ⟨result, h', -⟩
  rw [h] at h'
  cases h'

def Scan.reading (rt : Runtime) (s : Scan) (result : PaginatedResult ChannelProduct) : Scan :=
  result.items.foldl (Scan.found rt) { s with visited := s.page :: s.visited }

/-- A round goes on with a page that is new and leads to another. -/
theorem scanPage_inl (h : scanPage rt provider vendorId s = .inl s') :
    s.pending ≠ [] ∧ s.page ∉ s.visited ∧ ∃ result page,
      listProductsPage rt provider vendorId s.page = .ok result ∧
        result.pagination.onward s.page = some page ∧ s' = { s.reading rt result with page } := by
  unfold scanPage at h
  split at h
  · cases h
  rename_i hgo
  have hgo' : s.pending ≠ [] ∧ s.page ∉ s.visited := by simpa using hgo
  refine ⟨hgo'.1, hgo'.2, ?_⟩
  cases hpage : listProductsPage rt provider vendorId s.page with
  | error failure => simp [hpage] at h
  | ok result =>
    simp only [hpage, found_page] at h
    cases honward : result.pagination.onward s.page with
    | none => simp [honward] at h
    | some page =>
      simp only [honward, Sum.inl.injEq] at h
      exact ⟨result, page, rfl, honward, h.symm⟩

/-- The scan ends with all entities found, at a page it has been at, with an error, or at a last page. -/
theorem scanPage_inr {s s' : Scan} {failure : Option Failure}
    (h : scanPage rt provider vendorId s = .inr (s', failure)) :
    (s' = s ∧ failure = none ∧ (s.pending = [] ∨ s.page ∈ s.visited)) ∨
    (s.pending ≠ [] ∧ s.page ∉ s.visited ∧
      ((∃ f, listProductsPage rt provider vendorId s.page = .error f ∧ failure = some f ∧
          s' = { s with visited := s.page :: s.visited }) ∨
        ∃ result, listProductsPage rt provider vendorId s.page = .ok result ∧ failure = none ∧
          result.pagination.onward s.page = none ∧ s' = s.reading rt result)) := by
  unfold scanPage at h
  split at h
  · rename_i hstop
    cases h
    exact .inl ⟨rfl, rfl, by simpa using hstop⟩
  · rename_i hgo
    have hgo' : s.pending ≠ [] ∧ s.page ∉ s.visited := by simpa using hgo
    refine .inr ⟨hgo'.1, hgo'.2, ?_⟩
    cases hpage : listProductsPage rt provider vendorId s.page with
    | error f =>
      simp only [hpage, Sum.inr.injEq, Prod.mk.injEq] at h
      exact .inl ⟨f, rfl, h.2.symm, h.1.symm⟩
    | ok result =>
      simp only [hpage, found_page] at h
      cases honward : result.pagination.onward s.page with
      | some page => simp [honward] at h
      | none =>
        simp only [honward, Sum.inr.injEq, Prod.mk.injEq] at h
        exact .inr ⟨result, rfl, h.2.symm, honward, h.1.symm⟩

namespace Scanning

variable {failure : Option Failure}

theorem reading_read (h : Scanning rt provider vendorId req s)
    (hok : listProductsPage rt provider vendorId s.page = .ok result) :
    ∀ page ∈ s.page :: s.visited, ∃ result, listProductsPage rt provider vendorId page = .ok result := by
  intro page hpage
  rcases mem_cons.mp hpage with rfl | hpage
  · exact ⟨result, hok⟩
  · exact h.read page hpage

theorem reading_pending (h : Scanning rt provider vendorId req s)
    (hok : listProductsPage rt provider vendorId s.page = .ok result) (e : CurrentStateIdentity) :
    e ∈ (s.reading rt result).pending ↔ e ∈ req.entities ∧
      ∀ page ∈ s.page :: s.visited, ¬Lists rt provider vendorId page e.externalId := by
  unfold Scan.reading
  rw [mem_found_pending]
  rw [h.pending e, forall_mem_cons, lists_of_ok hok]
  constructor
  · rintro ⟨⟨hmem, hvisited⟩, hnew⟩
    refine ⟨hmem, ?_, hvisited⟩
    rintro ⟨product, hproduct, hid⟩
    exact hnew product hproduct hid
  · rintro ⟨hmem, hnew, hvisited⟩
    exact ⟨⟨hmem, hvisited⟩, fun product hproduct hid => hnew ⟨product, hproduct, hid⟩⟩

theorem reading_keys (h : Scanning rt provider vendorId req s) :
    ((s.reading rt result).records.map Prod.fst ++
      (s.reading rt result).pending.map CurrentStateIdentity.key).Perm
        (req.entities.map CurrentStateIdentity.key) :=
  (found_keys result.items { s with visited := s.page :: s.visited }).trans h.keys

theorem round (h : Scanning rt provider vendorId req s)
    (hround : scanPage rt provider vendorId s = .inl s') : Scanning rt provider vendorId req s' := by
  obtain ⟨-, hnew, result, page, hok, honward, rfl⟩ := scanPage_inl hround
  have hvisited : (s.reading rt result).visited = s.page :: s.visited := found_visited _ _
  have hlink : next rt provider vendorId s.page = some page := (next_of_ok hok).trans honward
  constructor
  · dsimp only
    rw [hvisited]
    exact .follow h.trail hnew hlink
  · dsimp only
    rw [hvisited]
    exact h.reading_read hok
  · intro e
    rw [hvisited]
    exact h.reading_pending hok e
  · exact h.reading_keys

theorem scanned_of_mem (h : Scanning rt provider vendorId req s) {page : Int}
    (hpage : page ∈ s.page :: s.visited) : Scanned rt provider vendorId page := by
  rcases mem_cons.mp hpage with rfl | hpage
  · exact h.trail.reached
  · exact h.trail.reached_of_mem hpage

/-- An entity that is on none of the pages behind is on no page, if they are all there are. -/
theorem pending_iff {pages : List Int} {pending : List CurrentStateIdentity}
    (hscanned : ∀ page ∈ pages, Scanned rt provider vendorId page)
    (hall : ∀ page, Scanned rt provider vendorId page → page ∈ pages ∨
      ∀ id, ¬Lists rt provider vendorId page id)
    (h : ∀ e, e ∈ pending ↔ e ∈ req.entities ∧
      ∀ page ∈ pages, ¬Lists rt provider vendorId page e.externalId) (e : CurrentStateIdentity) :
    e ∈ pending ↔ e ∈ req.entities ∧ ∀ page, Scanned rt provider vendorId page →
      ¬Lists rt provider vendorId page e.externalId := by
  rw [h e]
  constructor
  · rintro ⟨hmem, hpages⟩
    refine ⟨hmem, ?_⟩
    intro page hpage
    rcases hall page hpage with hin | hnone
    · exact hpages page hin
    · exact hnone e.externalId
  · rintro ⟨hmem, hpages⟩
    exact ⟨hmem, fun page hpage => hpages page (hscanned page hpage)⟩

theorem ended (h : Scanning rt provider vendorId req s)
    (hend : scanPage rt provider vendorId s = .inr (s', failure)) :
    Ended rt provider vendorId req s' failure := by
  have hbehind : ∀ page ∈ s.visited, Scanned rt provider vendorId page :=
    fun page hpage => h.trail.reached_of_mem hpage
  rcases scanPage_inr hend with ⟨rfl, rfl, hstop⟩ | ⟨hpending, hnew, hrest⟩
  · by_cases hempty : s'.pending = []
    · refine ⟨h.trail.nodup, fun _ => h.read, ?_, h.keys, nofun, fun _ hne => absurd hempty hne⟩
      intro e
      constructor
      · intro he
        rw [hempty] at he
        cases he
      · rintro ⟨hmem, hpages⟩
        exact (h.pending e).mpr ⟨hmem, fun page hpage => hpages page (hbehind page hpage)⟩
    · have hseen : s'.page ∈ s'.visited := hstop.resolve_left hempty
      have hall : ∀ page, Scanned rt provider vendorId page → page ∈ s'.visited :=
        fun page hpage => h.trail.closed hseen hpage
      refine ⟨h.trail.nodup, fun _ => h.read, ?_, h.keys, nofun, ?_⟩
      · exact pending_iff hbehind (fun page hpage => .inl (hall page hpage)) h.pending
      · intro _ _
        exact ⟨s'.visited.finite_toSet.subset hall, fun page hpage => h.read page (hall page hpage)⟩
  · have hnodup : (s.page :: s.visited).Nodup := nodup_cons.mpr ⟨hnew, h.trail.nodup⟩
    rcases hrest with ⟨f, herror, rfl, rfl⟩ | ⟨result, hok, rfl, honward, rfl⟩
    · have hlast := next_of_error herror
      refine ⟨hnodup, nofun, ?_, h.keys, ?_, nofun⟩
      · refine pending_iff hbehind ?_ h.pending
        intro page hpage
        rcases mem_cons.mp (h.trail.ended hlast hpage) with rfl | hvisited
        · exact .inr fun id => not_lists_of_error herror
        · exact .inl hvisited
      · intro f' hf
        cases hf
        exact ⟨hpending, s.page, mem_cons_self, h.trail.reached, herror⟩
    · have hlast : next rt provider vendorId s.page = none := (next_of_ok hok).trans honward
      have hvisited : (s.reading rt result).visited = s.page :: s.visited := found_visited _ _
      have hall : ∀ page, Scanned rt provider vendorId page → page ∈ s.page :: s.visited :=
        fun page hpage => h.trail.ended hlast hpage
      refine ⟨hvisited ▸ hnodup, ?_, ?_, h.reading_keys, nofun, ?_⟩
      · intro _
        rw [hvisited]
        exact h.reading_read hok
      · exact pending_iff (fun page hpage => h.scanned_of_mem hpage)
          (fun page hpage => .inl (hall page hpage)) (h.reading_pending hok)
      · intro _ _
        exact ⟨(s.page :: s.visited).finite_toSet.subset hall,
          fun page hpage => h.reading_read hok page (hall page hpage)⟩

end Scanning

/-- A scan ends if it keeps to finitely many pages as long as it looks for an entity. -/
theorem leaves_of_bounded {places : Set Int} (hfin : places.Finite)
    (hplaces : ∀ s, Scanning rt provider vendorId req s → s.pending ≠ [] → s.page ∈ places) :
    ∃ r, Leaves (scanPage rt provider vendorId) (scanStart req) r := by
  apply exists_leaves
    (fun s => Scanning rt provider vendorId req s ∧ ∀ page ∈ s.visited, page ∈ places)
    (fun s => s.visited.length) hfin.toFinset.card
  · intro s s' hs hround
    obtain ⟨hpending, -, result, page, -, -, rfl⟩ := scanPage_inl hround
    have hvisited : (s.reading rt result).visited = s.page :: s.visited := found_visited _ _
    refine ⟨⟨hs.1.round hround, ?_⟩, ?_⟩
    · dsimp only
      rw [hvisited]
      exact forall_mem_cons.mpr ⟨hplaces s hs.1 hpending, hs.2⟩
    · dsimp only
      rw [hvisited, length_cons]
      exact Nat.lt_succ_self _
  · intro s hs
    exact Walk.length_le hfin hs.1.trail.nodup hs.2
  · exact ⟨start_scanning, nofun⟩

theorem leaves_of_finite (hfin : {page | Scanned rt provider vendorId page}.Finite) :
    ∃ r, Leaves (scanPage rt provider vendorId) (scanStart req) r :=
  leaves_of_bounded hfin fun _ hs _ => hs.trail.reached

theorem leaves_of_found
    (h : ∀ e ∈ req.entities, ∃ page, Scanned rt provider vendorId page ∧
      Lists rt provider vendorId page e.externalId) :
    ∃ r, Leaves (scanPage rt provider vendorId) (scanStart req) r := by
  obtain ⟨places, hfin, hpaths⟩ := exists_paths req.entities h
  apply leaves_of_bounded hfin
  intro s hs hpending
  obtain ⟨e, he⟩ := exists_mem_of_ne_nil _ hpending
  obtain ⟨hmem, hunseen⟩ := (hs.pending e).mp he
  obtain ⟨page, path, hlists, hsub, hpath⟩ := hpaths e hmem
  have hnot : page ∉ s.visited := fun hvisited => hunseen page hvisited hlists
  exact hsub (hpath.keeps hs.trail hnot).1

end Walk

section Law

variable (rt : Runtime) (provider : Provider) (configured : Option String)

/-- A page that a call can ask for lists the entity. -/
def OnScan (e : CurrentStateIdentity) : Prop :=
  ∃ vendorId page, selectedVendorId rt provider configured = .ok vendorId ∧
    Scanned rt provider vendorId page ∧ Lists rt provider vendorId page e.externalId

/-- A page that the links lead to lists the entity. -/
def OnLinks (e : CurrentStateIdentity) : Prop :=
  ∃ vendorId page, selectedVendorId rt provider configured = .ok vendorId ∧
    Reached (linked rt provider vendorId) 1 page ∧ Lists rt provider vendorId page e.externalId

/-- A request that a call can make fails. -/
def Fails (failure : Failure) : Prop :=
  selectedVendorId rt provider configured = .error failure ∨
    ∃ vendorId page, selectedVendorId rt provider configured = .ok vendorId ∧
      Scanned rt provider vendorId page ∧ listProductsPage rt provider vendorId page = .error failure

/-- A call can ask for finitely many pages. -/
def FinitelyMany : Prop :=
  ∀ vendorId, selectedVendorId rt provider configured = .ok vendorId →
    {page | Scanned rt provider vendorId page}.Finite

/-- None of the requests of a call that asked for these pages failed. -/
def NoneFailed (pages : List Int) : Prop :=
  ∃ vendorId, selectedVendorId rt provider configured = .ok vendorId ∧
    ∀ page ∈ pages, ∃ result, listProductsPage rt provider vendorId page = .ok result

/-- No page is asked for twice, each entity has one record or one error, and an entity that is reported
as not found is on no page that the links lead to, with no request failed. -/
structure Answers (req : CurrentStateRequest) (pages : List Int) (result : CurrentStateResult) : Prop where
  once : pages.Nodup
  oneEach : result.OneEach req
  absent : ∀ e ∈ req.entities, ∀ error, (e.key, error) ∈ result.errors → error.category = "not_found" →
    NoneFailed rt provider configured pages ∧ ¬OnLinks rt provider configured e

def Failure.isNotFound : Failure → Bool
  | .connectorError .notFound _ _ => true
  | _ => false

/-- What a call comes to. -/
structure Concluded (req : CurrentStateRequest) (pages : List Int) (s : Scan) (failure : Option Failure) :
    Prop where
  once : pages.Nodup
  keys : (s.records.map Prod.fst ++ s.pending.map CurrentStateIdentity.key).Perm
    (req.entities.map CurrentStateIdentity.key)
  pending : ∀ e, e ∈ s.pending ↔ e ∈ req.entities ∧ ¬OnScan rt provider configured e
  failed : ∀ f ∈ failure, Fails rt provider configured f ∧ ¬NoneFailed rt provider configured pages
  through : failure = none → s.pending ≠ [] → FinitelyMany rt provider configured ∧
    (∀ f, ¬Fails rt provider configured f) ∧ NoneFailed rt provider configured pages

/-- The call finds every entity; or a request fails, but not as not found; or no request fails, the pages
are finitely many, and no entity is only behind a link that the scan does not follow. -/
def Scannable (req : CurrentStateRequest) : Prop :=
  (∀ e ∈ req.entities, OnScan rt provider configured e) ∨
  (∃ f, Fails rt provider configured f ∧ f.isNotFound = false) ∨
  (FinitelyMany rt provider configured ∧ (∀ f, ¬Fails rt provider configured f) ∧
    ∀ e ∈ req.entities, OnLinks rt provider configured e → OnScan rt provider configured e)

variable {rt provider configured}

theorem errorOf_notFound (failure : Failure) :
    (errorOf (some failure)).category = "not_found" ↔ failure.isNotFound = true := by
  cases failure with
  | raised => decide
  | connectorError category message retryable => cases category <;> simp [errorOf, Failure.isNotFound, ConnectorErrorCategory.value]

theorem fails_unique (h : Fails rt provider configured f)
    (h' : Fails rt provider configured f') : f = f' := by
  rcases h with h | ⟨vendorId, page, hvendor, hpage, herror⟩
  · rcases h' with h' | ⟨vendorId, page, hvendor, -, -⟩
    · rw [h] at h'
      cases h'
      rfl
    · rw [h] at hvendor
      cases hvendor
  · rcases h' with h' | ⟨vendorId', page', hvendor', hpage', herror'⟩
    · rw [hvendor] at h'
      cases h'
    · rw [hvendor] at hvendor'
      cases hvendor'
      have heq := hpage.last_unique hpage' (next_of_error herror) (next_of_error herror')
      rw [heq, herror'] at herror
      cases herror
      rfl

theorem concluded_of_ended {vendorId : String} {s : Scan} {failure : Option Failure}
    (hvendor : selectedVendorId rt provider configured = .ok vendorId)
    (h : Ended rt provider vendorId req s failure) :
    Concluded rt provider configured req s.visited.reverse s failure := by
  have honly : ∀ {v}, selectedVendorId rt provider configured = .ok v → v = vendorId := by
    intro v hv
    rw [hvendor] at hv
    cases hv
    rfl
  refine ⟨nodup_reverse.mpr h.once, h.keys, ?_, ?_, ?_⟩
  · intro e
    rw [h.pending e]
    refine and_congr_right fun _ => ?_
    constructor
    · rintro hnone ⟨v, page, hv, hpage, hlists⟩
      cases honly hv
      exact hnone page hpage hlists
    · intro hnone page hpage hlists
      exact hnone ⟨vendorId, page, hvendor, hpage, hlists⟩
  · intro f hf
    obtain ⟨-, page, hpage, hscanned, herror⟩ := h.failed f hf
    refine ⟨.inr ⟨vendorId, page, hvendor, hscanned, herror⟩, ?_⟩
    rintro ⟨v, hv, hread⟩
    cases honly hv
    obtain ⟨result, hok⟩ := hread page (mem_reverse.mpr hpage)
    rw [herror] at hok
    cases hok
  · intro hnone hpending
    obtain ⟨hfin, hread⟩ := h.through hnone hpending
    refine ⟨?_, ?_, vendorId, hvendor, ?_⟩
    · intro v hv
      cases honly hv
      exact hfin
    · rintro f (hf | ⟨v, page, hv, hpage, herror⟩)
      · rw [hvendor] at hf
        cases hf
      · cases honly hv
        obtain ⟨result, hok⟩ := hread page hpage
        rw [herror] at hok
        cases hok
    · exact fun page hpage => h.read hnone page (mem_reverse.mp hpage)

theorem concluded_of_error {f : Failure} (h : selectedVendorId rt provider configured = .error f) :
    Concluded rt provider configured req [] (scanStart req) (some f) := by
  refine ⟨nodup_nil, .refl _, ?_, ?_, nofun⟩
  · intro e
    refine ⟨fun he => ⟨he, ?_⟩, fun he => he.1⟩
    rintro ⟨v, page, hv, -, -⟩
    rw [h] at hv
    cases hv
  · intro f' hf
    cases hf
    refine ⟨.inl h, ?_⟩
    rintro ⟨v, hv, -⟩
    rw [h] at hv
    cases hv

theorem answers_iff {pages : List Int} {s : Scan} {failure : Option Failure}
    (h : Concluded rt provider configured req pages s failure) :
    (∃ result, report req s failure = .ok result ∧ Answers rt provider configured req pages result) ↔
      Scannable rt provider configured req := by
  have hkeys : (s.records.map Prod.fst ++ (s.pending.map fun e => (e.key, errorOf failure)).map Prod.fst).Perm
        (req.entities.map CurrentStateIdentity.key) := by
    simpa [Function.comp_def] using h.keys
  obtain ⟨result, hresult, -, herrors, honeEach⟩ := CurrentStateResult.postInit_oneEach hkeys
  have hanswers : (∃ result, report req s failure = .ok result ∧
      Answers rt provider configured req pages result) ↔
        ((errorOf failure).category = "not_found" → ∀ e ∈ s.pending,
          NoneFailed rt provider configured pages ∧ ¬OnLinks rt provider configured e) := by
    constructor
    · rintro ⟨result', hresult', hanswers⟩ hcategory e he
      unfold report at hresult'
      rw [hresult] at hresult'
      cases hresult'
      refine hanswers.absent e ((h.pending e).mp he).1 (errorOf failure) ?_ hcategory
      rw [herrors]
      exact mem_map.mpr ⟨e, he, rfl⟩
    · intro habsent
      refine ⟨result, hresult, h.once, honeEach, ?_⟩
      intro e he error herror hcategory
      rw [herrors] at herror
      obtain ⟨e', he', heq⟩ := mem_map.mp herror
      obtain ⟨hkey, rfl⟩ := Prod.mk.inj heq
      have hsame : e' = e :=
        inj_on_of_nodup_map req.distinct ((h.pending e').mp he').1 he hkey
      rw [← hsame]
      exact habsent hcategory e' he'
  rw [hanswers]
  by_cases hpending : s.pending = []
  · have hfound : ∀ e ∈ req.entities, OnScan rt provider configured e := by
      intro e he
      by_contra hnot
      have hmem := (h.pending e).mpr ⟨he, hnot⟩
      rw [hpending] at hmem
      cases hmem
    constructor
    · exact fun _ => .inl hfound
    · intro _ _ e he
      rw [hpending] at he
      cases he
  · obtain ⟨e₀, he₀⟩ := exists_mem_of_ne_nil _ hpending
    have hunfound : ¬∀ e ∈ req.entities, OnScan rt provider configured e :=
      fun hall => ((h.pending e₀).mp he₀).2 (hall e₀ ((h.pending e₀).mp he₀).1)
    cases failure with
    | some f =>
      obtain ⟨hfails, hfailed⟩ := h.failed f rfl
      rw [errorOf_notFound]
      constructor
      · intro habsent
        refine .inr (.inl ⟨f, hfails, ?_⟩)
        by_contra hnotFound
        exact hfailed (habsent (by simpa using hnotFound) e₀ he₀).1
      · rintro (hall | ⟨f', hfails', hother⟩ | ⟨-, hnone, -⟩) hnotFound
        · exact absurd hall hunfound
        · rw [fails_unique hfails hfails', hother] at hnotFound
          cases hnotFound
        · exact absurd hfails (hnone f)
    | none =>
      obtain ⟨hfin, hnone, hread⟩ := h.through rfl hpending
      constructor
      · intro habsent
        refine .inr (.inr ⟨hfin, hnone, ?_⟩)
        intro e he hlinks
        by_contra hnot
        exact (habsent rfl e ((h.pending e).mpr ⟨he, hnot⟩)).2 hlinks
      · rintro (hall | ⟨f', hfails', -⟩ | ⟨-, -, hlinks⟩) - e he
        · exact absurd hall hunfound
        · exact absurd hfails' (hnone f')
        · obtain ⟨hmem, hnot⟩ := (h.pending e).mp he
          exact ⟨hread, fun honLinks => hnot (hlinks e hmem honLinks)⟩

/-- A call that can answer as it should does end. -/
theorem leaves_of_scannable {vendorId : String}
    (hvendor : selectedVendorId rt provider configured = .ok vendorId)
    (h : Scannable rt provider configured req) :
    ∃ r, Leaves (scanPage rt provider vendorId) (scanStart req) r := by
  rcases h with hall | ⟨f, hfails, -⟩ | ⟨hfin, -, -⟩
  · apply leaves_of_found
    intro e he
    obtain ⟨v, page, hv, hpage, hlists⟩ := hall e he
    rw [hvendor] at hv
    cases hv
    exact ⟨page, hpage, hlists⟩
  · rcases hfails with herror | ⟨v, page, hv, hpage, herror⟩
    · rw [hvendor] at herror
      cases herror
    · rw [hvendor] at hv
      cases hv
      exact leaves_of_finite (hpage.finite (next_of_error herror))
  · exact leaves_of_finite (hfin vendorId hvendor)

end Law

/-- `fetch_current_state` ends, asks for no page twice, and answers each entity with a record or an
error, which is that it was not found only if no page that the links lead to lists it and no request
failed: for a request of another channel, and for a collection that can be scanned. -/
theorem fetchCurrentState_iff (rt : Runtime) (channelId : Id) (configured : Option String)
    (provider : Provider) (req : CurrentStateRequest) :
    (∃ fuel pages result,
      fetchCurrentState rt channelId configured provider req fuel = some (pages, .ok result) ∧
        Answers rt provider configured req pages result) ↔
      req.channelId ≠ channelId ∨ Scannable rt provider configured req := by
  unfold fetchCurrentState
  by_cases hchannel : req.channelId = channelId
  · simp only [hchannel, ne_eq, not_true_eq_false, if_false, false_or]
    cases hvendor : selectedVendorId rt provider configured with
    | error f =>
      rw [← answers_iff (concluded_of_error hvendor)]
      simp
    | ok vendorId =>
      dsimp only
      constructor
      · rintro ⟨fuel, pages, result, hcall, hanswers⟩
        obtain ⟨⟨s, failure⟩, hloop, hreport⟩ := Option.map_eq_some_iff.mp hcall
        obtain ⟨hpages, hresult⟩ := Prod.mk.inj hreport
        obtain ⟨last, hlast, hend⟩ :=
          (leaves_of_loop hloop).invariant (fun _ _ hs hround => hs.round hround) start_scanning
        rw [← answers_iff (concluded_of_ended hvendor (hlast.ended hend)), hpages]
        exact ⟨result, hresult, hanswers⟩
      · intro hscannable
        obtain ⟨⟨s, failure⟩, hleaves⟩ := leaves_of_scannable hvendor hscannable
        obtain ⟨last, hlast, hend⟩ :=
          hleaves.invariant (fun _ _ hs hround => hs.round hround) start_scanning
        obtain ⟨result, hresult, hanswers⟩ :=
          (answers_iff (concluded_of_ended hvendor (hlast.ended hend))).mpr hscannable
        obtain ⟨rounds, hrounds⟩ := hleaves.loop
        refine ⟨rounds, s.visited.reverse, result, ?_, hanswers⟩
        rw [hrounds rounds (Nat.le_refl _), Option.map_some, hresult]
  · simp only [hchannel, ne_eq, not_false_eq_true, if_true, true_or, iff_true]
    refine ⟨0, [], _, rfl, nodup_nil, ?_, ?_⟩
    · simp [CurrentStateResult.OneEach, failedCurrentState, Function.comp_def]
    intro e he error herror hcategory
    simp only [failedCurrentState, mem_map, Prod.mk.injEq] at herror
    obtain ⟨e', -, -, rfl⟩ := herror
    exact absurd hcategory (by decide)

namespace Sample

def rt : Runtime := ⟨.ascii, fun c => decide (32 ≤ c.toNat), fun _ => .ok none⟩

def entity : CurrentStateIdentity := ⟨"listing:1", "7", none, none⟩

def oneEntity : CurrentStateRequest where
  channelId := "snappshop:main"
  entities := [entity]
  requiredFields := [.price]
  keyed := by decide
  distinct := by decide
  identified := by decide

/-- A provider that answers the same to every request for a page. -/
def always (exchange : Exchange) : Provider := ⟨.timeout, fun _ _ => exchange⟩

/-- A page without products, which says that it is the first of two and has no link. -/
def firstOfTwo : Exchange := .response 200 (some (.obj [("data", .arr []),
  ("meta", .obj [("pagination", .obj [("current_page", .int 1), ("total_pages", .int 2)])])]))

theorem firstOfTwo_page (page : Int) : listProductsPage rt (always firstOfTwo) "vendor" page =
      .ok ⟨[], .page ⟨1, 50, none, some 2, true, none⟩⟩ := rfl

theorem firstOfTwo_goes_on (s : Scan) (h : s.pending ≠ [] ∧ ∀ page ∈ s.visited, page < s.page) :
    ∃ next, scanPage rt (always firstOfTwo) "vendor" s = .inl next ∧
      next.pending ≠ [] ∧ ∀ page ∈ next.visited, page < next.page := by
  have hnew : s.page ∉ s.visited := fun hvisited => lt_irrefl _ (h.2 s.page hvisited)
  refine ⟨{ s with page := s.page + 1, visited := s.page :: s.visited }, ?_, h.1, ?_⟩
  · have hgo : ¬(s.pending.isEmpty || decide (s.page ∈ s.visited)) = true := by simp [h.1, hnew]
    unfold scanPage
    rw [if_neg hgo, firstOfTwo_page]
    rfl
  · intro page hpage
    rcases mem_cons.mp hpage with rfl | hpage
    · exact lt_add_one _
    · exact (h.2 page hpage).trans (lt_add_one _)

end Sample

open Sample

/-- A page that the provider answers with the status 404 is reported as a product that was not found; and
a provider whose pages say that another follows, but give no link, is asked for pages without end. -/
theorem scan_misleads :
    (∃ result, fetchCurrentState rt "snappshop:main" (some "vendor")
        (always (.response 404 (some (.obj [])))) oneEntity 1 = some ([1], .ok result) ∧
      ¬Answers rt (always (.response 404 (some (.obj [])))) (some "vendor") oneEntity
        [1] result) ∧
    ∀ fuel, fetchCurrentState rt "snappshop:main" (some "vendor")
      (always firstOfTwo) oneEntity fuel = none := by
  constructor
  · refine ⟨⟨[], [("listing:1", ⟨"not_found", "SnappShop resource was not found.", false⟩)], nofun⟩, rfl, ?_⟩
    intro h
    obtain ⟨⟨vendorId, hvendor, hread⟩, -⟩ :=
      h.absent entity mem_cons_self _ mem_cons_self rfl
    obtain ⟨result, hok⟩ := hread 1 mem_cons_self
    cases hok
  · intro fuel
    cases hcall : fetchCurrentState rt "snappshop:main" (some "vendor")
      (always firstOfTwo) oneEntity fuel with
    | none => rfl
    | some outcome =>
      obtain ⟨r, hloop, -⟩ := Option.map_eq_some_iff.mp hcall
      have hstart : (scanStart oneEntity).pending ≠ [] := cons_ne_nil _ _
      exact absurd (leaves_of_loop hloop) (not_leaves firstOfTwo_goes_on
        ⟨hstart, fun _ hpage => absurd hpage not_mem_nil⟩ r)

end FlowHub.Connectors.SnappShop
