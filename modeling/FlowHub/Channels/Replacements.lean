import FlowHub.Channels.ProductSync
import FlowHub.Related
import Mathlib.Data.List.Nodup

namespace FlowHub.Channels.ProductSync

open Python List Option

/-- No other run that goes on has read a page with one of these products. -/
def World.Unread (w : World) (self : Option Nat) (ids : List String) : Prop :=
  ∀ i r, w.runs[i]? = some r → r.phase.isOpen = true → some i ≠ self →
    ∀ page ∈ r.pages, ∀ id ∈ page.ids, id ∉ ids

/-- What is written is not on a page that a run has read and still holds, and no page that is read has
more behind a cursor. -/
def Undisturbed (w : World) : Action → Prop
  | .write ids _ => w.Unread none ids
  | .replace i _ => ∀ r, w.runs[i]? = some r → w.Unread (some i) (r.products.filterMap productId)
  | .answer _ (.page _ (.cursor p)) => p.hasMore = false
  | _ => True

/-- A replacement leaves one row for each product that the pages returned. They were asked for once each,
are at most so many, and the last one says that there are no more. -/
structure Replacement.Complete (rep : Replacement) (maxPages : Nat) : Prop where
  once : (rep.pages.map PageRead.number).Nodup
  limit : rep.pages.length ≤ maxPages
  last : ∃ page, rep.pages.getLast? = some page ∧ page.pagination.hasMore = false
  products : (rep.after.products.map ProductRow.productId).Nodup ∧
    ∀ id, id ∈ rep.after.products.map ProductRow.productId ↔ ∃ page ∈ rep.pages, id ∈ page.ids
  inventory : rep.after.inventory.map InventoryRow.productId = rep.after.products.map ProductRow.productId

/-- No product of a page was written after the page was read. -/
def Replacement.NotOlder (rep : Replacement) : Prop :=
  ∀ page ∈ rep.pages, ∀ id ∈ page.ids, id ∉ rep.log.drop page.seen

/-- The caches change by the writes of others and by replacements. A run that has completed made one,
which is complete; a run that has failed made none; and no replacement is older than what it replaces. -/
structure Lawful (u : Unicode) (w : World) : Prop where
  completed : ∀ i r, w.runs[i]? = some r → r.phase = .completed →
    r.visited = (r.pages.map PageRead.number).reverse ∧
      ∃ rep ∈ w.replacements, rep.run = i ∧ rep.pages = r.pages ∧ rep.Complete r.maxPages
  failed : ∀ i r, w.runs[i]? = some r → r.phase = .failed → ∀ rep ∈ w.replacements, rep.run ≠ i
  notOlder : ∀ rep ∈ w.replacements, rep.NotOlder
  kept : ∀ a w', Step u w a w' → w'.caches = w.caches ∨ (∃ ids after, a = .write ids after) ∨
    ∃ i r completedAt rep, a = .replace i completedAt ∧ w'.runs[i]? = some r ∧ r.phase = .completed ∧
      w'.replacements = w.replacements ++ [rep] ∧ rep.run = i ∧ rep.after = w'.caches

/-- The page that is being read. -/
def Run.underway (r : Run) : List Int :=
  match r.phase with
  | .reading page _ => [page]
  | _ => []

def Phase.lives : Phase → Bool
  | .failed | .crashed => false
  | _ => true

structure Run.Sound (r : Run) : Prop where
  nodup : r.visited.Nodup
  visited : r.visited = r.underway ++ (r.pages.map PageRead.number).reverse
  limit : r.pages.length + r.underway.length ≤ r.maxPages
  ids : r.identifiers = r.pages.flatMap PageRead.ids
  known : r.products.map productId = r.identifiers.map some
  distinct : r.identifiers.Nodup
  last : r.phase = .fetched ∨ r.phase = .completed →
    ∃ page, r.pages.getLast? = some page ∧ page.pagination.hasMore = false

section Run

variable {r r' : Run}

theorem start_sound (maxPages retryAttempts : Nat) : (Run.start maxPages retryAttempts).Sound where
  nodup := nodup_nil
  visited := rfl
  limit := Nat.zero_le _
  ids := rfl
  known := rfl
  distinct := nodup_nil
  last := by rintro (h | h) <;> cases h

theorem ask_sound (h : r.Sound) (hphase : r.phase = .asking page) (hlives : (r.ask page).phase.lives = true) :
    (r.ask page).Sound := by
  have hidle : r.underway = [] := by simp [Run.underway, hphase]
  have hvisited := h.visited
  unfold Run.ask at hlives ⊢
  split
  · rename_i hseen
    rw [if_pos hseen] at hlives
    cases hlives
  · rename_i hnew
    split
    · rename_i hlimit
      rw [if_neg hnew, if_pos hlimit] at hlives
      cases hlives
    · rename_i hlimit
      rw [hidle] at hvisited
      refine ⟨nodup_cons.mpr ⟨hnew, h.nodup⟩, ?_, ?_, h.ids, h.known, h.distinct, ?_⟩
      · exact congrArg (page :: ·) hvisited
      · change r.pages.length + 1 ≤ r.maxPages
        omega
      · rintro (hp | hp) <;> cases hp

/-- What the items of a page add. -/
structure Taken (r r' : Run) (items : List (Option ChannelProduct)) : Prop where
  same : r'.maxPages = r.maxPages ∧ r'.retryAttempts = r.retryAttempts ∧ r'.visited = r.visited ∧
    r'.pages = r.pages
  ids : r'.identifiers = r.identifiers ++ items.filterMap fun item => item.bind productId
  known : r.products.map productId = r.identifiers.map some →
    r'.products.map productId = r'.identifiers.map some
  distinct : r.identifiers.Nodup → r'.identifiers.Nodup

theorem take_taken (h : r.take item = some r') : Taken r r' [item] := by
  have hskip : ∀ {item : Option ChannelProduct}, item.bind productId = none →
      Taken r { r with skipped := r.skipped + 1 } [item] := by
    intro item hid
    exact ⟨⟨rfl, rfl, rfl, rfl⟩, by simp [hid], fun hknown => hknown, fun hdistinct => hdistinct⟩
  cases item with
  | none =>
    cases h
    exact hskip rfl
  | some product =>
    cases hid : productId product with
    | none =>
      simp only [Run.take, bind_some, hid, some.injEq] at h
      exact h ▸ hskip hid
    | some id =>
      simp only [Run.take, bind_some, hid] at h
      by_cases hseen : id ∈ r.identifiers
      · simp [hseen] at h
      simp only [hseen, if_false, some.injEq] at h
      subst h
      refine ⟨⟨rfl, rfl, rfl, rfl⟩, by simp [hid], ?_, ?_⟩
      · intro hknown
        simp [hknown, hid]
      · intro hdistinct
        simpa [nodup_append] using ⟨hdistinct, fun a ha heq => hseen (heq ▸ ha)⟩

theorem Taken.trans {r'' : Run} {items more : List (Option ChannelProduct)} (h : Taken r r' items)
    (h' : Taken r' r'' more) : Taken r r'' (items ++ more) := by
  obtain ⟨hmax, hretry, hvisited, hpages⟩ := h.same
  obtain ⟨hmax', hretry', hvisited', hpages'⟩ := h'.same
  refine ⟨⟨hmax'.trans hmax, hretry'.trans hretry, hvisited'.trans hvisited, hpages'.trans hpages⟩, ?_,
    fun hknown => h'.known (h.known hknown), fun hdistinct => h'.distinct (h.distinct hdistinct)⟩
  rw [h'.ids, h.ids, filterMap_append, append_assoc]

theorem items_taken (h : items.foldlM Run.take r = some r') : Taken r r' items := by
  induction items generalizing r with
  | nil =>
    cases h
    exact ⟨⟨rfl, rfl, rfl, rfl⟩, by simp, fun hknown => hknown, fun hdistinct => hdistinct⟩
  | cons item rest ih =>
    rw [foldlM_cons] at h
    obtain ⟨r₁, hitem, hrest⟩ := bind_eq_some_iff.mp h
    exact (take_taken hitem).trans (ih hrest)

/-- Where there is no page to go on with, the last one says that there are no more. -/
theorem hasMore_of_onward {pagination : Pagination} (h : pagination.onward page = none)
    (hcursor : ∀ p, pagination = .cursor p → p.hasMore = false) : pagination.hasMore = false := by
  cases pagination with
  | cursor p => exact hcursor p rfl
  | page p =>
    by_cases hmore : p.hasMore = true
    · simp [Pagination.onward, hmore] at h
    · simpa [Pagination.hasMore] using hmore

theorem answer_sound {answer : Answer} (h : r.Sound) (hphase : r.phase = .reading page attempt)
    (hcursor : ∀ items p, answer = .page items (.cursor p) → p.hasMore = false)
    (hlives : (r.answer page attempt seen answer).phase.lives = true) :
    (r.answer page attempt seen answer).Sound := by
  have hunderway : r.underway = [page] := by simp [Run.underway, hphase]
  have hvisited := h.visited
  have hlimit := h.limit
  rw [hunderway] at hvisited hlimit
  cases answer with
  | failed retryable =>
    unfold Run.answer at hlives ⊢
    dsimp only at hlives ⊢
    split
    · refine ⟨h.nodup, hvisited, hlimit, h.ids, h.known, h.distinct, ?_⟩
      rintro (hp | hp) <;> cases hp
    · rename_i hlast
      rw [if_neg hlast] at hlives
      cases hlives
  | page items pagination =>
    unfold Run.answer at hlives ⊢
    dsimp only at hlives ⊢
    cases htake : items.foldlM Run.take { r with pages := r.pages ++ [⟨page, items, pagination, seen⟩] } with
    | none =>
      rw [htake] at hlives
      cases hlives
    | some r' =>
      have htaken := items_taken htake
      obtain ⟨hmax, -, hvisited', hpages⟩ := htaken.same
      have hnumbers : r'.visited = (r'.pages.map PageRead.number).reverse := by
        rw [hvisited', hpages, map_append, reverse_append]
        exact hvisited
      have hnodup : r'.visited.Nodup := hvisited' ▸ h.nodup
      have hlength : r'.pages.length ≤ r'.maxPages := by
        rw [hmax, hpages, length_append]
        exact hlimit
      have hids : r'.identifiers = r'.pages.flatMap PageRead.ids := by
        rw [htaken.ids, hpages, flatMap_append, ← h.ids]
        simp [PageRead.ids]
      cases honward : pagination.onward page with
      | some next =>
        refine ⟨hnodup, hnumbers, hlength, hids, htaken.known h.known, htaken.distinct h.distinct, ?_⟩
        rintro (hp | hp) <;> cases hp
      | none =>
        refine ⟨hnodup, hnumbers, hlength, hids, htaken.known h.known, htaken.distinct h.distinct, ?_⟩
        intro _
        refine ⟨⟨page, items, pagination, seen⟩, ?_, hasMore_of_onward honward ?_⟩
        · change r'.pages.getLast? = _
          rw [hpages, getLast?_concat]
        · rintro p rfl
          exact hcursor items p rfl

end Run

section World

variable {u : Unicode} {w w' : World} {a : Action} {i : Nat} {r : Run}

/-- What holds of a channel all along. -/
structure World.Sound (w : World) : Prop where
  runs : ∀ (i : Nat) (r : Run), w.runs[i]? = some r → r.phase.lives = true → r.Sound
  fresh : ∀ (i : Nat) (r : Run), w.runs[i]? = some r → r.phase.isOpen = true → ∀ page ∈ r.pages,
    page.seen ≤ w.log.length ∧ ∀ id ∈ page.ids, id ∉ w.log.drop page.seen
  completed : ∀ (i : Nat) (r : Run), w.runs[i]? = some r → r.phase = .completed →
    ∃ rep ∈ w.replacements, rep.run = i ∧ rep.pages = r.pages ∧ rep.Complete r.maxPages
  replaced : ∀ rep ∈ w.replacements, (∃ r, w.runs[rep.run]? = some r ∧ r.phase = .completed) ∧ rep.NotOlder

theorem lives_of_isOpen {p : Phase} (h : p.isOpen = true) : p.lives = true := by
  cases p <;> first | rfl | cases h

theorem run_set {r' q : Run} {j : Nat} (h : (w.set i r').runs[j]? = some q) :
    (j = i ∧ q = r') ∨ (j ≠ i ∧ w.runs[j]? = some q) := by
  unfold World.set at h
  by_cases hij : i = j
  · subst hij
    rw [getElem?_set_self'] at h
    obtain ⟨_, -, rfl⟩ := map_eq_some_iff.mp h
    exact .inl ⟨rfl, rfl⟩
  · rw [getElem?_set_ne hij] at h
    exact .inr ⟨Ne.symm hij, h⟩

/-- A run that goes on, or ends without success. -/
theorem World.Sound.set (hs : w.Sound) (hrun : w.runs[i]? = some r) (hopen : r.phase.isOpen = true) {r' : Run}
    (hsound : r'.phase.lives = true → r'.Sound) (hphase : r'.phase ≠ .completed)
    (hpages : r'.phase.isOpen = true → ∀ page ∈ r'.pages,
      page.seen ≤ w.log.length ∧ ∀ id ∈ page.ids, id ∉ w.log.drop page.seen) : (w.set i r').Sound := by
  constructor
  · intro j q hq hlives
    rcases run_set hq with ⟨-, rfl⟩ | ⟨-, hq⟩
    · exact hsound hlives
    · exact hs.runs j q hq hlives
  · intro j q hq hqopen
    rcases run_set hq with ⟨-, rfl⟩ | ⟨-, hq⟩
    · exact hpages hqopen
    · exact hs.fresh j q hq hqopen
  · intro j q hq hcompleted
    rcases run_set hq with ⟨-, rfl⟩ | ⟨-, hq⟩
    · exact absurd hcompleted hphase
    · exact hs.completed j q hq hcompleted
  · intro rep hrep
    obtain ⟨⟨q, hq, hcompleted⟩, hnotOlder⟩ := hs.replaced rep hrep
    refine ⟨⟨q, ?_, hcompleted⟩, hnotOlder⟩
    have hne : i ≠ rep.run := by
      rintro rfl
      rw [hrun] at hq
      cases hq
      rw [hcompleted] at hopen
      cases hopen
    unfold World.set
    rw [getElem?_set_ne hne, hq]

theorem ask_pages (r : Run) (page : Int) :
    (r.ask page).pages = r.pages ∧ (r.ask page).phase ≠ .completed := by
  unfold Run.ask
  split
  · exact ⟨rfl, nofun⟩
  · split
    · exact ⟨rfl, nofun⟩
    · exact ⟨rfl, nofun⟩

theorem answer_pages (r : Run) (page : Int) (attempt seen : Nat) (answer : Answer) :
    (∀ p ∈ (r.answer page attempt seen answer).pages, p ∈ r.pages ∨ p.seen = seen) ∧
      (r.answer page attempt seen answer).phase ≠ .completed := by
  cases answer with
  | failed retryable =>
    unfold Run.answer
    dsimp only
    split
    · exact ⟨fun p hp => .inl hp, nofun⟩
    · exact ⟨fun p hp => .inl hp, nofun⟩
  | page items pagination =>
    have hadded : ∀ p ∈ r.pages ++ [⟨page, items, pagination, seen⟩], p ∈ r.pages ∨ p.seen = seen := by
      intro p hp
      rcases mem_append.mp hp with hp | hp
      · exact .inl hp
      · exact .inr (by rw [mem_singleton.mp hp])
    unfold Run.answer
    dsimp only
    cases htake : items.foldlM Run.take { r with pages := r.pages ++ [⟨page, items, pagination, seen⟩] } with
    | none => exact ⟨hadded, nofun⟩
    | some r' =>
      have hpages : r'.pages = r.pages ++ [⟨page, items, pagination, seen⟩] :=
        (items_taken htake).same.2.2.2
      cases pagination.onward page with
      | some next => exact ⟨fun p hp => hadded p (hpages ▸ hp), nofun⟩
      | none => exact ⟨fun p hp => hadded p (hpages ▸ hp), nofun⟩

theorem productRow_productId {product : ChannelProduct} {id : String}
    (hid : productId product = some id) (h : productRow u t product = some row) : row.productId = id := by
  obtain ⟨hexternal, -⟩ := filter_eq_some_iff.mp hid
  unfold productRow at h
  obtain ⟨stock, -, h⟩ := bind_eq_some_iff.mp h
  cases h
  simp [hexternal]

theorem inventoryRow_productId {product : ChannelProduct} {id : String}
    (hid : productId product = some id) (h : inventoryRow u t product = some row) : row.productId = id := by
  obtain ⟨hexternal, -⟩ := filter_eq_some_iff.mp hid
  unfold inventoryRow at h
  obtain ⟨stock, -, h⟩ := bind_eq_some_iff.mp h
  cases h
  simp [hexternal]

/-- What the end of a run leaves, where no row raises. -/
theorem replacement_complete {products : List ProductRow} {inventory : List InventoryRow} {t : Time}
    (h : r.Sound) (hphase : r.phase = .fetched) (hproducts : r.products.mapM (productRow u t) = some products)
    (hinventory : r.products.mapM (inventoryRow u t) = some inventory) (run : Nat) (log : List String) :
    (⟨run, r.pages, log, ⟨products, inventory⟩⟩ : Replacement).Complete r.maxPages := by
  have hknown : ∀ product ∈ r.products, ∃ id, productId product = some id := by
    intro product hproduct
    have hmem : productId product ∈ r.identifiers.map some :=
      h.known ▸ mem_map_of_mem hproduct
    obtain ⟨id, -, hid⟩ := mem_map.mp hmem
    exact ⟨id, hid.symm⟩
  have hids : r.products.map (fun product => (productId product).getD "") = r.identifiers := by
    have hmap := congrArg (map fun id : Option String => id.getD "") h.known
    simpa [Function.comp_def] using hmap
  have hrows : products.map ProductRow.productId = r.identifiers := by
    rw [← hids]
    refine map_of_mapM_some ?_ hproducts
    intro product hproduct row hrow
    obtain ⟨id, hid⟩ := hknown product hproduct
    rw [productRow_productId hid hrow, hid]
    rfl
  have hstock : inventory.map InventoryRow.productId = r.identifiers := by
    rw [← hids]
    refine map_of_mapM_some ?_ hinventory
    intro product hproduct row hrow
    obtain ⟨id, hid⟩ := hknown product hproduct
    rw [inventoryRow_productId hid hrow, hid]
    rfl
  have hidle : r.underway = [] := by simp [Run.underway, hphase]
  have hvisited := h.visited
  have hlimit := h.limit
  rw [hidle] at hvisited hlimit
  refine ⟨?_, hlimit, h.last (.inl hphase), ⟨hrows ▸ h.distinct, ?_⟩, hstock.trans hrows.symm⟩
  · change (r.pages.map PageRead.number).Nodup
    rw [nil_append] at hvisited
    rw [← nodup_reverse, ← hvisited]
    exact h.nodup
  · intro id
    rw [hrows, h.ids, mem_flatMap]

theorem step_caches (h : Step u w a w') : w'.caches = w.caches ∨ (∃ ids after, a = .write ids after) ∨
    ∃ (i : Nat) (r : Run) (completedAt : Time) (rep : Replacement), a = .replace i completedAt ∧
      w'.runs[i]? = some r ∧ r.phase = .completed ∧ w'.replacements = w.replacements ++ [rep] ∧
        rep.run = i ∧ rep.after = w'.caches := by
  cases h with
  | begin_ maxPages retryAttempts positive => exact .inl rfl
  | ask run phase => exact .inl rfl
  | answer answer run phase => exact .inl rfl
  | raise run phase => exact .inl rfl
  | crash run phase => exact .inl rfl
  | write ids after changed => exact .inr (.inl ⟨ids, after, rfl⟩)
  | @replace i r completedAt run phase =>
    unfold World.replace
    split
    · refine .inr (.inr ⟨i, { r with phase := .completed }, completedAt, _, rfl, ?_, rfl, rfl, rfl, rfl⟩)
      have hi : i < w.runs.length := (List.getElem?_eq_some_iff.mp run).1
      exact getElem?_set_self hi
    · exact .inl rfl

theorem not_mem_drop {log ids : List String} {seen : Nat} {id : String} (hseen : seen ≤ log.length)
    (hold : id ∉ log.drop seen) (hnew : id ∉ ids) : id ∉ (log ++ ids).drop seen := by
  rw [drop_append_of_le_length hseen, mem_append, not_or]
  exact ⟨hold, hnew⟩

theorem World.Sound.begin_ (hs : w.Sound) (maxPages retryAttempts : Nat) :
    World.Sound { w with runs := w.runs ++ [.start maxPages retryAttempts] } := by
  have hrun : ∀ {i : Nat} {r : Run}, (w.runs ++ [Run.start maxPages retryAttempts])[i]? = some r →
      w.runs[i]? = some r ∨ r = .start maxPages retryAttempts := by
    intro i r h
    by_cases hi : i < w.runs.length
    · rw [getElem?_append_left hi] at h
      exact .inl h
    · rw [getElem?_append_right (by omega)] at h
      exact .inr (mem_singleton.mp (mem_of_getElem? h))
  constructor
  · intro i r h hlives
    rcases hrun h with h | rfl
    · exact hs.runs i r h hlives
    · exact start_sound maxPages retryAttempts
  · intro i r h hopen
    rcases hrun h with h | rfl
    · exact hs.fresh i r h hopen
    · exact nofun
  · intro i r h hcompleted
    rcases hrun h with h | rfl
    · exact hs.completed i r h hcompleted
    · cases hcompleted
  · intro rep hrep
    obtain ⟨⟨r, hr, hcompleted⟩, hnotOlder⟩ := hs.replaced rep hrep
    refine ⟨⟨r, ?_, hcompleted⟩, hnotOlder⟩
    rw [List.getElem?_append_left (List.getElem?_eq_some_iff.mp hr).1, hr]

theorem World.Sound.write (hs : w.Sound) {ids : List String} (after : Caches)
    (hunread : w.Unread none ids) : World.Sound { w with caches := after, log := w.log ++ ids } where
  runs := hs.runs
  fresh i r hrun hopen page hpage := by
    obtain ⟨hseen, hfresh⟩ := hs.fresh i r hrun hopen page hpage
    constructor
    · rw [length_append]
      omega
    · intro id hid
      exact not_mem_drop hseen (hfresh id hid) (hunread i r hrun hopen nofun page hpage id hid)
  completed := hs.completed
  replaced := hs.replaced

theorem World.Sound.replace (hs : w.Sound) {completedAt : Time} (hrun : w.runs[i]? = some r)
    (hphase : r.phase = .fetched) (hunread : w.Unread (some i) (r.products.filterMap productId)) :
    (w.replace u i r completedAt).Sound := by
  have hopen : r.phase.isOpen = true := by rw [hphase]; rfl
  have hsound := hs.runs i r hrun (lives_of_isOpen hopen)
  unfold World.replace
  split
  · rename_i products inventory hproducts hinventory
    have hcomplete := replacement_complete hsound hphase hproducts hinventory i w.log
    have hset : ∀ {j : Nat} {q : Run}, (w.runs.set i { r with phase := .completed })[j]? = some q →
        (j = i ∧ q = { r with phase := .completed }) ∨ (j ≠ i ∧ w.runs[j]? = some q) := run_set
    constructor
    · intro j q hq hlives
      rcases hset hq with ⟨-, rfl⟩ | ⟨-, hq⟩
      · have hidle : r.underway = [] := by simp [Run.underway, hphase]
        have hvisited := hsound.visited
        have hlimit := hsound.limit
        rw [hidle] at hvisited hlimit
        exact ⟨hsound.nodup, hvisited, hlimit, hsound.ids, hsound.known, hsound.distinct,
          fun _ => hsound.last (.inl hphase)⟩
      · exact hs.runs j q hq hlives
    · intro j q hq hqopen page hpage
      rcases hset hq with ⟨-, rfl⟩ | ⟨hne, hq⟩
      · cases hqopen
      obtain ⟨hseen, hfresh⟩ := hs.fresh j q hq hqopen page hpage
      constructor
      · dsimp only
        rw [length_append]
        omega
      · intro id hid
        refine not_mem_drop hseen (hfresh id hid) (hunread j q hq hqopen ?_ page hpage id hid)
        exact fun heq => hne (some.inj heq)
    · intro j q hq hcompleted
      rcases hset hq with ⟨rfl, rfl⟩ | ⟨-, hq⟩
      · exact ⟨_, mem_append_right _ (mem_singleton.mpr rfl), rfl, rfl, hcomplete⟩
      · obtain ⟨rep, hrep, hrest⟩ := hs.completed j q hq hcompleted
        exact ⟨rep, mem_append_left _ hrep, hrest⟩
    · intro rep hrep
      rcases mem_append.mp hrep with hrep | hrep
      · obtain ⟨⟨q, hq, hcompleted⟩, hnotOlder⟩ := hs.replaced rep hrep
        refine ⟨⟨q, ?_, hcompleted⟩, hnotOlder⟩
        have hne : i ≠ rep.run := by
          rintro rfl
          rw [hrun] at hq
          cases hq
          rw [hcompleted] at hphase
          cases hphase
        exact (getElem?_set_ne hne).trans hq
      · rw [mem_singleton.mp hrep]
        refine ⟨⟨_, List.getElem?_set_self (List.getElem?_eq_some_iff.mp hrun).1, rfl⟩, ?_⟩
        exact fun page hpage => (hs.fresh i r hrun hopen page hpage).2
  · exact hs.set hrun hopen nofun nofun nofun

theorem step_sound (hs : w.Sound) (h : Step u w a w') (ha : Undisturbed w a) : w'.Sound := by
  cases h with
  | begin_ maxPages retryAttempts positive => exact hs.begin_ maxPages retryAttempts
  | @ask i r page run phase =>
    have hopen : r.phase.isOpen = true := by rw [phase]; rfl
    obtain ⟨hpages, hphase⟩ := ask_pages r page
    refine hs.set run hopen (ask_sound (hs.runs i r run (lives_of_isOpen hopen)) phase) hphase ?_
    intro _
    rw [hpages]
    exact hs.fresh i r run hopen
  | @answer i r page attempt answer run phase =>
    have hopen : r.phase.isOpen = true := by rw [phase]; rfl
    obtain ⟨hpages, hphase⟩ := answer_pages r page attempt w.log.length answer
    refine hs.set run hopen (answer_sound (hs.runs i r run (lives_of_isOpen hopen)) phase ?_) hphase ?_
    · rintro items p rfl
      exact ha
    · intro _ p hp
      rcases hpages p hp with hp | hseen
      · exact hs.fresh i r run hopen p hp
      · rw [hseen, drop_length]
        exact ⟨Nat.le_refl _, fun _ _ => not_mem_nil⟩
  | @replace i r completedAt run phase => exact hs.replace run phase (ha r run)
  | raise run phase => exact hs.set run phase nofun nofun nofun
  | crash run phase => exact hs.set run phase nofun nofun nofun
  | write ids after changed => exact hs.write after ha

theorem runs_sound (h : Runs u Undisturbed w) : w.Sound := by
  induction h with
  | start caches => exact ⟨nofun, nofun, nofun, nofun⟩
  | step _ hstep ha ih => exact step_sound ih hstep ha

end World

/-- Marketplace synchronisation, as long as nothing is written to the rows of a product that a run has
read and still holds, and no page that is read says that more follows behind a cursor. -/
theorem synchronization_lawful {u : Unicode} {w : World} (h : Runs u Undisturbed w) : Lawful u w := by
  have hs := runs_sound h
  constructor
  · intro i r hrun hphase
    have hlives : r.phase.lives = true := by rw [hphase]; rfl
    have hidle : r.underway = [] := by simp [Run.underway, hphase]
    have hvisited := (hs.runs i r hrun hlives).visited
    rw [hidle] at hvisited
    exact ⟨hvisited, hs.completed i r hrun hphase⟩
  · rintro i r hrun hphase rep hrep rfl
    obtain ⟨⟨q, hq, hcompleted⟩, -⟩ := hs.replaced rep hrep
    rw [hrun] at hq
    cases hq
    rw [hphase] at hcompleted
    cases hcompleted
  · exact fun rep hrep => (hs.replaced rep hrep).2
  · exact fun a w' hstep => step_caches hstep

namespace Sample

def product (price : Float64) : ChannelProduct where
  identifiers := { externalProductId := some "1" }
  name := "Lamp"
  currentPrice := some price
  currency := some "IRR"
  priceUnit := some "toman"
  stockQuantity := none
  status := none

def cached (price : String) : Caches :=
  ⟨[⟨"1", some 1, none, "Lamp", "simple", none, "active", some price, none, "outofstock", 0⟩], []⟩

/-- A channel with a run that has read a page. -/
def read (answer : Answer) : World :=
  let w : World := ⟨cached "10", [], [.start 5 0], []⟩
  let w := w.set 0 ((Run.start 5 0).ask 1)
  w.set 0 (((Run.start 5 0).ask 1).answer 1 0 0 answer)

theorem read_runs (hbegin : ∀ w, condition w (.begin_ 5 0)) (hask : ∀ w, condition w (.ask 0))
    (hanswer : ∀ w, condition w (.answer 0 answer)) : Runs .ascii condition (read answer) := by
  have h : Runs .ascii condition ⟨cached "10", [], [.start 5 0], []⟩ :=
    Runs.step (.start (cached "10")) (.begin_ 5 0 (by decide)) (hbegin _)
  have h := h.step (.ask rfl rfl) (hask _)
  exact h.step (.answer answer rfl rfl) (hanswer _)

/-- The last page, with the product at its old price. -/
def onePage : Answer := .page [some (product (.ofNat 10 (by norm_num)))] (.page {})

/-- The run as it has read the page. -/
def holding : Run := ((Run.start 5 0).ask 1).answer 1 0 0 onePage

end Sample

open Sample

/-- A price that was written after the page was read is put back to that of the page; and a page that says
that more follows behind a cursor is taken for the last one. -/
theorem replacement_older : (∃ w, Runs .ascii (fun _ _ => True) w ∧ ¬Lawful .ascii w) ∧
    ∃ w, Runs .ascii (fun _ a => ∀ ids after, a ≠ .write ids after) w ∧ ¬Lawful .ascii w := by
  constructor
  · have h : Runs .ascii (fun _ _ => True) (Sample.read onePage) :=
      read_runs (fun _ => trivial) (fun _ => trivial) (fun _ => trivial)
    have hchanged : (Sample.read onePage).caches.changedIn ["1"] (Sample.cached "20") := by
      refine ⟨by decide, by decide, ?_⟩
      intro id hid
      have hne : "1" ≠ id := fun heq => hid (heq ▸ mem_cons_self)
      simp [Sample.read, World.set, Sample.cached, Caches.of, hne]
    have h := h.step (.write ["1"] (Sample.cached "20") hchanged) trivial
    have h := h.step (Step.replace (i := 0) (r := holding) 7 rfl rfl) trivial
    refine ⟨_, h, ?_⟩
    intro hlawful
    have hrep : ∃ rep ∈ (World.replace Unicode.ascii { Sample.read onePage with
        caches := Sample.cached "20", log := ["1"] } 0 holding 7).replacements,
        rep.log = ["1"] ∧ ∃ page ∈ rep.pages, page.seen = 0 ∧ "1" ∈ page.ids := by decide +kernel
    obtain ⟨rep, hmem, hlog, page, hpage, hseen, hid⟩ := hrep
    have hnot := hlawful.notOlder rep hmem page hpage "1" hid
    rw [hlog, hseen] at hnot
    exact hnot mem_cons_self
  · let answer : Answer := .page [] (.cursor { hasMore := true })
    let r := ((Run.start 5 0).ask 1).answer 1 0 0 answer
    have h : Runs .ascii (fun _ a => ∀ ids after, a ≠ .write ids after) (Sample.read answer) :=
      read_runs nofun nofun nofun
    have h := h.step (Step.replace (i := 0) (r := r) 7 rfl rfl) nofun
    refine ⟨_, h, ?_⟩
    intro hlawful
    have hcompleted := hlawful.completed 0 _ rfl rfl
    obtain ⟨-, rep, -, -, hpages, hcomplete⟩ := hcompleted
    obtain ⟨page, hpage, hlast⟩ := hcomplete.last
    rw [hpages] at hpage
    cases hpage
    cases hlast

/-- A run that reads the page with nothing in between. -/
theorem undisturbed_lawful : ∃ w, w.replacements.length = 1 ∧ Lawful .ascii w := by
  have hread : Runs .ascii Undisturbed (Sample.read onePage) :=
    read_runs (fun _ => trivial) (fun _ => trivial) (fun _ => trivial)
  have hunread : Undisturbed (Sample.read onePage) (.replace 0 7) := by
    intro r _ j q hq _ hne
    have hj : j < 1 := (List.getElem?_eq_some_iff.mp hq).1
    exact absurd (congrArg some (Nat.lt_one_iff.mp hj)) hne
  exact ⟨_, by decide +kernel, synchronization_lawful
    (hread.step (Step.replace (i := 0) (r := holding) 7 rfl rfl) hunread)⟩

end FlowHub.Channels.ProductSync
