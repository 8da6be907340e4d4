import FlowHub.ReadEngine.Incremental
import Mathlib.Data.String.Basic

namespace FlowHub.ReadEngine

open Python List Option

/-- The row of the product shows the item, whatever a sweep says of it. -/
def Shows (k : Connector) (cache : Cache) (c : Change) : Prop :=
  ∃ row ∈ cache.row k.id (c.id k), ∃ t, ∃ columns ∈ shapeProduct k.unicode k.printable t c.item,
    ∃ b, row.columns = { columns with exists_ := b }

/-- The cache has what the `n`th change brought, or something newer of the product. -/
def Reflected (k : Connector) (changes : List Change) (cache : Cache) (n : Nat) (id : String) : Prop :=
  ∃ m c, n ≤ m ∧ changes[m]? = some c ∧ c.id k = id ∧ Shows k cache c

/-- A modified-since run completes with every change from before its start in the cache. -/
def Complete (k : Connector) (w : World) : Action → Prop
  | .finish key => ∀ r ∈ w.run key, r.strategy = .modifiedSince → r.phase = .drained →
      ∀ n c, w.changes[n]? = some c → c.at_ < r.startedAt → Reflected k w.changes w.cache n (c.id k)
  | _ => True

/-- The product has its turn behind the page. -/
def Behind (k : Connector) (r : Run) (next : Option String) (c : Change) : Prop :=
  (∃ id ∈ next, id < c.id k) ∧ ∀ t ∈ r.since, t ≤ c.at_

/-- The run will still bring the change. -/
def Ahead (k : Connector) (r : Run) (n : Nat) (c : Change) : Prop :=
  match r.phase with
  | .started => (r.strategy = .initialFullRead ∨ r.resumed = true) ∧ ∀ id ∈ r.cursor, id < c.id k
  | .ready => (∀ id ∈ r.cursor, id < c.id k) ∧ ∀ t ∈ r.since, t ≤ c.at_
  | .fetched items next => (∃ f ∈ items, f.1.id k = c.id k ∧ n ≤ f.2) ∨ Behind k r next c
  | .drained => False

/-- Some run will, or the pending job once it is resumed. -/
def Waits (k : Connector) (w : World) (n : Nat) (c : Change) : Prop :=
  (∃ r ∈ w.runs, Ahead k r n c) ∨ ∃ job ∈ w.jobs, job.status = .pending ∧ ∀ id ∈ job.cursor, id < c.id k

/-- What a commit overwrites with an item of the provider. -/
def Overwrites (k : Connector) (p : Progress) (e : Event) (items : List (Change × Nat)) (c : Change) : Prop :=
  (e.writes k.unicode k.printable k.id p (c.id k)).isSome ∧ ∃ f ∈ items, f.1.id k = c.id k

/-- After the commit the cache has the change: it writes an item fetched since, or it leaves alone
a row that shows it. -/
def Reads (k : Connector) (w : World) (p : Progress) (e : Event) (items : List (Change × Nat))
    (n : Nat) (c : Change) : Prop :=
  (Overwrites k p e items c ∧ ∀ f ∈ items, f.1.id k = c.id k → n ≤ f.2) ∨
    ¬ Overwrites k p e items c ∧ Reflected k w.changes w.cache n (c.id k)

/-- Nothing older than the newest read is unread. -/
def Settled (k : Connector) (w : World) : Prop :=
  ∀ n c, w.changes[n]? = some c → (∃ t ∈ watermark w.cache, c.at_ < t) →
    Reflected k w.changes w.cache n (c.id k)

/-- What a single-entity read can store. -/
def EntityRead.brought (read : EntityRead) : List (Change × Nat) :=
  if saysGone read.item then [] else read.found.toList

/-- A job of the connector runs under an unexpired lease. -/
def World.busy (w : World) : Bool :=
  w.jobs.any fun job => decide (job.status = .running) &&
    job.leaseExpiresAt.any fun t => decide (w.clock < t)

/-- A commit leaves no change from before it unread, except what its run, or the one under way, has
still to bring; a modified-since run is resumed, and a run or a pending job given up, only where
nothing older than the newest read is unread; and no run begins while another is under way. -/
def Covers (k : Connector) (w : World) : Action → Prop
  | .start _ => if w.busy then w.pending.isSome → Settled k w else w.runs = []
  | .open_ key => ∀ r ∈ w.run key, r.resumed = true → r.strategy = .modifiedSince → Settled k w
  | .store key owned => ∀ r ∈ w.run key, ∀ items next, r.phase = .fetched items next →
      ∀ n c, w.changes[n]? = some c → c.at_ < w.clock → Behind k r next c ∨
        Reads k w ⟨w.cache, r.seen, 0⟩ (.page (items.map (·.1.item)) owned w.clock w.clock)
          items n c
  | .storeEntity i owned => ∀ read : EntityRead, w.reads[i]? = some read →
      ∀ n c, w.changes[n]? = some c → c.at_ < w.clock → Waits k w n c ∨
        Reads k w ⟨w.cache, [], 0⟩ (.entity read.item owned w.clock w.clock)
          read.brought n c
  | .crash key => (w.run key).isSome → Settled k w
  | _ => True

/-- The run will still bring the change, if it can be asked for it. -/
def Due (k : Connector) (r : Run) (n : Nat) (c : Change) : Prop :=
  match r.phase with
  | .started => ∀ id ∈ r.cursor, id < c.id k
  | _ => Ahead k r n c

/-- Nothing older than the newest read is unread and forgotten. -/
structure Tracked (k : Connector) (w : World) : Prop where
  ordered : w.changes.Pairwise fun a b => a.at_ ≤ b.at_
  past : ∀ c ∈ w.changes, c.at_ ≤ w.clock
  fetched : ∀ row ∈ w.cache, ∀ t ∈ row.columns.lastSuccessfulRead, t ≤ w.clock
  jobIds : (w.jobs.map DlRefreshJob.id).Nodup
  jobStarts : ∀ job ∈ w.jobs, ∀ t ∈ job.startedAt, t ≤ w.clock
  runStarts : ∀ r ∈ w.runs, r.startedAt ≤ w.clock ∧
    ∃ job ∈ w.jobs, job.id = r.jobId ∧ job.startedAt = some r.startedAt
  one : w.runs.length + (w.jobs.filter fun job => decide (job.status = .pending)).length ≤ 1
  items : ∀ r ∈ w.runs, ∀ items next, r.phase = .fetched items next →
    (∀ f ∈ items, w.changes[f.2]? = some f.1 ∧ ∀ id ∈ r.cursor, id < f.1.id k) ∧
      ∀ id ∈ next, ∀ old ∈ r.cursor, old < id
  reads : ∀ read ∈ w.reads, ∀ f ∈ read.found, w.changes[f.2]? = some f.1
  mark : ∀ n c, w.changes[n]? = some c → (∃ t ∈ watermark w.cache, c.at_ < t) →
    Reflected k w.changes w.cache n (c.id k) ∨ Waits k w n c
  due : ∀ r ∈ w.runs, ∀ n c, w.changes[n]? = some c → c.at_ < r.startedAt →
    Reflected k w.changes w.cache n (c.id k) ∨ Due k r n c
  pendingDue : ∀ job ∈ w.jobs, job.status = .pending → ∃ t, job.startedAt = some t ∧
    ∀ n c, w.changes[n]? = some c → c.at_ < t →
      Reflected k w.changes w.cache n (c.id k) ∨ ∀ id ∈ job.cursor, id < c.id k

section

variable {k : Connector} {w v : World} {changes : List Change} {cache : Cache} {n : Nat} {c : Change}

theorem current_some {id : String} {f : Change × Nat} (h : current k changes id = some f) :
    changes[f.2]? = some f.1 ∧ f.1.id k = id := by
  have hmem := mem_of_find?_eq_some h
  rw [mem_reverse] at hmem
  exact ⟨mem_zipIdx_iff_getElem?.mp hmem, by simpa using find?_some h⟩

/-- The current item of a product is no older than any change of it. -/
theorem current_newest (h : changes[n]? = some c) : ∃ f, current k changes (c.id k) = some f ∧ n ≤ f.2 := by
  have hmem : (c, n) ∈ changes.zipIdx.reverse := by
    rw [mem_reverse]
    exact mem_zipIdx_iff_getElem?.mpr h
  cases hcurrent : current k changes (c.id k) with
  | none =>
    have := find?_eq_none.mp hcurrent (c, n) hmem
    simp at this
  | some f =>
    refine ⟨f, rfl, ?_⟩
    obtain ⟨-, newer, older, hsplit, hnone⟩ := find?_eq_some_iff_append.mp hcurrent
    rw [hsplit, mem_append, mem_cons] at hmem
    rcases hmem with hnewer | rfl | holder
    · have := hnone (c, n) hnewer
      simp at this
    · exact le_rfl
    · have hindexes : (changes.zipIdx.reverse.map Prod.snd).Pairwise (· > ·) := by
        rw [map_reverse, zipIdx_map_snd, pairwise_reverse]
        exact pairwise_lt_range'
      rw [hsplit, map_append, map_cons] at hindexes
      have htail := (pairwise_append.mp hindexes).2.1
      exact ((pairwise_cons.mp htail).1 n (mem_map_of_mem holder)).le

theorem at_mono (ordered : changes.Pairwise fun a b => a.at_ ≤ b.at_)
    (hn : changes[n]? = some c) (hm : changes[m]? = some d) (hle : n ≤ m) : c.at_ ≤ d.at_ := by
  obtain ⟨hn', rfl⟩ := List.getElem?_eq_some_iff.mp hn
  obtain ⟨hm', rfl⟩ := List.getElem?_eq_some_iff.mp hm
  rcases Nat.lt_or_eq_of_le hle with hlt | rfl
  · exact pairwise_iff_getElem.mp ordered n m hn' hm' hlt
  · exact le_rfl

theorem listed_sorted (since : Option Time) (cursor : Option String) :
    (listed k changes since cursor).Pairwise fun a b => a.1.id k < b.1.id k := by
  have hsorted : (sortedSet (changes.map (·.id k))).Pairwise (· < ·) := by
    have hle : (sortedSet (changes.map (·.id k))).Pairwise (· ≤ ·) :=
      pairwise_insertionSort (· ≤ ·) _
    exact (hle.and (sortedSet_nodup _)).imp fun h => lt_of_le_of_ne h.1 h.2
  refine (Pairwise.filterMap (current k changes) ?_ hsorted).filter _
  intro a b hab f hf g hg
  rw [(current_some hf).2, (current_some hg).2]
  exact hab

theorem mem_listed : f ∈ listed k changes since cursor ↔ current k changes (f.1.id k) = some f ∧
      (∀ t ∈ since, t ≤ f.1.at_) ∧ ∀ id ∈ cursor, id < f.1.id k := by
  simp only [listed, mem_filter, mem_filterMap, mem_sortedSet, Bool.and_eq_true,
    Option.all_eq_true, decide_eq_true_eq]
  constructor
  · rintro ⟨⟨id, -, hcurrent⟩, hsince, hcursor⟩
    obtain rfl := (current_some hcurrent).2
    exact ⟨hcurrent, hsince, hcursor⟩
  · rintro ⟨hcurrent, hsince, hcursor⟩
    refine ⟨⟨_, mem_map_of_mem ?_, hcurrent⟩, hsince, hcursor⟩
    exact mem_of_getElem? (current_some hcurrent).1

theorem watermark_le (fetched : ∀ row ∈ cache, ∀ t ∈ row.columns.lastSuccessfulRead, t ≤ n) :
    ∀ t ∈ watermark cache, t ≤ n := by
  intro t ht
  obtain ⟨row, hrow, hread⟩ := mem_filterMap.mp (max?_mem ht)
  exact fetched row hrow t hread

theorem Reflected.append {id : String} (h : Reflected k changes cache n id) (more : List Change) :
    Reflected k (changes ++ more) cache n id := by
  obtain ⟨m, d, hle, hget, hrest⟩ := h
  obtain ⟨hlt, -⟩ := List.getElem?_eq_some_iff.mp hget
  exact ⟨m, d, hle, (getElem?_append_left hlt).trans hget, hrest⟩

/-- Where a written row comes from: an item that was brought, or the row as it was. -/
def Sourced (k : Connector) (p : Progress) (e : Event) (items : List (Change × Nat)) (id : String) : Prop :=
  ∀ row, e.writes k.unicode k.printable k.id p id = some row →
    (∃ f ∈ items, f.1.id k = id ∧ ∃ t, shapeProduct k.unicode k.printable t f.1.item = some row.columns) ∨
    (∀ f ∈ items, f.1.id k ≠ id) ∧ ∃ old ∈ p.cache.row k.id id, ∃ b,
      row.columns = { old.columns with exists_ := b }

theorem page_sourced (p : Progress) (items : List (Change × Nat)) (owned : Owned) (shapedAt now : Time)
    (id : String) :
    Sourced k p (.page (items.map (·.1.item)) owned shapedAt now) items id := by
  intro row hrow
  left
  simp only [Event.writes, filter_eq_some_iff, bind_eq_some_iff, map_eq_some_iff] at hrow
  obtain ⟨⟨page, hpage, stored, hstored, rfl⟩, -⟩ := hrow
  obtain ⟨item, hitem, hid, hshape⟩ := shaped_mem hpage (mem_of_find?_eq_some hstored)
  obtain ⟨f, hf, rfl⟩ := mem_map.mp hitem
  have hsame : stored.1 = id := by simpa using find?_some hstored
  exact ⟨f, hf, hid.trans hsame, shapedAt, hshape⟩

theorem entity_sourced (p : Progress) (read : EntityRead) (owned : Owned) (shapedAt now : Time)
    (id : String) : Sourced k p (.entity read.item owned shapedAt now) read.brought id := by
  intro row hrow
  simp only [Event.writes] at hrow
  split at hrow
  · cases hrow
  rename_i hwrites
  simp only [not_or, ne_eq, not_not] at hwrites
  cases hgone : saysGone read.item with
  | true =>
    rw [if_pos hgone] at hrow
    obtain ⟨old, hold, rfl⟩ := map_eq_some_iff.mp hrow
    refine .inr ⟨?_, old, hold, false, rfl⟩
    simp [EntityRead.brought, hgone]
  | false =>
    rw [if_neg (by simp [hgone])] at hrow
    obtain ⟨columns, hshape, rfl⟩ := map_eq_some_iff.mp hrow
    cases hfound : read.found with
    | none => simp [EntityRead.item, hfound, saysGone, Json.get] at hgone
    | some f =>
      have hitem : read.item = f.1.item := by rw [EntityRead.item, hfound]
      refine .inl ⟨f, ?_, ?_, shapedAt, hitem ▸ hshape⟩
      · simp [EntityRead.brought, hgone, hfound]
      · rw [Change.id, ← hitem]
        exact hwrites.2.1.symm

theorem Reads.reflected (h : Reads k w p e items n c) (hcache : p.cache = w.cache)
    (hq : perform k.unicode k.printable k.dialect k.id p e = some q)
    (fetched : ∀ f ∈ items, w.changes[f.2]? = some f.1) (sourced : Sourced k p e items (c.id k)) :
    Reflected k w.changes q.cache n (c.id k) := by
  have hrow := perform_row hq (c.id k)
  rcases h with ⟨⟨hwrites, hbrought⟩, hnew⟩ | ⟨hkept, m, d, hle, hget, hid, hshows⟩
  · obtain ⟨row, hwrites⟩ := isSome_iff_exists.mp hwrites
    rw [hwrites, some_or] at hrow
    rcases sourced row hwrites with ⟨f, hf, hid, t, hshape⟩ | ⟨hnone, -⟩
    · refine ⟨f.2, f.1, hnew f hf hid, fetched f hf, hid, row, ?_, t, row.columns, hshape, ?_⟩
      · rw [hid]
        exact hrow
      · exact ⟨row.columns.exists_, rfl⟩
    · obtain ⟨f, hf, hid⟩ := hbrought
      exact absurd hid (hnone f hf)
  · obtain ⟨row, hold, t, columns, hshape, b, hcolumns⟩ := hshows
    rw [hid, mem_def] at hold
    rw [hcache] at hrow
    refine ⟨m, d, hle, hget, hid, ?_⟩
    cases hwrites : e.writes k.unicode k.printable k.id p (c.id k) with
    | none =>
      rw [hwrites, none_or, hold] at hrow
      refine ⟨row, ?_, t, columns, hshape, b, hcolumns⟩
      rw [hid]
      exact hrow
    | some new =>
      rw [hwrites, some_or] at hrow
      rcases sourced new hwrites with ⟨f, hf, hfid, -⟩ | ⟨-, old, hstored, b', hnew⟩
      · exact absurd ⟨by rw [hwrites]; rfl, f, hf, hfid⟩ hkept
      rw [hcache, mem_def, hold] at hstored
      cases hstored
      refine ⟨new, ?_, t, columns, hshape, b', ?_⟩
      · rw [hid]
        exact hrow
      · rw [hnew, hcolumns]

theorem Reflected.sweep {id : String} (h : Reflected k changes cache n id) (startedAt : Time) :
    Reflected k changes (ReadEngine.sweep k.id startedAt cache) n id := by
  obtain ⟨m, d, hle, hget, hid, row, hrow, t, columns, hshape, b, hcolumns⟩ := h
  have hswept : (ReadEngine.sweep k.id startedAt cache).row k.id (d.id k) =
      (cache.row k.id (d.id k)).map fun row => if row.unseen k.id startedAt then
        { row with columns := { row.columns with exists_ := false }, freshness := .stale }
      else row := by
    refine Table.get_map fun row => ?_
    split <;> rfl
  rw [mem_def] at hrow
  rw [hrow, map_some] at hswept
  by_cases hunseen : row.unseen k.id startedAt = true
  · rw [if_pos hunseen] at hswept
    exact ⟨m, d, hle, hget, hid, _, hswept, t, columns, hshape, false, by rw [hcolumns]⟩
  · rw [if_neg hunseen] at hswept
    exact ⟨m, d, hle, hget, hid, row, hswept, t, columns, hshape, b, hcolumns⟩

end

end FlowHub.ReadEngine
