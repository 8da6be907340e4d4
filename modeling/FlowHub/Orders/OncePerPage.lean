import FlowHub.Orders.Reconciliation

namespace FlowHub.Orders

open Python Channels List

/-- No step takes a commit back. -/
theorem commits_step (rt : Runtime) (channelId : Id) (w : World) (a : Action) :
    w.commits <+: (w.step rt channelId a).commits := by
  have hmove := step_move rt channelId w a
  generalize w.step rt channelId a = w' at hmove ⊢
  cases hmove with
  | idle => exact prefix_rfl
  | tick duration => exact prefix_rfl
  | arrive store arrival => exact prefix_rfl
  | acquire expiresAt pos none free => exact prefix_rfl
  | inside r r' actor found owner same live => exact prefix_rfl
  | commit r r' writes store lease actor found owner current kept expiry live =>
    exact prefix_append _ _
  | release r r' store actor found exiting owner ended => exact prefix_append _ _

theorem commits_steps (rt : Runtime) (channelId : Id) (w : World) (actions : List Action) :
    w.commits <+: (actions.foldl (World.step rt channelId) w).commits := by
  induction actions generalizing w with
  | nil => exact prefix_rfl
  | cons a rest ih => exact (commits_step rt channelId w a).trans (ih _)

/-- A page's commit that leaves its run going is one of what the run has staged. -/
theorem progress_commit {rt : Runtime} {channelId : Id} {w : World} {owner : Nat} {r : Run} {page : Page}
    {more : Bool} (hrun : w.run owner = some r) (hphase : r.phase = .working .reconciliation page [])
    (hgoes : ((w.step rt channelId (.progress owner more)).run owner).map Run.phase ≠ some .failing) :
    ∃ c ∈ (w.step rt channelId (.progress owner more)).commits, c.owner = owner ∧ c.writes = r.staged := by
  obtain ⟨-, rfl⟩ := Table.get_some hrun
  have hstep : w.step rt channelId (.progress r.owner more) = w.progress r more := by
    simp [World.step, World.withRun, hrun]
  have hrefused : ((w.rollback r .failing).run r.owner).map Run.phase = some .failing := by
    have hkey : Run.owner { r with staged := [], phase := .failing } = r.owner := rfl
    unfold World.run World.rollback World.put
    rw [Table.get_set_row hkey, if_pos rfl]
    change Option.map Run.phase (Option.map _ (w.run r.owner)) = _
    rw [hrun]
    rfl
  rw [hstep] at hgoes ⊢
  unfold World.progress at hgoes ⊢
  simp only [hphase] at hgoes ⊢
  by_cases hcurrent : w.lease.current r.owner w.clock = true
  · rw [if_pos hcurrent] at hgoes ⊢
    unfold World.commit at hgoes ⊢
    cases hsession : session w.store r.staged with
    | none =>
      simp only [hsession] at hgoes
      exact absurd hrefused hgoes
    | some store => exact ⟨_, mem_append_right _ (mem_singleton.mpr rfl), rfl, rfl⟩
  · rw [if_neg hcurrent] at hgoes
    exact absurd hrefused hgoes

theorem hasMore_of_none (h : nextReconciliationPagination p = .ok none) : p.hasMore = false := by
  unfold nextReconciliationPagination at h
  cases p with
  | cursor p =>
    by_cases hmore : p.hasMore = true
    · simp only [hmore, Bool.not_true, Bool.false_eq_true, if_false] at h
      split at h <;> cases h
    · simpa [Pagination.hasMore] using hmore
  | page p =>
    by_cases hmore : p.hasMore = true
    · simp only [hmore, Bool.not_true, Bool.false_eq_true, if_false] at h
      cases hnext : p.nextPage with
      | none => simp [hnext] at h
      | some next =>
        simp only [hnext] at h
        split at h <;> cases h
    · simpa [Pagination.hasMore] using hmore

section

variable (owner : Nat) (drawn : Marker → Prop) (base : List Commit)

/-- What holds of a call all along: no continuation is asked for twice, each is drawn from the given ones,
and each page but the last one is committed, and stays so. -/
structure Paged (s : Reconciling) : Prop where
  once : (s.requests.map reconciliationPaginationMarker).Nodup
  within : ∀ p ∈ s.requests, drawn (reconciliationPaginationMarker p)
  pages : s.committed.map Prod.fst <+: s.requests.reverse
  behind : s.requests.length ≤ s.committed.length + 1
  stays : ∀ e ∈ s.committed, ∃ c ∈ s.world.commits, c.owner = owner ∧ c.writes = e.2
  base : base <+: s.world.commits

/-- What holds of a call before each round. -/
structure AtTop (s : Reconciling) : Prop extends Paged owner drawn base s where
  through : s.committed.map Prod.fst = s.requests.reverse
  ahead : drawn (reconciliationPaginationMarker s.pagination)

/-- A call returns only after a page that says that there are no more. -/
structure Exits (env : Surroundings) (out : Outcome) : Prop where
  kept : Paged owner drawn base out.last
  returned : ∀ processed, out.exit = .returned processed →
    out.last.committed.map Prod.fst = out.last.requests.reverse ∧ ∃ items pagination,
      env.listOrders out.last.requests = .page items pagination ∧ pagination.hasMore = false

variable {owner drawn base} {env : Surroundings} {s : Reconciling}

theorem Paged.mono (h : Paged owner drawn base s) (hrequests : s'.requests = s.requests)
    (hcommitted : s'.committed = s.committed) (hcommits : s.world.commits <+: s'.world.commits) :
    Paged owner drawn base s' := by
  refine ⟨hrequests ▸ h.once, hrequests ▸ h.within, ?_, ?_, ?_, h.base.trans hcommits⟩
  · rw [hrequests, hcommitted]
    exact h.pages
  · rw [hrequests, hcommitted]
    exact h.behind
  · intro e he
    rw [hcommitted] at he
    obtain ⟨c, hc, hwrites⟩ := h.stays e he
    exact ⟨c, hcommits.subset hc, hwrites⟩

theorem Paged.meet (h : Paged owner drawn base s) : Paged owner drawn base (s.meet rt channelId env) :=
  h.mono rfl rfl (commits_steps rt channelId s.world _)

theorem Paged.act (h : Paged owner drawn base s) (a : Action) :
    Paged owner drawn base (s.act rt channelId env a) := by
  have hmeet : Paged owner drawn base (s.meet rt channelId env) := h.meet
  exact hmeet.mono rfl rfl (commits_step rt channelId _ a)

variable (orders : List ChannelOrder)

theorem work_kept (h : Paged owner drawn base s) :
    Paged owner drawn base (Reconciling.work rt channelId env owner orders s) := by
  induction orders generalizing s with
  | nil => exact h
  | cons listed rest ih => exact ih ((h.act _).act _)

@[simp] theorem work_requests : (Reconciling.work rt channelId env owner orders s).requests = s.requests := by
  induction orders generalizing s with
  | nil => rfl
  | cons listed rest ih => exact ih

@[simp] theorem work_committed :
    (Reconciling.work rt channelId env owner orders s).committed = s.committed := by
  induction orders generalizing s with
  | nil => rfl
  | cons listed rest ih => exact ih

@[simp] theorem work_pagination :
    (Reconciling.work rt channelId env owner orders s).pagination = s.pagination := by
  induction orders generalizing s with
  | nil => rfl
  | cons listed rest ih => exact ih

theorem exits_leave {exit : Exit} (h : Paged owner drawn base s)
    (hreturned : ∀ processed, exit = .returned processed →
      s.committed.map Prod.fst = s.requests.reverse ∧ ∃ items pagination,
        env.listOrders s.requests = .page items pagination ∧ pagination.hasMore = false) :
    Exits owner drawn base env (s.leave rt channelId env owner exit) := by
  cases exit with
  | returned processed => exact ⟨h.act _, hreturned⟩
  | refused fault => exact ⟨((h.act _).act _).act _, nofun⟩
  | raised => exact ⟨((h.act _).act _).act _, nofun⟩

/-- What comes of a round. -/
def Comes (owner : Nat) (drawn : Marker → Prop) (base : List Commit) (env : Surroundings) (requests : Nat) :
    Reconciling ⊕ Outcome → Prop
  | .inl s => AtTop owner drawn base s ∧ s.requests.length = requests
  | .inr out => Exits owner drawn base env out

/-- The provider's continuations are drawn from the given ones. -/
def DrawnFrom (env : Surroundings) (drawn : Marker → Prop) : Prop :=
  ∀ requests items pagination next, env.listOrders requests = .page items pagination →
    nextReconciliationPagination pagination = .ok (some next) → drawn (reconciliationPaginationMarker next)

theorem advance_comes {items : List (Option ChannelOrder)} {pagination : Pagination}
    (hdrawn : DrawnFrom env drawn) (h : Paged owner drawn base s)
    (hthrough : s.committed.map Prod.fst = s.requests.reverse)
    (hpage : env.listOrders s.requests = .page items pagination) :
    Comes owner drawn base env s.requests.length (s.advance rt channelId env owner pagination) := by
  unfold Reconciling.advance
  cases hnext : nextReconciliationPagination pagination with
  | error fault => exact exits_leave h nofun
  | ok next =>
    cases next with
    | none =>
      apply exits_leave h
      intro processed _
      exact ⟨hthrough, items, pagination, hpage, hasMore_of_none hnext⟩
    | some next =>
      have hkept : Paged owner drawn base { s with pagination := next } := h.mono rfl rfl prefix_rfl
      exact ⟨⟨hkept, hthrough, hdrawn _ _ _ _ hpage hnext⟩, rfl⟩

theorem progress_comes {orders : Nat} {items : List (Option ChannelOrder)} {pagination : Pagination}
    (before : List Pagination) (hdrawn : DrawnFrom env drawn) (h : Paged owner drawn base s)
    (hrequests : s.requests = s.pagination :: before)
    (hthrough : s.committed.map Prod.fst = before.reverse)
    (hpage : env.listOrders s.requests = .page items pagination) :
    Comes owner drawn base env s.requests.length
      (s.progress rt channelId env owner orders pagination) := by
  unfold Reconciling.progress
  cases hrun : s.world.run owner with
  | none => exact exits_leave h nofun
  | some r =>
    dsimp only
    split
    · rename_i page hphase
      generalize hworld : s.world.step rt channelId (.progress owner pagination.hasMore) = world
      have hcommits : s.world.commits <+: world.commits := hworld ▸ commits_step rt channelId _ _
      have hkept : Paged owner drawn base { s with world } := h.mono rfl rfl hcommits
      have hcommit : (world.run owner).map Run.phase ≠ some .failing →
          ∃ c ∈ world.commits, c.owner = owner ∧ c.writes = r.staged := by
        rw [← hworld]
        exact progress_commit hrun hphase
      have hgoes : (world.run owner).map Run.phase ≠ some .failing →
          Comes owner drawn base env s.requests.length (Reconciling.advance rt channelId env owner
            { s with
              world
              committed := s.committed ++ [(s.pagination, r.staged)]
              processed := s.processed + orders } pagination) := by
        intro hphase'
        have hthrough' : (s.committed ++ [(s.pagination, r.staged)]).map Prod.fst = s.requests.reverse := by
          rw [map_append, hthrough, hrequests, reverse_cons]
          rfl
        refine advance_comes hdrawn ?_ hthrough' hpage
        refine ⟨h.once, h.within, ?_, ?_, ?_, hkept.base⟩
        · dsimp only
          rw [hthrough']
        · have hlength := congrArg length hthrough'
          rw [length_map, length_reverse] at hlength
          dsimp only
          omega
        · intro e he
          rcases mem_append.mp he with he | he
          · exact hkept.stays e he
          · rw [mem_singleton.mp he]
            exact hcommit hphase'
      unfold Reconciling.phase
      split
      · rename_i hphase'
        exact hgoes (by simp [hphase'])
      · rename_i hphase'
        exact hgoes (by simp [hphase'])
      · exact exits_leave hkept nofun
    · exact exits_leave h nofun

theorem answered_comes (before : List Pagination) (hdrawn : DrawnFrom env drawn)
    (h : Paged owner drawn base s) (hrequests : s.requests = s.pagination :: before)
    (hthrough : s.committed.map Prod.fst = before.reverse) :
    Comes owner drawn base env s.requests.length
      (s.answered rt channelId env owner (env.listOrders s.requests)) := by
  unfold Reconciling.answered
  cases hpage : env.listOrders s.requests with
  | raises => exact exits_leave h nofun
  | malformed => exact exits_leave h nofun
  | page items pagination =>
    dsimp only
    generalize hwork : Reconciling.work rt channelId env owner (items.filterMap id)
      (s.act rt channelId env (.page owner (.orders (items.filterMap id)))) = worked
    have hkept : Paged owner drawn base worked := hwork ▸ work_kept _ (h.act _)
    have hsame : worked.requests = s.requests := by
      rw [← hwork, work_requests]
      rfl
    have hcommitted : worked.committed = s.committed := by
      rw [← hwork, work_committed]
      rfl
    have hpagination : worked.pagination = s.pagination := by
      rw [← hwork, work_pagination]
      rfl
    rw [← hsame]
    have hmeet : Paged owner drawn base (worked.meet rt channelId env) := hkept.meet
    apply progress_comes before hdrawn hmeet
    · change worked.requests = worked.pagination :: before
      rw [hsame, hpagination, hrequests]
    · change worked.committed.map Prod.fst = before.reverse
      rw [hcommitted, hthrough]
    · change env.listOrders worked.requests = _
      rw [hsame, hpage]

theorem round_comes (hdrawn : DrawnFrom env drawn) (h : AtTop owner drawn base s) :
    Comes owner drawn base env (s.requests.length + 1)
      (s.round rt channelId env owner leaseSeconds) := by
  unfold Reconciling.round
  split
  · exact exits_leave h.toPaged nofun
  rename_i hnew
  have hact : Paged owner drawn base (s.act rt channelId env (.heartbeat owner leaseSeconds)) :=
    h.toPaged.act _
  dsimp only
  split
  · refine answered_comes s.requests hdrawn ?_ rfl h.through
    refine ⟨nodup_cons.mpr ⟨hnew, h.once⟩, forall_mem_cons.mpr ⟨h.ahead, h.within⟩, ?_, ?_,
      hact.stays, hact.base⟩
    · change s.committed.map Prod.fst <+: (s.pagination :: s.requests).reverse
      rw [h.through, reverse_cons]
      exact prefix_append _ _
    · have hlength := congrArg length h.through
      rw [length_map, length_reverse] at hlength
      change s.requests.length + 1 ≤ s.committed.length + 1
      omega
  · exact exits_leave hact nofun

end

theorem DrawnFrom.imp {env : Surroundings} {drawn drawn' : Marker → Prop} (h : DrawnFrom env drawn)
    (himp : ∀ marker, drawn marker → drawn' marker) : DrawnFrom env drawn' := by
  intro requests items pagination next hpage hnext
  exact himp _ (h requests items pagination next hpage hnext)

theorem requests_le {owner : Nat} {base : List Commit} {continuations : Finset Marker} {s : Reconciling}
    (h : Paged owner (· ∈ continuations) base s) : s.requests.length ≤ continuations.card := by
  rw [← length_map (f := reconciliationPaginationMarker), ← toFinset_card_of_nodup h.once]
  apply Finset.card_le_card
  intro marker hmarker
  obtain ⟨p, hp, rfl⟩ := mem_map.mp (mem_toFinset.mp hmarker)
  exact h.within p hp

/-- A call ends if the continuations are drawn from finitely many, whatever others do in between. -/
theorem exists_exits {rt : Runtime} {channelId : Id} {env : Surroundings} {owner leaseSeconds : Nat}
    {base : List Commit} (continuations : Finset Marker) (hdrawn : DrawnFrom env (· ∈ continuations))
    {s : Reconciling} (h : AtTop owner (· ∈ continuations) base s) :
    ∃ out, Leaves (Reconciling.round rt channelId env owner leaseSeconds) s out ∧
      Exits owner (· ∈ continuations) base env out := by
  have hcome : ∀ s, AtTop owner (· ∈ continuations) base s → Comes owner (· ∈ continuations) base env
      (s.requests.length + 1) (s.round rt channelId env owner leaseSeconds) :=
    fun s hs => round_comes hdrawn hs
  have hround : ∀ s next, AtTop owner (· ∈ continuations) base s →
      s.round rt channelId env owner leaseSeconds = .inl next →
        AtTop owner (· ∈ continuations) base next ∧ s.requests.length < next.requests.length := by
    intro s next hs hnext
    have hcomes := hcome s hs
    rw [hnext] at hcomes
    exact ⟨hcomes.1, by rw [hcomes.2]; exact Nat.lt_succ_self _⟩
  obtain ⟨out, hleaves⟩ := exists_leaves _ _ _ hround (fun _ hs => requests_le hs.toPaged) h
  obtain ⟨last, hlast, hexit⟩ := hleaves.invariant (fun s next hs hnext => (hround s next hs hnext).1) h
  have hcomes := hcome last hlast
  rw [hexit] at hcomes
  exact ⟨out, hleaves, hcomes⟩

/-- For continuations that are drawn from finitely many, `reconcile_recent_orders` ends, with no
continuation asked for twice; it returns only after a page that says that there are no more; and every
page but the last one is committed, and is so in the end, as is what was committed before. -/
theorem reconciliation_ends (rt : Runtime) (channelId : Id) (env : Surroundings) (pageSize : Int)
    (leaseSeconds : Nat) (w : World) (continuations : Finset Marker)
    (hdrawn : DrawnFrom env (· ∈ continuations)) :
    ∃ rounds out,
      (∀ fuel, rounds ≤ fuel →
        reconcileRecentOrders rt channelId env pageSize leaseSeconds w fuel = some out) ∧
      (out.last.requests.map reconciliationPaginationMarker).Nodup ∧
      out.last.requests.length ≤ continuations.card + 1 ∧
      (∀ processed, out.exit = .returned processed → ∃ items pagination,
        env.listOrders out.last.requests = .page items pagination ∧ pagination.hasMore = false) ∧
      out.last.committed.map Prod.fst <+: out.last.requests.reverse ∧
      out.last.requests.length ≤ out.last.committed.length + 1 ∧
      (∀ page ∈ out.last.committed,
        ∃ c ∈ out.last.world.commits, c.owner = w.runs.length ∧ c.writes = page.2) ∧
      w.commits <+: out.last.world.commits := by
  unfold reconcileRecentOrders
  have hacquired : w.commits <+: (w.step rt channelId (.acquire .reconciliation leaseSeconds 0)).commits :=
    commits_step rt channelId w _
  by_cases hfree : w.lease.free w.clock = true
  · simp only [hfree, if_true]
    let first := reconciliationInitialPagination env.connectorType pageSize
    let drawn := insert (reconciliationPaginationMarker first) continuations
    have hdrawn' : DrawnFrom env (· ∈ drawn) := hdrawn.imp fun _ => Finset.mem_insert_of_mem
    have hstart : AtTop w.runs.length (· ∈ drawn) w.commits
        ⟨w.step rt channelId (.acquire .reconciliation leaseSeconds 0), 0, first, [], [], 0⟩ :=
      ⟨⟨nodup_nil, nofun, prefix_rfl, Nat.zero_le _, nofun, hacquired⟩, rfl, Finset.mem_insert_self _ _⟩
    obtain ⟨out, hleaves, hexits⟩ := exists_exits drawn hdrawn' hstart
    obtain ⟨rounds, hrounds⟩ := hleaves.loop
    have hcard : drawn.card ≤ continuations.card + 1 := Finset.card_insert_le _ _
    have hlength := requests_le hexits.kept
    exact ⟨rounds, out, hrounds, hexits.kept.once, hlength.trans hcard,
      fun processed hreturned => (hexits.returned processed hreturned).2, hexits.kept.pages,
      hexits.kept.behind, hexits.kept.stays, hexits.kept.base⟩
  · simp only [hfree]
    exact ⟨0, _, fun _ _ => rfl, nodup_nil, Nat.zero_le _, nofun, prefix_rfl, Nat.zero_le _, nofun, hacquired⟩

namespace Sample

/-- A connector whose second page, which calls itself another one, leads to itself. -/
def circular : Surroundings where
  connectorType := .snappshop
  reconciliationRequiresOrderDetail := none
  listOrders
    | [_] => .page [] (.cursor { nextCursor := some "a", hasMore := true })
    | [_, _] => .page [] (.cursor { cursor := some "b", nextCursor := some "a", hasMore := true })
    | _ => .raises
  getOrder _ _ := none
  others _ := []

theorem circular_page (h : circular.listOrders requests = .page items pagination) :
    pagination = .cursor { nextCursor := some "a", hasMore := true } ∨
      pagination = .cursor { cursor := some "b", nextCursor := some "a", hasMore := true } := by
  unfold circular at h
  dsimp only at h
  split at h
  · cases h
    exact .inl rfl
  · cases h
    exact .inr rfl
  · cases h

theorem circular_drawn : DrawnFrom circular (· ∈ ({.cursor (some "a")} : Finset Marker)) := by
  intro requests items pagination next hpage hnext
  rcases circular_page hpage with rfl | rfl
  · cases hnext
    decide
  · cases hnext
    decide

end Sample

open Sample

/-- The call asks for at most two pages, and does not return. -/
theorem circular_refused : ∃ rounds out,
      (∀ fuel, rounds ≤ fuel → reconcileRecentOrders runtime "snappshop:main" circular 50 60
        {} fuel = some out) ∧
      out.last.requests.length ≤ 2 ∧ ∀ processed, out.exit ≠ .returned processed := by
  obtain ⟨rounds, out, hrounds, -, hlength, hreturned, -⟩ := reconciliation_ends runtime
    "snappshop:main" circular 50 60 {} {.cursor (some "a")} circular_drawn
  refine ⟨rounds, out, hrounds, hlength, ?_⟩
  intro processed hexit
  obtain ⟨items, pagination, hpage, hlast⟩ := hreturned processed hexit
  rcases circular_page hpage with rfl | rfl <;> cases hlast

end FlowHub.Orders
