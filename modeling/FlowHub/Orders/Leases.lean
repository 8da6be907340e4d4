import FlowHub.Orders.SyncRuns

namespace FlowHub.Orders

open Python Webhooks List

/-- What a step can do to the channel. -/
inductive Move (w : World) (a : Action) : World → Prop
  | idle : Move w a w
  | tick (duration : Time) : Move w a { w with clock := w.clock + duration }
  | arrive (store : Store) (arrival : a.owner = none) : Move w a { w with store }
  | acquire (expiresAt : Time) (pos : Position) (none : a.owner = none)
      (free : w.lease.free w.clock = true) :
      Move w a { w with
        lease := ⟨some w.runs.length, some expiresAt⟩
        runs := w.runs ++ [⟨w.runs.length, expiresAt, [], .ready pos⟩] }
  | inside (r r' : Run) (actor : a.owner = some r.owner) (found : w.run r.owner = some r)
      (owner : r'.owner = r.owner) (same : r'.expiresAt = r.expiresAt)
      (live : r'.phase ≠ .ended → r.phase ≠ .ended) : Move w a (w.put r')
  | commit (r r' : Run) (writes : List Write) (store : Store) (lease : Lease)
      (actor : a.owner = some r.owner) (found : w.run r.owner = some r) (owner : r'.owner = r.owner)
      (current : w.lease.current r.owner w.clock = true) (kept : lease.owner = w.lease.owner)
      (expiry : lease.expiresAt = some r'.expiresAt ∨ lease = w.lease ∧ r'.expiresAt = r.expiresAt)
      (live : r.phase ≠ .ended) :
      Move w a { w.put r' with
        store, lease, commits := w.commits ++ [⟨r.owner, writes, w.lease, w.clock⟩] }
  | release (r r' : Run) (store : Store) (actor : a = .release r.owner)
      (found : w.run r.owner = some r) (exiting : r.phase = .exiting) (owner : r'.owner = r.owner)
      (ended : r'.phase = .ended) :
      Move w a { w.put r' with
        store
        lease := if w.lease.owner = some r.owner then ⟨none, none⟩ else w.lease
        commits := w.commits ++ [⟨r.owner, r.staged, w.lease, w.clock⟩] }

section

variable {w : World} {a : Action} {r : Run}

theorem Move.enter (actor : a.owner = some r.owner) (found : w.run r.owner = some r) (phase : Phase) (live : r.phase ≠ .ended) :
    Move w a (w.enter r phase) :=
  .inside r _ actor found rfl rfl fun _ => live

theorem Move.put (actor : a.owner = some r.owner) (found : w.run r.owner = some r) (staged : List Write) (phase : Phase)
    (live : r.phase ≠ .ended) : Move w a (w.put { r with staged, phase }) :=
  .inside r _ actor found rfl rfl fun _ => live

theorem heartbeat_move (actor : a.owner = some r.owner) (found : w.run r.owner = some r) (leaseSeconds : Nat) :
    Move w a (w.heartbeat r leaseSeconds) := by
  unfold World.heartbeat
  cases hphase : r.phase with
  | ready pos =>
    have hlive : r.phase ≠ .ended := by
      rw [hphase]
      nofun
    dsimp only
    by_cases hcurrent : w.lease.current r.owner w.clock = true
    · rw [if_pos hcurrent, World.commit]
      cases session w.store r.staged with
      | none => exact .put actor found [] .failing hlive
      | some store => exact .commit r _ r.staged store _ actor found rfl hcurrent rfl (.inl rfl) hlive
    · rw [if_neg hcurrent]
      exact .put actor found [] .failing hlive
  | _ => exact .idle

/-- A run that has waited for a page, or reads the next receipt, only moves on. -/
theorem page_enter {pos : Position} (hphase : r.phase = .listing pos) (answer : Answer) :
    ∃ phase, w.page r answer = w.enter r phase := by
  unfold World.page
  rw [hphase]
  cases pos with
  | polling cursor =>
    cases answer with
    | events items next => exact ⟨_, rfl⟩
    | orders items => exact ⟨_, rfl⟩
    | raises => exact ⟨_, rfl⟩
  | reconciliation =>
    cases answer with
    | events items next => exact ⟨_, rfl⟩
    | orders items => exact ⟨_, rfl⟩
    | raises => exact ⟨_, rfl⟩
  | webhook receiptIds =>
    cases receiptIds with
    | nil => exact ⟨_, rfl⟩
    | cons receiptId rest =>
      dsimp only
      cases w.store.db.webhooks.receipt receiptId with
      | none => exact ⟨_, rfl⟩
      | some receipt =>
        dsimp only
        split
        · exact ⟨_, rfl⟩
        · exact ⟨_, rfl⟩

theorem page_move (actor : a.owner = some r.owner) (found : w.run r.owner = some r) (answer : Answer) :
    Move w a (w.page r answer) := by
  cases hphase : r.phase with
  | listing pos =>
    obtain ⟨phase, hpage⟩ := @page_enter w r pos hphase answer
    rw [hpage]
    exact .enter actor found phase (by simp [hphase])
  | _ =>
    simp only [World.page, hphase]
    exact .idle

theorem take_move (actor : a.owner = some r.owner) (found : w.run r.owner = some r) : Move w a (w.take rt r) := by
  unfold World.take
  cases hphase : r.phase with
  | working pos page rest =>
    have hlive : r.phase ≠ .ended := by simp [hphase]
    cases rest with
    | nil => exact .idle
    | cons item rest =>
      cases session w.store r.staged with
      | none => exact .enter actor found _ hlive
      | some s =>
        cases item with
        | event event =>
          dsimp only
          split
          · exact .enter actor found _ hlive
          · exact .put actor found _ _ hlive
        | receipt receipt webhook =>
          dsimp only
          split
          · exact .put actor found _ _ hlive
          · exact .put actor found _ _ hlive
        | order order => exact .enter actor found _ hlive
  | _ => exact .idle

theorem order_move (actor : a.owner = some r.owner) (found : w.run r.owner = some r) (answer : Option ChannelOrder) :
    Move w a (w.order rt r answer) := by
  unfold World.order
  cases hphase : r.phase with
  | awaiting pos page item rest =>
    have hlive : r.phase ≠ .ended := by simp [hphase]
    dsimp only
    split
    · exact .put actor found _ _ hlive
    · exact .enter actor found _ hlive
  | _ => exact .idle

theorem progress_move (actor : a.owner = some r.owner) (found : w.run r.owner = some r) (more : Bool) :
    Move w a (w.progress r more) := by
  unfold World.progress
  cases hphase : r.phase with
  | working pos page rest =>
    have hlive : r.phase ≠ .ended := by simp [hphase]
    cases rest with
    | cons item rest => exact .idle
    | nil =>
      dsimp only
      by_cases hcurrent : w.lease.current r.owner w.clock = true
      · rw [if_pos hcurrent, World.commit]
        split
        · exact .commit r _ _ _ _ actor found rfl hcurrent rfl (.inr ⟨rfl, rfl⟩) hlive
        · exact .put actor found [] _ hlive
      · rw [if_neg hcurrent]
        exact .put actor found [] _ hlive
  | _ => exact .idle

theorem release_move (actor : a = .release r.owner) (found : w.run r.owner = some r) : Move w a (w.release r) := by
  unfold World.release
  cases hphase : r.phase with
  | exiting =>
    simp only [World.commit]
    split
    · exact .release r _ _ actor found hphase rfl rfl
    · exact .put (by rw [actor]; rfl) found [] _ (by simp [hphase])
  | _ => exact .idle

theorem withRun_move (actor : a.owner = some owner)
    (h : ∀ r, owner = r.owner → a.owner = some r.owner → w.run r.owner = some r →
      Move w a (step r)) : Move w a (w.withRun owner step) := by
  unfold World.withRun
  cases hrun : w.run owner with
  | none => exact .idle
  | some r =>
    have howner : r.owner = owner := (Table.get_some hrun).2
    exact h r howner.symm (howner ▸ actor) (howner ▸ hrun)

theorem step_move (rt : Runtime) (channelId : Id) (w : World) (a : Action) :
    Move w a (w.step rt channelId a) := by
  cases a with
  | tick duration => exact .tick duration
  | arrive providerEventId payloadHash webhook => exact .arrive _ rfl
  | acquire route leaseSeconds limit =>
    simp only [World.step, World.acquire]
    split
    · rename_i hfree
      exact .acquire _ _ rfl hfree
    · exact .idle
  | heartbeat owner leaseSeconds => exact withRun_move rfl fun r _ actor h => heartbeat_move actor h leaseSeconds
  | page owner answer => exact withRun_move rfl fun r _ actor h => page_move actor h answer
  | take owner => exact withRun_move rfl fun r _ actor h => take_move actor h
  | order owner answer => exact withRun_move rfl fun r _ actor h => order_move actor h answer
  | progress owner more => exact withRun_move rfl fun r _ actor h => progress_move actor h more
  | raise owner =>
    refine withRun_move rfl fun r _ actor h => ?_
    unfold World.raise
    cases hphase : r.phase with
    | failing => exact .idle
    | exiting => exact .idle
    | ended => exact .idle
    | _ => exact .enter actor h _ (by simp [hphase])
  | fail owner =>
    refine withRun_move rfl fun r _ actor h => ?_
    unfold World.fail
    cases hphase : r.phase with
    | failing => exact .put actor h [] _ (by simp [hphase])
    | _ => exact .idle
  | cancel owner =>
    refine withRun_move rfl fun r _ actor h => ?_
    unfold World.cancel
    split
    · rename_i hphase
      exact .enter actor h _ (by simp [hphase])
    · rename_i hphase
      exact .enter actor h _ (by simp [hphase])
    · rename_i hphase
      exact .enter actor h _ (by simp [hphase])
    · exact .idle
  | release owner => exact withRun_move rfl fun r ho _ h => release_move (congrArg Action.release ho) h
  | crash owner =>
    refine withRun_move rfl fun r _ actor h => ?_
    exact .inside r _ actor h rfl rfl fun hended => absurd rfl hended

/-- A run that has not ended, within the lease that it last wrote. -/
def World.Holds (w : World) (r : Run) : Prop :=
  r ∈ w.runs ∧ r.phase ≠ .ended ∧ w.clock < r.expiresAt

structure Leased (w : World) : Prop where
  owners : w.runs.map Run.owner = List.range w.runs.length
  bound : ∀ owner, w.lease.owner = some owner → owner < w.runs.length
  held : ∀ r, w.Holds r → w.lease = ⟨some r.owner, some r.expiresAt⟩

theorem mem_put {r' : Run} (h : r ∈ (w.put r').runs) : r = r' ∨ r ∈ w.runs ∧ r.owner ≠ r'.owner := by
  rcases Table.mem_set.mp h with ⟨q, -, -, rfl⟩ | hold
  · exact .inl rfl
  · exact .inr hold

theorem put_owners {r' : Run} : (w.put r').runs.map Run.owner = w.runs.map Run.owner := by
  rw [World.put, Table.set, map_map]
  refine map_congr_left fun q _ => ?_
  by_cases h : q.owner = r'.owner
  · simp [h]
  · simp [h]

theorem put_length {r' : Run} : (w.put r').runs.length = w.runs.length := by
  rw [World.put, Table.set, length_map]

theorem current_iff {l : Lease} : l.current owner now = true ↔ ∃ t, l = ⟨some owner, some t⟩ ∧ now < t := by
  obtain ⟨holder, expiresAt⟩ := l
  cases expiresAt with
  | none => simp [Lease.current]
  | some t => simp [Lease.current]

theorem Leased.move (h : Leased w) (m : Move w a w') : Leased w' := by
  cases m with
  | idle => exact h
  | tick duration =>
    refine ⟨h.owners, h.bound, fun r hr => ?_⟩
    have hearlier : w.clock < r.expiresAt := lt_of_le_of_lt (Nat.le_add_right _ _) hr.2.2
    exact h.held r ⟨hr.1, hr.2.1, hearlier⟩
  | arrive store arrival => exact ⟨h.owners, h.bound, h.held⟩
  | acquire expiresAt pos none free =>
    constructor
    case owners =>
      rw [map_append, h.owners, length_append, length_singleton, range_succ]
      rfl
    case bound =>
      intro owner howner
      rw [← Option.some.inj howner, length_append]
      exact Nat.lt_succ_self _
    case held =>
      intro r ⟨hmem, hlive, hlt⟩
      rcases mem_append.mp hmem with hold | hnew
      · -- whoever holds the lease keeps it from being free
        have hlease := h.held r ⟨hold, hlive, hlt⟩
        rw [hlease] at free
        simp only [Lease.free, Option.all_some, decide_eq_true_eq] at free
        exact absurd hlt (Nat.not_lt.mpr free)
      · rw [mem_singleton.mp hnew]
  | inside r r' actor found owner same live =>
    constructor
    case owners => rw [put_owners, put_length, h.owners]
    case bound =>
      rw [put_length]
      exact h.bound
    case held =>
      intro q ⟨hmem, hlive, hlt⟩
      rcases mem_put hmem with rfl | ⟨hold, -⟩
      · rw [owner, same]
        rw [same] at hlt
        exact h.held r ⟨(Table.get_some found).1, live hlive, hlt⟩
      · exact h.held q ⟨hold, hlive, hlt⟩
  | commit r r' writes store lease actor found owner current kept expiry live =>
    obtain ⟨t, hlease, hlt⟩ := current_iff.mp current
    constructor
    case owners =>
      rw [put_owners, put_length, h.owners]
    case bound =>
      rw [kept, put_length]
      exact h.bound
    case held =>
      intro q ⟨hmem, hlive, hqlt⟩
      dsimp only at hmem hqlt ⊢
      rcases mem_put hmem with rfl | ⟨hold, hne⟩
      · rcases expiry with hrenewed | ⟨hsame, hkept⟩
        · obtain ⟨holder, expiresAt⟩ := lease
          rw [hlease] at kept
          dsimp only at kept hrenewed
          rw [kept, hrenewed, owner]
        · rw [hsame, owner, hkept]
          rw [hkept] at hqlt
          exact h.held r ⟨(Table.get_some found).1, live, hqlt⟩
      · have hother := h.held q ⟨hold, hlive, hqlt⟩
        rw [hlease] at hother
        rw [Lease.mk.injEq, Option.some.injEq] at hother
        exact absurd (hother.1.symm.trans owner.symm) hne
  | release r r' store actor found exiting owner ended =>
    have hkept : ∀ q, q ∈ w.runs → q.owner ≠ r.owner → q.phase ≠ .ended → w.clock < q.expiresAt →
        w.lease.owner ≠ some r.owner := by
      intro q hq hne hlive hlt heq
      rw [h.held q ⟨hq, hlive, hlt⟩] at heq
      exact hne (Option.some.inj heq)
    constructor
    case owners =>
      rw [put_owners, put_length, h.owners]
    case bound =>
      intro o ho
      dsimp only at ho ⊢
      rw [put_length]
      split at ho
      · cases ho
      · exact h.bound o ho
    case held =>
      intro q ⟨hmem, hlive, hlt⟩
      dsimp only at hmem hlt ⊢
      rcases mem_put hmem with rfl | ⟨hold, hne⟩
      · exact absurd ended hlive
      · rw [if_neg (hkept q hold (owner ▸ hne) hlive hlt)]
        exact h.held q ⟨hold, hlive, hlt⟩

/-- A run that does not own the lease leaves it as it is. -/
theorem Move.lease_kept (m : Move w a w') {owner : Nat} (ha : a.owner = some owner)
    (hlost : w.lease.owner ≠ some owner) : w'.lease = w.lease := by
  cases m with
  | idle => rfl
  | tick duration => rfl
  | arrive store arrival => rfl
  | acquire expiresAt pos none free =>
    rw [none] at ha
    cases ha
  | inside r r' actor found owner same live => rfl
  | commit r r' writes store lease actor found owner current kept expiry live =>
    obtain ⟨t, hlease, -⟩ := current_iff.mp current
    rw [hlease, ← ha, actor] at hlost
    exact absurd rfl hlost
  | release r r' store actor found exiting owner ended =>
    rw [actor] at ha
    rw [if_neg (by rw [← ha] at hlost; exact hlost)]

/-- Every commit that makes data durable has found its run to be the owner of an unexpired lease. -/
def Fenced (w : World) : Prop :=
  ∀ c ∈ w.commits, c.writes ≠ [] → c.found.current c.owner c.time = true

/-- A run releases the lease within it, or with nothing staged. -/
def Timely (w : World) (a : Action) : Prop :=
  ∀ owner r, a = .release owner → w.run owner = some r → r.phase = .exiting →
    r.staged = [] ∨ w.clock < r.expiresAt

theorem Fenced.move (h : Fenced w) (hl : Leased w) (m : Move w a w') (timely : Timely w a) : Fenced w' := by
  cases m with
  | idle => exact h
  | tick duration => exact h
  | arrive store arrival => exact h
  | acquire expiresAt pos none free => exact h
  | inside r r' actor found owner same live => exact h
  | commit r r' writes store lease actor found owner current kept expiry live =>
    intro c hc hne
    rcases mem_append.mp hc with hold | hnew
    · exact h c hold hne
    · rw [mem_singleton.mp hnew]
      exact current
  | release r r' store actor found exiting owner ended =>
    intro c hc hne
    rcases mem_append.mp hc with hold | hnew
    · exact h c hold hne
    rw [mem_singleton.mp hnew] at hne ⊢
    have hlt := (timely r.owner r actor found exiting).resolve_left hne
    have hlease := hl.held r ⟨(Table.get_some found).1, by simp [exiting], hlt⟩
    exact current_iff.mpr ⟨r.expiresAt, hlease, hlt⟩

/-- The tables change by a commit, or by the arrival of a receipt. -/
theorem Move.durable (m : Move w a w') : a.owner = none ∨ w'.store = w.store ∨
    ∃ c, w'.commits = w.commits ++ [c] := by
  cases m with
  | idle => exact .inr (.inl rfl)
  | tick duration => exact .inr (.inl rfl)
  | arrive store arrival => exact .inl arrival
  | acquire expiresAt pos none free => exact .inl none
  | inside r r' actor found owner same live => exact .inr (.inl rfl)
  | commit r r' writes store lease actor found owner current kept expiry live =>
    exact .inr (.inr ⟨_, rfl⟩)
  | release r r' store actor found exiting owner ended => exact .inr (.inr ⟨_, rfl⟩)

theorem timely_other (h : ∀ owner, a ≠ .release owner) : Timely w a := by
  intro owner r ha
  exact absurd ha (h owner)

theorem leased_after (rt : Runtime) (channelId : Id) (actions : List Action) :
    Leased (World.after rt channelId actions) := by
  have hrun : ∀ w, Leased w → Leased (actions.foldl (World.step rt channelId) w) := by
    induction actions with
    | nil => exact fun w h => h
    | cons a rest ih => exact fun w h => ih _ (h.move (step_move rt channelId w a))
  refine hrun {} ⟨rfl, by simp, fun r hr => ?_⟩
  cases hr.1

theorem fenced_run {w : World} {actions : List Action} (h : Fenced w) (hl : Leased w)
    (timely : Along rt channelId Timely w actions) :
    Fenced (actions.foldl (World.step rt channelId) w) := by
  induction actions generalizing w with
  | nil => exact h
  | cons a rest ih =>
    obtain ⟨hfirst, hrest⟩ := timely
    have hmove := step_move rt channelId w a
    exact ih (h.move hl hmove hfirst) (hl.move hmove) hrest

end

/-- At most one run holds the lease, a run that has lost it leaves it to its successor, and the
tables change by commits only. -/
structure LeaseSafe (rt : Runtime) (channelId : Id) (w : World) : Prop where
  one : ∀ r r', w.Holds r → w.Holds r' → r = r'
  owner : ∀ r, w.Holds r → w.lease.current r.owner w.clock = true
  kept : ∀ a owner, a.owner = some owner → w.lease.owner ≠ some owner →
    (w.step rt channelId a).lease = w.lease
  durable : ∀ a, a.owner = none ∨ (w.step rt channelId a).store = w.store ∨
    ∃ c, (w.step rt channelId a).commits = w.commits ++ [c]

/-- The lease is safe in every run, and fences every commit off where each run releases it in time
or with nothing staged. -/
theorem lease_fencing (rt : Runtime) (channelId : Id) (actions : List Action) :
    LeaseSafe rt channelId (World.after rt channelId actions) ∧
      (Along rt channelId Timely {} actions → Fenced (World.after rt channelId actions)) := by
  have hleased := leased_after rt channelId actions
  constructor
  · constructor
    case one =>
      intro r r' hr hr'
      have hsame := (hleased.held r hr).symm.trans (hleased.held r' hr')
      rw [Lease.mk.injEq, Option.some.injEq] at hsame
      have hunique : ((World.after rt channelId actions).runs.map Run.owner).Nodup := by
        rw [hleased.owners]
        exact nodup_range
      exact inj_on_of_nodup_map hunique hr.1 hr'.1 hsame.1
    case owner =>
      intro r hr
      exact current_iff.mpr ⟨r.expiresAt, hleased.held r hr, hr.2.2⟩
    case kept =>
      intro a owner ha hlost
      exact (step_move rt channelId _ a).lease_kept ha hlost
    case durable =>
      intro a
      exact (step_move rt channelId _ a).durable
  · intro timely
    exact fenced_run (by simp [Fenced]) (leased_after rt channelId []) timely

namespace Sample

def polled (eventId : String) : ChannelOrderEvent :=
  { channelId := "snappshop:main", connectorType := .snappshop, eventId, eventType := "NEW_ORDER"
    occurredAt := none, orderIdentifiers := { orderNumber := some "1001" } }

/-- A run that waits for the order of an event. -/
def waiting : List Action :=
  [.acquire .polling 1 100, .heartbeat 0 1, .page 0 (.events [polled "e1"] (some "next")), .take 0]

/-- It is cancelled after another run has taken the lease over. -/
def takenOver : List Action :=
  waiting ++ [.tick (seconds 2), .acquire .polling 60 100, .cancel 0, .release 0]

def finished : List Action :=
  waiting ++ [.order 0 (some (order "NEW_ORDER" none [line "7" 1 []])), .progress 0 false, .release 0]

end Sample

open Sample

/-- A late release makes a half-processed page durable. -/
theorem release_not_fenced : ¬ Fenced (World.after runtime "snappshop:main" takenOver) := by
  intro h
  have hcommit : ∃ c ∈ (World.after runtime "snappshop:main" takenOver).commits,
      c.writes.isEmpty = false ∧ c.found.owner = some 1 ∧ c.owner = 0 := by decide +kernel
  obtain ⟨c, hc, hwrites, hfound, howner⟩ := hcommit
  have hne : c.writes ≠ [] := by
    intro hnil
    rw [hnil] at hwrites
    cases hwrites
  obtain ⟨t, hlease, -⟩ := current_iff.mp (h c hc hne)
  rw [hlease, howner] at hfound
  cases hfound

theorem lease_fencing_finished : Fenced (World.after runtime "snappshop:main" Sample.finished) ∧
      (World.after runtime "snappshop:main" Sample.finished).store.db.effects.length = 1 := by
  refine ⟨(lease_fencing runtime "snappshop:main" Sample.finished).2 ?_, by decide +kernel⟩
  have hclean : ∀ r ∈ (World.after runtime "snappshop:main"
      (Sample.finished.take 6)).runs, r.staged.isEmpty = true := by decide +kernel
  refine ⟨timely_other nofun, timely_other nofun, timely_other nofun, timely_other nofun,
    timely_other nofun, timely_other nofun, ?_, trivial⟩
  intro owner r _ hrun _
  exact .inl (isEmpty_iff.mp (hclean r (Table.get_some hrun).1))

end FlowHub.Orders
