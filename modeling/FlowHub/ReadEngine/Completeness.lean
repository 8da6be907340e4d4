import FlowHub.ReadEngine.Tracking

namespace FlowHub.ReadEngine

open Python List

section

variable {k : Connector} {w : World} {r : Run} {n : Nat} {c : Change}

/-- No row was read after now. -/
theorem Tracked.fetched_le (h : Tracked k w) {cache : Cache}
    (hrows : ∀ row ∈ cache, row.columns.lastSuccessfulRead = some w.clock ∨
      ∃ old ∈ w.cache, row.columns.lastSuccessfulRead = old.columns.lastSuccessfulRead) :
    ∀ row ∈ cache, ∀ t ∈ row.columns.lastSuccessfulRead, t ≤ w.clock := by
  intro row hrow t ht
  rcases hrows row hrow with hread | ⟨old, hold, hsame⟩
  · rw [hread] at ht
    cases ht
    exact Nat.le_refl w.clock
  · exact h.fetched old hold t (hsame ▸ ht)

theorem Tracked.stored (h : Tracked k w) (hr : r ∈ w.runs) {owned : Owned}
    (hc : ∀ items next, r.phase = .fetched items next →
      ∀ n c, w.changes[n]? = some c → c.at_ < w.clock → Behind k r next c ∨
        Reads k w ⟨w.cache, r.seen, 0⟩ (.page (items.map (·.1.item)) owned w.clock w.clock)
          items n c) : Tracked k (w.store k r owned) := by
  unfold World.store
  cases hphase : r.phase with
  | started => exact h
  | ready => exact h
  | drained => exact h
  | fetched items next =>
    dsimp only
    cases hstore : storePage k.unicode k.printable k.dialect owned k.id (items.map (·.1.item))
        w.clock w.clock ⟨w.cache, r.seen, 0⟩ with
    | none => exact h.failed hr
    | some p =>
      obtain ⟨hruns, hnone⟩ := h.alone hr
      have hjobs : ∀ job ∈ Table.set DlRefreshJob.id w.jobs r.jobId (fun job => { job with
          cursor := next, leaseExpiresAt := some (w.lease r.strategy) }),
          job.status ≠ .pending := by
        intro job hjob
        rcases Table.mem_set.mp hjob with ⟨old, hold, -, rfl⟩ | ⟨hmem, -⟩
        · exact hnone old hold
        · exact hnone job hmem
      have hperform : perform k.unicode k.printable k.dialect k.id ⟨w.cache, r.seen, 0⟩
          (.page (items.map (·.1.item)) owned w.clock w.clock) = some p := hstore
      have hfetched := h.fetched_le (perform_fetched hperform rfl)
      -- What the page leaves unread, the cursor behind it is for.
      have hread : ∀ n c, w.changes[n]? = some c → c.at_ < w.clock →
          Reflected k w.changes p.cache n (c.id k) ∨
            Ahead k { r with cursor := next, seen := p.seen
                             phase := if next.isSome then .ready else .drained } n c := by
        intro n c hget hlt
        rcases hc items next hphase n c hget hlt with ⟨⟨id, hid, hbehind⟩, hsince⟩ | hreads
        · right
          rw [Option.mem_def] at hid
          subst hid
          simp only [Ahead, Option.isSome_some, if_true]
          refine ⟨fun last hlast => ?_, hsince⟩
          exact Option.some.inj hlast ▸ hbehind
        · left
          refine hreads.reflected rfl hperform (fun f hf => ?_) (page_sourced _ _ _ _ _ _)
          exact ((h.items r hr items next hphase).1 f hf).1
      have henter := World.enter_alone (r := r) (w := { w.setJob r.jobId (fun job => { job with
        cursor := next, leaseExpiresAt := some (w.lease r.strategy) }) with cache := p.cache })
        hruns fun r => { r with
          cursor := next, seen := p.seen, phase := if next.isSome then .ready else .drained }
      refine (congrArg (Tracked k) henter).mpr ?_
      constructor
      case ordered => exact h.ordered
      case past => exact h.past
      case fetched => exact hfetched
      case jobIds =>
        refine (congrArg Nodup (setJob_ids _ _ ?_)).mpr h.jobIds
        exact fun _ => rfl
      case jobStarts =>
        intro job hjob t ht
        rcases Table.mem_set.mp hjob with ⟨old, hold, -, rfl⟩ | ⟨hmem, -⟩
        · exact h.jobStarts old hold t ht
        · exact h.jobStarts job hmem t ht
      case runStarts =>
        intro other hother
        rw [mem_singleton.mp hother]
        obtain ⟨hstarted, job, hjob, hid, hstart⟩ := h.runStarts r hr
        exact ⟨hstarted, _, Table.mem_set.mpr (.inl ⟨job, hjob, hid, rfl⟩), hid, hstart⟩
      case one => exact Nat.add_le_add_left (no_pending hjobs).le 1
      case items =>
        intro other hother items next hphase
        rw [mem_singleton.mp hother] at hphase
        split at hphase <;> cases hphase
      case reads => exact h.reads
      case mark =>
        rintro n c hget ⟨t, ht, hlt⟩
        have hbefore := hlt.trans_le (watermark_le hfetched t ht)
        exact (hread n c hget hbefore).imp id fun hahead =>
          .inl ⟨_, mem_singleton_self _, hahead⟩
      case due =>
        intro other hother n c hget hlt
        rw [mem_singleton.mp hother] at hlt ⊢
        have hbefore := hlt.trans_le (h.runStarts r hr).1
        exact (hread n c hget hbefore).imp id Ahead.due
      case pendingDue => exact fun job hjob hpending => absurd hpending (hjobs job hjob)

theorem Tracked.storedRead (h : Tracked k w) {read : EntityRead} (hread : read ∈ w.reads)
    {owned : Owned} (hc : ∀ n c, w.changes[n]? = some c → c.at_ < w.clock → Waits k w n c ∨
      Reads k w ⟨w.cache, [], 0⟩ (.entity read.item owned w.clock w.clock) read.brought n c) :
    Tracked k (w.storeRead k read owned) := by
  obtain ⟨cache, hcache⟩ : ∃ cache, cache = (storeEntity k.unicode k.printable owned k.id read.item
      w.clock w.clock w.cache).getD w.cache := ⟨_, rfl⟩
  have hq : perform k.unicode k.printable k.dialect k.id ⟨w.cache, [], 0⟩
      (.entity read.item owned w.clock w.clock) = some ⟨cache, [], 0⟩ := by
    rw [hcache]
    rfl
  have hstore : w.storeRead k read owned = { w with cache := cache } := by
    rw [hcache]
    rfl
  have hfetched := h.fetched_le (perform_fetched hq rfl)
  have hkept : ∀ n c, w.changes[n]? = some c → c.at_ < w.clock →
      Reflected k w.changes cache n (c.id k) ∨ Waits k w n c := by
    intro n c hget hlt
    rcases hc n c hget hlt with hwaits | hreads
    · exact .inr hwaits
    left
    refine hreads.reflected rfl hq (fun f hf => ?_) (entity_sourced _ _ _ _ _ _)
    unfold EntityRead.brought at hf
    split at hf
    · cases hf
    · exact h.reads read hread f (Option.mem_toList.mp hf)
  rw [hstore]
  exact { h with
    fetched := hfetched
    mark := by
      rintro n c hget ⟨t, ht, hlt⟩
      exact hkept n c hget (hlt.trans_le (watermark_le hfetched t ht))
    due := by
      intro r hr n c hget hlt
      refine (hkept n c hget (hlt.trans_le (h.runStarts r hr).1)).imp id fun hwaits => ?_
      exact (h.waits hr hwaits).due
    pendingDue := by
      intro job hjob hpending
      obtain ⟨t, ht, -⟩ := h.pendingDue job hjob hpending
      obtain ⟨hruns, honly⟩ := h.idle hjob hpending
      refine ⟨t, ht, fun n c hget hlt => ?_⟩
      refine (hkept n c hget (hlt.trans_le (h.jobStarts job hjob t ht))).imp id fun hwaits => ?_
      rcases hwaits with ⟨r, hr, -⟩ | ⟨other, hother, hp, hbehind⟩
      · rw [hruns] at hr
        cases hr
      · exact honly other hother hp ▸ hbehind }

theorem Tracked.step (h : Tracked k w) {a : Action} (hc : Covers k w a) :
    Tracked k (ReadEngine.step k w a) := by
  have honRun : ∀ {key : Nat} {f : World → Run → World},
      (∀ r, w.run key = some r → Tracked k (f w r)) → Tracked k (w.onRun key f) := by
    intro key f hf
    unfold World.onRun
    cases hrun : w.run key with
    | none => exact h
    | some r => exact hf r hrun
  cases a with
  | tick duration => exact h.tick duration
  | change item => exact h.change item
  | start forceFull => exact h.start hc
  | open_ key => exact honRun fun r hr => h.opened (World.run_some hr).1 (hc r hr)
  | fetch key limit =>
    exact honRun (f := fun w r => w.fetch k r limit) fun r hr => h.paged (World.run_some hr).1 limit
  | store key owned =>
    exact honRun (f := fun w r => w.store k r owned) fun r hr =>
      h.stored (World.run_some hr).1 (hc r hr)
  | fail key => exact honRun fun r hr => h.failed (World.run_some hr).1
  | crash key => exact h.crashed hc
  | finish key =>
    exact honRun (f := fun w r => w.finish k r) fun r hr => h.finished (World.run_some hr).1
  | expire => exact h.expired
  | fetchEntity id =>
    change Tracked k { w with reads := w.reads ++ [⟨id, current k w.changes id⟩] }
    refine { h with reads := fun read hread f hf => ?_ }
    rcases mem_append.mp hread with hread | hread
    · exact h.reads read hread f hf
    · rw [mem_singleton.mp hread] at hf
      exact (current_some hf).1
  | storeEntity i owned =>
    simp only [ReadEngine.step]
    cases hread : w.reads[i]? with
    | none => exact h
    | some read => exact h.storedRead (mem_of_getElem? hread) (hc read hread)

theorem Tracked.complete (h : Tracked k w) (a : Action) : Complete k w a := by
  cases a with
  | finish key =>
    intro r hr _ hphase n c hget hlt
    rcases h.due r (World.run_some hr).1 n c hget hlt with hreflected | hdue
    · exact hreflected
    · rw [Due, Ahead, hphase] at hdue
      exact hdue.elim
  | _ => trivial

theorem tracked_empty (k : Connector) : Tracked k {} := by
  constructor <;> simp

end

/-- A property that holds where an invariant and the condition of a step do. -/
theorem Throughout.of_invariant {k : Connector} {I : World → Prop} {C P : World → Action → Prop}
    (step : ∀ w a, I w → C w a → I (ReadEngine.step k w a)) (holds : ∀ w a, I w → C w a → P w a) :
    ∀ {w : World} {actions : List Action}, I w → Throughout k C w actions → Throughout k P w actions := by
  intro w actions hw hc
  induction actions generalizing w with
  | nil => trivial
  | cons a rest ih =>
    obtain ⟨hcond, hrest⟩ := hc
    exact ⟨holds w a hw hcond, ih (step w a hw hcond) hrest⟩

def Throughout.decide (k : Connector) (P : World → Action → Prop) [∀ w a, Decidable (P w a)] :
    ∀ w actions, Decidable (Throughout k P w actions)
  | _, [] => isTrue trivial
  | w, a :: rest =>
    have : Decidable (Throughout k P (step k w a) rest) := Throughout.decide k P (step k w a) rest
    inferInstanceAs (Decidable (P w a ∧ Throughout k P (step k w a) rest))

instance (k : Connector) (P : World → Action → Prop) [∀ w a, Decidable (P w a)] (w : World)
    (actions : List Action) : Decidable (Throughout k P w actions) :=
  Throughout.decide k P w actions

namespace Sample

def shop : Connector := ⟨.ascii, fun _ => true, .postgresql, "woo"⟩

/-- The run completes with a product missing that was there before it started. -/
def misses (k : Connector) (w : World) : Action → Bool
  | .finish key => (w.run key).any fun r =>
    decide (r.strategy = .modifiedSince) && (r.phase matches .drained) && w.changes.any fun c =>
      decide (c.at_ < r.startedAt) && (w.cache.row k.id (c.id k)).isNone
  | _ => false

/-- Every page overwrites each product of the provider with its newest item. -/
def brings (k : Connector) (w : World) : Action → Bool
  | .start _ => !w.busy && w.runs.isEmpty
  | .open_ key => (w.run key).all fun r => !r.resumed
  | .store key owned => (w.run key).all fun r => match r.phase with
    | .fetched items _ => w.changes.zipIdx.all fun c =>
      ((Event.page (items.map (·.1.item)) owned w.clock w.clock).writes k.unicode k.printable k.id
        ⟨w.cache, r.seen, 0⟩ (c.1.id k)).isSome &&
      items.any (fun f => decide (f.1.id k = c.1.id k)) &&
      items.all fun f => decide (f.1.id k = c.1.id k → c.2 ≤ f.2)
    | _ => true
  | .storeEntity .. | .crash _ => false
  | _ => true

theorem misses_incomplete (h : Complete k w a) : misses k w a = false := by
  cases a with
  | finish key =>
    rw [Bool.eq_false_iff]
    intro hmisses
    simp only [misses, Option.any_eq_true, Bool.and_eq_true, any_eq_true, decide_eq_true_eq,
      Option.isNone_iff_eq_none] at hmisses
    obtain ⟨r, hr, ⟨hstrategy, hphase⟩, c, hc, hlt, hnone⟩ := hmisses
    obtain ⟨n, hget⟩ := mem_iff_getElem?.mp hc
    have hdrained : r.phase = .drained := by
      split at hphase
      · assumption
      · cases hphase
    obtain ⟨m, d, -, -, hid, row, hrow, -⟩ := h r hr hstrategy hdrained n c hget hlt
    rw [hid, hnone] at hrow
    cases hrow
  | _ => rfl

theorem brings_covers {k : Connector} {w : World} {a : Action} (h : brings k w a = true) : Covers k w a := by
  cases a with
  | start forceFull =>
    simp only [brings, Bool.and_eq_true, Bool.not_eq_true', List.isEmpty_iff] at h
    simp [Covers, h]
  | open_ key =>
    intro r hr hresumed
    rw [Option.mem_def] at hr
    simp [brings, hr, hresumed] at h
  | store key owned =>
    intro r hr items next hphase n c hget _
    rw [Option.mem_def] at hr
    simp only [brings, hr, Option.all_some, hphase, all_eq_true, Bool.and_eq_true,
      decide_eq_true_eq, any_eq_true] at h
    obtain ⟨⟨hwrites, hbrought⟩, hnewest⟩ := h (c, n) (mem_zipIdx_iff_getElem?.mpr hget)
    exact .inr (.inl ⟨⟨hwrites, hbrought⟩, hnewest⟩)
  | storeEntity => cases h
  | crash => cases h
  | _ => trivial

def manual (key limit : Nat) (owned : Owned) : List Action :=
  [.start false, .open_ key, .fetch key limit, .store key owned, .finish key]

/-- A product is changed, and read in full a second later. -/
def first : List Action := [.change (item "7" []), .tick 1] ++ manual 0 10 []

/-- A single-entity read takes the watermark past a new product. -/
def afterEntity : List Action :=
  first ++ [.tick 4, .change (item "9" []), .tick 5, .fetchEntity "7", .storeEntity 0 []] ++ manual 1 10 []

/-- A product is created behind the cursor of a full read. -/
def behindCursor : List Action :=
  [.change (item "5" []), .change (item "7" []), .tick 1, .start false, .open_ 0, .fetch 0 0,
    .store 0 [], .tick 1, .change (item "3" []), .tick 1, .fetch 0 0, .store 0 [], .finish 0] ++
    manual 1 10 []

/-- A run that failed behind its first page is resumed, and reads its watermark anew. -/
def resumed : List Action :=
  first ++ [.tick 4, .change (item "7" []), .change (item "9" []), .tick 1, .start false, .open_ 1,
    .fetch 1 0, .store 1 [], .fail 1, .tick 1] ++ manual 2 10 []

/-- An Apply job owns the listing of the new product. -/
def owned : List Action :=
  first ++ [.tick 4, .change (item "9" []), .tick 1] ++ manual 1 10 [("woo", "9")]

def again : List Action := first ++ [.tick 4, .change (item "7" []), .tick 1] ++ manual 1 10 []

theorem not_complete {actions : List Action}
    (h : ¬ Throughout shop (fun w a => misses shop w a = false) {} actions) :
    ¬ Throughout shop (Complete shop) {} actions := by
  intro hcomplete
  exact h (Throughout.of_invariant (I := fun _ => True) (fun _ _ _ _ => trivial)
    (fun _ _ _ hc => misses_incomplete hc) trivial hcomplete)

end Sample

open Sample

end FlowHub.ReadEngine
