import FlowHub.ProductPricing.Engine
import FlowHub.ProductPricing.OwnField

namespace FlowHub.ProductPricing

open Python Connectors Txn WritePipeline List Except

/-- What the editor reads, the tables of the engine, and an operation. -/
structure Desk where
  shop : Shop
  db : Db
  op : ProductPriceOperation

/-- The engine's runs of what a call asks, one after the other. -/
inductive Runs : Db → List Asked → List (World service) → Db → Prop
  | nil (db : Db) : Runs db [] [] db
  | cons {db after : Db} {fresh : Fresh} {command : WorkspaceWriteBatchCommand}
      {answer : Except Fault (List WorkspaceWriteResult)} {asked : List Asked} {w : World service}
      {ws : List (World service)}
      (run : Steps (executeWorkspace fresh command false) (.initial db) (.ofExcept answer) w)
      (rest : Runs w.state asked ws after) : Runs db ((command, answer) :: asked) (w :: ws) after

/-- Reads and refreshes, other writes of attempts, the approval, and a call of `apply`. -/
inductive Action where
  | refresh (shop : Shop)
  | elsewhere (db : Db)
  | approve
  | call (env : Surroundings) (runs : List (World service))

inductive Move (rt : Runtime) : Desk → Action → Desk → Prop
  | refresh (d : Desk) (shop : Shop) : Move rt d (.refresh shop) { d with shop }
  | elsewhere (d : Desk) {db : Db} (appends : Appends d.db db) : Move rt d (.elsewhere db) { d with db }
  | approve (d : Desk) {op : ProductPriceOperation} (h : approve rt d.shop d.op = .ok op) :
      Move rt d .approve { d with op }
  | call (d : Desk) {env : Surroundings} {ws : List (World service)} {op : ProductPriceOperation}
      {after : Applied} {db : Db} (h : apply rt env d.shop d.op = .ok (op, after))
      (runs : Runs d.db after.asked ws db) :
      Move rt d (.call env ws) ⟨{ d.shop with cache := after.cache }, db, op⟩
  | refused (d : Desk) {env : Surroundings} {e : Fault} (h : apply rt env d.shop d.op = .error e) :
      Move rt d (.call env []) d

/-- The status that the statuses of the items come to. -/
def statusOf (items : List ProductPriceOperationItem) : OperationStatus :=
  (items.foldl (fun counters item => counters.count item.status) ({} : Counters)).status

/-- A call is not refused, verifies what is in doubt without dispatching it again, and leaves the
status that all items come to. -/
structure Reconciles (rt : Runtime) (env : Surroundings) (d : Desk) (ws : List (World service))
    (d' : Desk) : Prop where
  accepted : ∃ result, apply rt env d.shop d.op = .ok result
  verified : ∀ item ∈ d.op.items, item.status = .reconciliationRequired →
    ∃ row answer, ∃ w ∈ ws, env.answer item.id = .engine answer ∧ sent w.past = [] ∧
      ∀ results, answer = .ok results →
        VerifiedAs (commandOf rt env item row) (intentOf rt env item row) results w
  agrees : d'.op.status = statusOf d'.op.items

section

variable (rt : Runtime)

/-- The stale token of a channel, where the product is there. -/
def tokenOf (shop : Shop) (productId : String) (channelId : Id) : Option String :=
  match load rt shop productId with
  | .ok states => tokenIn states channelId
  | .error _ => none

/-- The engine's answer has this outcome. -/
def answers (env : Surroundings) (outcome : WriteOutcome) (item : ProductPriceOperationItem) : Bool :=
  match env.answer item.id with
  | .engine answer => decide ((engineResult (listingId env item) answer).outcome = outcome)
  | .unprepared _ => false

/-- One user calls, and the Listings stay as they are. An item in doubt reaches the engine, and the
engine's first transactions commit. No call verifies an item and leaves another one in doubt, and
none verifies all that it handles once an item is settled. -/
structure Steady (actor : String) (listing : Nat → Option Id) (d : Desk) (env : Surroundings)
    (ws : List (World service)) : Prop where
  actor : env.actor = actor
  listing : ∀ item ∈ d.op.items, env.listing item.id = listing item.id
  prepared : ∀ item ∈ d.op.items, item.status = .reconciliationRequired →
    ∃ answer, env.answer item.id = .engine answer
  recorded : ∀ w ∈ ws, Recorded w
  separate : ∀ item ∈ d.op.items, eligible d.op item = true →
    answers env .reconciliationRequired item = true →
      ∀ other ∈ d.op.items, eligible d.op other = true → answers env .verifiedApplied other = false
  honest : ∀ item ∈ d.op.items, eligible d.op item = false →
    ∃ other ∈ d.op.items, eligible d.op other = true ∧ answers env .verifiedApplied other = false

/-- Reads leave the tokens of the product's channels, and calls are steady. -/
def Undisturbed (actor : String) (listing : Nat → Option Id) (d : Desk) : Action → Prop
  | .refresh shop => ∀ channelId,
    tokenOf rt shop d.op.productId channelId = tokenOf rt d.shop d.op.productId channelId
  | .call env ws => Steady actor listing d env ws
  | _ => True

/-- The life of an operation, all of whose steps are undisturbed. -/
inductive Run (actor : String) (listing : Nat → Option Id) (start : Desk) : Desk → Prop
  | start : Run actor listing start start
  | step {d d' : Desk} {a : Action} : Run actor listing start d →
      Undisturbed rt actor listing d a → Move rt d a d' → Run actor listing start d'

end

section

variable {rt : Runtime} {actor : String} {listing : Nat → Option Id} {d d' : Desk}
  {env : Surroundings} {ws : List (World service)} {items : List ProductPriceOperationItem}
  {cache : Cache} {counters : Counters} {item : ProductPriceOperationItem}

theorem assertStillCurrent_iff (some : op.items ≠ []) : assertStillCurrent rt shop op = .ok () ↔
      ∀ item ∈ op.items, tokenOf rt shop op.productId item.channelId = .some item.staleToken := by
  unfold assertStillCurrent tokenOf
  cases hload : load rt shop op.productId with
  | error e =>
    constructor
    · intro h
      cases h
    · intro h
      obtain ⟨item, hitem⟩ := exists_mem_of_ne_nil _ some
      have hnone := h item hitem
      simp at hnone
  | ok states =>
    cases hfind : op.items.find? fun item =>
        decide (tokenIn states item.channelId ≠ .some item.staleToken) with
    | some item =>
      have hitem := mem_of_find?_eq_some hfind
      have hstale := find?_some hfind
      rw [decide_eq_true_eq] at hstale
      constructor
      · intro h
        simp only [bind, Except.bind, hfind] at h
        cases h
      · intro h
        exact absurd (h item hitem) hstale
    | none =>
      constructor
      · intro _ item hitem
        have hcurrent := find?_eq_none.mp hfind item hitem
        simpa using hcurrent
      · intro _
        simp only [bind, Except.bind, hfind]

theorem ofOutcome_iff :
    (ItemStatus.ofOutcome outcome = .reconciliationRequired ↔ outcome = .reconciliationRequired) ∧
      (ItemStatus.ofOutcome outcome = .applied ↔ outcome = .verifiedApplied) := by
  cases outcome <;> simp [ItemStatus.ofOutcome]

/-- An item that is not verified is not recorded as applied and leaves its row. -/
theorem applyItem_unverified (unverified : answers env .verifiedApplied item = false)
    (row : Option DlProductCache) :
    (applyItem rt env item row).1 ≠ .applied ∧ (applyItem rt env item row).2 = row := by
  unfold applyItem executeProductPricingItem
  cases hanswer : env.answer item.id with
  | unprepared e => simp
  | engine answer =>
    simp only [answers, hanswer] at unverified
    simp only [unverified, ne_eq, and_true]
    rw [ofOutcome_iff.2]
    exact of_decide_eq_false unverified

/-- An item whose outcome is clear is not to be reconciled. -/
theorem applyItem_clear (clear : answers env .reconciliationRequired item = false)
    (row : Option DlProductCache) : (applyItem rt env item row).1 ≠ .reconciliationRequired := by
  unfold applyItem
  cases hexec : executeProductPricingItem rt env item row with
  | error e => simp
  | ok pair =>
    unfold executeProductPricingItem at hexec
    cases hanswer : env.answer item.id with
    | unprepared e =>
      rw [hanswer] at hexec
      cases hexec
    | engine answer =>
      simp only [answers, hanswer, decide_eq_false_iff_not] at clear
      simp only [hanswer] at hexec
      have hresult : pair.1 = engineResult (listingId env item) answer := by
        split at hexec
        · obtain ⟨stored, -, heq⟩ := bind_eq_ok.mp hexec
          rw [← ok.inj heq]
        · rw [← ok.inj hexec]
      intro hstatus
      apply clear
      rw [← hresult]
      exact ofOutcome_iff.1.mp hstatus

section

variable {eligible : ProductPriceOperationItem → Bool}

theorem applyItems_asked (mem : item ∈ items) (chosen : eligible item = true)
    {answer : Except Fault (List WorkspaceWriteResult)} (prepared : env.answer item.id = .engine answer) :
    ∃ row, (commandOf rt env item row, answer) ∈
      (applyItems rt env eligible items cache counters).asked := by
  induction items generalizing cache counters with
  | nil => cases mem
  | cons first rest ih =>
    cases mem_cons.mp mem with
    | inl heq =>
      subst heq
      simp only [applyItems, chosen, if_true, mem_append]
      exact ⟨cachedRow cache item, .inl (by simp [asks, prepared])⟩
    | inr hrest =>
      by_cases hfirst : eligible first = true
      · simp only [applyItems, hfirst, if_true, mem_append]
        obtain ⟨row, hasked⟩ :=
          @ih (cache.put first (applyItem rt env first (cachedRow cache first)).2)
            (counters.count (applyItem rt env first (cachedRow cache first)).1) hrest
        exact ⟨row, .inr hasked⟩
      · simp only [applyItems, hfirst, Bool.false_eq_true, if_false]
        exact ih hrest

/-- Each item of the result is one of those before, with its new status where it was handled. -/
theorem applyItems_items {after : ProductPriceOperationItem}
    (mem : after ∈ (applyItems rt env eligible items cache counters).items) :
    ∃ item ∈ items, (eligible item = false ∧ after = item) ∨
      eligible item = true ∧ ∃ row, after = { item with status := (applyItem rt env item row).1 } := by
  induction items generalizing cache counters with
  | nil => simp [applyItems] at mem
  | cons first rest ih =>
    by_cases hfirst : eligible first = true
    · simp only [applyItems, hfirst, if_true, mem_cons] at mem
      cases mem with
      | inl heq => exact ⟨first, mem_cons_self, .inr ⟨hfirst, _, heq⟩⟩
      | inr hrest =>
        obtain ⟨item, hitem, h⟩ := ih hrest
        exact ⟨item, mem_cons_of_mem _ hitem, h⟩
    · rw [Bool.not_eq_true] at hfirst
      simp only [applyItems, hfirst, Bool.false_eq_true, if_false, mem_cons] at mem
      cases mem with
      | inl heq => exact ⟨first, mem_cons_self, .inl ⟨hfirst, heq⟩⟩
      | inr hrest =>
        obtain ⟨item, hitem, h⟩ := ih hrest
        exact ⟨item, mem_cons_of_mem _ hitem, h⟩

/-- Where nothing is verified the cache stays as it is. -/
theorem applyItems_quiet (quiet : ∀ item ∈ items, eligible item = true →
    answers env .verifiedApplied item = false) :
    (applyItems rt env eligible items cache counters).cache = cache := by
  induction items generalizing counters with
  | nil => rfl
  | cons first rest ih =>
    rw [forall_mem_cons] at quiet
    by_cases hfirst : eligible first = true
    · have hrow : (applyItem rt env first (cachedRow cache first)).2 = cachedRow cache first :=
        (applyItem_unverified (quiet.1 hfirst) _).2
      simp only [applyItems, hfirst, if_true, hrow, Cache.put]
      exact ih quiet.2
    · simp only [applyItems, hfirst, Bool.false_eq_true, if_false]
      exact ih quiet.2

end

theorem count_le : counters.reconciliation ≤ (counters.count status).reconciliation ∧
      counters.failure ≤ (counters.count status).failure := by
  cases status <;> simp [Counters.count]

theorem count_unapplied {status : ItemStatus} (h : status ≠ .applied) :
    (counters.count status).reconciliation ≠ 0 ∨ (counters.count status).failure ≠ 0 := by
  cases status with
  | applied => exact absurd rfl h
  | reconciliationRequired =>
    simp [Counters.count]
  | _ =>
    simp [Counters.count]

theorem count_clear (h : status ≠ .reconciliationRequired) :
    (counters.count status).reconciliation = counters.reconciliation := by
  cases status with
  | reconciliationRequired => exact absurd rfl h
  | _ => rfl

/-- Counters that differ by failures. -/
structure Behind (fewer more : Counters) : Prop where
  success : more.success = fewer.success
  reconciliation : more.reconciliation = fewer.reconciliation
  failure : fewer.failure ≤ more.failure

variable {more : Counters}

theorem Behind.count (h : Behind fewer more) (status : ItemStatus) :
    Behind (fewer.count status) (more.count status) := by
  obtain ⟨hsuccess, hreconciliation, hfailure⟩ := h
  cases status with
  | applied | reconciliationRequired =>
    constructor <;> simp [Counters.count, hsuccess, hreconciliation, hfailure]
  | _ =>
    constructor
    · simp [Counters.count, hsuccess]
    · simp [Counters.count, hreconciliation]
    · simp only [Counters.count]
      omega

/-- A failure more changes nothing where one is counted already, or something is in doubt. -/
theorem Behind.status (h : Behind fewer more)
    (counted : fewer.reconciliation ≠ 0 ∨ fewer.failure ≠ 0) : more.status = fewer.status := by
  obtain ⟨hsuccess, hreconciliation, hfailure⟩ := h
  unfold Counters.status
  rw [hsuccess, hreconciliation]
  by_cases hdoubt : fewer.reconciliation = 0
  · have hfewer : fewer.failure ≠ 0 := by
      cases counted with
      | inl hne => exact absurd hdoubt hne
      | inr hne => exact hne
    have hmore : more.failure ≠ 0 := by omega
    simp [hdoubt, hfewer, hmore]
  · simp [hdoubt]

section

variable {eligible : ProductPriceOperationItem → Bool}

theorem applyItems_le :
    counters.reconciliation ≤ (applyItems rt env eligible items cache counters).counters.reconciliation ∧
      counters.failure ≤ (applyItems rt env eligible items cache counters).counters.failure := by
  induction items generalizing cache counters with
  | nil => exact ⟨Nat.le_refl _, Nat.le_refl _⟩
  | cons first rest ih =>
    by_cases hfirst : eligible first = true
    · simp only [applyItems, hfirst, if_true]
      obtain ⟨hreconciliation, hfailure⟩ :=
        @ih (cache.put first (applyItem rt env first (cachedRow cache first)).2)
          (counters.count (applyItem rt env first (cachedRow cache first)).1)
      exact ⟨count_le.1.trans hreconciliation, count_le.2.trans hfailure⟩
    · simp only [applyItems, hfirst, Bool.false_eq_true, if_false]
      exact ih

/-- The counters are behind the statuses of all items by those that were not handled. -/
theorem applyItems_behind {more : Counters} (h : Behind counters more)
    (settled : ∀ item ∈ items, eligible item = false →
      item.status ≠ .applied ∧ item.status ≠ .reconciliationRequired) :
    Behind (applyItems rt env eligible items cache counters).counters
      ((applyItems rt env eligible items cache counters).items.foldl
        (fun counters item => counters.count item.status) more) := by
  induction items generalizing cache counters more with
  | nil => exact h
  | cons first rest ih =>
    rw [forall_mem_cons] at settled
    by_cases hfirst : eligible first = true
    · simp only [applyItems, hfirst, if_true, foldl_cons]
      exact ih (h.count _) settled.2
    rw [Bool.not_eq_true] at hfirst
    simp only [applyItems, hfirst, Bool.false_eq_true, if_false, foldl_cons]
    obtain ⟨hunapplied, hclear⟩ := settled.1 hfirst
    refine ih ?_ settled.2
    cases hstatus : first.status with
    | applied => exact absurd hstatus hunapplied
    | reconciliationRequired => exact absurd hstatus hclear
    | _ => exact ⟨h.success, h.reconciliation, Nat.le_succ_of_le h.failure⟩

/-- Where every item is handled the counters are those of the statuses. -/
theorem applyItems_counters (all : ∀ item ∈ items, eligible item = true) :
    (applyItems rt env eligible items cache counters).items.foldl
        (fun counters item => counters.count item.status) counters =
      (applyItems rt env eligible items cache counters).counters := by
  induction items generalizing cache counters with
  | nil => rfl
  | cons item rest ih =>
    rw [forall_mem_cons] at all
    simp only [applyItems, all.1, if_true, foldl_cons]
    exact ih all.2

/-- An item that is handled and not verified is counted. -/
theorem applyItems_counted (mem : item ∈ items) (chosen : eligible item = true)
    (unverified : answers env .verifiedApplied item = false) :
    (applyItems rt env eligible items cache counters).counters.reconciliation ≠ 0 ∨
      (applyItems rt env eligible items cache counters).counters.failure ≠ 0 := by
  induction items generalizing cache counters with
  | nil => cases mem
  | cons first rest ih =>
    cases mem_cons.mp mem with
    | inl heq =>
      subst heq
      simp only [applyItems, chosen, if_true]
      have hunapplied : (applyItem rt env item (cachedRow cache item)).1 ≠ .applied :=
        (applyItem_unverified unverified _).1
      have hle := @applyItems_le rt env rest
        (cache.put item (applyItem rt env item (cachedRow cache item)).2)
        (counters.count (applyItem rt env item (cachedRow cache item)).1) eligible
      cases @count_unapplied counters _ hunapplied with
      | inl hne => exact .inl (by omega)
      | inr hne => exact .inr (by omega)
    | inr hrest =>
      by_cases hfirst : eligible first = true
      · simp only [applyItems, hfirst, if_true]
        exact ih hrest
      · simp only [applyItems, hfirst, Bool.false_eq_true, if_false]
        exact ih hrest

/-- Where nothing stays in doubt nothing is counted as to be reconciled. -/
theorem applyItems_clear (clear : ∀ item ∈ items, eligible item = true →
    answers env .reconciliationRequired item = false) :
    (applyItems rt env eligible items cache counters).counters.reconciliation = counters.reconciliation := by
  induction items generalizing cache counters with
  | nil => rfl
  | cons first rest ih =>
    rw [forall_mem_cons] at clear
    by_cases hfirst : eligible first = true
    · simp only [applyItems, hfirst, if_true]
      rw [ih clear.2]
      exact count_clear (applyItem_clear (clear.1 hfirst) _)
    · simp only [applyItems, hfirst, Bool.false_eq_true, if_false]
      exact ih clear.2

end

variable {channels after : List ChannelState} {db : Db}

theorem Runs.appends {after : Db} (runs : Runs db asked ws after) : Appends db after := by
  induction runs with
  | nil => exact .refl _
  | cons run rest ih => exact (engine_appends run).trans ih

/-- Each command has its run, on tables that have only grown. -/
theorem Runs.each {after : Db} (runs : Runs db asked ws after)
    (mem : pair ∈ asked) : ∃ fresh before, ∃ w ∈ ws, Appends db before ∧ Appends w.state after ∧
      Steps (executeWorkspace fresh pair.1 false) (.initial before) (.ofExcept pair.2) w := by
  induction runs with
  | nil => cases mem
  | @cons db after fresh command answer asked w ws run rest ih =>
    cases mem_cons.mp mem with
    | inl heq =>
      subst heq
      exact ⟨fresh, db, w, mem_cons_self, .refl _, rest.appends, run⟩
    | inr hrest =>
      obtain ⟨fresh', before, w', hw, hbefore, hafter, hrun⟩ := ih hrest
      exact ⟨fresh', before, w', mem_cons_of_mem _ hw, (engine_appends run).trans hbefore, hafter, hrun⟩

/-- The engine has an attempt of the item, under the payload that this user's calls make of it. -/
def Known (rt : Runtime) (actor : String) (listing : Nat → Option Id) (db : Db)
    (item : ProductPriceOperationItem) : Prop :=
  ∀ (env : Surroundings) (row : Option DlProductCache), env.actor = actor →
    env.listing item.id = listing item.id → Found db "product_pricing" (intentOf rt env item row)

theorem payload_congr (hactor : env.actor = env'.actor)
    (hlisting : env.listing item.id = env'.listing item.id) : payload env item = payload env' item := by
  simp [payload, listingId, hactor, hlisting]

/-- The attempt is found by what does not depend on the rows. -/
theorem known_of_found (hactor : env.actor = actor) (hlisting : env.listing item.id = listing item.id)
    (found : Found db "product_pricing" (intentOf rt env item row)) : Known rt actor listing db item := by
  intro env' row' hactor' hlisting'
  obtain ⟨itemId, rest, hids, a, ha, hitem, hhash⟩ := found
  refine ⟨itemId, rest, hids, a, ha, hitem, ?_⟩
  rw [hhash]
  have hpayload : payload env item = payload env' item :=
    payload_congr (hactor.trans hactor'.symm) (hlisting.trans hlisting'.symm)
  simp [intentOf, hpayload]

theorem Known.mono {after : Db} (h : Known rt actor listing db item) (appends : Appends db after) :
    Known rt actor listing after item := by
  intro env row hactor hlisting
  exact (h env row hactor hlisting).mono appends

/-- An operation that can still be approved or applied: the tokens are those of its items, nothing is
applied, and what is in doubt is known to the engine. -/
structure Pending (rt : Runtime) (actor : String) (listing : Nat → Option Id) (d : Desk) : Prop where
  some : d.op.items ≠ []
  current : ∀ item ∈ d.op.items, tokenOf rt d.shop d.op.productId item.channelId = .some item.staleToken
  doubtful : d.op.status = .reconciliationRequired → ∀ item ∈ d.op.items,
    item.status ≠ .applied ∧ (item.status = .reconciliationRequired → Known rt actor listing d.db item)

def finished : OperationStatus → Bool
  | .applied | .partiallyFailed | .failed => true
  | _ => false

/-- What a call makes of an operation. -/
def handled (rt : Runtime) (env : Surroundings) (d : Desk) : Applied :=
  applyItems rt env (eligible d.op) d.op.items d.shop.cache {}

/-- A pending operation is not refused. -/
theorem Pending.accepted (h : Pending rt actor listing d)
    (open_ : d.op.status = .approved ∨ d.op.status = .reconciliationRequired) :
    apply rt env d.shop d.op = .ok
      ({ d.op with status := (handled rt env d).counters.status, items := (handled rt env d).items },
        handled rt env d) := by
  have hcurrent := (assertStillCurrent_iff h.some).mpr h.current
  unfold apply
  rw [if_pos open_, hcurrent]
  rfl

/-- What a call of a pending operation does not handle has failed. -/
theorem Pending.settled (h : Pending rt actor listing d)
    (open_ : d.op.status = .approved ∨ d.op.status = .reconciliationRequired) :
    ∀ item ∈ d.op.items, eligible d.op item = false →
      item.status ≠ .applied ∧ item.status ≠ .reconciliationRequired := by
  intro item hitem hnot
  simp only [eligible, Bool.or_eq_false_iff, decide_eq_false_iff_not] at hnot
  cases open_ with
  | inl happroved => exact absurd happroved hnot.1
  | inr hdoubt => exact ⟨(h.doubtful hdoubt item hitem).1, hnot.2⟩

/-- The status that the call folds is that of all items. -/
theorem Pending.agrees (h : Pending rt actor listing d) (steady : Steady actor listing d env ws)
    (open_ : d.op.status = .approved ∨ d.op.status = .reconciliationRequired) :
    (handled rt env d).counters.status = statusOf (handled rt env d).items := by
  by_cases hall : ∀ item ∈ d.op.items, eligible d.op item = true
  · have hcounters := @applyItems_counters rt env d.op.items d.shop.cache {} (eligible d.op) hall
    simp [statusOf, handled, hcounters]
  simp only [not_forall, Bool.not_eq_true] at hall
  obtain ⟨item, hitem, hnot⟩ := hall
  obtain ⟨other, hother, hchosen, hunverified⟩ := steady.honest item hitem hnot
  have hbehind := @applyItems_behind rt env d.op.items d.shop.cache {} (eligible d.op) {}
    ⟨rfl, rfl, Nat.le_refl _⟩ (h.settled open_)
  have hcounted := @applyItems_counted rt env d.op.items d.shop.cache {} other (eligible d.op) hother
    hchosen hunverified
  exact (hbehind.status hcounted).symm

/-- What stays in doubt has its attempt. -/
theorem Runs.known {after : Applied} (runs : Runs d.db after.asked ws db)
    (steady : Steady actor listing d env ws) (mem : item ∈ d.op.items) {row : Option DlProductCache}
    {answer : Except Fault (List WorkspaceWriteResult)}
    (asked : (commandOf rt env item row, answer) ∈ after.asked) : Known rt actor listing db item := by
  obtain ⟨fresh, before, w, hw, -, hgrown, hrun⟩ := runs.each asked
  have hfound := recorded_run hrun (steady.recorded w hw) (intentOf rt env item row)
    (mem_singleton.mpr rfl)
  have hknown : Known rt actor listing w.state item :=
    known_of_found steady.actor (steady.listing item mem) hfound
  exact hknown.mono hgrown

theorem status_clear {counters : Counters} (h : counters.reconciliation = 0) :
    finished counters.status = true := by
  simp only [Counters.status, h, ne_eq, not_true_eq_false, if_false]
  split_ifs
  all_goals rfl

/-- An answer in doubt is an answer of the engine. -/
theorem answers_engine {outcome : WriteOutcome} (h : answers env outcome item = true) :
    ∃ answer, env.answer item.id = .engine answer := by
  unfold answers at h
  cases hanswer : env.answer item.id with
  | unprepared e =>
    rw [hanswer] at h
    cases h
  | engine answer => exact ⟨answer, rfl⟩

/-- After a steady call an operation is pending or finished. -/
theorem Pending.stays (h : Pending rt actor listing d) (steady : Steady actor listing d env ws)
    (open_ : d.op.status = .approved ∨ d.op.status = .reconciliationRequired)
    (runs : Runs d.db (handled rt env d).asked ws db)
    (unfinished : finished (handled rt env d).counters.status = false) :
    Pending rt actor listing ⟨{ d.shop with cache := (handled rt env d).cache }, db, { d.op with
      status := (handled rt env d).counters.status, items := (handled rt env d).items }⟩ := by
  have hdoubt : ∃ item ∈ d.op.items, eligible d.op item = true ∧
      answers env .reconciliationRequired item = true := by
    by_contra hnone
    have hclear : ∀ item ∈ d.op.items, eligible d.op item = true →
        answers env .reconciliationRequired item = false := by
      intro item hitem hchosen
      by_contra hanswer
      exact hnone ⟨item, hitem, hchosen, by simpa using hanswer⟩
    have hzero := @applyItems_clear rt env d.op.items d.shop.cache {} (eligible d.op) hclear
    have hfinished : finished (handled rt env d).counters.status = true := status_clear hzero
    rw [unfinished] at hfinished
    cases hfinished
  obtain ⟨doubted, hdoubted, hchosen, hanswer⟩ := hdoubt
  have hquiet := steady.separate doubted hdoubted hchosen hanswer
  have hcache : (handled rt env d).cache = d.shop.cache := applyItems_quiet hquiet
  have hshop : ({ d.shop with cache := (handled rt env d).cache } : Shop) = d.shop := by
    rw [hcache]
  rw [hshop]
  have hlength : (handled rt env d).items ≠ [] := by
    obtain ⟨first, rest, hitems⟩ := exists_cons_of_ne_nil h.some
    simp only [handled, hitems, applyItems]
    split_ifs
    all_goals simp
  constructor
  · exact hlength
  · intro item hitem
    obtain ⟨old, hold, hafter⟩ := applyItems_items hitem
    have hcurrent := h.current old hold
    cases hafter with
    | inl hleft => rwa [hleft.2]
    | inr hdone =>
      obtain ⟨-, row, heq⟩ := hdone
      rwa [heq]
  · intro _ item hitem
    obtain ⟨old, hold, hafter⟩ := applyItems_items hitem
    cases hafter with
    | inl hleft =>
      obtain ⟨hnot, rfl⟩ := hleft
      obtain ⟨hunapplied, hclear⟩ := h.settled open_ item hold hnot
      exact ⟨hunapplied, fun hstatus => absurd hstatus hclear⟩
    | inr hdone =>
      obtain ⟨hchosen, row, rfl⟩ := hdone
      constructor
      · exact (applyItem_unverified (hquiet old hold hchosen) row).1
      intro hstatus
      have hdoubtful : answers env .reconciliationRequired old = true := by
        by_contra hclear
        rw [Bool.not_eq_true] at hclear
        exact applyItem_clear hclear row hstatus
      obtain ⟨answer, hprepared⟩ := answers_engine hdoubtful
      obtain ⟨row', hasked⟩ := applyItems_asked hold hchosen hprepared
      have hknown : Known rt actor listing db old := runs.known steady hold hasked
      exact hknown

def tokens (channels : List ChannelState) : List (Connector × String) :=
  channels.map fun c => (c.channel, c.staleToken)

theorem validateProposal_tokens
    (h : validateProposal rt channels proposal = .ok after) : tokens after = tokens channels := by
  unfold validateProposal at h
  split at h
  · cases h
  split at h
  · cases h
  obtain ⟨field, -, hafter⟩ := bind_eq_ok.mp h
  rw [← ok.inj hafter, tokens, map_map]
  apply map_congr_left
  intro c _
  dsimp only [Function.comp]
  split_ifs
  all_goals rfl

theorem validateProposals_tokens
    {proposals : List FieldProposal} (h : validateProposals rt channels proposals = .ok after) :
    tokens after = tokens channels := by
  induction proposals generalizing channels with
  | nil =>
    rw [ok.inj h]
  | cons proposal rest ih =>
    obtain ⟨next, hnext, h⟩ := bind_eq_ok.mp h
    rw [ih h, validateProposal_tokens hnext]

theorem channelId_injective : Function.Injective Connector.channelId := by
  intro a b h
  cases a <;> cases b <;> first | rfl | exact absurd h (by decide)

/-- A loaded channel is found under its id. -/
theorem tokenIn_load (mem : channel ∈ directory) :
    tokenIn (directory.map (channelState rt shop canonical)) channel.channelId =
      .some (channelState rt shop canonical channel).staleToken := by
  unfold tokenIn
  cases hfind : (directory.map (channelState rt shop canonical)).find? fun c =>
      decide (c.channel.channelId = channel.channelId) with
  | none =>
    have habsent := find?_eq_none.mp hfind _ (mem_map_of_mem mem)
    simp [channelState] at habsent
  | some c =>
    have hmem := mem_of_find?_eq_some hfind
    have hid := find?_some hfind
    rw [decide_eq_true_eq] at hid
    rw [mem_map] at hmem
    obtain ⟨other, -, rfl⟩ := hmem
    have hchannel : other = channel := channelId_injective hid
    rw [hchannel]
    rfl

theorem canonicalRow_productId
    (h : canonicalRow cache productId = .some canonical) : canonical.productId = productId := by
  have hmem : canonical ∈ cache.filter fun row => decide (row.productId = productId) := by
    unfold canonicalRow at h
    dsimp only at h
    cases hfind : (cache.filter fun row => decide (row.productId = productId)).find? fun row =>
        decide (row.connectorId = "woocommerce:primary") with
    | some row =>
      rw [hfind, Option.some_or, Option.some.injEq] at h
      exact h ▸ mem_of_find?_eq_some hfind
    | none =>
      rw [hfind, Option.none_or] at h
      exact mem_of_mem_head? h
  exact of_decide_eq_true (mem_filter.mp hmem).2

/-- A dry run has items, and takes down the tokens that it saw. -/
theorem dryRun_pending (db : Db)
    (dry : dryRun rt shop productId opened changes operationId firstId = .ok op) :
    Pending rt actor listing ⟨shop, db, op⟩ := by
  simp only [dryRun, bind_eq_ok] at dry
  obtain ⟨states, hload, proposals, -, hdry⟩ := dry
  have hstates := hload
  unfold load at hstates
  cases hrow : canonicalRow shop.cache productId with
  | none =>
    rw [hrow] at hstates
    cases hstates
  | some canonical =>
    rw [hrow, ok.injEq] at hstates
    split at hdry
    · cases hdry
    obtain ⟨validated, hvalidated, hdry⟩ := bind_eq_ok.mp hdry
    split at hdry
    · cases hdry
    rename_i hsome
    have hop := (ok.inj hdry).symm
    have hproduct : op.productId = productId := by
      rw [hop]
      simp [hrow, canonicalRow_productId hrow]
    constructor
    case some =>
      rw [hop, ne_eq, map_eq_nil_iff, zipIdx_eq_nil_iff]
      simpa using hsome
    case current =>
      intro item hitem
      rw [hop, mem_map] at hitem
      obtain ⟨⟨⟨c, field⟩, i⟩, hmem, rfl⟩ := hitem
      have hchanged := fst_mem_of_mem_zipIdx hmem
      simp only [flattenChangedFields, mem_flatMap, mem_map, mem_filter, Prod.mk.injEq] at hchanged
      obtain ⟨c', hc, f', -, rfl, rfl⟩ := hchanged
      have hpair : (c'.channel, c'.staleToken) ∈ tokens states :=
        validateProposals_tokens hvalidated ▸ mem_map_of_mem (f := fun c : ChannelState =>
          (c.channel, c.staleToken)) hc
      rw [← hstates, tokens, map_map, mem_map] at hpair
      obtain ⟨channel, hchannel, heq⟩ := hpair
      obtain ⟨hchannel', htoken⟩ := Prod.mk.inj heq
      have hsame : channel = c'.channel := hchannel'
      simp only [tokenOf, hproduct, hload, newItem]
      rw [← htoken, ← hstates, ← hsame]
      exact tokenIn_load hchannel
    case doubtful =>
      intro hdoubt
      rw [hop] at hdoubt
      cases hdoubt

/-- What every undisturbed step keeps. -/
def Lasting (rt : Runtime) (actor : String) (listing : Nat → Option Id) (d : Desk) : Prop :=
  finished d.op.status = false → Pending rt actor listing d

theorem Lasting.step {a : Action} (h : Lasting rt actor listing d)
    (undisturbed : Undisturbed rt actor listing d a) (move : Move rt d a d') :
    Lasting rt actor listing d' := by
  cases move with
  | refresh shop =>
    intro hopen
    have hpending := h hopen
    constructor
    · exact hpending.some
    · intro item hitem
      rw [← hpending.current item hitem]
      exact undisturbed item.channelId
    · exact hpending.doubtful
  | elsewhere appends =>
    intro hopen
    have hpending := h hopen
    constructor
    · exact hpending.some
    · exact hpending.current
    · intro hdoubt item hitem
      obtain ⟨hstatus, hknown⟩ := hpending.doubtful hdoubt item hitem
      exact ⟨hstatus, fun hdoubtful => (hknown hdoubtful).mono appends⟩
  | approve happrove =>
    unfold ProductPricing.approve at happrove
    split at happrove
    · rename_i hready
      obtain ⟨-, -, hop⟩ := bind_eq_ok.mp happrove
      intro _
      have hpending := h (by rw [hready]; rfl)
      rw [← ok.inj hop]
      constructor
      · exact hpending.some
      · exact hpending.current
      · intro hdoubt
        cases hdoubt
    · cases happrove
  | call happly runs =>
    intro hopen
    have hstatus : d.op.status = .approved ∨ d.op.status = .reconciliationRequired := by
      by_contra hnot
      unfold apply at happly
      rw [if_neg hnot] at happly
      cases happly
    have hunfinished : finished d.op.status = false := by
      cases hstatus with
      | inl heq =>
        rw [heq]
        rfl
      | inr heq =>
        rw [heq]
        rfl
    have hpending := h hunfinished
    rw [hpending.accepted hstatus, ok.injEq, Prod.mk.injEq] at happly
    obtain ⟨rfl, rfl⟩ := happly
    exact hpending.stays undisturbed hstatus runs hopen
  | refused hrefused => exact h

theorem Run.lasting {start : Desk} (h : Lasting rt actor listing start)
    (run : Run rt actor listing start d) : Lasting rt actor listing d := by
  induction run with
  | start => exact h
  | step _ undisturbed move ih => exact ih.step undisturbed move


/-- A call on what is in doubt verifies all of it. -/
theorem Pending.verified (h : Pending rt actor listing d) (steady : Steady actor listing d env ws)
    (doubt : d.op.status = .reconciliationRequired)
    (runs : Runs d.db (handled rt env d).asked ws db) (mem : item ∈ d.op.items)
    (doubtful : item.status = .reconciliationRequired) :
    ∃ row answer, ∃ w ∈ ws, env.answer item.id = .engine answer ∧ sent w.past = [] ∧
      ∀ results, answer = .ok results →
        VerifiedAs (commandOf rt env item row) (intentOf rt env item row) results w := by
  obtain ⟨answer, hprepared⟩ := steady.prepared item mem doubtful
  have hchosen : eligible d.op item = true := by simp [eligible, doubtful]
  obtain ⟨row, hasked⟩ :=
    @applyItems_asked rt env d.op.items d.shop.cache {} item _ mem hchosen answer hprepared
  obtain ⟨fresh, before, w, hw, hgrown, -, hrun⟩ := runs.each hasked
  have hknown : Known rt actor listing before item :=
    ((h.doubtful doubt item mem).2 doubtful).mono hgrown
  have hfound := hknown env row steady.actor (steady.listing item mem)
  obtain ⟨hun, hverified⟩ := found_run rfl hfound hrun
  exact ⟨row, answer, w, hw, hprepared, hun.silent, hverified⟩

end

/-- In a life of an operation whose steps are undisturbed, a call on what is to be reconciled is not
refused, verifies all that is in doubt, and leaves the status that all items come to. -/
theorem edits_reconcilable {rt : Runtime} {actor : String} {listing : Nat → Option Id} {shop : Shop}
    {productId opened : String} {changes : List Json} {operationId : Id} {firstId : Nat} {db : Db}
    {op : ProductPriceOperation} {d d' : Desk} {env : Surroundings} {ws : List (World service)}
    (dry : dryRun rt shop productId opened changes operationId firstId = .ok op)
    (run : Run rt actor listing ⟨shop, db, op⟩ d) (steady : Steady actor listing d env ws)
    (doubt : d.op.status = .reconciliationRequired) (move : Move rt d (.call env ws) d') :
    Reconciles rt env d ws d' := by
  have hlasting : Lasting rt actor listing ⟨shop, db, op⟩ := fun _ => dryRun_pending db dry
  have hpending := run.lasting hlasting (by rw [doubt]; rfl)
  have haccepted := @Pending.accepted rt actor listing d env hpending (.inr doubt)
  cases move with
  | call happly runs =>
    rw [haccepted, ok.injEq, Prod.mk.injEq] at happly
    obtain ⟨rfl, rfl⟩ := happly
    constructor
    · exact ⟨_, haccepted⟩
    · intro item hitem hdoubtful
      exact hpending.verified steady doubt runs hitem hdoubtful
    · exact hpending.agrees steady (.inr doubt)
  | refused hrefused =>
    rw [haccepted] at hrefused
    cases hrefused

namespace Sample

def provider (applied verified : Except Fault (List WorkspaceWriteResult)) : Txn.Surroundings service where
  refuse _ _ := none
  answer _
    | .acquire _ | .transportReports _ _ => .ok ()
    | .readLive _ _ => .ok ⟨none, true⟩
    | .applyUpdates _ _ _ => applied
    | .verifyUpdates _ _ _ => verified

def isVerified : Except Fault (List WorkspaceWriteResult) :=
  .ok [{ listingId := "woocommerce:primary:7", outcome := .verifiedApplied }]

def timeout : Except Fault (List WorkspaceWriteResult) := .error (.runtimeError "timed out")

def attempts (n : Nat) : Fresh := ⟨fun _ => "pwa_" ++ toString n, fun channelId => channelId⟩

def heads : Db := { authorityHeads := [PricingAuthority.seedHead "woocommerce:primary" "event"] }

/-- The engine's run of an item, under the n-th identity. -/
def engineRun (outside : Txn.Surroundings service) (n : Nat) (item : ProductPriceOperationItem)
    (row : DlProductCache) (db : Db) : Program (List WorkspaceWriteResult) × World service :=
  replay outside 20 (executeWorkspace (attempts n) (commandOf rt env item (some row)) false) (.initial db)

def answered (run : Program (List WorkspaceWriteResult) × World service) :
    Except Fault (List WorkspaceWriteResult) := .ok (run.1.result.getD [])

/-- An edit of the quantity alone. -/
def oneEdit : List Json := [change "stock" (.float five)]

def oneItem : ProductPriceOperationItem := { stockItem with id := 1 }

def oneOp : ProductPriceOperation := ⟨"mcp", "7", .dryRunReady, [oneItem]⟩

theorem oneEdit_dry : dryRun rt shop "7" opened oneEdit "mcp" 1 = .ok oneOp := by decide +kernel

/-- The write times out, and a later call verifies it. -/
def lost := engineRun (provider timeout timeout) 1 oneItem row heads

def doubtful : ProductPriceOperationItem := { oneItem with status := .reconciliationRequired }

def found := engineRun (provider timeout isVerified) 2 doubtful row lost.2.state

def answering (answer : Nat → Answer) : Surroundings := { env with answer }

def lostEnv : Surroundings := answering fun _ => .engine (answered lost)

def foundEnv : Surroundings := answering fun _ => .engine (answered found)

def approvedOp : ProductPriceOperation := { oneOp with status := .approved }

def doubtOp : ProductPriceOperation := ⟨"mcp", "7", .reconciliationRequired, [doubtful]⟩

def doubtDesk : Desk := ⟨shop, lost.2.state, doubtOp⟩

def commitsRecord : Label service → Bool
  | .commit (.recordIntents _) => true
  | _ => false

theorem recorded_of_commits (h : (w.past.any fun e => commitsRecord e.label) = true) : Recorded w := by
  obtain ⟨e, he, hcommits⟩ := any_eq_true.mp h
  refine ⟨e, he, ?_⟩
  unfold commitsRecord at hcommits
  split at hcommits
  · rename_i command hlabel
    exact ⟨command, hlabel⟩
  · cases hcommits

example : (lost.2.past.any fun e => commitsRecord e.label) = true := by decide +kernel

/-- Calls of a command that end with an answer. -/
theorem runs_one {item : ProductPriceOperationItem} {outside : Txn.Surroundings service} {n : Nat}
    {before : DlProductCache} {db : Db} (h : (engineRun outside n item before db).1.result.isSome = true) :
    Steps (executeWorkspace (attempts n) (commandOf rt env item (some before)) false) (.initial db)
      (.ofExcept (answered (engineRun outside n item before db))) (engineRun outside n item before db).2 :=
  replay_done [] h

theorem lost_approved : Move rt ⟨shop, heads, oneOp⟩ .approve ⟨shop, heads, approvedOp⟩ :=
  .approve _ (by decide +kernel)

theorem lost_applied : apply rt lostEnv shop approvedOp =
    .ok (doubtOp, ⟨[doubtful], shop.cache, ⟨0, 0, 1⟩,
      [(commandOf rt env oneItem (some row), answered lost)]⟩) := by
  have hitems : applyItems rt lostEnv (eligible approvedOp) [oneItem] shop.cache {} =
      ⟨[doubtful], shop.cache, ⟨0, 0, 1⟩, [(commandOf rt env oneItem (some row), answered lost)]⟩ := by
    rfl
  rfl

theorem found_applied : ∃ after, apply rt foundEnv shop doubtOp =
    .ok ({ doubtOp with status := .applied, items := [{ doubtful with status := .applied }] }, after) ∧
      after.asked = [(commandOf rt env doubtful (some row), answered found)] := by
  refine ⟨applyItems rt foundEnv (eligible doubtOp) [doubtful] shop.cache {}, ?_, ?_⟩
  · rfl
  · rfl

example : found.1.result.isSome = true := by decide +kernel

theorem lost_steady : Steady "owner" env.listing ⟨shop, heads, approvedOp⟩ lostEnv [lost.2] where
  actor := rfl
  listing _ _ := rfl
  prepared _ _ _ := ⟨_, rfl⟩
  recorded w hw := by
    rw [mem_singleton.mp hw]
    exact recorded_of_commits (by decide +kernel)
  separate _ _ _ _ := by decide +kernel
  honest := by decide +kernel

theorem found_steady : Steady "owner" env.listing doubtDesk foundEnv [found.2] where
  actor := rfl
  listing _ _ := rfl
  prepared _ _ _ := ⟨_, rfl⟩
  recorded w hw := by
    rw [mem_singleton.mp hw]
    exact recorded_of_commits (by decide +kernel)
  separate item hitem _ h := by
    rw [mem_singleton.mp hitem] at h
    exact absurd h (by decide +kernel)
  honest := by decide +kernel

theorem lost_run : Run rt "owner" env.listing ⟨shop, heads, oneOp⟩ doubtDesk := by
  have hruns : Runs heads [(commandOf rt env oneItem (some row), answered lost)] [lost.2] lost.2.state :=
    .cons (runs_one (by decide +kernel)) (.nil _)
  have hcall : Move rt ⟨shop, heads, approvedOp⟩ (.call lostEnv [lost.2]) doubtDesk :=
    .call ⟨shop, heads, approvedOp⟩ lost_applied hruns
  have happroved : Run rt "owner" env.listing ⟨shop, heads, oneOp⟩ ⟨shop, heads, approvedOp⟩ :=
    .step (a := .approve) .start trivial lost_approved
  exact .step (a := .call lostEnv [lost.2]) happroved lost_steady hcall

end Sample

open Sample

/-- A write that timed out is verified by the next call. -/
theorem edits_reconcilable_timeout : ∃ d', Move rt doubtDesk (.call foundEnv [Sample.found.2]) d' ∧
      Reconciles rt foundEnv doubtDesk [Sample.found.2] d' := by
  obtain ⟨after, happly, hasked⟩ := found_applied
  have hruns : Runs lost.2.state after.asked [Sample.found.2] Sample.found.2.state := by
    rw [hasked]
    exact .cons (runs_one (by decide +kernel)) (.nil _)
  have hmove := Move.call doubtDesk happly hruns
  exact ⟨_, hmove, edits_reconcilable oneEdit_dry lost_run found_steady rfl hmove⟩

namespace Sample

/-- An edit of the price and the quantity. -/
def twoEdits : List Json := [change "price" (.float twenty), change "stock" (.float five)]

def twoOp : ProductPriceOperation := ⟨"mcp", "7", .dryRunReady, [priceItem, stockItem]⟩

theorem twoEdits_dry : dryRun rt shop "7" opened twoEdits "mcp" 1 = .ok twoOp := by decide +kernel

def twoDesk : Desk := ⟨shop, heads, { twoOp with status := .approved }⟩

theorem two_approved : Move rt ⟨shop, heads, twoOp⟩ .approve twoDesk :=
  .approve _ (by decide +kernel)

/-- The price is verified, and the write of the quantity times out. -/
def ownPrice := engineRun (provider isVerified timeout) 1 priceItem row heads

def pricedRow : DlProductCache := row.patched rt "20" 0

example : pricedRow.stockQty = row.stockQty := by decide +kernel

def ownStock := engineRun (provider timeout timeout) 2 stockItem pricedRow ownPrice.2.state

def ownEnv : Surroundings :=
  answering fun id => .engine (if id = 1 then answered ownPrice else answered ownStock)

def ownDesk : Desk where
  shop := { shop with cache := [pricedRow] }
  db := ownStock.2.state
  op := { twoOp with
    status := .reconciliationRequired
    items := [{ priceItem with status := .applied }, { stockItem with status := .reconciliationRequired }] }

theorem own_call : Move rt twoDesk (.call ownEnv [ownPrice.2, ownStock.2]) ownDesk := by
  have hitems : applyItems rt ownEnv (eligible twoDesk.op) [priceItem, stockItem] shop.cache {} =
      ⟨ownDesk.op.items, [pricedRow], ⟨1, 0, 1⟩,
        [(commandOf rt env priceItem (some row), answered ownPrice),
          (commandOf rt env stockItem (some pricedRow), answered ownStock)]⟩ := by
    rfl
  have happly : apply rt ownEnv twoDesk.shop twoDesk.op = .ok (ownDesk.op,
      applyItems rt ownEnv (eligible twoDesk.op) [priceItem, stockItem] shop.cache {}) := by
    unfold apply
    rfl
  rw [hitems] at happly
  have hfirst := @runs_one priceItem (provider isVerified timeout) 1 row heads (by decide +kernel)
  have hsecond := @runs_one stockItem (provider timeout timeout) 2 pricedRow ownPrice.2.state
    (by decide +kernel)
  exact .call twoDesk happly (.cons hfirst (.cons hsecond (.nil _)))

/-- The Listing of the price is refused, and the write of the quantity times out. -/
def halfStock := engineRun (provider timeout timeout) 1 stockItem row heads

def refusedPrice : Answer := .unprepared (.httpException 409 "The Listing is locked.")

def halfEnv : Surroundings :=
  answering fun id => if id = 1 then refusedPrice else .engine (answered halfStock)

def doubtfulStock : ProductPriceOperationItem := { stockItem with status := .reconciliationRequired }

def halfOp : ProductPriceOperation :=
  ⟨"mcp", "7", .reconciliationRequired, [{ priceItem with status := .failed }, doubtfulStock]⟩

def halfDesk : Desk := ⟨shop, halfStock.2.state, halfOp⟩

example : (halfStock.2.past.any fun e => commitsRecord e.label) = true := by decide +kernel

theorem half_call : Move rt twoDesk (.call halfEnv [halfStock.2]) halfDesk := by
  have hcurrent : assertStillCurrent rt shop twoDesk.op = .ok () := by decide +kernel
  have hrow : cachedRow shop.cache priceItem = some row := by decide +kernel
  have hprice : applyItem rt halfEnv priceItem (some row) = (.failed, some row) := by decide +kernel
  have hput : Cache.put shop.cache priceItem (some row) = shop.cache := if_pos hrow.symm
  have hnext : cachedRow shop.cache stockItem = some row := by decide +kernel
  have hstock : applyItem rt halfEnv stockItem (some row) = (.reconciliationRequired, some row) := by
    decide +kernel
  have hkeep : Cache.put shop.cache stockItem (some row) = shop.cache := if_pos hnext.symm
  have hitems : applyItems rt halfEnv (eligible twoDesk.op) [priceItem, stockItem] shop.cache {} =
      ⟨halfOp.items, shop.cache, ⟨0, 1, 1⟩, [(commandOf rt env stockItem (some row), answered halfStock)]⟩ := by
    simp only [applyItems, hrow, hprice, hput, hnext, hstock, hkeep]
    rfl
  have happly : apply rt halfEnv twoDesk.shop twoDesk.op = .ok (halfOp,
      applyItems rt halfEnv (eligible twoDesk.op) [priceItem, stockItem] shop.cache {}) := by
    unfold apply
    rw [if_pos (.inl rfl)]
    simp only [twoDesk, twoOp] at hcurrent hitems ⊢
    simp only [hcurrent, bind, bind, hitems]
    rfl
  have hrun := @runs_one stockItem (provider timeout timeout) 1 row heads (by decide +kernel)
  exact .call twoDesk happly (.cons hrun (.nil _))

/-- The next call verifies the quantity. -/
def lateStock := engineRun (provider timeout isVerified) 2 doubtfulStock row halfStock.2.state

def lateEnv : Surroundings := answering fun _ => .engine (answered lateStock)

example : lateStock.1.result.isSome = true := by decide +kernel

def lateOp : ProductPriceOperation := { halfOp with
  status := .applied
  items := [{ priceItem with status := .failed }, { stockItem with status := .applied }] }

theorem late_call : ∃ shop', Move rt halfDesk (.call lateEnv [lateStock.2])
    ⟨shop', lateStock.2.state, lateOp⟩ := by
  have hcurrent : assertStillCurrent rt shop halfOp = .ok () := by decide +kernel
  have happly : apply rt lateEnv shop halfOp = .ok (lateOp,
      applyItems rt lateEnv (eligible halfOp) halfOp.items shop.cache {}) := by
    unfold apply
    rw [if_pos (.inr rfl), hcurrent]
    rfl
  have hasked : (applyItems rt lateEnv (eligible halfOp) halfOp.items shop.cache {}).asked =
      [(commandOf rt env doubtfulStock (some row), answered lateStock)] := by
    rfl
  have hrun := @runs_one doubtfulStock (provider timeout isVerified) 2 row halfStock.2.state
    (by decide +kernel)
  have hruns : Runs halfDesk.db (applyItems rt lateEnv (eligible halfOp) halfOp.items shop.cache {}).asked
      [lateStock.2] lateStock.2.state := by
    exact .cons hrun (.nil _)
  exact ⟨_, .call halfDesk happly hruns⟩

/-- A refresh that shows the quantity that was written. -/
def shown : Shop := { shop with cache := [{ row with stockQty := some 5 }] }

end Sample

/-- An operation is refused for the change that its own success made, and for a read that shows the
write in doubt; and one is recorded as applied though one of its items has failed. -/
theorem edits_not_reconcilable : dryRun rt shop "7" Sample.opened twoEdits "mcp" 1 = .ok twoOp ∧
      Move rt ⟨shop, heads, twoOp⟩ .approve twoDesk ∧
      (Move rt twoDesk (.call ownEnv [ownPrice.2, ownStock.2])
          ownDesk ∧
        ownDesk.op.status = .reconciliationRequired ∧
        ∀ env, apply rt env ownDesk.shop ownDesk.op = .error (staleChannel "woocommerce:primary")) ∧
      (Run rt "owner" Sample.env.listing ⟨shop, heads, oneOp⟩
          doubtDesk ∧
        ∀ env, apply rt env shown doubtDesk.op = .error (staleChannel "woocommerce:primary")) ∧
      (Move rt twoDesk (.call halfEnv [halfStock.2]) halfDesk ∧
        (∃ shop', Move rt halfDesk (.call lateEnv [lateStock.2])
          ⟨shop', lateStock.2.state, lateOp⟩) ∧
        lateOp.status = .applied ∧ statusOf lateOp.items = .partiallyFailed) := by
  have hown : assertStillCurrent rt ownDesk.shop ownDesk.op =
      .error (staleChannel "woocommerce:primary") := by decide +kernel
  refine ⟨twoEdits_dry, two_approved, ⟨own_call, rfl, ?_⟩,
    ⟨lost_run, ?_⟩, half_call, late_call, rfl, by decide⟩
  · intro env
    unfold apply
    rw [if_pos (.inr rfl), hown]
    rfl
  · intro env
    unfold apply
    rfl

end FlowHub.ProductPricing
