import FlowHub.Connectors.Updates
import FlowHub.Txn.Logic

namespace FlowHub.Connectors

open Python Channels Txn List

variable (u : Unicode)

/-- `validate_update` raises. -/
def invalid (connector : Connector) (update : WorkspaceWriteIntent) : Bool :=
  match validateUpdate u connector update with
  | .ok _ => false
  | .error _ => true

/-- `CurrentStateRequest` refuses these entities. -/
def malformed (updates : List WorkspaceWriteIntent) : Bool :=
  updates.any (fun update => decide (update.listingId = "")) ||
    !decide (updates.map WorkspaceWriteIntent.listingId).Nodup ||
    updates.any fun update => decide (update.externalPrimaryId = "")

def closed (setup : Setup) : Bool := !setup.writeEnabled || !setup.configured

/-- The call is refused as a whole: the channel takes no writes, or what the connector looks at
before its first write is at fault. That is one intent, fifty of them, or all. -/
def refusedFirst (setup : Setup) : Connector → List WorkspaceWriteIntent → Bool
  | .wooCommerce, updates => updates.head?.any (invalid u .wooCommerce)
  | .snappShop, updates =>
    closed setup || (updates.take maximumBatch).any (invalid u .snappShop)
  | .tapsiShop, updates =>
    closed setup || malformed updates || updates.head?.any (invalid u .tapsiShop)
  | .technolife, updates => closed setup || updates.any (invalid u .technolife)

/-- A write was sent to the provider, whatever came back. -/
def wrote (w : World adapters) : Bool :=
  w.past.any fun event => match event.label with
    | .answer call _ | .failure call _ => call.writes
    | _ => false

variable {u} {setup : Setup} {connector : Connector} {updates : List WorkspaceWriteIntent}

variable {update : WorkspaceWriteIntent} {w v : World adapters}

theorem invalid_true (h : invalid u connector update = true) :
    ∃ e, validateUpdate u connector update = .error e := by
  unfold invalid at h
  split at h
  · cases h
  · exact ⟨_, ‹_›⟩

theorem invalid_false (h : invalid u connector update = false) :
    validateUpdate u connector update = .ok () := by
  unfold invalid at h
  split at h
  · assumption
  · cases h

theorem validateAll_refused (h : updates.any (invalid u connector) = true) :
    ∃ e, validateAll u connector updates = .error e := by
  induction updates with
  | nil => cases h
  | cons update rest ih =>
    cases hfirst : invalid u connector update with
    | true =>
      obtain ⟨e, he⟩ := invalid_true hfirst
      exact ⟨e, by rw [validateAll, he]; rfl⟩
    | false =>
      rw [any_cons, hfirst, Bool.false_or] at h
      obtain ⟨e, he⟩ := ih h
      exact ⟨e, by rw [validateAll, invalid_false hfirst]; exact he⟩

theorem validateAll_passed (h : updates.any (invalid u connector) = false) :
    validateAll u connector updates = .ok () := by
  induction updates with
  | nil => rfl
  | cons update rest ih =>
    rw [any_cons, Bool.or_eq_false_iff] at h
    rw [validateAll, invalid_false h.1]
    exact ih h.2

theorem assertWritable_closed (name : String) (h : closed setup = true) :
    ∃ e, assertWritable setup name = .error e := by
  simp only [closed, Bool.or_eq_true, Bool.not_eq_true'] at h
  cases henabled : setup.writeEnabled with
  | false => exact ⟨_, by simp only [assertWritable, domainError, henabled]; rfl⟩
  | true =>
    have hconfigured : setup.configured = false := by
      rcases h with h | h
      · rw [henabled] at h
        cases h
      · exact h
    exact ⟨_, by simp only [assertWritable, domainError, henabled, hconfigured]; rfl⟩

theorem assertWritable_open (h : closed setup = false) : assertWritable setup name = .ok () := by
  simp only [closed, Bool.or_eq_false_iff, Bool.not_eq_false'] at h
  simp only [assertWritable, domainError, h.1, h.2]
  rfl

theorem currentStateRequest_malformed (connector : Connector) (h : malformed updates = true) :
    ∃ e, currentStateRequest connector updates = .error e := by
  dsimp only [currentStateRequest]
  split
  · rename_i keyed
    split
    · rename_i distinct
      split
      · rename_i identified
        exfalso
        simp only [malformed, Bool.or_eq_true, any_eq_true, decide_eq_true_eq,
          Bool.not_eq_true', decide_eq_false_iff_not] at h
        rcases h with (⟨update, hmem, hkey⟩ | hdup) | ⟨update, hmem, hid⟩
        · exact keyed _ (mem_map_of_mem hmem) hkey
        · rw [map_map] at distinct
          exact hdup distinct
        · exact identified _ (mem_map_of_mem hmem) hid
      · exact ⟨_, rfl⟩
    · exact ⟨_, rfl⟩
  · exact ⟨_, rfl⟩

theorem currentStateRequest_wellFormed (connector : Connector) (h : malformed updates = false) :
    ∃ request, currentStateRequest connector updates = .ok request := by
  simp only [malformed, Bool.or_eq_false_iff, any_eq_false, decide_eq_true_eq,
    Bool.not_eq_false', and_assoc] at h
  obtain ⟨hkeys, hdistinct, hids⟩ := h
  unfold currentStateRequest
  rw [dif_pos fun entity hmem => ?_, dif_pos ?_, dif_pos fun entity hmem => ?_]
  · exact ⟨_, rfl⟩
  · obtain ⟨update, hupdate, rfl⟩ := mem_map.mp hmem
    exact hids update hupdate
  · rw [map_map]
    exact hdistinct
  · obtain ⟨update, hupdate, rfl⟩ := mem_map.mp hmem
    exact hkeys update hupdate

/-- An intent that passes the shared gate sends a finite quantity if any. -/
theorem wooWriteItem_ok (h : validateUpdate u .wooCommerce update = .ok ()) :
    ∃ item, wooWriteItem u update = .ok item := by
  obtain ⟨_, hshared, -⟩ := bind_eq_ok.mp h
  simp only [validateProductWrite, bind_eq_ok] at hshared
  obtain ⟨-, -, -, -, -, -, -, -, -, -, -, -, -, -, -, -, -, -, _, hstock, -⟩ := hshared
  cases htarget : update.targetStock with
  | none => exact ⟨_, by simp only [wooWriteItem, htarget]; rfl⟩
  | some x =>
    simp only [ProductWritePolicy.refuse, stockSent, htarget, Option.some_or, Option.any_some]
      at hstock
    cases x with
    | finite x => exact ⟨_, by simp only [wooWriteItem, htarget]; rfl⟩
    | infinite s => simp [notAmount, Float64.isFinite] at hstock
    | nan => simp [notAmount, Float64.isFinite] at hstock

theorem batchesOf_cons (size : Nat) (hsize : 0 < size)
    (h : items ≠ []) : ∃ rest, batchesOf size items = items.take size :: rest := by
  have hlength := length_pos_iff.mpr h
  have hcount : (items.length + size - 1) / size = (items.length - 1) / size + 1 := by
    rw [show items.length + size - 1 = items.length - 1 + size by omega, Nat.add_div_right _ hsize]
  unfold batchesOf
  rw [hcount, range_succ_eq_map, map_cons, Nat.zero_mul, drop_zero]
  exact ⟨_, rfl⟩

theorem check_error {next : α → Program β} : (check (.error e)).bind next = .raise (.raised e) :=
  rfl

theorem check_ok {next : α → Program β} : (check (.ok a)).bind next = next a :=
  rfl

/-- The first thing a program does: it raises where it is refused, and sends a write elsewhere. -/
def Begins {α : Type} : Bool → Program α → Prop
  | true, p => ∃ e, p = .raise e
  | false, p => ∃ call next fail, call.writes = true ∧ p = .ask call next fail

theorem Begins.bind {next : α → Program β} (h : Begins refused p) : Begins refused (p.bind next) := by
  cases refused with
  | true =>
    obtain ⟨e, rfl⟩ := h
    exact ⟨e, rfl⟩
  | false =>
    obtain ⟨call, more, fail, hcall, rfl⟩ := h
    exact ⟨call, _, _, hcall, rfl⟩

theorem wooWrites_begins (u : Unicode) (setup : Setup) (update : WorkspaceWriteIntent)
    (rest : List WorkspaceWriteIntent) (progress : WooProgress) :
    Begins (invalid u .wooCommerce update) (wooWrites u setup (update :: rest) progress) := by
  cases h : invalid u .wooCommerce update with
  | true =>
    obtain ⟨e, he⟩ := invalid_true h
    rw [wooWrites, he]
    exact ⟨.raised e, rfl⟩
  | false =>
    obtain ⟨item, hitem⟩ := wooWriteItem_ok (invalid_false h)
    rw [wooWrites, invalid_false h, hitem]
    exact ⟨.executeItem item, _, _, rfl, rfl⟩

theorem snappShopWrites_begins (u : Unicode) (batch : List WorkspaceWriteIntent)
    (rest : List (List WorkspaceWriteIntent)) (outcomes : List ProviderOutcome) :
    Begins (batch.any (invalid u .snappShop)) (snappShopWrites u (batch :: rest) outcomes) := by
  cases h : batch.any (invalid u .snappShop) with
  | true =>
    obtain ⟨e, he⟩ := validateAll_refused h
    rw [snappShopWrites, he]
    exact ⟨.raised e, rfl⟩
  | false =>
    rw [snappShopWrites, validateAll_passed h]
    exact ⟨.updateProducts (batch.map snappShopRequest), _, _, rfl, rfl⟩

theorem tapsiShopWrites_begins (u : Unicode) (update : WorkspaceWriteIntent)
    (rest : List WorkspaceWriteIntent) (output : List WorkspaceWriteResult) :
    Begins (invalid u .tapsiShop update) (tapsiShopWrites u (update :: rest) output) := by
  cases h : invalid u .tapsiShop update with
  | true =>
    obtain ⟨e, he⟩ := invalid_true h
    rw [tapsiShopWrites, he]
    exact ⟨.raised e, rfl⟩
  | false =>
    rw [tapsiShopWrites, invalid_false h]
    exact ⟨.updateProducts [tapsiShopRequest update], _, _, rfl, rfl⟩

/-- A marketplace that takes no writes raises, and else begins as what is behind its guards. -/
theorem guarded_begins {next : Unit → Program α} (h : closed setup = false → Begins refused (next ())) :
    Begins (closed setup || refused) ((check (assertWritable setup name)).bind next) := by
  cases hclosed : closed setup with
  | true =>
    obtain ⟨e, he⟩ := assertWritable_closed name hclosed
    rw [he]
    exact ⟨.raised e, rfl⟩
  | false =>
    rw [assertWritable_open hclosed, check_ok]
    exact h hclosed

/-- A connector that is given an intent it refuses either raises at once or begins with a write,
and its first look at the intents decides which. -/
theorem applyUpdates_begins (setup : Setup) (h : updates.any (invalid u connector) = true) :
    Begins (refusedFirst u setup connector updates) (applyUpdates u setup connector updates) := by
  cases updates with
  | nil => cases h
  | cons update rest =>
    cases connector with
    | wooCommerce =>
      rw [refusedFirst, head?_cons, Option.any_some, applyUpdates, wooCommerceApply, Proc.bind_eq]
      exact (wooWrites_begins u setup update rest {}).bind
    | snappShop =>
      rw [refusedFirst, applyUpdates, snappShopApply, Proc.bind_eq]
      apply guarded_begins
      intro _
      rw [Proc.bind_eq]
      obtain ⟨more, hmore⟩ := batchesOf_cons maximumBatch (by decide)
        (cons_ne_nil update rest)
      rw [hmore]
      exact (snappShopWrites_begins u _ more []).bind
    | tapsiShop =>
      rw [refusedFirst, Bool.or_assoc, applyUpdates, tapsiShopApply, Proc.bind_eq]
      apply guarded_begins
      intro _
      rw [Proc.bind_eq]
      cases hmalformed : malformed (update :: rest) with
      | true =>
        obtain ⟨e, he⟩ := currentStateRequest_malformed .tapsiShop hmalformed
        rw [he]
        exact ⟨.raised e, rfl⟩
      | false =>
        obtain ⟨request, hrequest⟩ := currentStateRequest_wellFormed .tapsiShop hmalformed
        rw [hrequest, check_ok, Bool.false_or, head?_cons, Option.any_some]
        exact tapsiShopWrites_begins u update rest []
    | technolife =>
      obtain ⟨e, he⟩ := validateAll_refused h
      rw [refusedFirst, applyUpdates, technolifeApply, Proc.bind_eq]
      apply guarded_begins
      intro _
      rw [h, Proc.bind_eq, he, check_error]
      exact ⟨.raised e, rfl⟩

theorem wrote_log (h : wrote w = true) : wrote (w.log label s) = true := by
  rw [wrote, World.log_past, any_append, Bool.or_eq_true]
  exact .inl h

/-- A write is not unsent. -/
theorem wrote_steps (run : Steps p w q v) (h : wrote w = true) : wrote v = true := by
  induction run with
  | refl => exact h
  | step st _ ih =>
    apply ih
    cases st with
    | commit | rollback | answer | failure => exact wrote_log h

theorem Begins.raised (h : Begins true p) (run : Steps p w q v) : q.fault.isSome = true ∧ v = w := by
  obtain ⟨e, rfl⟩ := h
  cases run with
  | refl => exact ⟨rfl, rfl⟩
  | step st _ => cases st

theorem Begins.sent (h : Begins false p)
    (run : Steps p w q v) (ended : q.result.isSome = true ∨ q.fault.isSome = true) :
    wrote v = true := by
  obtain ⟨call, next, fail, hcall, rfl⟩ := h
  cases run with
  | refl =>
    rcases ended with ended | ended
    · cases ended
    · cases ended
  | step st more =>
    apply wrote_steps more
    cases st with
    | answer | failure =>
      rw [wrote, World.log_past, any_append, Bool.or_eq_true]
      right
      rw [any_cons, Bool.or_eq_true]
      exact .inl hcall

/-- With an intent among them that is refused, a call that has come to its end raised before it
sent a write exactly where what the connector looks at first is refused. -/
theorem validation_atomic (u : Unicode) (setup : Setup) (connector : Connector)
    (updates : List WorkspaceWriteIntent)
    (refused : ∃ update ∈ updates, ∃ e, validateUpdate u connector update = .error e)
    {p : Program (List WorkspaceWriteResult)} {w : World adapters}
    (run : Steps (applyUpdates u setup connector updates) (.initial ()) p w)
    (ended : p.result.isSome = true ∨ p.fault.isSome = true) :
    (p.fault.isSome = true ∧ wrote w = false) ↔ refusedFirst u setup connector updates = true := by
  have hany : updates.any (invalid u connector) = true := by
    obtain ⟨update, hmem, e, he⟩ := refused
    exact any_eq_true.mpr ⟨update, hmem, by rw [invalid, he]⟩
  have hbegins := applyUpdates_begins setup hany
  constructor
  · intro hclaim
    by_contra hfirst
    rw [Bool.not_eq_true] at hfirst
    rw [hfirst] at hbegins
    have hwrote := hbegins.sent run ended
    rw [hclaim.2] at hwrote
    cases hwrote
  · intro hfirst
    rw [hfirst] at hbegins
    have hend := hbegins.raised run
    rw [hend.2]
    exact ⟨hend.1, rfl⟩

namespace Sample

def intent (externalPrimaryId : String) (price : Option Float64) : WorkspaceWriteIntent where
  applyJobId := "job"
  applyItemIds := ["item"]
  workspaceId := "workspace"
  snapshotId := "snapshot"
  draftRevisionId := "draft"
  reviewId := "review"
  selectionChecksum := ""
  listingId := "listing-" ++ externalPrimaryId
  channelId := "woocommerce:primary"
  externalPrimaryId := externalPrimaryId
  sku := none
  productType := "simple"
  parentExternalId := none
  currentPrice := none
  currentStock := none
  currentStatus := none
  targetPrice := price
  targetStock := none
  targetStatus := none
  currency := some "IRR"
  unit := some "IRR"
  mappingVersion := 1
  cacheVersion := 1
  cacheChecksum := ""
  capabilityVersion := "uw-1.3-stock"
  currencyDigest := ""
  idempotencyKey := "key"
  payloadHash := ""

def openChannel : Setup := ⟨true, true, ConnectorFault.message⟩

/-- A provider that takes every write of WooCommerce. -/
def provider : Surroundings adapters where
  refuse _ _ := none
  answer _ call := match call with
    | .executeItem _ => .ok []
    | .updateProducts _ => .ok []
    | .fetchCurrentState request => .ok (failedCurrentState request "not_found" "")

/-- A good intent, and one without an identifier after it. -/
def mixed : List WorkspaceWriteIntent := [intent "17" (some .zero), intent "" (some .zero)]

def mixedEnd : Program (List WorkspaceWriteResult) × World adapters :=
  replay provider 5 (applyUpdates .ascii openChannel .wooCommerce mixed) (.initial ())

theorem mixed_refused : ∃ update ∈ mixed, ∃ e, validateUpdate .ascii .wooCommerce update = .error e :=
  ⟨_, mem_cons_of_mem _ mem_cons_self, _, rfl⟩

end Sample

open Sample

theorem validation_atomic_mixed : (mixedEnd.1.fault.isSome = true ∧ wrote mixedEnd.2 = false) ↔
      refusedFirst .ascii openChannel .wooCommerce Sample.mixed = true :=
  validation_atomic .ascii openChannel .wooCommerce Sample.mixed mixed_refused
    (replay_steps _ _ _ _) (.inr (by decide +kernel))

/-- WooCommerce has taken the first of two intents when it comes to refuse the second. -/
theorem validated_between_writes :
    ¬ ∀ (connector : Connector) (setup : Setup) (updates : List WorkspaceWriteIntent)
      (p : Program (List WorkspaceWriteResult)) (w : World adapters),
      (∃ update ∈ updates, ∃ e, validateUpdate .ascii connector update = .error e) →
      Steps (applyUpdates .ascii setup connector updates) (.initial ()) p w →
      p.result.isSome = true ∨ p.fault.isSome = true →
      p.fault.isSome = true ∧ wrote w = false := by
  intro claim
  have hend := claim .wooCommerce openChannel Sample.mixed mixedEnd.1 mixedEnd.2
    mixed_refused (replay_steps _ _ _ _) (.inr (by decide +kernel))
  have hwrote : wrote mixedEnd.2 = true := by decide +kernel
  rw [hend.2] at hwrote
  cases hwrote

end FlowHub.Connectors
