import FlowHub.Connectors.Verification

namespace FlowHub.Connectors

open Python Channels Txn List

variable (u : Unicode)

/-- The record that a run read of a listing. -/
def recordRead (w : World adapters) (listingId : Id) : Option CurrentStateRecord :=
  w.past.findSome? fun event => match event.label with
    | .answer (.fetchCurrentState _) state => state.records.lookup listingId
    | _ => none

/-- The results of all product updates of a run, in the order the provider gave them. -/
def providerResults (w : World adapters) : List ChannelProductUpdateResult :=
  w.past.flatMap fun event => match event.label with
    | .answer (.updateProducts _) results => results
    | _ => []

/-- The result names the product of the intent. -/
def Own (update : WorkspaceWriteIntent) (result : ChannelProductUpdateResult) : Prop :=
  result.identifiers.externalProductId = some update.externalPrimaryId ∨
    update.sku ≠ none ∧ result.identifiers.sku = update.sku

instance (update : WorkspaceWriteIntent) (result : ChannelProductUpdateResult) :
    Decidable (Own update result) :=
  inferInstanceAs (Decidable (_ ∨ _ ∧ _))

/-- WooCommerce answered the write of some intent of the listing with a deterministic error. -/
def Refused (updates : List WorkspaceWriteIntent) (w : World adapters) (listingId : Id) : Prop :=
  ∃ update ∈ updates, update.listingId = listingId ∧ ∃ item code message retryable,
    wooWriteItem u update = .ok item ∧ code.deterministic = true ∧ ∃ event ∈ w.past, event.label =
        .failure (.executeItem item) (.connectorError code message retryable)

/-- The provider rejected the write of this intent itself. -/
def Rejected (connector : Connector) (updates : List WorkspaceWriteIntent) (w : World adapters)
    (update : WorkspaceWriteIntent) : Prop :=
  match connector with
  | .wooCommerce => Refused u updates w update.listingId
  | _ => ∃ result ∈ providerResults w, Own update result ∧ result.success = false

/-- `FAILED` is reported only of intents that were rejected themselves. -/
def OwnFailures (connector : Connector) (updates : List WorkspaceWriteIntent)
    (results : List WorkspaceWriteResult) (w : World adapters) : Prop :=
  ∀ pair ∈ updates.zip results, pair.2.outcome = .failed → Rejected u connector updates w pair.1

/-- Every rejection stands in the place of an intent that was rejected itself. -/
def InPlace (connector : Connector) (updates : List WorkspaceWriteIntent) (w : World adapters) : Prop :=
  connector = .wooCommerce ∨ ((providerResults w).length = updates.length →
    ∀ pair ∈ updates.zip (providerResults w), pair.2.success = false → Rejected u connector updates w pair.1)

/-- In every call that verifies it, the intent is verified exactly where it holds in what the call
read. -/
def VerifiesExactly (connector : Connector) (update : WorkspaceWriteIntent) : Prop :=
  ∀ (setup : Setup) (updates : List WorkspaceWriteIntent) (results : List WorkspaceWriteResult)
    (w : World adapters),
    Steps (verifyUpdates u setup connector updates) (.initial ()) (.done results) w →
    ∀ result, (update, result) ∈ updates.zip results →
      (result.outcome = .verifiedApplied ↔
        ∃ record, recordRead w update.listingId = some record ∧ Holds u connector update record)

/-- The results of a verification, read off one answer of the provider. -/
def ReadOnce (connector : Connector) (updates : List WorkspaceWriteIntent)
    (results : List WorkspaceWriteResult) (w : World adapters) : Prop :=
  malformed updates = false ∧ ∃ state : CurrentStateResult,
    (∀ id, recordRead w id = state.records.lookup id) ∧ results = updates.map (verifyResult u connector state)

variable {u} {setup : Setup} {connector : Connector} {updates : List WorkspaceWriteIntent}
  {update : WorkspaceWriteIntent}

theorem check_meets {α : Type} {x : Except Fault α} {w : World adapters} {P : World adapters → Prop}
    (h : P w) : (check x).Meets .free (fun a v => x = .ok a ∧ P v) (fun _ _ => True) w := by
  cases x with
  | ok a => exact ⟨rfl, h⟩
  | error e => trivial

variable (safeError : ConnectorFault → String)

theorem fetchCurrentState_asks (h : ¬request.entities.isEmpty = true) : fetchCurrentState safeError request =
      .ask (.fetchCurrentState request) .done
        fun e => .done (failedCurrentState request "verification" (safeError e)) :=
  if_neg h

/-- A read sends no write and is the only thing that it logs. -/
theorem fetch_meets (request : CurrentStateRequest)
    (w : World adapters) (unread : ∀ id, recordRead w id = none) :
    (fetchCurrentState safeError request).Meets .free
      (fun state v => (∀ id, recordRead v id = state.records.lookup id) ∧
        providerResults v = providerResults w ∧ ∀ event ∈ w.past, event ∈ v.past)
      (fun _ _ => True) w := by
  by_cases hempty : request.entities.isEmpty = true
  · have hdone : fetchCurrentState safeError request = .done (failedCurrentState request
        "verification" "No current-state entities were requested.") := if_pos hempty
    rw [hdone]
    exact ⟨fun id => unread id, rfl, fun _ h => h⟩
  · rw [fetchCurrentState_asks safeError hempty]
    rintro v rfl
    constructor
    · intro state
      refine ⟨trivial, fun id => ?_, ?_, fun event h => mem_append_left _ h⟩
      · have hnone := unread id
        rw [recordRead] at hnone
        rw [recordRead, World.log_past, findSome?_append, hnone]
        simp
      · simp [providerResults]
    · intro e
      refine ⟨trivial, fun id => ?_, ?_, fun event h => mem_append_left _ h⟩
      · have hnone := unread id
        rw [recordRead] at hnone
        rw [recordRead, World.log_past, findSome?_append, hnone]
        rfl
      · simp [providerResults]

theorem unread_initial (id : Id) : recordRead (.initial ()) id = none := rfl

theorem readBack_meets : (readBack u connector safeError updates).Meets .free (ReadOnce u connector updates)
      (fun _ _ => True) (.initial ()) := by
  rw [readBack, Proc.bind_eq]
  cases hmalformed : malformed updates with
  | true =>
    obtain ⟨e, he⟩ := currentStateRequest_malformed connector hmalformed
    rw [he]
    trivial
  | false =>
    obtain ⟨request, hrequest⟩ := currentStateRequest_wellFormed connector hmalformed
    rw [hrequest, check_ok, Proc.bind_eq]
    apply (fetch_meets safeError request _ unread_initial).bind
    intro state v hread
    exact ⟨hmalformed, state, hread.1, rfl⟩

theorem verifyUpdates_meets (reads : connector ≠ .tapsiShop) :
    (verifyUpdates u setup connector updates).Meets .free (ReadOnce u connector updates)
      (fun _ _ => True) (.initial ()) := by
  cases connector with
  | tapsiShop => exact absurd rfl reads
  | wooCommerce => exact readBack_meets setup.safeError
  | snappShop | technolife =>
    rw [verifyUpdates, Proc.bind_eq]
    apply (check_meets (P := fun v => v = .initial ()) rfl).bind
    rintro _ _ ⟨-, rfl⟩
    exact readBack_meets ConnectorFault.message

theorem currentStateRequest_entities (h : currentStateRequest connector updates = .ok request) :
    request.entities = updates.map identityOf := by
  dsimp only [currentStateRequest] at h
  split at h
  · split at h
    · split at h
      · cases h
        rfl
      · cases h
    · cases h
  · cases h

theorem verifyUpdates_open (reads : connector ≠ .tapsiShop) :
    verifyUpdates u Sample.openChannel connector updates =
      readBack u connector ConnectorFault.message updates := by
  cases connector with
  | tapsiShop => exact absurd rfl reads
  | wooCommerce | snappShop | technolife => rfl

/-- Any record can be what a call reads of an intent that can be asked for. -/
theorem verifyUpdates_reads (reads : connector ≠ .tapsiShop) (record : CurrentStateRecord)
    (wellFormed : malformed [update] = false) : ∃ result w,
      Steps (verifyUpdates u Sample.openChannel connector [update]) (.initial ())
        (.done [result]) w ∧
      recordRead w update.listingId = some record ∧
      (result.outcome = .verifiedApplied ↔ stateMatches u connector update record = true) := by
  obtain ⟨request, hrequest⟩ := currentStateRequest_wellFormed connector wellFormed
  have hsome : ¬request.entities.isEmpty = true := by
    rw [currentStateRequest_entities hrequest]
    exact Bool.false_ne_true
  let state : CurrentStateResult :=
    ⟨[(update.listingId, record)], [], fun _ _ => not_mem_nil⟩
  have hlookup : state.records.lookup update.listingId = some record := by simp [state]
  have hprogram : verifyUpdates u Sample.openChannel connector [update] = .ask (.fetchCurrentState request)
        (fun state => .done ([update].map (verifyResult u connector state)))
        fun e => .done ([update].map (verifyResult u connector
          (failedCurrentState request "verification" (ConnectorFault.message e)))) := by
    rw [verifyUpdates_open reads, readBack, Proc.bind_eq, hrequest, check_ok, Proc.bind_eq,
      fetchCurrentState_asks _ hsome]
    rfl
  rw [hprogram]
  refine ⟨_, _, .step (.answer state) (.refl _ _), ?_, ?_⟩
  · simp [recordRead, hlookup]
  simp only [verifyResult, verified, hlookup, Option.any_some]
  cases stateMatches u connector update record <;> decide

theorem stateMatches_exact (reads : connector ≠ .tapsiShop)
    (some_targeted : ∃ field, targeted update field = true) (h : Comparable u update connector)
    (record : CurrentStateRecord) :
    stateMatches u connector update record = true ↔ Holds u connector update record := by
  cases connector with
  | tapsiShop => exact absurd rfl reads
  | wooCommerce => exact wooCommerce_exact some_targeted h
  | snappShop => exact snappShop_exact h
  | technolife => exact technolife_exact h

theorem stateMatches_comparable (laws : CaseLaws u) (reads : connector ≠ .tapsiShop)
    (some_targeted : ∃ field, targeted update field = true)
    (h : ∀ record, stateMatches u connector update record = true ↔
      Holds u connector update record) : Comparable u update connector := by
  cases connector with
  | tapsiShop => exact absurd rfl reads
  | wooCommerce => exact wooCommerce_comparable some_targeted h
  | snappShop => exact snappShop_comparable laws h
  | technolife => exact technolife_comparable laws h

theorem malformed_of_mem (hmem : update ∈ updates) (h : malformed [update] = true) :
    malformed updates = true := by
  simp only [malformed, any_cons, any_nil, Bool.or_false, map_cons, map_nil,
    nodup_singleton, decide_true, Bool.not_true, Bool.or_eq_true, decide_eq_true_eq] at h
  simp only [malformed, Bool.or_eq_true, any_eq_true, decide_eq_true_eq]
  rcases h with h | h
  · exact .inl (.inl ⟨update, hmem, h⟩)
  · exact .inr ⟨update, hmem, h⟩

theorem mem_zip_map {α β : Type} {f : α → β} {items : List α} {a : α} {b : β}
    (h : (a, b) ∈ items.zip (items.map f)) : a ∈ items ∧ b = f a := by
  induction items with
  | nil => cases h
  | cons first rest ih =>
    rw [map_cons, zip_cons_cons, mem_cons] at h
    rcases h with h | h
    · cases h
      exact ⟨mem_cons_self, rfl⟩
    · exact ⟨mem_cons_of_mem _ (ih h).1, (ih h).2⟩

/-- Verification is exact for the intents whose governed fields the match compares, and for those
that no call can ask for. -/
theorem verifiesExactly_iff (laws : CaseLaws u) (reads : connector ≠ .tapsiShop)
    (some_targeted : ∃ field, targeted update field = true) :
    VerifiesExactly u connector update ↔ malformed [update] = true ∨ Comparable u update connector := by
  constructor
  · intro exact
    by_cases hmalformed : malformed [update] = true
    · exact .inl hmalformed
    right
    apply stateMatches_comparable laws reads some_targeted
    intro record
    obtain ⟨result, w, run, hread, houtcome⟩ := verifyUpdates_reads (u := u) reads record
      (Bool.not_eq_true _ ▸ hmalformed)
    rw [← houtcome, exact _ _ _ _ run result (mem_singleton_self _), hread]
    simp
  · intro h setup updates results w run result hpair
    obtain ⟨wellFormed, state, hread, rfl⟩ := run.returned trivial (verifyUpdates_meets reads)
    obtain ⟨hmem, rfl⟩ := mem_zip_map hpair
    rcases h with h | h
    · rw [malformed_of_mem hmem h] at wellFormed
      cases wellFormed
    rw [hread]
    have hexact := stateMatches_exact reads some_targeted h
    cases hlookup : state.records.lookup update.listingId with
    | none => simp [verifyResult, verified, hlookup]
    | some record =>
      simp only [verifyResult, verified, hlookup, Option.any_some, Option.some.injEq,
        exists_eq_left', ← hexact]
      cases stateMatches u connector update record <;> decide

theorem flatten_batches (size : Nat) (items : List α) (count : Nat) :
    ((range count).map fun i => (items.drop (i * size)).take size).flatten = items.take (count * size) := by
  induction count with
  | zero => simp
  | succ count ih =>
    rw [range_succ, map_append, flatten_append, ih, Nat.succ_mul, take_add]
    simp

/-- The batches are the whole, in order. -/
theorem batchesOf_flatten (hsize : 0 < size) (items : List α) : (batchesOf size items).flatten = items := by
  rw [batchesOf, flatten_batches]
  apply take_of_length_le
  have := Nat.div_add_mod (items.length + size - 1) size
  have := Nat.mod_lt (items.length + size - 1) hsize
  rw [Nat.mul_comm]
  omega

/-- A product update logs its own results and reads nothing. -/
theorem update_meets (requests : List ChannelProductUpdate) (w : World adapters)
    (unread : ∀ id, recordRead w id = none) :
    (Proc.request (I := adapters) (.updateProducts requests)).Meets .free
      (fun (results : List ChannelProductUpdateResult) v =>
        (∀ id, recordRead v id = none) ∧ providerResults v = providerResults w ++ results)
      (fun _ _ => True) w := by
  rintro _ rfl
  constructor
  · intro results
    refine ⟨trivial, fun id => ?_, ?_⟩
    · have hnone := unread id
      rw [recordRead] at hnone
      rw [recordRead, World.log_past, findSome?_append, hnone]
      rfl
    · rw [providerResults, World.log_past, flatMap_append]
      exact congrArg (providerResults _ ++ ·) (append_nil _)
  · intro e
    exact ⟨trivial, trivial⟩

/-- What the batches bring back stands in the order of their intents. -/
theorem snappShopWrites_meets (batches : List (List WorkspaceWriteIntent))
    (outcomes : List ProviderOutcome) (w : World adapters) (unread : ∀ id, recordRead w id = none) :
    (snappShopWrites u batches outcomes).Meets .free
      (fun final v => (∀ id, recordRead v id = none) ∧ ∃ items,
        items.length = batches.flatten.length ∧ providerResults v = providerResults w ++ items ∧
          final = outcomes ++ batches.flatten.zip items)
      (fun _ _ => True) w := by
  induction batches generalizing outcomes w with
  | nil => exact ⟨unread, [], rfl, (append_nil _).symm, by simp⟩
  | cons batch rest ih =>
    rw [snappShopWrites]
    apply (check_meets (P := fun v => v = w) rfl).bind
    rintro _ _ ⟨-, rfl⟩
    apply (update_meets (batch.map snappShopRequest) _ unread).bind
    rintro results after ⟨hunread, hresults⟩
    apply (check_meets (P := fun x => x = after) rfl).bind
    rintro paired _ ⟨hzip, rfl⟩
    rw [zipStrict] at hzip
    split at hzip
    · rename_i hlength
      cases hzip
      apply (ih (outcomes ++ batch.zip results) _ hunread).mono
      · rintro final x ⟨hx, items, hitems, hprovider, rfl⟩
        refine ⟨hx, results ++ items, ?_, ?_, ?_⟩
        · rw [flatten_cons, length_append, length_append, hitems, hlength]
        · rw [hprovider, hresults, append_assoc]
        · rw [flatten_cons, zip_append hlength, append_assoc]
      · exact fun _ _ h => h
    · cases hzip

/-- The results of a combined write: one for each outcome, failed where the provider said so. -/
theorem combinedResults_meets (outcomes : List ProviderOutcome) (w : World adapters)
    (unread : ∀ id, recordRead w id = none) :
    (combinedResults u connector outcomes).Meets .free
      (fun results v => providerResults v = providerResults w ∧ ∃ state,
        results = outcomes.map (combinedResult u connector state))
      (fun _ _ => True) w := by
  rw [combinedResults, Proc.bind_eq]
  apply (check_meets (P := fun v => v = w) rfl).bind
  rintro request _ ⟨-, rfl⟩
  rw [Proc.bind_eq]
  apply (fetch_meets ConnectorFault.message request _ unread).bind
  intro state v hread
  exact ⟨hread.2.1, state, rfl⟩

theorem combinedResult_failed :
    (combinedResult u connector state outcome).outcome = .failed ↔ outcome.2.success = false := by
  simp only [combinedResult]
  cases outcome.2.success <;> cases verified u connector outcome.1 state <;> simp

theorem zip_zip_map (as : List α) (bs : List β) (f : α × β → γ) :
    as.zip ((as.zip bs).map f) = (as.zip bs).map fun pair => (pair.1, f pair) := by
  induction as generalizing bs with
  | nil => rfl
  | cons a rest ih =>
    cases bs with
    | nil => rfl
    | cons b more => simp [ih]

/-- `FAILED` stands where the provider's rejections do. -/
theorem ownFailures_combined : OwnFailures u connector updates
      ((updates.zip items).map (combinedResult u connector state)) w ↔
    ∀ pair ∈ updates.zip items, pair.2.success = false → Rejected u connector updates w pair.1 := by
  rw [OwnFailures, zip_zip_map, forall_mem_map]
  simp [combinedResult_failed]

theorem ownFailures_snappShop
    (run : Steps (applyUpdates u setup .snappShop updates) (.initial ()) (.done results) w) :
    OwnFailures u .snappShop updates results w ↔ InPlace u .snappShop updates w := by
  have hmeets : (applyUpdates u setup .snappShop updates).Meets .free
      (fun results v => (providerResults v).length = updates.length ∧ ∃ state,
        results = (updates.zip (providerResults v)).map (combinedResult u .snappShop state))
      (fun _ _ => True) (.initial ()) := by
    rw [applyUpdates, snappShopApply, Proc.bind_eq]
    apply (check_meets (P := fun v => v = .initial ()) rfl).bind
    rintro _ _ ⟨-, rfl⟩
    rw [Proc.bind_eq]
    apply (snappShopWrites_meets _ _ _ unread_initial).bind
    rintro outcomes after ⟨hunread, items, hlength, hprovider, rfl⟩
    rw [batchesOf_flatten (by decide)] at hlength ⊢
    have hitems : providerResults after = items := hprovider
    apply (combinedResults_meets _ _ hunread).mono
    · rintro results v ⟨hresults, state, rfl⟩
      rw [hresults, hitems]
      exact ⟨hlength, state, rfl⟩
    · exact fun _ _ h => h
  obtain ⟨hlength, state, rfl⟩ := run.returned trivial hmeets
  rw [ownFailures_combined, InPlace]
  constructor
  · intro h
    exact .inr fun _ => h
  · rintro (h | h)
    · cases h
    · exact h hlength

theorem ownFailures_technolife
    (run : Steps (applyUpdates u setup .technolife updates) (.initial ()) (.done results) w) :
    OwnFailures u .technolife updates results w ↔ InPlace u .technolife updates w := by
  have hmeets : (applyUpdates u setup .technolife updates).Meets .free
      (fun results v => if (providerResults v).length = updates.length then ∃ state,
          results = (updates.zip (providerResults v)).map (combinedResult u .technolife state)
        else results = updates.map (ambiguous "Technolife"))
      (fun _ _ => True) (.initial ()) := by
    rw [applyUpdates, technolifeApply, Proc.bind_eq]
    apply (check_meets (P := fun v => v = .initial ()) rfl).bind
    rintro _ _ ⟨-, rfl⟩
    rw [Proc.bind_eq]
    apply (check_meets (P := fun v => v = .initial ()) rfl).bind
    rintro _ _ ⟨-, rfl⟩
    rw [Proc.bind_eq]
    apply (update_meets (updates.map technolifeRequest) _ unread_initial).bind
    rintro items after ⟨hunread, hprovider⟩
    have hitems : providerResults after = items := hprovider
    by_cases hlength : items.length = updates.length
    · rw [if_pos hlength]
      apply (combinedResults_meets _ _ hunread).mono
      · rintro results v ⟨hresults, state, rfl⟩
        rw [hresults, hitems, if_pos hlength]
        exact ⟨state, rfl⟩
      · exact fun _ _ h => h
    · rw [if_neg hlength]
      show if (providerResults after).length = updates.length then _ else _
      rw [hitems, if_neg hlength]
  have hresults := run.returned trivial hmeets
  split at hresults
  · rename_i hlength
    obtain ⟨state, rfl⟩ := hresults
    rw [ownFailures_combined, InPlace]
    constructor
    · intro h
      exact .inr fun _ => h
    · rintro (h | h)
      · cases h
      · exact h hlength
  · rename_i hlength
    subst hresults
    constructor
    · intro _
      exact .inr fun h => absurd h hlength
    · rintro - ⟨update, result⟩ hpair hfailed
      obtain ⟨-, rfl⟩ := mem_zip_map hpair
      cases hfailed

theorem Refused.log {w : World adapters} {listingId : Id} {label : Label adapters}
    (h : Refused u updates w listingId) : Refused u updates (w.log label ()) listingId := by
  obtain ⟨update, hmem, hlisting, item, code, message, retryable, hitem, hcode, event, hevent, hlabel⟩ := h
  exact ⟨update, hmem, hlisting, item, code, message, retryable, hitem, hcode, event,
    mem_append_left _ hevent, hlabel⟩

/-- The failures gathered so far are rejections. -/
def FailuresRefused (u : Unicode) (updates : List WorkspaceWriteIntent) (progress : WooProgress)
    (w : World adapters) : Prop :=
  ∀ entry ∈ progress.completed, entry.2.outcome = .failed → Refused u updates w entry.1

theorem FailuresRefused.log {progress : WooProgress} {w : World adapters} {label : Label adapters}
    (h : FailuresRefused u updates progress w) :
    FailuresRefused u updates progress (w.log label ()) :=
  fun entry hentry hfailed => (h entry hentry hfailed).log

theorem refusedResult_failed (h : (refusedResult setup update e).outcome = .failed) :
    ∃ code message retryable, e = .connectorError code message retryable ∧ code.deterministic = true := by
  cases e with
  | raised fault => cases h
  | connectorError code message retryable =>
    refine ⟨code, message, retryable, rfl, ?_⟩
    simp only [refusedResult] at h
    split at h
    · assumption
    · cases h

theorem FailuresRefused.refused (h : FailuresRefused u updates progress w)
    (hnew : (∃ code message retryable, e = .connectorError code message retryable ∧
      code.deterministic = true) → Refused u updates w update.listingId) :
    FailuresRefused u updates (progress.refused setup update e) w := by
  intro entry hentry hfailed
  rcases mem_cons.mp hentry with rfl | hentry
  · exact hnew (refusedResult_failed hfailed)
  · exact h entry hentry hfailed

/-- One write of WooCommerce. It fails with an error of the provider only after it was sent. -/
theorem executeItem_meets (hmem : update ∈ updates) (h : FailuresRefused u updates progress w) :
    ((check (wooWriteItem u update)).bind fun item =>
      Proc.request (I := adapters) (.executeItem item)).Meets .free
      (fun _ v => FailuresRefused u updates progress v)
      (fun e v => FailuresRefused u updates (progress.refused setup update e) v) w := by
  cases hitem : wooWriteItem u update with
  | error e =>
    change FailuresRefused u updates (progress.refused setup update (.raised e)) w
    apply h.refused
    rintro ⟨code, message, retryable, he, -⟩
    cases he
  | ok item =>
    change (Proc.request (I := adapters) (.executeItem item)).Meets .free _ _ w
    rintro v rfl
    refine ⟨fun response => ⟨trivial, h.log⟩, fun e => ⟨trivial, ?_⟩⟩
    apply h.log.refused
    rintro ⟨code, message, retryable, rfl, hcode⟩
    exact ⟨update, hmem, rfl, item, code, message, retryable, hitem, hcode, _, mem_concat_self, rfl⟩

theorem wooWrites_meets (rest : List WorkspaceWriteIntent) (progress : WooProgress)
    (w : World adapters) (hrest : ∀ update ∈ rest, update ∈ updates)
    (h : FailuresRefused u updates progress w) :
    (wooWrites u setup rest progress).Meets .free (FailuresRefused u updates) (fun _ _ => True)
      w := by
  induction rest generalizing progress w with
  | nil => exact h
  | cons update rest ih =>
    have hmore : ∀ other ∈ rest, other ∈ updates := fun other hother =>
      hrest other (mem_cons_of_mem _ hother)
    rw [wooWrites]
    apply (check_meets (P := fun v => v = w) rfl).bind
    rintro _ _ ⟨-, rfl⟩
    apply (executeItem_meets (hrest update mem_cons_self) h).tryElse
    · intro response v hv
      exact ih (progress.accepted update response) v hmore hv
    · intro e v hv
      exact ih (progress.refused setup update e) v hmore hv

theorem mapM_zip {α β ε : Type} {f : α → Except ε β} {as : List α} {bs : List β}
    (h : as.mapM f = .ok bs) {pair : α × β} (hpair : pair ∈ as.zip bs) : f pair.1 = .ok pair.2 := by
  have hall := mapM_ok.mp h
  clear h
  induction hall with
  | nil => cases hpair
  | cons hab _ ih =>
    rcases mem_cons.mp hpair with rfl | hpair
    · exact hab
    · exact ih hpair

theorem mem_of_lookup {α : Type} {entries : List (Id × α)} {key : Id} {a : α}
    (h : entries.lookup key = some a) : (key, a) ∈ entries := by
  induction entries with
  | nil => cases h
  | cons entry rest ih =>
    rw [lookup_cons] at h
    split at h
    · rename_i heq
      cases h
      rw [beq_iff_eq.mp heq]
      exact mem_cons_self
    · exact mem_cons_of_mem _ (ih h)

theorem wooResult_not_failed {state : CurrentStateResult} {responses : List (Id × Evidence)} :
    (wooResult u state responses update).outcome ≠ .failed := by
  simp only [wooResult]
  split <;> decide

theorem ownFailures_wooCommerce {results : List WorkspaceWriteResult} {w : World adapters}
    (run : Steps (applyUpdates u setup .wooCommerce updates) (.initial ()) (.done results) w) :
    OwnFailures u .wooCommerce updates results w := by
  have hmeets : (applyUpdates u setup .wooCommerce updates).Meets .free
      (fun results v => OwnFailures u .wooCommerce updates results v) (fun _ _ => True)
      (.initial ()) := by
    rw [applyUpdates, wooCommerceApply, Proc.bind_eq]
    apply (wooWrites_meets updates {} _ (fun _ h => h) (fun entry h => by cases h)).bind
    intro progress after hfailures
    rw [Proc.bind_eq]
    apply (check_meets (P := fun v => v = after) rfl).bind
    rintro request _ ⟨-, rfl⟩
    rw [Proc.bind_eq]
    have hread := Proc.Meets.forever (p := fetchCurrentState setup.safeError request)
      (P := FailuresRefused u updates progress) FailuresRefused.log hfailures
    apply (hread.mono (fun _ _ h => h) fun _ _ _ => trivial).bind
    intro state v hv
    apply (check_meets hv).mono
    · rintro results x ⟨hmap, hx⟩ pair hpair hfailed
      have hlookup := mapM_zip hmap hpair
      split at hlookup
      · rename_i result hresult
        cases hlookup
        rcases mem_append.mp (mem_of_lookup hresult) with hentry | hentry
        · obtain ⟨update, -, heq⟩ := mem_map.mp hentry
          rw [← (Prod.mk.inj heq).2] at hfailed
          exact absurd hfailed wooResult_not_failed
        · exact hx _ hentry hfailed
      · cases hlookup
    · exact fun _ _ h => h
  exact run.returned trivial hmeets

/-- What a read-back verifies, and which failures a write reports: both as they should be exactly
under a condition on the intent, and on the order of the provider's results. -/
theorem readBack_exact (laws : CaseLaws u) (reads : connector ≠ .tapsiShop) :
    (∀ update, (∃ field, targeted update field = true) →
      (VerifiesExactly u connector update ↔ malformed [update] = true ∨ Comparable u update connector)) ∧
    ∀ (setup : Setup) (updates : List WorkspaceWriteIntent) (results : List WorkspaceWriteResult)
      (w : World adapters),
      Steps (applyUpdates u setup connector updates) (.initial ()) (.done results) w →
      (OwnFailures u connector updates results w ↔ InPlace u connector updates w) := by
  constructor
  · intro update some_targeted
    exact verifiesExactly_iff laws reads some_targeted
  intro setup updates results w run
  cases connector with
  | tapsiShop => exact absurd rfl reads
  | wooCommerce => exact iff_of_true (ownFailures_wooCommerce run) (.inl rfl)
  | snappShop => exact ownFailures_snappShop run
  | technolife => exact ownFailures_technolife run

theorem ascii_caseLaws : CaseLaws .ascii := ⟨by decide, by decide⟩

namespace Sample

/-- A write of the stock alone. -/
def stockOnly : WorkspaceWriteIntent :=
  { intent "17" none with
    channelId := "technolife:main"
    parentExternalId := some "5"
    currentPrice := some .zero
    targetStock := some .zero }

theorem stockOnly_incomparable :
    ¬(malformed [stockOnly] = true ∨ Comparable .ascii stockOnly .technolife) := by
  rintro (h | ⟨hnan, -⟩ | ⟨⟨x, q, hx, -⟩, -⟩)
  · exact absurd h (by decide)
  · exact absurd hnan (by decide)
  · cases hx

def complete (externalPrimaryId : String) : WorkspaceWriteIntent :=
  { intent externalPrimaryId (some .zero) with
    channelId := "snappshop:main"
    unit := some "TOMAN"
    targetStock := some .zero }

/-- A provider that takes the second product, rejects the first, and answers in that order. -/
def reordering : Surroundings adapters where
  refuse _ _ := none
  answer _ call := match call with
    | .executeItem _ => .ok []
    | .updateProducts _ => .ok [ { identifiers := { externalProductId := some "18" }, success := true },
        { identifiers := { externalProductId := some "17" }, success := false }]
    | .fetchCurrentState request => .ok (failedCurrentState request "not_found" "")

def both : List WorkspaceWriteIntent := [complete "17", complete "18"]

def bothEnd : Program (List WorkspaceWriteResult) × World adapters :=
  replay reordering 5 (applyUpdates .ascii openChannel .snappShop both) (.initial ())

end Sample

open Sample

theorem readBack_exact_stockOnly : VerifiesExactly .ascii .technolife stockOnly ↔
    malformed [stockOnly] = true ∨ Comparable .ascii stockOnly .technolife :=
  (readBack_exact ascii_caseLaws (by decide)).1 stockOnly ⟨.stock, rfl⟩

/-- Technolife does not verify the stock it was asked to write while the price moves, and
SnappShop reports the failure of a product for another whose own result is a success. -/
theorem verification_inexact :
    (¬ ∀ (connector : Connector) (update : WorkspaceWriteIntent), connector ≠ .tapsiShop →
      (∃ field, targeted update field = true) → VerifiesExactly .ascii connector update) ∧
    ¬ ∀ (connector : Connector) (setup : Setup) (updates : List WorkspaceWriteIntent)
      (results : List WorkspaceWriteResult) (w : World adapters), connector ≠ .tapsiShop →
      Steps (applyUpdates .ascii setup connector updates) (.initial ()) (.done results) w →
      OwnFailures .ascii connector updates results w := by
  constructor
  · intro claim
    have hexact := claim .technolife stockOnly (by decide) ⟨.stock, rfl⟩
    rw [verifiesExactly_iff ascii_caseLaws (by decide) ⟨.stock, rfl⟩] at hexact
    exact stockOnly_incomparable hexact
  · intro claim
    have hown := claim .snappShop openChannel both _ _ (by decide)
      (@replay_done _ _ _ reordering 5 _ [] (by decide +kernel))
    have hother : ∃ pair ∈ both.zip (bothEnd.1.result.getD []),
        pair.2.outcome = .failed ∧ ∀ result ∈ providerResults bothEnd.2,
          result.success = false → ¬Own pair.1 result := by decide +kernel
    obtain ⟨pair, hpair, hfailed, hnone⟩ := hother
    obtain ⟨result, hresult, hsame, hrejected⟩ := hown pair hpair hfailed
    exact hnone result hresult hrejected hsame

end FlowHub.Connectors
