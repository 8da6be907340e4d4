import FlowHub.WritePipeline.Execute

namespace FlowHub.WritePipeline

open Txn List

/-- The intents a step hands to `connector.apply_updates`, with their command. A
call cut off by a crash is one that failed. -/
def dispatchOf : Label service → Option (WorkspaceWriteBatchCommand × List WorkspaceWriteIntent)
  | .answer (.applyUpdates command _ intents) _ => some (command, intents)
  | .failure (.applyUpdates command _ intents) _ => some (command, intents)
  | _ => none

/-- Every intent ever handed to `connector.apply_updates`. -/
def sent (past : List (Event service)) : List WorkspaceWriteIntent :=
  past.flatMap fun e => match dispatchOf e.label with
    | some (_, intents) => intents
    | none => []

def Silent (l : Label service) : Prop := dispatchOf l = none

variable {intents : List WorkspaceWriteIntent} {workflow : String} {a : ProviderWriteAttempt}
  {db s t : Db} {n : Nat}

theorem sent_append_silent (h : Silent e.label) : sent (past ++ [e]) = sent past := by
  simp [sent, show dispatchOf e.label = none from h]

theorem sent_append_dispatch (h : dispatchOf e.label = some (command, intents)) :
    sent (past ++ [e]) = sent past ++ intents := by
  simp [sent, h]

/-- An assertion that outlives the others' steps and our own steps that change
nothing and dispatch nothing. -/
structure Stable (C : Contract service) (P : World service → Prop) : Prop where
  rely : ∀ {w v}, C.rely w v → P w → P v
  quiet : ∀ {w l}, P w → Silent l → C.guar w (w.log l w.state) ∧ P (w.log l w.state)

variable {C : Contract service} {P : World service → Prop} {w : World service}

theorem ask_stable (st : Stable C P) (silent : ∀ c ch is, q ≠ .applyUpdates c ch is)
    (h : P w) : (ask q).Meets C (fun _ => P) (fun _ => P) w := by
  have hs : (∀ a, Silent (.answer q a)) ∧ ∀ e, Silent (.failure q e) := by
    cases q <;> first | exact ⟨fun _ => rfl, fun _ => rfl⟩ | exact absurd rfl (silent _ _ _)
  exact Proc.Meets.request (fun v hv a => st.quiet (st.rely hv h) (hs.1 a))
    (fun v hv e => st.quiet (st.rely hv h) (hs.2 e))

theorem fence_stable (st : Stable C P) (command : WorkspaceWriteBatchCommand) (h : P w) :
    (assertWorkspaceFence command).Meets C (fun _ => P) (fun _ => P) w :=
  Proc.Meets.consult (fun _ hv _ _ => st.quiet (st.rely hv h) rfl)
    (fun _ hv _ => st.quiet (st.rely hv h) rfl)

theorem acquireAll_stable (st : Stable C P) (channelId : Id) (intents : List WorkspaceWriteIntent) (h : P w) :
    (acquireAll channelId intents).Meets C (fun _ => P) (fun _ => P) w := by
  induction intents generalizing w with
  | nil => exact h
  | cons _ rest ih =>
    exact (ask_stable st (by simp) h).bind fun _ v hv => ih hv

theorem gatherEvents_stable (st : Stable C P) (command : WorkspaceWriteBatchCommand)
    (recorded : Recorded) (results : List WorkspaceWriteResult) (h : P w) :
    (gatherEvents command recorded results).Meets C (fun _ => P) (fun _ => P) w := by
  induction results generalizing w with
  | nil => exact h
  | cons result rest ih =>
    refine (fence_stable st command h).bind fun _ v hv => ?_
    refine Proc.Meets.bind (Q := fun _ => P) ?_ fun id u hu => ?_
    · exact Proc.Meets.ofExcept (fun _ _ => hv) (fun _ _ => hv)
    · exact (ih hu).bind fun _ _ ht => ht

theorem verifyChannel_stable (st : Stable C P) (command : WorkspaceWriteBatchCommand)
    (reconcileOnly : Bool) (recorded : Recorded) (channelId : Id)
    (intents : List WorkspaceWriteIntent) (h : P w) :
    (verifyChannel command reconcileOnly recorded channelId intents).Meets C
      (fun _ => P) (fun _ => P) w := by
  unfold verifyChannel
  split
  · exact ask_stable st (by simp) h
  · split
    · exact h
    · exact ask_stable st (by simp) h

/-- Only the attempt tables and the authority heads differ, and attempts and
their events are only added. -/
def Appends (s t : Db) : Prop :=
  ∃ attempts events heads,
    t = { s with attempts := s.attempts ++ attempts, attemptEvents := s.attemptEvents ++ events,
                 authorityHeads := heads }

theorem Appends.refl (s : Db) : Appends s s := ⟨[], [], s.authorityHeads, by simp⟩

theorem Appends.trans (h : Appends s t) (k : Appends t u) : Appends s u := by
  obtain ⟨a, e, hd, rfl⟩ := h
  obtain ⟨a', e', hd', rfl⟩ := k
  exact ⟨a ++ a', e ++ e', hd', by simp only [append_assoc]⟩

@[simp] theorem newAttempt_logicalItem (id : Id) (workflow : String)
    (intent : WorkspaceWriteIntent) (itemId : Id) :
    (newAttempt id workflow intent itemId).logicalItem = ⟨workflow, intent.applyJobId, itemId⟩ := rfl

theorem Appends.events (s : Db) (events : List ProviderWriteAttemptEvent)
    (heads : List ChannelPricingAuthorityHead) :
    Appends s { s with attemptEvents := s.attemptEvents ++ events, authorityHeads := heads } :=
  ⟨[], events, heads, by simp only [append_nil]⟩

theorem insertAttempt_ok (h : insertAttempt db a = .ok db') : (∀ b ∈ db.attempts, clashes a b = false) ∧
      db' = { db with
        attempts := db.attempts ++ [a]
        attemptEvents := db.attemptEvents ++
          [{ attemptId := a.id, outcome := .dispatchIntentRecorded }] } := by
  unfold insertAttempt at h
  split at h
  · cases h
  rename_i hc
  refine ⟨fun b hb => ?_, by simpa using h.symm⟩
  by_contra hne
  exact hc (any_eq_true.mpr ⟨b, hb, by simpa using hne⟩)

/-- What recording one intent does: it finds an attempt or adds the first one. -/
theorem recordIntent_ok {id : Id}
    (h : recordIntent workflow reconcileOnly id intent db recorded = .ok (db', recorded')) :
    ∃ itemId rest, intent.applyItemIds = itemId :: rest ∧
      ((∃ existing, existingAttempt db workflow intent itemId = some existing ∧ db' = db ∧
          recorded' = ⟨(intent.listingId, existing.id) :: recorded.attempts,
            intent.listingId :: recorded.priorAttempts⟩) ∨
        (existingAttempt db workflow intent itemId = none ∧
          insertAttempt db (newAttempt id workflow intent itemId) = .ok db' ∧
          recorded' = ⟨(intent.listingId, id) :: recorded.attempts, recorded.priorAttempts⟩)) := by
  unfold recordIntent at h
  split at h
  · cases h
  rename_i itemId rest hids
  refine ⟨itemId, rest, hids, ?_⟩
  split at h
  · rename_i existing he
    exact .inl ⟨existing, he, by simp_all⟩
  rename_i hnone
  split at h
  · cases h
  · obtain ⟨db₁, hins, heq⟩ := bind_eq_ok.mp h
    obtain ⟨rfl, rfl⟩ : db₁ = db' ∧ _ = recorded' := by simpa using heq
    exact .inr ⟨hnone, hins, rfl⟩

theorem recordIntents_cons
    (h : recordIntents workflow reconcileOnly fresh n (intent :: rest) db recorded =
      .ok (db', recorded')) : ∃ db₁ recorded₁,
      recordIntent workflow reconcileOnly (fresh n) intent db recorded = .ok (db₁, recorded₁) ∧
      recordIntents workflow reconcileOnly fresh (n + 1) rest db₁ recorded₁ = .ok (db', recorded') := by
  obtain ⟨⟨db₁, recorded₁⟩, h₁, h₂⟩ := bind_eq_ok.mp h
  exact ⟨db₁, recorded₁, h₁, h₂⟩

theorem recordIntents_appends
    (h : recordIntents workflow reconcileOnly fresh n intents db recorded =
      .ok (db', recorded')) : Appends db db' := by
  induction intents generalizing n db recorded with
  | nil =>
    obtain ⟨rfl, -⟩ : db = db' ∧ _ := by simpa [recordIntents] using h
    exact .refl db
  | cons intent rest ih =>
    obtain ⟨db₁, recorded₁, h₁, h₂⟩ := recordIntents_cons h
    refine Appends.trans ?_ (ih h₂)
    obtain ⟨itemId, _, _, ⟨_, _, rfl, _⟩ | ⟨_, hins, _⟩⟩ := recordIntent_ok h₁
    · exact .refl _
    · rw [(insertAttempt_ok hins).2]
      exact ⟨_, _, _, rfl⟩

theorem recordIntents_prior (h : recordIntents workflow reconcileOnly fresh n intents db recorded =
      .ok (db', recorded')) : recorded.priorAttempts ⊆ recorded'.priorAttempts := by
  induction intents generalizing n db recorded with
  | nil =>
    obtain ⟨-, rfl⟩ : _ ∧ recorded = recorded' := by simpa [recordIntents] using h
    exact Subset.refl _
  | cons intent rest ih =>
    obtain ⟨db₁, recorded₁, h₁, h₂⟩ := recordIntents_cons h
    refine Subset.trans ?_ (ih h₂)
    obtain ⟨_, _, _, ⟨_, _, _, rfl⟩ | ⟨_, _, rfl⟩⟩ := recordIntent_ok h₁
    · exact subset_cons_self _ _
    · exact Subset.refl _

theorem pricingAuthorityIssue_appends (command : WorkspaceWriteBatchCommand) (eventId : Id)
    (intent : WorkspaceWriteIntent) (db : Db) :
    ∃ heads, (pricingAuthorityIssue command eventId intent db).1 = { db with authorityHeads := heads } := by
  unfold pricingAuthorityIssue
  split
  · split
    · exact ⟨_, rfl⟩
    · split
      · exact ⟨_, rfl⟩
      · rename_i h
        unfold PricingAuthority.snapshot at h
        split at h
        · cases h
          exact ⟨_, rfl⟩
        · split at h
          · cases h
            exact ⟨_, rfl⟩
          · cases h
  · exact ⟨_, rfl⟩

theorem newestAttempt_isSome (h : rows ≠ []) : (newestAttempt rows).isSome := by
  obtain ⟨rest, a, rfl⟩ := (eq_nil_or_concat rows).resolve_left h
  rw [newestAttempt, concat_eq_append, foldl_append, foldl_cons, foldl_nil]
  split
  · rfl
  · split <;> rfl

/-- An attempt with the intent's item and payload is on record. -/
def Found (db : Db) (workflow : String) (intent : WorkspaceWriteIntent) : Prop :=
  ∃ itemId rest, intent.applyItemIds = itemId :: rest ∧ ∃ a ∈ db.attempts,
    a.logicalItem = ⟨workflow, intent.applyJobId, itemId⟩ ∧ a.payloadHash = intent.payloadHash

theorem Found.mono (h : Found s workflow intent) (hst : Appends s t) : Found t workflow intent := by
  obtain ⟨a, e, hd, rfl⟩ := hst
  obtain ⟨itemId, rest, hids, b, hb, hk⟩ := h
  exact ⟨itemId, rest, hids, b, mem_append_left a hb, hk⟩

theorem newestAttempt_mem (h : newestAttempt rows = some a) : a ∈ rows := by
  induction rows using reverseRecOn generalizing a with
  | nil => cases h
  | append_singleton rest b ih =>
    rw [newestAttempt, foldl_append, foldl_cons, foldl_nil] at h
    split at h
    · cases h
      exact mem_concat_self
    · rename_i best hbest
      split at h
      · cases h
        exact mem_concat_self
      · cases h
        exact mem_append_left _ (ih hbest)

theorem existingAttempt_some (h : existingAttempt db workflow intent itemId = some a) :
    a ∈ db.attempts ∧ a.logicalItem = ⟨workflow, intent.applyJobId, itemId⟩ ∧
      a.payloadHash = intent.payloadHash := by
  obtain ⟨hm, hf⟩ := mem_filter.mp (newestAttempt_mem h)
  rw [Bool.and_eq_true, decide_eq_true_eq, decide_eq_true_eq] at hf
  exact ⟨hm, hf⟩

theorem Found.existing (h : Found db workflow intent) : ∃ itemId rest, intent.applyItemIds = itemId :: rest ∧
      ∃ a, existingAttempt db workflow intent itemId = some a := by
  obtain ⟨itemId, rest, hids, b, hb, hk, hp⟩ := h
  refine ⟨itemId, rest, hids, Option.isSome_iff_exists.mp (newestAttempt_isSome ?_)⟩
  refine ne_nil_of_mem (a := b) (mem_filter.mpr ⟨hb, ?_⟩)
  simp [hk, hp, decide_true, Bool.and_self]

/-- After the first transaction every intent has its attempt. -/
theorem recordIntents_found (h : recordIntents workflow reconcileOnly fresh n intents db recorded =
      .ok (db', recorded')) : ∀ intent ∈ intents, Found db' workflow intent := by
  induction intents generalizing n db recorded with
  | nil => simp
  | cons intent rest ih =>
    obtain ⟨db₁, recorded₁, h₁, h₂⟩ := recordIntents_cons h
    intro i hi
    rcases mem_cons.mp hi with rfl | hi
    · refine Found.mono ?_ (recordIntents_appends h₂)
      obtain ⟨itemId, more, hids, ⟨a, ha, rfl, -⟩ | ⟨-, hins, -⟩⟩ := recordIntent_ok h₁
      · obtain ⟨hm, hk⟩ := existingAttempt_some ha
        exact ⟨itemId, more, hids, a, hm, hk⟩
      · obtain ⟨-, rfl⟩ := insertAttempt_ok hins
        exact ⟨itemId, more, hids, _, mem_append_right _ (mem_singleton.mpr rfl), rfl, rfl⟩
    · exact ih h₂ i hi

/-- Intents that all have their attempts are all prior: nothing is inserted, and
verification-only calls go through. -/
theorem recordIntents_prior_only (h : ∀ intent ∈ intents, Found db workflow intent) (reconcileOnly : Bool)
    (fresh : Nat → Id) (n : Nat) (recorded : Recorded) :
    ∃ recorded', recordIntents workflow reconcileOnly fresh n intents db recorded = .ok (db, recorded') := by
  induction intents generalizing n recorded with
  | nil => exact ⟨recorded, rfl⟩
  | cons intent rest ih =>
    obtain ⟨itemId, more, hids, a, ha⟩ := (h intent (mem_cons_self ..)).existing
    obtain ⟨recorded', hr⟩ := ih (fun i hi => h i (mem_cons_of_mem _ hi)) (n + 1)
      ⟨(intent.listingId, a.id) :: recorded.attempts, intent.listingId :: recorded.priorAttempts⟩
    refine ⟨recorded', ?_⟩
    rw [recordIntents, recordIntent, hids]
    simp only [ha]
    exact hr

/-- The final price filter only touches authority heads, keeps the order of what
it allows, and answers each intent it does not allow. -/
theorem filterAuthorized_spec (command : WorkspaceWriteBatchCommand) (fresh : Id → Id)
    (intents : List WorkspaceWriteIntent) (db : Db) :
    (∃ heads, (filterAuthorizedPriceIntents command fresh intents db).1 =
      { db with authorityHeads := heads }) ∧
    (filterAuthorizedPriceIntents command fresh intents db).2.1.Sublist intents := by
  induction intents generalizing db with
  | nil => exact ⟨⟨_, rfl⟩, .slnil⟩
  | cons intent rest ih =>
    unfold filterAuthorizedPriceIntents
    split
    · obtain ⟨⟨heads, hh⟩, hs⟩ := ih db
      exact ⟨⟨heads, hh⟩, hs.cons_cons intent⟩
    obtain ⟨heads₁, h₁⟩ :=
      pricingAuthorityIssue_appends command (fresh intent.channelId) intent db
    rcases hp : pricingAuthorityIssue command (fresh intent.channelId) intent db with ⟨db₁, issue⟩
    obtain rfl : db₁ = { db with authorityHeads := heads₁ } := by simpa only [hp] using h₁
    obtain ⟨⟨heads, hh⟩, hs⟩ := ih { db with authorityHeads := heads₁ }
    cases issue with
    | none => exact ⟨⟨heads, hh⟩, hs.cons_cons intent⟩
    | some code => exact ⟨⟨heads, hh⟩, hs.cons intent⟩

theorem dispatchIntents_ok
    (h : dispatchIntents fresh command recorded pending db = .ok (db', allowed, rejected)) :
    allowed.Sublist pending ∧ ∃ heads events, dispatchedEvents recorded allowed = .ok events ∧
      db' = { db with attemptEvents := db.attemptEvents ++ events, authorityHeads := heads } := by
  obtain ⟨events, he, hr⟩ := bind_eq_ok.mp h
  obtain ⟨⟨heads, hh⟩, hs⟩ := filterAuthorized_spec command fresh.authorityEvent pending db
  simp only [Except.ok.injEq, Prod.mk.injEq] at hr
  obtain ⟨rfl, rfl, -⟩ := hr
  exact ⟨hs, heads, events, he, by simp only [hh]⟩

theorem addToGroup_perm (intent : WorkspaceWriteIntent) (groups : List (Id × List WorkspaceWriteIntent)) :
    ((addToGroup intent groups).flatMap Prod.snd).Perm (groups.flatMap Prod.snd ++ [intent]) := by
  induction groups with
  | nil => simp [addToGroup]
  | cons g rest ih =>
    obtain ⟨channelId, intents⟩ := g
    unfold addToGroup
    split
    · simp only [flatMap_cons, append_assoc]
      exact Perm.append_left _ perm_append_comm
    · simp only [flatMap_cons, append_assoc]
      exact Perm.append_left _ ih

/-- Grouping by Channel loses and repeats no intent. -/
theorem grouped_perm (intents : List WorkspaceWriteIntent) :
    ((grouped intents).flatMap Prod.snd).Perm intents := by
  suffices h : ∀ groups, ((intents.foldl (fun g i => addToGroup i g) groups).flatMap Prod.snd).Perm
      (groups.flatMap Prod.snd ++ intents) by simpa [grouped] using h []
  induction intents with
  | nil => simp
  | cons intent rest ih =>
    intro groups
    refine (ih (addToGroup intent groups)).trans ?_
    have := (addToGroup_perm intent groups).append_right rest
    simpa only [append_assoc, singleton_append] using this

/-- An assertion that a whole call keeps: it survives the call's own writes and the
dispatch of any of the `allowed` intents. -/
structure Tolerates (C : Contract service) (command : WorkspaceWriteBatchCommand)
    (allowed : List WorkspaceWriteIntent) (P : World service → Prop) : Prop where
  rely : ∀ {w v}, C.rely w v → P w → P v
  writes : ∀ {w l s}, P w → Silent l → Appends w.state s → C.guar w (w.log l s) ∧ P (w.log l s)
  dispatch : ∀ {w l intents}, P w → dispatchOf l = some (command, intents) →
    intents ⊆ allowed → C.guar w (w.log l w.state) ∧ P (w.log l w.state)

section Frame

variable {command : WorkspaceWriteBatchCommand} {allowed : List WorkspaceWriteIntent}

theorem Tolerates.stable (t : Tolerates C command allowed P) : Stable C P where
  rely := t.rely
  quiet h silent := t.writes h silent (.refl _)

theorem Tolerates.sublist {more : List WorkspaceWriteIntent} (t : Tolerates C command more P)
    (hsub : allowed ⊆ more) : Tolerates C command allowed P where
  rely := t.rely
  writes := t.writes
  dispatch h hl hs := t.dispatch h hl (Subset.trans hs hsub)

theorem applyUpdates_frame (t : Tolerates C command dispatchable P) (h : P w) :
    (applyUpdates command channelId dispatchable).Meets C (fun _ => P) (fun _ => P) w := by
  unfold applyUpdates
  split
  · exact h
  refine Proc.Meets.rescue (E := fun _ => P) ?_ fun e v hv => hv
  exact Proc.Meets.request
    (fun v hv results => t.dispatch (t.rely hv h) rfl (Subset.refl _))
    (fun v hv e => t.dispatch (t.rely hv h) rfl (Subset.refl _))

theorem dispatchPending_frame (t : Tolerates C command pending P) (h : P w) :
    (dispatchPending fresh command recorded channelId pending).Meets C
      (fun _ => P) (fun _ => P) w := by
  refine (acquireAll_stable t.stable channelId pending h).tryElse ?_ fun e v hv => hv
  intro _ v hv
  refine (fence_stable t.stable command hv).bind fun _ v hv => ?_
  refine Proc.Meets.bind (Q := fun r v => P v ∧ r.1 ⊆ pending) ?_ ?_
  · refine Proc.Meets.transact ?_ fun u hu e => t.writes (t.rely hu hv) rfl (.refl _)
    rintro u hu s ⟨allowed, rejected⟩ hok
    obtain ⟨hsub, heads, events, -, rfl⟩ := dispatchIntents_ok hok
    obtain ⟨hg, hp⟩ := t.writes (l := .commit (.dispatch command channelId)) (t.rely hu hv) rfl
      (.events _ events heads)
    exact ⟨hg, hp, hsub.subset⟩
  · rintro ⟨allowed, rejected⟩ u ⟨hu, hsub⟩
    exact (applyUpdates_frame (t.sublist hsub) hu).bind fun _ _ ht => ht

theorem runChannel_frame (t : Tolerates C command intents P) (h : P w) :
    (runChannel fresh command reconcileOnly recorded channelId intents).Meets C
      (fun _ => P) (fun _ => P) w := by
  have st := t.stable
  refine Proc.Meets.bind (Proc.Meets.ofExcept (fun _ _ => h) fun _ _ => h) fun _ v hv => ?_
  refine Proc.Meets.bind (Q := fun _ => P) ?_ fun dispatched v hv => ?_
  · unfold dispatchChannel
    split
    · exact hv
    · exact dispatchPending_frame (t.sublist filter_sublist.subset) hv
  refine (verifyChannel_stable st _ _ _ _ _ hv).bind fun verified v hv => ?_
  refine (ask_stable st (by simp) hv).bind fun _ v hv => ?_
  refine (gatherEvents_stable st _ _ _ hv).bind fun events v hv => ?_
  refine Proc.Meets.bind (Q := fun _ => P) ?_ fun _ _ ht => ht
  refine Proc.Meets.transact ?_ fun u hu e => t.writes (t.rely hu hv) rfl (.refl _)
  intro u hu s _ hok
  obtain rfl : { u.state with attemptEvents := u.state.attemptEvents ++ events } = s := by
    simpa using hok
  exact t.writes (t.rely hu hv) rfl (.events _ events u.state.authorityHeads)

theorem runChannels_frame (t : Tolerates C command (groups.flatMap Prod.snd) P) (h : P w) :
    (runChannels fresh command reconcileOnly recorded groups).Meets C
      (fun _ => P) (fun _ => P) w := by
  induction groups generalizing w with
  | nil => exact h
  | cons g rest ih =>
    rw [flatMap_cons] at t
    refine (runChannel_frame (t.sublist (subset_append_left _ _)) h).bind fun _ v hv => ?_
    exact (ih (t.sublist (subset_append_right _ _)) hv).bind fun _ _ ht => ht

theorem executeWorkspace_frame (t : Tolerates C command command.intents P) (h : P w) :
    (executeWorkspace fresh command reconcileOnly).Meets C (fun _ => P) (fun _ => P) w := by
  refine (fence_stable t.stable command h).bind fun _ v hv => ?_
  refine Proc.Meets.bind (Q := fun _ => P) ?_ fun recorded v hv => runChannels_frame
    (t.sublist (grouped_perm command.intents).subset) hv
  exact Proc.Meets.transact
    (fun u hu s _ hok => t.writes (t.rely hu hv) rfl (recordIntents_appends hok))
    (fun u hu e => t.writes (t.rely hu hv) rfl (.refl _))

end Frame

namespace Sample

/-- A stock intent of one Listing, for runs on fixed inputs. -/
def intent (jobId itemId listingId : Id) : WorkspaceWriteIntent where
  applyJobId := jobId
  applyItemIds := [itemId]
  workspaceId := "workspace"
  snapshotId := "snapshot"
  draftRevisionId := "revision"
  reviewId := "review"
  selectionChecksum := "selection"
  listingId := listingId
  channelId := "snappshop:main"
  externalPrimaryId := listingId
  sku := none
  productType := "simple"
  parentExternalId := none
  currentPrice := none
  currentStock := none
  currentStatus := none
  targetPrice := none
  targetStock := none
  targetStatus := some "in_stock"
  currency := none
  unit := none
  mappingVersion := 1
  cacheVersion := 1
  cacheChecksum := "cache"
  capabilityVersion := "capabilities"
  currencyDigest := "currency"
  idempotencyKey := jobId ++ listingId
  payloadHash := listingId

def command (intents : List WorkspaceWriteIntent) : WorkspaceWriteBatchCommand where
  workspaceId := "workspace"
  snapshotId := "snapshot"
  draftRevisionId := "revision"
  reviewId := "review"
  selectionChecksum := "selection"
  correlationId := "correlation"
  requestedBy := "operator"
  intents := intents

def fresh : Fresh where
  attempt n := "pwa_" ++ toString n
  authorityEvent channelId := "authority:" ++ channelId

/-- Every commit goes through and every connector verifies what it is given. -/
def calm : Surroundings service where
  refuse _ _ := none
  answer _
    | .acquire _ | .transportReports _ _ => .ok ()
    | .readLive _ _ => .ok ⟨none, true⟩
    | .applyUpdates _ _ intents | .verifyUpdates _ _ intents =>
      .ok (intents.map fun i => { listingId := i.listingId, outcome := .verifiedApplied })

end Sample

end FlowHub.WritePipeline
