import FlowHub.WritePipeline.Spec

namespace FlowHub.WritePipeline

open Txn List

def itemOf (workflow : String) (intent : WorkspaceWriteIntent) : Option LogicalItem :=
  intent.applyItemIds.head?.map (⟨workflow, intent.applyJobId, ·⟩)

def itemsOf (workflow : String) (intents : List WorkspaceWriteIntent) : List LogicalItem :=
  intents.filterMap (itemOf workflow)

/-- The logical items one step passes to `connector.apply_updates`. -/
def dispatchedItems (l : Label service) : List LogicalItem :=
  match dispatchOf l with
  | some (command, intents) => itemsOf command.workflow intents
  | none => []

/-- Every logical item ever dispatched, once for each time. -/
def dispatches (past : List (Event service)) : List LogicalItem :=
  past.flatMap fun e => dispatchedItems e.label

@[simp] theorem dispatches_append (past : List (Event service)) (e : Event service) :
    dispatches (past ++ [e]) = dispatches past ++ dispatchedItems e.label := by
  simp [dispatches]

variable {l : Label service}

theorem dispatchedItems_silent (h : Silent l) : dispatchedItems l = [] := by
  simp [dispatchedItems, show dispatchOf l = none from h]

/-- The first attempt of the item is on record. -/
def Attempted (db : Db) (k : LogicalItem) : Prop :=
  ∃ a ∈ db.attempts, a.logicalItem = k ∧ a.attemptNumber = 1

theorem Attempted.mono (h : Attempted s k) (hst : Appends s t) : Attempted t k := by
  obtain ⟨a, e, hd, rfl⟩ := hst
  obtain ⟨b, hb, hk⟩ := h
  exact ⟨b, mem_append_left a hb, hk⟩

/-- Dispatched at most once, and never without its attempt. -/
structure AtMostOnce (w : World service) : Prop where
  once : (dispatches w.past).Nodup
  attempted : ∀ k ∈ dispatches w.past, Attempted w.state k

/-- Items still to be dispatched by the running call, none of them twice. -/
structure Owned (items : List LogicalItem) (w : World service) : Prop extends AtMostOnce w where
  nodup : items.Nodup
  fresh : ∀ k ∈ items, k ∉ dispatches w.past
  recorded : ∀ k ∈ items, Attempted w.state k

theorem AtMostOnce.log {w : World service} (h : AtMostOnce w) {s : Db}
    (silent : Silent l) (hs : Appends w.state s) : AtMostOnce (w.log l s) where
  once := by
    simpa only [World.log_past, dispatches_append, dispatchedItems_silent silent, append_nil] using h.once
  attempted k hk := by
    simp only [World.log_past, dispatches_append, dispatchedItems_silent silent, append_nil] at hk
    exact (h.attempted k hk).mono hs

theorem Owned.log {items : List LogicalItem} {w : World service} (h : Owned items w)
    {s : Db} (silent : Silent l) (hs : Appends w.state s) :
    Owned items (w.log l s) where
  toAtMostOnce := h.toAtMostOnce.log silent hs
  nodup := h.nodup
  fresh k hk := by
    simpa only [World.log_past, dispatches_append, dispatchedItems_silent silent,
      append_nil] using h.fresh k hk
  recorded k hk := (h.recorded k hk).mono hs

theorem Owned.sublist {items more : List LogicalItem} {w : World service} (h : Owned more w)
    (hsub : items.Sublist more) : Owned items w where
  toAtMostOnce := h.toAtMostOnce
  nodup := h.nodup.sublist hsub
  fresh k hk := h.fresh k (hsub.subset hk)
  recorded k hk := h.recorded k (hsub.subset hk)

/-- Dispatching some of the owned items leaves the others owned. -/
theorem Owned.dispatch (h : Owned (now ++ later) w) (hl : dispatchedItems l = now) :
    Owned later (w.log l w.state) := by
  obtain ⟨hnow, hlater, hdisj⟩ := nodup_append.mp h.nodup
  refine ⟨⟨?_, ?_⟩, hlater, ?_, fun k hk => h.recorded k (mem_append_right now hk)⟩
  · rw [World.log_past, dispatches_append, hl]
    refine nodup_append.mpr ⟨h.once, hnow, fun a ha b hb hab => ?_⟩
    exact h.fresh b (mem_append_left later hb) (hab ▸ ha)
  · intro k hk
    rw [World.log_past, dispatches_append, hl] at hk
    rcases mem_append.mp hk with hk | hk
    · exact h.attempted k hk
    · exact h.recorded k (mem_append_left later hk)
  · intro k hk
    rw [World.log_past, dispatches_append, hl]
    intro hmem
    rcases mem_append.mp hmem with hold | hnew
    · exact h.fresh k (mem_append_right now hk) hold
    · exact hdisj k hnew k hk rfl

theorem attempted_insert {id : Id} (h : insertAttempt db (newAttempt id workflow intent itemId) = .ok db') :
    ¬Attempted db ⟨workflow, intent.applyJobId, itemId⟩ ∧
      Attempted db' ⟨workflow, intent.applyJobId, itemId⟩ := by
  obtain ⟨hfree, rfl⟩ := insertAttempt_ok h
  constructor
  · rintro ⟨b, hb, hk, hn⟩
    have hc := hfree b hb
    have hnum : (newAttempt id workflow intent itemId).attemptNumber = b.attemptNumber := hn.symm
    simp only [clashes, newAttempt_logicalItem, hk, hnum, decide_true, Bool.and_self,
      Bool.or_true, Bool.true_or, Bool.true_eq_false] at hc
  · exact ⟨_, mem_append_right _ (mem_singleton.mpr rfl), rfl, rfl⟩

/-- What the first transaction leaves pending was never attempted before it. -/
theorem recordIntents_pending
    (h : recordIntents workflow reconcileOnly fresh n intents db recorded = .ok (db', recorded')) :
    (itemsOf workflow (pendingIntents recorded' intents)).Nodup ∧
      ∀ k ∈ itemsOf workflow (pendingIntents recorded' intents), ¬Attempted db k ∧ Attempted db' k := by
  induction intents generalizing n db recorded with
  | nil => simp [pendingIntents, itemsOf]
  | cons intent rest ih =>
    obtain ⟨db₁, recorded₁, h₁, h₂⟩ := recordIntents_cons h
    obtain ⟨hnd, hk⟩ := ih h₂
    obtain ⟨itemId, more, hids, ⟨_, _, rfl, rfl⟩ | ⟨_, hins, rfl⟩⟩ := recordIntent_ok h₁
    · -- A prior attempt takes the Listing out of what is pending for good.
      have hprior : intent.listingId ∈ recorded'.priorAttempts :=
        recordIntents_prior h₂ (mem_cons_self ..)
      have hskip : pendingIntents recorded' (intent :: rest) = pendingIntents recorded' rest := by
        simp [pendingIntents, hprior]
      rw [hskip]
      exact ⟨hnd, hk⟩
    · obtain ⟨hfree, hthere⟩ := attempted_insert hins
      have happ₁ : Appends db db₁ := by
        rw [(insertAttempt_ok hins).2]
        exact ⟨_, _, _, rfl⟩
      have hrest : ∀ k ∈ itemsOf workflow (pendingIntents recorded' rest),
          ¬Attempted db k ∧ Attempted db' k := fun k hm =>
        ⟨fun ha => (hk k hm).1 (ha.mono happ₁), (hk k hm).2⟩
      have hitem : itemOf workflow intent = some ⟨workflow, intent.applyJobId, itemId⟩ := by
        simp [itemOf, hids]
      by_cases hprior : intent.listingId ∈ recorded'.priorAttempts
      · have hskip : pendingIntents recorded' (intent :: rest) =
            pendingIntents recorded' rest := by simp [pendingIntents, hprior]
        rw [hskip]
        exact ⟨hnd, hrest⟩
      · have hcons : itemsOf workflow (pendingIntents recorded' (intent :: rest)) =
            ⟨workflow, intent.applyJobId, itemId⟩ :: itemsOf workflow (pendingIntents recorded' rest) := by
          simp [pendingIntents, hprior, itemsOf, hitem]
        rw [hcons]
        refine ⟨nodup_cons.mpr ⟨fun hm => (hk _ hm).1 hthere, hnd⟩, ?_⟩
        rintro k (_ | ⟨_, hm⟩)
        · exact ⟨hfree, hthere.mono (recordIntents_appends h₂)⟩
        · exact hrest k hm

/-- The items a group of one Channel still has to dispatch. -/
def ownedBy (command : WorkspaceWriteBatchCommand) (recorded : Recorded)
    (groups : List (Id × List WorkspaceWriteIntent)) : List LogicalItem :=
  groups.flatMap fun g => itemsOf command.workflow (pendingIntents recorded g.2)

theorem ownedBy_perm (command : WorkspaceWriteBatchCommand) (recorded : Recorded) :
    (ownedBy command recorded (grouped command.intents)).Perm
      (itemsOf command.workflow (pendingIntents recorded command.intents)) := by
  have hflat : ∀ groups, ownedBy command recorded groups =
      itemsOf command.workflow (pendingIntents recorded (groups.flatMap Prod.snd)) := by
    intro groups
    induction groups with
    | nil => rfl
    | cons g rest ih =>
      simp only [ownedBy, itemsOf, pendingIntents, flatMap_cons, filter_append, filterMap_append] at ih ⊢
      rw [ih]
  rw [hflat]
  exact ((grouped_perm command.intents).filter _).filterMap _

/-- Alone against the database, every step keeps `AtMostOnce`. -/
abbrev solo : Contract service := .alone AtMostOnce

theorem owned_stable (items : List LogicalItem) : Stable solo (Owned items) where
  rely h hp := h ▸ hp
  quiet h silent :=
    ⟨(h.log silent (.refl _)).toAtMostOnce, h.log silent (.refl _)⟩

section

theorem applyUpdates_owned (h : Owned (itemsOf command.workflow dispatchable ++ later) w) :
    (applyUpdates command channelId dispatchable).Meets solo
      (fun _ => Owned later) (fun _ => Owned later) w := by
  unfold applyUpdates
  split
  · exact h.sublist (sublist_append_right _ _)
  refine Proc.Meets.rescue (E := fun _ => Owned later) ?_ fun e v hv => hv
  refine Proc.Meets.request ?_ ?_
  · rintro _ rfl results
    exact ⟨(h.dispatch rfl).toAtMostOnce, h.dispatch rfl⟩
  · rintro _ rfl e
    exact ⟨(h.dispatch rfl).toAtMostOnce, h.dispatch rfl⟩

theorem dispatchPending_owned (h : Owned (itemsOf command.workflow pending ++ later) w) :
    (dispatchPending fresh command recorded channelId pending).Meets solo
      (fun _ => Owned later) (fun _ => Owned later) w := by
  have drop {v} (hv : Owned (itemsOf command.workflow pending ++ later) v) : Owned later v :=
    hv.sublist (sublist_append_right _ _)
  refine (acquireAll_stable (owned_stable _) channelId pending h).tryElse ?_ fun e v hv => drop hv
  intro _ v hv
  refine ((fence_stable (owned_stable _) command hv).mono (fun _ _ h => h)
    fun _ _ h => drop h).bind fun _ u hu => ?_
  refine Proc.Meets.bind (Q := fun r => Owned (itemsOf command.workflow r.1 ++ later)) ?_ ?_
  · refine Proc.Meets.transact ?_ ?_
    · rintro _ rfl s ⟨allowed, rejected⟩ hok
      obtain ⟨hsub, heads, events, -, rfl⟩ := dispatchIntents_ok hok
      have hlog := hu.log (l := .commit (.dispatch command channelId)) rfl
        (.events _ events heads)
      exact ⟨hlog.toAtMostOnce, hlog.sublist ((hsub.filterMap _).append_right later)⟩
    · rintro _ rfl e
      have hlog := hu.log (l := .rollback (.dispatch command channelId) e) rfl (.refl _)
      exact ⟨hlog.toAtMostOnce, drop hlog⟩
  · rintro ⟨allowed, rejected⟩ u hu
    exact (applyUpdates_owned hu).bind fun _ _ ht => ht

theorem runChannel_owned (h : Owned (itemsOf command.workflow (pendingIntents recorded intents) ++ later) w) :
    (runChannel fresh command reconcileOnly recorded channelId intents).Meets solo
      (fun _ => Owned later) (fun _ => Owned later) w := by
  have drop {v} (hv : Owned (itemsOf command.workflow (pendingIntents recorded intents) ++ later) v) :
      Owned later v := hv.sublist (sublist_append_right _ _)
  have st := owned_stable later
  refine Proc.Meets.bind (Proc.Meets.ofExcept (fun _ _ => h) fun _ _ => drop h) fun _ v hv => ?_
  refine Proc.Meets.bind (Q := fun _ => Owned later) ?_ fun dispatched v hv => ?_
  · unfold dispatchChannel
    split
    · exact drop hv
    · exact dispatchPending_owned hv
  refine (verifyChannel_stable st _ _ _ _ _ hv).bind fun verified v hv => ?_
  refine (ask_stable st (by simp) hv).bind fun _ v hv => ?_
  refine (gatherEvents_stable st _ _ _ hv).bind fun events v hv => ?_
  refine Proc.Meets.bind (Q := fun _ => Owned later) ?_ fun _ _ ht => ht
  refine Proc.Meets.transact ?_ ?_
  · rintro _ rfl s _ hok
    obtain rfl : { v.state with attemptEvents := v.state.attemptEvents ++ events } = s := by
      simpa using hok
    have hlog := hv.log (l := .commit (.recordResults command (dispatched ++ verified))) rfl
      (.events _ events v.state.authorityHeads)
    exact ⟨hlog.toAtMostOnce, hlog⟩
  · rintro _ rfl e
    have hlog := hv.log (l := .rollback (.recordResults command (dispatched ++ verified)) e) rfl
      (.refl _)
    exact ⟨hlog.toAtMostOnce, hlog⟩

theorem runChannels_owned (h : Owned (ownedBy command recorded groups) w) :
    (runChannels fresh command reconcileOnly recorded groups).Meets solo
      (fun _ => AtMostOnce) (fun _ => AtMostOnce) w := by
  induction groups generalizing w with
  | nil => exact h.toAtMostOnce
  | cons g rest ih =>
    refine Proc.Meets.bind ((runChannel_owned h).mono (fun _ _ ht => ht)
      fun _ _ ht => ht.toAtMostOnce) fun results v hv => ?_
    exact (ih hv).bind fun _ _ ht => ht

theorem executeWorkspace_atMostOnce (fresh : Fresh) (command : WorkspaceWriteBatchCommand)
    (reconcileOnly : Bool) (h : AtMostOnce w) :
    (executeWorkspace fresh command reconcileOnly).Meets solo
      (fun _ => AtMostOnce) (fun _ => AtMostOnce) w := by
  have st : Stable solo AtMostOnce :=
    ⟨fun hr hp => hr ▸ hp, fun h s => ⟨h.log s (.refl _), h.log s (.refl _)⟩⟩
  refine (fence_stable st command h).bind fun _ v hv => ?_
  refine Proc.Meets.bind
    (Q := fun recorded => Owned (ownedBy command recorded (grouped command.intents))) ?_
    fun recorded u hu => runChannels_owned hu
  refine Proc.Meets.transact ?_ fun _ hr e => hr ▸ ⟨hv.log rfl (.refl _), hv.log rfl (.refl _)⟩
  rintro _ rfl s recorded hok
  have hlog := hv.log (l := .commit (.recordIntents command)) rfl (recordIntents_appends hok)
  obtain ⟨hnd, hk⟩ := recordIntents_pending hok
  have hperm := ownedBy_perm command recorded
  refine ⟨hlog, hlog, hperm.nodup_iff.mpr hnd, fun k hm hd => ?_, fun k hm => ?_⟩
  · simp only [World.log_past, dispatches_append, append_nil,
      dispatchedItems_silent (l := .commit (.recordIntents command)) rfl] at hd
    exact (hk k (hperm.mem_iff.mp hm)).1 (hv.attempted k hd)
  · exact (hk k (hperm.mem_iff.mp hm)).2

end

/-- First runs, retries, mixed retries and verification-only calls, in any order. -/
def IsExecuteWorkspace (p : Program (List WorkspaceWriteResult)) : Prop :=
  ∃ fresh command reconcileOnly, p = executeWorkspace fresh command reconcileOnly

theorem session_atMostOnce (run : Session IsExecuteWorkspace w v) (h : AtMostOnce w) : AtMostOnce v := by
  refine run.invariant h ?_
  rintro _ ⟨fresh, command, reconcileOnly, rfl⟩ u hu
  exact (executeWorkspace_atMostOnce fresh command reconcileOnly hu).mono
    (fun _ _ _ => trivial) fun _ _ _ => trivial

/-- Over any sequence of calls, each cut off anywhere, a logical item reaches
`connector.apply_updates` at most once; whatever the connector is asked about it
after that is a verification. -/
theorem dispatch_at_most_once {db : Db} {w : World service}
    (run : Session IsExecuteWorkspace (.initial db) w) (item : LogicalItem) :
    (dispatches w.past).count item ≤ 1 ∧
      ∀ earlier e later, w.past = earlier ++ e :: later → item ∈ dispatchedItems e.label →
        ∀ e' ∈ later, item ∉ dispatchedItems e'.label := by
  have inv := session_atMostOnce run ⟨by simp [dispatches], by simp [dispatches]⟩
  refine ⟨nodup_iff_count_le_one.mp inv.once item, ?_⟩
  intro earlier e later hsplit he e' hlater he'
  have hnd := inv.once
  rw [hsplit] at hnd
  simp only [dispatches, flatMap_append, flatMap_cons] at hnd
  have htail := (nodup_append.mp hnd).2.1
  exact (nodup_append.mp htail).2.2 item he item
    (mem_flatMap.mpr ⟨e', hlater, he'⟩) rfl

namespace Sample

def retried : Program (List WorkspaceWriteResult) :=
  executeWorkspace fresh (command [intent "job" "item" "listing"]) false

/-- The first call stops after the provider answered; the retry runs to its end. -/
def afterCrash : World service := (replay calm 6 retried (.initial {})).2

def afterRetry : World service := (replay calm 20 retried afterCrash).2

end Sample

open Sample

theorem dispatch_at_most_once_retry : dispatches afterRetry.past = [⟨"unified_workspace", "job", "item"⟩] ∧
      (dispatches afterRetry.past).count ⟨"unified_workspace", "job", "item"⟩ ≤ 1 :=
  ⟨by decide, (dispatch_at_most_once
    (((Session.start _).call ⟨_, _, _, rfl⟩ (replay_steps calm 6 retried _)).call
      ⟨_, _, _, rfl⟩ (replay_steps calm 20 retried _)) _).1⟩

end FlowHub.WritePipeline
