import FlowHub.WritePipeline.Registration

namespace FlowHub

/-- An outcome that a connector reports for a write. -/
def WriteOutcome.settled : WriteOutcome → Bool
  | .verifiedApplied | .failed | .reconciliationRequired => true
  | .pending | .dispatchIntentRecorded | .dispatched | .providerAccepted | .recovering => false

end FlowHub

namespace FlowHub.WritePipeline

open Python Txn List Except

/-- Exactly one result for each intent, and each of them an outcome. -/
structure Answers (intents : List WorkspaceWriteIntent) (results : List WorkspaceWriteResult) : Prop where
  each : Paired WorkspaceWriteIntent.listingId WorkspaceWriteResult.listingId intents results
  settled : ∀ r ∈ results, r.outcome.settled = true

theorem Answers.nil : Answers [] [] := ⟨.nil, by simp⟩

variable {a b : List WorkspaceWriteIntent} {r : List WorkspaceWriteResult} {l : Label service}
  {s : Db}

theorem Answers.append {s : List WorkspaceWriteResult}
    (h : Answers a r) (k : Answers b s) : Answers (a ++ b) (r ++ s) :=
  ⟨h.each.append k.each, fun x hx => (mem_append.mp hx).elim (h.settled x) (k.settled x)⟩

theorem Answers.perm (h : Answers a r) (hp : a.Perm b) : Answers b r := ⟨h.each.perm hp, h.settled⟩

theorem Answers.map (hl : ∀ i, (f i).listingId = i.listingId) (ho : ∀ i, (f i).outcome.settled = true)
    (intents : List WorkspaceWriteIntent) : Answers intents (intents.map f) := by
  refine ⟨.map hl intents, fun r hr => ?_⟩
  obtain ⟨i, -, rfl⟩ := mem_map.mp hr
  exact ho i

/-- A connector that answers what it is asked. -/
def ConformingAnswer : Label service → Prop
  | .answer (.applyUpdates _ _ intents) results => Answers intents results
  | .answer (.verifyUpdates _ _ intents) results => Answers intents results
  | _ => True

def Conforming (w : World service) : Prop := ∀ e ∈ w.past, ConformingAnswer e.label

theorem Conforming.earlier (h : Conforming (w.log l s)) : Conforming w :=
  fun e he => h e (mem_append_left _ he)

theorem not_conforming_log (h : ¬Conforming w) : ¬Conforming (w.log l s) := fun hc => h hc.earlier

/-- Since `w₀` no attempt was added and no batch was touched; `events` were recorded
and `now` was sent. -/
structure Reached (w₀ : World service) (events : List ProviderWriteAttemptEvent)
    (now : List WorkspaceWriteIntent) (w : World service) : Prop where
  attempts : w.state.attempts = w₀.state.attempts
  events : w.state.attemptEvents = w₀.state.attemptEvents ++ events
  sent : sent w.past = sent w₀.past ++ now
  batches : w.state.writeBatches = w₀.state.writeBatches
  items : w.state.writeItems = w₀.state.writeItems

section

variable {w₀ w : World service} {events : List ProviderWriteAttemptEvent}
  {now : List WorkspaceWriteIntent}

variable {l : Label service}

theorem Reached.quiet (h : Reached w₀ events now w) (silent : Silent l) :
    Reached w₀ events now (w.log l w.state) where
  attempts := h.attempts
  events := h.events
  sent := by rw [World.log_past, sent_append_silent silent, h.sent]
  batches := h.batches
  items := h.items

theorem Reached.record (h : Reached w₀ events now w) (silent : Silent l)
    (more : List ProviderWriteAttemptEvent) (heads : List ChannelPricingAuthorityHead) :
    Reached w₀ (events ++ more) now (w.log l { w.state with
      attemptEvents := w.state.attemptEvents ++ more, authorityHeads := heads }) where
  attempts := h.attempts
  events := by rw [World.log_state, h.events, append_assoc]
  sent := by rw [World.log_past, sent_append_silent silent, h.sent]
  batches := h.batches
  items := h.items

theorem Reached.dispatch (h : Reached w₀ events now w)
    {command : WorkspaceWriteBatchCommand} {intents : List WorkspaceWriteIntent}
    (hl : dispatchOf l = some (command, intents)) :
    Reached w₀ events (now ++ intents) (w.log l w.state) where
  attempts := h.attempts
  events := h.events
  sent := by rw [World.log_past, sent_append_dispatch hl, h.sent, append_assoc]
  batches := h.batches
  items := h.items

theorem reached_stable : Stable .free (Reached w₀ events now) where
  rely h hp := h ▸ hp
  quiet h silent := ⟨trivial, h.quiet silent⟩

end

def dispatchedEvent (recorded : Recorded) (intent : WorkspaceWriteIntent) : ProviderWriteAttemptEvent :=
  { attemptId := route recorded intent.listingId, outcome := .dispatched }

def routedEvents (recorded : Recorded) (results : List WorkspaceWriteResult) :
    List ProviderWriteAttemptEvent :=
  results.flatMap fun r => resultEvents (route recorded r.listingId) r

theorem dispatchedEvents_ok (h : dispatchedEvents recorded intents = .ok events) :
    events = intents.map (dispatchedEvent recorded) := by
  induction intents generalizing events with
  | nil => exact (ok.inj h).symm
  | cons i rest ih =>
    obtain ⟨id, hid, h⟩ := bind_eq_ok.mp h
    obtain ⟨more, hmore, h⟩ := bind_eq_ok.mp h
    rw [← ok.inj h, ih hmore, map_cons, dispatchedEvent, attemptOf_ok hid]

/-- The final price filter answers what it turns away. -/
theorem filterAuthorized_answers (command : WorkspaceWriteBatchCommand) (fresh : Id → Id)
    (intents : List WorkspaceWriteIntent) (db : Db) :
    ∃ away, (away ++ (filterAuthorizedPriceIntents command fresh intents db).2.1).Perm intents ∧
      Answers away (filterAuthorizedPriceIntents command fresh intents db).2.2 := by
  induction intents generalizing db with
  | nil => exact ⟨[], .nil, .nil⟩
  | cons i rest ih =>
    unfold filterAuthorizedPriceIntents
    split
    · obtain ⟨away, hp, ha⟩ := ih db
      exact ⟨away, perm_middle.trans (hp.cons i), ha⟩
    rcases pricingAuthorityIssue command (fresh i.channelId) i db with ⟨db₁, issue⟩
    obtain ⟨away, hp, ha⟩ := ih db₁
    cases issue with
    | none => exact ⟨away, perm_middle.trans (hp.cons i), ha⟩
    | some code =>
      have hone := Answers.map (f := pricingRejected code) (fun _ => rfl) (fun _ => rfl) [i]
      exact ⟨i :: away, hp.cons i, hone.append ha⟩

section Channel

variable {fresh : Fresh} {command : WorkspaceWriteBatchCommand} {recorded : Recorded}
  {channelId : Id} {w₀ w : World service} {events : List ProviderWriteAttemptEvent}
  {now : List WorkspaceWriteIntent}

theorem applyUpdates_answers (h : Reached w₀ events now w) :
    (applyUpdates command channelId dispatchable).Meets .free (fun results v => Conforming v →
        Reached w₀ events (now ++ dispatchable) v ∧ Answers dispatchable results)
      (fun _ _ => True) w := by
  unfold applyUpdates
  split
  · rename_i hempty
    obtain rfl := isEmpty_iff.mp hempty
    intro _
    exact ⟨by rwa [append_nil], .nil⟩
  · refine Proc.Meets.rescue (E := fun _ => Reached w₀ events (now ++ dispatchable)) ?_ ?_
    · refine Proc.Meets.request ?_ ?_
      · rintro _ rfl results
        refine ⟨trivial, fun hc => ⟨h.dispatch rfl, ?_⟩⟩
        exact hc ⟨_, _⟩ (mem_append_right _ (mem_singleton.mpr rfl))
      · rintro _ rfl e
        exact ⟨trivial, h.dispatch rfl⟩
    · intro e v hv _
      exact ⟨hv, .map (fun _ => rfl) (fun _ => rfl) dispatchable⟩

/-- The intents a Channel is asked to write are answered: turned away, limited, or
sent after their `DISPATCHED` event. -/
theorem dispatchPending_answers (h : Reached w₀ events now w) :
    (dispatchPending fresh command recorded channelId pending).Meets .free
      (fun results v => Conforming v → ∃ allowed : List WorkspaceWriteIntent,
        allowed.Sublist pending ∧ Answers pending results ∧
        Reached w₀ (events ++ allowed.map (dispatchedEvent recorded)) (now ++ allowed) v)
      (fun _ _ => True) w := by
  refine (acquireAll_stable reached_stable channelId pending h).tryElse ?_ ?_
  · intro _ v hv
    refine ((fence_stable reached_stable command hv).mono (fun _ _ h => h)
      fun _ _ _ => trivial).bind fun _ v hv => ?_
    refine Proc.Meets.bind (Q := fun r u => r.1.Sublist pending ∧
      (∃ away, (away ++ r.1).Perm pending ∧ Answers away r.2) ∧
      Reached w₀ (events ++ r.1.map (dispatchedEvent recorded)) now u) ?_ ?_
    · refine Proc.Meets.transact ?_ fun _ _ _ => ⟨trivial, trivial⟩
      rintro _ rfl s ⟨allowed, rejected⟩ hok
      refine ⟨trivial, ?_⟩
      obtain ⟨away, hperm, haway⟩ :=
        filterAuthorized_answers command fresh.authorityEvent pending v.state
      obtain ⟨found, hfound, heq⟩ := bind_eq_ok.mp hok
      obtain ⟨-, hpair⟩ := Prod.mk.inj (ok.inj heq)
      obtain ⟨hallowed, hrejected⟩ := Prod.mk.inj hpair
      obtain ⟨hsub, heads, more, hmore, rfl⟩ := dispatchIntents_ok hok
      rw [hallowed] at hperm
      rw [hrejected] at haway
      refine ⟨hsub, ⟨away, hperm, haway⟩, ?_⟩
      rw [← dispatchedEvents_ok hmore]
      exact hv.record (l := .commit (.dispatch command channelId)) rfl more heads
    · rintro ⟨allowed, rejected⟩ u ⟨hsub, ⟨away, hperm, haway⟩, hu⟩
      refine Proc.Meets.bindWhile not_conforming_log (applyUpdates_answers hu) ?_
      rintro results v hc ⟨hv, hanswers⟩ _
      exact ⟨allowed, hsub, (haway.append hanswers).perm hperm, hv⟩
  · intro e v hv _
    refine ⟨[], nil_sublist _, .map (fun _ => rfl) (fun _ => rfl) pending, ?_⟩
    simpa using hv

/-- What the connector is asked to verify. -/
def verified (reconcileOnly : Bool) (recorded : Recorded) (intents : List WorkspaceWriteIntent) :
    List WorkspaceWriteIntent :=
  if reconcileOnly then intents else priorIntents recorded intents

theorem verifyChannel_answers (reconcileOnly : Bool) (intents : List WorkspaceWriteIntent)
    (h : Reached w₀ events now w) :
    (verifyChannel command reconcileOnly recorded channelId intents).Meets .free
      (fun results v => Conforming v →
        Reached w₀ events now v ∧ Answers (verified reconcileOnly recorded intents) results)
      (fun _ _ => True) w := by
  have hask : ∀ asked, (connectorVerify command channelId asked).Meets .free
      (fun results v => Conforming v → Reached w₀ events now v ∧ Answers asked results)
      (fun _ _ => True) w := by
    intro asked
    refine Proc.Meets.request ?_ fun _ _ _ => ⟨trivial, trivial⟩
    rintro _ rfl results
    refine ⟨trivial, fun hc => ⟨h.quiet rfl, ?_⟩⟩
    exact hc ⟨_, _⟩ (mem_append_right _ (mem_singleton.mpr rfl))
  unfold verifyChannel verified
  cases reconcileOnly with
  | true => exact hask intents
  | false =>
    simp only [Bool.false_eq_true, if_false]
    split
    · rename_i hempty
      rw [isEmpty_iff.mp hempty]
      exact fun _ => ⟨h, .nil⟩
    · exact hask _

theorem gatherEvents_routed (results : List WorkspaceWriteResult) (h : Reached w₀ events now w) :
    (gatherEvents command recorded results).Meets .free
      (fun found v => Reached w₀ events now v ∧ found = routedEvents recorded results)
      (fun _ _ => True) w := by
  induction results generalizing w with
  | nil => exact ⟨h, rfl⟩
  | cons result rest ih =>
    refine ((fence_stable reached_stable command h).mono (fun _ _ h => h)
      fun _ _ _ => trivial).bind fun _ v hv => ?_
    refine Proc.Meets.bind (Q := fun id u => Reached w₀ events now u ∧
      route recorded result.listingId = id) ?_ ?_
    · exact Proc.Meets.ofExcept (fun id hid => ⟨hv, attemptOf_ok hid⟩) fun _ _ => trivial
    rintro id u ⟨hu, rfl⟩
    refine (ih hu).bind fun found v hv => ?_
    obtain ⟨hreached, rfl⟩ := hv
    exact ⟨hreached, by rw [routedEvents, routedEvents, flatMap_cons]⟩

end Channel

/-- What one Channel's part of a call did. -/
structure ChannelLog where
  (intents allowed : List WorkspaceWriteIntent)
  results : List WorkspaceWriteResult

def ChannelLog.events (recorded : Recorded) (log : ChannelLog) : List ProviderWriteAttemptEvent :=
  log.allowed.map (dispatchedEvent recorded) ++ routedEvents recorded log.results

structure ChannelLog.Fair (recorded : Recorded) (log : ChannelLog) : Prop where
  allowed : log.allowed.Sublist (pendingIntents recorded log.intents)
  answers : Answers log.intents log.results

section

variable {fresh : Fresh} {command : WorkspaceWriteBatchCommand} {recorded : Recorded}
  {reconcileOnly : Bool} {w₀ w : World service}

theorem pending_prior_perm (recorded : Recorded) (intents : List WorkspaceWriteIntent) :
    (pendingIntents recorded intents ++ priorIntents recorded intents).Perm intents := by
  have hprior : priorIntents recorded intents = intents.filter
      fun i => !decide (i.listingId ∉ recorded.priorAttempts) := by
    simp [priorIntents, decide_not, Bool.not_not]
  rw [hprior, pendingIntents]
  exact filter_append_perm _ _

theorem runChannel_logged (h : Reached w₀ events now w) :
    (runChannel fresh command reconcileOnly recorded channelId intents).Meets .free
      (fun results v => Conforming v → ∃ log : ChannelLog, log.intents = intents ∧
        log.results = results ∧ log.Fair recorded ∧
        Reached w₀ (events ++ log.events recorded) (now ++ log.allowed) v) (fun _ _ => True) w := by
  refine Proc.Meets.bind (Q := fun _ => Reached w₀ events now)
    (Proc.Meets.ofExcept (fun _ _ => h) fun _ _ => trivial) fun _ v hv => ?_
  refine Proc.Meets.bindWhile not_conforming_log (Q := fun results u =>
    ∃ allowed : List WorkspaceWriteIntent, allowed.Sublist (pendingIntents recorded intents) ∧
      Answers (if reconcileOnly then [] else pendingIntents recorded intents) results ∧
      Reached w₀ (events ++ allowed.map (dispatchedEvent recorded)) (now ++ allowed) u) ?_ ?_
  · unfold dispatchChannel
    cases reconcileOnly with
    | true =>
      simp only [Bool.or_true, if_true]
      exact fun _ => ⟨[], nil_sublist _, .nil, by simpa using hv⟩
    | false =>
      simp only [Bool.or_false, Bool.false_eq_true, if_false]
      split
      · rename_i hempty
        rw [isEmpty_iff.mp hempty]
        exact fun _ => ⟨[], nil_sublist _, .nil, by simpa using hv⟩
      · exact dispatchPending_answers hv
  rintro dispatched v - ⟨allowed, hsub, hdispatched, hv⟩
  refine Proc.Meets.bindWhile not_conforming_log (verifyChannel_answers reconcileOnly intents hv) ?_
  rintro read v - ⟨hv, hread⟩
  refine ((ask_stable reached_stable (by simp) hv).mono (fun _ _ h => h)
    fun _ _ _ => trivial).bind fun _ v hv => ?_
  refine (gatherEvents_routed _ hv).bind ?_
  rintro found v ⟨hv, rfl⟩
  refine Proc.Meets.bind (Q := fun _ u => Reached w₀ (events ++ allowed.map (dispatchedEvent recorded)
    ++ routedEvents recorded (dispatched ++ read)) (now ++ allowed) u) ?_ fun _ u hu _ => ?_
  · refine Proc.Meets.transact ?_ fun _ _ _ => ⟨trivial, trivial⟩
    rintro _ rfl s _ hok
    cases hok
    exact ⟨trivial, hv.record (l := .commit (.recordResults command (dispatched ++ read))) rfl _
      v.state.authorityHeads⟩
  · refine ⟨⟨intents, allowed, dispatched ++ read⟩, rfl, rfl, ⟨hsub, ?_⟩, ?_⟩
    · refine (hdispatched.append hread).perm ?_
      cases reconcileOnly with
      | true => exact .refl _
      | false => exact pending_prior_perm recorded intents
    · rw [ChannelLog.events, ← append_assoc]
      exact hu

/-- A call so far, Channel by Channel. -/
structure Trail (recorded : Recorded) (w₀ : World service)
    (groups : List (List WorkspaceWriteIntent)) (results : List WorkspaceWriteResult)
    (logs : List ChannelLog) (w : World service) : Prop where
  intents : logs.map (·.intents) = groups
  results : logs.flatMap (·.results) = results
  fair : ∀ log ∈ logs, log.Fair recorded
  reached : Reached w₀ (logs.flatMap (·.events recorded)) (logs.flatMap (·.allowed)) w

theorem runChannels_trail (h : Trail recorded w₀ earlier sofar logs w) :
    (runChannels fresh command reconcileOnly recorded groups).Meets .free
      (fun results v => Conforming v → ∃ logs,
        Trail recorded w₀ (earlier ++ groups.map Prod.snd) (sofar ++ results) logs v)
      (fun _ _ => True) w := by
  induction groups generalizing w earlier sofar logs with
  | nil => exact fun _ => ⟨logs, by simpa using h⟩
  | cons g rest ih =>
    refine Proc.Meets.bindWhile not_conforming_log (runChannel_logged h.reached) ?_
    rintro results v - ⟨log, hintents, hresults, hfair, hv⟩
    have hnext : Trail recorded w₀ (earlier ++ [g.2]) (sofar ++ results) (logs ++ [log]) v := by
      refine ⟨by simp [h.intents, hintents], by simp [h.results, hresults], fun l hl => ?_, ?_⟩
      · rcases mem_append.mp hl with hl | hl
        · exact h.fair l hl
        · rwa [mem_singleton.mp hl]
      · simpa using hv
    refine Proc.Meets.bindWhile not_conforming_log (ih hnext) ?_
    rintro more u - ⟨all, hall⟩ _
    refine ⟨all, ?_⟩
    simpa only [map_cons, append_assoc, singleton_append] using hall

end

end FlowHub.WritePipeline
