import FlowHub.WritePipeline.ChannelTrail

namespace FlowHub.WritePipeline

open Python Txn List

/-- An event that says how a write ended, or that the provider took it. -/
def isOutcome (e : ProviderWriteAttemptEvent) : Bool :=
  decide (e.outcome ≠ .dispatchIntentRecorded) && decide (e.outcome ≠ .dispatched)

def isDispatched (e : ProviderWriteAttemptEvent) : Bool := decide (e.outcome = .dispatched)

def newEvents (w v : World service) : List ProviderWriteAttemptEvent :=
  v.state.attemptEvents.drop w.state.attemptEvents.length

def newlySent (w v : World service) : List WorkspaceWriteIntent :=
  (sent v.past).drop (sent w.past).length

def Complete (workflow : String) (w v : World service) : Prop :=
  ∀ i ∈ newlySent w v, ∃ a, attemptFor v.state workflow i = some a ∧
    (v.state.eventsOf a.id).countP isDispatched = 1 ∧
    ∃ before d after, v.state.eventsOf a.id = before ++ d :: after ∧ d.outcome = .dispatched ∧
      ∃ o ∈ after, o.outcome.settled = true

/-- Each intent has its result, and the events of a result are on the attempt of its
intent: the pairs list all of them, in the order of the results. -/
structure Routed (workflow : String) (intents : List WorkspaceWriteIntent)
    (pairs : List (WorkspaceWriteIntent × WorkspaceWriteResult)) (w v : World service) : Prop where
  intents : (pairs.map Prod.fst).Perm intents
  listing : ∀ p ∈ pairs, p.2.listingId = p.1.listingId
  events : (newEvents w v).filter isOutcome =
    pairs.flatMap fun p => resultEvents (attemptId v.state workflow p.1) p.2

variable {e : ProviderWriteAttemptEvent}

theorem mem_resultEvents {id : Id} (h : e ∈ resultEvents id r) :
    e.attemptId = id ∧ (e.outcome = .providerAccepted ∨ e.outcome = r.outcome) := by
  unfold resultEvents at h
  rcases mem_append.mp h with h | h
  · split at h
    · rw [mem_singleton.mp h]
      exact ⟨rfl, .inl rfl⟩
    · simp at h
  · rw [mem_singleton.mp h]
    exact ⟨rfl, .inr rfl⟩

theorem resultEvents_settled (id : Id) (r : WorkspaceWriteResult) :
    ∃ e ∈ resultEvents id r, e.attemptId = id ∧ e.outcome = r.outcome :=
  ⟨_, mem_append_right _ (mem_singleton.mpr rfl), rfl, rfl⟩

theorem resultEvents_length (id other : Id) (r : WorkspaceWriteResult) :
    (resultEvents id r).length = (resultEvents other r).length := by
  unfold resultEvents
  split <;> rfl

/-- Where a result was recorded can be read off its events. -/
theorem flatMap_resultEvents_inj {α : Type} {f g : α → Id} {result : α → WorkspaceWriteResult}
    {l : List α} (h : l.flatMap (fun x => resultEvents (f x) (result x)) =
      l.flatMap (fun x => resultEvents (g x) (result x))) : ∀ x ∈ l, f x = g x := by
  induction l with
  | nil => simp
  | cons a rest ih =>
    rw [flatMap_cons, flatMap_cons] at h
    obtain ⟨hhead, htail⟩ := append_inj h (resultEvents_length _ _ _)
    intro x hx
    rcases mem_cons.mp hx with rfl | hx
    · obtain ⟨e, he, hid, -⟩ := resultEvents_settled (f x) (result x)
      rw [hhead] at he
      rw [← hid, (mem_resultEvents he).1]
    · exact ih htail x hx

theorem settled_isOutcome {o : WriteOutcome} (h : o.settled = true) :
    o ≠ .dispatchIntentRecorded ∧ o ≠ .dispatched := by
  cases o <;> simp_all [WriteOutcome.settled]

theorem mem_routedEvents
    (settled : ∀ r ∈ results, r.outcome.settled = true) (h : e ∈ routedEvents recorded results) :
    e.outcome ≠ .dispatchIntentRecorded ∧ e.outcome ≠ .dispatched := by
  obtain ⟨r, hr, he⟩ := mem_flatMap.mp h
  rcases (mem_resultEvents he).2 with ho | ho
  · simp [ho]
  · rw [ho]
    exact settled_isOutcome (settled r hr)

section

variable {recorded : Recorded} {logs : List ChannelLog}

/-- The outcome events of a call are those of its results. -/
theorem filter_isOutcome (fair : ∀ log ∈ logs, log.Fair recorded) :
    (logs.flatMap (·.events recorded)).filter isOutcome =
      routedEvents recorded (logs.flatMap (·.results)) := by
  induction logs with
  | nil => rfl
  | cons log rest ih =>
    have hlog := fair log (mem_cons_self ..)
    have hallowed : (log.allowed.map (dispatchedEvent recorded)).filter isOutcome = [] := by
      refine filter_eq_nil_iff.mpr fun e he => ?_
      obtain ⟨i, -, rfl⟩ := mem_map.mp he
      simp [isOutcome, dispatchedEvent]
    have hresults : (routedEvents recorded log.results).filter isOutcome =
        routedEvents recorded log.results := by
      refine filter_eq_self.mpr fun e he => ?_
      have ho := mem_routedEvents hlog.answers.settled he
      simp [isOutcome, ho.1, ho.2]
    rw [flatMap_cons, flatMap_cons, filter_append, ChannelLog.events,
      filter_append, hallowed, hresults, ih fun l hl => fair l (mem_cons_of_mem _ hl),
      nil_append, routedEvents, routedEvents, routedEvents, flatMap_append]

/-- Its dispatch events are those of what it sent. -/
theorem filter_isDispatched (fair : ∀ log ∈ logs, log.Fair recorded) :
    (logs.flatMap (·.events recorded)).filter isDispatched =
      (logs.flatMap (·.allowed)).map (dispatchedEvent recorded) := by
  induction logs with
  | nil => rfl
  | cons log rest ih =>
    have hlog := fair log (mem_cons_self ..)
    have hallowed : (log.allowed.map (dispatchedEvent recorded)).filter isDispatched =
        log.allowed.map (dispatchedEvent recorded) := by
      refine filter_eq_self.mpr fun e he => ?_
      obtain ⟨i, -, rfl⟩ := mem_map.mp he
      rfl
    have hresults : (routedEvents recorded log.results).filter isDispatched = [] := by
      refine filter_eq_nil_iff.mpr fun e he => ?_
      have ho := mem_routedEvents hlog.answers.settled he
      simp [isDispatched, ho.2]
    rw [flatMap_cons, flatMap_cons, filter_append, ChannelLog.events,
      filter_append, hallowed, hresults, ih fun l hl => fair l (mem_cons_of_mem _ hl),
      append_nil, map_append]

theorem allowed_sublist (fair : ∀ log ∈ logs, log.Fair recorded) : (logs.flatMap (·.allowed)).Sublist
      (pendingIntents recorded (logs.flatMap (·.intents))) := by
  induction logs with
  | nil => exact .slnil
  | cons log rest ih =>
    have hlog := fair log (mem_cons_self ..)
    have hrest := ih fun l hl => fair l (mem_cons_of_mem _ hl)
    rw [flatMap_cons, flatMap_cons, pendingIntents, filter_append]
    exact hlog.allowed.append hrest

end

/-- A call that ran from `w` to `v`: its first transaction, and its Channels. -/
structure Ran (workflow : String) (intents : List WorkspaceWriteIntent)
    (results : List WorkspaceWriteResult) (recorded : Recorded) (logs : List ChannelLog)
    (w v : World service) : Prop where
  registered : Registered workflow intents w.state v.state {} recorded
  fair : ∀ log ∈ logs, log.Fair recorded
  intents : (logs.flatMap (·.intents)).Perm intents
  results : logs.flatMap (·.results) = results
  events : ∃ added, v.state.attemptEvents =
    w.state.attemptEvents ++ added ++ logs.flatMap (·.events recorded) ∧
    ∀ e ∈ added, e.outcome = .dispatchIntentRecorded
  sent : sent v.past = sent w.past ++ logs.flatMap (·.allowed)

section

variable {workflow : String} {intents : List WorkspaceWriteIntent}
  {results : List WorkspaceWriteResult} {recorded : Recorded} {logs : List ChannelLog}
  {w v : World service}

theorem Ran.newEvents (h : Ran workflow intents results recorded logs w v) :
    (newEvents w v).filter isOutcome = routedEvents recorded results := by
  obtain ⟨added, hevents, hadded⟩ := h.events
  have hskip : added.filter isOutcome = [] := by
    refine filter_eq_nil_iff.mpr fun e he => ?_
    simp [isOutcome, hadded e he]
  rw [WritePipeline.newEvents, hevents, append_assoc, drop_left, filter_append,
    hskip, nil_append, filter_isOutcome h.fair, h.results]

theorem Ran.newlySent (h : Ran workflow intents results recorded logs w v) :
    newlySent w v = logs.flatMap (·.allowed) := by
  rw [WritePipeline.newlySent, h.sent, drop_left]

/-- With one item to a Listing, every result's events are on its own attempt. -/
theorem Ran.routed (h : Ran workflow intents results recorded logs w v) (one : OneItemPerListing intents) :
    ∃ pairs, pairs.map Prod.snd = results ∧ Routed workflow intents pairs w v := by
  have hpaired := Paired.flatMap fun log hl => (h.fair log hl).answers.each
  rw [h.results] at hpaired
  obtain ⟨pairs, hperm, hsnd, hlisting⟩ := hpaired.perm h.intents
  refine ⟨pairs, hsnd, hperm, hlisting, ?_⟩
  rw [h.newEvents, ← hsnd, routedEvents, flatMap_map]
  refine flatMap_congr fun p hp => ?_
  have hi : p.1 ∈ intents := hperm.mem_iff.mp (mem_map_of_mem hp)
  rw [hlisting p hp, h.registered.route_own one hi]

/-- Two items of one Listing cannot both have their own events. -/
theorem Ran.one_item (h : Ran workflow intents results recorded logs w v)
    (keyed : Keyed w.state) {pairs : List (WorkspaceWriteIntent × WorkspaceWriteResult)}
    (hsnd : pairs.map Prod.snd = results) (routed : Routed workflow intents pairs w v) :
    OneItemPerListing intents := by
  have hevents := routed.events
  rw [h.newEvents, ← hsnd, routedEvents, flatMap_map] at hevents
  have hroute := flatMap_resultEvents_inj hevents
  have hown : ∀ i ∈ intents, route recorded i.listingId = attemptId v.state workflow i := by
    intro i hi
    obtain ⟨p, hp, rfl⟩ := mem_map.mp (routed.intents.mem_iff.mpr hi)
    rw [← routed.listing p hp]
    exact hroute p hp
  intro x hx y hy hxy
  obtain ⟨a, ha⟩ := h.registered.own x hx
  obtain ⟨b, hb⟩ := h.registered.own y hy
  have hid : a.id = b.id := by
    rw [← attemptId_of_some ha, ← attemptId_of_some hb, ← hown x hx, ← hown y hy, hxy]
  have hkeys := h.registered.keys keyed.attempts
  obtain rfl : a = b :=
    inj_on_of_nodup_map hkeys (attemptFor_some ha).1 (attemptFor_some hb).1 hid
  exact attemptFor_same ha hb

theorem Ran.allowed_nodup (h : Ran workflow intents results recorded logs w v) :
    ((logs.flatMap (·.allowed)).map (attemptId v.state workflow)).Nodup := by
  have hperm := (h.intents.filter fun i => decide (i.listingId ∉ recorded.priorAttempts)).map
    (attemptId v.state workflow)
  exact (hperm.nodup_iff.mpr h.registered.apart).sublist ((allowed_sublist h.fair).map _)

variable {i : WorkspaceWriteIntent}

theorem Ran.allowed_pending (h : Ran workflow intents results recorded logs w v)
    (hi : i ∈ logs.flatMap (·.allowed)) :
    i ∈ pendingIntents recorded intents := by
  have hmem := (allowed_sublist h.fair).subset hi
  exact (h.intents.filter fun i => decide (i.listingId ∉ recorded.priorAttempts)).mem_iff.mp hmem

/-- With one item to a Listing, the dispatch events of a call are one for each attempt
it sent. -/
theorem Ran.dispatched_once (h : Ran workflow intents results recorded logs w v)
    (keyed : Keyed w.state) (one : OneItemPerListing intents) (hi : i ∈ logs.flatMap (·.allowed)) :
    (v.state.eventsOf (attemptId v.state workflow i)).countP isDispatched = 1 := by
  have hpending := h.allowed_pending hi
  have hnew := h.registered.new i hpending
  obtain ⟨added, hevents, hadded⟩ := h.events
  have hold : (w.state.attemptEvents.filter isDispatched).filter
      (fun e => decide (e.attemptId = attemptId v.state workflow i)) = [] := by
    refine filter_eq_nil_iff.mpr fun e he heq => hnew ?_
    rw [← of_decide_eq_true heq]
    exact keyed.events e (mem_filter.mp he).1
  have hrecorded : added.filter isDispatched = [] := by
    refine filter_eq_nil_iff.mpr fun e he => ?_
    simp [isDispatched, hadded e he]
  have hroutes : ∀ j ∈ logs.flatMap (·.allowed),
      (dispatchedEvent recorded j).attemptId = attemptId v.state workflow j := fun j hj =>
    h.registered.route_own one (mem_filter.mp (h.allowed_pending hj)).1
  have hcount : ((logs.flatMap (·.allowed)).map (attemptId v.state workflow)).count
      (attemptId v.state workflow i) = 1 :=
    count_eq_one_of_mem h.allowed_nodup (mem_map_of_mem hi)
  have hswap : (v.state.eventsOf (attemptId v.state workflow i)).countP isDispatched =
      ((v.state.attemptEvents.filter isDispatched).filter
        (fun e => decide (e.attemptId = attemptId v.state workflow i))).length := by
    rw [Db.eventsOf, countP_eq_length_filter, filter_comm]
  have hdispatched : v.state.attemptEvents.filter isDispatched = w.state.attemptEvents.filter isDispatched ++
        (logs.flatMap (·.allowed)).map (dispatchedEvent recorded) := by
    rw [hevents, filter_append, filter_append, hrecorded, append_nil, filter_isDispatched h.fair]
  rw [hswap, hdispatched, filter_append, hold, nil_append,
    ← countP_eq_length_filter, countP_map, ← hcount, count, countP_map]
  refine countP_congr fun j hj => ?_
  simp [Function.comp_apply, hroutes j hj, decide_eq_true_eq, beq_iff_eq]

/-- The outcome of a sent intent comes after its dispatch event, in the same Channel. -/
theorem Ran.dispatched_then_settled (h : Ran workflow intents results recorded logs w v)
    (one : OneItemPerListing intents) (hi : i ∈ logs.flatMap (·.allowed)) :
    ∃ before d after, v.state.eventsOf (attemptId v.state workflow i) = before ++ d :: after ∧
      d.outcome = .dispatched ∧ ∃ o ∈ after, o.outcome.settled = true := by
  have hin : i ∈ intents := (mem_filter.mp (h.allowed_pending hi)).1
  have hroute := h.registered.route_own one hin
  obtain ⟨added, hevents, -⟩ := h.events
  obtain ⟨log, hlog, hallowed⟩ := mem_flatMap.mp hi
  obtain ⟨logs₁, logs₂, rfl⟩ := append_of_mem hlog
  obtain ⟨allowed₁, allowed₂, hsplit⟩ := append_of_mem hallowed
  have hfair := h.fair log hlog
  have hmine : i ∈ log.intents :=
    (mem_filter.mp (hfair.allowed.subset hallowed)).1
  obtain ⟨r, hr, hlisting⟩ := hfair.answers.each.exists_answer hmine
  obtain ⟨o, ho, hoid, houtcome⟩ := resultEvents_settled (route recorded r.listingId) r
  let before := w.state.attemptEvents ++ added ++ logs₁.flatMap (·.events recorded) ++
    allowed₁.map (dispatchedEvent recorded)
  let after := allowed₂.map (dispatchedEvent recorded) ++ routedEvents recorded log.results ++
    logs₂.flatMap (·.events recorded)
  have hall : v.state.attemptEvents = before ++ dispatchedEvent recorded i :: after := by
    rw [hevents, flatMap_append, flatMap_cons, ChannelLog.events, hsplit]
    simp [before, after]
  let own := fun e : ProviderWriteAttemptEvent =>
    decide (e.attemptId = attemptId v.state workflow i)
  refine ⟨before.filter own, dispatchedEvent recorded i, after.filter own, ?_, rfl, o, ?_, ?_⟩
  · rw [Db.eventsOf, hall, filter_append, filter_cons_of_pos]
    exact decide_eq_true hroute
  · refine mem_filter.mpr ⟨?_, decide_eq_true ?_⟩
    · refine mem_append_left _ (mem_append_right _ ?_)
      exact mem_flatMap.mpr ⟨r, hr, ho⟩
    · rw [hoid, hlisting]
      exact hroute
  · rw [houtcome]
    exact hfair.answers.settled r hr

theorem Ran.complete (h : Ran workflow intents results recorded logs w v)
    (keyed : Keyed w.state) (one : OneItemPerListing intents) : Complete workflow w v := by
  intro i hi
  rw [h.newlySent] at hi
  obtain ⟨a, ha⟩ := h.registered.own i (mem_filter.mp (h.allowed_pending hi)).1
  refine ⟨a, ha, ?_⟩
  have hid := attemptId_of_some ha
  have honce := h.dispatched_once keyed one hi
  have hthen := h.dispatched_then_settled one hi
  rw [hid] at honce hthen
  exact ⟨honce, hthen⟩

end

end FlowHub.WritePipeline
