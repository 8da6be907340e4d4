import FlowHub.PricingAuthority.Transitions
import Mathlib.Data.List.Infix
import Mathlib.Data.List.Perm.Basic

namespace FlowHub.PricingAuthority

open List

/-- The events a Channel can have had, with the head they leave it. -/
inductive History (channelId : Id) : List AuthorityEvent → ChannelPricingAuthorityHead → Prop where
  | seed (session : Nat) (eventId : Id) :
      History channelId [Seed.event ⟨session, channelId, eventId⟩] (seedHead channelId eventId)
  | next {events : List AuthorityEvent} (p : PendingTransition) (eventId : Id) :
      History channelId events p.head → p.channelId = channelId →
      p.expectedHeadVersion = p.head.headVersion →
      p.newAuthority ∈ allowedTransitions p.head.currentAuthority →
      History channelId (events ++ [p.event eventId]) (p.advance eventId p.head)

namespace History

variable {channelId : Id} {events : List AuthorityEvent} {head : ChannelPricingAuthorityHead}

/-- A head is where its Channel's events end. -/
theorem head_eq (h : History channelId events head) : head.channelId = channelId ∧
      (∃ last, events.getLast? = some last ∧ last.id = head.effectiveEventId ∧
        last.newAuthority = head.currentAuthority) ∧
      head.headVersion + 1 = events.length := by
  induction h with
  | seed session eventId => exact ⟨rfl, ⟨_, rfl, rfl, rfl⟩, rfl⟩
  | next p eventId _ _ hversion _ ih =>
    obtain ⟨hchannel, -, hlength⟩ := ih
    refine ⟨hchannel, ⟨p.event eventId, by simp, rfl, rfl⟩, ?_⟩
    rw [length_append, ← hlength, ← hversion]
    rfl

theorem head_unique {other : ChannelPricingAuthorityHead} (h : History channelId events head)
    (hother : History channelId events other) : head = other := by
  obtain ⟨hchannel, ⟨last, hlast, hid, hauthority⟩, hversion⟩ := h.head_eq
  obtain ⟨hchannel', ⟨last', hlast', hid', hauthority'⟩, hversion'⟩ := hother.head_eq
  have hsame : last = last' := Option.some.inj (hlast.symm.trans hlast')
  subst hsame
  obtain ⟨c, a, e, v⟩ := head
  obtain ⟨c', a', e', v'⟩ := other
  simp only at hchannel hid hauthority hversion hchannel' hid' hauthority' hversion'
  have hv : v = v' := by omega
  rw [hchannel, hchannel', ← hid, ← hid', ← hauthority, ← hauthority', hv]

theorem ne_nil (h : History channelId events head) : events ≠ [] := by
  intro hnil
  have hlength := h.head_eq.2.2
  simp [hnil] at hlength

/-- Only the first event is no transition. -/
theorem transitions_length (h : History channelId events head) :
    (events.filter fun event => event.previousAuthority.isSome).length = head.headVersion := by
  induction h with
  | seed => rfl
  | next p eventId _ _ hversion _ ih =>
    rw [filter_append, length_append, ih, ← hversion]
    rfl

end History

/-- A linear, legal history: the seed first, then transitions, each behind the one before. -/
structure Chain (events : List AuthorityEvent) (head : ChannelPricingAuthorityHead) : Prop where
  first : ∃ event, events.head? = some event ∧ event.previousAuthority = none ∧
    event.newAuthority = .legacyFormulaEngine ∧ event.predecessorEventId = none
  next : ∀ before event following after, events = before ++ event :: following :: after →
    following.predecessorEventId = some event.id ∧ following.expectedHeadVersion = before.length ∧
      following.previousAuthority = some event.newAuthority ∧
      following.newAuthority ∈ allowedTransitions event.newAuthority
  last : ∃ event, events.getLast? = some event ∧ event.id = head.effectiveEventId ∧
    event.newAuthority = head.currentAuthority
  version : head.headVersion + 1 = events.length

theorem History.chain {channelId : Id} {events : List AuthorityEvent}
    {head : ChannelPricingAuthorityHead} (h : History channelId events head) :
    Chain events head := by
  induction h with
  | seed session eventId =>
    refine ⟨⟨_, rfl, rfl, rfl, rfl⟩, ?_, ⟨_, rfl, rfl, rfl⟩, rfl⟩
    intro before event following after heq
    have hlength := congrArg length heq
    simp only [length_cons, length_nil, length_append] at hlength
    omega
  | @next events p eventId hold hchannel hversion hallowed ih =>
    have hnext := (hold.next p eventId hchannel hversion hallowed).head_eq
    refine ⟨?_, ?_, hnext.2.1, hnext.2.2⟩
    · obtain ⟨event, hfirst, hrest⟩ := ih.first
      exact ⟨event, by simp [head?_append, hfirst], hrest⟩
    intro before event following after heq
    rcases eq_nil_or_concat after with rfl | ⟨init, last, rfl⟩
    · -- the new event behind the last one of the old chain
      have hsplit : events ++ [p.event eventId] = (before ++ [event]) ++ [following] := by
        simp [heq]
      obtain ⟨hevents, hlast⟩ := append_inj' hsplit rfl
      cases hlast
      obtain ⟨last, hlast, hid, hauthority⟩ := ih.last
      rw [hevents, getLast?_concat, Option.some.injEq] at hlast
      subst hlast
      have hlength := ih.version
      rw [hevents, length_append] at hlength
      refine ⟨congrArg some hid.symm, ?_, congrArg some hauthority.symm, hauthority ▸ hallowed⟩
      simp only [PendingTransition.event, hversion]
      simpa using hlength
    · have hsplit : events ++ [p.event eventId] =
          (before ++ event :: following :: init) ++ [last] := by simp [heq]
      exact ih.next before event following init (append_inj' hsplit rfl).1

/-- The locked state cannot be skipped. -/
theorem Chain.locked {events : List AuthorityEvent} {head : ChannelPricingAuthorityHead}
    (h : Chain events head) {before after : List AuthorityEvent} {event following : AuthorityEvent}
    (heq : events = before ++ event :: following :: after)
    (hlegacy : event.newAuthority = .legacyFormulaEngine) :
    following.newAuthority = .migrationLocked := by
  have hallowed := (h.next before event following after heq).2.2.2
  rw [hlegacy] at hallowed
  simpa [allowedTransitions] using hallowed

/-- What holds of the tables whatever the sessions do. -/
structure Sound (w : World) : Prop where
  ids : (w.events.map AuthorityEvent.id ++ w.seeds.map Seed.eventId).Nodup
  seeds : (w.seeds.map Seed.channelId).Nodup
  headless : ∀ seed ∈ w.seeds, w.head seed.channelId = none
  history : ∀ channelId head, w.head channelId = some head → History channelId (w.eventsOf channelId) head
  fresh : ∀ channelId, w.head channelId = none → w.eventsOf channelId = []

/-- A pending call has read a head the Channel had, or the session's own seed. -/
def PendingTransition.Read (p : PendingTransition) (w : World) : Prop :=
  p.head.headVersion = p.expectedHeadVersion ∧ p.newAuthority ∈ allowedTransitions p.head.currentAuthority ∧
    ∃ events, events <+: w.visible p.session p.channelId ∧ History p.channelId events p.head

structure Coherent (w : World) : Prop extends Sound w where
  calls : ∀ p ∈ w.calls, p.Read w

namespace World

variable {w : World}

theorem mem_seedsOf : seed ∈ w.seedsOf session ↔ seed ∈ w.seeds ∧ seed.session = session := by
  simp [seedsOf]

theorem seeds_filter_nil (hw : Sound w) (h : w.head channelId ≠ none) :
    (w.seedsOf session).filter (fun seed => decide (seed.channelId = channelId)) = [] := by
  rw [filter_eq_nil_iff]
  intro seed hseed hchannel
  have hnone := hw.headless seed (mem_seedsOf.mp hseed).1
  rw [of_decide_eq_true hchannel] at hnone
  exact h hnone

/-- A Channel has one seed at most. -/
theorem seeds_filter_of_mem (hw : Sound w) (h : seed ∈ w.seeds) :
    (w.seedsOf seed.session).filter (fun other => decide (other.channelId = seed.channelId)) = [seed] := by
  have hall : w.seeds.filter (fun other => decide (other.channelId = seed.channelId)) = [seed] :=
    Table.filter_of_mem hw.seeds h
  rw [seedsOf, filter_comm, hall]
  simp

theorem visible_of_seed (hw : Sound w) (h : seed ∈ w.seeds) :
    w.visible seed.session seed.channelId = [seed.event] := by
  rw [visible, hw.fresh _ (hw.headless seed h), seeds_filter_of_mem hw h]
  rfl

/-- A head that a session sees is where the history ends that it sees. -/
theorem sees_history {channelId : Id}
    {head : ChannelPricingAuthorityHead} (hw : Sound w) (h : w.sees session channelId = some head) :
    History channelId (w.visible session channelId) head := by
  unfold sees at h
  split at h
  · rename_i seed hseed
    cases h
    obtain ⟨hmem, hsession⟩ := mem_seedsOf.mp (mem_of_find?_eq_some hseed)
    have hchannel : seed.channelId = channelId := by simpa using find?_some hseed
    subst hsession hchannel
    rw [visible_of_seed hw hmem]
    exact .seed seed.session seed.eventId
  · rw [visible, seeds_filter_nil hw (by simp [h]), map_nil, append_nil]
    exact hw.history channelId head h

/-- A session that sees no head sees no events. -/
theorem sees_none {channelId : Id} (hw : Sound w) (h : w.sees session channelId = none) :
    w.head channelId = none ∧ w.visible session channelId = [] := by
  unfold sees at h
  split at h
  · cases h
  rename_i hseed
  refine ⟨h, ?_⟩
  have hfilter : (w.seedsOf session).filter (fun seed => decide (seed.channelId = channelId)) = [] := by
    rw [filter_eq_nil_iff]
    intro seed hmem
    simpa using find?_eq_none.mp hseed seed hmem
  rw [visible, hw.fresh channelId h, hfilter]
  rfl

variable {eventId : Id} {w' : World} {newAuthority : PricingAuthority} {expectedHeadVersion : Nat}

/-- Calls still have what they read while the history they see only grows. -/
theorem calls_mono (hw : ∀ p ∈ w.calls, p.Read w) (h : ∀ p ∈ w'.calls, p ∈ w.calls ∧
      w.visible p.session p.channelId <+: w'.visible p.session p.channelId) :
    ∀ p ∈ w'.calls, p.Read w' := by
  intro p hp
  obtain ⟨hold, hgrows⟩ := h p hp
  obtain ⟨hversion, hallowed, events, hprefix, hhistory⟩ := hw p hold
  exact ⟨hversion, hallowed, events, hprefix.trans hgrows, hhistory⟩

theorem ensureChannelHead_cases {head : ChannelPricingAuthorityHead}
    (h : w.ensureChannelHead session channelId eventId = .ok (w', head)) :
    (w' = w ∧ w.sees session channelId = some head) ∨
      (w.sees session channelId = none ∧ head = seedHead channelId eventId ∧
        w' = { w with seeds := w.seeds ++ [⟨session, channelId, eventId⟩] }) := by
  unfold ensureChannelHead at h
  split at h
  · cases h
    exact .inl ⟨rfl, ‹_›⟩
  · split at h
    · cases h
      exact .inr ⟨‹_›, rfl, rfl⟩
    · cases h

theorem seeded_sound (hw : Sound w)
    (can : w.CanRead session channelId eventId) (hnone : w.sees session channelId = none) :
    Sound { w with seeds := w.seeds ++ [⟨session, channelId, eventId⟩] } := by
  obtain ⟨hhead, hvisible⟩ := sees_none hw hnone
  constructor
  · have hperm : (w.events.map AuthorityEvent.id ++ w.seeds.map Seed.eventId ++ [eventId]).Nodup :=
      nodup_append.mpr ⟨hw.ids, nodup_singleton _, by
        intro id hid other hother
        rw [mem_singleton.mp hother]
        rintro rfl
        exact can.unused hid⟩
    simpa using hperm
  · have habsent : channelId ∉ w.seeds.map Seed.channelId := by
      intro hmem
      obtain ⟨seed, hseed, hchannel⟩ := mem_map.mp hmem
      have hsession := can.alone seed hseed hchannel
      have hown := visible_of_seed hw hseed
      rw [hchannel, hsession, hvisible] at hown
      cases hown
    rw [map_append, nodup_append]
    refine ⟨hw.seeds, nodup_singleton _, ?_⟩
    intro id hid other hother
    simp only [map_cons, map_nil, mem_singleton] at hother
    rintro rfl
    exact habsent (hother ▸ hid)
  · intro seed hseed
    rcases mem_append.mp hseed with hold | hnew
    · exact hw.headless seed hold
    · rw [mem_singleton.mp hnew]
      exact hhead
  · exact hw.history
  · exact hw.fresh

theorem ensureChannelHead_coherent {head : ChannelPricingAuthorityHead} (hw : Coherent w)
    (can : w.CanRead session channelId eventId)
    (h : w.ensureChannelHead session channelId eventId = .ok (w', head)) :
    Coherent w' ∧ History channelId (w'.visible session channelId) head ∧
      w'.events = w.events ∧ w'.heads = w.heads := by
  rcases ensureChannelHead_cases h with ⟨rfl, hsees⟩ | ⟨hnone, rfl, rfl⟩
  · exact ⟨hw, sees_history hw.toSound hsees, rfl, rfl⟩
  have hsound := seeded_sound hw.toSound can hnone
  refine ⟨⟨hsound, calls_mono hw.calls ?_⟩, ?_, rfl, rfl⟩
  · intro p hp
    refine ⟨hp, ?_⟩
    simp only [visible, seedsOf, eventsOf, filter_append, map_append]
    rw [← append_assoc]
    exact prefix_append _ _
  · have hmem : (⟨session, channelId, eventId⟩ : Seed) ∈
        w.seeds ++ [⟨session, channelId, eventId⟩] := mem_append_right _ (by simp)
    rw [visible_of_seed hsound hmem]
    exact .seed session eventId

theorem startTransition_coherent (hw : Coherent w) (can : w.CanRead session channelId eventId) :
    Coherent (w.startTransition session channelId newAuthority expectedHeadVersion eventId).1 := by
  unfold startTransition
  split
  · exact hw
  rename_i w' head hok
  obtain ⟨hw', hhistory, -⟩ := ensureChannelHead_coherent hw can hok
  by_cases hversion : head.headVersion = expectedHeadVersion
  · by_cases hallowed : newAuthority ∈ allowedTransitions head.currentAuthority
    · simp only [hversion, ne_eq, not_true_eq_false, ite_false, hallowed]
      refine ⟨⟨hw'.ids, hw'.seeds, hw'.headless, hw'.history, hw'.fresh⟩, ?_⟩
      intro p hp
      rcases mem_append.mp hp with hold | hnew
      · exact hw'.calls p hold
      · rw [mem_singleton.mp hnew]
        exact ⟨hversion, hallowed, _, prefix_rfl, hhistory⟩
    · simp only [hversion, ne_eq, not_true_eq_false, ite_false, hallowed, not_false_eq_true, ite_true]
      exact hw'
  · simp only [ne_eq, hversion, not_false_eq_true, ite_true]
    exact hw'

theorem startTransition_events (hw : Coherent w) (can : w.CanRead session channelId eventId) :
    (w.startTransition session channelId newAuthority expectedHeadVersion eventId).1.events = w.events := by
  unfold startTransition
  split
  · rfl
  rename_i w' head hok
  have hsame := (ensureChannelHead_coherent hw can hok).2.2.1
  split
  · exact hsame
  · split
    · exact hsame
    · exact hsame

theorem eventsOf_commit (w : World) (session : Nat) (channelId : Id) :
    (w.commit session).eventsOf channelId = w.visible session channelId := by
  simp only [eventsOf, commit, visible, filter_append, filter_map]
  rfl

theorem seedsOf_commit (w : World) (session other : Nat) :
    (w.commit session).seedsOf other = if other = session then [] else w.seedsOf other := by
  by_cases h : other = session
  · subst h
    simp [seedsOf, commit, filter_filter]
  rw [if_neg h]
  simp only [seedsOf, commit, filter_filter]
  refine filter_congr fun seed _ => ?_
  by_cases hs : seed.session = other
  · simp [hs, h]
  · simp [hs]

/-- A commit makes the heads that the session has seen the heads that all see. -/
theorem head_commit (hw : Sound w) : (w.commit session).head channelId = w.sees session channelId := by
  have hmap : Table.get ChannelPricingAuthorityHead.channelId ((w.seedsOf session).map Seed.head)
      channelId =
      ((w.seedsOf session).find? fun seed => decide (seed.channelId = channelId)).map Seed.head := by
    simp only [Table.get, find?_map]
    rfl
  unfold sees
  split
  · rename_i seed hseed
    obtain ⟨hmem, -⟩ := mem_seedsOf.mp (mem_of_find?_eq_some hseed)
    have hchannel : seed.channelId = channelId := by simpa using find?_some hseed
    have hnone := hw.headless seed hmem
    rw [hchannel] at hnone
    rw [head, commit, Table.get_append_of_none hnone, hmap, hseed]
    rfl
  · rename_i hseed
    cases hhead : w.head channelId with
    | some h => exact Table.get_append_of_some hhead
    | none => rw [head, commit, Table.get_append_of_none hhead, hmap, hseed]; rfl

theorem commit_ids_perm (w : World) (session : Nat) :
    ((w.commit session).events.map AuthorityEvent.id ++ (w.commit session).seeds.map Seed.eventId).Perm
      (w.events.map AuthorityEvent.id ++ w.seeds.map Seed.eventId) := by
  have hseeds : (w.seedsOf session ++ (w.commit session).seeds).Perm w.seeds := by
    have hsplit := filter_append_perm (fun seed : Seed => decide (seed.session = session))
      w.seeds
    simpa [seedsOf, commit] using hsplit
  have hids := (hseeds.map Seed.eventId).append_left (w.events.map AuthorityEvent.id)
  simpa [commit, map_append, append_assoc, Function.comp_def, Seed.event] using hids

theorem commit_sound (session : Nat) (hw : Sound w) : Sound (w.commit session) := by
  constructor
  · exact (commit_ids_perm w session).nodup_iff.mpr hw.ids
  · exact hw.seeds.sublist (filter_sublist.map _)
  · intro seed hseed
    obtain ⟨hmem, hother⟩ := mem_filter.mp hseed
    rw [head_commit hw]
    cases hsees : w.sees session seed.channelId with
    | none => rfl
    | some head =>
      unfold sees at hsees
      split at hsees
      · rename_i own hown
        obtain ⟨howned, hsession⟩ := mem_seedsOf.mp (mem_of_find?_eq_some hown)
        have hchannel : own.channelId = seed.channelId := by simpa using find?_some hown
        have hsame := inj_on_of_nodup_map hw.seeds howned hmem hchannel
        subst hsame
        exact absurd hsession (of_decide_eq_true hother)
      · rw [hw.headless seed hmem] at hsees
        cases hsees
  · intro channelId head hhead
    rw [head_commit hw] at hhead
    rw [eventsOf_commit]
    exact sees_history hw hhead
  · intro channelId hnone
    rw [head_commit hw] at hnone
    rw [eventsOf_commit]
    exact (sees_none hw hnone).2

theorem commit_visible (hw : Sound w) (session other : Nat) (channelId : Id) :
    w.visible other channelId <+: (w.commit session).visible other channelId := by
  unfold visible
  rw [eventsOf_commit, seedsOf_commit]
  by_cases h : other = session
  · subst h
    simp [visible]
  rw [if_neg h]
  by_cases hown : (w.seedsOf other).filter (fun seed => decide (seed.channelId = channelId)) = []
  · rw [hown, map_nil, append_nil, append_nil]
    exact prefix_append _ _
  -- the seed of the other session is the only one of the Channel
  obtain ⟨seed, hseed⟩ := exists_mem_of_ne_nil _ hown
  obtain ⟨hmem, hchannel⟩ := mem_filter.mp hseed
  obtain ⟨hin, hsession⟩ := mem_seedsOf.mp hmem
  have hnil : (w.seedsOf session).filter (fun seed => decide (seed.channelId = channelId)) = [] := by
    rw [filter_eq_nil_iff]
    intro seed' hseed' hchannel'
    obtain ⟨hin', hsession'⟩ := mem_seedsOf.mp hseed'
    have hsame := inj_on_of_nodup_map hw.seeds hin hin'
      ((of_decide_eq_true hchannel).trans (of_decide_eq_true hchannel').symm)
    exact h (hsession.symm.trans ((congrArg Seed.session hsame).trans hsession'))
  rw [visible, hnil, map_nil, append_nil]

theorem commit_coherent (session : Nat) (hw : Coherent w) : Coherent (w.commit session) :=
  ⟨commit_sound session hw.toSound, calls_mono hw.calls fun p hp =>
    ⟨hp, commit_visible hw.toSound session p.session p.channelId⟩⟩

theorem rollback_coherent (hw : Coherent w) (idle : w.Idle session) : Coherent (w.rollback session) := by
  refine ⟨⟨?_, ?_, ?_, hw.history, hw.fresh⟩, calls_mono hw.calls ?_⟩
  · exact hw.ids.sublist ((filter_sublist.map _).append_left _)
  · exact hw.seeds.sublist (filter_sublist.map _)
  · intro seed hseed
    exact hw.headless seed (mem_filter.mp hseed).1
  · intro p hp
    refine ⟨hp, ?_⟩
    have hseeds : (w.rollback session).seedsOf p.session = w.seedsOf p.session := by
      simp only [seedsOf, rollback, filter_filter]
      refine filter_congr fun seed _ => ?_
      by_cases hs : seed.session = p.session
      · simp [hs, idle p hp]
      · simp [hs]
    rw [visible, visible, hseeds]
    exact prefix_rfl

theorem withoutCalls_coherent (session : Nat) (hw : Coherent w) : Coherent (w.withoutCalls session) :=
  ⟨⟨hw.ids, hw.seeds, hw.headless, hw.history, hw.fresh⟩, calls_mono hw.calls fun _ hp =>
    ⟨(mem_filter.mp hp).1, prefix_rfl⟩⟩

theorem head_record (p : PendingTransition) (eventId : Id) (w : World) (channelId : Id) :
    (w.record p eventId).head channelId =
      if channelId = p.channelId then (w.head channelId).map (p.advance eventId)
      else w.head channelId := by
  have hset : (w.record p eventId).head channelId = if channelId = p.channelId then
      (w.head p.channelId).map (p.advance eventId) else w.head channelId :=
    Table.get_set (by exact fun _ => rfl)
  rw [hset]
  by_cases h : channelId = p.channelId
  · rw [h]
  · simp [h, ite_false]

theorem eventsOf_record (p : PendingTransition) (eventId : Id) (w : World) (channelId : Id) :
    (w.record p eventId).eventsOf channelId =
      w.eventsOf channelId ++ if p.channelId = channelId then [p.event eventId] else [] := by
  by_cases h : p.channelId = channelId
  · simp [eventsOf, record, PendingTransition.event, h]
  · simp [eventsOf, record, PendingTransition.event, h]

/-- A transition recorded behind the head it has read keeps the history of its Channel. -/
theorem record_coherent (hw : Coherent w)
    (hhead : w.head p.channelId = some p.head) (hunused : w.Unused eventId)
    (hversion : p.head.headVersion = p.expectedHeadVersion)
    (hallowed : p.newAuthority ∈ allowedTransitions p.head.currentAuthority) :
    Coherent (w.record p eventId) := by
  refine ⟨⟨?_, hw.seeds, ?_, ?_, ?_⟩, calls_mono hw.calls ?_⟩
  · have hids : (w.events.map AuthorityEvent.id ++ [eventId] ++ w.seeds.map Seed.eventId).Perm
        (eventId :: (w.events.map AuthorityEvent.id ++ w.seeds.map Seed.eventId)) := by
      rw [append_assoc]
      exact perm_middle
    have hnodup := hids.nodup_iff.mpr (nodup_cons.mpr ⟨hunused, hw.ids⟩)
    simpa [record, PendingTransition.event] using hnodup
  · intro seed hseed
    have hnone := hw.headless seed hseed
    rw [head_record, hnone]
    simp
  · intro channelId head h
    rw [head_record] at h
    rw [eventsOf_record]
    by_cases hchannel : channelId = p.channelId
    · subst hchannel
      rw [if_pos rfl, hhead, Option.map_some, Option.some.injEq] at h
      rw [if_pos rfl, ← h]
      exact (hw.history _ _ hhead).next p eventId rfl hversion.symm hallowed
    · rw [if_neg hchannel] at h
      rw [if_neg (Ne.symm hchannel), append_nil]
      exact hw.history channelId head h
  · intro channelId h
    rw [head_record] at h
    rw [eventsOf_record]
    by_cases hchannel : channelId = p.channelId
    · subst hchannel
      simp [hhead] at h
    · rw [if_neg hchannel] at h
      rw [if_neg (Ne.symm hchannel), append_nil]
      exact hw.fresh channelId h
  · intro q hq
    refine ⟨hq, ?_⟩
    have hseeds : (w.record p eventId).seedsOf q.session = w.seedsOf q.session := rfl
    rw [visible, visible, eventsOf_record, hseeds]
    by_cases hchannel : p.channelId = q.channelId
    · have hne : w.head q.channelId ≠ none := by
        rw [← hchannel, hhead]
        exact Option.some_ne_none _
      rw [seeds_filter_nil hw.toSound hne, if_pos hchannel, map_nil, append_nil, append_nil]
      exact prefix_append _ _
    · rw [if_neg hchannel, append_nil]

/-- A call wins exactly when the session still sees the history its head came from. -/
theorem finishTransition_cases (eventId : Id) (hw : Coherent w) (hp : p ∈ w.calls) :
    ((w.visible p.session p.channelId).length = p.expectedHeadVersion + 1 ∧
        w.sees p.session p.channelId = some p.head ∧
        w.finishTransition p eventId =
          (((w.withoutCalls p.session).commit p.session).record p eventId, none)) ∨
      ((w.visible p.session p.channelId).length ≠ p.expectedHeadVersion + 1 ∧
        w.finishTransition p eventId = ((w.withoutCalls p.session).rollback p.session,
          some "pricing_authority_head_conflict")) := by
  obtain ⟨hversion, -, events, hprefix, hread⟩ := hw.calls p hp
  have hsame : (w.withoutCalls p.session).sees p.session p.channelId = w.sees p.session p.channelId := rfl
  have hlength := hread.head_eq.2.2
  unfold finishTransition
  cases hsees : w.sees p.session p.channelId with
  | none =>
    obtain ⟨-, hnil⟩ := sees_none hw.toSound hsees
    rw [hnil] at hprefix
    exact absurd (prefix_nil.mp hprefix) hread.ne_nil
  | some head =>
    have hhistory := sees_history hw.toSound hsees
    have hvisible := hhistory.head_eq.2.2
    by_cases heq : head.headVersion = p.expectedHeadVersion
    · left
      have hevents := hprefix.eq_of_length (by omega)
      subst hevents
      refine ⟨by omega, congrArg some (hhistory.head_unique hread), ?_⟩
      simp [hsame, hsees, heq]
    · right
      refine ⟨by omega, ?_⟩
      simp [hsame, hsees, heq]

theorem finishTransition_coherent (hw : Coherent w) (hp : p ∈ w.calls) (hunused : w.Unused eventId) :
    Coherent (w.finishTransition p eventId).1 := by
  have hfree := withoutCalls_coherent p.session hw
  rcases finishTransition_cases eventId hw hp with ⟨-, hsees, hwin⟩ | ⟨-, hlose⟩
  · obtain ⟨hversion, hallowed, -⟩ := hw.calls p hp
    rw [hwin]
    refine record_coherent (commit_coherent p.session hfree) ?_ ?_ hversion hallowed
    · rw [head_commit hfree.toSound]
      exact hsees
    · intro hmem
      exact hunused ((commit_ids_perm (w.withoutCalls p.session) p.session).mem_iff.mp hmem)
  · rw [hlose]
    exact rollback_coherent hfree fun _ hp => of_decide_eq_true (mem_filter.mp hp).2

theorem step_coherent (h : Step w w') (hw : Coherent w) : Coherent w' := by
  cases h with
  | channel => exact ⟨⟨hw.ids, hw.seeds, hw.headless, hw.history, hw.fresh⟩, hw.calls⟩
  | read reads => exact (ensureChannelHead_coherent hw reads.can reads.returned).1
  | start newAuthority expectedHeadVersion can => exact startTransition_coherent hw can
  | finish hp hunused => exact finishTransition_coherent hw hp hunused
  | commit idle => exact commit_coherent _ hw
  | rollback idle => exact rollback_coherent hw idle

theorem run_coherent {w : World} (h : Run w w') (hw : Coherent w) : Coherent w' := by
  induction h with
  | refl => exact hw
  | tail _ step ih => exact step_coherent step ih

theorem reachable_coherent (h : Reachable w) : Coherent w := by
  obtain ⟨channels, hrun⟩ := h
  refine run_coherent hrun ⟨⟨by simp, by simp, by simp, ?_, by simp [eventsOf]⟩, by simp⟩
  intro channelId head hhead
  simp [World.head, Table.get] at hhead

/-- The history of a Channel only grows. -/
theorem step_grows (h : Step w w') (hw : Coherent w) (channelId : Id) :
    w.eventsOf channelId <+: w'.eventsOf channelId := by
  cases h with
  | channel => exact prefix_rfl
  | read reads =>
    obtain ⟨-, -, hevents, -⟩ := ensureChannelHead_coherent hw reads.can reads.returned
    rw [eventsOf, eventsOf, hevents]
  | start newAuthority expectedHeadVersion can =>
    rw [eventsOf, eventsOf, startTransition_events hw can]
  | @finish p eventId hp hunused =>
    rcases finishTransition_cases eventId hw hp with ⟨-, -, hwin⟩ | ⟨-, hlose⟩
    · have hcommit : w.eventsOf channelId <+:
          ((w.withoutCalls p.session).commit p.session).eventsOf channelId := by
        rw [eventsOf_commit]
        exact prefix_append _ _
      rw [hwin, eventsOf_record]
      exact hcommit.trans (prefix_append _ _)
    · rw [hlose]
      exact prefix_rfl
  | @commit session idle =>
    rw [eventsOf_commit]
    exact prefix_append _ _
  | rollback idle => exact prefix_rfl

theorem run_grows (h : Run w w') (hw : Coherent w) (channelId : Id) :
    w.eventsOf channelId <+: w'.eventsOf channelId := by
  induction h with
  | refl => exact prefix_rfl
  | tail hrun step ih => exact ih.trans (step_grows step (run_coherent hrun hw) channelId)

/-- The version a session has read counts the transitions committed until then. -/
theorem sees_version {channelId : Id}
    {head : ChannelPricingAuthorityHead} (hw : Sound w) (h : w.sees session channelId = some head) :
    (w.transitions channelId).length = head.headVersion := by
  have hhistory := sees_history hw h
  have hcount := hhistory.transitions_length
  have hseeds : ∀ seeds : List Seed, (seeds.map Seed.event).filter
      (fun event => event.previousAuthority.isSome) = [] := by
    simp [filter_map, Seed.event, Function.comp_def]
  rw [visible, filter_append, hseeds, append_nil] at hcount
  exact hcount

theorem Reads.sees {w : World} {channelId : Id} {head : ChannelPricingAuthorityHead} (hw : Coherent w)
    (h : w.Reads session channelId eventId w' head) :
    Coherent w' ∧ (w'.transitions channelId).length = head.headVersion ∧
      w'.transitions channelId = w.transitions channelId := by
  obtain ⟨hw', hhistory, hevents, -⟩ := ensureChannelHead_coherent hw h.can h.returned
  have hsame : w'.transitions channelId = w.transitions channelId := by
    rw [transitions, transitions, eventsOf, eventsOf, hevents]
  refine ⟨hw', ?_, hsame⟩
  rcases ensureChannelHead_cases h.returned with ⟨rfl, hsees⟩ | ⟨hnone, rfl, -⟩
  · exact sees_version hw.toSound hsees
  · obtain ⟨hhead, -⟩ := sees_none hw.toSound hnone
    rw [hsame, transitions, hw.fresh channelId hhead]
    rfl

theorem run_transitions {w : World} (hrun : Run w w') (hw : Coherent w) {channelId : Id}
    (h : (w'.transitions channelId).length = (w.transitions channelId).length) :
    w'.transitions channelId = w.transitions channelId := by
  have hgrows := (run_grows hrun hw channelId).filter
    (fun event => event.previousAuthority.isSome)
  exact (hgrows.eq_of_length h.symm).symm

end World

open World

theorem assertWriteAuthorized_version {head : ChannelPricingAuthorityHead} {origin : PricingOrigin}
    {expectedEventId : Option Id} {expectedHeadVersion : Nat}
    (h : assertWriteAuthorized head origin expectedEventId (some expectedHeadVersion) = none) :
    expectedHeadVersion = head.headVersion := by
  unfold assertWriteAuthorized at h
  by_cases hevent : conflicts expectedEventId head.effectiveEventId
  · simp [hevent] at h
  · by_cases hversion : conflicts (some expectedHeadVersion) head.headVersion
    · simp [hevent, hversion] at h
    · simpa [conflicts] using hversion

/-- However the sessions interleave, the events of each Channel form one legal chain that its
head closes; a transition that another one has overtaken leaves nothing; and pinned evidence
is accepted only while no transition of its Channel has been committed since it was read. -/
theorem authority_history {w : World} (hw : Reachable w) :
    (∀ channelId, (w.head channelId = none → w.eventsOf channelId = []) ∧
      (∀ head, w.head channelId = some head → Chain (w.eventsOf channelId) head ∧
        ∀ before event following after, w.eventsOf channelId = before ++ event :: following :: after →
          event.newAuthority = .legacyFormulaEngine →
          following.newAuthority ≠ .pricingMatrix) ∧
      ((w.eventsOf channelId).map AuthorityEvent.id).Nodup) ∧
    (∀ p ∈ w.calls, ∀ eventId, (w.finishTransition p eventId).2 ≠ none ↔
        (w.transitions p.channelId).length ≠ p.head.headVersion) ∧
    (∀ p ∈ w.calls, ∀ eventId, (w.finishTransition p eventId).2 ≠ none →
      (w.finishTransition p eventId).1.events = w.events ∧
      (w.finishTransition p eventId).1.heads = w.heads) ∧
    (∀ session channelId eventId read head, w.Reads session channelId eventId read head →
      ∀ later, Run read later →
      ∀ session' eventId' read' head' origin, later.Reads session' channelId eventId' read' head' →
        assertWriteAuthorized head' origin (some head.effectiveEventId) (some head.headVersion) = none →
        read'.transitions channelId = w.transitions channelId) := by
  have hcoherent := reachable_coherent hw
  refine ⟨?_, ?_, ?_, ?_⟩
  · intro channelId
    refine ⟨hcoherent.fresh channelId, ?_, (nodup_append.mp hcoherent.ids).1.sublist (filter_sublist.map _)⟩
    intro head hhead
    have hchain := (hcoherent.history channelId head hhead).chain
    refine ⟨hchain, ?_⟩
    intro before event following after heq hlegacy
    simp [hchain.locked heq hlegacy]
  · intro p hp eventId
    obtain ⟨hversion, -⟩ := hcoherent.calls p hp
    have hcount : ∀ head, w.sees p.session p.channelId = some head →
        (w.visible p.session p.channelId).length = (w.transitions p.channelId).length + 1 := by
      intro head hsees
      rw [sees_version hcoherent.toSound hsees]
      exact (sees_history hcoherent.toSound hsees).head_eq.2.2.symm
    rcases finishTransition_cases eventId hcoherent hp with ⟨hlength, hsees, hwin⟩ | ⟨hlength, hlose⟩
    · have hsame := hcount p.head hsees
      rw [hwin, hversion]
      simp only [ne_eq, not_true_eq_false, false_iff, not_not]
      omega
    · rw [hlose, hversion]
      simp only [ne_eq, reduceCtorEq, not_false_eq_true, true_iff]
      cases hsees : w.sees p.session p.channelId with
      | some head =>
        have hsame := hcount head hsees
        omega
      | none =>
        obtain ⟨-, hnil⟩ := sees_none hcoherent.toSound hsees
        obtain ⟨-, -, events, hprefix, hread⟩ := hcoherent.calls p hp
        rw [hnil] at hprefix
        exact absurd (prefix_nil.mp hprefix) hread.ne_nil
  · intro p hp eventId hlost
    rcases finishTransition_cases eventId hcoherent hp with ⟨-, -, hwin⟩ | ⟨-, hlose⟩
    · rw [hwin] at hlost
      exact absurd rfl hlost
    · rw [hlose]
      exact ⟨rfl, rfl⟩
  · intro session channelId eventId read head hreads later hrun session' eventId' read' head'
      origin hreads' haccepted
    obtain ⟨hread, hcount, hsame⟩ := Reads.sees hcoherent hreads
    obtain ⟨-, hcount', hsame'⟩ := Reads.sees (run_coherent hrun hread) hreads'
    have hversion := assertWriteAuthorized_version haccepted
    have hlater : later.transitions channelId = read.transitions channelId := by
      apply run_transitions hrun hread
      rw [hcount, ← hsame', hcount', hversion]
    rw [hsame', hlater, hsame]

namespace Sample

def seeded : World where
  channels := ["snappshop"]
  seeds := [⟨0, "snappshop", "seed"⟩]

def started : World :=
  ((seeded.commit 0).startTransition 1 "snappshop" .migrationLocked 0 "unused").1

/-- Two sessions that want to lock the same Channel. -/
def raced : World := (started.startTransition 2 "snappshop" .migrationLocked 0 "unused").1

def locks (session : Nat) : PendingTransition :=
  ⟨session, "snappshop", seedHead "snappshop" "seed", .migrationLocked, 0⟩

/-- The first has won. -/
def won : World := (raced.finishTransition (locks 1) "locked").1

theorem seeded_reads :
    Reads { channels := ["snappshop"] } 0 "snappshop" "seed" seeded (seedHead "snappshop" "seed") :=
  ⟨⟨by decide, by decide, by decide⟩, rfl⟩

theorem won_reachable : Reachable won := by
  have hread : Step { channels := ["snappshop"] } seeded := .read seeded_reads
  have hcommit : Step seeded (seeded.commit 0) := .commit (by decide)
  have hfirst : Step (seeded.commit 0) started := .start _ _ ⟨by decide, by decide, by decide⟩
  have hsecond : Step started raced := .start _ _ ⟨by decide, by decide, by decide⟩
  have hwon : Step raced won := .finish (by decide) (by decide)
  have hseed : Run { channels := ["snappshop"] } (seeded.commit 0) :=
    (Relation.ReflTransGen.single hread).tail hcommit
  exact ⟨_, ((hseed.tail hfirst).tail hsecond).tail hwon⟩

end Sample

open Sample

theorem authority_history_raced : (won.eventsOf "snappshop").map AuthorityEvent.id = ["seed", "locked"] ∧
    (won.finishTransition (locks 2) "late").2 ≠ none ∧
    (won.finishTransition (locks 2) "late").1.events = won.events := by
  obtain ⟨-, hlost, hkept, -⟩ := authority_history won_reachable
  have hlate := (hlost (locks 2) (by decide) "late").mpr (by decide)
  exact ⟨by decide, hlate, (hkept (locks 2) (by decide) "late" hlate).1⟩

end FlowHub.PricingAuthority
