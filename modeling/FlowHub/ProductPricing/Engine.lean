import FlowHub.ProductPricing.Apply
import FlowHub.WritePipeline.Spec

namespace FlowHub.ProductPricing

open Txn WritePipeline List Except

variable {command : WorkspaceWriteBatchCommand} {intent : WorkspaceWriteIntent} {db : Db}
  {fresh : Fresh}

/-- Nothing has been dispatched, and the attempt of the intent is on record. -/
structure Undispatched (command : WorkspaceWriteBatchCommand) (intent : WorkspaceWriteIntent)
    (w : World service) : Prop where
  silent : sent w.past = []
  found : Found w.state command.workflow intent

/-- The channel's connector has verified the intent with these results. -/
def VerifiedAs (command : WorkspaceWriteBatchCommand) (intent : WorkspaceWriteIntent)
    (results : List WorkspaceWriteResult) (w : World service) : Prop :=
  ∃ e ∈ w.past, e.label = .answer (.verifyUpdates command intent.channelId [intent]) results

theorem Undispatched.log (h : Undispatched command intent w)
    (silent : Silent l) (appends : Appends w.state s) : Undispatched command intent (w.log l s) := by
  constructor
  · have hsent : sent (w.past ++ [⟨w.state, l⟩]) = sent w.past := sent_append_silent silent
    rw [World.log_past, hsent]
    exact h.silent
  · exact h.found.mono appends

theorem undispatched_stable : Stable .free (Undispatched command intent) where
  rely hv h := hv ▸ h
  quiet h silent := ⟨trivial, h.log silent (.refl _)⟩

theorem found_recorded (found : Found db command.workflow intent)
    (h : recordIntents command.workflow false fresh.attempt 0 [intent] db {} = .ok (db', recorded)) :
    db' = db ∧ recorded.priorAttempts = [intent.listingId] := by
  obtain ⟨itemId, more, hids, a, ha⟩ := found.existing
  have hrecord : recordIntents command.workflow false fresh.attempt 0 [intent] db {} =
      .ok (db, ⟨[(intent.listingId, a.id)], [intent.listingId]⟩) := by
    simp only [recordIntents, recordIntent, hids, ha]
    rfl
  rw [hrecord, ok.injEq, Prod.mk.injEq] at h
  exact ⟨h.1.symm, by rw [← h.2]⟩

theorem grouped_single : grouped [intent] = [(intent.channelId, [intent])] := rfl

theorem VerifiedAs.log (h : VerifiedAs command intent results w) (l : Label service) (s : Db) :
    VerifiedAs command intent results (w.log l s) := by
  obtain ⟨e, he, hlabel⟩ := h
  exact ⟨e, mem_append_left _ he, hlabel⟩

/-- What is left to do once the connector has verified the intent. -/
theorem verified_stable (results : List WorkspaceWriteResult) : Stable .free fun w =>
    Undispatched command intent w ∧ VerifiedAs command intent results w where
  rely hv h := hv ▸ h
  quiet h silent := ⟨trivial, h.1.log silent (.refl _), h.2.log _ _⟩

theorem verify_meets (hprior : recorded.priorAttempts = [intent.listingId])
    (h : Undispatched command intent w) :
    (verifyChannel command false recorded intent.channelId [intent]).Meets .free
      (fun results v => Undispatched command intent v ∧ VerifiedAs command intent results v)
      (fun _ => Undispatched command intent) w := by
  have hprogram : verifyChannel command false recorded intent.channelId [intent] =
      connectorVerify command intent.channelId [intent] := by
    simp [verifyChannel, priorIntents, hprior]
  rw [hprogram]
  apply Proc.Meets.request
  · rintro v rfl results
    refine ⟨trivial, ?_, ⟨w.state, _⟩, ?_, rfl⟩
    · refine h.log ?_ (.refl _)
      exact rfl
    · simp
  · rintro v rfl e
    refine ⟨trivial, ?_⟩
    refine h.log ?_ (.refl _)
    exact rfl

/-- An intent whose attempt is on record is verified and not dispatched. -/
theorem found_meets (hone : command.intents = [intent]) {w : World service}
    (h : Undispatched command intent w) :
    (executeWorkspace fresh command false).Meets .free
      (fun results v => Undispatched command intent v ∧ VerifiedAs command intent results v)
      (fun _ => Undispatched command intent) w := by
  refine (fence_stable undispatched_stable command h).bind fun _ v hv => ?_
  refine Proc.Meets.bind (Q := fun recorded v => Undispatched command intent v ∧
    recorded.priorAttempts = [intent.listingId]) (Proc.Meets.transact ?_ ?_) ?_
  · rintro u rfl s recorded hrecord
    rw [hone] at hrecord
    obtain ⟨rfl, hprior⟩ := found_recorded hv.found hrecord
    refine ⟨trivial, ?_, hprior⟩
    refine hv.log ?_ (.refl _)
    exact rfl
  · rintro u rfl e
    refine ⟨trivial, ?_⟩
    refine hv.log ?_ (.refl _)
    exact rfl
  intro recorded u hu
  obtain ⟨hu, hprior⟩ := hu
  rw [hone, grouped_single]
  refine Proc.Meets.bind (Q := fun results v => Undispatched command intent v ∧
    VerifiedAs command intent results v) ?_ fun results t ht => ?_
  · refine Proc.Meets.bind (Q := fun _ => Undispatched command intent)
      (Proc.Meets.ofExcept (fun _ _ => hu) fun _ _ => hu) fun _ t ht => ?_
    have hnone : dispatchChannel fresh command false recorded intent.channelId [intent] = .done [] := by
      simp [dispatchChannel, pendingIntents, hprior]
    rw [hnone]
    refine Proc.Meets.bind (Q := fun results v => results = [] ∧ Undispatched command intent v)
      ⟨rfl, ht⟩ fun dispatched v hv => ?_
    obtain ⟨rfl, hv⟩ := hv
    refine (verify_meets hprior hv).bind fun results r hr => ?_
    have hstable := @verified_stable command intent results
    have hreports := ask_stable (q := .transportReports intent.channelId ([] ++ results)) hstable
      (by simp) hr
    refine (hreports.mono (fun _ _ hq => hq) fun _ _ hq => hq.1).bind fun _ q hq => ?_
    have hgather := gatherEvents_stable hstable command recorded ([] ++ results) hq
    refine (hgather.mono (fun _ _ hq => hq) fun _ _ hq => hq.1).bind fun events x hx => ?_
    refine Proc.Meets.bind (Q := fun _ v => Undispatched command intent v ∧
      VerifiedAs command intent results v) (Proc.Meets.transact ?_ ?_) fun _ y hy => hy
    · rintro y rfl s answer hs
      simp only [ok.injEq, Prod.mk.injEq] at hs
      refine ⟨trivial, ?_, hx.2.log _ _⟩
      have happends : Appends x.state s := hs.1 ▸ .events _ _ _
      refine hx.1.log ?_ happends
      exact rfl
    · rintro y rfl e
      refine ⟨trivial, ?_⟩
      refine hx.1.log ?_ (.refl _)
      exact rfl
  · have hnil : (results ++ []) = results := append_nil results
    show Undispatched command intent t ∧ VerifiedAs command intent (results ++ []) t
    rw [hnil]
    exact ht

/-- The run of an intent that the engine knows dispatches nothing, and what it returns is what a
verification answered. -/
theorem found_run (hone : command.intents = [intent]) (found : Found db command.workflow intent)
    (run : Steps (executeWorkspace fresh command false) (.initial db) (.ofExcept answer) w) :
    Undispatched command intent w ∧
      ∀ results, answer = .ok results → VerifiedAs command intent results w := by
  have hstart : Undispatched command intent (.initial db) := ⟨rfl, found⟩
  have hmeets := @found_meets command intent fresh hone _ hstart
  cases answer with
  | ok results =>
    obtain ⟨hun, hverified⟩ := run.returned trivial hmeets
    refine ⟨hun, ?_⟩
    intro results' heq
    rw [← ok.inj heq]
    exact hverified
  | error e =>
    have hun := run.raised trivial hmeets
    refine ⟨hun, ?_⟩
    intro results heq
    cases heq

/-- The first transaction of the engine has committed. -/
def Recorded (w : World service) : Prop :=
  ∃ e ∈ w.past, ∃ command, e.label = .commit (.recordIntents command)

/-- Attempts are only added. -/
theorem appends_tolerates (command : WorkspaceWriteBatchCommand) (db : Db) :
    Tolerates .free command command.intents fun w => Appends db w.state where
  rely hv h := hv ▸ h
  writes h _ appends := ⟨trivial, h.trans appends⟩
  dispatch h _ _ := ⟨trivial, h⟩

theorem engine_appends
    (run : Steps (executeWorkspace fresh command false) (.initial db) (.ofExcept answer) w) :
    Appends db w.state := by
  have hmeets : (executeWorkspace fresh command false).Meets .free (fun _ v => Appends db v.state)
      (fun _ v => Appends db v.state) (.initial db) :=
    executeWorkspace_frame (appends_tolerates command db) (.refl db)
  cases answer with
  | ok results => exact run.returned trivial hmeets
  | error e => exact run.raised trivial hmeets

/-- Every intent of the command has its attempt. -/
def AllFound (command : WorkspaceWriteBatchCommand) (db : Db) : Prop :=
  ∀ intent ∈ command.intents, Found db command.workflow intent

theorem allFound_tolerates (command : WorkspaceWriteBatchCommand) :
    Tolerates .free command command.intents fun w => AllFound command w.state where
  rely hv h := hv ▸ h
  writes h _ appends := ⟨trivial, fun intent hi => (h intent hi).mono appends⟩
  dispatch h _ _ := ⟨trivial, h⟩

theorem fence_unrecorded {w : World service} (h : ¬Recorded w) :
    (assertWorkspaceFence command).Meets .free (fun _ v => ¬Recorded v) (fun _ v => ¬Recorded v) w := by
  have hlog : ∀ (l : Label service) (s : Db), (∀ c, l ≠ .commit (.recordIntents c)) →
      ¬Recorded (w.log l s) := by
    intro l s hl hrecorded
    obtain ⟨e, he, c, hlabel⟩ := hrecorded
    rw [World.log_past, mem_append, mem_singleton] at he
    cases he with
    | inl hold => exact h ⟨e, hold, c, hlabel⟩
    | inr hnew =>
      subst hnew
      exact hl c hlabel
  apply Proc.Meets.consult
  · rintro v rfl answer _
    refine ⟨trivial, hlog _ _ ?_⟩
    intro c
    simp
  · rintro v rfl e
    refine ⟨trivial, hlog _ _ ?_⟩
    intro c
    simp

/-- A run whose first transaction commits leaves the attempts of its intents. -/
theorem recorded_run (run : Steps (executeWorkspace fresh command false) (.initial db) (.ofExcept answer) w)
    (recorded : Recorded w) : AllFound command w.state := by
  have hstart : ¬Recorded (.initial db) := by
    intro h
    obtain ⟨e, he, -⟩ := h
    cases he
  have hmeets : (executeWorkspace fresh command false).Meets .free
      (fun _ v => Recorded v → AllFound command v.state)
      (fun _ v => Recorded v → AllFound command v.state) (.initial db) := by
    have hfence := @fence_unrecorded command _ hstart
    refine (hfence.mono (fun _ _ h => h) fun _ v h hr => absurd hr h).bind fun _ v hv => ?_
    refine Proc.Meets.bind (Q := fun _ u => AllFound command u.state) (Proc.Meets.transact ?_ ?_) ?_
    · rintro u rfl s recorded hs
      exact ⟨trivial, recordIntents_found hs⟩
    · rintro u rfl e
      refine ⟨trivial, ?_⟩
      intro hrecorded
      obtain ⟨event, he, c, hlabel⟩ := hrecorded
      rw [World.log_past, mem_append, mem_singleton] at he
      cases he with
      | inl hold => exact absurd ⟨event, hold, c, hlabel⟩ hv
      | inr hnew =>
        subst hnew
        cases hlabel
    · intro recorded u hu
      have hframe : (runChannels fresh command false recorded (grouped command.intents)).Meets .free
          (fun _ v => AllFound command v.state) (fun _ v => AllFound command v.state) u :=
        runChannels_frame ((allFound_tolerates command).sublist
          (grouped_perm command.intents).subset) hu
      exact hframe.mono (fun _ _ h _ => h) fun _ _ h _ => h
  cases answer with
  | ok results => exact run.returned trivial hmeets recorded
  | error e => exact run.raised trivial hmeets recorded

end FlowHub.ProductPricing
