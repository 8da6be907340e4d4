import FlowHub.WritePipeline.Spec

namespace FlowHub.WritePipeline

open Txn List Option

/-- The command a transaction of `execute_workspace` is for. -/
def tagCommand : Tag → Option WorkspaceWriteBatchCommand
  | .assertWorkspaceFence command | .recordIntents command | .dispatch command _
  | .recordResults command _ => some command
  | _ => none

/-- The command a connector is called for, and the intents it is given. -/
def queryCommand : Query → Option (WorkspaceWriteBatchCommand × List WorkspaceWriteIntent)
  | .applyUpdates command _ intents | .verifyUpdates command _ intents => some (command, intents)
  | _ => none

def labelTag : Label service → Option Tag
  | .commit tag | .rollback tag _ => some tag
  | _ => none

def labelQuery : Label service → Option Query
  | .answer q _ | .failure q _ => some q
  | _ => none

/-- A transaction or a question of the command's execution. -/
def Own (command : WorkspaceWriteBatchCommand) (l : Label service) : Prop :=
  (∀ tag, labelTag l = some tag → tagCommand tag = some command) ∧
    ∀ q c intents, labelQuery l = some q → queryCommand q = some (c, intents) →
      c = command ∧ intents ⊆ command.intents

/-- A transaction or a question that names the command. -/
def Concerns (command : WorkspaceWriteBatchCommand) (l : Label service) : Prop :=
  (∃ tag, labelTag l = some tag ∧ tagCommand tag = some command) ∨
    ∃ q intents, labelQuery l = some q ∧ queryCommand q = some (command, intents)

def Foreign (l : Label service) : Prop := ∀ command, ¬Concerns command l

variable {intents : List WorkspaceWriteIntent} {l : Label service} {q : Query} {s : Db}

theorem Own.concerns (h : Own command l) (k : Concerns other l) : other = command := by
  rcases k with ⟨tag, hl, htag⟩ | ⟨q, intents, hl, hq⟩
  · exact some.inj (htag.symm.trans (h.1 tag hl))
  · exact (h.2 q other intents hl hq).1

theorem foreign_of_tag (hl : labelTag l = some tag)
    (hq : labelQuery l = none) (ht : tagCommand tag = none) : Foreign l := by
  rintro command (⟨t, h, hcommand⟩ | ⟨q, intents, h, -⟩)
  · obtain rfl := some.inj (hl.symm.trans h)
    rw [ht] at hcommand
    cases hcommand
  · rw [hq] at h
    cases h

theorem foreign_of_query (hl : labelQuery l = some q)
    (ht : labelTag l = none) (hq : queryCommand q = none) : Foreign l := by
  rintro command (⟨tag, h, -⟩ | ⟨r, intents, h, hcommand⟩)
  · rw [ht] at h
    cases h
  · obtain rfl := some.inj (hl.symm.trans h)
    rw [hq] at hcommand
    cases hcommand

/-- An attempt that was not there before is one for an intent of the command. -/
def Records (command : WorkspaceWriteBatchCommand) (s t : Db) : Prop :=
  ∀ a ∈ t.attempts, a ∈ s.attempts ∨ ∃ id intent itemId, intent ∈ command.intents ∧
    a = newAttempt id command.workflow intent itemId

theorem Records.same (h : t.attempts = s.attempts) : Records command s t := by
  intro a ha
  rw [h] at ha
  exact .inl ha

theorem recordIntents_records (own : intents ⊆ command.intents)
    (h : recordIntents command.workflow reconcileOnly fresh n intents db recorded =
      .ok (db', recorded')) : Records command db db' := by
  induction intents generalizing n db recorded with
  | nil =>
    cases h
    exact .same rfl
  | cons intent rest ih =>
    obtain ⟨next, nextRecorded, hintent, hrest⟩ := recordIntents_cons h
    intro a ha
    rcases ih (fun i hi => own (mem_cons_of_mem _ hi)) hrest a ha with hnext | hnew
    · obtain ⟨itemId, _, _, ⟨_, _, rfl, _⟩ | ⟨_, hinsert, _⟩⟩ := recordIntent_ok hintent
      · exact .inl hnext
      · rw [(insertAttempt_ok hinsert).2] at hnext
        rcases mem_append.mp hnext with hold | hnew
        · exact .inl hold
        · exact .inr ⟨_, intent, itemId, own mem_cons_self, mem_singleton.mp hnew⟩
    · exact .inr hnew

/-- A step of `execute_workspace`: attempts and their events are added, authority heads
appear, and nothing else changes. -/
def Executes (command : WorkspaceWriteBatchCommand) (w v : World service) : Prop :=
  ∃ l s, v = w.log l s ∧ Own command l ∧ Appends w.state s ∧ Records command w.state s

theorem Executes.tag {tag : Tag} (hl : labelTag l = some tag)
    (hq : labelQuery l = none) (ht : tagCommand tag = some command) (hs : Appends w.state s)
    (hr : Records command w.state s) : Executes command w (w.log l s) := by
  refine ⟨l, s, rfl, ⟨fun t h => ?_, fun q c intents h => ?_⟩, hs, hr⟩
  · obtain rfl := some.inj (hl.symm.trans h)
    exact ht
  · rw [hq] at h
    cases h

variable {α β : Type} {fresh : Fresh} {command : WorkspaceWriteBatchCommand}
  {reconcileOnly : Bool} {recorded : Recorded} {channelId : Id}

theorem transact_does (ht : tagCommand tag = some command)
    (hf : ∀ s t a, f s = .ok (t, a) → Appends s t ∧ Records command s t) :
    Proc.Does (Executes command) (Proc.transact tag f : Program α) :=
  .transact (fun _ _ _ hok => .tag rfl rfl ht (hf _ _ _ hok).1 (hf _ _ _ hok).2)
    fun _ _ => .tag rfl rfl ht (.refl _) (.same rfl)

theorem ask_does (hq : ∀ c intents, queryCommand q = some (c, intents) →
      c = command ∧ intents ⊆ command.intents) : Proc.Does (Executes command) (ask q) := by
  have own : ∀ (l : Label service) (w : World service), labelTag l = none →
      labelQuery l = some q → Executes command w (w.log l w.state) := by
    intro l w ht hl
    refine ⟨l, w.state, rfl, ⟨fun t h => ?_, fun q' c intents h => ?_⟩, .refl _, .same rfl⟩
    · rw [ht] at h
      cases h
    · obtain rfl := some.inj (hl.symm.trans h)
      exact hq c intents
  exact .request (fun w _ => own _ w rfl rfl) fun w _ => own _ w rfl rfl

/-- A question that concerns no command. -/
theorem plainAsk_does (hq : queryCommand q = none) : Proc.Does (Executes command) (ask q) := by
  refine ask_does fun c intents h => ?_
  rw [hq] at h
  cases h

theorem fence_does : Proc.Does (Executes command) (assertWorkspaceFence command) :=
  .consult (fun _ => .tag rfl rfl rfl (.refl _) (.same rfl))
    fun _ _ => .tag rfl rfl rfl (.refl _) (.same rfl)

theorem acquireAll_does (intents : List WorkspaceWriteIntent) :
    Proc.Does (Executes command) (acquireAll channelId intents) := by
  induction intents with
  | nil => exact .done ()
  | cons _ rest ih => exact (plainAsk_does rfl).bind fun _ => ih

theorem gatherEvents_does (results : List WorkspaceWriteResult) :
    Proc.Does (Executes command) (gatherEvents command recorded results) := by
  induction results with
  | nil => exact .done []
  | cons result rest ih =>
    exact fence_does.bind fun _ => (Proc.Does.ofExcept _).bind fun _ => ih.bind fun _ => .done _

theorem verifyChannel_does (h : intents ⊆ command.intents) :
    Proc.Does (Executes command) (verifyChannel command reconcileOnly recorded channelId intents) := by
  unfold verifyChannel
  split
  · refine ask_does fun c more heq => ?_
    cases heq
    exact ⟨rfl, h⟩
  · split
    · exact .done []
    · refine ask_does fun c more heq => ?_
      cases heq
      exact ⟨rfl, Subset.trans filter_sublist.subset h⟩

theorem applyUpdates_does (h : intents ⊆ command.intents) :
    Proc.Does (Executes command) (applyUpdates command channelId intents) := by
  unfold applyUpdates
  split
  · exact .done []
  · refine Proc.Does.tryElse (ask_does fun c more heq => ?_) (fun _ => .done _) fun _ => .done _
    cases heq
    exact ⟨rfl, h⟩

theorem dispatchPending_does (h : pending ⊆ command.intents) :
    Proc.Does (Executes command) (dispatchPending fresh command recorded channelId pending) := by
  refine (acquireAll_does pending).tryElse (fun _ => fence_does.bind fun _ => ?_) fun _ => .done _
  intro w
  refine Proc.Meets.bind (Q := fun r _ => r.1 ⊆ pending) ?_ fun r v hr =>
    ((applyUpdates_does (Subset.trans hr h)).bind fun _ => .done _) v
  refine Proc.Meets.transact ?_ fun v _ e => ⟨.tag rfl rfl rfl (.refl _) (.same rfl), trivial⟩
  rintro v _ s ⟨allowed, rejected⟩ hok
  obtain ⟨hsub, heads, events, -, rfl⟩ := dispatchIntents_ok hok
  exact ⟨.tag rfl rfl rfl (.events _ events heads) (.same rfl), hsub.subset⟩

theorem runChannel_does (h : intents ⊆ command.intents) :
    Proc.Does (Executes command) (runChannel fresh command reconcileOnly recorded channelId intents) := by
  refine (Proc.Does.ofExcept _).bind fun _ => Proc.Does.bind ?_ fun dispatched => ?_
  · unfold dispatchChannel
    split
    · exact .done []
    · exact dispatchPending_does (Subset.trans filter_sublist.subset h)
  refine (verifyChannel_does h).bind fun verified => (plainAsk_does rfl).bind fun _ => ?_
  refine (gatherEvents_does _).bind fun events => Proc.Does.bind ?_ fun _ => .done _
  refine transact_does rfl fun s t _ hok => ?_
  cases hok
  exact ⟨.events _ events s.authorityHeads, .same rfl⟩

theorem runChannels_does (h : groups.flatMap Prod.snd ⊆ command.intents) :
    Proc.Does (Executes command) (runChannels fresh command reconcileOnly recorded groups) := by
  induction groups with
  | nil => exact .done []
  | cons g rest ih =>
    rw [flatMap_cons] at h
    refine (runChannel_does (Subset.trans (subset_append_left _ _) h)).bind fun _ => ?_
    exact (ih (Subset.trans (subset_append_right _ _) h)).bind fun _ => .done _

theorem executeWorkspace_does :
    Proc.Does (Executes command) (executeWorkspace fresh command reconcileOnly) := by
  refine fence_does.bind fun _ => Proc.Does.bind ?_ fun recorded =>
    runChannels_does (grouped_perm command.intents).subset
  exact transact_does rfl fun _ _ _ hok =>
    ⟨recordIntents_appends hok, recordIntents_records (Subset.refl _) hok⟩

end FlowHub.WritePipeline
