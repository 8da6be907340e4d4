import FlowHub.WritePipeline.Attribution
import FlowHub.WritePipeline.LegacyStatus

namespace FlowHub.WritePipeline

open Python Txn List

variable {intents : List WorkspaceWriteIntent} {results : List WorkspaceWriteResult}
  {w v : World service} {logs : List ChannelLog} {recorded : Recorded} {workflow : String} {n : Nat}
  {s : Db}

theorem Ran.other (h : Ran workflow intents results recorded logs w v)
    {l : Label service} (silent : Silent l) (ha : s.attempts = v.state.attempts)
    (he : s.attemptEvents = v.state.attemptEvents) :
    Ran workflow intents results recorded logs w (v.log l s) where
  registered := h.registered.congr rfl ha
  fair := h.fair
  intents := h.intents
  results := h.results
  events := by
    obtain ⟨added, hevents, hout⟩ := h.events
    exact ⟨added, he.trans hevents, hout⟩
  sent := by rw [World.log_past, sent_append_silent silent, h.sent]

/-- The first transaction and the Channels after it, put together. -/
theorem Trail.ran {reconcileOnly : Bool} {fresh : Nat → Id} {db : Db} {w₁ : World service}
    (trail : Trail recorded w₁ ((grouped intents).map Prod.snd) results logs v)
    (hrec : recordIntents workflow reconcileOnly fresh n intents db {} = .ok (w₁.state, recorded))
    (ha : db.attempts = w.state.attempts) (he : db.attemptEvents = w.state.attemptEvents)
    (hs : sent w₁.past = sent w.past) : Ran workflow intents results recorded logs w v where
  registered := (recordIntents_registered hrec).congr ha.symm trail.reached.attempts
  fair := trail.fair
  intents := by
    have hflat : logs.flatMap (·.intents) = (grouped intents).flatMap Prod.snd := by
      rw [flatMap_def, flatMap_def, trail.intents]
    rw [hflat]
    exact grouped_perm intents
  results := trail.results
  events := by
    obtain ⟨added, hadded, hout⟩ := recordIntents_events hrec
    exact ⟨added, by rw [trail.reached.events, hadded, he], hout⟩
  sent := by rw [trail.reached.sent, hs]

theorem Trail.start (recorded : Recorded) (w : World service) : Trail recorded w [] [] [] w where
  intents := rfl
  results := rfl
  fair := by simp
  reached := ⟨rfl, by simp, by simp, rfl, rfl⟩

theorem executeWorkspace_ran (fresh : Fresh) (command : WorkspaceWriteBatchCommand)
    (reconcileOnly : Bool) (w : World service) :
    (executeWorkspace fresh command reconcileOnly).Meets .free
      (fun results v => Conforming v → ∃ recorded logs,
        Ran command.workflow command.intents results recorded logs w v)
      (fun _ _ => True) w := by
  have hstart : Reached w [] [] w := ⟨rfl, by simp, by simp, rfl, rfl⟩
  refine ((fence_stable reached_stable command hstart).mono (fun _ _ h => h)
    fun _ _ _ => trivial).bind fun _ u hu => ?_
  refine Proc.Meets.bind (Q := fun recorded v => ∃ db, db.attempts = w.state.attempts ∧
    db.attemptEvents = w.state.attemptEvents ∧ sent v.past = sent w.past ∧
    recordIntents command.workflow reconcileOnly fresh.attempt 0 command.intents db {} =
      .ok (v.state, recorded)) ?_ ?_
  · refine Proc.Meets.transact ?_ fun _ _ _ => ⟨trivial, trivial⟩
    rintro _ rfl s recorded hok
    refine ⟨trivial, u.state, hu.attempts, by simpa using hu.events, ?_, hok⟩
    have hsilent : Silent (.commit (.recordIntents command)) := rfl
    rw [World.log_past, sent_append_silent hsilent, hu.sent, append_nil]
  · rintro recorded v ⟨db, ha, he, hs, hrec⟩
    refine (runChannels_trail (.start recorded v)).mono ?_ fun _ _ _ => trivial
    intro results z hz hc
    obtain ⟨logs, trail⟩ := hz hc
    exact ⟨recorded, logs, trail.ran hrec ha he hs⟩

variable {u : Unicode} {digest : PreviewHashing} {hash : Hashing}

/-- What the first commit of `execute` leaves. -/
structure Launched (hash : Hashing) (batchId : Id) (started : Started) (batch : WriteBatch)
    (authority : ChannelPricingAuthorityHead) (db : Db) (w v : World service) : Prop where
  found : batchOf w.state batchId = some batch
  intents : started.command.intents = (itemsOfBatch w.state batchId).map (legacyIntent hash batch authority)
  channel : ∀ other, batchOf v.state batchId = some other → other.channelId = batch.channelId
  items : v.state.writeItems = w.state.writeItems
  attempts : db.attempts = w.state.attempts
  events : db.attemptEvents = w.state.attemptEvents
  sent : sent v.past = sent w.past
  recorded : ∃ fresh, recordIntents legacyWorkflow started.reconcileOnly fresh 0
    started.command.intents db {} = .ok (v.state, started.recorded)

theorem startBatch_launched
    (hok : startBatch hash fresh batchId user correlationId w.state = .ok (s, started)) :
    ∃ batch authority db, Launched hash batchId started batch authority db w
      (w.log (.commit (.startBatch batchId)) s) := by
  obtain ⟨batch, authority, channels, heads, hadmit, hcommand, -, hrec⟩ := startBatch_ok hok
  have hb := (admitBatch_ok hadmit).1
  have hid : batch.id = batchId := batchOf_id hb
  obtain ⟨hbatches, hitems, -⟩ := (recordIntents_appends hrec).batches
  have hmark : (markExecuting batch w.state).writeItems = w.state.writeItems ∧
      (markExecuting batch w.state).attempts = w.state.attempts ∧
      (markExecuting batch w.state).attemptEvents = w.state.attemptEvents ∧
      ∀ other, batchOf (markExecuting batch w.state) batchId = some other →
        other.channelId = batch.channelId := by
    unfold markExecuting
    split
    · refine ⟨rfl, rfl, rfl, fun other hother => ?_⟩
      rw [batchOf, hb] at hother
      rw [Option.some.inj hother]
    · refine ⟨rfl, rfl, rfl, fun other hother => ?_⟩
      rw [hid, batchOf_update (by exact fun _ => rfl), if_pos rfl, batchOf, hb] at hother
      rw [← Option.some.inj hother]
  refine ⟨batch, authority, { markExecuting batch w.state with
    channels := channels, authorityHeads := heads }, hb, ?_, fun other hother => ?_, hitems.trans hmark.1,
    hmark.2.1, hmark.2.2.1, ?_, fresh.attempt, hrec⟩
  · rw [hcommand, hid]
    rfl
  · rw [World.log_state, batchOf, hbatches] at hother
    exact hmark.2.2.2 other hother
  · have hsilent : Silent (.commit (.startBatch batchId)) := rfl
    rw [World.log_past, sent_append_silent hsilent]

/-- `execute`, from its approved rows to their statuses. -/
theorem execute_ran (hash : Hashing) (fresh : Fresh) (batchId : Id) (user : FlowHubUser)
    (correlationId : String) (now : Time) (w : World service) :
    (execute hash fresh batchId user correlationId now).Meets .free
      (fun _ v => Conforming v → ∃ batch authority results recorded logs,
        batchOf w.state batchId = some batch ∧
        v.past.getLast?.map (·.label) = some (.commit (.finishBatch batchId results)) ∧
        v.state.writeItems = finishItems batchId batch.channelId results w.state.writeItems ∧
        Ran legacyWorkflow ((itemsOfBatch w.state batchId).map (legacyIntent hash batch authority))
          results recorded logs w v)
      (fun _ _ => True) w := by
  refine Proc.Meets.bind (Q := fun started (v : World service) => ∃ batch authority db,
    Launched hash batchId started batch authority db w v) ?_ ?_
  · refine Proc.Meets.transact ?_ fun _ _ _ => ⟨trivial, trivial⟩
    rintro _ rfl s started hok
    exact ⟨trivial, startBatch_launched hok⟩
  · rintro started v ⟨batch, authority, db, launched⟩
    refine Proc.Meets.bindWhile not_conforming_log
      (runChannels_trail (.start started.recorded v)) ?_
    rintro results z - ⟨logs, trail⟩
    obtain ⟨fresh, hrec⟩ := launched.recorded
    have hran := trail.ran hrec launched.attempts launched.events launched.sent
    refine Proc.Meets.transact ?_ fun _ _ _ => ⟨trivial, trivial⟩
    rintro _ rfl s _ hok
    refine ⟨trivial, fun _ => ?_⟩
    obtain ⟨own, hown, -, hitems, hattempts⟩ := finishBatch_ok hok
    have hevents : s.attemptEvents = z.state.attemptEvents := by
      obtain ⟨_, -, hok⟩ := bind_eq_ok.mp hok
      cases hok
      rfl
    have hchannel : own.channelId = batch.channelId := by
      refine launched.channel own ?_
      rw [batchOf, ← trail.reached.batches]
      exact hown
    refine ⟨batch, authority, results, started.recorded, logs, launched.found, by simp, ?_, ?_⟩
    · rw [World.log_state, hitems, hchannel, trail.reached.items, launched.items]
    · rw [← launched.intents]
      exact hran.other (l := .commit (.finishBatch batchId results)) rfl hattempts hevents

theorem toString_injective (h : toString m = toString n) : m = n := by
  have hdigits : Nat.toDigits 10 m = Nat.toDigits 10 n := by
    have hlist := congrArg String.toList h
    simpa [Nat.toString_eq_ofList_toDigits] using hlist
  rw [← Nat.ofDigitChars_toDigits (b := 10) (n := m) (by omega) (by omega), hdigits,
    Nat.ofDigitChars_toDigits (by omega) (by omega)]

/-- The products of a batch, each in one row only. -/
def DistinctProducts (db : Db) (batchId : Id) : Prop :=
  ((itemsOfBatch db batchId).map (·.channelProductId)).Nodup

section Rows

theorem distinct_listings (distinct : DistinctProducts db batchId) :
    (((itemsOfBatch db batchId).map (legacyIntent hash batch authority)).map
      (·.listingId)).Nodup := by
  rw [map_map]
  refine Nodup.map_on (fun x hx y hy hxy => ?_) (Nodup.of_map _ distinct)
  exact inj_on_of_nodup_map distinct hx hy ((String.append_right_inj _).mp hxy)

theorem one_item_of_distinct (distinct : DistinctProducts db batchId) :
    OneItemPerListing ((itemsOfBatch db batchId).map (legacyIntent hash batch authority)) := by
  intro x hx y hy hxy
  rw [inj_on_of_nodup_map (distinct_listings distinct) hx hy hxy]
  exact ⟨rfl, rfl, rfl⟩

theorem distinct_of_one_item (keys : (db.writeItems.map (·.id)).Nodup)
    (one : OneItemPerListing ((itemsOfBatch db batchId).map (legacyIntent hash batch authority))) :
    DistinctProducts db batchId := by
  have hkeys : ((itemsOfBatch db batchId).map (·.id)).Nodup :=
    keys.sublist (filter_sublist.map _)
  refine Nodup.map_on (fun x hx y hy hxy => ?_) (Nodup.of_map _ hkeys)
  have hlisting : legacyListingId x batch.channelId = legacyListingId y batch.channelId :=
    (String.append_right_inj _).mpr hxy
  have hsame := one _ (mem_map_of_mem hx) _ (mem_map_of_mem hy) hlisting
  have hid : toString x.id = toString y.id := Option.some.inj hsame.item
  exact inj_on_of_nodup_map hkeys hx hy (toString_injective hid)

end Rows

/-- Every row ends with the status that its own intent's result gives it. -/
structure OwnStatus (hash : Hashing) (batch : WriteBatch) (authority : ChannelPricingAuthorityHead)
    (items : List WriteItem) (pairs : List (WorkspaceWriteIntent × WorkspaceWriteResult))
    (v : World service) : Prop where
  own : ∀ item ∈ items, ∃ r, (legacyIntent hash batch authority item, r) ∈ pairs ∧
    finishItem [r] batch.channelId item ∈ v.state.writeItems

/-- The result looked up for a row is the only one with its Listing. -/
theorem resultFor_own (hr : r ∈ results) (hl : r.listingId = listingId)
    (apart : (results.map (·.listingId)).Nodup) :
    resultFor results listingId = some r ∧ resultFor [r] listingId = some r := by
  constructor
  · cases hf : resultFor results listingId with
    | none =>
      have hnone := find?_eq_none.mp hf r (mem_reverse.mpr hr)
      simp [hl] at hnone
    | some other =>
      have hother : other ∈ results := mem_reverse.mp (mem_of_find?_eq_some hf)
      have hlisting : other.listingId = listingId := by simpa using find?_some hf
      rw [inj_on_of_nodup_map apart hother hr (hlisting.trans hl.symm)]
  · simp [resultFor, hl]

theorem own_status (distinct : DistinctProducts w.state batchId) (hitems : v.state.writeItems =
      finishItems batchId batch.channelId (pairs.map Prod.snd) w.state.writeItems)
    (routed : Routed legacyWorkflow
      ((itemsOfBatch w.state batchId).map (legacyIntent hash batch authority)) pairs w v) :
    OwnStatus hash batch authority (itemsOfBatch w.state batchId) pairs v := by
  refine ⟨fun item hi => ?_⟩
  have hintent := routed.intents.mem_iff.mpr
    (mem_map_of_mem (f := legacyIntent hash batch authority) hi)
  obtain ⟨p, hp, hfst⟩ := mem_map.mp hintent
  have hlisting : p.2.listingId = legacyListingId item batch.channelId := by
    rw [routed.listing p hp, hfst]
    rfl
  have hkeys : (pairs.map Prod.snd).map (·.listingId) = (pairs.map Prod.fst).map (·.listingId) := by
    rw [map_map, map_map]
    exact map_congr_left fun q hq => routed.listing q hq
  have apart : ((pairs.map Prod.snd).map (·.listingId)).Nodup := by
    rw [hkeys, (routed.intents.map _).nodup_iff]
    exact distinct_listings distinct
  obtain ⟨hall, hone⟩ := resultFor_own (mem_map_of_mem hp) hlisting apart
  have hfinish : finishItem [p.2] batch.channelId item =
      finishItem (pairs.map Prod.snd) batch.channelId item := by
    rw [finishItem, finishItem, hall, hone]
  obtain ⟨hmem, hmine⟩ := mem_itemsOfBatch.mp hi
  refine ⟨p.2, by rw [← hfst]; exact hp, ?_⟩
  rw [hfinish, hitems]
  refine mem_map.mpr ⟨item, hmem, ?_⟩
  rw [if_pos hmine]

/-- From any database whose keys hold, with connectors that answer each intent once: a
call that returns has given every attempt its own events exactly when no Listing of the
command stands for two items. For a legacy batch that is when no product is in two of
its rows, and then every row's status comes from its own intent. -/
theorem outcomes_attributed {db : Db} (keyed : Keyed db) (rows : (db.writeItems.map (·.id)).Nodup) :
    (∀ fresh command reconcileOnly results v,
      Steps (executeWorkspace fresh command reconcileOnly) (.initial db) (.done results) v →
      Conforming v →
      ((Complete command.workflow (.initial db) v ∧ ∃ pairs, pairs.map Prod.snd = results ∧
        Routed command.workflow command.intents pairs (.initial db) v) ↔
        OneItemPerListing command.intents)) ∧
    ∀ hash fresh batchId user correlationId now v,
      Steps (execute hash fresh batchId user correlationId now) (.initial db) (.done ()) v →
      Conforming v →
      ∃ batch authority results, batchOf db batchId = some batch ∧
        v.past.getLast?.map (·.label) = some (.commit (.finishBatch batchId results)) ∧
        ((Complete legacyWorkflow (.initial db) v ∧ ∃ pairs, pairs.map Prod.snd = results ∧
          Routed legacyWorkflow
            ((itemsOfBatch db batchId).map (legacyIntent hash batch authority)) pairs
            (.initial db) v ∧
          OwnStatus hash batch authority (itemsOfBatch db batchId) pairs v) ↔
          DistinctProducts db batchId) := by
  constructor
  · intro fresh command reconcileOnly results v run conforming
    obtain ⟨recorded, logs, ran⟩ := run.returned trivial
      (executeWorkspace_ran fresh command reconcileOnly (.initial db)) conforming
    constructor
    · rintro ⟨-, pairs, hsnd, routed⟩
      exact ran.one_item keyed hsnd routed
    · intro one
      exact ⟨ran.complete keyed one, ran.routed one⟩
  · intro hash fresh batchId user correlationId now v run conforming
    obtain ⟨batch, authority, results, recorded, logs, hb, hlabel, hitems, ran⟩ :=
      run.returned trivial
        (execute_ran hash fresh batchId user correlationId now (.initial db)) conforming
    refine ⟨batch, authority, results, hb, hlabel, ?_⟩
    constructor
    · rintro ⟨-, pairs, hsnd, routed, -⟩
      exact distinct_of_one_item rows (ran.one_item keyed hsnd routed)
    intro distinct
    have one : OneItemPerListing
        ((itemsOfBatch db batchId).map (legacyIntent hash batch authority)) :=
      one_item_of_distinct distinct
    obtain ⟨pairs, rfl, routed⟩ := ran.routed one
    exact ⟨ran.complete keyed one, pairs, rfl, routed, own_status distinct hitems routed⟩

namespace Sample

theorem calm_conforming (n : Nat) (p : Proc service α) (h : Conforming w) :
    Conforming (replay calm n p w).2 := by
  induction n generalizing p w with
  | zero => exact h
  | succ n ih =>
    have hlog : ∀ (l : Label service) s, ConformingAnswer l → Conforming (w.log l s) := by
      intro l s hl e he
      rcases mem_append.mp he with he | he
      · exact h e he
      · rwa [mem_singleton.mp he]
    cases p with
    | done a => exact h
    | raise e => exact h
    | txn tag body next fail =>
      simp only [replay, calm]
      split
      · exact ih _ (hlog _ _ trivial)
      · exact ih _ (hlog _ _ trivial)
    | ask q next fail =>
      cases q with
      | acquire | transportReports | readLive => exact ih _ (hlog _ _ trivial)
      | applyUpdates command channelId intents =>
        exact ih _ (hlog _ _ (.map (fun _ => rfl) (fun _ => rfl) intents))
      | verifyUpdates command channelId intents =>
        exact ih _ (hlog _ _ (.map (fun _ => rfl) (fun _ => rfl) intents))

def returned : Proc service α → Bool
  | .done _ => true
  | _ => false

theorem steps_done
    (h : returned (replay env n p w).1 = true) : Steps p w (.done ()) (replay env n p w).2 := by
  have hsteps := replay_steps env n p w
  cases hp : (replay env n p w).1 with
  | done a =>
    rw [hp] at hsteps
    exact hsteps
  | raise | txn | ask =>
    rw [hp] at h
    cases h

/-- A batch of first prices, up to its approval. -/
def approvedBatch (products : List String) (rowIds : List String) : Db :=
  let dryRun := (replay calm 9
    (createDryRun .ascii plainDigest plainHash "batch" (request rowIds) user 1)
    (.initial (shop (products.map firstPrice)))).2
  (replay calm 9 (approve plainHash "batch" user 2) dryRun).2.state

def executeBatch : Program Unit := execute plainHash fresh "batch" user "corr" 3

def twinRows : World service :=
  (replay calm 30 executeBatch (.initial (approvedBatch ["7", "7"] ["row0", "row1"]))).2

def twoProducts : World service :=
  (replay calm 30 executeBatch (.initial (approvedBatch ["7", "8"] ["row0", "row1"]))).2

end Sample

open Sample

/-- One product in two rows: both are sent, and the events of both are on the second
row's attempt. -/
theorem twin_rows_misattributed : Steps executeBatch (.initial (approvedBatch ["7", "7"] ["row0", "row1"]))
      (.done ()) twinRows ∧
    Conforming twinRows ∧
    (sent twinRows.past).map (·.applyItemIds) = [["1"], ["2"]] ∧
    twinRows.state.attempts.map (fun a =>
        (a.logicalItemId, (twinRows.state.eventsOf a.id).map (·.outcome))) =
      [("1", [.dispatchIntentRecorded]),
        ("2", [.dispatchIntentRecorded, .dispatched, .dispatched, .verifiedApplied, .verifiedApplied])] ∧
    ¬Complete legacyWorkflow (.initial (approvedBatch ["7", "7"] ["row0", "row1"]))
      twinRows := by
  refine ⟨steps_done (by decide +kernel), calm_conforming _ _ (by simp [Conforming]),
    by decide +kernel, by decide +kernel, fun complete => ?_⟩
  have hlost : ∃ i ∈ newlySent (.initial (approvedBatch ["7", "7"] ["row0", "row1"]))
      twinRows, (twinRows.state.eventsOf
        (attemptId twinRows.state legacyWorkflow i)).countP isDispatched = 0 := by
    decide +kernel
  obtain ⟨i, hi, hnone⟩ := hlost
  obtain ⟨a, ha, hone, -⟩ := complete i hi
  rw [attemptId_of_some ha, hone] at hnone
  cases hnone

theorem outcomes_attributed_two_products :
    Complete legacyWorkflow (.initial (approvedBatch ["7", "8"] ["row0", "row1"]))
      twoProducts := by
  have keyed : Keyed (approvedBatch ["7", "8"] ["row0", "row1"]) :=
    ⟨by decide +kernel, by decide +kernel⟩
  have distinct : DistinctProducts (approvedBatch ["7", "8"] ["row0", "row1"]) "batch" := by
    unfold DistinctProducts
    decide +kernel
  obtain ⟨batch, authority, results, -, -, hiff⟩ := (outcomes_attributed keyed
    (by decide +kernel)).2 plainHash Sample.fresh "batch" user "corr" 3
    twoProducts (steps_done (by decide +kernel))
    (calm_conforming _ _ (by simp [Conforming]))
  exact (hiff.mpr distinct).1

end FlowHub.WritePipeline
