import FlowHub.Pairing
import FlowHub.WritePipeline.LegacySpec

namespace FlowHub.WritePipeline

open Python Txn List Option

/-- The attempt that a call works on for an intent. -/
def attemptFor (db : Db) (workflow : String) (intent : WorkspaceWriteIntent) : Option ProviderWriteAttempt :=
  intent.applyItemIds.head?.bind (existingAttempt db workflow intent)

def attemptId (db : Db) (workflow : String) (intent : WorkspaceWriteIntent) : Id :=
  ((attemptFor db workflow intent).map (·.id)).getD ""

/-- Two intents that stand for one attempt. -/
structure SameItem (x y : WorkspaceWriteIntent) : Prop where
  operation : x.applyJobId = y.applyJobId
  item : x.applyItemIds.head? = y.applyItemIds.head?
  payload : x.payloadHash = y.payloadHash

variable {x y i : WorkspaceWriteIntent} {id : Id} {n : Nat} {s t : Db}

theorem SameItem.attemptFor (h : SameItem x y) (db : Db)
    (workflow : String) : attemptFor db workflow x = attemptFor db workflow y := by
  unfold WritePipeline.attemptFor
  rw [h.item]
  congr 1
  funext itemId
  rw [existingAttempt, existingAttempt, h.operation, h.payload]

variable {workflow : String} {intents : List WorkspaceWriteIntent} {intent : WorkspaceWriteIntent}
  {recorded recorded' : Recorded} {a : ProviderWriteAttempt} {db db' : Db} {reconcileOnly : Bool}

theorem attemptFor_some (h : attemptFor db workflow intent = some a) :
    a ∈ db.attempts ∧ intent.applyItemIds.head? = some a.logicalItemId ∧
      a.operationId = intent.applyJobId ∧ a.payloadHash = intent.payloadHash := by
  obtain ⟨itemId, hid, ha⟩ := bind_eq_some_iff.mp h
  obtain ⟨hm, hk, hp⟩ := existingAttempt_some ha
  have hitem : a.logicalItemId = itemId := congrArg LogicalItem.logicalItemId hk
  have hop : a.operationId = intent.applyJobId := congrArg LogicalItem.operationId hk
  exact ⟨hm, by rw [hid, hitem], hop, hp⟩

theorem attemptFor_same (hx : attemptFor db workflow x = some a)
    (hy : attemptFor db workflow y = some a) : SameItem x y := by
  obtain ⟨-, hix, hox, hpx⟩ := attemptFor_some hx
  obtain ⟨-, hiy, hoy, hpy⟩ := attemptFor_some hy
  exact ⟨hox.symm.trans hoy, hix.trans hiy.symm, hpx.symm.trans hpy⟩

/-- A new attempt is found for its own intent, and changes nothing for an intent that
already had one. -/
theorem attemptFor_insert (hhead : intent.applyItemIds.head? = some itemId)
    (hnone : existingAttempt db workflow intent itemId = none)
    (hins : insertAttempt db (newAttempt id workflow intent itemId) = .ok db') :
    attemptFor db' workflow intent = some (newAttempt id workflow intent itemId) ∧
      ∀ other a, attemptFor db workflow other = some a → attemptFor db' workflow other = some a := by
  obtain ⟨-, rfl⟩ := insertAttempt_ok hins
  have hrows : db.attempts.filter (fun a =>
      decide (a.logicalItem = ⟨workflow, intent.applyJobId, itemId⟩) &&
        decide (a.payloadHash = intent.payloadHash)) = [] := by
    by_contra hne
    have hsome := newestAttempt_isSome hne
    rw [existingAttempt] at hnone
    rw [hnone] at hsome
    cases hsome
  constructor
  · rw [attemptFor, hhead, bind_some, existingAttempt, filter_append, hrows]
    simp [newAttempt, ProviderWriteAttempt.logicalItem, newestAttempt]
  intro other a ha
  by_cases hsame : SameItem other intent
  · rw [hsame.attemptFor, attemptFor, hhead, bind_some, hnone] at ha
    cases ha
  obtain ⟨otherItem, hother, hexisting⟩ := bind_eq_some_iff.mp ha
  rw [attemptFor, hother, bind_some, existingAttempt, filter_append]
  have hskip : [newAttempt id workflow intent itemId].filter (fun a =>
      decide (a.logicalItem = ⟨workflow, other.applyJobId, otherItem⟩) &&
        decide (a.payloadHash = other.payloadHash)) = [] := by
    refine filter_eq_nil_iff.mpr fun a hmem hmatch => hsame ?_
    obtain rfl := mem_singleton.mp hmem
    rw [Bool.and_eq_true, decide_eq_true_eq, decide_eq_true_eq] at hmatch
    obtain ⟨hk, hpay⟩ := hmatch
    have hop : intent.applyJobId = other.applyJobId := congrArg LogicalItem.operationId hk
    have hit : itemId = otherItem := congrArg LogicalItem.logicalItemId hk
    exact ⟨hop.symm, by rw [hother, hhead, hit], hpay.symm⟩
  rw [hskip, append_nil]
  exact hexisting

/-- What recording one intent leaves for it: its attempt under its Listing, found or new. -/
theorem recordIntent_attempt
    (h : recordIntent workflow reconcileOnly id intent db recorded = .ok (db', recorded')) :
    ∃ a, attemptFor db' workflow intent = some a ∧
      recorded'.attempts = (intent.listingId, a.id) :: recorded.attempts ∧
      (∀ other b, attemptFor db workflow other = some b → attemptFor db' workflow other = some b) ∧
      ((db' = db ∧ intent.listingId ∈ recorded'.priorAttempts) ∨
        ((∀ b ∈ db.attempts, b.id ≠ a.id) ∧ db'.attempts = db.attempts ++ [a] ∧
          db'.attemptEvents = db.attemptEvents ++
            [{ attemptId := a.id, outcome := .dispatchIntentRecorded }])) := by
  obtain ⟨itemId, rest, hids, ⟨existing, hfound, rfl, rfl⟩ | ⟨hnone, hins, rfl⟩⟩ := recordIntent_ok h
  · refine ⟨existing, ?_, rfl, fun _ _ hb => hb, .inl ⟨rfl, mem_cons_self ..⟩⟩
    rw [attemptFor, hids]
    exact hfound
  · have hhead : intent.applyItemIds.head? = some itemId := by rw [hids]; rfl
    obtain ⟨hown, hkept⟩ := attemptFor_insert hhead hnone hins
    refine ⟨_, hown, rfl, hkept, .inr ?_⟩
    obtain ⟨hfree, rfl⟩ := insertAttempt_ok hins
    refine ⟨fun b hb heq => ?_, rfl, rfl⟩
    have hclash := hfree b hb
    rw [clashes, heq] at hclash
    simp at hclash

theorem attemptFor_congr (h : t.attempts = s.attempts) : attemptFor t = attemptFor s := by
  funext workflow intent
  unfold attemptFor
  congr 1
  funext itemId
  rw [existingAttempt, existingAttempt, h]

theorem attemptId_of_some (h : attemptFor db workflow intent = some a) :
    attemptId db workflow intent = a.id := by
  rw [attemptId, h]
  rfl

/-- Attempt rows have their own keys, and every event belongs to one of them. -/
structure Keyed (db : Db) : Prop where
  attempts : (db.attempts.map (·.id)).Nodup
  events : ∀ e ∈ db.attemptEvents, e.attemptId ∈ db.attempts.map (·.id)

/-- The first transaction, seen from its end: every intent has its attempt, the last
intent of a Listing is the one looked up, and what is pending is new. -/
structure Registered (workflow : String) (intents : List WorkspaceWriteIntent) (db db' : Db)
    (before after : Recorded) : Prop where
  kept : ∀ other a, attemptFor db workflow other = some a → attemptFor db' workflow other = some a
  own : ∀ i ∈ intents, ∃ a, attemptFor db' workflow i = some a
  listed : after.attempts =
    (intents.map fun i => (i.listingId, attemptId db' workflow i)).reverse ++ before.attempts
  new : ∀ i ∈ pendingIntents after intents, attemptId db' workflow i ∉ db.attempts.map (·.id)
  apart : ((pendingIntents after intents).map (attemptId db' workflow)).Nodup
  keys : (db.attempts.map (·.id)).Nodup → (db'.attempts.map (·.id)).Nodup

theorem Registered.congr {after : Recorded} (h : Registered workflow intents s s' before after)
    (ht : t.attempts = s.attempts) (ht' : t'.attempts = s'.attempts) :
    Registered workflow intents t t' before after := by
  obtain ⟨hkept, hown, hlisted, hnew, hapart, hkeys⟩ := h
  have hid : attemptId t' workflow = attemptId s' workflow := by
    funext i
    rw [attemptId, attemptId, attemptFor_congr ht']
  refine ⟨?_, ?_, ?_, ?_, ?_, ?_⟩
  · rw [attemptFor_congr ht, attemptFor_congr ht']
    exact hkept
  · rw [attemptFor_congr ht']
    exact hown
  · rw [hid]
    exact hlisted
  · rw [hid, ht]
    exact hnew
  · rw [hid]
    exact hapart
  · rw [ht, ht']
    exact hkeys

theorem recordIntents_registered
    (h : recordIntents workflow reconcileOnly fresh n intents db recorded =
      .ok (db', recorded')) : Registered workflow intents db db' recorded recorded' := by
  induction intents generalizing n db recorded with
  | nil =>
    obtain ⟨rfl, rfl⟩ : db = db' ∧ recorded = recorded' := by simpa [recordIntents] using h
    refine ⟨fun _ _ h => h, ?_, ?_, ?_, ?_, fun h => h⟩ <;> simp [pendingIntents]
  | cons intent rest ih =>
    obtain ⟨db₁, recorded₁, h₁, h₂⟩ := recordIntents_cons h
    obtain ⟨a, hown, hlisted, hkept, hcase⟩ := recordIntent_attempt h₁
    have reg := ih h₂
    have hown' := reg.kept intent a hown
    have hid := attemptId_of_some hown'
    have hlist : recorded'.attempts =
        ((intent :: rest).map fun i => (i.listingId, attemptId db' workflow i)).reverse ++
          recorded.attempts := by
      rw [reg.listed, hlisted, map_cons, reverse_cons, hid, append_assoc, singleton_append]
    have hkeep : ∀ other b, attemptFor db workflow other = some b →
        attemptFor db' workflow other = some b := fun other b hb => reg.kept other b (hkept other b hb)
    have howns : ∀ i ∈ intent :: rest, ∃ a, attemptFor db' workflow i = some a := by
      intro i hi
      rcases mem_cons.mp hi with rfl | hi
      · exact ⟨a, hown'⟩
      · exact reg.own i hi
    rcases hcase with ⟨rfl, hprior⟩ | ⟨hnew, hrows, -⟩
    · have hgone : intent.listingId ∈ recorded'.priorAttempts := recordIntents_prior h₂ hprior
      have hskip : pendingIntents recorded' (intent :: rest) = pendingIntents recorded' rest := by
        simp [pendingIntents, hgone]
      refine ⟨hkeep, howns, hlist, ?_, ?_, reg.keys⟩
      · rw [hskip]
        exact reg.new
      · rw [hskip]
        exact reg.apart
    · have hfresh : a.id ∉ db.attempts.map (·.id) := by
        intro hm
        obtain ⟨b, hb, hba⟩ := mem_map.mp hm
        exact hnew b hb hba
      have hkeys : (db.attempts.map (·.id)).Nodup → (db₁.attempts.map (·.id)).Nodup := by
        intro hnd
        rw [hrows, map_append]
        refine nodup_append.mpr ⟨hnd, nodup_singleton _, fun x hx y hy hxy => hfresh ?_⟩
        have hya : y = a.id := mem_singleton.mp hy
        rwa [← hya, ← hxy]
      have hrest : ∀ i ∈ pendingIntents recorded' rest,
          attemptId db' workflow i ∉ db.attempts.map (·.id) ∧ attemptId db' workflow i ≠ a.id := by
        intro i hi
        have hout := reg.new i hi
        rw [hrows, map_append, mem_append, not_or] at hout
        exact ⟨hout.1, fun heq => hout.2 (by rw [heq]; exact mem_singleton.mpr rfl)⟩
      by_cases hprior : intent.listingId ∈ recorded'.priorAttempts
      · have hskip : pendingIntents recorded' (intent :: rest) = pendingIntents recorded' rest := by
          simp [pendingIntents, hprior]
        refine ⟨hkeep, howns, hlist, ?_, ?_, fun hnd => reg.keys (hkeys hnd)⟩
        · rw [hskip]
          exact fun i hi => (hrest i hi).1
        · rw [hskip]
          exact reg.apart
      · have htake : pendingIntents recorded' (intent :: rest) =
            intent :: pendingIntents recorded' rest := by simp [pendingIntents, hprior]
        refine ⟨hkeep, howns, hlist, ?_, ?_, fun hnd => reg.keys (hkeys hnd)⟩
        · rw [htake]
          intro i hi
          rcases mem_cons.mp hi with rfl | hi
          · rwa [hid]
          · exact (hrest i hi).1
        · rw [htake, map_cons, nodup_cons, hid]
          refine ⟨fun hm => ?_, reg.apart⟩
          obtain ⟨i, hi, heq⟩ := mem_map.mp hm
          exact (hrest i hi).2 heq

theorem recordIntents_events (h : recordIntents workflow reconcileOnly fresh n intents db recorded =
      .ok (db', recorded')) : ∃ added, db'.attemptEvents = db.attemptEvents ++ added ∧
      ∀ e ∈ added, e.outcome = .dispatchIntentRecorded := by
  induction intents generalizing n db recorded with
  | nil =>
    obtain ⟨rfl, -⟩ : db = db' ∧ _ := by simpa [recordIntents] using h
    exact ⟨[], by simp, by simp⟩
  | cons intent rest ih =>
    obtain ⟨db₁, recorded₁, h₁, h₂⟩ := recordIntents_cons h
    obtain ⟨a, -, -, -, hcase⟩ := recordIntent_attempt h₁
    obtain ⟨added, hadded, hout⟩ := ih h₂
    rcases hcase with ⟨rfl, -⟩ | ⟨-, -, hevents⟩
    · exact ⟨added, hadded, hout⟩
    refine ⟨{ attemptId := a.id, outcome := .dispatchIntentRecorded } :: added, ?_, ?_⟩
    · rw [hadded, hevents, append_assoc, singleton_append]
    intro e he
    rcases mem_cons.mp he with rfl | he
    · rfl
    · exact hout e he

/-- The attempt that a result with this Listing is recorded on. -/
def route (recorded : Recorded) (listingId : Id) : Id :=
  (recorded.attempts.lookup listingId).getD ""

/-- No Listing stands for two attempts of the command. -/
def OneItemPerListing (intents : List WorkspaceWriteIntent) : Prop :=
  ∀ x ∈ intents, ∀ y ∈ intents, x.listingId = y.listingId → SameItem x y

theorem attemptOf_ok (h : recorded.attemptOf listingId = .ok id) : route recorded listingId = id := by
  unfold Recorded.attemptOf at h
  unfold route
  split at h
  · rename_i found hfound
    rw [hfound]
    exact Except.ok.inj h
  · cases h

/-- Looking up an intent's Listing gives the attempt of an intent with that Listing. -/
theorem Registered.route (h : Registered workflow intents db db' {} recorded) (hi : i ∈ intents) :
    ∃ last ∈ intents, last.listingId = i.listingId ∧
      route recorded i.listingId = attemptId db' workflow last := by
  have hlisted := h.listed
  rw [append_nil] at hlisted
  cases hl : recorded.attempts.lookup i.listingId with
  | none =>
    have hout := lookup_eq_none_iff.mp hl (i.listingId, attemptId db' workflow i)
      (by rw [hlisted, mem_reverse]; exact mem_map_of_mem hi)
    simp at hout
  | some id =>
    obtain ⟨l₁, l₂, hsplit, -⟩ := lookup_eq_some_iff.mp hl
    have hmem : (i.listingId, id) ∈ recorded.attempts := by
      rw [hsplit]
      exact mem_append_right _ (mem_cons_self ..)
    rw [hlisted, mem_reverse] at hmem
    obtain ⟨last, hlast, heq⟩ := mem_map.mp hmem
    obtain ⟨hlisting, hid⟩ := Prod.mk.inj heq
    refine ⟨last, hlast, hlisting, ?_⟩
    rw [WritePipeline.route, hl, hid]
    rfl

theorem Registered.route_own (h : Registered workflow intents db db' {} recorded)
    (one : OneItemPerListing intents) (hi : i ∈ intents) :
    WritePipeline.route recorded i.listingId = attemptId db' workflow i := by
  obtain ⟨last, hlast, hlisting, hroute⟩ := h.route hi
  rw [hroute, attemptId, attemptId, (one last hlast i hi hlisting).attemptFor]

end FlowHub.WritePipeline
