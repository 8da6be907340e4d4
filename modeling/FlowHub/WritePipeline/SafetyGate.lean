import FlowHub.WritePipeline.LegacySpec

namespace FlowHub.WritePipeline

open Python Txn Binary64 List

/-- What the fifty percent gate lets through: positive targets whose computed
difference is at most half of the current price, or any target when that is zero. -/
def Gated (current proposed : Float64) : Prop :=
  ∃ c p : FiniteDouble, current = .finite c ∧ proposed = .finite p ∧ 0 ≤ c.val ∧ 0 < p.val ∧
    (0 < c.val → 2 * |nearest (p.val - c.val)| ≤ c.val)

theorem deltaPercent_of_pos (hc : 0 < c.val) : deltaPercent (.finite c) (.finite p) =
      (Float64.percentChange (.finite c) (.finite p)).getD .nan := by
  have hne : Float64.finite c ≠ .zero := by
    intro h
    have h0 : c.val = (0 : ℕ) := congrArg Subtype.val (Float64.finite.inj h)
    rw [h0, Nat.cast_zero] at hc
    exact lt_irrefl _ hc
  simp [deltaPercent, Float64.eq, hne]

variable {u : Unicode} {digest : PreviewHashing} {hash : Hashing}

theorem validateChange_gated (h : validateChange u previewId change = .ok ()) :
    Gated change.currentPrice change.proposedPrice := by
  obtain ⟨-, h⟩ := guard_ok h
  obtain ⟨-, h⟩ := guard_ok h
  obtain ⟨-, h⟩ := guard_ok h
  obtain ⟨-, h⟩ := guard_ok h
  obtain ⟨hfinite, h⟩ := guard_ok h
  obtain ⟨hsign, h⟩ := guard_ok h
  obtain ⟨hgate, -⟩ := guard_ok h
  rcases hcur : change.currentPrice with c | s | _ <;>
    rcases hpro : change.proposedPrice with p | s | _ <;>
    simp only [hcur, hpro, Float64.isFinite, Bool.not_true, Bool.not_false, Bool.or_true,
      Bool.or_false, not_true_eq_false] at hfinite
  simp only [hcur, hpro, Float64.zero, Float64.ofNat, Float64.lt, Bool.or_eq_true,
    decide_eq_true_eq, Bool.not_eq_true', decide_eq_false_iff_not, not_or, not_lt,
    Nat.cast_zero] at hsign
  have hpos := lt_of_not_ge hsign.2
  refine ⟨c, p, rfl, rfl, hsign.1, hpos, fun hc => ?_⟩
  obtain ⟨pct, hpct, hiff⟩ := Float64.lt_abs_percentChange hc hpos
  rw [hcur, hpro, deltaPercent_of_pos hc, hpct] at hgate
  exact not_lt.mp fun hlt => hgate (hiff.mpr hlt)

theorem forM_ok {f : α → Except Fault Unit} {l : List α} (h : l.forM f = .ok ()) : ∀ a ∈ l, f a = .ok () := by
  induction l with
  | nil => simp
  | cons a rest ih =>
    obtain ⟨_, ha, hrest⟩ := bind_eq_ok.mp h
    intro b hb
    rcases mem_cons.mp hb with rfl | hb
    · exact ha
    · exact ih hrest b hb

theorem validateChanges_gated {previewId : String} {changes : List WritePipelinePriceChange}
    (h : validateChanges u previewId changes = .ok ()) :
    ∀ change ∈ changes, Gated change.currentPrice change.proposedPrice := by
  obtain ⟨-, h⟩ := guard_ok h
  obtain ⟨-, h⟩ := guard_ok h
  obtain ⟨_, hall, -⟩ := bind_eq_ok.mp h
  exact fun change hc => validateChange_gated (forM_ok hall change hc)

/-- The intent carries the prices of a stored batch item. -/
def FromItem (db : Db) (i : WorkspaceWriteIntent) : Prop :=
  ∃ item ∈ db.writeItems, i.applyJobId = item.batchId ∧ i.applyItemIds = [toString item.id] ∧
    i.currentPrice = some item.currentPrice ∧ i.targetPrice = some item.proposedPrice

/-- Every stored item passed the gate, and only stored items were dispatched. -/
structure GateKept (w : World service) : Prop where
  items : ∀ item ∈ w.state.writeItems, Gated item.currentPrice item.proposedPrice
  dispatched : ∀ i ∈ sent w.past, FromItem w.state i

/-- Items of `s` are still there in `t`, statuses aside. -/
def ItemsKept (s t : Db) : Prop :=
  ∀ item ∈ s.writeItems, ∃ kept ∈ t.writeItems, kept.id = item.id ∧ kept.batchId = item.batchId ∧
    kept.currentPrice = item.currentPrice ∧ kept.proposedPrice = item.proposedPrice

theorem ItemsKept.of_eq (h : t.writeItems = s.writeItems) : ItemsKept s t :=
  fun item hi => ⟨item, h ▸ hi, rfl, rfl, rfl, rfl⟩

theorem FromItem.kept (h : FromItem s i) (hk : ItemsKept s t) : FromItem t i := by
  obtain ⟨item, hi, hj, ha, hc, hp⟩ := h
  obtain ⟨kept, hkept, hid, hbatch, hcur, hpro⟩ := hk item hi
  exact ⟨kept, hkept, by rw [hj, hbatch], by rw [ha, hid], by rw [hc, hcur], by rw [hp, hpro]⟩

variable {w : World service} {l : Label service}

theorem GateKept.log (h : GateKept w) {s : Db} (silent : Silent l) (hk : ItemsKept w.state s)
    (hg : ∀ item ∈ s.writeItems, Gated item.currentPrice item.proposedPrice) :
    GateKept (w.log l s) where
  items := hg
  dispatched i hi := by
    rw [World.log_past, sent_append_silent silent] at hi
    exact (h.dispatched i hi).kept hk

theorem GateKept.log_same (h : GateKept w)
    (silent : Silent l) (hs : s.writeItems = w.state.writeItems) : GateKept (w.log l s) :=
  h.log silent (.of_eq hs) (hs ▸ h.items)

theorem GateKept.dispatch (h : GateKept w)
    {command : WorkspaceWriteBatchCommand} {intents : List WorkspaceWriteIntent}
    (hl : dispatchOf l = some (command, intents)) (hi : ∀ i ∈ intents, FromItem w.state i) :
    GateKept (w.log l w.state) where
  items := h.items
  dispatched i hmem := by
    rw [World.log_past, sent_append_dispatch hl] at hmem
    exact (mem_append.mp hmem).elim (h.dispatched i) (hi i)

abbrev gateSolo : Contract service := .alone GateKept

/-- A call whose intents all come from stored items keeps the gate. -/
theorem tolerates_gate (command : WorkspaceWriteBatchCommand) : Tolerates gateSolo command command.intents
      (fun w => GateKept w ∧ ∀ i ∈ command.intents, FromItem w.state i) where
  rely h hp := h ▸ hp
  writes h silent hs := by
    have hk := ItemsKept.of_eq hs.batches.2.1
    have hlog := h.1.log_same silent hs.batches.2.1
    exact ⟨hlog, hlog, fun i hi => (h.2 i hi).kept hk⟩
  dispatch h hl hs := by
    have hlog := h.1.dispatch hl fun i hi => h.2 i (hs hi)
    exact ⟨hlog, hlog, h.2⟩

theorem finishItem_prices (results : List WorkspaceWriteResult) (channelId : Id) (item : WriteItem) :
    (finishItem results channelId item).id = item.id ∧
    (finishItem results channelId item).batchId = item.batchId ∧
    (finishItem results channelId item).currentPrice = item.currentPrice ∧
    (finishItem results channelId item).proposedPrice = item.proposedPrice := by
  unfold finishItem
  split
  · exact ⟨rfl, rfl, rfl, rfl⟩
  · split <;> exact ⟨rfl, rfl, rfl, rfl⟩

theorem finishItems_kept (batchId channelId : Id) (results : List WorkspaceWriteResult)
    (items : List WriteItem) :
    (∀ item ∈ items, ∃ kept ∈ finishItems batchId channelId results items, kept.id = item.id ∧
      kept.batchId = item.batchId ∧ kept.currentPrice = item.currentPrice ∧
      kept.proposedPrice = item.proposedPrice) ∧
    ∀ kept ∈ finishItems batchId channelId results items, ∃ item ∈ items,
      kept.currentPrice = item.currentPrice ∧ kept.proposedPrice = item.proposedPrice := by
  constructor
  · intro item hi
    refine ⟨_, mem_map_of_mem hi, ?_⟩
    split
    · exact finishItem_prices results channelId item
    · exact ⟨rfl, rfl, rfl, rfl⟩
  · intro kept hk
    obtain ⟨item, hi, rfl⟩ := mem_map.mp hk
    refine ⟨item, hi, ?_⟩
    split
    · exact (finishItem_prices results channelId item).2.2
    · exact ⟨rfl, rfl⟩

theorem finish_gate (h : GateKept w) (batchId : Id) (results : List WorkspaceWriteResult) (now : Time) :
    (finish batchId results now).Meets gateSolo (fun _ => GateKept) (fun _ => GateKept) w := by
  refine Proc.Meets.transact ?_ fun v hv e => hv ▸ ⟨h.log_same rfl rfl, h.log_same rfl rfl⟩
  rintro _ rfl s _ hok
  obtain ⟨batch, -, hok⟩ := bind_eq_ok.mp hok
  obtain ⟨hs, -⟩ := Prod.mk.inj (Except.ok.inj hok)
  have hitems : s.writeItems =
      finishItems batchId batch.channelId results w.state.writeItems := by rw [← hs]; rfl
  obtain ⟨hkept, hback⟩ := finishItems_kept batchId batch.channelId results w.state.writeItems
  have hlog : GateKept (w.log (.commit (.finishBatch batchId results)) s) := by
    refine h.log rfl (fun item hi => hitems ▸ hkept item hi) fun item hi => ?_
    obtain ⟨old, hold, hcur, hpro⟩ := hback item (hitems ▸ hi)
    rw [hcur, hpro]
    exact h.items old hold
  exact ⟨hlog, hlog⟩

/-- The intents that a started batch hands on are its stored items. -/
theorem startBatch_gate (h : startBatch hash fresh batchId user correlationId db = .ok (db', started)) :
    db'.writeItems = db.writeItems ∧ ∀ i ∈ started.command.intents, FromItem db i := by
  obtain ⟨batch, authority, channels, heads, -, hcommand, -, hrec⟩ := startBatch_ok h
  refine ⟨?_, fun i hi => ?_⟩
  · rw [(recordIntents_appends hrec).batches.2.1]
    unfold markExecuting
    split <;> rfl
  · rw [hcommand] at hi
    obtain ⟨item, hitem, rfl⟩ := mem_map.mp hi
    obtain ⟨hmem, hbatch⟩ := mem_filter.mp hitem
    exact ⟨item, hmem, (of_decide_eq_true hbatch).symm, rfl, rfl, rfl⟩

theorem execute_gate (fresh : Fresh) (batchId : Id) (user : FlowHubUser)
    (correlationId : String) (now : Time) (h : GateKept w) :
    (execute hash fresh batchId user correlationId now).Meets gateSolo
      (fun _ => GateKept) (fun _ => GateKept) w := by
  refine Proc.Meets.bind (Q := fun started v => GateKept v ∧
    ∀ i ∈ started.command.intents, FromItem v.state i) ?_ fun started v hv => ?_
  · refine Proc.Meets.transact ?_ fun v hv e => hv ▸ ⟨h.log_same rfl rfl, h.log_same rfl rfl⟩
    rintro _ rfl s started hok
    obtain ⟨hitems, hfrom⟩ := startBatch_gate hok
    have hlog := h.log_same (l := .commit (.startBatch batchId)) rfl hitems
    exact ⟨hlog, hlog, fun i hi => (hfrom i hi).kept (.of_eq hitems)⟩
  · have htol := (tolerates_gate started.command).sublist
      (grouped_perm started.command.intents).subset
    refine Proc.Meets.bind (Q := fun _ v => GateKept v ∧ ∀ i ∈ started.command.intents, FromItem v.state i) ?_
      fun results v hv => finish_gate hv.1 batchId results now
    exact (runChannels_frame htol hv).mono (fun _ _ h => h) fun _ _ h => h.1

theorem createDryRun_gate (batchId : Id) (request : DryRunRequest) (user : FlowHubUser)
    (now : Time) (h : GateKept w) :
    (createDryRun u digest hash batchId request user now).Meets gateSolo
      (fun _ => GateKept) (fun _ => GateKept) w := by
  refine Proc.Meets.transact ?_ fun v hv e => hv ▸ ⟨h.log_same rfl rfl, h.log_same rfl rfl⟩
  rintro _ rfl s _ hok
  obtain ⟨_, -, hok⟩ := bind_eq_ok.mp hok
  obtain ⟨changes, -, hok⟩ := bind_eq_ok.mp hok
  obtain ⟨_, hvalid, hok⟩ := bind_eq_ok.mp hok
  obtain ⟨db, hins, hok⟩ := bind_eq_ok.mp hok
  obtain ⟨rfl, -⟩ := Prod.mk.inj (Except.ok.inj hok)
  obtain ⟨-, batch, -, -, -, -, -, hs⟩ := insertBatch_ok hins
  have hitems : db.writeItems = w.state.writeItems ++
      newItems batchId (nextItemId w.state.writeItems) changes := by rw [hs]
  have hlog : GateKept
      (w.log (.commit (.createDryRun request.previewId request.selectedRowIds)) db) := by
    refine h.log rfl (fun item hi => ?_) fun item hi => ?_
    · exact ⟨item, hitems ▸ mem_append_left _ hi, rfl, rfl, rfl, rfl⟩
    rw [hitems] at hi
    rcases mem_append.mp hi with hi | hi
    · exact h.items item hi
    · obtain ⟨change, hc, _, _, rfl⟩ := mem_newItems hi
      exact validateChanges_gated hvalid change hc
  exact ⟨hlog, hlog⟩

theorem approve_gate (batchId : Id) (user : FlowHubUser) (now : Time) (h : GateKept w) :
    (approve hash batchId user now).Meets gateSolo (fun _ => GateKept) (fun _ => GateKept) w := by
  refine Proc.Meets.transact ?_ fun v hv e => hv ▸ ⟨h.log_same rfl rfl, h.log_same rfl rfl⟩
  rintro _ rfl s _ hok
  obtain ⟨_, -, hok⟩ := bind_eq_ok.mp hok
  obtain ⟨-, hok⟩ := guard_ok hok
  obtain ⟨_, -, hok⟩ := bind_eq_ok.mp hok
  cases hok
  exact ⟨h.log_same rfl rfl, h.log_same rfl rfl⟩

/-- The price of an intent moves by at most half of the current price. -/
def WithinHalf (i : WorkspaceWriteIntent) : Prop :=
  ∃ c p : FiniteDouble, i.currentPrice = some (.finite c) ∧ i.targetPrice = some (.finite p) ∧
    2 * |p.val - c.val| ≤ c.val

/-- Where the gate is blind: a zero current price, and a target below half whose
distance from the current price rounds to at most half. -/
def GateBlind (i : WorkspaceWriteIntent) : Prop :=
  ∃ c p : FiniteDouble, i.currentPrice = some (.finite c) ∧ i.targetPrice = some (.finite p) ∧
    (c.val = 0 ∨ 2 * p.val < c.val ∧ 2 * nearest (c.val - p.val) ≤ c.val)

/-- Every intent dispatched for a batch of the Dry Run endpoint carries the prices of
its stored item, and stays within half exactly when the gate was not blind to them. -/
theorem dispatch_within_half {db : Db} {w : World service} (empty : db.writeItems = [])
    (run : Session (LegacyCall u digest hash) (.initial db) w) :
    ∀ i ∈ sent w.past, FromItem w.state i ∧ (WithinHalf i ↔ ¬GateBlind i) := by
  have kept : GateKept w := by
    refine run.invariant ⟨by simp [empty], by simp [sent]⟩ ?_
    rintro _ (⟨batchId, request, user, now⟩ | ⟨batchId, user, now⟩ |
      ⟨fresh, batchId, user, correlationId, now⟩) v hv
    · exact (createDryRun_gate batchId request user now hv).mono (fun _ _ _ => trivial)
        fun _ _ _ => trivial
    · exact (approve_gate batchId user now hv).mono (fun _ _ _ => trivial) fun _ _ _ => trivial
    · exact (execute_gate fresh batchId user correlationId now hv).mono (fun _ _ _ => trivial)
        fun _ _ _ => trivial
  intro i hi
  have hfrom := kept.dispatched i hi
  refine ⟨hfrom, ?_⟩
  obtain ⟨item, hmem, -, -, hcur, hpro⟩ := hfrom
  obtain ⟨c, p, hc, hp, hc0, hp0, hgate⟩ := kept.items item hmem
  rw [hc] at hcur
  rw [hp] at hpro
  have within : WithinHalf i ↔ 2 * |p.val - c.val| ≤ c.val := by
    constructor
    · rintro ⟨c', p', hc', hp', h⟩
      obtain rfl : c = c' := by simpa [hcur] using hc'
      obtain rfl : p = p' := by simpa [hpro] using hp'
      exact h
    · exact fun h => ⟨c, p, hcur, hpro, h⟩
  have blind : GateBlind i ↔ (c.val = 0 ∨ 2 * p.val < c.val ∧ 2 * nearest (c.val - p.val) ≤ c.val) := by
    constructor
    · rintro ⟨c', p', hc', hp', h⟩
      obtain rfl : c = c' := by simpa [hcur] using hc'
      obtain rfl : p = p' := by simpa [hpro] using hp'
      exact h
    · exact fun h => ⟨c, p, hcur, hpro, h⟩
  rw [within, blind]
  rcases hc0.eq_or_lt with hzero | hpos
  · simp only [← hzero, true_or, not_true_eq_false, iff_false, not_le, sub_zero]
    rw [abs_of_pos hp0]
    linarith
  · rw [half_hidden c.onGrid p.onGrid hpos (hgate hpos)]
    simp [hpos.ne', false_or]

namespace Sample

def afterDryRun : World service := (replay calm 9
  (createDryRun .ascii plainDigest plainHash "batch" (request ["row0"]) user 1)
  (.initial (shop [firstPrice "7"]))).2

def afterApproval : World service := (replay calm 9 (approve plainHash "batch" user 2) afterDryRun).2

def afterExecution : World service :=
  (replay calm 20 (execute plainHash fresh "batch" user "corr" 3) afterApproval).2

theorem zero_price_session : Session (LegacyCall .ascii plainDigest plainHash)
    (.initial (shop [firstPrice "7"])) afterExecution :=
  (((Session.start _).call (.dryRun ..) (replay_steps ..)).call (.approve ..)
    (replay_steps ..)).call (.execute ..) (replay_steps ..)

theorem zero_price_sent : (sent afterExecution.past).map (fun i => (i.currentPrice, i.targetPrice)) =
    [(some .zero, some (.ofNat 5 five_le))] := by decide +kernel

end Sample

open Sample

/-- A batch with a zero current price goes all the way to the connector. -/
theorem zero_price_dispatched : ∃ w, Session (LegacyCall .ascii plainDigest plainHash)
    (.initial (shop [firstPrice "7"])) w ∧ ∃ i ∈ sent w.past, ¬WithinHalf i := by
  have hmem : (some Float64.zero, some (Float64.ofNat 5 five_le)) ∈
      (sent afterExecution.past).map (fun i => (i.currentPrice, i.targetPrice)) := by
    rw [zero_price_sent]
    exact mem_singleton.mpr rfl
  obtain ⟨i, hi, hprices⟩ := mem_map.mp hmem
  obtain ⟨hcur, htarget⟩ := Prod.mk.inj hprices
  refine ⟨_, zero_price_session, i, hi, ?_⟩
  rintro ⟨c, p, hc, hp, h⟩
  have hc0 : c.val = (0 : ℕ) :=
    congrArg Subtype.val (Float64.finite.inj (Option.some.inj (hc.symm.trans hcur)))
  have hp5 : p.val = (5 : ℕ) :=
    congrArg Subtype.val (Float64.finite.inj (Option.some.inj (hp.symm.trans htarget)))
  rw [hc0, hp5] at h
  norm_num at h

theorem dispatch_within_half_first_price : (sent afterExecution.past).length = 1 ∧
    ∀ i ∈ sent afterExecution.past, FromItem afterExecution.state i ∧ (WithinHalf i ↔ ¬GateBlind i) :=
  ⟨by simpa using congrArg List.length zero_price_sent, dispatch_within_half rfl zero_price_session⟩

end FlowHub.WritePipeline
