import FlowHub.Workspace.Apply

namespace FlowHub.Workspace

open Python Txn Float64

section

variable (u : Unicode) (hash : Hashing) (settings : Settings)

/-- A stored target: what `save_draft` keeps of a change that `DraftChange` accepted. -/
def Accepted (field : Field) (target : String) : Prop :=
  ∃ change : DraftChange, validDraftChange u change = .ok () ∧ change.field = field ∧
    target = canonicalText u change.targetValue

/-- The number of an intent is the one `values_equal` and `Money` read from the text. -/
def Reads (target : Option String) (x : Option Float64) : Prop :=
  (target = none → x = none) ∧ ∀ text, target = some (canonicalText u text) →
    ∃ b, x = some (.finite b) ∧ number u text = some (.finite b.val)

/-- A target as plain as `float` needs it, whose number is a double's. -/
def Exact (target : String) : Prop :=
  Plain u target ∧ ∃ q, decimal u (withoutCommas target) = some (.finite q) ∧ IsDouble q

/-- The targets of a Listing that are sent as numbers. -/
def ForTargets (P : String → Prop) (group : List ReviewItem) : Prop :=
  ∀ field ∈ [Field.price, .stock], ∀ target ∈ targetOf group field, P target

/-- Everything of an intent but its targets can be read. -/
def intentReady (db : Db) (job : ApplyJob) (listingId : Id) (group : List ReviewItem) : Bool :=
  match intentBasis settings db job listingId group with
  | .ok basis =>
    (currentPrice u basis.cache).isOk && (readOptional u basis.cache.stockQuantity).isOk
  | .error _ => false

instance (text : String) : Decidable (Plain u text) := inferInstanceAs (Decidable (_ ∧ _))

instance (P : String → Prop) [DecidablePred P] (group : List ReviewItem) :
    Decidable (ForTargets P group) := inferInstanceAs (Decidable (∀ _ ∈ _, ∀ _ ∈ _, _))

variable {u hash settings}

theorem finite_of_nonnegative (h : nonnegative n = true) : ∃ q, n = some (.finite q) ∧ 0 ≤ q := by
  unfold nonnegative at h
  split at h
  · exact ⟨_, rfl, of_decide_eq_true h⟩
  · cases h

theorem nonnegative_of_valid (h : validDraftChange u change = .ok ())
    (hfield : change.field ≠ .status) : nonnegative (number u change.targetValue) = true := by
  unfold validDraftChange at h
  obtain ⟨_, -, h⟩ := bind_eq_ok.mp h
  rw [if_pos hfield] at h
  obtain ⟨_, -, h⟩ := bind_eq_ok.mp h
  obtain ⟨_, hnonnegative, -⟩ := bind_eq_ok.mp h
  simpa using refuse_ok.mp hnonnegative

variable {group : List ReviewItem} {field : Field} {target : String} {job : ApplyJob}

/-- An accepted price or stock is a number to `values_equal`. -/
theorem Accepted.number (h : Accepted u field target)
    (hfield : field ≠ .status) : ∃ q, decimal u (withoutCommas target) = some (.finite q) := by
  obtain ⟨change, hvalid, rfl, rfl⟩ := h
  obtain ⟨q, hq, -⟩ := finite_of_nonnegative (nonnegative_of_valid hvalid hfield)
  exact ⟨q, hq⟩

theorem readFloat_iff (law : u.Lawful) (hq : decimal u (withoutCommas target) = some (.finite q)) :
    (∃ x, readFloat u target = .ok x) ↔ Plain u target := by
  constructor
  · rintro ⟨x, hx⟩
    exact float_plain law (found_ok.mp hx)
  · intro h
    exact ⟨_, found_ok.mpr (float_of_decimal h hq)⟩

/-- A missing target is no number; an accepted one is read where it is plain. -/
theorem readOptional_iff (law : u.Lawful) {target : Option String}
    (hfield : field ≠ .status) (h : ∀ t ∈ target, Accepted u field t) :
    (∃ x, readOptional u target = .ok x) ↔ ∀ t ∈ target, Plain u t := by
  cases target with
  | none => simp [readOptional]
  | some t =>
    obtain ⟨q, hq⟩ := (h t rfl).number hfield
    simp only [Option.mem_some_iff, forall_eq', ← readFloat_iff law hq, readOptional, map_eq_ok]
    constructor
    · rintro ⟨_, y, hy, -⟩
      exact ⟨y, hy⟩
    · rintro ⟨y, hy⟩
      exact ⟨some y, y, hy, rfl⟩

/-- It is read as its own number where that is a double's besides. -/
theorem readOptional_reads_iff (law : u.Lawful) {target : Option String}
    (hfield : field ≠ .status) (h : ∀ t ∈ target, Accepted u field t) :
    (∃ x, readOptional u target = .ok x ∧ Reads u target x) ↔ ∀ t ∈ target, Exact u t := by
  cases target with
  | none => simp [readOptional, Reads]
  | some t =>
    obtain ⟨q, hq⟩ := (h t rfl).number hfield
    obtain ⟨change, -, -, htext⟩ := h t rfl
    simp only [Option.mem_some_iff, forall_eq', readOptional, map_eq_ok]
    constructor
    · rintro ⟨_, ⟨y, hy, rfl⟩, hreads⟩
      have hplain := (readFloat_iff law hq).mp ⟨y, hy⟩
      obtain ⟨b, hb, hnumber⟩ := hreads.2 change.targetValue (congrArg some htext)
      have hrounded := found_ok.mp hy
      rw [float_of_decimal hplain hq] at hrounded
      obtain rfl : b.val = q := by
        rw [number, ← htext, hq] at hnumber
        simpa using hnumber.symm
      refine ⟨hplain, b.val, hq, ofRat_exact_iff.mp ⟨b, ?_, rfl⟩⟩
      rw [Option.some.inj hrounded, Option.some.inj hb]
    · rintro ⟨hplain, r, hr, hdouble⟩
      obtain ⟨b, hb, rfl⟩ := ofRat_exact_iff.mpr hdouble
      refine ⟨_, ⟨.finite b, found_ok.mpr ?_, rfl⟩, nofun, fun text htext => ⟨b, rfl, ?_⟩⟩
      · rw [float_of_decimal hplain hr, hb]
      · rw [number, ← Option.some.inj htext, hr]

theorem forTargets_iff {P : String → Prop} : ForTargets P group ↔
    (∀ t ∈ targetOf group .price, P t) ∧ ∀ t ∈ targetOf group .stock, P t := by
  simp [ForTargets]

/-- With the rest of an intent at hand, the two targets decide whether there is one. -/
theorem writeIntent_iff {db : Db} {listingId : Id} {selectionChecksum : String} {P Q : Option Float64 → Prop}
    (ready : intentReady u settings db job listingId group = true) :
    (∃ intent, writeIntent u hash settings db job listingId group selectionChecksum = .ok intent ∧
        intent.listingId = listingId ∧ P intent.targetPrice ∧ Q intent.targetStock) ↔
      (∃ x, readOptional u (targetOf group .price) = .ok x ∧ P x) ∧
        ∃ y, readOptional u (targetOf group .stock) = .ok y ∧ Q y := by
  constructor
  · rintro ⟨intent, hintent, -, hp, hq⟩
    obtain ⟨basis, -, hintent⟩ := bind_eq_ok.mp hintent
    obtain ⟨n, hn, hintent⟩ := bind_eq_ok.mp hintent
    cases hintent
    obtain ⟨-, -, hprice, hstock⟩ := intentNumbers_ok.mp hn
    exact ⟨⟨_, hprice, hp⟩, _, hstock, hq⟩
  · rintro ⟨⟨x, hprice, hp⟩, y, hstock, hq⟩
    unfold intentReady at ready
    split at ready
    · rename_i basis hbasis
      obtain ⟨hcurrent, hquantity⟩ := Bool.and_eq_true_iff.mp ready
      cases hc : currentPrice u basis.cache with
      | error e => simp [hc, Except.isOk, Except.toBool] at hcurrent
      | ok c =>
        cases hs : readOptional u basis.cache.stockQuantity with
        | error e => simp [hs, Except.isOk, Except.toBool] at hquantity
        | ok s =>
          refine ⟨newIntent hash db job group selectionChecksum basis ⟨c, s, x, y⟩, ?_,
            intentBasis_listing hbasis, hp, hq⟩
          exact bind_eq_ok.mpr ⟨basis, hbasis, bind_eq_ok.mpr
            ⟨_, intentNumbers_ok.mpr ⟨hc, hs, hprice, hstock⟩, rfl⟩⟩
    · cases ready

/-- A manifest that still is the confirmed one is dispatched with the intents there are. -/
theorem planApply_dispatch {fresh : ApplyFresh} {workerId : String} {user : FlowHubUser}
    {a : Approved} {review : Review} {dryRun : DryRun} {db db' : Db}
    {command : WorkspaceWriteBatchCommand} (hjob : db.applyJob a.job.id = some job)
    (same : (manifestDocument settings db review a.items dryRun.id dryRun.evidenceChecksum).map
      (fun drawn => some (hash.json drawn.1)) = .ok job.manifestChecksum) :
    planApply u hash settings fresh workerId user a review dryRun db = .ok (db', .dispatch command) ↔
      db' = db ∧ ∃ intents, writeIntents u hash settings db job a.items a.selectionChecksum =
        .ok intents ∧ command = applyCommand a job intents workerId fresh.token user := by
  obtain ⟨drawn, hdrawn, hsame⟩ := map_eq_ok.mp same
  unfold planApply
  constructor
  · intro h
    obtain ⟨_, hd, h⟩ := bind_eq_ok.mp h
    obtain rfl := Except.ok.inj (hdrawn.symm.trans hd)
    obtain ⟨_, hj, h⟩ := bind_eq_ok.mp h
    obtain rfl := Option.some.inj (hjob.symm.trans (found_ok.mp hj))
    rw [if_neg (not_not.mpr hsame)] at h
    obtain ⟨intents, hintents, h⟩ := bind_eq_ok.mp h
    obtain ⟨rfl, hcommand⟩ := Prod.mk.inj (Except.ok.inj h)
    exact ⟨rfl, intents, hintents, (Planned.dispatch.inj hcommand).symm⟩
  · rintro ⟨rfl, intents, hintents, rfl⟩
    refine bind_eq_ok.mpr ⟨drawn, hdrawn, bind_eq_ok.mpr ⟨job, found_ok.mpr hjob, ?_⟩⟩
    rw [if_neg (not_not.mpr hsame)]
    exact bind_eq_ok.mpr ⟨intents, hintents, rfl⟩

theorem targetOf_some (h : targetOf group field = some target) :
    ∃ item ∈ group, item.field = field ∧ item.targetValue = target := by
  obtain ⟨item, hlast, htarget⟩ := Option.map_eq_some_iff.mp h
  have hmem := List.mem_filter.mp (List.mem_of_getLast? hlast)
  exact ⟨item, hmem.1, of_decide_eq_true hmem.2, htarget⟩

/-- The dispatches a plan can end in, by what its intents carry. -/
theorem planApply_iff (fresh : ApplyFresh) (workerId : String) (user : FlowHubUser)
    {a : Approved} {review : Review} {dryRun : DryRun} {db : Db}
    {P : Option String → Option Float64 → Prop}
    (hjob : db.applyJob a.job.id = some job)
    (same : (manifestDocument settings db review a.items dryRun.id dryRun.evidenceChecksum).map
      (fun drawn => some (hash.json drawn.1)) = .ok job.manifestChecksum)
    (ready : ∀ g ∈ groupedBy ReviewItem.listingId a.items, intentReady u settings db job g.1 g.2 = true) :
    (∃ command, planApply u hash settings fresh workerId user a review dryRun db =
          .ok (db, .dispatch command) ∧
        List.Forall₂ (fun g intent => intent.listingId = g.1 ∧
            P (targetOf g.2 .price) intent.targetPrice ∧ P (targetOf g.2 .stock) intent.targetStock)
          (groupedBy ReviewItem.listingId a.items) command.intents) ↔
      ∀ g ∈ groupedBy ReviewItem.listingId a.items,
        (∃ x, readOptional u (targetOf g.2 .price) = .ok x ∧ P (targetOf g.2 .price) x) ∧
          ∃ y, readOptional u (targetOf g.2 .stock) = .ok y ∧ P (targetOf g.2 .stock) y := by
  constructor
  · rintro ⟨command, hplan, hall⟩ g hg
    obtain ⟨-, intents, hintents, rfl⟩ := (planApply_dispatch hjob same).mp hplan
    exact (writeIntent_iff (ready g hg)).mp (mapM_ok_iff.mp ⟨intents, hintents, hall⟩ g hg)
  · intro h
    obtain ⟨intents, hintents, hall⟩ := mapM_ok_iff.mpr
      fun g hg => (writeIntent_iff (ready g hg)).mpr (h g hg)
    exact ⟨_, (planApply_dispatch hjob same).mpr ⟨rfl, intents, hintents, rfl⟩, hall⟩

/-- An Apply whose manifest still stands goes out exactly where each target is plain, and
with the numbers the Dry Run compared exactly where each is a double's besides. -/
theorem dispatched_numbers_iff (law : u.Lawful) {fresh : ApplyFresh} {workerId : String}
    {user : FlowHubUser} {a : Approved} {review : Review} {dryRun : DryRun} {db : Db}
    {job : ApplyJob} (hjob : db.applyJob a.job.id = some job)
    (same : (manifestDocument settings db review a.items dryRun.id dryRun.evidenceChecksum).map
      (fun drawn => some (hash.json drawn.1)) = .ok job.manifestChecksum)
    (ready : ∀ g ∈ groupedBy ReviewItem.listingId a.items, intentReady u settings db job g.1 g.2 = true)
    (accepted : ∀ item ∈ a.items, item.field ≠ .status → Accepted u item.field item.targetValue) :
    ((∃ command, planApply u hash settings fresh workerId user a review dryRun db =
        .ok (db, .dispatch command)) ↔
      ∀ g ∈ groupedBy ReviewItem.listingId a.items, ForTargets (Plain u) g.2) ∧
    ((∃ command, planApply u hash settings fresh workerId user a review dryRun db =
          .ok (db, .dispatch command) ∧
        List.Forall₂ (fun g intent => intent.listingId = g.1 ∧
            Reads u (targetOf g.2 .price) intent.targetPrice ∧
            Reads u (targetOf g.2 .stock) intent.targetStock)
          (groupedBy ReviewItem.listingId a.items) command.intents) ↔
      ∀ g ∈ groupedBy ReviewItem.listingId a.items, ForTargets (Exact u) g.2) := by
  have targets : ∀ g ∈ groupedBy ReviewItem.listingId a.items, ∀ field, field ≠ .status →
      ∀ t ∈ targetOf g.2 field, Accepted u field t := by
    intro g hg field hfield t ht
    obtain ⟨item, hitem, rfl, rfl⟩ := targetOf_some ht
    rw [(mem_groupedBy.mp hg).2] at hitem
    exact accepted item (List.mem_filter.mp hitem).1 hfield
  constructor
  · have hplan := planApply_iff (P := fun _ _ => True) fresh workerId user hjob same ready
    simp only [and_true] at hplan
    constructor
    · rintro ⟨command, hdispatch⟩ g hg
      obtain ⟨-, intents, hintents, rfl⟩ := (planApply_dispatch hjob same).mp hdispatch
      have hall := (mapM_ok.mp hintents).imp fun _ _ h => writeIntent_listing h
      obtain ⟨hprice, hstock⟩ := hplan.mp ⟨_, hdispatch, hall⟩ g hg
      exact forTargets_iff.mpr
        ⟨(readOptional_iff law (by decide) (targets g hg .price (by decide))).mp hprice,
          (readOptional_iff law (by decide) (targets g hg .stock (by decide))).mp hstock⟩
    · intro h
      obtain ⟨command, hdispatch, -⟩ := hplan.mpr fun g hg =>
        have hplain := forTargets_iff.mp (h g hg)
        ⟨(readOptional_iff law (by decide) (targets g hg .price (by decide))).mpr hplain.1,
          (readOptional_iff law (by decide) (targets g hg .stock (by decide))).mpr hplain.2⟩
      exact ⟨command, hdispatch⟩
  · rw [planApply_iff fresh workerId user hjob same ready]
    refine forall₂_congr fun g hg => ?_
    rw [forTargets_iff, readOptional_reads_iff law (by decide) (targets g hg .price (by decide)),
      readOptional_reads_iff law (by decide) (targets g hg .stock (by decide))]

end

namespace Sample

/-- The Apply of one stock target on a Listing that shows 3. -/
def stockApply (target : String) (n : Nat) : Program ApplyJob × World service :=
  applied (fun _ _ => "3") [⟨"7", .stock, "3", target⟩] ["item0"] n

def stockDryRun (target : String) : Db :=
  (verified (fun _ _ => "3") [⟨"7", .stock, "3", target⟩] ["item0"]).state

/-- The job of an Apply about to be planned, and what the plan is for. -/
def stockPlan (target : String) : Option (Approved × Review × DryRun × ApplyJob) := do
  let requested ← (requestApply .ascii documents settings applyFresh
    (request (stockDryRun target)) owner (stockDryRun target)).toOption
  let db := (stockApply target 6).2.state
  let .approved a := requested.2 | none
  let review ← reviewOf db a.job.reviewId
  let dryRun ← dryRunOf db a.manifest.dryRunId
  let job ← db.applyJob a.job.id
  pure (a, review, dryRun, job)

theorem stockPlan_isSome : (stockPlan "5").isSome = true := by decide +kernel

def fivePlan : Approved × Review × DryRun × ApplyJob := (stockPlan "5").get stockPlan_isSome

end Sample

open Sample List Option Except

/-- A stock with a group separator is accepted, dispositioned and confirmed, and its Apply
fails with the locks held and the job running. -/
theorem separated_stock_fails_apply :
    (validDraftChange .ascii ⟨"7", "7", "woocommerce:primary", .stock, "1,250", none, none⟩ = .ok () ∧
      number .ascii "1,250" = some (.finite 1250)) ∧
    ((stockDryRun "1,250").dryRuns.map (·.status) = [.passed] ∧
      (stockDryRun "1,250").dryRunScopes.map (·.disposition) = [.write]) ∧
    Steps (applySelected .ascii Sample.documents settings applyFresh
        (Sample.request (stockDryRun "1,250")) owner)
      (.initial (stockDryRun "1,250"))
      (.raise (.valueError "could not convert string to float: '1,250'"))
      (stockApply "1,250" 60).2 ∧
    (stockApply "1,250" 6).2.state.workspaceLocks.map (·.listingId) = ["7"] ∧
    (stockApply "1,250" 6).2.state.applyJobs.map (·.status) = [.running] ∧
    (stockApply "1,250" 60).2.state.applyJobs.map (·.status) = [.failed] := by
  have facts : ((stockDryRun "1,250").dryRuns.map (·.status) = [.passed] ∧
      (stockDryRun "1,250").dryRunScopes.map (·.disposition) = [.write]) ∧
    (stockApply "1,250" 60).1.fault = some (.valueError "could not convert string to float: '1,250'") ∧
    (stockApply "1,250" 6).2.state.workspaceLocks.map (·.listingId) = ["7"] ∧
    (stockApply "1,250" 6).2.state.applyJobs.map (·.status) = [.running] ∧
    (stockApply "1,250" 60).2.state.applyJobs.map (·.status) = [.failed] := by
    decide +kernel
  obtain ⟨passed, raised, held, running, failed⟩ := facts
  exact ⟨by decide +kernel, passed, replay_raised raised, held, running, failed⟩

theorem dispatched_numbers_iff_five :
    ∃ command, planApply .ascii Sample.documents settings applyFresh "worker"
      owner fivePlan.1 fivePlan.2.1 fivePlan.2.2.1
      (stockApply "5" 6).2.state = .ok ((stockApply "5" 6).2.state, .dispatch command) := by
  have facts : (stockApply "5" 6).2.state.applyJob fivePlan.1.job.id = some fivePlan.2.2.2 ∧
      (∀ item ∈ fivePlan.1.items,
        validDraftChange .ascii ⟨"7", "7", "woocommerce:primary", item.field, item.targetValue,
          none, none⟩ = .ok () ∧ item.targetValue = canonicalText .ascii item.targetValue) ∧
      (manifestDocument settings (stockApply "5" 6).2.state fivePlan.2.1
          fivePlan.1.items fivePlan.2.2.1.id
          fivePlan.2.2.1.evidenceChecksum).map (fun drawn =>
            some (Sample.documents.json drawn.1)) = .ok fivePlan.2.2.2.manifestChecksum ∧
      (∀ g ∈ groupedBy ReviewItem.listingId fivePlan.1.items,
        intentReady .ascii settings (stockApply "5" 6).2.state fivePlan.2.2.2
          g.1 g.2 = true) ∧
      ∀ g ∈ groupedBy ReviewItem.listingId fivePlan.1.items, ForTargets (Plain .ascii) g.2 := by
    decide +kernel
  obtain ⟨hjob, hvalid, same, ready, plain⟩ := facts
  have accepted : ∀ item ∈ fivePlan.1.items, item.field ≠ .status →
      Accepted .ascii item.field item.targetValue := fun item hitem _ =>
    ⟨_, (hvalid item hitem).1, rfl, (hvalid item hitem).2⟩
  exact (dispatched_numbers_iff Unicode.ascii_lawful hjob same ready accepted).1.mpr plain

end FlowHub.Workspace
