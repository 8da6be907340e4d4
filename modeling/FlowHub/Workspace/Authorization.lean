import FlowHub.Workspace.Session

namespace FlowHub.Workspace

open Python Txn WritePipeline List Option

/-- What is selected of a Review, and under which version. -/
def chosen (db : Db) (reviewId : Id) : List ReviewSelection × Option Nat :=
  (selectionsOf db reviewId, (reviewOf db reviewId).map (·.selectionVersion))

/-- The Dry Run was stored in this history, and from then on nothing else was selected. -/
def VerifiedSince (w : World service) (d : DryRun) : Prop :=
  ∃ before e after, w.past = before ++ e :: after ∧ e.label = .commit (.closeDryRun d.id) ∧
    ∀ x ∈ e :: after, chosen x.before d.reviewId = chosen w.state d.reviewId

variable {w : World service} {intent : WorkspaceWriteIntent} {hash : Hashing} {field : Field}
  {scopes : List Scope} {d : DryRun}

theorem VerifiedSince.log (h : VerifiedSince w d) (hid : d'.id = d.id) (hreview : d'.reviewId = d.reviewId)
    (same : chosen s d.reviewId = chosen w.state d.reviewId) : VerifiedSince (w.log l s) d' := by
  obtain ⟨before, e, after, hpast, hlabel, hchosen⟩ := h
  refine ⟨before, e, after ++ [⟨w.state, l⟩], ?_, by rw [hid]; exact hlabel, fun x hx => ?_⟩
  · rw [World.log_past, hpast, append_assoc, cons_append]
  rw [World.log_state, hreview, same]
  rw [← cons_append] at hx
  rcases mem_append.mp hx with hx | hx
  · exact hchosen x hx
  · rw [mem_singleton.mp hx]

variable {u : Unicode}

def Asks (u : Unicode) (item : ReviewItem) (intent : WorkspaceWriteIntent) : Prop :=
  match item.field with
  | .price => ∃ x, float u item.targetValue = some x ∧ intent.targetPrice = some x
  | .stock => ∃ x, float u item.targetValue = some x ∧ intent.targetStock = some x
  | .status => intent.targetStatus = some item.targetValue

/-- Whether an intent is to write a field. -/
def hasTarget (intent : WorkspaceWriteIntent) : Field → Bool
  | .price => intent.targetPrice.isSome
  | .stock => intent.targetStock.isSome
  | .status => intent.targetStatus.isSome

theorem targetOf_mem (h : targetOf group field = some target) :
    ∃ item ∈ group, item.field = field ∧ item.targetValue = target := by
  obtain ⟨item, hlast, rfl⟩ := map_eq_some_iff.mp h
  obtain ⟨hmem, hfield⟩ := mem_filter.mp (mem_of_getLast? hlast)
  exact ⟨item, hmem, of_decide_eq_true hfield, rfl⟩

theorem readOptional_some
    (h : readOptional u target = .ok (some x)) : ∃ t, target = some t ∧ float u t = some x := by
  cases target with
  | none => cases h
  | some t =>
    obtain ⟨y, hy, heq⟩ := map_eq_ok.mp h
    cases heq
    exact ⟨t, rfl, found_ok.mp hy⟩

/-- Every field an intent writes is asked for by an item. -/
theorem Targets.asks (h : Targets u items intent) (hf : hasTarget intent field = true) :
    ∃ item ∈ items, item.listingId = intent.listingId ∧ item.field = field ∧ Asks u item intent := by
  obtain ⟨group, hsub, hlisting, hprice, hstock, hstatus⟩ := h
  cases field with
  | price =>
    obtain ⟨x, hx⟩ := isSome_iff_exists.mp hf
    rw [hx] at hprice
    obtain ⟨t, ht, hread⟩ := readOptional_some hprice
    obtain ⟨item, hitem, hfield, rfl⟩ := targetOf_mem ht
    refine ⟨item, hsub hitem, hlisting item hitem, hfield, ?_⟩
    rw [Asks, hfield]
    exact ⟨x, hread, hx⟩
  | stock =>
    obtain ⟨x, hx⟩ := isSome_iff_exists.mp hf
    rw [hx] at hstock
    obtain ⟨t, ht, hread⟩ := readOptional_some hstock
    obtain ⟨item, hitem, hfield, rfl⟩ := targetOf_mem ht
    refine ⟨item, hsub hitem, hlisting item hitem, hfield, ?_⟩
    rw [Asks, hfield]
    exact ⟨x, hread, hx⟩
  | status =>
    obtain ⟨t, ht⟩ := isSome_iff_exists.mp hf
    rw [ht] at hstatus
    obtain ⟨item, hitem, hfield, rfl⟩ := targetOf_mem hstatus
    refine ⟨item, hsub hitem, hlisting item hitem, hfield, ?_⟩
    rw [Asks, hfield]
    exact ht

/-- An item that may be written at this point of the history: an eligible one of the current
selection of a Review that is ready and current, verified as a write by a Dry Run of that very
selection that passed. -/
structure Authorised (w : World service) (command : WorkspaceWriteBatchCommand)
    (item : ReviewItem) : Prop where
  own : item ∈ w.state.reviewItems ∧ item.reviewId = command.reviewId
  eligible : item.eligible = true ∧ item.errors = []
  selected : item.id ∈ selectedIdsOf w.state command.reviewId
  review : ∃ review, reviewOf w.state command.reviewId = some review ∧ review.status = .ready ∧
    ∃ draft, draftOf w.state command.workspaceId = some draft ∧
      draft.currentRevisionId = some review.draftRevisionId
  verified : ∃ d ∈ w.state.dryRuns, d.reviewId = command.reviewId ∧ d.status = .passed ∧
    (∃ scope ∈ w.state.dryRunScopes, scope.dryRunId = d.id ∧ scope.reviewItemId = item.id ∧
      scope.disposition = .write) ∧ VerifiedSince w d

/-- Dry Runs and manifests are about what they were made of, and nothing was handed to the
write pipeline but what they authorise. -/
structure Vetted (u : Unicode) (w : World service) : Prop where
  reviewed : ∀ d ∈ w.state.dryRuns, ∃ r, reviewOf w.state d.reviewId = some r ∧
    d.selectionVersion ≤ r.selectionVersion
  current : ∀ d ∈ w.state.dryRuns, ∀ r, reviewOf w.state d.reviewId = some r →
    d.selectionVersion = r.selectionVersion → VerifiedSince w d ∧
      ∀ scope ∈ w.state.dryRunScopes, scope.dryRunId = d.id →
        scope.reviewItemId ∈ selectedIdsOf w.state d.reviewId
  scopes : ∀ scope ∈ w.state.dryRunScopes, Table.has DryRun.id w.state.dryRuns scope.dryRunId = true
  operations : ∀ o ∈ w.state.applyManifestOperations,
    Table.has ApplyManifest.id w.state.applyManifests o.manifestId = true
  drawn : ∀ m ∈ w.state.applyManifests, ∀ o ∈ w.state.applyManifestOperations,
    o.manifestId = m.id → ∃ scope ∈ w.state.dryRunScopes, m.dryRunId = some scope.dryRunId ∧
      scope.reviewItemId = o.reviewItemId ∧ scope.disposition = .write
  handed : ∀ past e, past ++ [e] <+: w.past → ∀ command, Concerns command e.label →
    ∀ intent ∈ command.intents, ∀ field, hasTarget intent field = true →
      ∃ item, item.listingId = intent.listingId ∧ item.field = field ∧ Asks u item intent ∧
        Authorised ⟨e.before, past⟩ command item

theorem chosen_congr (h : Reruns s t)
    (hr : reviewOf s d.reviewId = some r) (hr' : reviewOf t d.reviewId = some r')
    (same : r'.selectionVersion = r.selectionVersion) :
    chosen t d.reviewId = chosen s d.reviewId := by
  obtain ⟨r'', hr'', -, -, hsel⟩ := h.reviews _ r hr
  obtain rfl := some.inj (hr'.symm.trans hr'')
  rw [chosen, chosen, hr, hr', hsel same, map_some, map_some, same]

theorem selectedIdsOf_chosen {id : Id} (h : chosen t id = chosen s id) :
    selectedIdsOf t id = selectedIdsOf s id := by
  have hsel : selectionsOf t id = selectionsOf s id := congrArg Prod.fst h
  rw [selectedIdsOf, selectedIdsOf, hsel]

/-- The history of handed commands is kept by a step that concerns no command. -/
theorem handed_foreign (hl : Foreign l)
    {P : List (Event service) → Event service → WorkspaceWriteBatchCommand → Prop}
    (h : ∀ past e, past ++ [e] <+: w.past → ∀ command, Concerns command e.label → P past e command) :
    ∀ past e, past ++ [e] <+: (w.log l s).past → ∀ command, Concerns command e.label → P past e command := by
  intro past e hpast command hconcerns
  rcases prefix_concat_iff.mp hpast with heq | hprefix
  · obtain ⟨-, rfl⟩ := append_inj' heq rfl |>.imp id singleton_inj.mp
    exact absurd hconcerns (hl command)
  · exact h past e hprefix command hconcerns

/-- What does not start from a new Dry Run keeps everything but the handed commands. -/
theorem Vetted.reruns (h : Vetted u w) (k : Reruns w.state s)
    (handed : ∀ past e, past ++ [e] <+: (w.log l s).past → ∀ command,
      Concerns command e.label → ∀ intent ∈ command.intents, ∀ field,
        hasTarget intent field = true → ∃ item, item.listingId = intent.listingId ∧
          item.field = field ∧ Asks u item intent ∧ Authorised ⟨e.before, past⟩ command item) :
    Vetted u (w.log l s) := by
  obtain ⟨f, hf, hruns⟩ := k.runs
  have hcore : ∀ d' ∈ s.dryRuns, ∃ d ∈ w.state.dryRuns, d'.id = d.id ∧
      d'.reviewId = d.reviewId ∧ d'.selectionVersion = d.selectionVersion := by
    intro d' hd'
    rw [hruns] at hd'
    obtain ⟨d, hd, rfl⟩ := mem_map.mp hd'
    exact ⟨d, hd, hf d⟩
  refine ⟨?_, ?_, ?_, ?_, ?_, handed⟩
  · intro d' hd'
    obtain ⟨d, hd, -, hreview, hversion⟩ := hcore d' hd'
    obtain ⟨r, hr, hle⟩ := h.reviewed d hd
    obtain ⟨r', hr', -, hle', -⟩ := k.reviews _ r hr
    rw [hreview, hversion]
    exact ⟨r', hr', hle.trans hle'⟩
  · intro d' hd' r' hr' hsame
    obtain ⟨d, hd, hid, hreview, hversion⟩ := hcore d' hd'
    obtain ⟨r, hr, hle⟩ := h.reviewed d hd
    obtain ⟨r'', hr'', -, hle', hsel⟩ := k.reviews _ r hr
    rw [World.log_state, hreview] at hr'
    obtain rfl := some.inj (hr'.symm.trans hr'')
    have hequal : r'.selectionVersion = r.selectionVersion := by omega
    have hchosen := chosen_congr k hr hr' hequal
    obtain ⟨hsince, hitems⟩ := h.current d hd r hr (by omega)
    refine ⟨hsince.log hid hreview hchosen, fun scope hscope hrun => ?_⟩
    rw [World.log_state, k.scopes] at hscope
    rw [World.log_state, hreview, selectedIdsOf_chosen hchosen]
    exact hitems scope hscope (hrun.trans hid)
  · intro scope hscope
    rw [World.log_state, k.scopes] at hscope
    obtain ⟨d, hd, hid⟩ := Table.has_iff.mp (h.scopes scope hscope)
    rw [World.log_state, hruns]
    exact Table.has_iff.mpr ⟨f d, mem_map_of_mem hd, (hf d).1.trans hid⟩
  · rw [World.log_state, k.operations, k.manifests]
    exact h.operations
  · rw [World.log_state, k.operations, k.manifests, k.scopes]
    exact h.drawn

def Backed (db : Db) : Prop :=
  (∀ o ∈ db.applyManifestOperations, Table.has ApplyManifest.id db.applyManifests o.manifestId = true) ∧
  ∀ m ∈ db.applyManifests, ∀ o ∈ db.applyManifestOperations, o.manifestId = m.id →
    ∃ scope ∈ db.dryRunScopes, m.dryRunId = some scope.dryRunId ∧
      scope.reviewItemId = o.reviewItemId ∧ scope.disposition = .write

theorem Closed.backed (h : Closed hash settings fresh opened scopes now s t) (hs : Backed s) : Backed t := by
  obtain ⟨hknown, hdrawn⟩ := hs
  have hscopes : t.dryRunScopes = s.dryRunScopes ++ scopes.map (Scope.row hash fresh.dryRun) := by
    obtain ⟨_, _, rfl⟩ := h.stored
    rfl
  have hmanifest := h.manifest
  split at hmanifest
  · obtain ⟨hunused, document, payloads, -, hmanifests, hoperations⟩ := hmanifest
    have hfresh : ∀ m ∈ s.applyManifests, m.id ≠ fresh.manifest :=
      Table.get_none.mp (Table.has_false.mp hunused)
    constructor
    · intro o ho
      rw [hoperations] at ho
      rw [hmanifests, Table.has_iff]
      rcases mem_append.mp ho with ho | ho
      · obtain ⟨m, hm, hid⟩ := Table.has_iff.mp (hknown o ho)
        exact ⟨m, mem_append_left _ hm, hid⟩
      · obtain ⟨item, -, rfl⟩ := mem_map.mp ho
        exact ⟨_, mem_append_right _ (mem_singleton.mpr rfl), rfl⟩
    · intro m hm o ho hid
      rw [hmanifests] at hm
      rw [hoperations] at ho
      rw [hscopes]
      rcases mem_append.mp ho with ho | ho
      · rcases mem_append.mp hm with hm | hm
        · obtain ⟨scope, hscope, hrest⟩ := hdrawn m hm o ho hid
          exact ⟨scope, mem_append_left _ hscope, hrest⟩
        · -- No operation was there before its manifest.
          rw [mem_singleton.mp hm] at hid
          obtain ⟨m', hm', hid'⟩ := Table.has_iff.mp (hknown o ho)
          exact absurd (hid'.trans hid) (hfresh m' hm')
      · obtain ⟨item, hitem, rfl⟩ := mem_map.mp ho
        obtain ⟨scope, hscope, rfl⟩ := mem_map.mp hitem
        obtain ⟨hscope, hwrite⟩ := mem_filter.mp hscope
        rcases mem_append.mp hm with hm | hm
        · exact absurd hid.symm (hfresh m hm)
        · rw [mem_singleton.mp hm]
          exact ⟨_, mem_append_right _ (mem_map_of_mem hscope), rfl, rfl, of_decide_eq_true hwrite⟩
  · obtain ⟨hmanifests, hoperations⟩ := hmanifest
    rw [Backed, hmanifests, hoperations, hscopes]
    refine ⟨hknown, fun m hm o ho hid => ?_⟩
    obtain ⟨scope, hscope, hrest⟩ := hdrawn m hm o ho hid
    exact ⟨scope, mem_append_left _ hscope, hrest⟩

theorem Vetted.closed (h : Vetted u w) (label : l = .commit (.closeDryRun fresh.dryRun))
    (reading : Reading w.state opened) (own : ∀ scope ∈ scopes, scope.item ∈ opened.items)
    (k : Closed hash settings fresh opened scopes now w.state t)
    (handed : ∀ past e, past ++ [e] <+: (w.log l t).past → ∀ command,
      Concerns command e.label → ∀ intent ∈ command.intents, ∀ field,
        hasTarget intent field = true → ∃ item, item.listingId = intent.listingId ∧
          item.field = field ∧ Asks u item intent ∧ Authorised ⟨e.before, past⟩ command item) :
    Vetted u (w.log l t) := by
  have hbacked := k.backed ⟨h.operations, h.drawn⟩
  have hnew : ∀ d ∈ w.state.dryRuns, d.id ≠ fresh.dryRun :=
    Table.get_none.mp (Table.has_false.mp k.unused)
  obtain ⟨f, hf, hruns⟩ := invalidated_runs w.state opened.review.id
  obtain ⟨manifests, operations, rfl⟩ := k.stored
  have hsplit : ∀ {d'}, d' ∈ (invalidateDryRuns w.state opened.review.id).dryRuns ++
      [newDryRun hash fresh.dryRun opened scopes now] →
      (∃ d ∈ w.state.dryRuns, d' = f d) ∨ d' = newDryRun hash fresh.dryRun opened scopes now := by
    intro d' hd'
    rw [hruns] at hd'
    rcases mem_append.mp hd' with hd' | hd'
    · obtain ⟨d, hd, rfl⟩ := mem_map.mp hd'
      exact .inl ⟨d, hd, rfl⟩
    · exact .inr (mem_singleton.mp hd')
  refine ⟨?_, ?_, ?_, hbacked.1, hbacked.2, handed⟩
  · intro d' hd'
    rcases hsplit hd' with ⟨d, hd, rfl⟩ | rfl
    · obtain ⟨-, hreview, hversion⟩ := hf d
      rw [hreview, hversion]
      exact h.reviewed d hd
    · exact ⟨opened.review, reading.found, le_rfl⟩
  · intro d' hd' r hr hsame
    rcases hsplit hd' with ⟨d, hd, rfl⟩ | rfl
    · obtain ⟨hid, hreview, hversion⟩ := hf d
      rw [hreview] at hr
      obtain ⟨hsince, hitems⟩ := h.current d hd r hr (hversion.symm.trans hsame)
      refine ⟨hsince.log hid hreview rfl, fun scope hscope hrun => ?_⟩
      rw [hreview]
      rcases mem_append.mp hscope with hscope | hscope
      · exact hitems scope hscope (hrun.trans hid)
      · obtain ⟨x, -, rfl⟩ := mem_map.mp hscope
        exact absurd (hid.symm.trans hrun.symm) (hnew d hd)
    · refine ⟨⟨w.past, ⟨w.state, l⟩, [], rfl, label, fun x hx => ?_⟩, fun scope hscope hrun => ?_⟩
      · rw [mem_singleton.mp hx]
        rfl
      · rcases mem_append.mp hscope with hscope | hscope
        · obtain ⟨d, hd, hid⟩ := Table.has_iff.mp (h.scopes scope hscope)
          exact absurd (hid.trans hrun) (hnew d hd)
        · obtain ⟨x, hx, rfl⟩ := mem_map.mp hscope
          have hitem := own x hx
          rw [reading.items] at hitem
          have hsel := of_decide_eq_true (mem_filter.mp hitem).2
          exact (perm_insertionSort (· ≤ ·) _).mem_iff.mpr hsel
  · intro scope hscope
    rw [Table.has_iff]
    rcases mem_append.mp hscope with hscope | hscope
    · obtain ⟨d, hd, hid⟩ := Table.has_iff.mp (h.scopes scope hscope)
      refine ⟨f d, mem_append_left _ ?_, (hf d).1.trans hid⟩
      rw [hruns]
      exact mem_map_of_mem hd
    · obtain ⟨x, -, rfl⟩ := mem_map.mp hscope
      exact ⟨_, mem_append_right _ (mem_singleton.mpr rfl), rfl⟩

theorem Vetted.authorised (h : Vetted u w) (k : Cleared u w.state command review manifest dryRun)
    (hi : intent ∈ command.intents)
    (hf : hasTarget intent field = true) : ∃ item, item.listingId = intent.listingId ∧
      item.field = field ∧ Asks u item intent ∧ Authorised w command item := by
  obtain ⟨item, hitem, hlisting, hfield, hasks⟩ := (k.intents intent hi).asks hf
  obtain ⟨hitem, hid⟩ := mem_filter.mp hitem
  obtain ⟨hmem, hreview⟩ := mem_filter.mp hitem
  obtain ⟨o, ho, hoid⟩ := mem_map.mp (of_decide_eq_true hid)
  obtain ⟨ho, homanifest⟩ := mem_filter.mp ho
  obtain ⟨scope, hscope, hrun, hscopeItem, hwrite⟩ :=
    h.drawn manifest k.known o ho (of_decide_eq_true homanifest)
  have hdryRun := k.verified
  rw [hrun] at hdryRun
  obtain ⟨hd, hdid⟩ := Table.get_some hdryRun
  have hrid : review.id = command.reviewId := (Table.get_some k.found).2
  have hfound : reviewOf w.state dryRun.reviewId = some review := by
    rw [k.own, hrid]
    exact k.found
  obtain ⟨hsince, hitems⟩ := h.current dryRun hd review hfound k.version
  have hselected : item.id ∈ selectedIdsOf w.state command.reviewId := by
    have hsel := hitems scope hscope hdid.symm
    rwa [hscopeItem, hoid, k.own, hrid] at hsel
  refine ⟨item, hlisting, hfield, hasks, ⟨hmem, of_decide_eq_true hreview⟩, ?_, hselected,
    ⟨review, k.found, k.ready, k.current⟩, dryRun, hd, k.own.trans hrid, k.passed,
    ⟨scope, hscope, hdid.symm, hscopeItem.trans hoid, hwrite⟩, hsince⟩
  exact k.eligible item (mem_filter.mpr ⟨hitem, decide_eq_true hselected⟩)

theorem Vetted.step {settings : Settings} {v : World service} (h : Vetted u w)
    (k : CallStep u hash settings w v) : Vetted u v := by
  obtain ⟨l, s, rfl, ⟨hl, heffect⟩ | ⟨command, review, manifest, dryRun, own, happends, hcleared⟩⟩ := k
  · have handed := handed_foreign (s := s) hl h.handed
    rcases heffect.reruns with hreruns | ⟨fresh, opened, scopes, now, label, reading, hown, hclosed⟩
    · exact h.reruns hreruns handed
    · exact h.closed label reading hown hclosed handed
  · refine h.reruns (Appends.steady happends).toUndisturbed.reruns ?_
    intro past e hpast other hconcerns intent hi field hf
    rcases prefix_concat_iff.mp hpast with heq | hprefix
    · obtain ⟨rfl, hlast⟩ := append_inj' heq rfl
      obtain rfl := singleton_inj.mp hlast
      obtain rfl := own.concerns hconcerns
      exact h.authorised hcleared hi hf
    · exact h.handed past e hprefix other hconcerns intent hi field hf

/-- Every field that is handed to the write pipeline is the target of an item authorised at
that moment. -/
theorem intents_authorised {hash : Hashing} {settings : Settings} {start : Db}
    (unverified : start.dryRuns = [] ∧ start.dryRunScopes = [] ∧ start.applyManifests = [] ∧
      start.applyManifestOperations = []) {w : World service}
    (run : Session (WorkspaceCall u hash settings) (.initial start) w)
    {past : List (Event service)} {e : Event service} (happened : past ++ [e] <+: w.past)
    {command : WorkspaceWriteBatchCommand} (handed : Concerns command e.label)
    {intent : WorkspaceWriteIntent} (hi : intent ∈ command.intents) {field : Field}
    (hf : hasTarget intent field = true) :
    ∃ item, item.listingId = intent.listingId ∧ item.field = field ∧ Asks u item intent ∧
      Authorised ⟨e.before, past⟩ command item := by
  have hstart : Vetted u (.initial start) := by
    obtain ⟨hruns, hscopes, hmanifests, hoperations⟩ := unverified
    refine ⟨?_, ?_, ?_, ?_, ?_, ?_⟩
    · simp [hruns]
    · simp [hruns]
    · simp [hscopes]
    · simp [hoperations]
    · simp [hmanifests]
    · intro past e h
      simp at h
  have hw := run.keeps hstart (fun p hp u => hp.steps u) fun a b ha hab => ha.step hab
  exact hw.handed past e happened command handed intent hi field hf

namespace Sample

def calls : Program Unit → Prop := WorkspaceCall .ascii documents settings

/-- The stock of one Listing is reviewed, selected, verified and applied, by at most `n`
steps of the last call. -/
def stockWorld (n : Nat) : World service :=
  let verified := (replay (reports fun _ _ => "3") 20 ((runDryRun .ascii documents settings
    dryRunFresh "workspace" "review" owner 1 1).bind fun _ => .done ())
    (selected [⟨"7", .stock, "3", "5"⟩] ["item0"])).2
  (replay (reports fun _ _ => "3") n ((applySelected .ascii documents settings applyFresh
    (request verified.state) owner).bind fun _ => .done ()) verified).2

theorem stockWorld_session (n : Nat) : Session calls
    (.initial (catalogue [⟨"7", .stock, "3", "5"⟩])) (stockWorld n) :=
  .call (.call (.call (.call (.start _) (.generateReview ..) (replay_steps ..))
    (.selectReviewItems ..) (replay_steps ..)) (.runDryRun ..) (replay_steps ..))
    (.applySelected ..) (replay_steps ..)

end Sample

open Sample

theorem intents_authorised_stock : ∃ past e command intent item,
    past ++ [e] <+: (stockWorld 8).past ∧ Concerns command e.label ∧
      intent ∈ command.intents ∧ item.listingId = intent.listingId ∧ item.field = .stock ∧
      Asks .ascii item intent ∧ Authorised ⟨e.before, past⟩ command item := by
  have hlast : ((stockWorld 8).past[13]?.bind fun e => (labelTag e.label).bind fun tag =>
      (tagCommand tag).map fun command => command.intents.map fun i => hasTarget i .stock) =
        some [true] := by decide +kernel
  obtain ⟨e, he, hlast⟩ := bind_eq_some_iff.mp hlast
  obtain ⟨tag, htag, hlast⟩ := bind_eq_some_iff.mp hlast
  obtain ⟨command, hcommand, hlast⟩ := map_eq_some_iff.mp hlast
  obtain ⟨intent, hintents, hstock⟩ := map_eq_singleton_iff.mp hlast
  have hpast : (stockWorld 8).past.take 13 ++ [e] <+: (stockWorld 8).past := by
    have htake := take_prefix 14 (stockWorld 8).past
    rwa [take_add_one, he] at htake
  have hconcerns : Concerns command e.label := .inl ⟨tag, htag, hcommand⟩
  have hmem : intent ∈ command.intents := by
    rw [hintents]
    exact mem_singleton.mpr rfl
  obtain ⟨item, hlisting, hfield, hasks, hauthorised⟩ :=
    intents_authorised ⟨rfl, rfl, rfl, rfl⟩ (stockWorld_session 8) hpast hconcerns hmem hstock
  exact ⟨_, e, command, intent, item, hpast, hconcerns, hmem, hlisting, hfield, hasks, hauthorised⟩

end FlowHub.Workspace
