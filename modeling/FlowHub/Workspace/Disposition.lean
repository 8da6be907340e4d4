import FlowHub.Workspace.Values
import FlowHub.Workspace.DryRun

namespace FlowHub.Workspace

open Python Txn List Except

section

variable (u : Unicode)

def liveValue (s : Scope) : String := valueOf s.observed s.item.field.name

/-- A write goes over the reviewed value to another one; a no-op finds the target. -/
def Sound (s : Scope) : Prop :=
  (s.disposition = .write → SameValue u s.item.field (liveValue s) (s.item.currentValue.getD "") ∧
      ¬SameValue u s.item.field (liveValue s) s.item.targetValue) ∧
  (s.disposition = .noOp → SameValue u s.item.field (liveValue s) s.item.targetValue)

/-- The evidence of a status item gets to its comparison, and one of the two statuses
compared with the live one differs from it where neither has an alias. -/
def Misread (item : ReviewItem) (observed : Evidence) (error : Bool) (expected : Evidence) : Prop :=
  let live := valueOf observed item.field.name
  (error || observed.isEmpty || unverifiable u observed expected) = false ∧
    drifted u observed expected = false ∧ item.field = .status ∧
    (BothUnlisted u live item.targetValue ∨
      statusAlias u item.targetValue ≠ none ∧ BothUnlisted u live (item.currentValue.getD ""))

theorem block_sound (item : ReviewItem) (reason : String) (observed expected : Evidence) :
    Sound u (dryRunBlock item reason observed expected) := by
  constructor
  · intro h
    cases h
  · intro h
    cases h

theorem disposition_sound_iff (item : ReviewItem) (observed : Evidence) (error : Bool) (expected : Evidence) :
    Sound u (disposition u item observed error expected) ↔ ¬Misread u item observed error expected := by
  have hblock := block_sound u item
  unfold disposition
  dsimp only
  by_cases hev : (error || observed.isEmpty || unverifiable u observed expected) = true
  · simp [hev, hblock, Misread]
  by_cases hdrift : drifted u observed expected = true
  · simp [hev, hdrift, hblock, Misread]
  rw [if_neg hev, if_neg hdrift]
  rw [Bool.not_eq_true] at hev hdrift
  have hmis : Misread u item observed error expected ↔ item.field = .status ∧
      (BothUnlisted u (valueOf observed item.field.name) item.targetValue ∨
        statusAlias u item.targetValue ≠ none ∧
          BothUnlisted u (valueOf observed item.field.name) (item.currentValue.getD "")) := by
    simp [Misread, hev, hdrift, true_and]
  rw [hmis]
  obtain ⟨live, hlive⟩ : ∃ live, valueOf observed item.field.name = live := ⟨_, rfl⟩
  rw [hlive]
  by_cases htarget : valuesEqual u item.field live item.targetValue = true
  · rw [if_pos htarget]
    have hsecond : item.field = .status →
        ¬(statusAlias u item.targetValue ≠ none ∧ BothUnlisted u live (item.currentValue.getD "")) := by
      rintro hfield ⟨hlisted, hlive, -, -⟩
      simp only [hfield, valuesEqual, decide_eq_true_eq] at htarget
      exact hlisted (htarget.symm.trans hlive)
    simp only [Sound, liveValue, hlive, sameValue_iff]
    grind
  · rw [if_neg htarget]
    have hfirst : item.field = .status → ¬BothUnlisted u live item.targetValue :=
      fun hfield h => htarget (hfield ▸ h.equal u)
    by_cases hcurrent : valuesEqual u item.field live (item.currentValue.getD "") = true
    · have hlisted : item.field = .status → BothUnlisted u live (item.currentValue.getD "") →
          statusAlias u item.targetValue ≠ none := by
        intro hfield h hnone
        apply htarget
        rw [hfield]
        simp [valuesEqual, h.1, hnone, decide_true]
      simp only [hcurrent, Bool.not_true, Bool.false_eq_true, if_false, Sound, liveValue,
        hlive, sameValue_iff]
      grind
    · have hsecond : item.field = .status → ¬BothUnlisted u live (item.currentValue.getD "") :=
        fun hfield h => hcurrent (hfield ▸ h.equal u)
      rw [Bool.not_eq_true] at hcurrent
      rw [hcurrent, Bool.not_false, if_pos rfl]
      simp only [hblock, true_iff]
      grind

variable (settings : Settings)

/-- A connector's observation of one Listing. -/
def reading (e : Event service) : Option (LiveProbe × LiveVerification) :=
  match e.label with
  | .answer (.readLive _ probe) verification => some (probe, verification)
  | _ => none

/-- What Dry Run expects of an item, from the item's Listing, product and Channel. -/
def expectedFor (db : Db) (item : ReviewItem) : Evidence :=
  match listingState db item.listingId with
  | none => noExpectation item
  | some (listing, _, product) =>
    match settings.capabilities listing.channelId with
    | none => noExpectation item
    | some capabilities =>
      expectedLiveState u item listing product (parentExternalId db product listing.channelId)
        capabilities

/-- The scope an item gets from an observation of its Listing. -/
def scopeOf (db : Db) (verification : LiveVerification) (item : ReviewItem) : Scope :=
  disposition u item (verification.observed.getD []) verification.error
    (expectedFor u settings db item)

theorem disposition_item (item : ReviewItem) (observed : Evidence) (error : Bool)
    (expected : Evidence) : (disposition u item observed error expected).item = item := by
  unfold disposition
  dsimp only
  split
  · rfl
  split
  · rfl
  split
  · rfl
  · split
    · rfl
    · rfl

@[simp] theorem scopeOf_item (db : Db) (verification : LiveVerification) (item : ReviewItem) :
    (scopeOf u settings db verification item).item = item := disposition_item ..

/-- How a group's scopes came about: each is sound by itself or comes from an observation
made of its Listing, and each observation gave a scope to every item of the group. -/
structure Explained (db : Db) (items : List ReviewItem) (events : List (Event service))
    (scopes : List Scope) : Prop where
  scope : ∀ s ∈ scopes, Sound u s ∨ ∃ e ∈ events, ∃ probe verification,
    reading e = some (probe, verification) ∧ s.item ∈ items ∧
      probe.listingId = s.item.listingId ∧ s = scopeOf u settings db verification s.item
  observation : ∀ e ∈ events, ∀ probe verification, reading e = some (probe, verification) →
    (∃ item ∈ items, item.listingId = probe.listingId) ∧ ∀ item ∈ items,
      item.listingId = probe.listingId → scopeOf u settings db verification item ∈ scopes

variable {u settings}

theorem Explained.append (h : Explained u settings db items events scopes)
    (k : Explained u settings db more later rest)
    (apart : ∀ a ∈ items, ∀ b ∈ more, a.listingId ≠ b.listingId) :
    Explained u settings db (items ++ more) (events ++ later) (scopes ++ rest) := by
  constructor
  · intro s hs
    rcases mem_append.mp hs with hs | hs
    · rcases h.scope s hs with hsound | ⟨e, he, probe, verification, hr, hitem, hrest⟩
      · exact .inl hsound
      · exact .inr ⟨e, mem_append_left _ he, probe, verification, hr, mem_append_left _ hitem, hrest⟩
    · rcases k.scope s hs with hsound | ⟨e, he, probe, verification, hr, hitem, hrest⟩
      · exact .inl hsound
      · exact .inr ⟨e, mem_append_right _ he, probe, verification, hr, mem_append_right _ hitem, hrest⟩
  · intro e he probe verification hr
    rcases mem_append.mp he with he | he
    · obtain ⟨⟨a, ha, hl⟩, hall⟩ := h.observation e he probe verification hr
      refine ⟨⟨a, mem_append_left _ ha, hl⟩, fun item hitem hlisting => ?_⟩
      rcases mem_append.mp hitem with hitem | hitem
      · exact mem_append_left _ (hall item hitem hlisting)
      · exact absurd (hl.trans hlisting.symm) (apart a ha item hitem)
    · obtain ⟨⟨a, ha, hl⟩, hall⟩ := k.observation e he probe verification hr
      refine ⟨⟨a, mem_append_right _ ha, hl⟩, fun item hitem hlisting => ?_⟩
      rcases mem_append.mp hitem with hitem | hitem
      · exact absurd (hlisting.trans hl.symm) (apart item hitem a ha)
      · exact mem_append_right _ (hall item hitem hlisting)

variable (u settings)

/-- Reading is all a Dry Run does between its two transactions. -/
def Read (items : List ReviewItem) (w : World service) (scopes : List Scope) (v : World service) : Prop :=
  v.state = w.state ∧ ∃ events, v.past = w.past ++ events ∧ Explained u settings w.state items events scopes

variable {u settings}

theorem probeListing_some (h : probeListing settings review listingId group db = .ok (some p)) :
    p.probe.listingId = listingId ∧ ∀ item : ReviewItem, item.listingId = listingId →
      expectedLiveState u item p.listing p.product p.parent p.capabilities =
        expectedFor u settings db item := by
  unfold probeListing at h
  split at h
  · cases h
  rename_i listing cache product hstate
  obtain ⟨capabilities, hcap, h⟩ := bind_eq_ok.mp h
  cases h
  have hsome : settings.capabilities listing.channelId = some capabilities := by
    unfold Settings.capabilitiesOf found at hcap
    split at hcap
    · rename_i c hc
      rw [hc, ok.inj hcap]
    · cases hcap
  refine ⟨?_, fun item hitem => ?_⟩
  · obtain ⟨l, hl, hrest⟩ := Option.bind_eq_some_iff.mp hstate
    obtain ⟨c, -, hrest⟩ := Option.bind_eq_some_iff.mp hrest
    obtain ⟨p, -, hrest⟩ := Option.bind_eq_some_iff.mp hrest
    have heq : l = listing := congrArg Prod.fst (Option.some.inj hrest)
    exact heq ▸ (Table.get_some hl).2
  · simp [expectedFor, hitem, hstate, hsome]

/-- One question, answered or not. -/
theorem readLive_reads (channelId : Id) (probe : LiveProbe) (w : World service) :
    (readLive channelId probe).Meets .free (fun answer v => v.state = w.state ∧ ∃ e, v.past = w.past ++ [e] ∧
        ((reading e = none ∧ answer = ([], true)) ∨ ∃ verification, reading e = some (probe, verification) ∧
            answer = (verification.observed.getD [], verification.error)))
      (fun _ _ => True) w := by
  rintro _ rfl
  constructor
  · intro verification
    exact ⟨trivial, rfl, _, rfl, .inr ⟨verification, rfl, rfl⟩⟩
  · intro e
    exact ⟨trivial, rfl, _, rfl, .inl ⟨rfl, rfl⟩⟩

theorem verifyGroup_reads (review : Review) (listingId : Id) (group : List ReviewItem)
    (hgroup : ∀ item ∈ group, item.listingId = listingId) (hne : group ≠ [])
    (w : World service) :
    (verifyGroup u settings review listingId group).Meets .free
      (Read u settings group w) (fun _ _ => True) w := by
  refine Proc.Meets.bind (Q := fun probed v => v.state = w.state ∧
    (∃ e, v.past = w.past ++ [e] ∧ reading e = none) ∧
    probeListing settings review listingId group w.state = .ok probed) ?_ fun probed v hv => ?_
  · refine Proc.Meets.consult ?_ fun _ _ _ => ⟨trivial, trivial⟩
    rintro _ rfl probed hok
    exact ⟨trivial, rfl, ⟨_, rfl, rfl⟩, hok⟩
  · obtain ⟨hstate, ⟨first, hpast, hfirst⟩, hprobed⟩ := hv
    cases probed with
    | none =>
      refine ⟨hstate, [first], hpast, ?_, ?_⟩
      · intro s hs
        obtain ⟨item, -, rfl⟩ := mem_map.mp hs
        exact .inl (block_sound u ..)
      · intro e he probe verification hr
        rw [mem_singleton.mp he, hfirst] at hr
        cases hr
    | some probed =>
      obtain ⟨hlisting, hexpected⟩ := probeListing_some hprobed
      refine (readLive_reads probed.listing.channelId probed.probe v).bind fun answer t ht => ?_
      obtain ⟨htstate, e, htpast, hread⟩ := ht
      have hscope : ∀ verification : LiveVerification, ∀ item ∈ group,
          disposition u item (verification.observed.getD []) verification.error
            (expectedLiveState u item probed.listing probed.product probed.parent
              probed.capabilities) = scopeOf u settings w.state verification item := by
        intro verification item hitem
        rw [scopeOf, hexpected item (hgroup item hitem)]
      refine ⟨htstate.trans hstate, [first, e], by rw [htpast, hpast, append_assoc]; rfl, ?_⟩
      rcases hread with ⟨hnone, rfl⟩ | ⟨verification, hsome, rfl⟩
      · constructor
        · intro s hs
          obtain ⟨item, -, rfl⟩ := mem_map.mp hs
          exact .inl (block_sound u ..)
        · intro e' he' probe verification hr
          rcases mem_pair.mp he' with rfl | rfl
          · rw [hfirst] at hr
            cases hr
          · rw [hnone] at hr
            cases hr
      · constructor
        · intro s hs
          obtain ⟨item, hitem, rfl⟩ := mem_map.mp hs
          rw [hscope verification item hitem]
          refine .inr ⟨e, mem_pair.mpr (.inr rfl), _, verification, hsome, ?_⟩
          rw [scopeOf_item]
          exact ⟨hitem, hlisting.trans (hgroup item hitem).symm, rfl⟩
        · intro e' he' probe verification' hr
          rcases mem_pair.mp he' with rfl | rfl
          · rw [hfirst] at hr
            cases hr
          · obtain ⟨rfl, rfl⟩ := Prod.mk.inj (Option.some.inj (hsome.symm.trans hr))
            obtain ⟨head, hhead⟩ := exists_mem_of_ne_nil _ hne
            refine ⟨⟨head, hhead, (hgroup head hhead).trans hlisting.symm⟩, fun item hitem _ => ?_⟩
            rw [← hscope verification item hitem]
            exact mem_map_of_mem hitem

theorem verifyGroups_reads (review : Review) {groups : List (Id × List ReviewItem)}
    (hgroups : ∀ g ∈ groups, g.2 ≠ [] ∧ ∀ item ∈ g.2, item.listingId = g.1)
    (distinct : (groups.map Prod.fst).Nodup) (w : World service) :
    (verifyGroups u settings review groups).Meets .free
      (Read u settings (groups.flatMap Prod.snd) w) (fun _ _ => True) w := by
  induction groups generalizing w with
  | nil => exact ⟨rfl, [], (append_nil _).symm, by simp, by simp⟩
  | cons g rest ih =>
    obtain ⟨hne, hitems⟩ := hgroups g (mem_cons_self ..)
    rw [map_cons, nodup_cons] at distinct
    have hrest : ∀ g ∈ rest, g.2 ≠ [] ∧ ∀ item ∈ g.2, item.listingId = g.1 :=
      fun g hg => hgroups g (mem_cons_of_mem _ hg)
    refine (verifyGroup_reads review g.1 g.2 hitems hne w).bind fun scopes v hv => ?_
    refine (ih hrest distinct.2 v).bind fun more t ht => ?_
    obtain ⟨hv, events, hvpast, hexplained⟩ := hv
    obtain ⟨ht, later, htpast, hmore⟩ := ht
    rw [hv] at hmore
    refine ⟨ht.trans hv, events ++ later, by rw [htpast, hvpast, append_assoc], ?_⟩
    refine hexplained.append hmore fun a ha b hb heq => distinct.1 ?_
    obtain ⟨other, hother, hb⟩ := mem_flatMap.mp hb
    rw [← hitems a ha, heq, (hrest other hother).2 b hb]
    exact mem_map_of_mem hother

/-- The items a Dry Run of a Review is about. -/
def selectedItems (db : Db) (reviewId : Id) : List ReviewItem :=
  reviewItemsIn db reviewId ((selectionsOf db reviewId).map (·.reviewItemId))

/-- A Dry Run opens over the Review's selection, or leaves the Review stale. -/
theorem openDryRun_ok {hash : Hashing} {events : Id → Id} {workspaceId reviewId : Id}
    {user : FlowHubUser} {now : Time} {db db' : Db} {outcome : Except Fault OpenDryRun}
    (h : openDryRun u hash settings events workspaceId reviewId user now db = .ok (db', outcome)) :
    ∃ review, reviewOf db reviewId = some review ∧
      ((∃ reason, outcome = .error reason ∧ ∃ seeded why, Seeds db seeded ∧
          db' = updateReview seeded reviewId (markStale now why)) ∨
        (Seeds db db' ∧ outcome = .ok ⟨review,
          hash.json (selectionDocument review (selectedItems db reviewId)),
          selectedItems db reviewId⟩ ∧
          review.selectionChecksum =
            some (hash.json (selectionDocument review (selectedItems db reviewId))))) := by
  obtain ⟨workspace, hws, h⟩ := bind_eq_ok.mp h
  obtain ⟨review, hreview, h⟩ := bind_eq_ok.mp h
  obtain ⟨snapshot, -, h⟩ := bind_eq_ok.mp h
  obtain ⟨_, -, h⟩ := bind_eq_ok.mp h
  obtain ⟨_, -, h⟩ := bind_eq_ok.mp h
  obtain ⟨_, -, h⟩ := bind_eq_ok.mp h
  obtain ⟨_, hchecksum, h⟩ := bind_eq_ok.mp h
  have hget := found_ok.mp hreview
  have hid : review.id = reviewId := (Table.get_some hget).2
  have hsame := refuse_ok.mp hchecksum
  rw [hid] at hsame h
  refine ⟨review, hget, ?_⟩
  split at h
  · rename_i fresh hfresh
    cases h
    obtain ⟨-, hseeds, -⟩ | ⟨hbad, -⟩ := assertReviewFresh_cases hash settings hfresh
    · exact .inr ⟨hseeds, rfl, (bne_eq_false_iff_eq.mp hsame).symm⟩
    · cases hbad
  · rename_i stale hfresh
    cases h
    obtain ⟨hbad, -⟩ | ⟨-, seeded, why, hseeds, rfl⟩ := assertReviewFresh_cases hash settings hfresh
    · cases hbad
    · exact .inl ⟨_, rfl, seeded, why, hseeds, by rw [hid]⟩

/-- No status item reaches its comparison with an unlisted live status that differs from
an unlisted target or, where the target is listed, from an unlisted reviewed status. -/
def NoneMisread (u : Unicode) (settings : Settings) (db : Db) (reviewId : Id)
    (past : List (Event service)) : Prop :=
  ∀ e ∈ past, ∀ probe verification, reading e = some (probe, verification) →
    ∀ item ∈ selectedItems db reviewId, item.listingId = probe.listingId →
      ¬Misread u item (verification.observed.getD []) verification.error
        (expectedFor u settings db item)

theorem groups_listed (items : List ReviewItem) :
    (∀ g ∈ groupedBy ReviewItem.listingId items, g.2 ≠ [] ∧ ∀ item ∈ g.2, item.listingId = g.1) ∧
      ((groupedBy ReviewItem.listingId items).map Prod.fst).Nodup ∧
      ∀ item, item ∈ (groupedBy ReviewItem.listingId items).flatMap Prod.snd ↔ item ∈ items := by
  refine ⟨fun g hg => ?_, ?_, fun item => ?_⟩
  · obtain ⟨hk, hgroup⟩ := mem_groupedBy.mp hg
    rw [hgroup]
    constructor
    · obtain ⟨item, hitem, hid⟩ := mem_map.mp hk
      exact ne_nil_of_mem (mem_filter.mpr ⟨hitem, decide_eq_true hid⟩)
    · intro item hitem
      exact of_decide_eq_true (mem_filter.mp hitem).2
  · simp only [groupedBy, map_map, Function.comp_def, map_id']
    exact sortedSet_nodup _
  · rw [mem_flatMap]
    constructor
    · rintro ⟨g, hg, hitem⟩
      rw [(mem_groupedBy.mp hg).2] at hitem
      exact (mem_filter.mp hitem).1
    · intro hitem
      exact ⟨(item.listingId, _), mem_groupedBy.mpr ⟨mem_map_of_mem hitem, rfl⟩,
        mem_filter.mpr ⟨hitem, decide_eq_true rfl⟩⟩

theorem Explained.sound_iff (h : Explained u settings db items events scopes) : (∀ s ∈ scopes, Sound u s) ↔
      ∀ e ∈ events, ∀ probe verification, reading e = some (probe, verification) →
        ∀ item ∈ items, item.listingId = probe.listingId →
          ¬Misread u item (verification.observed.getD []) verification.error
            (expectedFor u settings db item) := by
  constructor
  · intro hsound e he probe verification hr item hitem hlisting
    exact (disposition_sound_iff u ..).mp
      (hsound _ ((h.observation e he probe verification hr).2 item hitem hlisting))
  · intro hread s hs
    rcases h.scope s hs with hsound | ⟨e, he, probe, verification, hr, hitem, hlisting, heq⟩
    · exact hsound
    · rw [heq]
      exact (disposition_sound_iff u ..).mpr (hread e he probe verification hr _ hitem hlisting.symm)

variable {hash : Hashing} {fresh : DryRunFresh} {workspaceId reviewId : Id} {user : FlowHubUser}
  {openedAt closedAt : Time}

theorem runDryRun_explained (db : Db) :
    (runDryRun u hash settings fresh workspaceId reviewId user openedAt closedAt).Meets .free
      (fun scopes v => ∃ events items, Explained u settings db items events scopes ∧
        (∀ item, item ∈ items ↔ item ∈ selectedItems db reviewId) ∧
        ∀ r, (∃ e ∈ events, reading e = some r) ↔ ∃ e ∈ v.past, reading e = some r)
      (fun _ _ => True) (.initial db) := by
  refine Proc.Meets.bind (Q := fun outcome v => ∃ e, v.past = [e] ∧ reading e = none ∧
    ∀ opened, outcome = .ok opened →
      Seeds db v.state ∧ opened.items = selectedItems db reviewId) ?_ fun outcome v hv => ?_
  · refine Proc.Meets.transact ?_ fun _ _ _ => ⟨trivial, trivial⟩
    rintro _ rfl s outcome hok
    refine ⟨trivial, _, rfl, rfl, fun opened hopened => ?_⟩
    obtain ⟨review, -, ⟨reason, hbad, -⟩ | ⟨hseeds, hgood, -⟩⟩ := openDryRun_ok hok
    · rw [hbad] at hopened
      cases hopened
    · rw [hgood] at hopened
      rw [← ok.inj hopened]
      exact ⟨hseeds, rfl⟩
  · obtain ⟨first, hpast, hfirst, hopen⟩ := hv
    refine Proc.Meets.bind (Q := fun opened t => t = v ∧ outcome = .ok opened) ?_
      fun opened t ht => ?_
    · exact Proc.Meets.ofExcept (fun _ h => ⟨rfl, h⟩) fun _ _ => trivial
    obtain ⟨rfl, houtcome⟩ := ht
    obtain ⟨⟨heads, hstate⟩, hitems⟩ := hopen opened houtcome
    obtain ⟨hgroups, hdistinct, hmem⟩ := groups_listed opened.items
    refine (verifyGroups_reads opened.review hgroups hdistinct t).bind fun scopes r hr => ?_
    obtain ⟨-, events, hrpast, hexplained⟩ := hr
    have hdb : Explained u settings db ((groupedBy ReviewItem.listingId opened.items).flatMap
        Prod.snd) events scopes := by
      rw [hstate] at hexplained
      exact ⟨hexplained.scope, hexplained.observation⟩
    refine Proc.Meets.transact ?_ fun _ _ _ => ⟨trivial, trivial⟩
    rintro _ rfl s answer hok
    cases hc : closeDryRun hash settings fresh opened scopes closedAt r.state with
    | error e => simp [hc, Except.map] at hok
    | ok closed =>
      rw [hc] at hok
      cases hok
      refine ⟨trivial, events, _, hdb, fun item => (hmem item).trans (by rw [hitems]), ?_⟩
      intro found
      rw [World.log_past, hrpast, hpast]
      constructor
      · rintro ⟨e, he, hread⟩
        exact ⟨e, by simp [he], hread⟩
      rintro ⟨e, he, hread⟩
      rcases mem_append.mp he with he | he
      · rcases mem_append.mp he with he | he
        · rw [mem_singleton.mp he, hfirst] at hread
          cases hread
        · exact ⟨e, he, hread⟩
      · rw [mem_singleton.mp he] at hread
        cases hread

/-- Every disposition of a Dry Run is right exactly when none of its observations is
misread. -/
theorem dispositions_sound_iff {db : Db} {scopes : List Scope} {w : World service}
    (run : Steps (runDryRun u hash settings fresh workspaceId reviewId user openedAt closedAt)
      (.initial db) (.done scopes) w) :
    (∀ s ∈ scopes, Sound u s) ↔ NoneMisread u settings db reviewId w.past := by
  obtain ⟨events, items, hexplained, hitems, hreads⟩ :=
    run.returned trivial (runDryRun_explained db)
  rw [hexplained.sound_iff]
  constructor
  · intro h e he probe verification hr item hitem hlisting
    obtain ⟨e', he', hr'⟩ := (hreads _).mpr ⟨e, he, hr⟩
    exact h e' he' probe verification hr' item ((hitems item).mpr hitem) hlisting
  · intro h e he probe verification hr item hitem hlisting
    obtain ⟨e', he', hr'⟩ := (hreads _).mp ⟨e, he, hr⟩
    exact h e' he' probe verification hr' item ((hitems item).mp hitem) hlisting

end

namespace Sample

/-- A Dry Run of one status item, from `current` to `target`, while the Channel reports
`live`. -/
def statusDryRun (current target live : String) : Program (List Scope) × World service :=
  replay (reports fun _ _ => live) 9
    (runDryRun .ascii documents settings dryRunFresh "workspace" "review" owner 1 1)
    (.initial (selected [⟨"7", .status, current, target⟩] ["item0"]).state)

def statusScopes (current target live : String) : List Scope :=
  (statusDryRun current target live).1.result.getD []

theorem statusDryRun_steps (h : (statusDryRun current target live).1.result.isSome = true) :
    Steps (runDryRun .ascii documents settings dryRunFresh "workspace" "review" owner 1 1)
      (.initial (selected [⟨"7", .status, current, target⟩] ["item0"]).state)
      (.done (statusScopes current target live)) (statusDryRun current target live).2 :=
  replay_done [] h

end Sample

open Sample

/-- A backordered product turned preorder behind the Review's back, and is written. -/
theorem drift_between_unlisted_statuses_written :
    Steps (runDryRun .ascii Sample.documents settings dryRunFresh "workspace" "review"
        owner 1 1)
      (.initial (selected [⟨"7", .status, "onbackorder", "instock"⟩] ["item0"]).state)
      (.done (statusScopes "onbackorder" "instock" "preorder"))
      (statusDryRun "onbackorder" "instock" "preorder").2 ∧
    (statusScopes "onbackorder" "instock" "preorder").map (fun s =>
      (s.item.currentValue, liveValue s, s.disposition)) = [(some "onbackorder", "preorder", .write)] ∧
    ¬SameValue .ascii .status "preorder" "onbackorder" := by
  refine ⟨statusDryRun_steps (by decide +kernel), by decide +kernel, ?_⟩
  unfold SameValue
  decide +kernel

theorem dispositions_sound_iff_outofstock :
    (∀ s ∈ statusScopes "outofstock" "instock" "outofstock", Sound .ascii s) ↔ NoneMisread .ascii settings
        (selected [⟨"7", .status, "outofstock", "instock"⟩] ["item0"]).state "review"
        (statusDryRun "outofstock" "instock" "outofstock").2.past :=
  dispositions_sound_iff (statusDryRun_steps (by decide +kernel))

end FlowHub.Workspace
