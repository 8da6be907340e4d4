import FlowHub.Source.Readers

/-! Records that share an identity, and which of them stay recognised. A record's place in the list
tells it from an equal one. -/
namespace FlowHub.Source

open Python List

/-- What a list of records is resolved to where `id` tells their products apart. The empty identity
is none. -/
structure Resolved (id : MappedRecord → String) (policy : DuplicatePolicy)
    (records after : List MappedRecord) : Prop where
  unique : ∀ {p q : Nat} {a b : MappedRecord}, p ≠ q → after[p]? = some a → after[q]? = some b →
    a.recognized = true → b.recognized = true → id a = id b → id a ≠ "" →
      ∀ r ∈ records, id r = id a → r.sourceKeyRequired = false ∧ r.worksheetName = a.worksheetName
  lastStays : policy = .lastSheetWins → ∀ {p : Nat} {r a : MappedRecord}, records[p]? = some r →
    after[p]? = some a → id r ≠ "" → (∀ s ∈ records, id s = id r → s.sourceKeyRequired = false) →
      (∃ s ∈ records, id s = id r ∧ s.worksheetName ≠ r.worksheetName) →
        (a.recognized = true ↔ r.recognized = true ∧
          ∀ (q : Nat) (s : MappedRecord), p < q → records[q]? = some s → id s ≠ id r)
  untouched : ∀ {p : Nat} {r : MappedRecord}, records[p]? = some r →
    (id r = "" ∨ ∀ (q : Nat) (s : MappedRecord), records[q]? = some s → id s = id r → q = p) →
      after[p]? = some r

variable {u : Unicode}

/-- Whether a record loses its place among those with its identity. -/
def withdraws (u : Unicode) (policy : DuplicatePolicy) (found : List MappedRecord) (last : Bool)
    (record : MappedRecord) : Bool :=
  decide (record.identity u ≠ "" ∧ 2 ≤ found.length) &&
    (found.any MappedRecord.sourceKeyRequired ||
      decide (2 ≤ (found.map MappedRecord.worksheetName).dedup.length) &&
        !(decide (policy = .lastSheetWins) && last))

theorem resolveDuplicate_kept {policy : DuplicatePolicy} {found : List MappedRecord} {last : Bool}
    {record : MappedRecord} (h : withdraws u policy found last record = false) :
    resolveDuplicate u policy found last record = record := by
  unfold withdraws at h
  unfold resolveDuplicate
  simp only
  split
  · rfl
  rename_i hsmall
  rw [not_or, not_lt] at hsmall
  simp only [hsmall.1, hsmall.2, ne_eq, not_false_eq_true, and_self, decide_true, Bool.true_and,
    Bool.or_eq_false_iff] at h
  obtain ⟨hany, hrest⟩ := h
  simp only [hany, Bool.not_false, true_and]
  split
  · rfl
  rename_i hsheets
  simp only [not_lt.mp hsheets, decide_true, Bool.true_and, Bool.not_eq_false',
    Bool.and_eq_true, decide_eq_true_eq] at hrest
  rw [if_pos hrest.1, if_pos hrest.2]

theorem resolveDuplicate_withdrawn {policy : DuplicatePolicy} {found : List MappedRecord}
    {last : Bool} {record : MappedRecord} (h : withdraws u policy found last record = true) :
    ∃ issue, resolveDuplicate u policy found last record = record.withdrawn issue := by
  simp only [withdraws, Bool.and_eq_true, decide_eq_true_eq, Bool.or_eq_true] at h
  obtain ⟨⟨hid, hlength⟩, hreason⟩ := h
  unfold resolveDuplicate
  simp only
  rw [if_neg (not_or.mpr ⟨hid, not_lt.mpr hlength⟩)]
  split
  · rename_i hsheets
    rcases hreason with hany | hcross
    · simp [hany] at hsheets
    · omega
  · split
    · rename_i hwins
      rcases hreason with hany | hcross
      · simp [hany] at hwins
      · cases last with
        | false => exact ⟨_, if_neg (by decide)⟩
        | true => simp [hwins.2] at hcross
    · exact ⟨_, rfl⟩

section Places

variable {records : List MappedRecord}

def placed (u : Unicode) (records : List MappedRecord) (i : String) : List (MappedRecord × Nat) :=
  records.zipIdx.filter fun other => other.1.identity u = i

theorem placed_map_fst (i : String) :
    (placed u records i).map Prod.fst = records.filter fun r => r.identity u = i := by
  have hfst : records.zipIdx.map Prod.fst = records := by simp
  conv_rhs => rw [← hfst, filter_map]
  rfl

variable {policy : DuplicatePolicy} {r : MappedRecord} {p : Nat}

theorem mem_placed : (r, p) ∈ placed u records i ↔ records[p]? = some r ∧ r.identity u = i := by
  rw [placed, mem_filter, mk_mem_zipIdx_iff_getElem?, decide_eq_true_eq]

theorem placed_sorted (u : Unicode) (records : List MappedRecord) (i : String) :
    (placed u records i).Pairwise fun a b => a.2 < b.2 := by
  apply Pairwise.filter
  have hsnd : (records.zipIdx.map Prod.snd).Pairwise (· < ·) := by
    rw [zipIdx_map_snd]
    exact pairwise_lt_range'
  exact pairwise_map.mp hsnd

/-- The last of an identity is the one with none of it behind. -/
theorem placed_last (hp : records[p]? = some r) :
    (placed u records (r.identity u)).getLast?.map Prod.snd = some p ↔
      ∀ q s, p < q → records[q]? = some s → s.identity u ≠ r.identity u := by
  have hmem : (r, p) ∈ placed u records (r.identity u) := mem_placed.mpr ⟨hp, rfl⟩
  obtain ⟨last, hlast⟩ : ∃ last, (placed u records (r.identity u)).getLast? = some last := by
    cases hlast : (placed u records (r.identity u)).getLast? with
    | none =>
      rw [getLast?_eq_none_iff.mp hlast] at hmem
      cases hmem
    | some last => exact ⟨last, rfl⟩
  obtain ⟨init, hinit⟩ := getLast?_eq_some_iff.mp hlast
  have hsorted := placed_sorted u records (r.identity u)
  rw [hinit] at hsorted hmem
  have hmax : ∀ x ∈ init ++ [last], x.2 ≤ last.2 := by
    intro x hx
    rcases mem_append.mp hx with hx | hx
    · exact ((pairwise_append.mp hsorted).2.2 x hx last mem_cons_self).le
    · rw [mem_singleton.mp hx]
  rw [hlast, Option.map_some, Option.some.injEq]
  constructor
  · rintro rfl q s hq hs heq
    have hother : (s, q) ∈ init ++ [last] := hinit ▸ mem_placed.mpr ⟨hs, heq⟩
    exact absurd (hmax _ hother) (by simpa using hq)
  · intro hnone
    have hle := hmax _ hmem
    have hlastMem : (last.1, last.2) ∈ placed u records (r.identity u) := by
      rw [hinit]
      exact mem_append_right _ mem_cons_self
    obtain ⟨hat, hsame⟩ := mem_placed.mp hlastMem
    by_contra hne
    exact hnone last.2 last.1 (by simp only at hle; omega) hat hsame

theorem policy_getElem? (policy : DuplicatePolicy) (p : Nat) :
    (applyCrossWorksheetDuplicatePolicy u records policy)[p]? = (records[p]?).map fun r =>
      resolveDuplicate u policy (records.filter fun other => other.identity u = r.identity u)
        (decide ((placed u records (r.identity u)).getLast?.map Prod.snd = some p)) r := by
  rw [applyCrossWorksheetDuplicatePolicy, getElem?_map, getElem?_zipIdx]
  cases records[p]? with
  | none => rfl
  | some r =>
    simp only [Option.map_some, Nat.zero_add]
    rw [← placed_map_fst]
    rfl

theorem resolveDuplicate_keeps (policy : DuplicatePolicy) (found : List MappedRecord) (last : Bool)
    (r : MappedRecord) :
    (resolveDuplicate u policy found last r).identity u = r.identity u ∧
      (resolveDuplicate u policy found last r).sourceKeyRequired = r.sourceKeyRequired ∧
      (resolveDuplicate u policy found last r).worksheetName = r.worksheetName := by
  cases h : withdraws u policy found last r with
  | false =>
    rw [resolveDuplicate_kept h]
    exact ⟨rfl, rfl, rfl⟩
  | true =>
    obtain ⟨issue, hissue⟩ := resolveDuplicate_withdrawn h
    rw [hissue]
    exact ⟨rfl, rfl, rfl⟩

/-- What a resolved record was, and whether it was withdrawn. -/
theorem policy_at (h : (applyCrossWorksheetDuplicatePolicy u records policy)[p]? = some a) :
    ∃ r, records[p]? = some r ∧ a.identity u = r.identity u ∧
      a.sourceKeyRequired = r.sourceKeyRequired ∧ a.worksheetName = r.worksheetName ∧
      (withdraws u policy (records.filter fun other => other.identity u = r.identity u)
          (decide ((placed u records (r.identity u)).getLast?.map Prod.snd = some p)) r = false → a = r) ∧
      (withdraws u policy (records.filter fun other => other.identity u = r.identity u)
          (decide ((placed u records (r.identity u)).getLast?.map Prod.snd = some p)) r = true →
        a.recognized = false ∧ a.channels = []) := by
  rw [policy_getElem?] at h
  obtain ⟨r, hr, rfl⟩ := Option.map_eq_some_iff.mp h
  obtain ⟨hid, hrequired, hsheet⟩ := resolveDuplicate_keeps (u := u) policy
    (records.filter fun other => other.identity u = r.identity u)
    (decide ((placed u records (r.identity u)).getLast?.map Prod.snd = some p)) r
  refine ⟨r, hr, hid, hrequired, hsheet, resolveDuplicate_kept, ?_⟩
  intro hwithdrawn
  obtain ⟨issue, hissue⟩ := resolveDuplicate_withdrawn hwithdrawn
  rw [hissue]
  exact ⟨rfl, rfl⟩

theorem mem_found :
    r ∈ records.filter (fun other => decide (other.identity u = i)) ↔ r ∈ records ∧ r.identity u = i := by
  rw [mem_filter, decide_eq_true_eq]

theorem found_length (i : String) :
    (records.filter fun other => other.identity u = i).length = (placed u records i).length := by
  rw [← placed_map_fst, length_map]

/-- Two places of one identity make it a duplicated one. -/
theorem two_found (hne : p ≠ q) (hp : records[p]? = some r)
    (hq : records[q]? = some s) (h : s.identity u = r.identity u) :
    2 ≤ (records.filter fun other => other.identity u = r.identity u).length := by
  rw [found_length]
  have hr : (r, p) ∈ placed u records (r.identity u) := mem_placed.mpr ⟨hp, rfl⟩
  have hs : (s, q) ∈ placed u records (r.identity u) := mem_placed.mpr ⟨hq, h⟩
  by_contra hshort
  match hlist : placed u records (r.identity u) with
  | [] =>
    rw [hlist] at hr
    cases hr
  | [x] =>
    rw [hlist, mem_singleton] at hr hs
    exact hne (congrArg Prod.snd (hr.trans hs.symm))
  | x :: y :: rest =>
    rw [hlist] at hshort
    simp only [length_cons] at hshort
    omega

theorem dedup_two {names : List String} (ha : a ∈ names) (hb : b ∈ names)
    (hne : a ≠ b) : 2 ≤ names.dedup.length := by
  have hsub : [a, b] ⊆ names.dedup := by
    intro x hx
    rcases mem_cons.mp hx with rfl | hx
    · exact mem_dedup.mpr ha
    · exact mem_dedup.mpr (mem_singleton.mp hx ▸ hb)
  have hnodup : [a, b].Nodup := by simpa using hne
  exact (subperm_of_subset hnodup hsub).length_le

theorem policy_unique {p : Nat} (hne : p ≠ q)
    (ha : (applyCrossWorksheetDuplicatePolicy u records policy)[p]? = some a)
    (hb : (applyCrossWorksheetDuplicatePolicy u records policy)[q]? = some b)
    (hrecognized : a.recognized = true) (hother : b.recognized = true)
    (hsame : a.identity u = b.identity u) (hid : a.identity u ≠ "") :
    ∀ r ∈ records, r.identity u = a.identity u →
      r.sourceKeyRequired = false ∧ r.worksheetName = a.worksheetName := by
  obtain ⟨r, hr, hrid, -, -, hkept, hwithdrawn⟩ := policy_at ha
  obtain ⟨s, hs, hsid, -, -, hkeptOther, hwithdrawnOther⟩ := policy_at hb
  have hstays : withdraws u policy (records.filter fun other => other.identity u = r.identity u)
      (decide ((placed u records (r.identity u)).getLast?.map Prod.snd = some p)) r = false := by
    by_contra h
    rw [(hwithdrawn (by simpa using h)).1] at hrecognized
    cases hrecognized
  have hstaysOther : withdraws u policy (records.filter fun other => other.identity u = s.identity u)
      (decide ((placed u records (s.identity u)).getLast?.map Prod.snd = some q)) s = false := by
    by_contra h
    rw [(hwithdrawnOther (by simpa using h)).1] at hother
    cases hother
  obtain rfl := hkept hstays
  obtain rfl := hkeptOther hstaysOther
  rw [← hsame] at hstaysOther
  have hlength := two_found hne hr hs hsame.symm
  simp only [withdraws, ← hsame, hid, hlength, ne_eq, not_false_eq_true, and_self, decide_true,
    Bool.true_and, Bool.or_eq_false_iff] at hstays hstaysOther
  obtain ⟨hany, hcross⟩ := hstays
  have hsheets : (((records.filter fun other => other.identity u = a.identity u).map
      MappedRecord.worksheetName).dedup.length < 2) := by
    by_contra hlong
    have hlong : 2 ≤ ((records.filter fun other => other.identity u = a.identity u).map
      MappedRecord.worksheetName).dedup.length := not_lt.mp hlong
    have hother := hstaysOther.2
    simp only [hlong, decide_true, Bool.true_and, Bool.not_eq_false', Bool.and_eq_true,
      decide_eq_true_eq] at hcross hother
    exact hne (Option.some.inj (hcross.2.symm.trans hother.2))
  intro t ht htid
  have htmem : t ∈ records.filter (fun other => other.identity u = a.identity u) :=
    mem_found.mpr ⟨ht, htid⟩
  have hamem : a ∈ records.filter (fun other => other.identity u = a.identity u) :=
    mem_found.mpr ⟨mem_of_getElem? hr, rfl⟩
  constructor
  · have := any_eq_false.mp hany t htmem
    simpa using this
  · by_contra hsheet
    have := dedup_two (mem_map_of_mem htmem) (mem_map_of_mem hamem) hsheet
    omega

theorem policy_lastStays {r a : MappedRecord} (hr : records[p]? = some r)
    (ha : (applyCrossWorksheetDuplicatePolicy u records .lastSheetWins)[p]? = some a)
    (hid : r.identity u ≠ "")
    (hfree : ∀ s ∈ records, s.identity u = r.identity u → s.sourceKeyRequired = false)
    (hcross : ∃ s ∈ records, s.identity u = r.identity u ∧ s.worksheetName ≠ r.worksheetName) :
    a.recognized = true ↔ r.recognized = true ∧
      ∀ q s, p < q → records[q]? = some s → s.identity u ≠ r.identity u := by
  obtain ⟨s, hs, hsame, hsheet⟩ := hcross
  obtain ⟨q, hq⟩ := mem_iff_getElem?.mp hs
  have hne : p ≠ q := by
    rintro rfl
    rw [hr] at hq
    cases hq
    exact hsheet rfl
  have hlength := two_found hne hr hq hsame
  have hany : (records.filter fun other => other.identity u = r.identity u).any
      MappedRecord.sourceKeyRequired = false := by
    rw [any_eq_false]
    intro t ht
    obtain ⟨hmem, htid⟩ := mem_found.mp ht
    simp [hfree t hmem htid]
  have hsheets : 2 ≤ ((records.filter fun other => other.identity u = r.identity u).map
      MappedRecord.worksheetName).dedup.length :=
    dedup_two (mem_map_of_mem (mem_found.mpr ⟨hs, hsame⟩))
      (mem_map_of_mem (mem_found.mpr ⟨mem_of_getElem? hr, rfl⟩)) hsheet
  rw [← placed_last hr]
  obtain ⟨other, hother, -, -, -, hkept, hwithdrawn⟩ := policy_at ha
  obtain rfl := Option.some.inj (hr.symm.trans hother)
  simp only [withdraws, hid, hlength, hany, hsheets, ne_eq, not_false_eq_true, and_self, decide_true,
    Bool.true_and, Bool.false_or, Bool.not_eq_false', Bool.not_eq_true', decide_eq_true_eq,
    decide_eq_false_iff_not] at hkept hwithdrawn
  by_cases hlast : (placed u records (r.identity u)).getLast?.map Prod.snd = some p
  · rw [hkept hlast]
    exact ⟨fun h => ⟨h, hlast⟩, fun h => h.1⟩
  rw [(hwithdrawn hlast).1]
  constructor
  · intro h
    cases h
  · rintro ⟨-, h⟩
    exact absurd h hlast

theorem policy_untouched (hr : records[p]? = some r)
    (h : r.identity u = "" ∨ ∀ q s, records[q]? = some s → s.identity u = r.identity u → q = p) :
    (applyCrossWorksheetDuplicatePolicy u records policy)[p]? = some r := by
  rw [policy_getElem?, hr, Option.map_some, resolveDuplicate_kept]
  rw [withdraws, Bool.and_eq_false_iff]
  left
  rw [decide_eq_false_iff_not]
  rintro ⟨hid, hlength⟩
  rcases h with hnone | halone
  · exact hid hnone
  rw [found_length] at hlength
  have hsorted := placed_sorted u records (r.identity u)
  match hlist : placed u records (r.identity u) with
  | [] =>
    rw [hlist] at hlength
    cases hlength
  | [x] =>
    rw [hlist] at hlength
    simp only [length_singleton] at hlength
    omega
  | x :: y :: rest =>
    have hplace : ∀ z ∈ placed u records (r.identity u), z.2 = p := by
      rintro ⟨s, q⟩ hz
      obtain ⟨hs, hsame⟩ := mem_placed.mp hz
      exact halone q s hs hsame
    rw [hlist] at hsorted hplace
    have hlt := (pairwise_cons.mp hsorted).1 y mem_cons_self
    have hx := hplace x mem_cons_self
    have hy := hplace y (mem_cons_of_mem _ mem_cons_self)
    omega

theorem policy_resolved (policy : DuplicatePolicy) : Resolved (MappedRecord.identity u) policy records
      (applyCrossWorksheetDuplicatePolicy u records policy) where
  unique hne ha hb hrecognized hother hsame hid := policy_unique hne ha hb hrecognized hother hsame hid
  lastStays hpolicy _ _ _ hr ha hid hfree hcross :=
    policy_lastStays hr (hpolicy ▸ ha) hid hfree hcross
  untouched hr h := policy_untouched hr h

/-- The policy looks at identities, worksheets and whether a key is required, which it leaves. -/
theorem policy_found (policy : DuplicatePolicy) (i : String) :
    ((applyCrossWorksheetDuplicatePolicy u records policy).filter fun r => r.identity u = i).map
        (fun r => (r.sourceKeyRequired, r.worksheetName)) =
      (records.filter fun r => r.identity u = i).map fun r => (r.sourceKeyRequired, r.worksheetName) := by
  let look : MappedRecord → String × Bool × String :=
    fun r => (r.identity u, r.sourceKeyRequired, r.worksheetName)
  have hlook : (applyCrossWorksheetDuplicatePolicy u records policy).map look = records.map look := by
    apply ext_getElem?
    intro p
    rw [getElem?_map, getElem?_map, policy_getElem?, Option.map_map]
    cases records[p]? with
    | none => rfl
    | some r =>
      obtain ⟨hid, hrequired, hsheet⟩ := resolveDuplicate_keeps (u := u) policy
        (records.filter fun other => other.identity u = r.identity u)
        (decide ((placed u records (r.identity u)).getLast?.map Prod.snd = some p)) r
      simp [look, hid, hrequired, hsheet]
  have hfilter : ∀ l : List MappedRecord, (l.filter fun r => r.identity u = i).map
      (fun r => (r.sourceKeyRequired, r.worksheetName)) =
        ((l.map look).filter fun x => x.1 = i).map Prod.snd := by
    intro l
    rw [filter_map, map_map]
    rfl
  rw [hfilter, hfilter, hlook]

theorem withdraws_congr (hid : s.identity u = r.identity u)
    (h : other.map (fun r => (r.sourceKeyRequired, r.worksheetName)) =
      found.map fun r => (r.sourceKeyRequired, r.worksheetName)) :
    withdraws u policy other last s = withdraws u policy found last r := by
  have hlength : other.length = found.length := by simpa using congrArg length h
  have hany : other.any MappedRecord.sourceKeyRequired = found.any MappedRecord.sourceKeyRequired := by
    have := congrArg (any · Prod.fst) h
    simpa [any_map, Function.comp_def] using this
  have hsheets : other.map MappedRecord.worksheetName = found.map MappedRecord.worksheetName := by
    have := congrArg (map Prod.snd) h
    simpa [map_map, Function.comp_def] using this
  rw [withdraws, withdraws, hid, hlength, hany, hsheets]

/-- A second time the policy withdraws what it withdrew. -/
theorem policy_again (policy : DuplicatePolicy) :
    (applyCrossWorksheetDuplicatePolicy u (applyCrossWorksheetDuplicatePolicy u records policy)
        policy).map (fun r => (r.recognized, r.channels)) =
      (applyCrossWorksheetDuplicatePolicy u records policy).map fun r => (r.recognized, r.channels) := by
  apply ext_getElem?
  intro p
  rw [getElem?_map, getElem?_map]
  cases hb : (applyCrossWorksheetDuplicatePolicy u (applyCrossWorksheetDuplicatePolicy u records
      policy) policy)[p]? with
  | none =>
    rw [policy_getElem?, Option.map_eq_none_iff] at hb
    rw [hb]
  | some b =>
    obtain ⟨a, ha, -, -, -, hkept, hwithdrawn⟩ := policy_at hb
    obtain ⟨r, hr, hid, -, -, -, hfirst⟩ := policy_at ha
    rw [ha]
    cases hagain : withdraws u policy
        ((applyCrossWorksheetDuplicatePolicy u records policy).filter fun other =>
          other.identity u = a.identity u)
        (decide ((placed u (applyCrossWorksheetDuplicatePolicy u records policy)
          (a.identity u)).getLast?.map Prod.snd = some p)) a with
    | false => rw [hkept hagain]
    | true =>
      obtain ⟨hstill, hnone⟩ := hwithdrawn hagain
      have hlast : ((placed u (applyCrossWorksheetDuplicatePolicy u records policy)
          (a.identity u)).getLast?.map Prod.snd = some p) ↔
            (placed u records (r.identity u)).getLast?.map Prod.snd = some p := by
        rw [placed_last ha, placed_last hr]
        constructor
        · intro h q s hq hs
          have hat := @policy_getElem? u records policy q
          rw [hs, Option.map_some] at hat
          have hne := h q _ hq hat
          rwa [(resolveDuplicate_keeps _ _ _ _).1, hid] at hne
        · intro h q c hq hc
          obtain ⟨s, hs, hsid, -⟩ := policy_at hc
          rw [hsid, hid]
          exact h q s hq hs
      have hfound := @policy_found u records policy (a.identity u)
      rw [withdraws_congr hid hfound, decide_eq_decide.mpr hlast, hid] at hagain
      obtain ⟨hrecognized, hchannels⟩ := hfirst hagain
      rw [Option.map_some, Option.map_some, hrecognized, hchannels, hstill, hnone]

end Places

namespace MappedRecord

def sourceKey (record : MappedRecord) : Cell := (record.sourceProduct.lookup .sourceKey).getD .null

/-- What identifies the product of a record: its key where it has one, and its name where it has
none and needs none. -/
def productIdentity (u : Unicode) (record : MappedRecord) : String :=
  if identityText u record.sourceKey ≠ "" then u.casefold (identityText u record.sourceKey)
  else if record.sourceKeyRequired then ""
  else normalizeSourceProductKey u ((record.sourceProduct.lookup .name).getD .null)

end MappedRecord

/-- A key that counts as missing although it has a text, as a zero does, or as present although it
has none. -/
def Misread (u : Unicode) (key : Cell) (required : Bool) : Prop :=
  (key.truthy = false ∧ identityText u key ≠ "") ∨
    (key.truthy = true ∧ identityText u key = "" ∧ required = false)

theorem identity_of_read (hfold : ∀ s, u.casefold s = "" ↔ s = "") {record : MappedRecord}
    (h : ¬Misread u record.sourceKey record.sourceKeyRequired) :
    record.identity u = record.productIdentity u := by
  have hempty : normalizeSourceProductKey u (.text "") = "" := (hfold _).mpr rfl
  unfold MappedRecord.identity MappedRecord.identityValue MappedRecord.productIdentity
  change normalizeSourceProductKey u (if record.sourceKey.truthy = true then record.sourceKey
    else if record.sourceKeyRequired = true then .text ""
    else (record.sourceProduct.lookup .name).getD .null) = _
  rw [Misread, not_or] at h
  obtain ⟨hmissing, hpresent⟩ := h
  by_cases htext : identityText u record.sourceKey = ""
  · rw [if_neg (not_not.mpr htext)]
    cases htruthy : record.sourceKey.truthy with
    | false =>
      rw [if_neg (by decide)]
      cases record.sourceKeyRequired with
      | false => rfl
      | true => exact hempty
    | true =>
      cases hrequired : record.sourceKeyRequired with
      | false => exact absurd ⟨htruthy, htext, hrequired⟩ hpresent
      | true => exact (hfold _).mpr htext
  · have htruthy : record.sourceKey.truthy = true := by
      by_contra hfalse
      exact hmissing ⟨by simpa using hfalse, htext⟩
    rw [if_pos htext, if_pos htruthy]
    rfl

variable {policy : DuplicatePolicy} {required : Bool} {key : Cell}

/-- Only what the identity sees of a record is asked for. -/
theorem Resolved.congr {id other : MappedRecord → String}
    {records after : List MappedRecord} (hbefore : ∀ r ∈ records, id r = other r)
    (hafter : ∀ a ∈ after, id a = other a) (h : Resolved id policy records after) :
    Resolved other policy records after where
  unique hne ha hb hrecognized hother hsame hid r hr hrid := by
    rw [← hafter _ (mem_of_getElem? ha)] at hsame hid hrid
    rw [← hafter _ (mem_of_getElem? hb)] at hsame
    rw [← hbefore r hr] at hrid
    exact h.unique hne ha hb hrecognized hother hsame hid r hr hrid
  lastStays hpolicy p r a hr ha hid hfree hcross := by
    have hrid := hbefore r (mem_of_getElem? hr)
    rw [← hrid] at hid
    obtain ⟨s, hs, hsame, hsheet⟩ := hcross
    rw [h.lastStays hpolicy hr ha hid
      (fun s hs hsame => hfree s hs (by rw [← hbefore s hs, ← hrid, hsame]))
      ⟨s, hs, by rw [hbefore s hs, hrid, hsame], hsheet⟩]
    refine and_congr_right fun _ => ?_
    constructor
    · intro hlast q s hq hs
      rw [← hbefore s (mem_of_getElem? hs), ← hrid]
      exact hlast q s hq hs
    · intro hlast q s hq hs
      rw [hbefore s (mem_of_getElem? hs), hrid]
      exact hlast q s hq hs
  untouched {p r} hr halone := by
    have hrid := hbefore r (mem_of_getElem? hr)
    apply h.untouched hr
    rcases halone with hnone | halone
    · exact .inl (hrid.trans hnone)
    · right
      intro q s hs hsame
      exact halone q s hs (by rw [← hbefore s (mem_of_getElem? hs), ← hrid, hsame])

/-- Whether a list is resolved, and stays so when the policy is applied again. -/
def Settles (u : Unicode) (policy : DuplicatePolicy) (records : List MappedRecord) : Prop :=
  Resolved (MappedRecord.productIdentity u) policy records
      (applyCrossWorksheetDuplicatePolicy u records policy) ∧
    (applyCrossWorksheetDuplicatePolicy u (applyCrossWorksheetDuplicatePolicy u records policy)
        policy).map (fun r => (r.recognized, r.channels)) =
      (applyCrossWorksheetDuplicatePolicy u records policy).map fun r => (r.recognized, r.channels)

theorem settles_of_read (hfold : ∀ s, u.casefold s = "" ↔ s = "") (policy : DuplicatePolicy)
    {records : List MappedRecord}
    (h : ∀ r ∈ records, ¬Misread u r.sourceKey r.sourceKeyRequired) : Settles u policy records := by
  refine ⟨(policy_resolved policy).congr (fun r hr => identity_of_read hfold (h r hr)) ?_,
    policy_again policy⟩
  intro a ha
  obtain ⟨p, hp⟩ := mem_iff_getElem?.mp ha
  rw [policy_getElem?] at hp
  obtain ⟨r, hr, rfl⟩ := Option.map_eq_some_iff.mp hp
  have hread := h r (mem_of_getElem? hr)
  apply identity_of_read hfold
  cases hw : withdraws u policy (records.filter fun other => other.identity u = r.identity u)
      (decide ((placed u records (r.identity u)).getLast?.map Prod.snd = some p)) r with
  | false => rwa [resolveDuplicate_kept hw]
  | true =>
    obtain ⟨issue, hissue⟩ := resolveDuplicate_withdrawn hw
    rwa [hissue]

def row (worksheet : String) (required : Bool) (key : Cell) (name : String) : MappedRecord where
  rowKey := "external:" ++ worksheet ++ ":2"
  rowNumber := 2
  worksheetName := worksheet
  recognized := true
  sourceKeyRequired := required
  sourceProduct := [(.sourceKey, key), (.name, .text name)]
  channels := [⟨"woocommerce:primary", []⟩]
  valuePolicy := {}
  issues := []

theorem row_unmoved (h : ∀ sheet, (row sheet required key name).identity u = "") :
    applyCrossWorksheetDuplicatePolicy u [row "A" required key name, row "B" required key name]
      policy = [row "A" required key name, row "B" required key name] := by
  apply ext_getElem?
  intro p
  rw [policy_getElem?]
  cases hp : [row "A" required key name, row "B" required key name][p]? with
  | none => rfl
  | some r =>
    have hid : r.identity u = "" := by
      rcases mem_pair.mp (mem_of_getElem? hp) with rfl | rfl <;> exact h _
    rw [Option.map_some, resolveDuplicate_kept]
    simp [withdraws, hid]

/-- Two rows of one product on two worksheets both stay recognised. -/
theorem row_not_settled (hid : ∀ sheet, (row sheet required key name).identity u = "")
    (hproduct : (row "A" required key name).productIdentity u ≠ "") :
    ¬Settles u policy [row "A" required key name, row "B" required key name] := by
  intro h
  have hfirst : (applyCrossWorksheetDuplicatePolicy u [row "A" required key name,
      row "B" required key name] policy)[0]? = some (row "A" required key name) := by
    rw [row_unmoved hid]
    rfl
  have hsecond : (applyCrossWorksheetDuplicatePolicy u [row "A" required key name,
      row "B" required key name] policy)[1]? = some (row "B" required key name) := by
    rw [row_unmoved hid]
    rfl
  have hunique := h.1.unique (by decide) hfirst hsecond rfl rfl rfl hproduct
    (row "B" required key name) (by simp) rfl
  have hsheets : "B" = "A" := hunique.2
  exact absurd hsheets (by decide)

theorem not_settled_of_misread (law : u.Printable) (hfold : ∀ s, u.casefold s = "" ↔ s = "")
    (policy : DuplicatePolicy) (h : Misread u key required) :
    ∃ name, ¬Settles u policy [row "A" required key name, row "B" required key name] := by
  rcases h with ⟨htruthy, htext⟩ | ⟨htruthy, htext, rfl⟩
  · refine ⟨"", row_not_settled ?_ ?_⟩
    · intro sheet
      have hvalue : (row sheet required key "").identityValue = .text "" := by
        change (if key.truthy = true then key else if required = true then Cell.text ""
          else .text "") = _
        rw [htruthy, if_neg (by decide), ite_self]
      rw [MappedRecord.identity, hvalue]
      exact (hfold _).mpr rfl
    · have hkey : (row "A" required key "").sourceKey = key := rfl
      rw [MappedRecord.productIdentity, hkey, if_pos htext]
      exact fun h => htext ((hfold _).mp h)
  · refine ⟨"x", row_not_settled ?_ ?_⟩
    · intro sheet
      have hvalue : (row sheet false key "x").identityValue = key := by
        change (if key.truthy = true then key else _) = _
        rw [if_pos htruthy]
      rw [MappedRecord.identity, hvalue]
      exact (hfold _).mpr htext
    · have hkey : (row "A" false key "x").sourceKey = key := rfl
      have hname : identityText u (.text "x") = "x" := by
        have hvisible : u.isSpace 'x' = false := law.isSpace_ascii 'x' (by decide) (by decide)
        have hstrip : strip u ['x'] = ['x'] :=
          strip_of_visible fun c hc => by rw [mem_singleton.mp hc, hvisible]
        change String.ofList (strip u "x".toList) = "x"
        rw [show "x".toList = ['x'] by simp, hstrip]
      rw [MappedRecord.productIdentity, hkey, if_neg (not_not.mpr htext)]
      change u.casefold (identityText u (.text "x")) ≠ ""
      rw [hname]
      exact fun h => absurd ((hfold _).mp h) (by decide)

/-- Duplicates are resolved where every key is read as its text is. A key that is not leaves two
rows of a product recognised, among rows with that very key. -/
theorem duplicates_settled_iff (law : u.Printable) (hfold : ∀ s, u.casefold s = "" ↔ s = "")
    (policy : DuplicatePolicy) :
    (∀ records, (∀ r ∈ records, ¬Misread u r.sourceKey r.sourceKeyRequired) → Settles u policy records) ∧
    ∀ key required, (∀ records, (∀ r ∈ records, r.sourceKey = key ∧ r.sourceKeyRequired = required) →
      Settles u policy records) ↔ ¬Misread u key required := by
  refine ⟨fun records => settles_of_read hfold policy, fun key required => ⟨?_, ?_⟩⟩
  · intro h hmisread
    obtain ⟨name, hname⟩ := not_settled_of_misread law hfold policy hmisread
    refine hname (h _ ?_)
    intro r hr
    rcases mem_pair.mp hr with rfl | rfl <;> exact ⟨rfl, rfl⟩
  · intro hread records hrecords
    refine settles_of_read hfold policy fun r hr => ?_
    rw [(hrecords r hr).1, (hrecords r hr).2]
    exact hread

theorem ascii_casefold_empty (s : String) : Unicode.ascii.casefold s = "" ↔ s = "" := by
  change String.ofList (s.toList.map Char.toLower) = "" ↔ s = ""
  rw [← String.toList_inj, ← String.toList_inj]
  simp

theorem duplicates_settled_keys :
    Settles .ascii .lastSheetWins [row "A" false (.text "SKU-1") "", row "B" false (.text "sku-1 ") ""] ∧
    ¬∀ records, (∀ r ∈ records, r.sourceKey = .text " " ∧ r.sourceKeyRequired = false) →
      Settles .ascii .lastSheetWins records := by
  obtain ⟨hsettles, hiff⟩ :=
    duplicates_settled_iff Unicode.ascii_printable ascii_casefold_empty .lastSheetWins
  constructor
  · apply hsettles
    intro r hr
    have hread : ∀ key ∈ [Cell.text "SKU-1", .text "sku-1 "],
        key.truthy = true ∧ identityText .ascii key ≠ "" := by decide +kernel
    have hkey : r.sourceKey.truthy = true ∧ identityText .ascii r.sourceKey ≠ "" := by
      rcases mem_pair.mp hr with rfl | rfl
      · exact hread (.text "SKU-1") (by simp)
      · exact hread (.text "sku-1 ") (by simp)
    rintro (⟨htruthy, -⟩ | ⟨-, htext, -⟩)
    · rw [hkey.1] at htruthy
      cases htruthy
    · exact hkey.2 htext
  · rw [hiff]
    exact not_not.mpr (.inr (by decide +kernel))

/-- Two rows with the number zero for their required key. -/
theorem zero_key_stays : normalizeSourceProductKey .ascii (.int 0) = "0" ∧
    applyCrossWorksheetDuplicatePolicy .ascii [row "A" true (.int 0) "", row "B" true (.int 0) ""]
      .block = [row "A" true (.int 0) "", row "B" true (.int 0) ""] ∧
    ¬Settles .ascii .block [row "A" true (.int 0) "", row "B" true (.int 0) ""] := by
  have hid : ∀ sheet, (row sheet true (.int 0) "").identity .ascii = "" := by
    intro sheet
    have hvalue : (row sheet true (.int 0) "").identityValue = .text "" := by
      change (if (Cell.int 0).truthy = true then Cell.int 0 else .text "") = _
      exact if_neg (by decide)
    rw [MappedRecord.identity, hvalue]
    decide +kernel
  exact ⟨by decide +kernel, row_unmoved hid, row_not_settled hid (by decide +kernel)⟩

end FlowHub.Source
