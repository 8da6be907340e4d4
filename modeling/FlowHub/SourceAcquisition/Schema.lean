import FlowHub.Python.Text
import Mathlib.Data.List.Nodup

/-! The headers a Source shows against those its mapping was made for, in their canonical spelling. -/
namespace FlowHub.SourceAcquisition

open Python List

inductive ChangeKind where
  | added | removed | reordered | renameCandidate | duplicateHeader | canonicalCollision
  | requiredFieldMissing | unsupportedShape
  deriving DecidableEq

/-- What `_diff` builds. -/
structure SchemaDrift where
  changeKind : ChangeKind
  expectedPosition : Option Nat := none
  observedPosition : Option Nat := none
  expectedRaw : Option String := none
  expectedCanonical : Option String := none
  observedRaw : Option String := none
  observedCanonical : Option String := none
  confidence : Option String := none
  evidence : Option String := none

/-- What `_diagnostic` builds. -/
structure SchemaDiagnostic where
  (reasonCode actionCode : String)

inductive SchemaStatus where
  | matched | drift | ambiguous
  deriving DecidableEq

structure SourceMappingSchemaExpectation where
  (rawHeaders canonicalHeaders requiredCanonicalHeaders : List String)

structure Comparison where
  status : SchemaStatus
  diffs : List SchemaDrift
  diagnostics : List SchemaDiagnostic

/-- Marks of the writing direction. -/
def isBidi (c : Char) : Bool :=
  c = '\u200e' || c = '\u200f' || ('\u202a' ≤ c && c ≤ '\u202e') || ('\u2066' ≤ c && c ≤ '\u2069')

def arabicLetter (c : Char) : Char :=
  if c = '\u064a' || c = '\u0649' then '\u06cc' else if c = '\u0643' then '\u06a9' else c

/-- `canonicalize_header`, over `unicodedata.normalize("NFKC", ...)`. -/
def canonicalizeHeader (u : Unicode) (nfkc : String → String) (value : String) : String :=
  let raw := (nfkc value).toList.map arabicLetter
  let raw := raw.filter fun c => !isBidi c
  u.casefold (String.ofList (raw.filter fun c => !(u.isSpace c || c = '\u200c')))

/-- `{value: index for index, value in enumerate(values, start=1)}`. -/
def positions (values : List String) (value : String) : Option Nat :=
  (values.zipIdx 1).reverse.lookup value

/-- The raw header at a position. -/
def rawAt (raw : List String) (position : Option Nat) : Option String :=
  position.bind fun index => raw[index - 1]?

/-- What is said of an observed header that is blank or not the only one. -/
def malformedHeader (observedRaw observed : List String) (item : (String × String) × Nat) :
    Option SchemaDrift :=
  let drift (changeKind : ChangeKind) : SchemaDrift := {
    changeKind := changeKind
    observedPosition := some item.2
    observedRaw := some item.1.1
    observedCanonical := some item.1.2 }
  if item.1.2 = "" then some (drift .unsupportedShape)
  else if 1 < observedRaw.count item.1.1 then some (drift .duplicateHeader)
  else if 1 < observed.count item.1.2 then some (drift .canonicalCollision)
  else none

def malformedDiagnostics (diffs : List SchemaDrift) : List SchemaDiagnostic :=
  let said (changeKind : ChangeKind) (diagnostic : SchemaDiagnostic) : List SchemaDiagnostic :=
    if diffs.any fun drift => drift.changeKind = changeKind then [diagnostic] else []
  said .duplicateHeader ⟨"duplicate_header", "rename_duplicate_header"⟩ ++
    said .canonicalCollision ⟨"canonical_collision", "rename_colliding_header"⟩ ++
    said .unsupportedShape ⟨"unsupported_field_shape", "repair_header_shape"⟩

def addedHeaders (observed expected : List String) : List String :=
  observed.filter fun value => decide (value ∉ expected)

def removedHeaders (observed expected : List String) : List String :=
  expected.filter fun value => decide (value ∉ observed)

section

variable (observedRaw observed : List String) (expectation : SourceMappingSchemaExpectation)

def addedDrift (value : String) : SchemaDrift where
  changeKind := .added
  observedPosition := positions observed value
  observedRaw := rawAt observedRaw (positions observed value)
  observedCanonical := some value

/-- What is said of an expected header, of which nothing is observed. -/
def absentDrift (changeKind : ChangeKind) (value : String) : SchemaDrift where
  changeKind := changeKind
  expectedPosition := positions expectation.canonicalHeaders value
  expectedRaw := rawAt expectation.rawHeaders (positions expectation.canonicalHeaders value)
  expectedCanonical := some value

/-- What is said of an expected header and the observed one that stands for it. -/
def pairedDrift (changeKind : ChangeKind) (expected value : String) : SchemaDrift where
  changeKind := changeKind
  expectedPosition := positions expectation.canonicalHeaders expected
  observedPosition := positions observed value
  expectedRaw := rawAt expectation.rawHeaders (positions expectation.canonicalHeaders expected)
  expectedCanonical := some expected
  observedRaw := rawAt observedRaw (positions observed value)
  observedCanonical := some value

def renameDrift (removed added : String) : SchemaDrift :=
  { pairedDrift observedRaw observed expectation .renameCandidate removed added with
    confidence := some "exact_position"
    evidence := some "one_removed_one_added_same_position" }

/-- How a comparison ends whose records are all there. -/
def concluded (diffs : List SchemaDrift) (diagnostics : List SchemaDiagnostic) : Comparison :=
  if diffs.isEmpty then ⟨.matched, [], [⟨"schema_match", "none"⟩]⟩
  else if diagnostics.isEmpty then ⟨.drift, diffs, [⟨"schema_drift", "review_mapping"⟩]⟩
  else ⟨.drift, diffs, diagnostics⟩

/-- The comparison of headers that are well formed and are not one added and one removed. -/
def compareAll : Comparison :=
  let expected := expectation.canonicalHeaders
  let added := addedHeaders observed expected
  let removed := removedHeaders observed expected
  let missing := expectation.requiredCanonicalHeaders.filter fun value => decide (value ∉ observed)
  let moved := added.isEmpty && removed.isEmpty && decide (observed ≠ expected)
  let reordered := if moved then
      expected.filter fun value => decide (positions observed value ≠ positions expected value)
    else []
  let diffs := added.map (addedDrift observedRaw observed) ++
    removed.map (absentDrift expectation .removed) ++
    missing.map (absentDrift expectation .requiredFieldMissing) ++
    reordered.map fun value => pairedDrift observedRaw observed expectation .reordered value value
  let diagnostics := (if added.isEmpty then [] else [⟨"headers_added", "review_observed_headers"⟩]) ++
    (if removed.isEmpty then [] else [⟨"headers_removed", "update_mapping"⟩]) ++
    missing.map (fun _ => ⟨"required_field_missing", "restore_required_header"⟩) ++
    (if moved then [⟨"headers_reordered", "review_column_order"⟩] else [])
  concluded diffs diagnostics

end

def compare (u : Unicode) (nfkc : String → String) (observedRaw : List String)
    (expectation : SourceMappingSchemaExpectation) : Comparison :=
  let observed := observedRaw.map (canonicalizeHeader u nfkc)
  let expected := expectation.canonicalHeaders
  let malformed := ((observedRaw.zip observed).zipIdx 1).filterMap (malformedHeader observedRaw observed)
  if !malformed.isEmpty then ⟨.ambiguous, malformed, malformedDiagnostics malformed⟩
  else
    match addedHeaders observed expected, removedHeaders observed expected with
    | [new], [old] =>
      if positions observed new = positions expected old then
        ⟨.drift, [renameDrift observedRaw observed expectation old new],
          [⟨"schema_drift", "review_rename_candidate"⟩]⟩
      else ⟨.ambiguous, [], [⟨"ambiguous_mapping", "review_mapping"⟩]⟩
    | _, _ => compareAll observedRaw observed expectation

theorem positions_concat (values : List String) (last value : String) : positions (values ++ [last]) value =
      if value = last then some (values.length + 1) else positions values value := by
  unfold positions
  rw [zipIdx_append, reverse_append]
  by_cases h : value = last
  · subst h
    simp [zipIdx_cons, Nat.add_comm]
  · have hne : (value == last) = false := by simpa using h
    simp [zipIdx_cons, lookup_cons, hne, h]

theorem positions_of_nodup (values : List String) (h : values.Nodup) (value : String) :
    positions values value = if value ∈ values then some (values.idxOf value + 1) else none := by
  induction values using reverseRecOn with
  | nil => rfl
  | append_singleton values last ih =>
    have hlast : last ∉ values := by
      have := (nodup_append.mp h).2.2
      exact fun hmem => this last hmem last (mem_singleton_self last) rfl
    rw [positions_concat, ih (nodup_append.mp h).1]
    by_cases hvalue : value = last
    · subst hvalue
      simp [idxOf_append, hlast]
    · by_cases hmem : value ∈ values
      · simp [hvalue, hmem, idxOf_append]
      · simp [hvalue, hmem]

theorem positions_of_mem (h : values.Nodup)
    (hmem : value ∈ values) : positions values value = some (values.idxOf value + 1) := by
  rw [positions_of_nodup values h, if_pos hmem]

/-- Two orders of the same headers agree once every header has one place. -/
theorem eq_of_places {observed expected : List String} (hobserved : observed.Nodup)
    (hexpected : expected.Nodup) (hsame : ∀ value, value ∈ observed ↔ value ∈ expected)
    (hplaces : ∀ value ∈ expected, observed.idxOf value = expected.idxOf value) :
    observed = expected := by
  have hperm : observed.Perm expected :=
    (perm_ext_iff_of_nodup hobserved hexpected).mpr hsame
  apply ext_getElem hperm.length_eq
  intro i hi hj
  have hat : observed.idxOf expected[i] = i := by
    rw [hplaces _ (getElem_mem hj), hexpected.idxOf_getElem i hj]
  have hmem : expected[i] ∈ observed := (hsame _).mpr (getElem_mem hj)
  have hget := getElem_idxOf (idxOf_lt_length_of_mem hmem)
  simpa only [hat] using hget

/-- A record about an expected header, an observed one or a pair, with their places. -/
def Tells (expected observed : List String) (changeKind : ChangeKind) (old new : Option String)
    (drift : SchemaDrift) : Prop :=
  drift.changeKind = changeKind ∧ drift.expectedCanonical = old ∧ drift.observedCanonical = new ∧
    drift.expectedPosition = old.map (fun value => expected.idxOf value + 1) ∧
    drift.observedPosition = new.map fun value => observed.idxOf value + 1

/-- The records name every difference there is, and no other. -/
structure Named (required expected observed : List String) (diffs : List SchemaDrift) : Prop where
  added : ∀ value, (∃ drift ∈ diffs, Tells expected observed .added none (some value) drift) ↔
    value ∈ observed ∧ value ∉ expected
  removed : ∀ value, (∃ drift ∈ diffs, Tells expected observed .removed (some value) none drift) ↔
    value ∈ expected ∧ value ∉ observed
  missing : ∀ value,
    (∃ drift ∈ diffs, Tells expected observed .requiredFieldMissing (some value) none drift) ↔
      value ∈ required ∧ value ∉ observed
  reordered : ∀ value, (∃ drift ∈ diffs, Tells expected observed .reordered (some value) (some value) drift) ↔
      (∀ header, header ∈ observed ↔ header ∈ expected) ∧ value ∈ expected ∧
        observed.idxOf value ≠ expected.idxOf value

section

variable (u : Unicode) (nfkc : String → String) (observedRaw : List String)
  (expectation : SourceMappingSchemaExpectation)

/-- Headers are well formed once none is blank and no two are spelled alike. -/
theorem malformed_eq_nil :
    let observed := observedRaw.map (canonicalizeHeader u nfkc)
    ((observedRaw.zip observed).zipIdx 1).filterMap (malformedHeader observedRaw observed) = [] ↔
      "" ∉ observed ∧ observed.Nodup := by
  intro observed
  have hzip : (observedRaw.zip observed) = observedRaw.map fun raw => (raw, canonicalizeHeader u nfkc raw) :=
    (map_prod_left_eq_zip ..).symm
  rw [filterMap_eq_nil_iff, forall_mem_zipIdx, hzip]
  simp only [length_map, getElem_map]
  constructor
  · intro hnone
    have hone : ∀ raw ∈ observedRaw, canonicalizeHeader u nfkc raw ≠ "" ∧
        observed.count (canonicalizeHeader u nfkc raw) ≤ 1 := by
      intro raw hmem
      obtain ⟨i, h, rfl⟩ := getElem_of_mem hmem
      have hi := hnone i h
      simp only [malformedHeader] at hi
      split at hi
      · cases hi
      split at hi
      · cases hi
      split at hi
      · cases hi
      · rename_i hblank _ hcount
        exact ⟨hblank, by omega⟩
    constructor
    · intro hblank
      obtain ⟨raw, hmem, heq⟩ := mem_map.mp hblank
      exact (hone raw hmem).1 heq
    · rw [nodup_iff_count_le_one]
      intro value
      by_cases hmem : value ∈ observed
      · obtain ⟨raw, hraw, rfl⟩ := mem_map.mp hmem
        exact (hone raw hraw).2
      · simp [count_eq_zero_of_not_mem hmem]
  · intro hwell i h
    have hmem : canonicalizeHeader u nfkc observedRaw[i] ∈ observed :=
      mem_map_of_mem (getElem_mem h)
    have hblank : canonicalizeHeader u nfkc observedRaw[i] ≠ "" := by
      intro heq
      exact hwell.1 (heq ▸ hmem)
    have hraw : observedRaw.count observedRaw[i] ≤ 1 :=
      nodup_iff_count_le_one.mp (Nodup.of_map _ hwell.2) _
    have hcanonical : observed.count (canonicalizeHeader u nfkc observedRaw[i]) ≤ 1 :=
      nodup_iff_count_le_one.mp hwell.2 _
    simp [malformedHeader, if_neg hblank, if_neg (Nat.not_lt.mpr hraw), if_neg (Nat.not_lt.mpr hcanonical)]

variable (observed : List String)

theorem mem_addedHeaders {expected : List String} {value : String} :
    value ∈ addedHeaders observed expected ↔ value ∈ observed ∧ value ∉ expected := by
  simp [addedHeaders]

theorem mem_removedHeaders {expected : List String} {value : String} :
    value ∈ removedHeaders observed expected ↔ value ∈ expected ∧ value ∉ observed := by
  simp [removedHeaders]

/-- Nothing new and nothing gone: the two lists have the same headers. -/
theorem same_headers : addedHeaders observed expected = [] ∧ removedHeaders observed expected = [] ↔
      ∀ header, header ∈ observed ↔ header ∈ expected := by
  simp only [addedHeaders, removedHeaders, filter_eq_nil_iff, decide_not, Bool.not_eq_true',
    decide_eq_false_iff_not, not_not]
  constructor
  · intro h header
    exact ⟨h.1 header, h.2 header⟩
  · intro h
    exact ⟨fun header => (h header).mp, fun header => (h header).mpr⟩

theorem concluded_diffs (diffs : List SchemaDrift) (diagnostics : List SchemaDiagnostic) :
    (concluded diffs diagnostics).diffs = diffs := by
  cases diffs with
  | nil => rfl
  | cons first rest =>
    cases diagnostics with
    | nil => rfl
    | cons _ _ => rfl

theorem concluded_status (diffs : List SchemaDrift) (diagnostics : List SchemaDiagnostic) :
    (concluded diffs diagnostics).status = if diffs = [] then .matched else .drift := by
  cases diffs with
  | nil => rfl
  | cons first rest =>
    cases diagnostics with
    | nil => rfl
    | cons _ _ => rfl

theorem compareAll_status : (compareAll observedRaw observed expectation).status =
    if (compareAll observedRaw observed expectation).diffs = [] then .matched else .drift := by
  unfold compareAll
  simp [concluded_diffs, concluded_status]

/-- The records of `compareAll`. -/
theorem mem_compareAll (drift : SchemaDrift) : drift ∈ (compareAll observedRaw observed expectation).diffs ↔
      (∃ value ∈ addedHeaders observed expectation.canonicalHeaders,
        addedDrift observedRaw observed value = drift) ∨
      (∃ value ∈ removedHeaders observed expectation.canonicalHeaders,
        absentDrift expectation .removed value = drift) ∨
      (∃ value, (value ∈ expectation.requiredCanonicalHeaders ∧ value ∉ observed) ∧
        absentDrift expectation .requiredFieldMissing value = drift) ∨
      ((∀ header, header ∈ observed ↔ header ∈ expectation.canonicalHeaders) ∧
        observed ≠ expectation.canonicalHeaders ∧
        ∃ value, (value ∈ expectation.canonicalHeaders ∧
          positions observed value ≠ positions expectation.canonicalHeaders value) ∧
            pairedDrift observedRaw observed expectation .reordered value value = drift) := by
  rw [← same_headers]
  unfold compareAll
  simp only [concluded_diffs, mem_append, mem_map, or_assoc, mem_filter, decide_eq_true_eq]
  generalize addedHeaders observed expectation.canonicalHeaders = added
  generalize removedHeaders observed expectation.canonicalHeaders = removed
  by_cases hmoved : (added = [] ∧ removed = []) ∧ observed ≠ expectation.canonicalHeaders
  · have htest : (added.isEmpty && removed.isEmpty &&
        decide (observed ≠ expectation.canonicalHeaders)) = true := by
      simpa [and_assoc] using hmoved
    rw [if_pos htest]
    simp [hmoved.1.1, hmoved.1.2, hmoved.2]
  · have htest : ¬ (added.isEmpty && removed.isEmpty &&
        decide (observed ≠ expectation.canonicalHeaders)) = true := by
      simpa [and_assoc] using hmoved
    have hno : ∀ p : Prop,
        ((added = [] ∧ removed = []) ∧ observed ≠ expectation.canonicalHeaders ∧ p) ↔ False :=
      fun _ => ⟨fun h => hmoved ⟨h.1, h.2.1⟩, False.elim⟩
    rw [if_neg htest, hno]
    simp [not_mem_nil, false_and, exists_false]

section

variable {observedRaw observed expectation}

theorem tells_added (h : observed.Nodup) (hmem : value ∈ observed) :
    Tells expectation.canonicalHeaders observed kind old new (addedDrift observedRaw observed value) ↔
      kind = .added ∧ old = none ∧ new = some value := by
  simp only [Tells, addedDrift]
  constructor
  · rintro ⟨rfl, rfl, rfl, -, -⟩
    exact ⟨rfl, rfl, rfl⟩
  · rintro ⟨rfl, rfl, rfl⟩
    simp [positions_of_mem h hmem]

theorem tells_absent (h : expectation.canonicalHeaders.Nodup) (hmem : value ∈ expectation.canonicalHeaders) :
    Tells expectation.canonicalHeaders observed kind old new (absentDrift expectation changeKind value) ↔
      kind = changeKind ∧ old = some value ∧ new = none := by
  simp only [Tells, absentDrift]
  constructor
  · rintro ⟨rfl, rfl, rfl, -, -⟩
    exact ⟨rfl, rfl, rfl⟩
  · rintro ⟨rfl, rfl, rfl⟩
    simp [positions_of_mem h hmem]

theorem tells_paired (h : expectation.canonicalHeaders.Nodup) (hobserved : observed.Nodup)
    (hmem : value ∈ expectation.canonicalHeaders) (hother : other ∈ observed) :
    Tells expectation.canonicalHeaders observed kind old new
        (pairedDrift observedRaw observed expectation changeKind value other) ↔
      kind = changeKind ∧ old = some value ∧ new = some other := by
  simp only [Tells, pairedDrift]
  constructor
  · rintro ⟨rfl, rfl, rfl, -, -⟩
    exact ⟨rfl, rfl, rfl⟩
  · rintro ⟨rfl, rfl, rfl⟩
    simp [positions_of_mem h hmem, positions_of_mem hobserved hother]

/-- What a record of `compareAll` says. -/
theorem compareAll_tells (hobserved : observed.Nodup) (hexpected : expectation.canonicalHeaders.Nodup)
    (hrequired : ∀ header ∈ expectation.requiredCanonicalHeaders, header ∈ expectation.canonicalHeaders) :
    (∃ drift ∈ (compareAll observedRaw observed expectation).diffs,
        Tells expectation.canonicalHeaders observed kind old new drift) ↔
      (∃ header, (header ∈ observed ∧ header ∉ expectation.canonicalHeaders) ∧
        kind = .added ∧ old = none ∧ new = some header) ∨
      (∃ header, (header ∈ expectation.canonicalHeaders ∧ header ∉ observed) ∧
        kind = .removed ∧ old = some header ∧ new = none) ∨
      (∃ header, (header ∈ expectation.requiredCanonicalHeaders ∧ header ∉ observed) ∧
        kind = .requiredFieldMissing ∧ old = some header ∧ new = none) ∨
      ((∀ header, header ∈ observed ↔ header ∈ expectation.canonicalHeaders) ∧
        ∃ header, (header ∈ expectation.canonicalHeaders ∧
          observed.idxOf header ≠ expectation.canonicalHeaders.idxOf header) ∧
            kind = .reordered ∧ old = some header ∧ new = some header) := by
  constructor
  · rintro ⟨drift, hmem, htells⟩
    rcases (mem_compareAll ..).mp hmem with ⟨header, h, rfl⟩ | ⟨header, h, rfl⟩ | ⟨header, h, rfl⟩ |
      ⟨hsame, -, header, ⟨h, hmoved⟩, rfl⟩
    · have h := (mem_addedHeaders _).mp h
      exact Or.inl ⟨header, h, (tells_added hobserved h.1).mp htells⟩
    · have h := (mem_removedHeaders _).mp h
      exact Or.inr (Or.inl ⟨header, h, (tells_absent hexpected h.1).mp htells⟩)
    · exact Or.inr (Or.inr (Or.inl
        ⟨header, h, (tells_absent hexpected (hrequired header h.1)).mp htells⟩))
    · have hobs := (hsame header).mpr h
      refine Or.inr (Or.inr (Or.inr ⟨hsame, header, ⟨h, ?_⟩,
        (tells_paired hexpected hobserved h hobs).mp htells⟩))
      intro heq
      rw [positions_of_mem hobserved hobs, positions_of_mem hexpected h, heq] at hmoved
      exact hmoved rfl
  · rintro (⟨header, h, htells⟩ | ⟨header, h, htells⟩ | ⟨header, h, htells⟩ |
      ⟨hsame, header, ⟨h, hmoved⟩, htells⟩)
    · exact ⟨_, (mem_compareAll ..).mpr (Or.inl ⟨header, (mem_addedHeaders _).mpr h, rfl⟩),
        (tells_added hobserved h.1).mpr htells⟩
    · exact ⟨_, (mem_compareAll ..).mpr (Or.inr (Or.inl ⟨header, (mem_removedHeaders _).mpr h, rfl⟩)),
        (tells_absent hexpected h.1).mpr htells⟩
    · exact ⟨_, (mem_compareAll ..).mpr (Or.inr (Or.inr (Or.inl ⟨header, h, rfl⟩))),
        (tells_absent hexpected (hrequired header h.1)).mpr htells⟩
    · have hobs := (hsame header).mpr h
      have hne : observed ≠ expectation.canonicalHeaders := by
        intro heq
        rw [heq] at hmoved
        exact hmoved rfl
      have hplaces : positions observed header ≠ positions expectation.canonicalHeaders header := by
        rw [positions_of_mem hobserved hobs, positions_of_mem hexpected h]
        simpa using hmoved
      exact ⟨_, (mem_compareAll ..).mpr (Or.inr (Or.inr (Or.inr
        ⟨hsame, hne, header, ⟨h, hplaces⟩, rfl⟩))), (tells_paired hexpected hobserved h hobs).mpr htells⟩

theorem compareAll_named (hobserved : observed.Nodup) (hexpected : expectation.canonicalHeaders.Nodup)
    (hrequired : ∀ header ∈ expectation.requiredCanonicalHeaders, header ∈ expectation.canonicalHeaders) :
    Named expectation.requiredCanonicalHeaders expectation.canonicalHeaders observed
      (compareAll observedRaw observed expectation).diffs := by
  constructor
  all_goals
    intro header
    rw [compareAll_tells hobserved hexpected hrequired]
    simp

/-- Well formed headers that are not the expected ones are drift. -/
theorem compareAll_drift (hobserved : observed.Nodup) (hexpected : expectation.canonicalHeaders.Nodup)
    (hrequired : ∀ header ∈ expectation.requiredCanonicalHeaders, header ∈ expectation.canonicalHeaders) :
    (compareAll observedRaw observed expectation).status =
      if observed = expectation.canonicalHeaders then .matched else .drift := by
  have named : Named expectation.requiredCanonicalHeaders expectation.canonicalHeaders observed
      (compareAll observedRaw observed expectation).diffs :=
    compareAll_named hobserved hexpected hrequired
  rw [compareAll_status]
  congr 1
  rw [eq_iff_iff]
  constructor
  · intro hnone
    rw [hnone] at named
    have hsame : ∀ header, header ∈ observed ↔ header ∈ expectation.canonicalHeaders := by
      intro header
      have hadded := named.added header
      have hremoved := named.removed header
      simp only [not_mem_nil, false_and, exists_false, false_iff, not_and, not_not] at hadded hremoved
      exact ⟨hadded, hremoved⟩
    apply eq_of_places hobserved hexpected hsame
    intro header hmem
    by_contra hmoved
    have := (named.reordered header).mpr ⟨hsame, hmem, hmoved⟩
    simp at this
  · intro heq
    rw [eq_nil_iff_forall_not_mem]
    intro drift hmem
    rcases (mem_compareAll ..).mp hmem with ⟨header, h, -⟩ | ⟨header, h, -⟩ | ⟨header, h, -⟩ | ⟨-, h, -⟩
    · have h := (mem_addedHeaders _).mp h
      exact h.2 (heq ▸ h.1)
    · have h := (mem_removedHeaders _).mp h
      exact h.2 (heq ▸ h.1)
    · exact h.2 (heq ▸ hrequired header h.1)
    · exact h heq

end

theorem compare_malformed (h : ¬ ("" ∉ observedRaw.map (canonicalizeHeader u nfkc) ∧
    (observedRaw.map (canonicalizeHeader u nfkc)).Nodup)) :
    (compare u nfkc observedRaw expectation).status = .ambiguous := by
  have hmalformed := mt (malformed_eq_nil u nfkc observedRaw).mp h
  rw [← ne_eq, ← isEmpty_eq_false_iff] at hmalformed
  unfold compare
  dsimp only
  rw [hmalformed]
  rfl

/-- One header came and one went. -/
theorem compare_pair (h : "" ∉ observedRaw.map (canonicalizeHeader u nfkc) ∧
    (observedRaw.map (canonicalizeHeader u nfkc)).Nodup)
    (hexpected : expectation.canonicalHeaders.Nodup) {new old : String}
    (hnew : addedHeaders (observedRaw.map (canonicalizeHeader u nfkc)) expectation.canonicalHeaders = [new])
    (hold : removedHeaders (observedRaw.map (canonicalizeHeader u nfkc)) expectation.canonicalHeaders =
      [old]) :
    let observed := observedRaw.map (canonicalizeHeader u nfkc)
    let expected := expectation.canonicalHeaders
    let result := compare u nfkc observedRaw expectation
    if observed.idxOf new = expected.idxOf old then
      result.status = .drift ∧ ∃ drift, result.diffs = [drift] ∧
        Tells expected observed .renameCandidate (some old) (some new) drift
    else result.status = .ambiguous ∧ result.diffs = [] := by
  intro observed expected result
  have hin : new ∈ observed ∧ new ∉ expected := (mem_addedHeaders _).mp (by simp [observed, expected, hnew])
  have hout : old ∈ expected ∧ old ∉ observed :=
    (mem_removedHeaders _).mp (by simp [observed, expected, hold])
  have hresult : result = if positions observed new = positions expected old then
      ⟨.drift, [renameDrift observedRaw observed expectation old new],
        [⟨"schema_drift", "review_rename_candidate"⟩]⟩
      else ⟨.ambiguous, [], [⟨"ambiguous_mapping", "review_mapping"⟩]⟩ := by
    simp only [result, compare]
    rw [(malformed_eq_nil u nfkc observedRaw).mpr h, hnew, hold]
    rfl
  have hplaces : positions observed new = positions expected old ↔
      observed.idxOf new = expected.idxOf old := by
    rw [positions_of_mem h.2 hin.1, positions_of_mem hexpected hout.1, Option.some.injEq,
      Nat.add_right_cancel_iff]
  rw [hresult]
  by_cases hsame : observed.idxOf new = expected.idxOf old
  · rw [if_pos hsame, if_pos (hplaces.mpr hsame)]
    refine ⟨rfl, _, rfl, rfl, rfl, rfl, ?_, ?_⟩
    · exact positions_of_mem hexpected hout.1
    · exact positions_of_mem h.2 hin.1
  · rw [if_neg hsame, if_neg (mt hplaces.mp hsame)]
    exact ⟨rfl, rfl⟩

theorem compare_rest (h : "" ∉ observedRaw.map (canonicalizeHeader u nfkc) ∧
    (observedRaw.map (canonicalizeHeader u nfkc)).Nodup)
    (hpair : ¬ ((addedHeaders (observedRaw.map (canonicalizeHeader u nfkc))
        expectation.canonicalHeaders).length = 1 ∧
      (removedHeaders (observedRaw.map (canonicalizeHeader u nfkc))
        expectation.canonicalHeaders).length = 1)) :
    compare u nfkc observedRaw expectation =
      compareAll observedRaw (observedRaw.map (canonicalizeHeader u nfkc)) expectation := by
  unfold compare
  dsimp only
  rw [(malformed_eq_nil u nfkc observedRaw).mpr h]
  simp only [isEmpty_nil, Bool.not_true, Bool.false_eq_true, if_false]
  split
  · rename_i new old hnew hold
    exact absurd ⟨by rw [hnew]; rfl, by rw [hold]; rfl⟩ hpair
  · rfl

/-- Well formed headers match exactly when they are the expected ones. One header that came for one that
went is a rename at the same place and no more than a doubt elsewhere; any other drift is named in full. -/
theorem compare_complete (hexpected : expectation.canonicalHeaders.Nodup)
    (hrequired : ∀ header ∈ expectation.requiredCanonicalHeaders, header ∈ expectation.canonicalHeaders) :
    let observed := observedRaw.map (canonicalizeHeader u nfkc)
    let expected := expectation.canonicalHeaders
    let result := compare u nfkc observedRaw expectation
    (result.status = .matched ↔ observed = expected ∧ "" ∉ expected) ∧
    ("" ∉ observed → observed.Nodup → observed ≠ expected →
      (∀ new old, addedHeaders observed expected = [new] → removedHeaders observed expected = [old] →
        if observed.idxOf new = expected.idxOf old then
          result.status = .drift ∧ ∃ drift, result.diffs = [drift] ∧
            Tells expected observed .renameCandidate (some old) (some new) drift
        else result.status = .ambiguous ∧ result.diffs = []) ∧
      (¬ ((addedHeaders observed expected).length = 1 ∧ (removedHeaders observed expected).length = 1) →
        result.status = .drift ∧
          Named expectation.requiredCanonicalHeaders expected observed result.diffs)) := by
  intro observed expected result
  constructor
  · constructor
    · intro hmatched
      by_cases hwell : "" ∉ observed ∧ observed.Nodup
      · by_cases hpair : (addedHeaders observed expected).length = 1 ∧
            (removedHeaders observed expected).length = 1
        · obtain ⟨new, hnew⟩ := length_eq_one_iff.mp hpair.1
          obtain ⟨old, hold⟩ := length_eq_one_iff.mp hpair.2
          have hpaired := compare_pair u nfkc observedRaw expectation hwell hexpected hnew hold
          dsimp only at hpaired
          split at hpaired
          · cases hmatched.symm.trans hpaired.1
          · cases hmatched.symm.trans hpaired.1
        · have hstatus : (compareAll observedRaw observed expectation).status =
              if observed = expected then .matched else .drift :=
            compareAll_drift hwell.2 hexpected hrequired
          rw [← compare_rest u nfkc observedRaw expectation hwell hpair] at hstatus
          by_cases heq : observed = expected
          · exact ⟨heq, heq ▸ hwell.1⟩
          · rw [if_neg heq] at hstatus
            cases hmatched.symm.trans hstatus
      · cases hmatched.symm.trans (compare_malformed u nfkc observedRaw expectation hwell)
    · intro heq
      have hwell : "" ∉ observed ∧ observed.Nodup := ⟨heq.1 ▸ heq.2, heq.1 ▸ hexpected⟩
      have hnone : addedHeaders observed expected = [] := by
        rw [eq_nil_iff_forall_not_mem]
        intro header hmem
        have := (mem_addedHeaders _).mp hmem
        exact this.2 (heq.1 ▸ this.1)
      have hrest := compare_rest u nfkc observedRaw expectation hwell
        (fun h => by rw [hnone] at h; exact absurd h.1 (by decide))
      show (compare u nfkc observedRaw expectation).status = _
      rw [hrest, compareAll_drift hwell.2 hexpected hrequired, if_pos heq.1]
  · intro hblank hnodup hne
    constructor
    · intro new old hnew hold
      exact compare_pair u nfkc observedRaw expectation ⟨hblank, hnodup⟩ hexpected hnew hold
    · intro hpair
      have hrest := compare_rest u nfkc observedRaw expectation ⟨hblank, hnodup⟩ hpair
      simp only [result, hrest]
      rw [compareAll_drift hnodup hexpected hrequired, if_neg hne]
      exact ⟨rfl, compareAll_named hnodup hexpected hrequired⟩

end

/-- A mapping of two columns, both required. -/
def Sample.expectation : SourceMappingSchemaExpectation where
  rawHeaders := ["Name", "Price"]
  canonicalHeaders := ["name", "price"]
  requiredCanonicalHeaders := ["name", "price"]

theorem compare_complete_swapped :
    let observed := ["Price", "Name"].map (canonicalizeHeader .ascii id)
    (compare .ascii id ["Price", "Name"] Sample.expectation).status = .drift ∧
      Named Sample.expectation.requiredCanonicalHeaders Sample.expectation.canonicalHeaders observed
        (compare .ascii id ["Price", "Name"] Sample.expectation).diffs :=
  ((compare_complete .ascii id ["Price", "Name"] Sample.expectation (by decide) (by decide)).2
    (by decide +kernel) (by decide +kernel) (by decide +kernel)).2 (by decide +kernel)

/-- A required header gone and a new one elsewhere: nothing is recorded of either. -/
theorem pair_unrecorded :
    let observed := ["Cost", "Name"].map (canonicalizeHeader .ascii id)
    let result := compare .ascii id ["Cost", "Name"] Sample.expectation
    ("" ∉ observed ∧ observed.Nodup ∧ "cost" ∈ observed ∧ "cost" ∉ Sample.expectation.canonicalHeaders ∧
      "price" ∈ Sample.expectation.requiredCanonicalHeaders ∧ "price" ∉ observed) ∧
    result.status = .ambiguous ∧ result.diffs = [] := by
  decide +kernel

end FlowHub.SourceAcquisition
