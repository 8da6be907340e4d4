import Mathlib.Data.List.Perm.Basic
import FlowHub.Observations.Consistency

namespace FlowHub.Observations

open Python List
open SourceAcquisition (AcquisitionRun RunResult lockedRun)

/-- Two pieces of evidence with the same kind, reference and metadata. -/
def SameEvidence (a b : PreparedEvidence) : Prop :=
  a.kind = b.kind ∧ a.reference = b.reference ∧ a.metadata.same b.metadata = true

def SameSnapshot (a b : PreparedSnapshot) : Prop :=
  a.kind = b.kind ∧ a.reference = b.reference ∧ a.checksum = b.checksum ∧ a.metadata.same b.metadata = true

/-- The same command, with the snapshot references in any order. -/
structure SameCommand (original repeated : Prepared) : Prop where
  resourceIdentity : original.resourceIdentity = repeated.resourceIdentity
  provenance : original.provenance.same repeated.provenance = true
  evidence : List.Forall₂ SameEvidence original.evidence repeated.evidence
  snapshots : ∃ items, List.Forall₂ SameSnapshot original.snapshots items ∧ items.Perm repeated.snapshots

/-- A database that orders texts by their code points. -/
def ByCodePoint (orderBy : List SnapshotReference → List SnapshotReference) : Prop :=
  ∀ rows, (orderBy rows).Perm rows ∧ (orderBy rows).Pairwise fun a b =>
    toLex (a.snapshotKind, a.snapshotReference) ≤ toLex (b.snapshotKind, b.snapshotReference)

/-- A row of the evidence that a command gave. -/
def Records (row : ObservationEvidence) (item : PreparedEvidence) : Prop :=
  row.evidenceKind = item.kind ∧ row.evidenceReference = item.reference ∧ row.metadata = item.metadata

/-- The Observation of a command, which has its rows until more are appended or linked. -/
structure Kept (hash : Hashing) (tables : Tables) (extended : List Id) (original : Original)
    (observation : SourceObservation) : Prop where
  mem : observation ∈ tables.observations
  id : observation.id = original.observationId
  identity : observation.resourceIdentityHash = identityHash hash original.prepared.resourceIdentity
  provenance : observation.provenance = original.prepared.provenance
  evidence : original.observationId ∉ extended →
    List.Forall₂ Records (tables.recorded observation.id) original.prepared.evidence
  snapshots : original.observationId ∉ extended → tables.snapshotsOf observation.id =
    original.prepared.snapshots.map fun item => newSnapshot observation.id item observation.observedAt

theorem allSame_iff : allSame same as bs = true ↔ Forall₂ (fun a b => same a b = true) as bs := by
  induction as generalizing bs with
  | nil => cases bs <;> simp [allSame]
  | cons a rest ih =>
    cases bs with
    | nil => simp [allSame]
    | cons b rest' => rw [allSame, Bool.and_eq_true, ih, forall₂_cons]

/-- Sorting by a key puts the keys in order. -/
theorem pairwise_mergeSort_key [LinearOrder κ] (key : α → κ) (items : List α) :
    (items.mergeSort fun a b => decide (key a ≤ key b)).Pairwise fun a b => key a ≤ key b := by
  have htrans : ∀ a b c : α, decide (key a ≤ key b) = true → decide (key b ≤ key c) = true →
      decide (key a ≤ key c) = true := by
    intro a b c hab hbc
    rw [decide_eq_true_eq] at hab hbc ⊢
    exact hab.trans hbc
  have htotal : ∀ a b : α, (decide (key a ≤ key b) || decide (key b ≤ key a)) = true := by
    intro a b
    rw [Bool.or_eq_true, decide_eq_true_eq, decide_eq_true_eq]
    exact le_total _ _
  exact (pairwise_mergeSort htrans htotal items).imp fun hab => of_decide_eq_true hab

section

variable {hash : Hashing} {tables : Tables} {orderBy : List SnapshotReference → List SnapshotReference}
  {original : Original} {observation : SourceObservation} {extended : List Id}

theorem same_evidence (h : Forall₂ Records rows items) (hsame : Forall₂ SameEvidence items items') :
    allSame sameEvidence rows items' = true := by
  rw [allSame_iff]
  apply forall₂_trans h hsame
  intro row _ item _ item' ⟨hkind, hreference, hmetadata⟩ ⟨hkind', hreference', hmetadata'⟩
  simp [sameEvidence, hkind, hreference, hmetadata, hkind', hreference', hmetadata']

theorem same_snapshots (observationId : Id) (linkedAt : Time) (h : Forall₂ SameSnapshot items items') :
    Forall₂ (fun row item => sameSnapshot row item = true)
      (items.map fun item => newSnapshot observationId item linkedAt) items' := by
  rw [forall₂_map_left_iff]
  apply h.imp
  intro a b ⟨hkind, hreference, hchecksum, hmetadata⟩
  simp [sameSnapshot, newSnapshot, hkind, hreference, hchecksum, hmetadata]

/-- The references of one Observation have keys of their own. -/
theorem Consistent.snapshot_keys (h : Consistent hash tables) (observationId : Id) :
    ((tables.snapshotsOf observationId).map fun row =>
      toLex (row.snapshotKind, row.snapshotReference)).Nodup := by
  have hkeys : ((tables.snapshotsOf observationId).map SnapshotReference.key).Nodup :=
    h.snapshotKeys.sublist (filter_sublist.map _)
  rw [Nodup, pairwise_map] at hkeys ⊢
  apply Pairwise.imp_of_mem _ hkeys
  intro a b ha hb hne hsame
  have hida := (mem_filter.mp ha).2
  have hidb := (mem_filter.mp hb).2
  rw [beq_iff_eq] at hida hidb
  have hpair := toLex.injective hsame
  rw [Prod.mk.injEq] at hpair
  apply hne
  simp [SnapshotReference.key, hida, hidb, hpair]

/-- Rows in the order of their keys are the sorted references of the command, one by one. -/
theorem same_sorted (hkeys : (rows.map fun row => toLex (row.snapshotKind, row.snapshotReference)).Nodup)
    (hsorted : rows.Pairwise fun a b =>
      toLex (a.snapshotKind, a.snapshotReference) ≤ toLex (b.snapshotKind, b.snapshotReference))
    (hsame : Forall₂ (fun row item => sameSnapshot row item = true) rows items)
    (hperm : items.Perm given) :
    ∃ expected, sortedSnapshots given = .ok expected ∧ allSame sameSnapshot rows expected = true := by
  have hequal : rows.map (fun row => toLex (row.snapshotKind, row.snapshotReference)) =
      items.map fun item => toLex (item.kind, item.reference) := by
    apply forall₂_map_eq
    apply hsame.imp
    intro row item hrow
    simp only [sameSnapshot, Bool.and_eq_true, decide_eq_true_eq] at hrow
    rw [hrow.1.1.1, hrow.1.1.2]
  rw [hequal] at hkeys
  have hle : (items.map fun item => toLex (item.kind, item.reference)).Pairwise (· ≤ ·) := by
    rw [← hequal, pairwise_map]
    exact hsorted
  have hlt : items.Pairwise fun a b => toLex (a.kind, a.reference) < toLex (b.kind, b.reference) := by
    rw [pairwise_map] at hle
    rw [Nodup, pairwise_map] at hkeys
    exact (hle.and hkeys).imp fun hab => lt_of_le_of_ne hab.1 hab.2
  have hrank : items.Pairwise fun a b => a.rank ≤ b.rank := by
    apply hlt.imp
    intro a b hab
    rw [Prod.Lex.toLex_lt_toLex] at hab
    rw [PreparedSnapshot.rank, PreparedSnapshot.rank, Prod.Lex.toLex_le_toLex]
    rcases hab with hkind | ⟨hkind, hreference⟩
    · exact .inl hkind
    · exact .inr ⟨hkind, Prod.Lex.toLex_le_toLex.mpr (.inl hreference)⟩
  have hone : ∀ a ∈ items, ∀ b ∈ items, a.rank = b.rank → a = b := by
    intro a ha b hb hab
    apply inj_on_of_nodup_map hkeys ha hb
    have hpair := toLex.injective hab
    rw [Prod.mk.injEq] at hpair
    have hinner := toLex.injective hpair.2
    rw [Prod.mk.injEq] at hinner
    rw [hpair.1, hinner.1]
  have hcomparable : given.Pairwise fun a b => comparable a b = true := by
    have hnodup : given.Nodup := hperm.nodup_iff.mp hkeys.of_map
    apply Pairwise.imp_of_mem _ hnodup
    intro a b ha hb hne
    have hranks : a.rank ≠ b.rank := fun heq =>
      hne (hone a (hperm.mem_iff.mpr ha) b (hperm.mem_iff.mpr hb) heq)
    simp [comparable, hranks]
  refine ⟨_, if_pos hcomparable, ?_⟩
  have hmerge : items = given.mergeSort fun a b => decide (a.rank ≤ b.rank) := by
    have hperm' := hperm.trans (mergeSort_perm given fun a b => decide (a.rank ≤ b.rank)).symm
    apply Perm.eq_of_pairwise _ hrank (pairwise_mergeSort_key PreparedSnapshot.rank given) hperm'
    intro a b ha hb hab hba
    exact hone a ha b (hperm'.mem_iff.mpr hb) (le_antisymm hab hba)
  rw [← hmerge, allSame_iff]
  exact hsame

/-- The command of an Observation that nothing has been added to is answered by the Observation. -/
theorem Kept.answers (h : Kept hash tables extended original observation)
    (hconsistent : Consistent hash tables) (horder : ByCodePoint orderBy)
    (hextended : original.observationId ∉ extended)
    (hsame : SameCommand original.prepared prepared) :
    answerExisting hash orderBy tables observation prepared = .ok observation := by
  obtain ⟨items, hitems, hperm⟩ := hsame.snapshots
  obtain ⟨hrows, hsorted⟩ := horder (tables.snapshotsOf observation.id)
  have hstored := same_snapshots observation.id observation.observedAt hitems
  rw [← h.snapshots hextended] at hstored
  obtain ⟨items', hsame', hperm'⟩ := perm_comp_forall₂ hrows hstored
  have hkeys := hconsistent.snapshot_keys observation.id
  rw [← (hrows.map _).nodup_iff] at hkeys
  obtain ⟨expected, hexpected, hall⟩ := same_sorted hkeys hsorted hsame' (hperm'.trans hperm)
  have hevidence := same_evidence (h.evidence hextended) hsame.evidence
  rw [← evidenceOf_eq (hconsistent.chained observation h.mem)] at hevidence
  have hprovenance := hsame.provenance
  rw [← h.provenance] at hprovenance
  have hidentity : observation.resourceIdentityHash = identityHash hash prepared.resourceIdentity := by
    rw [h.identity, hsame.resourceIdentity]
  unfold answerExisting assertExactReplay
  rw [hexpected]
  simp [bind, Except.bind, Except.map, hall, hevidence, hprovenance, hidentity]

end

end FlowHub.Observations
