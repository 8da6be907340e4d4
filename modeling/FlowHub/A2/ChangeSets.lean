import FlowHub.Ledger
import FlowHub.Python.Encoding
import FlowHub.Table
import FlowHub.Txn.Proc
import Mathlib.Data.String.Basic

namespace FlowHub.A2

open Python Txn List

structure ChangeSetItemInput where
  (productId proposalId proposalHash safetyResultId ruleVersionId : String)
  proposedPrice : ℚ
  currentPrice : Option ℚ := none
  deriving DecidableEq

namespace ChangeSetItemInput

variable (item : ChangeSetItemInput)

/-- What the items of a digest are sorted by. -/
def key : List String :=
  [item.productId, item.proposalId, item.proposalHash, item.safetyResultId, item.ruleVersionId]

/-- What a digest covers of an item. -/
def json : Json :=
  .obj [("product_id", .str item.productId), ("proposal_hash", .str item.proposalHash),
    ("rule_version_id", .str item.ruleVersionId), ("safety_result_id", .str item.safetyResultId)]

end ChangeSetItemInput

section

variable (hash : Hashing)

def sortedItems (items : List ChangeSetItemInput) : List ChangeSetItemInput :=
  items.insertionSort fun a b => a.key ≤ b.key

def computeChangeSetDigest (items : List ChangeSetItemInput)
    (destinationChannel scope sourceSnapshotId : String) : String :=
  hash.json (.obj [("destination_channel", .str destinationChannel),
    ("items", .arr ((sortedItems items).map ChangeSetItemInput.json)), ("scope", .str scope),
    ("source_snapshot_id", .str sourceSnapshotId)])

end

inductive ChangeSetState where
  | draft | ready | superseded | archived
  deriving DecidableEq

/-- `_VALID_TRANSITIONS`. -/
def validTransitions : ChangeSetState → List ChangeSetState
  | .draft => [.ready]
  | .ready => [.superseded, .archived]
  | .superseded | .archived => []

structure ChangeSet where
  id : String
  state : ChangeSetState
  (destinationChannel scope sourceSnapshotId : String)
  deriving DecidableEq

structure ChangeSetItem extends ChangeSetItemInput where
  delta : Option ℚ
  deriving DecidableEq

/-- A revision with its items. -/
structure ChangeSetRevision where
  (id changeSetId : String)
  revisionNumber : ℕ
  parentRevisionId : Option String
  digest : String
  items : List ChangeSetItem
  deriving DecidableEq

/-- The tables, in the order of the rows' creation. -/
structure Db where
  changeSets : List ChangeSet
  revisions : List ChangeSetRevision
  deriving DecidableEq

inductive Refusal where
  | noItems | notFound | wrongState | invalidStateTransition | duplicateRevision | integrity
  deriving DecidableEq

namespace Db

variable (db : Db)

def revisionsOf (changeSetId : String) : List ChangeSetRevision :=
  db.revisions.filter fun r => decide (r.changeSetId = changeSetId)

def listRevisions (changeSetId : String) : List ChangeSetRevision :=
  (db.revisionsOf changeSetId).insertionSort fun a b => a.revisionNumber ≤ b.revisionNumber

/-- `add_item`. -/
def itemRow (item : ChangeSetItemInput) : ChangeSetItem :=
  { item with delta := item.currentPrice.map fun current => item.proposedPrice - current }

/-- `create_revision` of the repository and `_persist_items`, with the unique constraints. -/
def insertRevision (revisionId changeSetId digest : String) (parentRevisionId : Option String)
    (items : List ChangeSetItemInput) : Except Refusal Db :=
  let number := ((db.listRevisions changeSetId).getLast?.map (·.revisionNumber + 1)).getD 1
  if db.revisions.any fun r => r.id = revisionId || r.digest = digest ||
      (r.changeSetId = changeSetId && r.revisionNumber = number) then .error .integrity
  else .ok { db with
    revisions := db.revisions ++
      [⟨revisionId, changeSetId, number, parentRevisionId, digest, items.map itemRow⟩] }

variable (hash : Hashing)

def build (changeSetId revisionId : String) (destinationChannel scope sourceSnapshotId : String)
    (items : List ChangeSetItemInput) : Except Refusal Db :=
  if items = [] then .error .noItems
  else
    let digest := computeChangeSetDigest hash items destinationChannel scope sourceSnapshotId
    if db.revisions.any fun r => r.digest = digest then .error .duplicateRevision
    else if Table.has ChangeSet.id db.changeSets changeSetId then .error .integrity
    else
      let changeSet : ChangeSet := ⟨changeSetId, .draft, destinationChannel, scope, sourceSnapshotId⟩
      { db with changeSets := db.changeSets ++ [changeSet] }.insertRevision revisionId changeSetId digest
        none items

def createRevision (revisionId changeSetId : String) (items : List ChangeSetItemInput) : Except Refusal Db :=
  match Table.get ChangeSet.id db.changeSets changeSetId with
  | none => .error .notFound
  | some cs =>
    if cs.state ≠ .draft ∧ cs.state ≠ .ready then .error .wrongState
    else if items = [] then .error .noItems
    else
      let digest := computeChangeSetDigest hash items cs.destinationChannel cs.scope cs.sourceSnapshotId
      if db.revisions.any fun r => r.digest = digest then .error .duplicateRevision
      else db.insertRevision revisionId changeSetId digest
        ((db.listRevisions changeSetId).getLast?.map (·.id)) items

def transition (changeSetId : String) (targetState : ChangeSetState) : Except Refusal Db :=
  match Table.get ChangeSet.id db.changeSets changeSetId with
  | none => .error .notFound
  | some cs =>
    if targetState ∉ validTransitions cs.state then .error .invalidStateTransition
    else .ok { db with
      changeSets := Table.set ChangeSet.id db.changeSets changeSetId fun cs => { cs with state := targetState } }

/-- A call that is accepted. The ids are drawn anew. -/
inductive Step : Db → Db → Prop where
  | build {db next : Db} (changeSetId revisionId destinationChannel scope sourceSnapshotId : String)
      (items : List ChangeSetItemInput)
      (h : db.build hash changeSetId revisionId destinationChannel scope sourceSnapshotId items = .ok next) :
      Step db next
  | createRevision {db next : Db} (revisionId changeSetId : String) (items : List ChangeSetItemInput)
      (h : db.createRevision hash revisionId changeSetId items = .ok next) : Step db next
  | transition {db next : Db} (changeSetId : String) (targetState : ChangeSetState)
      (h : db.transition changeSetId targetState = .ok next) : Step db next

end Db

section Digest

variable {hash : Hashing}

/-- What a digest covers, from what the items are sorted by. -/
def keyJson (key : List String) : Json :=
  .obj [("product_id", .str (key.getD 0 "")), ("proposal_hash", .str (key.getD 2 "")),
    ("rule_version_id", .str (key.getD 4 "")), ("safety_result_id", .str (key.getD 3 ""))]

theorem sortedItems_json (items : List ChangeSetItemInput) : (sortedItems items).map ChangeSetItemInput.json =
      ((items.map ChangeSetItemInput.key).insertionSort (· ≤ ·)).map keyJson := by
  have hkeys : (sortedItems items).map ChangeSetItemInput.key =
      (items.map ChangeSetItemInput.key).insertionSort (· ≤ ·) :=
    map_insertionSort _ _ ChangeSetItemInput.key items fun _ _ _ _ => Iff.rfl
  rw [← hkeys, map_map]
  rfl

/-- A digest stands for its channel, scope and snapshot and for what the items are bound to, whatever
their order. It does not cover the prices. -/
theorem digest_binds (hinj : Function.Injective hash.json) {items items' : List ChangeSetItemInput}
    {channel channel' scope scope' snapshot snapshot' : String} :
    (items.map ChangeSetItemInput.key ~ items'.map ChangeSetItemInput.key →
      computeChangeSetDigest hash items channel scope snapshot =
        computeChangeSetDigest hash items' channel scope snapshot) ∧
    (computeChangeSetDigest hash items channel scope snapshot =
        computeChangeSetDigest hash items' channel' scope' snapshot' →
      channel = channel' ∧ scope = scope' ∧ snapshot = snapshot' ∧
        items.map ChangeSetItemInput.json ~ items'.map ChangeSetItemInput.json) := by
  constructor
  · intro hperm
    have hsorted : (items.map ChangeSetItemInput.key).insertionSort (· ≤ ·) =
        (items'.map ChangeSetItemInput.key).insertionSort (· ≤ ·) := by
      apply Perm.eq_of_pairwise' (pairwise_insertionSort (· ≤ ·) _) (pairwise_insertionSort (· ≤ ·) _)
      exact ((perm_insertionSort _ _).trans hperm).trans (perm_insertionSort _ _).symm
    unfold computeChangeSetDigest
    rw [sortedItems_json, sortedItems_json, hsorted]
  · intro hdigest
    have hpayload := Json.obj.inj (hinj hdigest)
    simp only [cons.injEq, Prod.mk.injEq, true_and, Json.str.injEq, Json.arr.injEq, and_true] at hpayload
    obtain ⟨hchannel, hitems, hscope, hsnapshot⟩ := hpayload
    refine ⟨hchannel, hscope, hsnapshot, ?_⟩
    have hleft := (perm_insertionSort (fun a b : ChangeSetItemInput => a.key ≤ b.key) items).map
      ChangeSetItemInput.json
    have hright := (perm_insertionSort (fun a b : ChangeSetItemInput => a.key ≤ b.key) items').map
      ChangeSetItemInput.json
    unfold sortedItems at hitems
    rw [hitems] at hleft
    exact hleft.symm.trans hright

/-- Two products in either order, and with another price. -/
theorem digest_binds_prices :
    computeChangeSetDigest exactHashing [⟨"a", "p", "h", "s", "r", 5, none⟩,
        ⟨"b", "p", "h", "s", "r", 5, none⟩] "woocommerce" "all" "snap" =
      computeChangeSetDigest exactHashing [⟨"b", "p", "h", "s", "r", 7, some 6⟩,
        ⟨"a", "p", "h", "s", "r", 5, none⟩] "woocommerce" "all" "snap" :=
  (@digest_binds exactHashing exactHashing_injective _ _ "woocommerce" "woocommerce" "all" "all" "snap"
    "snap").1 (.swap ..)

end Digest

namespace Db

variable {hash : Hashing} {db next : Db}

/-- A revision follows the ones before it. -/
def Follows (before : List ChangeSetRevision) (r : ChangeSetRevision) : Prop :=
  r.revisionNumber = before.length + 1 ∧ r.parentRevisionId = before.getLast?.map (·.id)

/-- The invariant of the store. -/
structure Linear (hash : Hashing) (db : Db) : Prop where
  ids : (db.changeSets.map ChangeSet.id).Nodup
  chain : ∀ changeSetId, EachAfter Follows (db.revisionsOf changeSetId)
  digests : (db.revisions.map (·.digest)).Nodup
  verified : ∀ r ∈ db.revisions, r.items ≠ [] ∧ ∃ cs ∈ db.changeSets, cs.id = r.changeSetId ∧
    r.digest = computeChangeSetDigest hash (r.items.map (·.toChangeSetItemInput)) cs.destinationChannel
      cs.scope cs.sourceSnapshotId

theorem Linear.numbers (h : Linear hash db) (changeSetId : String) :
    (db.revisionsOf changeSetId).map (·.revisionNumber) = range' 1 (db.revisionsOf changeSetId).length :=
  ((h.chain changeSetId).imp fun _ _ hfollows => hfollows.1).map_number

theorem Linear.listed (h : Linear hash db) (changeSetId : String) :
    db.listRevisions changeSetId = db.revisionsOf changeSetId := by
  apply Pairwise.insertionSort_eq
  have hpairwise := (pairwise_lt_range' (s := 1) (n := (db.revisionsOf changeSetId).length)).imp le_of_lt
  rw [← h.numbers changeSetId] at hpairwise
  exact pairwise_map.mp hpairwise

/-- The last number is the number of revisions. -/
theorem Linear.last (h : Linear hash db) (changeSetId : String) :
    ((db.revisionsOf changeSetId).getLast?.map (·.revisionNumber + 1)).getD 1 =
      (db.revisionsOf changeSetId).length + 1 := by
  have hnumbers := h.numbers changeSetId
  rcases eq_nil_or_concat (db.revisionsOf changeSetId) with hnil | ⟨init, last, hsnoc⟩
  · simp [hnil]
  · rw [hsnoc, concat_eq_append, map_append, length_append, length_singleton, range'_concat] at hnumbers
    have hlast := (append_inj' hnumbers rfl).2
    simp only [map_cons, map_nil, cons.injEq, and_true] at hlast
    rw [hsnoc]
    simp
    omega

theorem toInput_itemRow (items : List ChangeSetItemInput) :
    (items.map itemRow).map (·.toChangeSetItemInput) = items := by
  rw [map_map]
  exact map_id items

theorem Linear.insert (h : Linear hash db) (hitems : items ≠ [])
    (hcs : ∃ cs ∈ db.changeSets, cs.id = changeSetId ∧ digest = computeChangeSetDigest hash items
      cs.destinationChannel cs.scope cs.sourceSnapshotId)
    (hparent : parent = (db.revisionsOf changeSetId).getLast?.map (·.id))
    (hnext : db.insertRevision revisionId changeSetId digest parent items = .ok next) :
    Linear hash next ∧ db.revisions <+: next.revisions := by
  unfold insertRevision at hnext
  simp only [h.listed, h.last] at hnext
  split at hnext
  · cases hnext
  rename_i hfresh
  cases hnext
  simp only [any_eq_true, Bool.or_eq_true, decide_eq_true_eq, not_exists, not_and, not_or] at hfresh
  refine ⟨⟨h.ids, ?_, ?_, ?_⟩, prefix_append _ _⟩
  · intro other
    by_cases hother : changeSetId = other
    · subst hother
      have hsnoc := (h.chain changeSetId).snoc (P := Follows) (a := ⟨revisionId, changeSetId,
        (db.revisionsOf changeSetId).length + 1, parent, digest, items.map itemRow⟩) ⟨rfl, hparent⟩
      simpa [revisionsOf] using hsnoc
    · simpa [revisionsOf, hother] using h.chain other
  · exact Table.nodup_snoc h.digests fun r hr => (hfresh r hr).1.2
  · intro r hr
    rcases mem_append.mp hr with hold | hnew
    · exact h.verified r hold
    · rw [mem_singleton.mp hnew]
      refine ⟨by simpa using hitems, ?_⟩
      rw [toInput_itemRow]
      exact hcs

/-- A call keeps the invariant and every revision. -/
theorem step_linear (h : Linear hash db) (hstep : Step hash db next) :
    Linear hash next ∧ db.revisions <+: next.revisions := by
  cases hstep with
  | build changeSetId revisionId channel scope snapshot items hnext =>
    unfold build at hnext
    split at hnext
    · cases hnext
    rename_i hitems
    dsimp only at hnext
    split at hnext
    · cases hnext
    split at hnext
    · cases hnext
    rename_i hfresh
    have hnone := Table.get_none.mp (Table.has_false.mp (Bool.eq_false_iff.mpr hfresh))
    have hunused : db.revisionsOf changeSetId = [] := by
      rw [revisionsOf, filter_eq_nil_iff]
      intro r hr hof
      obtain ⟨-, cs, hcs, hid, -⟩ := h.verified r hr
      exact hnone cs hcs (hid.trans (by simpa using hof))
    have hcreated : Linear hash { db with
        changeSets := db.changeSets ++ [⟨changeSetId, .draft, channel, scope, snapshot⟩] } := by
      refine ⟨Table.nodup_snoc h.ids hnone, h.chain, h.digests, ?_⟩
      intro r hr
      obtain ⟨hsome, cs, hcs, hverified⟩ := h.verified r hr
      exact ⟨hsome, cs, mem_append_left _ hcs, hverified⟩
    refine hcreated.insert hitems ⟨_, mem_append_right _ mem_cons_self, rfl, rfl⟩ ?_ hnext
    change none = (db.revisionsOf changeSetId).getLast?.map (·.id)
    rw [hunused]
    rfl
  | createRevision revisionId changeSetId items hnext =>
    unfold createRevision at hnext
    split at hnext
    · cases hnext
    rename_i cs hget
    split at hnext
    · cases hnext
    split at hnext
    · cases hnext
    rename_i hitems
    dsimp only at hnext
    split at hnext
    · cases hnext
    rw [h.listed] at hnext
    exact h.insert hitems ⟨cs, (Table.get_some hget).1, (Table.get_some hget).2, rfl⟩ rfl hnext
  | transition changeSetId targetState hnext =>
    unfold transition at hnext
    split at hnext
    · cases hnext
    split at hnext
    · cases hnext
    cases hnext
    refine ⟨⟨?_, h.chain, h.digests, ?_⟩, prefix_refl _⟩
    · dsimp only
      rw [Table.map_set (by intro; rfl)]
      exact h.ids
    · intro r hr
      obtain ⟨hsome, cs, hcs, hverified⟩ := h.verified r hr
      refine ⟨hsome, if cs.id = changeSetId then { cs with state := targetState } else cs, ?_, ?_⟩
      · exact mem_map.mpr ⟨cs, hcs, rfl⟩
      · split <;> exact hverified

/-- In every run from an empty store the revisions of a change set are numbered from one and each has the
one before it as its parent, no digest is stored twice, each revision verifies against its own items, and
none is ever changed or removed. -/
theorem revisions_linear {start : Db} (hstart : Relation.ReflTransGen (Step hash) ⟨[], []⟩ start)
    (hrun : Relation.ReflTransGen (Step hash) start db) :
    Linear hash db ∧ start.revisions <+: db.revisions := by
  have hempty : Linear hash ⟨[], []⟩ := ⟨nodup_nil, fun _ => .nil, nodup_nil, nofun⟩
  exact run_stands hempty (fun _ => prefix_refl _) (fun h h' => h.trans h') (fun h hstep =>
    step_linear h hstep) hstart hrun

namespace Sample

def constant : Hashing := ⟨id, fun _ => "digest"⟩

def built : Db where
  changeSets := [⟨"cs-1", .draft, "woocommerce", "all", "snap"⟩]
  revisions := [⟨"r-1", "cs-1", 1, none, "digest", [itemRow ⟨"p-1", "p", "h", "s", "r", 5, some 4⟩]⟩]

end Sample

/-- A change set that is built and made ready. -/
theorem revisions_linear_built :
    Sample.built.revisions <+: ({ Sample.built with
      changeSets := [⟨"cs-1", .ready, "woocommerce", "all", "snap"⟩] } : Db).revisions := by
  have hbuild : Step Sample.constant ⟨[], []⟩ Sample.built :=
    .build "cs-1" "r-1" "woocommerce" "all" "snap" [⟨"p-1", "p", "h", "s", "r", 5, some 4⟩] rfl
  have hready : Step Sample.constant Sample.built _ := .transition "cs-1" .ready rfl
  exact (revisions_linear (.single hbuild) (.single hready)).2

end Db

end FlowHub.A2
