import Mathlib.Data.List.Dedup
import Mathlib.Data.List.MinMax
import Mathlib.Data.List.Sort

namespace FlowHub.Python

open List

variable {α κ : Type}

def sortedSet (texts : List String) : List String := texts.dedup.insertionSort (· ≤ ·)

/-- Tuples of texts compare as their first difference does. -/
def textsLe : List String → List String → Bool
  | [], _ => true
  | _ :: _, [] => false
  | a :: as, b :: bs => if a = b then textsLe as bs else decide (a ≤ b)

/-- `sorted(items, key=...)` for a key that is a tuple of texts. -/
def sortedBy (key : α → List String) (items : List α) : List α :=
  items.insertionSort fun a b => textsLe (key a) (key b)

/-- `sorted(grouped.items())` of the items grouped by a text. -/
def groupedBy (key : α → String) (items : List α) : List (String × List α) :=
  (sortedSet (items.map key)).map fun k => (k, items.filter fun a => decide (key a = k))

@[simp] theorem mem_sortedSet : text ∈ sortedSet texts ↔ text ∈ texts := by
  rw [sortedSet, (perm_insertionSort (· ≤ ·) texts.dedup).mem_iff, mem_dedup]

theorem sortedSet_nodup (texts : List String) : (sortedSet texts).Nodup :=
  (perm_insertionSort (· ≤ ·) texts.dedup).nodup_iff.mpr texts.nodup_dedup

@[simp] theorem mem_sortedBy : a ∈ sortedBy key items ↔ a ∈ items :=
  (perm_insertionSort _ items).mem_iff

theorem mem_groupedBy : (k, group) ∈ groupedBy key items ↔
      k ∈ items.map key ∧ group = items.filter fun a => decide (key a = k) := by
  simp only [groupedBy, mem_map, mem_sortedSet, Prod.mk.injEq]
  constructor
  · rintro ⟨j, hj, rfl, rfl⟩
    exact ⟨hj, rfl⟩
  · rintro ⟨hk, rfl⟩
    exact ⟨k, hk, rfl, rfl⟩

/-- `min(items, key=...)` has the same key in whatever order the items come. -/
theorem argmin_perm [LinearOrder β] (key : α → β) {items : List α}
    (h : items.Perm items') : (items.argmin key).map key = (items'.argmin key).map key := by
  cases ha : items.argmin key with
  | none =>
    rw [argmin_eq_none] at ha
    subst ha
    rw [h.symm.eq_nil]
    rfl
  | some a =>
    cases hb : items'.argmin key with
    | none =>
      rw [argmin_eq_none] at hb
      subst hb
      rw [h.eq_nil] at ha
      cases ha
    | some b =>
      have hab := le_of_mem_argmin (h.mem_iff.mpr (argmin_mem hb)) ha
      have hba := le_of_mem_argmin (h.mem_iff.mp (argmin_mem ha)) hb
      rw [Option.map_some, Option.map_some, le_antisymm hab hba]

section

variable [LinearOrder α] {items items' : List α}

theorem max?_perm (h : items.Perm items') : items.max? = items'.max? := by
  apply Option.ext
  intro a
  simp [max?_eq_some_iff, h.mem_iff]

theorem min?_perm (h : items.Perm items') : items.min? = items'.min? := by
  apply Option.ext
  intro a
  simp [min?_eq_some_iff, h.mem_iff]

end

end FlowHub.Python
