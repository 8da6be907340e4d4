import Mathlib.Data.List.Basic
import Mathlib.Data.Option.Basic

/-! A list worked off whole, in slices or in halves of halves. Where each part does what its items
do one after the other, so does the whole. -/
namespace FlowHub

open List

variable {α β γ : Type}

variable {l : List α} {b : β}

theorem foldlM_isSome_iff {f : α → Option γ} {g : β → α → γ → β} :
    (l.foldlM (fun b a => (f a).map (g b a)) b).isSome = true ↔ ∀ a ∈ l, (f a).isSome = true := by
  induction l generalizing b with
  | nil => simp
  | cons a l ih =>
    rw [foldlM_cons, forall_mem_cons]
    cases hf : f a with
    | none => simp
    | some c => simpa using ih

theorem foldlM_congr_mem {g : β → α → Option β}
    (h : ∀ a ∈ l, ∀ b, f b a = g b a) : l.foldlM f b = l.foldlM g b := by
  induction l generalizing b with
  | nil => rfl
  | cons a l ih =>
    rw [forall_mem_cons] at h
    rw [foldlM_cons, foldlM_cons, h.1]
    exact bind_congr fun b => ih h.2

theorem foldlM_some : l.foldlM (fun b a => some (f b a)) b = some (l.foldl f b) := by
  induction l generalizing b with
  | nil => rfl
  | cons a l ih =>
    rw [foldlM_cons, foldl_cons]
    exact ih

theorem foldlM_flatten {f : β → α → Option β} {ls : List (List α)} :
    ls.flatten.foldlM f b = ls.foldlM (fun b l => l.foldlM f b) b := by
  induction ls generalizing b with
  | nil => rfl
  | cons l ls ih =>
    rw [flatten_cons, foldlM_append, foldlM_cons]
    exact bind_congr fun b => ih

/-- Slices of `size` items. -/
def slices (size : Nat) (l : List α) : List (List α) :=
  (List.range ((l.length + (size - 1)) / size)).map fun i => (l.drop (size * i)).take size

theorem flatten_slices_take (size n : Nat) (l : List α) :
    ((range n).map fun i => (l.drop (size * i)).take size).flatten = l.take (size * n) := by
  induction n with
  | zero => simp
  | succ n ih =>
    rw [range_succ, map_append, flatten_append, ih, Nat.mul_succ, take_add]
    simp

theorem flatten_slices (hsize : 0 < size) (l : List α) : (slices size l).flatten = l := by
  rw [slices, flatten_slices_take]
  apply take_of_length_le
  have hdiv := Nat.div_add_mod (l.length + (size - 1)) size
  have hmod := Nat.mod_lt (l.length + (size - 1)) hsize
  omega

/-- A batch that does what its items do, or is worked off as its two halves. -/
theorem foldlM_of_halves {work : List α → β → Option β} (hnil : ∀ b, work [] b = some b)
    (hwork : ∀ (l : List α) (b : β), l ≠ [] → work l b = l.foldlM item b ∨ 1 < l.length ∧
        work l b = (work (l.take (l.length / 2)) b).bind (work (l.drop (l.length / 2))))
    (l : List α) (b : β) : work l b = l.foldlM item b := by
  induction hn : l.length using Nat.strongRecOn generalizing l b with
  | ind n ih =>
    by_cases hempty : l = []
    · rw [hempty, hnil]
      rfl
    cases hwork l b hempty with
    | inl h => exact h
    | inr h =>
      have hfirst := ih _ (by rw [length_take]; omega) (l.take (l.length / 2)) b rfl
      have hlast : ∀ b, work (l.drop (l.length / 2)) b = (l.drop (l.length / 2)).foldlM item b :=
        fun b => ih _ (by rw [length_drop]; omega) (l.drop (l.length / 2)) b rfl
      rw [h.2, hfirst, funext hlast]
      conv_rhs => rw [← take_append_drop (l.length / 2) l, foldlM_append]
      rfl

end FlowHub
