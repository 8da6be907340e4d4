import Mathlib.Data.List.Perm.Basic

namespace FlowHub

open List

variable {α β κ : Type}

/-- Each question has exactly one answer, and the answer names its question's key.
The answers keep their own order. -/
def Paired (question : α → κ) (answer : β → κ) (as : List α) (bs : List β) : Prop :=
  ∃ pairs : List (α × β), (pairs.map Prod.fst).Perm as ∧ pairs.map Prod.snd = bs ∧
    ∀ p ∈ pairs, answer p.2 = question p.1

namespace Paired

variable {question : α → κ} {answer : β → κ} {as as' : List α} {bs bs' : List β}

theorem nil : Paired question answer [] [] := ⟨[], .nil, rfl, nofun⟩

theorem append (h : Paired question answer as bs) (h' : Paired question answer as' bs') :
    Paired question answer (as ++ as') (bs ++ bs') := by
  obtain ⟨pairs, hp, rfl, hk⟩ := h
  obtain ⟨pairs', hp', rfl, hk'⟩ := h'
  refine ⟨pairs ++ pairs', by simpa using hp.append hp', by simp, fun p hm => ?_⟩
  exact (mem_append.mp hm).elim (hk p) (hk' p)

theorem perm (h : Paired question answer as bs) (hperm : as.Perm as') : Paired question answer as' bs := by
  obtain ⟨pairs, hp, hb, hk⟩ := h
  exact ⟨pairs, hp.trans hperm, hb, hk⟩

/-- Answering every question by itself. -/
theorem map (h : ∀ a, answer (f a) = question a) (as : List α) : Paired question answer as (as.map f) := by
  refine ⟨as.map fun a => (a, f a), by simp [Function.comp_def], by simp [Function.comp_def],
    fun p hp => ?_⟩
  obtain ⟨a, -, rfl⟩ := mem_map.mp hp
  exact h a

theorem flatMap {is : List ι} (h : ∀ i ∈ is, Paired question answer (f i) (g i)) :
    Paired question answer (is.flatMap f) (is.flatMap g) := by
  induction is with
  | nil => exact nil
  | cons i rest ih =>
    rw [flatMap_cons, flatMap_cons]
    exact (h i (mem_cons_self ..)).append
      (ih fun j hj => h j (mem_cons_of_mem i hj))

theorem exists_answer (h : Paired question answer as bs) (ha : a ∈ as) : ∃ b ∈ bs, answer b = question a := by
  obtain ⟨pairs, hp, rfl, hk⟩ := h
  obtain ⟨p, hm, rfl⟩ := mem_map.mp (hp.mem_iff.mpr ha)
  exact ⟨p.2, mem_map_of_mem hm, hk p hm⟩

end Paired

end FlowHub
