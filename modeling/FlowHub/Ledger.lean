import Mathlib.Data.List.Basic
import Mathlib.Logic.Relation

namespace FlowHub

open List

variable {α : Type}

/-- What every step keeps and what it lets stand, over whole runs. -/
theorem run_stands {step stands : α → α → Prop} {inv : α → Prop} {init start later : α} (hinit : inv init)
    (hrefl : ∀ s, stands s s) (htrans : ∀ {s t u}, stands s t → stands t u → stands s u)
    (hstep : ∀ {s t}, inv s → step s t → inv t ∧ stands s t)
    (hstart : Relation.ReflTransGen step init start) (hrun : Relation.ReflTransGen step start later) :
    inv later ∧ stands start later := by
  have hinv : inv start := by
    clear hrun
    induction hstart with
    | refl => exact hinit
    | tail _ hlast ih => exact (hstep ih hlast).1
  induction hrun with
  | refl => exact ⟨hinv, hrefl _⟩
  | tail _ hlast ih =>
    obtain ⟨hnext, hstands⟩ := hstep ih.1 hlast
    exact ⟨hnext, htrans ih.2 hstands⟩

/-- A list with one more entry, cut before some entry. -/
theorem cut_snoc {log before after : List α} {a b : α} (h : log ++ [a] = before ++ b :: after) :
    (before = log ∧ b = a ∧ after = []) ∨ ∃ init, after = init ++ [a] ∧ log = before ++ b :: init := by
  rcases eq_nil_or_concat after with rfl | ⟨init, last, rfl⟩
  · obtain ⟨rfl, hlast⟩ := append_inj' h rfl
    exact .inl ⟨rfl, (cons.inj hlast).1.symm, rfl⟩
  · have hcut : log ++ [a] = (before ++ b :: init) ++ [last] := by simpa using h
    obtain ⟨hlog, hlast⟩ := append_inj' hcut rfl
    rw [(cons.inj hlast).1]
    exact .inr ⟨init, concat_eq_append, hlog⟩

/-- Each entry of a log stands in a relation to the entries before it. -/
def EachAfter (P : List α → α → Prop) (log : List α) : Prop :=
  ∀ before a after, log = before ++ a :: after → P before a

namespace EachAfter

variable {P Q : List α → α → Prop} {log : List α} {a : α}

theorem nil : EachAfter P [] := by
  intro before a after h
  simp at h

theorem snoc (h : EachAfter P log) (ha : P log a) : EachAfter P (log ++ [a]) := by
  intro before b after hcut
  rcases cut_snoc hcut with ⟨rfl, rfl, -⟩ | ⟨init, -, hlog⟩
  · exact ha
  · exact h before b init hlog

theorem imp (h : EachAfter P log) (himp : ∀ before a, P before a → Q before a) : EachAfter Q log := by
  intro before a after hcut
  exact himp before a (h before a after hcut)

/-- The entry before which a log is cut at a number. -/
theorem at_length (h : EachAfter P log) (hn : n < log.length) : P (log.take n) log[n] := by
  apply h (log.take n) log[n] (log.drop (n + 1))
  simp

section

variable {number : α → Nat}

/-- Entries that are numbered one after the other take every number. -/
theorem exists_number (h : EachAfter (fun before a => number a = before.length + 1) log)
    (hpos : 1 ≤ n) (hn : n ≤ log.length) : ∃ a ∈ log, number a = n := by
  have hlt : n - 1 < log.length := by omega
  have hnumber := h.at_length hlt
  rw [length_take] at hnumber
  exact ⟨log[n - 1], getElem_mem hlt, by omega⟩

theorem map_number (h : EachAfter (fun before a => number a = before.length + 1) log) :
    log.map number = range' 1 log.length := by
  apply ext_getElem
  · simp
  intro n hn _
  rw [length_map] at hn
  have hnumber := h.at_length hn
  rw [length_take] at hnumber
  rw [getElem_map, getElem_range']
  omega

end

end EachAfter

end FlowHub
