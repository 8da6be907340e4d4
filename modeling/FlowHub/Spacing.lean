import Mathlib.Algebra.Order.Floor.Semifield
import Mathlib.Tactic.Linarith
import Mathlib.Data.List.Chain

/-! Instants that keep a distance from each other: each is followed by the next only after a gap of
its own. A window then holds no more of them than its length has room for. -/
namespace Spacing

open List

variable {α K : Type} [Field K] [LinearOrder K] {instant gap : α → K}

/-- Each instant comes at least the gap of the one before it later. -/
def Spaced (instant gap : α → K) (items : List α) : Prop :=
  items.IsChain fun a b => instant a + gap a ≤ instant b

variable {items : List α}

/-- An item that comes late enough after the last one. -/
theorem Spaced.snoc (h : Spaced instant gap items)
    (late : ∀ a ∈ items.getLast?, instant a + gap a ≤ instant b) : Spaced instant gap (items ++ [b]) := by
  apply IsChain.append h (.singleton b)
  intro a ha c hc
  rw [head?_cons, Option.mem_def, Option.some.injEq] at hc
  subst hc
  exact late a ha

variable [IsStrictOrderedRing K]

theorem Spaced.pairwise (h : Spaced instant gap items) (positive : ∀ a, 0 ≤ gap a) :
    items.Pairwise fun a b => instant a + gap a ≤ instant b := by
  have trans : IsTrans α fun a b => instant a + gap a ≤ instant b := by
    constructor
    intro a b c hab hbc
    have := positive b
    linarith
  exact isChain_iff_pairwise.mp h

theorem Spaced.increasing (h : Spaced instant gap items) (positive : ∀ a, 0 < gap a) :
    items.Pairwise fun a b => instant a < instant b := by
  apply (h.pairwise fun a => (positive a).le).imp
  intro a b hab
  have := positive a
  linarith

/-- Items with gaps of at least `d` take their time. -/
theorem last_late (h : (a :: items).Pairwise fun a b => instant a + gap a ≤ instant b)
    (wide : ∀ b ∈ a :: items, d ≤ gap b) (before : ∀ b ∈ a :: items, instant b ≤ limit) :
    instant a + items.length * d ≤ limit := by
  induction items generalizing a with
  | nil => simpa using before a (by simp)
  | cons b rest ih =>
    have hrest := Pairwise.tail h
    have hb := ih hrest (fun c hc => wide c (mem_cons_of_mem a hc))
      (fun c hc => before c (mem_cons_of_mem a hc))
    have hab := rel_of_pairwise_cons h (mem_cons_self (a := b) (l := rest))
    have hd := wide a (by simp)
    rw [length_cons, Nat.cast_succ]
    linarith

variable [FloorSemiring K]

theorem window_count (h : Spaced instant gap items) (positive : ∀ a, 0 ≤ gap a) {length : K} (hd : 0 < d)
    (wide : ∀ a ∈ items, start ≤ instant a → instant a ≤ start + length → d ≤ gap a) :
    (items.filter fun a => decide (start ≤ instant a ∧ instant a ≤ start + length)).length ≤
      ⌊length / d⌋₊ + 1 := by
  have hpair := (h.pairwise positive).filter fun a =>
    decide (start ≤ instant a ∧ instant a ≤ start + length)
  cases hin : items.filter fun a => decide (start ≤ instant a ∧ instant a ≤ start + length) with
  | nil => simp
  | cons a rest =>
    have inside : ∀ b ∈ a :: rest, b ∈ items ∧ start ≤ instant b ∧ instant b ≤ start + length := by
      intro b hb
      rw [← hin, mem_filter, decide_eq_true_eq] at hb
      exact hb
    rw [hin] at hpair
    have hlast := last_late hpair
      (fun b hb => wide b (inside b hb).1 (inside b hb).2.1 (inside b hb).2.2)
      (fun b hb => (inside b hb).2.2)
    have hfirst := (inside a (by simp)).2.1
    have hroom : (rest.length : K) ≤ length / d := by
      rw [le_div_iff₀ hd]
      linarith
    rw [length_cons]
    exact Nat.succ_le_succ (Nat.le_floor hroom)

end Spacing
