import Mathlib.Data.List.Basic
import Mathlib.Data.Fintype.Card
import Mathlib.Data.Set.Finite.Lattice
import Mathlib.Logic.Relation
import Mathlib.Order.WellFounded

/-!
# Computations that ask each other for their results

* `Prog`: a computation that asks for the answers of keys, and what it comes to under an oracle;
* `System`: a computation for each key; `unfold` follows the questions to a depth, `value` is the
  answer of a key, which is `circular` where no depth is enough;
* `resolve`: one answer with a memo and the keys that are being worked on, at which it answers
  `circular`;
* `resolve_spec`: if a computation stops at `circular` and passes it on, then every answer and every
  memo entry is the one under `value`, whichever keys were asked for before;
* `diverges_cycle`: a key without an answer leads into a cycle of questions.
-/

namespace FlowHub.Demand

open List Option

/-- A computation that asks for the answers of keys. -/
inductive Prog (κ ν ρ : Type) where
  | done (result : ρ)
  | ask (key : κ) (next : ν → Prog κ ν ρ)

namespace Prog

variable {κ ν ρ τ σ : Type}

def bind : Prog κ ν ρ → (ρ → Prog κ ν τ) → Prog κ ν τ
  | done r, f => f r
  | ask k next, f => ask k fun a => (next a).bind f

/-- The result under an oracle. -/
def eval (oracle : κ → ν) : Prog κ ν ρ → ρ
  | done r => r
  | ask k next => (next (oracle k)).eval oracle

/-- The result under an oracle that does not know every answer. -/
def eval? (oracle : κ → Option ν) : Prog κ ν ρ → Option ρ
  | done r => some r
  | ask k next => (oracle k).bind fun a => (next a).eval? oracle

/-- The result under an oracle with a state. -/
def run (oracle : σ → κ → Option (ν × σ)) : Prog κ ν ρ → σ → Option (ρ × σ)
  | done r, s => some (r, s)
  | ask k next, s => (oracle s k).bind fun (a, s) => (next a).run oracle s

/-- The keys that are asked for under an oracle. -/
inductive Asks (oracle : κ → ν) : Prog κ ν ρ → κ → Prop
  | here {k : κ} {next : ν → Prog κ ν ρ} : Asks oracle (ask k next) k
  | there {k j : κ} {next : ν → Prog κ ν ρ} (h : Asks oracle (next (oracle k)) j) : Asks oracle (ask k next) j

@[simp] theorem eval_done (oracle : κ → ν) (r : ρ) : (done r : Prog κ ν ρ).eval oracle = r := rfl

@[simp] theorem eval_ask (oracle : κ → ν) (k : κ) (next : ν → Prog κ ν ρ) :
    (ask k next).eval oracle = (next (oracle k)).eval oracle := rfl

@[simp] theorem bind_done (r : ρ) (f : ρ → Prog κ ν τ) : (done r : Prog κ ν ρ).bind f = f r := rfl

@[simp] theorem bind_ask (k : κ) (next : ν → Prog κ ν ρ) (f : ρ → Prog κ ν τ) :
    (ask k next).bind f = ask k fun a => (next a).bind f := rfl

@[simp] theorem eval_bind (oracle : κ → ν) (p : Prog κ ν ρ) (f : ρ → Prog κ ν τ) :
    (p.bind f).eval oracle = (f (p.eval oracle)).eval oracle := by
  induction p with
  | done r => rfl
  | ask k next ih => exact ih (oracle k)

variable {p : Prog κ ν ρ}

theorem asks_bind : Asks oracle (p.bind f) k ↔ Asks oracle p k ∨ Asks oracle (f (p.eval oracle)) k := by
  induction p with
  | done r =>
    constructor
    · exact .inr
    · rintro (h | h)
      · cases h
      · exact h
  | ask j next ih =>
    constructor
    · intro h
      cases h with
      | here => exact .inl .here
      | there h =>
        rcases (ih (oracle j)).mp h with hleft | hright
        · exact .inl (.there hleft)
        · exact .inr hright
    · rintro (h | h)
      · cases h with
        | here => exact .here
        | there h => exact .there ((ih (oracle j)).mpr (.inl h))
      · exact .there ((ih (oracle j)).mpr (.inr h))

theorem eval?_mono {oracle oracle' : κ → Option ν} (h : ∀ k a, oracle k = some a → oracle' k = some a)
    {r : ρ} (hr : p.eval? oracle = some r) : p.eval? oracle' = some r := by
  induction p with
  | done _ => exact hr
  | ask k next ih =>
    obtain ⟨a, ha, hnext⟩ := bind_eq_some_iff.mp hr
    exact bind_eq_some_iff.mpr ⟨a, h k a ha, ih a hnext⟩

/-- What a partial oracle answers is what an oracle that agrees with it answers. -/
theorem eval_of_eval? {oracle : κ → Option ν} {value : κ → ν}
    (h : ∀ k a, oracle k = some a → value k = a) {r : ρ}
    (hr : p.eval? oracle = some r) :
    p.eval value = r ∧ ∀ k, Asks value p k → ∃ a, oracle k = some a := by
  induction p with
  | done _ =>
    cases hr
    refine ⟨rfl, ?_⟩
    intro k hk
    cases hk
  | ask k next ih =>
    obtain ⟨a, ha, hnext⟩ := bind_eq_some_iff.mp hr
    have hvalue := h k a ha
    obtain ⟨heval, hasks⟩ := ih a hnext
    constructor
    · rw [eval_ask, hvalue, heval]
    intro j hj
    cases hj with
    | here => exact ⟨a, ha⟩
    | there hj =>
      rw [hvalue] at hj
      exact hasks j hj

end Prog

/-- A computation for each key; a key may have an answer of its own. -/
structure System (κ ν ρ : Type) where
  body : κ → ν ⊕ Prog κ ν ρ
  answer : ρ → ν
  circular : ν

namespace System

variable {κ ν ρ : Type} (S : System κ ν ρ)

/-- The answer of a key, where no question goes deeper than a number. -/
def unfold : Nat → κ → Option ν
  | depth, k => match S.body k with
    | .inl a => some a
    | .inr p => match depth with
      | 0 => none
      | n + 1 => (p.eval? (unfold n)).map S.answer

variable {k : κ} {p : Prog κ ν ρ} {a : ν} {n : Nat}

theorem unfold_inl (h : S.body k = .inl a) (n : Nat) : S.unfold n k = some a := by
  cases n <;> simp [unfold, h]

theorem unfold_zero (h : S.body k = .inr p) : S.unfold 0 k = none := by
  simp [unfold, h]

theorem unfold_succ (h : S.body k = .inr p) (n : Nat) :
    S.unfold (n + 1) k = (p.eval? (S.unfold n)).map S.answer := by
  rw [unfold, h]

theorem unfold_step (h : S.unfold n k = some a) : S.unfold (n + 1) k = some a := by
  induction n generalizing k a with
  | zero =>
    cases hbody : S.body k with
    | inl b => rwa [S.unfold_inl hbody] at h ⊢
    | inr p =>
      rw [S.unfold_zero hbody] at h
      cases h
  | succ n ih =>
    cases hbody : S.body k with
    | inl b => rwa [S.unfold_inl hbody] at h ⊢
    | inr p =>
      rw [S.unfold_succ hbody] at h ⊢
      obtain ⟨r, hr, ha⟩ := map_eq_some_iff.mp h
      exact map_eq_some_iff.mpr ⟨r, Prog.eval?_mono (fun _ _ => ih) hr, ha⟩

theorem unfold_mono (hle : n ≤ m) (h : S.unfold n k = some a) : S.unfold m k = some a := by
  induction hle with
  | refl => exact h
  | step _ ih => exact S.unfold_step ih

/-- Some depth is enough for a key. -/
def Converges (k : κ) : Prop := ∃ n a, S.unfold n k = some a

open Classical in
/-- The answer of a key; `circular` where its questions do not end. -/
noncomputable def value (k : κ) : ν :=
  if h : S.Converges k then h.choose_spec.choose else S.circular

theorem value_of_unfold (h : S.unfold n k = some a) : S.value k = a := by
  have hconverges : S.Converges k := ⟨n, a, h⟩
  rw [value, dif_pos hconverges]
  have hchosen := hconverges.choose_spec.choose_spec
  have hleft := S.unfold_mono (Nat.le_max_left n hconverges.choose) h
  have hright := S.unfold_mono (Nat.le_max_right n hconverges.choose) hchosen
  rw [hleft] at hright
  exact (some.inj hright).symm

theorem value_of_diverges (h : ¬ S.Converges k) : S.value k = S.circular := dif_neg h

/-- A key asks for another one. -/
def Calls (k j : κ) : Prop := ∃ p, S.body k = .inr p ∧ p.Asks S.value j

/-- What a key asks for is answered at a lower depth. -/
theorem Calls.lower (h : S.Calls k j) (hk : S.unfold n k = some a) :
    ∃ m b, m < n ∧ S.unfold m j = some b := by
  obtain ⟨p, hbody, hasks⟩ := h
  cases n with
  | zero =>
    rw [S.unfold_zero hbody] at hk
    cases hk
  | succ n =>
    rw [S.unfold_succ hbody] at hk
    obtain ⟨r, hr, -⟩ := map_eq_some_iff.mp hk
    obtain ⟨-, hanswered⟩ := Prog.eval_of_eval? (fun _ _ => S.value_of_unfold) hr
    obtain ⟨b, hb⟩ := hanswered j hasks
    exact ⟨n, b, Nat.lt_succ_self n, hb⟩

theorem lower_of_transGen (h : Relation.TransGen S.Calls k j)
    (hk : S.unfold n k = some a) : ∃ m b, m < n ∧ S.unfold m j = some b := by
  induction h with
  | single hcalls => exact hcalls.lower S hk
  | tail _ hcalls ih =>
    obtain ⟨m, b, hm, hb⟩ := ih
    obtain ⟨m', b', hm', hb'⟩ := hcalls.lower S hb
    exact ⟨m', b', hm'.trans hm, hb'⟩

/-- A key that asks for itself in the end has no answer. -/
theorem diverges_of_cycle (h : Relation.TransGen S.Calls k k) : ¬ S.Converges k := by
  rintro ⟨n, a, hk⟩
  induction n using Nat.strongRecOn generalizing a with
  | ind n ih =>
    obtain ⟨m, b, hm, hb⟩ := S.lower_of_transGen h hk
    exact ih m hm b hb

/-- A key whose questions are all answered is answered. -/
theorem converges_of_calls (hbody : S.body k = .inr p)
    (h : ∀ j, S.Calls k j → S.Converges j) : S.Converges k := by
  have hbounded : ∀ q : Prog κ ν ρ, (∀ j, q.Asks S.value j → S.Converges j) →
      ∃ n, q.eval? (S.unfold n) = some (q.eval S.value) := by
    intro q hq
    induction q with
    | done r => exact ⟨0, rfl⟩
    | ask j next ih =>
      obtain ⟨m, a, ha⟩ := hq j .here
      have hvalue := S.value_of_unfold ha
      obtain ⟨n, hn⟩ := ih (S.value j) fun i hi => hq i (.there hi)
      refine ⟨max m n, ?_⟩
      rw [Prog.eval?, S.unfold_mono (Nat.le_max_left m n) ha, bind_some, ← hvalue]
      exact Prog.eval?_mono (fun _ _ => S.unfold_mono (Nat.le_max_right m n)) hn
  obtain ⟨n, hn⟩ := hbounded p fun j hj => h j ⟨p, hbody, hj⟩
  exact ⟨n + 1, _, by rw [S.unfold_succ hbody, hn]; rfl⟩

/-- A computation that stops at `circular` and passes it on. -/
def Strict : Prog κ ν ρ → Prop
  | .done _ => True
  | .ask _ next =>
    (∃ r, next S.circular = .done r ∧ S.answer r = S.circular) ∧ ∀ a, Strict (next a)

/-- A key without an answer is answered `circular` by its computation too. -/
theorem answer_of_diverges (hbody : S.body k = .inr p) (hstrict : S.Strict p)
    (h : ¬ S.Converges k) : S.answer (p.eval S.value) = S.circular := by
  have hopen : ∃ j, p.Asks S.value j ∧ ¬ S.Converges j := by
    by_contra hnone
    push Not at hnone
    apply h
    apply S.converges_of_calls hbody
    rintro j ⟨q, hq, hasks⟩
    rw [hbody] at hq
    cases hq
    exact hnone j hasks
  obtain ⟨j, hasks, hdiverges⟩ := hopen
  clear hbody h
  induction p with
  | done r => cases hasks
  | ask i next ih =>
    rw [Prog.eval_ask]
    by_cases hi : S.Converges i
    · cases hasks with
      | here => exact absurd hi hdiverges
      | there hasks => exact ih (S.value i) (hstrict.2 _) hasks
    · obtain ⟨r, hr, hanswer⟩ := hstrict.1
      rw [S.value_of_diverges hi, hr, Prog.eval_done, hanswer]

/-- The answer of a key is the one its computation comes to. -/
theorem value_body (hbody : S.body k = .inr p) (hstrict : S.Strict p) :
    S.value k = S.answer (p.eval S.value) := by
  by_cases h : S.Converges k
  · obtain ⟨n, a, hk⟩ := h
    rw [S.value_of_unfold hk]
    cases n with
    | zero =>
      rw [S.unfold_zero hbody] at hk
      cases hk
    | succ n =>
      rw [S.unfold_succ hbody] at hk
      obtain ⟨r, hr, rfl⟩ := map_eq_some_iff.mp hk
      rw [(Prog.eval_of_eval? (fun _ _ => S.value_of_unfold) hr).1]
  · rw [S.value_of_diverges h, S.answer_of_diverges hbody hstrict h]

theorem value_inl (h : S.body k = .inl a) : S.value k = a :=
  S.value_of_unfold (S.unfold_inl h 0)

/-- The results that are known. -/
abbrev Memo (κ ρ : Type) := List (κ × ρ)

/-- Each known result is the one of its computation. -/
def Known (memo : Memo κ ρ) : Prop :=
  ∀ entry ∈ memo, ∃ p, S.body entry.1 = .inr p ∧ entry.2 = p.eval S.value

/-- Each key that is worked on has asked for the one after it, which is nearer the head. -/
def Stacked : List κ → Prop
  | k :: j :: rest => S.Calls j k ∧ Stacked (j :: rest)
  | _ => True

/-- A key may be asked for while some keys are worked on. -/
def MayAsk (visiting : List κ) (k : κ) : Prop := ∀ j ∈ visiting.head?, S.Calls j k

section

variable {S}

variable {visiting : List κ} {k : κ}

theorem Known.append (h : S.Known memo)
    (hbody : S.body k = .inr p) : S.Known (memo ++ [(k, p.eval S.value)]) := by
  intro entry hentry
  rcases mem_append.mp hentry with hold | hnew
  · exact h entry hold
  · rw [mem_singleton] at hnew
    rw [hnew]
    exact ⟨p, hbody, rfl⟩

theorem Stacked.transGen (h : S.Stacked visiting)
    (hk : visiting.head? = some k) (hj : j ∈ visiting) : j = k ∨ Relation.TransGen S.Calls j k := by
  induction visiting generalizing k with
  | nil => cases hj
  | cons i rest ih =>
    cases hk
    rcases mem_cons.mp hj with rfl | hrest
    · exact .inl rfl
    cases rest with
    | nil => cases hrest
    | cons i' rest' =>
      obtain ⟨hcalls, hstacked⟩ := h
      rcases ih hstacked rfl hrest with rfl | hpath
      · exact .inr (.single hcalls)
      · exact .inr (hpath.tail hcalls)

/-- A key that is asked for while it is worked on has no answer. -/
theorem Stacked.circular (h : S.Stacked visiting)
    (hmay : S.MayAsk visiting k) (hk : k ∈ visiting) : S.value k = S.circular := by
  apply S.value_of_diverges
  apply S.diverges_of_cycle
  cases hhead : visiting.head? with
  | none =>
    rw [head?_eq_none_iff] at hhead
    rw [hhead] at hk
    cases hk
  | some top =>
    have hcalls := hmay top hhead
    rcases h.transGen hhead hk with rfl | hpath
    · exact .single hcalls
    · exact hpath.tail hcalls

theorem Stacked.cons (h : S.Stacked visiting) (hmay : S.MayAsk visiting k) : S.Stacked (k :: visiting) := by
  cases visiting with
  | nil => trivial
  | cons top rest => exact ⟨hmay top rfl, h⟩

end

section

/-- A memo of which each entry is an old one or belongs to a key that others lead to. -/
def Grown (memo : Memo κ ρ) (leads : κ → Prop) (memo' : Memo κ ρ) : Prop :=
  memo <+: memo' ∧ ∀ entry ∈ memo', entry ∈ memo ∨ leads entry.1

theorem Grown.refl (memo : Memo κ ρ) (leads : κ → Prop) : Grown memo leads memo :=
  ⟨prefix_refl _, fun _ h => .inl h⟩

theorem Grown.trans (h : Grown memo leads memo')
    (h' : Grown memo' leads memo'') : Grown memo leads memo'' := by
  refine ⟨h.1.trans h'.1, ?_⟩
  intro entry hentry
  rcases h'.2 entry hentry with hold | hnew
  · exact h.2 entry hold
  · exact .inr hnew

theorem Grown.mono (h : Grown memo leads memo') (himp : ∀ k, leads k → leads' k) : Grown memo leads' memo' :=
  ⟨h.1, fun entry hentry => (h.2 entry hentry).imp_right (himp _)⟩

theorem Grown.append (h : Grown memo leads memo')
    (hentry : leads entry.1) : Grown memo leads (memo' ++ [entry]) := by
  refine h.trans ⟨prefix_append _ _, ?_⟩
  intro other hother
  rcases mem_append.mp hother with hold | hnew
  · exact .inl hold
  · rw [mem_singleton] at hnew
    rw [hnew]
    exact .inr hentry

end

section Resolve

variable [DecidableEq κ]

def Memo.find (memo : Memo κ ρ) (k : κ) : Option ρ :=
  (List.find? (fun entry => decide (entry.1 = k)) memo).map Prod.snd

/-- The answer of a key, with what is known and while some keys are worked on; none where the depth is
not enough. -/
def resolve : Nat → List κ → Memo κ ρ → κ → Option (ν × Memo κ ρ)
  | depth, visiting, memo, k =>
    if k ∈ visiting then some (S.circular, memo)
    else match memo.find k with
      | some r => some (S.answer r, memo)
      | none => match S.body k with
        | .inl a => some (a, memo)
        | .inr p => match depth with
          | 0 => none
          | n + 1 => (p.run (fun memo j => resolve n (k :: visiting) memo j) memo).map
              fun (r, memo) => (S.answer r, memo ++ [(k, r)])

variable {S}

variable {memo : Memo κ ρ}

theorem Memo.find_none : memo.find k = none ↔ ∀ entry ∈ memo, entry.1 ≠ k := by
  simp [Memo.find, map_eq_none_iff, find?_eq_none, decide_eq_true_eq, ne_eq]

theorem Known.find (h : S.Known memo) (hr : memo.find k = some r) :
    ∃ p, S.body k = .inr p ∧ r = p.eval S.value := by
  obtain ⟨entry, hfind, rfl⟩ := map_eq_some_iff.mp hr
  obtain ⟨p, hbody, heval⟩ := h entry (mem_of_find?_eq_some hfind)
  have hkey : entry.1 = k := by simpa using find?_some hfind
  exact ⟨p, hkey ▸ hbody, heval⟩

theorem resolve_body (hworking : k ∉ visiting) (hfind : memo.find k = none) (hbody : S.body k = .inr p) :
    S.resolve (n + 1) visiting memo k = (p.run (fun memo j => S.resolve n (k :: visiting) memo j) memo).map
        fun (r, memo) => (S.answer r, memo ++ [(k, r)]) := by
  rw [resolve, if_neg hworking, hfind, hbody]

/-- A key is answered at once with its value, or is to be computed. -/
theorem resolve_at_once (hknown : S.Known memo)
    (hstacked : S.Stacked visiting) (hmay : S.MayAsk visiting k) (n : Nat)
    (hstrict : ∀ k p, S.body k = .inr p → S.Strict p) :
    (S.resolve n visiting memo k = some (S.value k, memo) ∧
      (k ∉ visiting → ∀ p, S.body k = .inr p → ∃ r, (k, r) ∈ memo)) ∨
    (k ∉ visiting ∧ memo.find k = none ∧ ∃ p, S.body k = .inr p) := by
  by_cases hworking : k ∈ visiting
  · left
    refine ⟨?_, fun hnot => absurd hworking hnot⟩
    unfold resolve
    rw [if_pos hworking, hstacked.circular hmay hworking]
  cases hfind : memo.find k with
  | some r =>
    left
    obtain ⟨p, hbody, rfl⟩ := hknown.find hfind
    constructor
    · unfold resolve
      rw [if_neg hworking, hfind, S.value_body hbody (hstrict k p hbody)]
    · intro _ _ _
      obtain ⟨entry, hentry, hr⟩ := map_eq_some_iff.mp hfind
      have hkey : entry.1 = k := by simpa using find?_some hentry
      exact ⟨entry.2, hkey ▸ mem_of_find?_eq_some hentry⟩
  | none =>
    cases hbody : S.body k with
    | inl a =>
      left
      constructor
      · unfold resolve
        rw [if_neg hworking, hfind, hbody, S.value_inl hbody]
      · intro _ p hp
        cases hp
    | inr p => exact .inr ⟨hworking, rfl, p, rfl⟩

/-- A computation that asks for keys in their turn is answered with their values. -/
theorem run_spec
    (hresolve : ∀ memo j, S.Known memo → S.Calls k j → (∀ entry ∈ memo, entry.1 ∉ working) →
      ∃ memo', S.resolve n working memo j = some (S.value j, memo') ∧ S.Known memo' ∧
        Grown memo (Relation.ReflTransGen S.Calls k) memo' ∧ ∀ entry ∈ memo', entry.1 ∉ working)
    (q : Prog κ ν ρ) (hq : ∀ j, q.Asks S.value j → S.Calls k j) :
    ∀ memo, S.Known memo → (∀ entry ∈ memo, entry.1 ∉ working) →
      ∃ memo', q.run (fun memo j => S.resolve n working memo j) memo =
          some (q.eval S.value, memo') ∧ S.Known memo' ∧
            Grown memo (Relation.ReflTransGen S.Calls k) memo' ∧ ∀ entry ∈ memo', entry.1 ∉ working := by
  induction q with
  | done r => exact fun memo hknown hfree => ⟨memo, rfl, hknown, .refl _ _, hfree⟩
  | ask j next ih =>
    intro memo hknown hfree
    obtain ⟨memo', hanswer, hknown', hgrown, hfree'⟩ := hresolve memo j hknown (hq j .here) hfree
    obtain ⟨memo'', hrun, hknown'', hgrown', hfree''⟩ :=
      ih (S.value j) (fun i hi => hq i (.there hi)) memo' hknown' hfree'
    refine ⟨memo'', ?_, hknown'', hgrown.trans hgrown', hfree''⟩
    rw [Prog.run, hanswer, bind_some, Prog.eval_ask]
    exact hrun

/-- Every key is answered with its value, whatever is known and being worked on, at a depth of as many
keys as are not being worked on; what it adds to the memo are keys that it leads to. -/
theorem resolve_spec {keys : List κ} (hstrict : ∀ k p, S.body k = .inr p → S.Strict p)
    (hkeys : ∀ k p, S.body k = .inr p → k ∈ keys) (n : Nat) :
    ∀ visiting memo k, S.Known memo → S.Stacked visiting → S.MayAsk visiting k →
      (∀ entry ∈ memo, entry.1 ∉ visiting) → (keys.toFinset \ visiting.toFinset).card ≤ n →
      ∃ memo', S.resolve n visiting memo k = some (S.value k, memo') ∧ S.Known memo' ∧
        Grown memo (Relation.ReflTransGen S.Calls k) memo' ∧ (∀ entry ∈ memo', entry.1 ∉ visiting) ∧
        (k ∉ visiting → ∀ p, S.body k = .inr p → ∃ r, (k, r) ∈ memo') := by
  induction n with
  | zero =>
    intro visiting memo k hknown hstacked hmay hfree hdepth
    rcases resolve_at_once hknown hstacked hmay 0 hstrict with ⟨hanswer, hthere⟩ | ⟨hworking, -, p, hbody⟩
    · exact ⟨memo, hanswer, hknown, .refl _ _, hfree, hthere⟩
    · have hmem : k ∈ keys.toFinset \ visiting.toFinset := by simp [hkeys k p hbody, hworking]
      have hpos := Finset.card_pos.mpr ⟨k, hmem⟩
      omega
  | succ n ih =>
    intro visiting memo k hknown hstacked hmay hfree hdepth
    rcases resolve_at_once hknown hstacked hmay (n + 1) hstrict with
      ⟨hanswer, hthere⟩ | ⟨hworking, hfind, p, hbody⟩
    · exact ⟨memo, hanswer, hknown, .refl _ _, hfree, hthere⟩
    have hless : (keys.toFinset \ (k :: visiting).toFinset).card ≤ n := by
      have hmem : k ∈ keys.toFinset \ visiting.toFinset := by simp [hkeys k p hbody, hworking]
      have herase : keys.toFinset \ (k :: visiting).toFinset =
          (keys.toFinset \ visiting.toFinset).erase k := by
        ext j
        simp
        tauto
      rw [herase, Finset.card_erase_of_mem hmem]
      omega
    have hfree' : ∀ entry ∈ memo, entry.1 ∉ k :: visiting := by
      intro entry hentry hin
      rcases mem_cons.mp hin with rfl | hin
      · exact Memo.find_none.mp hfind entry hentry rfl
      · exact hfree entry hentry hin
    have hresolve : ∀ memo j, S.Known memo → S.Calls k j → (∀ entry ∈ memo, entry.1 ∉ k :: visiting) →
        ∃ memo', S.resolve n (k :: visiting) memo j = some (S.value j, memo') ∧ S.Known memo' ∧
          Grown memo (Relation.ReflTransGen S.Calls k) memo' ∧ ∀ entry ∈ memo', entry.1 ∉ k :: visiting := by
      intro memo j hknown hcalls hfree
      have hmayAsk : S.MayAsk (k :: visiting) j := by
        intro top htop
        cases htop
        exact hcalls
      obtain ⟨memo', hanswer, hknown', hgrown, hfree', -⟩ :=
        ih (k :: visiting) memo j hknown (hstacked.cons hmay) hmayAsk hfree hless
      exact ⟨memo', hanswer, hknown', hgrown.mono fun _ hpath => hpath.head hcalls, hfree'⟩
    obtain ⟨memo', hrun, hknown', hgrown, hfree''⟩ :=
      run_spec hresolve p (fun j hj => ⟨p, hbody, hj⟩) memo hknown hfree'
    refine ⟨memo' ++ [(k, p.eval S.value)], ?_, hknown'.append hbody,
      hgrown.append Relation.ReflTransGen.refl, ?_, ?_⟩
    · rw [resolve_body hworking hfind hbody, hrun, S.value_body hbody (hstrict k p hbody)]
      rfl
    · intro entry hentry hin
      rcases mem_append.mp hentry with hold | hnew
      · exact hfree'' entry hold (mem_cons_of_mem _ hin)
      · rw [mem_singleton] at hnew
        rw [hnew] at hin
        exact hworking hin
    · intro _ _ _
      exact ⟨_, mem_append_right _ (mem_singleton.mpr rfl)⟩

end Resolve

/-- A computation that says `circular` of its own accord nowhere. -/
def Sober : Prog κ ν ρ → Prop
  | .done r => S.answer r ≠ S.circular
  | .ask _ next => ∀ a, a ≠ S.circular → Sober (next a)

section

variable {S}

theorem answer_ne_circular (hsober : S.Sober p)
    (horacle : ∀ k a, oracle k = some a → a ≠ S.circular) (hr : p.eval? oracle = some r) :
    S.answer r ≠ S.circular := by
  induction p with
  | done _ =>
    cases hr
    exact hsober
  | ask k next ih =>
    obtain ⟨a, ha, hnext⟩ := bind_eq_some_iff.mp hr
    exact ih a (hsober a (horacle k a ha)) hnext

theorem unfold_ne_circular (hsober : ∀ k p, S.body k = .inr p → S.Sober p)
    (hgiven : ∀ k a, S.body k = .inl a → a ≠ S.circular) (n : Nat) :
    ∀ k a, S.unfold n k = some a → a ≠ S.circular := by
  induction n with
  | zero =>
    intro k a h
    cases hbody : S.body k with
    | inl b =>
      rw [S.unfold_inl hbody] at h
      cases h
      exact hgiven k _ hbody
    | inr p =>
      rw [S.unfold_zero hbody] at h
      cases h
  | succ n ih =>
    intro k a h
    cases hbody : S.body k with
    | inl b =>
      rw [S.unfold_inl hbody] at h
      cases h
      exact hgiven k _ hbody
    | inr p =>
      rw [S.unfold_succ hbody] at h
      obtain ⟨r, hr, rfl⟩ := map_eq_some_iff.mp h
      exact answer_ne_circular (hsober k p hbody) ih hr

/-- A key without an answer leads into a cycle of questions. -/
theorem diverges_cycle {keys : List κ} (hkeys : ∀ k p, S.body k = .inr p → k ∈ keys) (h : ¬ S.Converges k) :
    ∃ c, Relation.ReflTransGen S.Calls k c ∧ Relation.TransGen S.Calls c c := by
  by_contra hnone
  let Reached : Type := { j : κ // j ∈ keys ∧ Relation.ReflTransGen S.Calls k j }
  let below (a b : Reached) : Prop := Relation.TransGen S.Calls b.1 a.1
  have hfinite : Finite Reached := keys.finite_toSet.subset fun _ hj => hj.1
  have htrans : IsTrans Reached below := ⟨fun _ _ _ hab hbc => hbc.trans hab⟩
  have hirrefl : Std.Irrefl below := ⟨fun a haa => hnone ⟨a.1, a.2.2, haa⟩⟩
  have hwf : WellFounded below := Finite.wellFounded_of_trans_of_irrefl below
  have hall : ∀ a : Reached, S.Converges a.1 := by
    intro a
    induction a using hwf.induction with
    | h a ih =>
      cases hbody : S.body a.1 with
      | inl b => exact ⟨0, b, S.unfold_inl hbody 0⟩
      | inr p =>
        apply S.converges_of_calls hbody
        intro j hcalls
        cases hj : S.body j with
        | inl b => exact ⟨0, b, S.unfold_inl hj 0⟩
        | inr q => exact ih ⟨j, hkeys j q hj, a.2.2.tail hcalls⟩ (.single hcalls)
  cases hbody : S.body k with
  | inl b => exact h ⟨0, b, S.unfold_inl hbody 0⟩
  | inr p => exact h (hall ⟨k, hkeys k p hbody, .refl⟩)

end

end System

end FlowHub.Demand
