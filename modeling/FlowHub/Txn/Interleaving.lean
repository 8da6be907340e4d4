import FlowHub.Txn.Logic

namespace FlowHub.Txn

variable {I : Interface} {α β : Type}

/-- A step of one of several programs: whose it was, and the worlds around it. -/
structure Move (ι : Type) (I : Interface) where
  who : ι
  (before after : World I)

/-- Programs that run side by side, with every step any of them took. -/
inductive Interleaved {ι : Type} [DecidableEq ι] (start : ι → Proc I α) (w : World I) :
    List (Move ι I) → (ι → Proc I α) → World I → Prop
  | start : Interleaved start w [] start w
  | step {moves : List (Move ι I)} {ps : ι → Proc I α} {v u : World I} (i : ι) {q : Proc I α} :
      Interleaved start w moves ps v → Step (ps i) v q u →
      Interleaved start w (moves ++ [⟨i, v, u⟩]) (Function.update ps i q) u

/-- The steps a program has taken itself. -/
abbrev Trail (I : Interface) := List (World I × World I)

def trailOf {ι : Type} [DecidableEq ι] (i : ι) (moves : List (Move ι I)) : Trail I :=
  (moves.filter fun m => decide (m.who = i)).map fun m => (m.before, m.after)

namespace Proc

/-- As `Meets`, with ends that speak of the program's own steps. -/
def Accounts (C : Contract I) (Q : α → Trail I → World I → Prop)
    (E : I.Fault → Trail I → World I → Prop) : Proc I α → Trail I → World I → Prop
  | .done a, t, w => Q a t w
  | .raise e, t, w => E e t w
  | .txn tag body next fail, t, w => ∀ v, C.rely w v →
      (∀ s, body v.state = .ok s → C.guar v (v.log (.commit tag) s) ∧
        (next v.state).Accounts C Q E (t ++ [(v, v.log (.commit tag) s)])
          (v.log (.commit tag) s)) ∧
      ∀ e, C.guar v (v.log (.rollback tag e) v.state) ∧
        (fail e).Accounts C Q E (t ++ [(v, v.log (.rollback tag e) v.state)])
          (v.log (.rollback tag e) v.state)
  | .ask q next fail, t, w => ∀ v, C.rely w v →
      (∀ a, C.guar v (v.log (.answer q a) v.state) ∧
        (next a).Accounts C Q E (t ++ [(v, v.log (.answer q a) v.state)])
          (v.log (.answer q a) v.state)) ∧
      ∀ e, C.guar v (v.log (.failure q e) v.state) ∧
        (fail e).Accounts C Q E (t ++ [(v, v.log (.failure q e) v.state)])
          (v.log (.failure q e) v.state)

variable {C : Contract I} {Q : α → Trail I → World I → Prop} {E : I.Fault → Trail I → World I → Prop}
  {p : Proc I α} {t : Trail I} {w : World I}

theorem Accounts.tryElse {R : β → Trail I → World I → Prop} {F : I.Fault → Trail I → World I → Prop}
    {f : α → Proc I β} {h : I.Fault → Proc I β} (hp : p.Accounts C Q E t w)
    (hf : ∀ a t v, Q a t v → (f a).Accounts C R F t v)
    (hh : ∀ e t v, E e t v → (h e).Accounts C R F t v) : (p.tryElse f h).Accounts C R F t w := by
  induction p generalizing t w with
  | done a => exact hf a t w hp
  | raise e => exact hh e t w hp
  | txn tag body next fail ihn ihf =>
    intro v hv
    obtain ⟨hc, hr⟩ := hp v hv
    exact ⟨fun s hs => ⟨(hc s hs).1, ihn _ (hc s hs).2⟩, fun e => ⟨(hr e).1, ihf _ (hr e).2⟩⟩
  | ask q next fail ihn ihf =>
    intro v hv
    obtain ⟨ha, hx⟩ := hp v hv
    exact ⟨fun a => ⟨(ha a).1, ihn _ (ha a).2⟩, fun e => ⟨(hx e).1, ihf _ (hx e).2⟩⟩

theorem Accounts.bind {R : β → Trail I → World I → Prop} {f : α → Proc I β}
    (hp : p.Accounts C Q E t w) (hf : ∀ a t v, Q a t v → (f a).Accounts C R E t v) :
    (p.bind f).Accounts C R E t w :=
  hp.tryElse hf fun _ _ _ he => he

theorem Accounts.transact (hc : ∀ v, C.rely w v → ∀ s a, f v.state = .ok (s, a) →
      C.guar v (v.log (.commit tag) s) ∧ Q a (t ++ [(v, v.log (.commit tag) s)]) (v.log (.commit tag) s))
    (hr : ∀ v, C.rely w v → ∀ e, C.guar v (v.log (.rollback tag e) v.state) ∧
      E e (t ++ [(v, v.log (.rollback tag e) v.state)]) (v.log (.rollback tag e) v.state)) :
    (Proc.transact tag f).Accounts C Q E t w := by
  intro v hv
  refine ⟨fun s hs => ?_, hr v hv⟩
  cases hf : f v.state with
  | error e => simp [hf, Except.map] at hs
  | ok r =>
    obtain ⟨s', a⟩ := r
    obtain rfl : s' = s := by simpa [hf, Except.map] using hs
    simpa only [hf, Accounts] using hc v hv s' a hf

theorem Accounts.consult (hc : ∀ v, C.rely w v → ∀ a, f v.state = .ok a →
      C.guar v (v.log (.commit tag) v.state) ∧
        Q a (t ++ [(v, v.log (.commit tag) v.state)]) (v.log (.commit tag) v.state))
    (hr : ∀ v, C.rely w v → ∀ e, C.guar v (v.log (.rollback tag e) v.state) ∧
      E e (t ++ [(v, v.log (.rollback tag e) v.state)]) (v.log (.rollback tag e) v.state)) :
    (Proc.consult tag f).Accounts C Q E t w := by
  refine Accounts.transact (fun v hv s a h => ?_) hr
  cases hf : f v.state with
  | error e => simp [hf, Except.map] at h
  | ok b =>
    obtain ⟨rfl, rfl⟩ : v.state = s ∧ b = a := by simpa [hf, Except.map] using h
    exact hc v hv b hf

theorem Accounts.resume (trans : ∀ {a b c}, C.rely a b → C.rely b c → C.rely a c)
    (done : ∀ a t v u, C.rely v u → Q a t v → Q a t u)
    (raised : ∀ e t v u, C.rely v u → E e t v → E e t u)
    (h : p.Accounts C Q E t w) (hv : C.rely w v) : p.Accounts C Q E t v := by
  cases p with
  | done a => exact done a t w v hv h
  | raise e => exact raised e t w v hv h
  | txn tag body next fail => exact fun u hu => h u (trans hv hu)
  | ask q next fail => exact fun u hu => h u (trans hv hu)

end Proc

theorem Step.accounts (st : Step p w q v) (refl : C.rely w w) (h : p.Accounts C Q E t w) :
    C.guar w v ∧ q.Accounts C Q E (t ++ [(w, v)]) v := by
  cases st with
  | commit hs => exact (h w refl).1 _ hs
  | rollback e => exact (h w refl).2 e
  | answer a => exact (h w refl).1 a
  | failure e => exact (h w refl).2 e

theorem trailOf_append_self [DecidableEq ι] (i : ι) (moves : List (Move ι I))
    (v u : World I) : trailOf i (moves ++ [⟨i, v, u⟩]) = trailOf i moves ++ [(v, u)] := by
  simp [trailOf]

theorem trailOf_append_other [DecidableEq ι] (h : j ≠ i) (moves : List (Move ι I)) (v u : World I) :
    trailOf i (moves ++ [⟨j, v, u⟩]) = trailOf i moves := by
  simp [trailOf, h]

/-- Side by side, every program ends as it does among others that keep their guarantees. -/
theorem Interleaved.accounts [DecidableEq ι] {C : ι → Contract I}
    {Q : ι → α → Trail I → World I → Prop} {E : ι → I.Fault → Trail I → World I → Prop}
    {start : ι → Proc I α} (run : Interleaved start w moves ps v) (refl : ∀ i u, (C i).rely u u)
    (trans : ∀ i {a b c}, (C i).rely a b → (C i).rely b c → (C i).rely a c)
    (compat : ∀ i j, i ≠ j → ∀ a b, (C i).guar a b → (C j).rely a b)
    (done : ∀ i a t v u, (C i).rely v u → Q i a t v → Q i a t u)
    (raised : ∀ i e t v u, (C i).rely v u → E i e t v → E i e t u)
    (begun : ∀ i, (start i).Accounts (C i) (Q i) (E i) [] w) :
    (∀ i, (ps i).Accounts (C i) (Q i) (E i) (trailOf i moves) v) ∧
      ∀ m ∈ moves, (C m.who).guar m.before m.after := by
  induction run with
  | start => exact ⟨begun, by simp⟩
  | @step moves ps v u i q _ st ih =>
    obtain ⟨hps, hmoves⟩ := ih
    obtain ⟨hg, hq⟩ := st.accounts (refl i v) (hps i)
    refine ⟨fun j => ?_, fun m hm => ?_⟩
    · by_cases hj : j = i
      · subst hj
        rw [Function.update_self, trailOf_append_self]
        exact hq
      · rw [Function.update_of_ne hj, trailOf_append_other (Ne.symm hj)]
        exact (hps j).resume (trans j) (done j) (raised j) (compat i j (Ne.symm hj) _ _ hg)
    · rcases List.mem_append.mp hm with hm | hm
      · exact hmoves m hm
      · obtain rfl := List.mem_singleton.mp hm
        exact hg

theorem Proc.result_some {p : Proc I α} (h : p.result = some a) : p = .done a := by
  cases p with
  | done b => exact congrArg Proc.done (Option.some.inj h)
  | raise | txn | ask => cases h

/-- Run programs against fixed surroundings, one step of the next in turn at a time. -/
def interleave {ι : Type} [DecidableEq ι] (env : Surroundings I) :
    List ι → (ι → Proc I α) → World I → (ι → Proc I α) × World I
  | [], ps, w => (ps, w)
  | i :: rest, ps, w =>
    let (p, v) := replay env 1 (ps i) w
    interleave env rest (Function.update ps i p) v

theorem replay_one (env : Surroundings I) (p : Proc I α) (w : World I) :
    replay env 1 p w = (p, w) ∨ Step p w (replay env 1 p w).1 (replay env 1 p w).2 := by
  cases p with
  | done | raise => exact .inl rfl
  | txn tag body next fail =>
    right
    simp only [replay]
    split
    · exact .rollback _
    split
    · rename_i s hs
      exact .commit hs
    · exact .rollback _
  | ask q next fail =>
    right
    simp only [replay]
    split
    · exact .answer _
    · exact .failure _

theorem interleave_run [DecidableEq ι] (env : Surroundings I) (turns : List ι)
    (run : Interleaved start w moves ps v) :
    ∃ moves, Interleaved start w moves (interleave env turns ps v).1
      (interleave env turns ps v).2 := by
  induction turns generalizing ps v moves with
  | nil => exact ⟨moves, run⟩
  | cons i rest ih =>
    rcases replay_one env (ps i) v with hstays | hstep
    · simp only [interleave, hstays, Function.update_eq_self]
      exact ih run
    · exact ih (run.step i hstep)

end FlowHub.Txn
