import FlowHub.Txn.Proc

namespace FlowHub.Txn

variable {I : Interface} {α β : Type}

/-- What the others may do between two steps of a program, and what each of its
own steps does. -/
structure Contract (I : Interface) where
  (rely guar : World I → World I → Prop)

/-- Nobody else runs; every step of ours ends in `inv`. -/
def Contract.alone (inv : World I → Prop) : Contract I where
  rely := Eq
  guar := fun _ v => inv v

/-- Nobody else runs, and nothing is asked of our own steps. -/
abbrev Contract.free : Contract I := .alone fun _ => True

/-- Nobody else runs, and each of our own steps is a `G` step. -/
abbrev Contract.serial (G : World I → World I → Prop) : Contract I := ⟨Eq, G⟩

/-- Each of our own steps is a `G` step, wherever the others leave off. -/
abbrev Contract.does (G : World I → World I → Prop) : Contract I := ⟨fun _ _ => True, G⟩

variable (C : Contract I)

namespace Proc

/-- From `w`, under the others' `rely`, every step of the program keeps its
guarantee; it can only return where `Q` holds and only raise where `E` does. -/
def Meets (Q : α → World I → Prop) (E : I.Fault → World I → Prop) : Proc I α → World I → Prop
  | .done a, w => Q a w
  | .raise e, w => E e w
  | .txn tag body next fail, w => ∀ v, C.rely w v →
      (∀ s, body v.state = .ok s → C.guar v (v.log (.commit tag) s) ∧
        (next v.state).Meets Q E (v.log (.commit tag) s)) ∧
      ∀ e, C.guar v (v.log (.rollback tag e) v.state) ∧ (fail e).Meets Q E (v.log (.rollback tag e) v.state)
  | .ask q next fail, w => ∀ v, C.rely w v →
      (∀ a, C.guar v (v.log (.answer q a) v.state) ∧ (next a).Meets Q E (v.log (.answer q a) v.state)) ∧
      ∀ e, C.guar v (v.log (.failure q e) v.state) ∧ (fail e).Meets Q E (v.log (.failure q e) v.state)

variable {C} {Q Q' : α → World I → Prop} {E E' : I.Fault → World I → Prop}
  {p : Proc I α} {w : World I}

theorem Meets.tryElse {R : β → World I → Prop} {F : I.Fault → World I → Prop}
    {f : α → Proc I β} {h : I.Fault → Proc I β} (hp : p.Meets C Q E w)
    (hf : ∀ a v, Q a v → (f a).Meets C R F v) (hh : ∀ e v, E e v → (h e).Meets C R F v) :
    (p.tryElse f h).Meets C R F w := by
  induction p generalizing w with
  | done a => exact hf a w hp
  | raise e => exact hh e w hp
  | txn tag body next fail ihn ihf =>
    intro v hv
    obtain ⟨hc, hr⟩ := hp v hv
    exact ⟨fun s hs => ⟨(hc s hs).1, ihn _ (hc s hs).2⟩, fun e => ⟨(hr e).1, ihf _ (hr e).2⟩⟩
  | ask q next fail ihn ihf =>
    intro v hv
    obtain ⟨ha, hx⟩ := hp v hv
    exact ⟨fun a => ⟨(ha a).1, ihn _ (ha a).2⟩, fun e => ⟨(hx e).1, ihf _ (hx e).2⟩⟩

theorem Meets.bind {f : α → Proc I β} (h : p.Meets C Q E w)
    (hf : ∀ a v, Q a v → (f a).Meets C R E v) : (p.bind f).Meets C R E w :=
  h.tryElse hf fun _ _ he => he

theorem Meets.rescue {h : I.Fault → Proc I α} (hp : p.Meets C Q E w)
    (hh : ∀ e v, E e v → (h e).Meets C Q E' v) : (p.rescue h).Meets C Q E' w :=
  hp.tryElse (fun _ _ hq => hq) hh

theorem Meets.mono (h : p.Meets C Q E w) (hq : ∀ a v, Q a v → Q' a v)
    (he : ∀ e v, E e v → E' e v) : p.Meets C Q' E' w := by
  rw [← p.tryElse_done_raise]
  exact h.tryElse hq he

theorem Meets.anyEnd (h : p.Meets C Q E w) : p.Meets C (fun _ _ => True) (fun _ _ => True) w :=
  h.mono (fun _ _ _ => trivial) fun _ _ _ => trivial

theorem Meets.transact (hc : ∀ v, C.rely w v → ∀ s a, f v.state = .ok (s, a) →
      C.guar v (v.log (.commit tag) s) ∧ Q a (v.log (.commit tag) s))
    (hr : ∀ v, C.rely w v → ∀ e, C.guar v (v.log (.rollback tag e) v.state) ∧
      E e (v.log (.rollback tag e) v.state)) : (transact tag f).Meets C Q E w := by
  intro v hv
  refine ⟨fun s hs => ?_, hr v hv⟩
  cases hf : f v.state with
  | error e => simp [hf, Except.map] at hs
  | ok r =>
    obtain ⟨s', a⟩ := r
    obtain rfl : s' = s := by simpa [hf, Except.map] using hs
    simpa only [hf, Meets] using hc v hv s' a hf

theorem Meets.consult (hc : ∀ v, C.rely w v → ∀ a, f v.state = .ok a →
      C.guar v (v.log (.commit tag) v.state) ∧ Q a (v.log (.commit tag) v.state))
    (hr : ∀ v, C.rely w v → ∀ e, C.guar v (v.log (.rollback tag e) v.state) ∧
      E e (v.log (.rollback tag e) v.state)) : (consult tag f).Meets C Q E w := by
  refine Meets.transact (fun v hv s a h => ?_) hr
  cases hf : f v.state with
  | error e => simp [hf, Except.map] at h
  | ok b =>
    obtain ⟨rfl, rfl⟩ : v.state = s ∧ b = a := by simpa [hf, Except.map] using h
    exact hc v hv b hf

theorem Meets.request {q : I.Query} {Q : I.Answer q → World I → Prop}
    (ha : ∀ v, C.rely w v → ∀ a, C.guar v (v.log (.answer q a) v.state) ∧ Q a (v.log (.answer q a) v.state))
    (hf : ∀ v, C.rely w v → ∀ e, C.guar v (v.log (.failure q e) v.state) ∧
      E e (v.log (.failure q e) v.state)) :
    (request q).Meets C Q E w :=
  fun v hv => ⟨ha v hv, hf v hv⟩

theorem Meets.ofExcept (ho : ∀ a, x = .ok a → Q a w)
    (he : ∀ e, x = .error e → E e w) : (ofExcept x).Meets C Q E w := by
  cases x with
  | ok a => exact ho a rfl
  | error e => exact he e rfl

/-- An invariant of what a program's steps can do is carried to its end. -/
theorem Meets.carry (inv : World I → Prop) (does : p.Meets D Q E w)
    (within : ∀ a b, C.rely a b → D.rely a b) (rely : ∀ a b, C.rely a b → inv a → inv b)
    (step : ∀ a b, inv a → D.guar a b → C.guar a b ∧ inv b) (h : inv w) :
    p.Meets C (fun a v => Q a v ∧ inv v) (fun e v => E e v ∧ inv v) w := by
  induction p generalizing w with
  | done a => exact ⟨does, h⟩
  | raise e => exact ⟨does, h⟩
  | txn tag body next fail ihn ihf =>
    intro v hv
    obtain ⟨hc, hr⟩ := does v (within w v hv)
    have hi := rely w v hv h
    refine ⟨fun s hs => ?_, fun e => ?_⟩
    · obtain ⟨hg, hi'⟩ := step _ _ hi (hc s hs).1
      exact ⟨hg, ihn _ (hc s hs).2 hi'⟩
    · obtain ⟨hg, hi'⟩ := step _ _ hi (hr e).1
      exact ⟨hg, ihf _ (hr e).2 hi'⟩
  | ask q next fail ihn ihf =>
    intro v hv
    obtain ⟨ha, hf⟩ := does v (within w v hv)
    have hi := rely w v hv h
    refine ⟨fun a => ?_, fun e => ?_⟩
    · obtain ⟨hg, hi'⟩ := step _ _ hi (ha a).1
      exact ⟨hg, ihn _ (ha a).2 hi'⟩
    · obtain ⟨hg, hi'⟩ := step _ _ hi (hf e).1
      exact ⟨hg, ihf _ (hf e).2 hi'⟩

/-- What no step can undo holds to the end of any program. -/
theorem Meets.forever (closed : ∀ {w l s}, P w → P (w.log l s))
    (h : P w) : p.Meets .free (fun _ => P) (fun _ => P) w := by
  induction p generalizing w with
  | done a => exact h
  | raise e => exact h
  | txn tag body next fail ihn ihf =>
    rintro _ rfl
    exact ⟨fun s _ => ⟨trivial, ihn _ (closed h)⟩, fun e => ⟨trivial, ihf _ (closed h)⟩⟩
  | ask q next fail ihn ihf =>
    rintro _ rfl
    exact ⟨fun a => ⟨trivial, ihn _ (closed h)⟩, fun e => ⟨trivial, ihf _ (closed h)⟩⟩

/-- Reasoning under a condition on the history that stays broken once it is. -/
theorem Meets.bindWhile {c : World I → Prop} {R : β → World I → Prop}
    (broken : ∀ {w l s}, ¬c w → ¬c (w.log l s))
    (h : p.Meets .free (fun a v => c v → Q a v) (fun _ _ => True) w)
    (hf : ∀ a v, c v → Q a v → (f a).Meets .free (fun b u => c u → R b u) (fun _ _ => True) v) :
    (p.bind f).Meets .free (fun b u => c u → R b u) (fun _ _ => True) w := by
  refine h.bind fun a v hq => ?_
  by_cases hc : c v
  · exact hf a v hc (hq hc)
  · exact (Meets.forever broken hc).mono (fun _ _ hb hu => absurd hu hb) fun _ _ _ => trivial

/-- A program all of whose steps are `G` steps, from any world. -/
def Does (G : World I → World I → Prop) (p : Proc I α) : Prop :=
  ∀ w, p.Meets (.does G) (fun _ _ => True) (fun _ _ => True) w

section

variable {G H : World I → World I → Prop} {tag : I.Tag}

theorem Does.done (a : α) : Does G (.done a : Proc I α) := fun _ => trivial

theorem Does.raise (e : I.Fault) : Does G (.raise e : Proc I α) := fun _ => trivial

theorem Does.tryElse (hp : Does G p)
    (hf : ∀ a, Does G (f a)) (hh : ∀ e, Does G (h e)) : Does G (p.tryElse f h) :=
  fun w => (hp w).tryElse (fun a v _ => hf a v) fun e v _ => hh e v

theorem Does.bind (hp : Does G p) (hf : ∀ a, Does G (f a)) : Does G (p.bind f) :=
  hp.tryElse hf .raise

theorem Does.ofExcept (x : Except I.Fault α) : Does G (Proc.ofExcept x : Proc I α) :=
  fun _ => Meets.ofExcept (fun _ _ => trivial) fun _ _ => trivial

theorem Does.transact {f : I.State → Except I.Fault (I.State × α)}
    (hc : ∀ w s a, f w.state = .ok (s, a) → G w (w.log (.commit tag) s))
    (hr : ∀ w e, G w (w.log (.rollback tag e) w.state)) : Does G (Proc.transact tag f) :=
  fun _ => Meets.transact (fun v _ s a hok => ⟨hc v s a hok, trivial⟩)
    fun v _ e => ⟨hr v e, trivial⟩

theorem Does.consult (hc : ∀ w, G w (w.log (.commit tag) w.state))
    (hr : ∀ w e, G w (w.log (.rollback tag e) w.state)) : Does G (Proc.consult tag f) :=
  fun _ => Meets.consult (fun v _ _ _ => ⟨hc v, trivial⟩) fun v _ e => ⟨hr v e, trivial⟩

theorem Does.request {q : I.Query} (ha : ∀ w a, G w (w.log (.answer q a) w.state))
    (hf : ∀ w e, G w (w.log (.failure q e) w.state)) : Does G (Proc.request q) :=
  fun _ => Meets.request (fun v _ a => ⟨ha v a, trivial⟩) fun v _ e => ⟨hf v e, trivial⟩

theorem Does.mono (h : Does G p) (hGH : ∀ w v, G w v → H w v) : Does H p := by
  intro w
  have hcarry := (h w).carry (C := .does H) (fun _ => True) (fun _ _ _ => trivial)
    (fun _ _ _ _ => trivial) (fun a b _ hg => ⟨hGH a b hg, trivial⟩) trivial
  exact hcarry.mono (fun _ _ _ => trivial) fun _ _ _ => trivial

/-- With nobody else running, `G` steps are what a program of `G` steps takes. -/
theorem Does.serial (h : Does G p) : p.Meets (.serial G) (fun _ _ => True) (fun _ _ => True) w := by
  have hcarry := (h w).carry (C := .serial G) (fun _ => True) (fun _ _ _ => trivial)
    (fun _ _ _ _ => trivial) (fun _ _ _ hg => ⟨hg, trivial⟩) trivial
  exact hcarry.anyEnd

end

end Proc

variable {C} {Q : α → World I → Prop} {E : I.Fault → World I → Prop}

theorem Step.meets (st : Step p w q v)
    (refl : C.rely w w) (h : p.Meets C Q E w) : C.guar w v ∧ q.Meets C Q E v := by
  cases st with
  | commit hs => exact (h w refl).1 _ hs
  | rollback e => exact (h w refl).2 e
  | answer a => exact (h w refl).1 a
  | failure e => exact (h w refl).2 e

theorem Steps.meets_alone (st : Steps p w q v) (hw : inv w) (h : p.Meets (.alone inv) Q E w) :
    inv v ∧ q.Meets (.alone inv) Q E v := by
  induction st with
  | refl => exact ⟨hw, h⟩
  | step s _ ih =>
    obtain ⟨hv, hq⟩ := s.meets (C := .alone inv) rfl h
    exact ih hv hq

/-- A call that returned did so where its postcondition holds. -/
theorem Steps.returned (st : Steps p w (.done a) v) (hw : inv w) (h : p.Meets (.alone inv) Q E w) : Q a v :=
  (st.meets_alone hw h).2

theorem Steps.raised (st : Steps p w (.raise e) v) (hw : inv w) (h : p.Meets (.alone inv) Q E w) : E e v :=
  (st.meets_alone hw h).2

/-- An invariant that every call keeps at each of its steps holds at every point
of every sequence of calls, crashes included. -/
theorem Session.invariant (run : Session calls w v) (hw : inv w) (keep : ∀ p, calls p → ∀ u, inv u →
      p.Meets (.alone inv) (fun _ _ => True) (fun _ _ => True) u) : inv v := by
  induction run with
  | start => exact hw
  | call _ hp st ih => exact (st.meets_alone ih (keep _ hp _ ih)).1

/-- What no `G` step breaks holds at every point of every sequence of calls that take `G`
steps. -/
theorem Session.keeps {inv : World I → Prop} (run : Session calls w v) (hw : inv w)
    (does : ∀ p, calls p → ∀ u, p.Meets (.serial G) (fun _ _ => True) (fun _ _ => True) u)
    (step : ∀ a b, inv a → G a b → inv b) : inv v := by
  refine run.invariant hw fun p hp u hu => ?_
  have hcarry := (does p hp u).carry (C := .alone inv) inv (fun _ _ h => h)
    (fun a b hab ha => hab ▸ ha) (fun a b ha hg => ⟨step a b ha hg, step a b ha hg⟩) hu
  exact hcarry.anyEnd

end FlowHub.Txn
