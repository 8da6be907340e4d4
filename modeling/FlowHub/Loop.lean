import Mathlib.Data.Finset.Card
import Mathlib.Data.Set.Finite.Basic
import Mathlib.Logic.Basic
import Mathlib.Logic.Relation

namespace FlowHub

open List

section

variable {σ ρ : Type}

/-- A loop whose body goes on with a state or leaves with a result, for so many rounds. -/
def loop (body : σ → σ ⊕ ρ) : Nat → σ → Option ρ
  | 0, _ => none
  | fuel + 1, s =>
    match body s with
    | .inl next => loop body fuel next
    | .inr result => some result

/-- The loop leaves with a result. -/
inductive Leaves (body : σ → σ ⊕ ρ) : σ → ρ → Prop where
  | leave {s : σ} {r : ρ} : body s = .inr r → Leaves body s r
  | round {s next : σ} {r : ρ} : body s = .inl next → Leaves body next r → Leaves body s r

variable {body : σ → σ ⊕ ρ}

theorem leaves_of_loop (h : loop body fuel s = some r) : Leaves body s r := by
  induction fuel generalizing s with
  | zero => cases h
  | succ fuel ih =>
    unfold loop at h
    cases hs : body s with
    | inl next =>
      rw [hs] at h
      exact .round hs (ih h)
    | inr result =>
      rw [hs] at h
      cases h
      exact .leave hs

/-- From some number of rounds on, the loop has its result. -/
theorem Leaves.loop (h : Leaves body s r) : ∃ rounds, ∀ fuel, rounds ≤ fuel → loop body fuel s = some r := by
  induction h with
  | leave hs =>
    refine ⟨1, ?_⟩
    intro fuel hfuel
    cases fuel with
    | zero => omega
    | succ fuel => simp only [FlowHub.loop, hs]
  | round hs _ ih =>
    obtain ⟨rounds, hrounds⟩ := ih
    refine ⟨rounds + 1, ?_⟩
    intro fuel hfuel
    cases fuel with
    | zero => omega
    | succ fuel =>
      simp only [FlowHub.loop, hs]
      exact hrounds fuel (by omega)

/-- What every round keeps holds of the state that the loop leaves from. -/
theorem Leaves.invariant {Inv : σ → Prop} (hround : ∀ s next, Inv s → body s = .inl next → Inv next)
    (h : Leaves body s r) (hs : Inv s) : ∃ last, Inv last ∧ body last = .inr r := by
  induction h with
  | leave hlast => exact ⟨_, hs, hlast⟩
  | round hnext _ ih => exact ih (hround _ _ hs hnext)

/-- A loop leaves if its rounds count up to a bound. -/
theorem exists_leaves (Inv : σ → Prop) (size : σ → Nat) (bound : Nat)
    (hround : ∀ s next, Inv s → body s = .inl next → Inv next ∧ size s < size next)
    (hbound : ∀ s, Inv s → size s ≤ bound) (hs : Inv s) : ∃ r, Leaves body s r := by
  induction hleft : bound - size s using Nat.strongRecOn generalizing s with
  | _ left ih =>
    cases hbody : body s with
    | inr r => exact ⟨r, .leave hbody⟩
    | inl next =>
      obtain ⟨hnext, hsize⟩ := hround s next hs hbody
      have hle := hbound next hnext
      obtain ⟨r, hr⟩ := ih (bound - size next) (by omega) hnext rfl
      exact ⟨r, .round hbody hr⟩

/-- A loop does not leave if each round comes to another. -/
theorem not_leaves {Inv : σ → Prop} (hround : ∀ s, Inv s → ∃ next, body s = .inl next ∧ Inv next)
    (hs : Inv s) (r : ρ) : ¬Leaves body s r := by
  intro h
  induction h with
  | leave hlast =>
    obtain ⟨next, hnext, -⟩ := hround _ hs
    rw [hlast] at hnext
    cases hnext
  | round hbody _ ih =>
    obtain ⟨next, hnext, hinv⟩ := hround _ hs
    rw [hbody] at hnext
    cases hnext
    exact ih hinv

end

section

variable {α : Type} (link : α → Option α) (start : α)

/-- A place that the links lead to. -/
def Reached (place : α) : Prop := Relation.ReflTransGen (fun a b => link a = some b) start place

/-- The places behind a walker, the last one first, who follows the links and turns into no place
again; and where the walker is. -/
inductive Walk : List α → α → Prop where
  | start : Walk [] start
  | follow {visited : List α} {here there : α} : Walk visited here → here ∉ visited →
      link here = some there → Walk (here :: visited) there

variable {link : α → Option α} {start : α}

namespace Walk

variable {visited : List α} {here place : α}

theorem nodup (h : Walk link start visited here) : visited.Nodup := by
  induction h with
  | start => exact nodup_nil
  | follow _ hnew _ ih => exact nodup_cons.mpr ⟨hnew, ih⟩

theorem reached (h : Walk link start visited here) : Reached link start here := by
  induction h with
  | start => exact .refl
  | follow _ _ hlink ih => exact .tail ih hlink

theorem reached_of_mem (h : Walk link start visited here) (hplace : place ∈ visited) :
    Reached link start place := by
  induction h with
  | start => cases hplace
  | follow hwalk _ _ ih =>
    rcases mem_cons.mp hplace with rfl | hplace
    · exact hwalk.reached
    · exact ih hplace

/-- A place that is reached is behind the walker or still ahead. -/
theorem behind_or_ahead (h : Walk link start visited here) (hplace : Reached link start place) :
    place ∈ visited ∨ Reached link here place := by
  induction h with
  | start => exact .inr hplace
  | follow _ _ hlink ih =>
    rcases ih with hvisited | hahead
    · exact .inl (mem_cons_of_mem _ hvisited)
    rcases Relation.ReflTransGen.cases_head hahead with rfl | ⟨there, hthere, hrest⟩
    · exact .inl mem_cons_self
    · rw [hlink] at hthere
      cases hthere
      exact .inr hrest

theorem link_mem (h : Walk link start visited here) (hplace : place ∈ visited)
    (hlink : link place = some b) : b ∈ here :: visited := by
  induction h with
  | start => cases hplace
  | follow _ _ hthere ih =>
    rcases mem_cons.mp hplace with rfl | hplace
    · rw [hlink] at hthere
      cases hthere
      exact mem_cons_self
    · exact mem_cons_of_mem _ (ih hplace)

/-- Where the walker is back at a place, every place that is reached is behind. -/
theorem closed (h : Walk link start visited here) (hseen : here ∈ visited)
    (hplace : Reached link start place) : place ∈ visited := by
  have hfrom : ∀ {a}, Reached link here a → a ∈ visited := by
    intro a ha
    induction ha with
    | refl => exact hseen
    | tail _ hlink ih =>
      rcases mem_cons.mp (h.link_mem ih hlink) with rfl | hmem
      · exact hseen
      · exact hmem
  rcases h.behind_or_ahead hplace with hvisited | hahead
  · exact hvisited
  · exact hfrom hahead

/-- Where no link leads on, every place that is reached is behind, or the one where the walker is. -/
theorem ended (h : Walk link start visited here) (hlast : link here = none)
    (hplace : Reached link start place) : place ∈ here :: visited := by
  rcases h.behind_or_ahead hplace with hvisited | hahead
  · exact mem_cons_of_mem _ hvisited
  rcases Relation.ReflTransGen.cases_head hahead with rfl | ⟨there, hthere, -⟩
  · exact mem_cons_self
  · rw [hlast] at hthere
    cases hthere

theorem length_le {places : Set α} (hfin : places.Finite) (h : visited.Nodup)
    (hplaces : ∀ a ∈ visited, a ∈ places) : visited.length ≤ hfin.toFinset.card := by
  classical
  rw [← toFinset_card_of_nodup h]
  apply Finset.card_le_card
  intro a ha
  exact hfin.mem_toFinset.mpr (hplaces a (mem_toFinset.mp ha))

end Walk

/-- Finitely many places of a walk, each but `place` with the next one. -/
structure Path (link : α → Option α) (start place : α) (places : Set α) : Prop where
  finite : places.Finite
  start_mem : start ∈ places
  link_mem : ∀ a ∈ places, a = place ∨ ∃ b ∈ places, link a = some b

theorem exists_path (h : Reached link start place) : ∃ places, Path link start place places := by
  induction h with
  | refl => exact ⟨{start}, Set.finite_singleton start, rfl, fun a ha => .inl ha⟩
  | @tail here there _ hlink ih =>
    obtain ⟨places, hpath⟩ := ih
    refine ⟨insert there places, hpath.finite.insert there, Set.mem_insert_of_mem _ hpath.start_mem, ?_⟩
    intro a ha
    rcases Set.mem_insert_iff.mp ha with rfl | ha
    · exact .inl rfl
    right
    rcases hpath.link_mem a ha with rfl | ⟨b, hb, hab⟩
    · exact ⟨there, Set.mem_insert _ _, hlink⟩
    · exact ⟨b, Set.mem_insert_of_mem _ hb, hab⟩

/-- As long as a walker has not been at the end of a path, the walker keeps to the path. -/
theorem Path.keeps (hpath : Path link start place places)
    (h : Walk link start visited here) (hnot : place ∉ visited) :
    here ∈ places ∧ ∀ a ∈ visited, a ∈ places := by
  induction h with
  | start => exact ⟨hpath.start_mem, nofun⟩
  | @follow visited here there _ _ hlink ih =>
    rw [mem_cons, not_or] at hnot
    obtain ⟨hhere, hvisited⟩ := ih hnot.2
    constructor
    · rcases hpath.link_mem here hhere with heq | ⟨b, hb, hab⟩
      · exact absurd heq.symm hnot.1
      · rw [hlink] at hab
        cases hab
        exact hb
    · intro a ha
      rcases mem_cons.mp ha with rfl | ha
      · exact hhere
      · exact hvisited a ha

/-- Finitely many places hold paths to places that stand in a relation to given things. -/
theorem exists_paths {P : β → α → Prop} (things : List β)
    (h : ∀ b ∈ things, ∃ place, Reached link start place ∧ P b place) :
    ∃ places : Set α, places.Finite ∧ ∀ b ∈ things, ∃ place path, P b place ∧ path ⊆ places ∧
      Path link start place path := by
  induction things with
  | nil => exact ⟨∅, Set.finite_empty, nofun⟩
  | cons thing rest ih =>
    obtain ⟨places, hfin, hrest⟩ := ih fun b hb => h b (mem_cons_of_mem _ hb)
    obtain ⟨place, hplace, hP⟩ := h thing mem_cons_self
    obtain ⟨path, hpath⟩ := exists_path hplace
    refine ⟨path ∪ places, hpath.finite.union hfin, ?_⟩
    intro b hb
    rcases mem_cons.mp hb with rfl | hb
    · exact ⟨place, path, hP, Set.subset_union_left, hpath⟩
    · obtain ⟨place', path', hP', hsub, hpath'⟩ := hrest b hb
      exact ⟨place', path', hP', hsub.trans Set.subset_union_right, hpath'⟩

/-- A walk that comes to an end reaches finitely many places. -/
theorem Reached.finite (h : Reached link start place) (hlast : link place = none) :
    {a | Reached link start a}.Finite := by
  obtain ⟨places, hpath⟩ := exists_path h
  apply hpath.finite.subset
  intro a ha
  induction ha with
  | refl => exact hpath.start_mem
  | @tail here there _ hlink ih =>
    rcases hpath.link_mem here ih with rfl | ⟨b, hb, hab⟩
    · rw [hlast] at hlink
      cases hlink
    · rw [hlink] at hab
      cases hab
      exact hb

/-- A walk comes to an end at one place. -/
theorem Reached.last_unique (ha : Reached link start a) (hb : Reached link start b)
    (hlasta : link a = none) (hlastb : link b = none) : a = b := by
  have hunique : Relator.RightUnique fun a b => link a = some b := by
    intro x y z hy hz
    exact Option.some.inj (hy.symm.trans hz)
  have hstays : ∀ {x y : α}, link x = none → Relation.ReflTransGen (fun a b => link a = some b) x y →
      x = y := by
    intro x y hlast h
    rcases Relation.ReflTransGen.cases_head h with heq | ⟨z, hz, -⟩
    · exact heq
    · rw [hlast] at hz
      cases hz
  rcases Relation.ReflTransGen.total_of_right_unique hunique ha hb with h | h
  · exact hstays hlasta h
  · exact (hstays hlastb h).symm

end

end FlowHub
