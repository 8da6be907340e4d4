import Mathlib.Data.List.Forall2
import Mathlib.Data.List.Sort

namespace FlowHub

open List Option

theorem forall₂_right_mem (h : Forall₂ R as bs) (ha : a ∈ as) : ∃ b ∈ bs, R a b := by
  induction h with
  | nil => cases ha
  | cons hab _ ih =>
    rcases mem_cons.mp ha with rfl | hmem
    · exact ⟨_, mem_cons_self, hab⟩
    · obtain ⟨b, hb, hab⟩ := ih hmem
      exact ⟨b, mem_cons_of_mem _ hb, hab⟩

theorem forall₂_right (h : Forall₂ R as bs) (ha : a ∈ as) : ∃ b, R a b := by
  obtain ⟨b, -, hab⟩ := forall₂_right_mem h ha
  exact ⟨b, hab⟩

theorem forall₂_left (h : Forall₂ R as bs) (hb : b ∈ bs) : ∃ a ∈ as, R a b :=
  forall₂_right_mem h.flip hb

theorem forall₂_map_eq (h : Forall₂ (fun a b => f a = g b) as bs) : as.map f = bs.map g := by
  induction h with
  | nil => rfl
  | cons hab _ ih => rw [map_cons, map_cons, hab, ih]

theorem forall₂_and (h : Forall₂ R as bs) (h' : Forall₂ S as bs) :
    Forall₂ (fun a b => R a b ∧ S a b) as bs := by
  induction h with
  | nil => exact .nil
  | cons hab _ ih =>
    obtain ⟨hab', hrest⟩ := forall₂_cons.mp h'
    exact .cons ⟨hab, hab'⟩ (ih hrest)

theorem forall₂_unique (hunique : ∀ a b c, R a b → S a c → Q b c)
    (h : Forall₂ R as bs) (h' : Forall₂ S as cs) : Forall₂ Q bs cs := by
  induction h generalizing cs with
  | nil =>
    cases h'
    exact .nil
  | cons hab _ ih =>
    cases h' with
    | cons hac hrest => exact .cons (hunique _ _ _ hab hac) (ih hrest)

theorem forall₂_of_map_eq (h : as.map f = bs.map g) : Forall₂ (fun a b => f a = g b) as bs := by
  have heq : Forall₂ Eq (as.map f) (bs.map g) := by
    rw [h, forall₂_same]
    simp
  rwa [forall₂_map_left_iff, forall₂_map_right_iff] at heq

theorem forall₂_trans (h : Forall₂ R as bs)
    (h' : Forall₂ S bs cs) (hq : ∀ a ∈ as, ∀ b ∈ bs, ∀ c, R a b → S b c → Q a c) :
    Forall₂ Q as cs := by
  induction h generalizing cs with
  | nil =>
    cases h'
    exact .nil
  | @cons a b as bs hab _ ih =>
    cases h' with
    | cons hbc hrest =>
      refine .cons (hq a mem_cons_self b mem_cons_self _ hab hbc) (ih hrest ?_)
      intro a' ha' b' hb'
      exact hq a' (mem_cons_of_mem _ ha') b' (mem_cons_of_mem _ hb')

theorem forall₂_right_unique (hunique : ∀ a b c, R a b → R a c → b = c) (h : Forall₂ R as bs)
    (h' : Forall₂ R as cs) : bs = cs := by
  have heq : Forall₂ Eq bs cs := forall₂_unique hunique h h'
  rwa [forall₂_eq_eq_eq] at heq

theorem forall₂_nodup (h : Forall₂ R as bs) (hnodup : as.Nodup)
    (hinj : ∀ a ∈ as, ∀ a' ∈ as, ∀ b b', R a b → R a' b' → f b = f b' → a = a') :
    (bs.map f).Nodup := by
  induction h with
  | nil => exact nodup_nil
  | @cons a b as bs hab hrest ih =>
    obtain ⟨habsent, hnodup⟩ := nodup_cons.mp hnodup
    rw [map_cons, nodup_cons]
    refine ⟨?_, ih hnodup fun a ha a' ha' => hinj a (mem_cons_of_mem _ ha) a'
      (mem_cons_of_mem _ ha')⟩
    intro hmem
    obtain ⟨b', hb', hsame⟩ := mem_map.mp hmem
    obtain ⟨a', ha', hab'⟩ := forall₂_left hrest hb'
    have := hinj a mem_cons_self a' (mem_cons_of_mem _ ha') b b' hab hab' hsame.symm
    exact habsent (this ▸ ha')

theorem forall₂_inj (h : Forall₂ R as bs) (hnodup : (bs.map f).Nodup) (ha : a ∈ as) (ha' : a' ∈ as)
    (hsame : ∀ b b', R a b → R a' b' → f b = f b') : a = a' := by
  induction h with
  | nil => cases ha
  | @cons x y as bs hxy hrest ih =>
    rw [map_cons, nodup_cons] at hnodup
    rcases mem_cons.mp ha with rfl | hmem
    · rcases mem_cons.mp ha' with rfl | hmem'
      · rfl
      · obtain ⟨b, hb, hab⟩ := forall₂_right_mem hrest hmem'
        exact absurd (mem_map.mpr ⟨b, hb, (hsame y b hxy hab).symm⟩) hnodup.1
    · rcases mem_cons.mp ha' with rfl | hmem'
      · obtain ⟨b, hb, hab⟩ := forall₂_right_mem hrest hmem
        exact absurd (mem_map.mpr ⟨b, hb, hsame b y hab hxy⟩) hnodup.1
      · exact ih hnodup.2 hmem hmem'

theorem map_of_mapM_some {α β γ : Type} {f : α → Option β} {g : α → γ} {k : β → γ} {as : List α}
    {bs : List β} (hfg : ∀ a ∈ as, ∀ b, f a = some b → k b = g a) (h : as.mapM f = some bs) :
    bs.map k = as.map g := by
  induction as generalizing bs with
  | nil =>
    cases h
    rfl
  | cons a rest ih =>
    simp only [mapM_cons, Option.bind_eq_bind, Option.bind_eq_some_iff, Option.pure_def, some.injEq] at h
    obtain ⟨b, hb, bs, hbs, rfl⟩ := h
    have hrest := ih (fun a ha => hfg a (mem_cons_of_mem _ ha)) hbs
    rw [map_cons, map_cons, hfg a mem_cons_self b hb, hrest]

theorem length_of_mapM_some {α β : Type} {f : α → Option β} {as : List α} {bs : List β}
    (h : as.mapM f = some bs) : bs.length = as.length := by
  have hunits : bs.map (fun _ => ()) = as.map fun _ => () := map_of_mapM_some (fun _ _ _ _ => rfl) h
  simpa using congrArg length hunits

/-- Each answer of a list answers one of its members. -/
theorem mem_of_mapM_some {as : List α} (h : as.mapM f = some bs) (hb : b ∈ bs) : ∃ a ∈ as, f a = some b := by
  induction as generalizing bs with
  | nil =>
    cases h
    cases hb
  | cons a rest ih =>
    simp only [mapM_cons, Option.bind_eq_bind, Option.bind_eq_some_iff, Option.pure_def, some.injEq] at h
    obtain ⟨c, hc, cs, hcs, rfl⟩ := h
    rcases mem_cons.mp hb with rfl | hb
    · exact ⟨a, mem_cons_self, hc⟩
    · obtain ⟨d, hd, hfd⟩ := ih hcs hb
      exact ⟨d, mem_cons_of_mem _ hd, hfd⟩

theorem forall₂_insertionSort {le : α → α → Prop} [DecidableRel le]
    (hle : ∀ a a' b b', R a a' → R b b' → (le a b ↔ le a' b'))
    (h : Forall₂ R as bs) : Forall₂ R (as.insertionSort le) (bs.insertionSort le) := by
  have hinsert : ∀ {a a' : α} {as bs : List α}, R a a' → Forall₂ R as bs →
      Forall₂ R (as.orderedInsert le a) (bs.orderedInsert le a') := by
    intro a a' as bs ha h
    induction h with
    | nil => exact .cons ha .nil
    | @cons b b' as bs hb hrest ih =>
      by_cases hab : le a b
      · rw [orderedInsert_cons_of_le _ _ hab, orderedInsert_cons_of_le _ _ ((hle a a' b b' ha hb).mp hab)]
        exact .cons ha (.cons hb hrest)
      · rw [orderedInsert_of_not_le _ _ hab,
          orderedInsert_of_not_le _ _ (fun h => hab ((hle a a' b b' ha hb).mpr h))]
        exact .cons hb ih
  induction h with
  | nil => exact .nil
  | cons ha _ ih => exact hinsert ha ih

end FlowHub
