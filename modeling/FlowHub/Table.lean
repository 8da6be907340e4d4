import Mathlib.Data.List.Nodup
import Mathlib.Order.Lattice

namespace FlowHub.Table

open List

variable {ρ κ : Type} [DecidableEq κ] (key : ρ → κ)

/-- The row with a primary key. -/
def get (rows : List ρ) (k : κ) : Option ρ := rows.find? fun r => decide (key r = k)

/-- Update the row with a primary key. -/
def set (rows : List ρ) (k : κ) (f : ρ → ρ) : List ρ :=
  rows.map fun r => if key r = k then f r else r

def has (rows : List ρ) (k : κ) : Bool := rows.any fun r => decide (key r = k)

/-- The first row of the highest rank. -/
def latest (rank : ρ → Nat) (rows : List ρ) : Option ρ :=
  rows.foldl (fun best r => match best with
    | none => some r
    | some b => if rank b < rank r then some r else some b) none

variable {key}

variable {rows : List ρ} {k : κ} {r : ρ} {f : ρ → ρ}

theorem has_iff : has key rows k = true ↔ ∃ r ∈ rows, key r = k := by
  simp [has, any_eq_true, decide_eq_true_eq]

theorem get_some (h : get key rows k = some r) : r ∈ rows ∧ key r = k :=
  ⟨mem_of_find?_eq_some h, by simpa using find?_some h⟩

theorem get_none : get key rows k = none ↔ ∀ r ∈ rows, key r ≠ k := by
  simp [get, find?_eq_none, decide_eq_true_eq]

/-- One row more, under a key of its own. -/
theorem nodup_snoc {f : ρ → α} (h : (rows.map f).Nodup) (hnew : ∀ q ∈ rows, f q ≠ f r) :
    ((rows ++ [r]).map f).Nodup := by
  rw [map_append, map_singleton, nodup_append_comm, singleton_append, nodup_cons]
  refine ⟨?_, h⟩
  intro hmem
  obtain ⟨q, hq, hsame⟩ := mem_map.mp hmem
  exact hnew q hq hsame

theorem mem_set : r ∈ set key rows k f ↔ (∃ q ∈ rows, key q = k ∧ f q = r) ∨ (r ∈ rows ∧ key r ≠ k) := by
  simp only [set, mem_map]
  constructor
  · rintro ⟨q, hq, rfl⟩
    by_cases h : key q = k
    · exact .inl ⟨q, hq, h, by rw [if_pos h]⟩
    · exact .inr ⟨by rwa [if_neg h], by rwa [if_neg h]⟩
  · rintro (⟨q, hq, hk, rfl⟩ | ⟨hr, hk⟩)
    · exact ⟨q, hq, if_pos hk⟩
    · exact ⟨r, hr, if_neg hk⟩

/-- What an update leaves of every row. -/
theorem map_set {β : Type} {g : ρ → β} (hg : ∀ r, g (f r) = g r) : (set key rows k f).map g = rows.map g := by
  rw [set, map_map]
  apply map_congr_left
  intro r _
  simp only [Function.comp_apply]
  split
  · exact hg r
  · rfl

theorem has_false : has key rows k = false ↔ get key rows k = none := by
  rw [get_none, has, any_eq_false]
  simp [decide_eq_true_eq, ne_eq]

theorem get_append_of_some (h : get key rows k = some r) : get key (rows ++ more) k = some r := by
  simp only [get, find?_append] at h ⊢
  rw [h, Option.some_or]

theorem get_append_of_none (h : get key rows k = none) : get key (rows ++ more) k = get key more k := by
  simp only [get, find?_append] at h ⊢
  rw [h, Option.none_or]

/-- An update that keeps keys changes the row it is for and no other. -/
theorem get_set (hf : ∀ r, key (f r) = key r) :
    get key (set key rows k f) j = if j = k then (get key rows k).map f else get key rows j := by
  have hkey : ∀ r, key (if key r = k then f r else r) = key r := by
    intro r
    split
    · exact hf r
    · rfl
  induction rows with
  | nil => simp [get, set]
  | cons r rest ih =>
    simp only [get, set, map_cons, find?_cons, hkey] at ih ⊢
    by_cases hj : key r = j
    · simp only [hj, decide_true]
      by_cases hk : j = k
      · simp [hk]
      · simp [hk]
    · by_cases hk : j = k
      · subst hk
        simpa [hj] using ih
      · simpa [hj, hk] using ih

/-- A row put in the place of the one with its key. -/
theorem get_set_row (hrow : key row = k) : get key (set key rows k fun _ => row) j =
      if j = k then (get key rows k).map fun _ => row else get key rows j := by
  have hset : set key rows k (fun _ => row) = set key rows k fun r => if key r = k then row else r := by
    refine map_congr_left fun r _ => ?_
    by_cases hr : key r = k
    · simp [hr]
    · simp [hr]
  have hkey : ∀ r, key (if key r = k then row else r) = key r := by
    intro r
    by_cases hr : key r = k
    · rw [if_pos hr, hr, hrow]
    · rw [if_neg hr]
  rw [hset, get_set hkey]
  by_cases hj : j = k
  · rw [if_pos hj, if_pos hj]
    cases hget : get key rows k with
    | none => rfl
    | some r => simp [(get_some hget).2]
  · rw [if_neg hj, if_neg hj]

theorem get_map (hf : ∀ r, key (f r) = key r) : get key (rows.map f) k = (get key rows k).map f := by
  simp [get, find?_map, Function.comp_def, hf]

theorem set_set (hf : ∀ r, key (f r) = key r) : set key (set key rows k f) k g = set key rows k (g ∘ f) := by
  simp only [set, map_map]
  refine map_congr_left fun r _ => ?_
  by_cases h : key r = k
  · simp [h, hf]
  · simp [h]

theorem get_of_mem (unique : (rows.map key).Nodup) (h : r ∈ rows) : get key rows (key r) = some r := by
  have hsome : get key rows (key r) ≠ none := fun hnone => get_none.mp hnone r h rfl
  obtain ⟨q, hq⟩ := Option.ne_none_iff_exists'.mp hsome
  rw [hq]
  obtain ⟨hmem, hkey⟩ := get_some hq
  exact congrArg some (inj_on_of_nodup_map unique hmem h hkey)

/-- Unique keys leave one row under each key in use. -/
theorem filter_of_mem (unique : (rows.map key).Nodup) (h : r ∈ rows) :
    rows.filter (fun q => decide (key q = key r)) = [r] := by
  induction rows with
  | nil => cases h
  | cons q rest ih =>
    rw [map_cons, nodup_cons] at unique
    obtain ⟨habsent, hrest⟩ := unique
    rcases mem_cons.mp h with rfl | hmem
    · have hnil : rest.filter (fun q => decide (key q = key r)) = [] := by
        rw [filter_eq_nil_iff]
        intro q hq heq
        exact habsent (mem_map.mpr ⟨q, hq, of_decide_eq_true heq⟩)
      simp [hnil]
    · have hne : key q ≠ key r := by
        intro heq
        exact habsent (heq ▸ mem_map_of_mem hmem)
      simp [hne, ih hrest hmem]

/-- An autoincrement key is one past the highest in use. -/
theorem next_notMem (keys : List Nat) : keys.foldr max 0 + 1 ∉ keys := by
  have hbound : ∀ k ∈ keys, k ≤ keys.foldr max 0 := by
    induction keys with
    | nil => simp
    | cons a rest ih =>
      intro k hk
      rw [foldr_cons]
      rcases mem_cons.mp hk with rfl | hk
      · exact le_max_left _ _
      · exact (ih k hk).trans (le_max_right _ _)
  intro hmem
  have := hbound _ hmem
  omega

end FlowHub.Table
