import Mathlib.Algebra.Order.Field.Power
import Mathlib.Data.Int.Log
import Mathlib.Data.Rat.Floor
import Mathlib.Tactic.Linarith
import Mathlib.Tactic.FieldSimp
import Mathlib.Tactic.Positivity
import Mathlib.Tactic.Ring

namespace FlowHub.Binary64

/-- The exponent of the last place of a double near `x`; subnormals share theirs. -/
def unitExp (x : ℚ) : ℤ := max (Int.log 2 |x| - 52) (-1074)

def ulp (x : ℚ) : ℚ := 2 ^ unitExp x

/-- The integer nearest to `q`, the even one of two. -/
def halfEven (q : ℚ) : ℤ :=
  if q - ⌊q⌋ < 1 / 2 then ⌊q⌋
  else if 1 / 2 < q - ⌊q⌋ then ⌊q⌋ + 1
  else if ⌊q⌋ % 2 = 0 then ⌊q⌋ else ⌊q⌋ + 1

/-- Round to nearest, ties to even, with no bound on the exponent above. -/
def nearest (x : ℚ) : ℚ := halfEven (x / ulp x) * ulp x

/-- At most 53 significant bits, none of them below 2 ^ -1074. -/
def OnGrid (x : ℚ) : Prop :=
  ∃ (m e : ℤ), |m| ≤ 2 ^ 53 ∧ -1074 ≤ e ∧ x = m * 2 ^ e

theorem ulp_pos (x : ℚ) : 0 < ulp x := by
  unfold ulp
  positivity

theorem halfEven_near (q : ℚ) (k : ℤ) : |(halfEven q : ℚ) - q| ≤ |(k : ℚ) - q| := by
  have lo := Int.floor_le q
  have hi := Int.lt_floor_add_one q
  have two_sides : (k : ℚ) ≤ ⌊q⌋ ∨ (⌊q⌋ : ℚ) + 1 ≤ k := by
    rcases le_or_gt k ⌊q⌋ with h | h
    · exact .inl (by exact_mod_cast h)
    · exact .inr (by exact_mod_cast h)
  have near : |(halfEven q : ℚ) - q| ≤ q - ⌊q⌋ ∧ |(halfEven q : ℚ) - q| ≤ ⌊q⌋ + 1 - q := by
    unfold halfEven
    split_ifs with h₁ h₂
    · rw [abs_of_nonpos (by linarith)]
      constructor <;> linarith
    · push_cast
      rw [abs_of_nonneg (by linarith)]
      constructor <;> linarith
    · rw [abs_of_nonpos (by linarith)]
      constructor <;> linarith
    · push_cast
      rw [abs_of_nonneg (by linarith)]
      constructor <;> linarith
  rcases two_sides with h | h
  · rw [abs_of_nonpos (a := (k : ℚ) - q) (by linarith)]
    linarith [near.1]
  · rw [abs_of_nonneg (a := (k : ℚ) - q) (by linarith)]
    linarith [near.2]

variable {x b c d : ℚ} {g m : ℤ}

theorem scale_down (m : ℤ) (h : g ≤ e) : (m * 2 ^ e : ℚ) = (m * 2 ^ (e - g).toNat : ℤ) * 2 ^ g := by
  have : (2 : ℚ) ^ e = 2 ^ (e - g).toNat * 2 ^ g := by
    rw [← zpow_natCast, ← zpow_add₀ (by norm_num)]
    congr 1
    omega
  push_cast
  rw [this]
  ring

/-- A double is a whole number of the smallest units, and of any unit it is large
against. -/
theorem OnGrid.multiple (hb : OnGrid b) (e : ℤ)
    (he : e ≤ -1074 ∨ 2 ^ (e + 52) < |b|) : ∃ n : ℤ, b = n * 2 ^ e := by
  obtain ⟨m, f, hm, hf, rfl⟩ := hb
  have hef : e ≤ f := by
    rcases he with he | he
    · omega
    by_contra h
    have hm' : |(m : ℚ)| ≤ 2 ^ 53 := by exact_mod_cast hm
    have hp : (2 : ℚ) ^ f ≤ 2 ^ (e - 1) := zpow_le_zpow_right₀ (by norm_num) (by omega)
    have hpos : (0 : ℚ) < 2 ^ f := by positivity
    have : |(m : ℚ) * 2 ^ f| ≤ 2 ^ (e + 52) := by
      rw [abs_mul, abs_of_pos hpos]
      calc |(m : ℚ)| * 2 ^ f ≤ 2 ^ 53 * 2 ^ (e - 1) := by gcongr
        _ = 2 ^ (e + 52) := by rw [← zpow_natCast, ← zpow_add₀ (by norm_num)]; congr 1; omega
    linarith
  exact ⟨_, scale_down m hef⟩

theorem nearest_near_multiple (x : ℚ) (n : ℤ) : |nearest x - x| ≤ |n * ulp x - x| := by
  have hu := ulp_pos x
  have key := mul_le_mul_of_nonneg_right (halfEven_near (x / ulp x) n) hu.le
  have scale (k : ℤ) : |(k : ℚ) - x / ulp x| * ulp x = |k * ulp x - x| := by
    rw [← abs_of_pos hu, ← abs_mul, abs_of_pos hu, sub_mul, div_mul_cancel₀ _ hu.ne']
  rwa [scale, scale] at key

theorem abs_lt_units (x : ℚ) : |x| < 2 ^ 53 * ulp x := by
  have hlog := Int.lt_zpow_succ_log_self (b := 2) (by norm_num) |x|
  have hle : (2 : ℚ) ^ (Int.log 2 |x| + 1) ≤ 2 ^ (53 + unitExp x) :=
    zpow_le_zpow_right₀ (by norm_num) (by unfold unitExp; omega)
  have : (2 : ℚ) ^ 53 * ulp x = 2 ^ (53 + unitExp x) := by
    rw [ulp, zpow_add₀ (by norm_num)]
    norm_num
  rw [this]
  push_cast at hlog
  linarith

theorem nearest_onGrid (x : ℚ) : OnGrid (nearest x) := by
  refine ⟨halfEven (x / ulp x), unitExp x, ?_, by unfold unitExp; omega, rfl⟩
  have hu := ulp_pos x
  have hx : |x / ulp x| < 2 ^ 53 := by
    rw [abs_div, abs_of_pos hu, div_lt_iff₀ hu]
    exact abs_lt_units x
  obtain ⟨lo, hi⟩ := abs_lt.mp hx
  have hup := halfEven_near (x / ulp x) (2 ^ 53)
  have hdown := halfEven_near (x / ulp x) (-2 ^ 53)
  push_cast at hup hdown
  rw [abs_of_nonneg (a := 9007199254740992 - x / ulp x) (by linarith)] at hup
  rw [abs_of_nonpos (a := -9007199254740992 - x / ulp x) (by linarith)] at hdown
  have h₁ := (abs_le.mp hup).2
  have h₂ := (abs_le.mp hdown).1
  have : |(halfEven (x / ulp x) : ℚ)| ≤ 2 ^ 53 := abs_le.mpr ⟨by linarith, by linarith⟩
  exact_mod_cast this

theorem binade_units (h : -1074 < unitExp x) : (2 : ℚ) ^ Int.log 2 |x| = (2 ^ 52 : ℤ) * ulp x := by
  have he : Int.log 2 |x| = 52 + unitExp x := by unfold unitExp at h ⊢; omega
  rw [he, zpow_add₀ (by norm_num), ulp]
  norm_num

/-- No double is closer to `x` than the one it is rounded to. -/
theorem nearest_near (x : ℚ) (hb : OnGrid b) : |nearest x - x| ≤ |b - x| := by
  by_cases coarse : unitExp x ≤ -1074 ∨ 2 ^ (unitExp x + 52) < |b|
  · obtain ⟨n, rfl⟩ := hb.multiple _ coarse
    exact nearest_near_multiple x n
  obtain ⟨hexp, hsmall⟩ := not_or.mp coarse
  by_cases hx : x = 0
  · subst hx
    simp [nearest, halfEven]
  -- `b` is finer than the binade of `x`: the foot of that binade is a multiple of
  -- the unit and stands between the two.
  have foot := binade_units (not_le.mp hexp)
  have hfoot : (2 : ℚ) ^ Int.log 2 |x| ≤ |x| := by
    exact_mod_cast Int.zpow_log_le_self (b := 2) (by norm_num) (abs_pos.mpr hx)
  have hle : |b| ≤ 2 ^ Int.log 2 |x| := by
    have he : unitExp x + 52 = Int.log 2 |x| := by unfold unitExp at hexp ⊢; omega
    rw [← he]
    exact not_lt.mp hsmall
  obtain ⟨lo, hi⟩ := abs_le.mp hle
  rcases le_total 0 x with hs | hs
  · have near := nearest_near_multiple x (2 ^ 52)
    rw [← foot] at near
    rw [abs_of_nonneg hs] at hfoot near lo hi
    rw [abs_of_nonpos (a := b - x) (by linarith)]
    rw [abs_of_nonpos (a := 2 ^ Int.log 2 x - x) (by linarith)] at near
    linarith
  · have near := nearest_near_multiple x (-2 ^ 52)
    rw [Int.cast_neg, neg_mul, ← foot] at near
    rw [abs_of_nonpos hs] at hfoot near lo hi
    rw [abs_of_nonneg (a := b - x) (by linarith)]
    rw [abs_of_nonneg (a := -2 ^ Int.log 2 (-x) - x) (by linarith)] at near
    linarith

/-- Rounding never crosses a double. -/
theorem nearest_le (hb : OnGrid b) (h : x ≤ b) : nearest x ≤ b := by
  by_contra hlt
  have near := nearest_near x hb
  rw [abs_of_nonneg (by linarith), abs_of_nonneg (by linarith)] at near
  linarith

theorem le_nearest (hb : OnGrid b) (h : b ≤ x) : b ≤ nearest x := by
  by_contra hlt
  have near := nearest_near x hb
  rw [abs_of_nonpos (by linarith), abs_of_nonpos (by linarith)] at near
  linarith

theorem nearest_of_onGrid (hx : OnGrid x) : nearest x = x :=
  le_antisymm (nearest_le hx le_rfl) (le_nearest hx le_rfl)

theorem nearest_idem (x : ℚ) : nearest (nearest x) = nearest x :=
  nearest_of_onGrid (nearest_onGrid x)

/-- Above the midpoint of two doubles, rounding leaves the lower one. -/
theorem lt_nearest (hb : OnGrid b) (hab : a < b) (h : a + b < 2 * x) : a < nearest x := by
  by_contra hle
  rcases le_or_gt b x with hx | hx
  · linarith [le_nearest hb hx]
  · have near := nearest_near x hb
    rw [abs_of_nonneg (a := b - x) (by linarith), abs_of_nonpos (by linarith)] at near
    linarith

theorem halfEven_neg (q : ℚ) : halfEven (-q) = -halfEven q := by
  have lo := Int.floor_le q
  have hi := Int.lt_floor_add_one q
  by_cases whole : q = ⌊q⌋
  · have hneg : ⌊-q⌋ = -⌊q⌋ := by
      rw [Int.floor_eq_iff]
      push_cast
      constructor <;> linarith
    have h₁ : -q - ⌊-q⌋ < 1 / 2 := by rw [hneg]; push_cast; linarith
    have h₂ : q - ⌊q⌋ < 1 / 2 := by linarith
    rw [halfEven, halfEven, if_pos h₁, if_pos h₂, hneg]
  · have hlt : (⌊q⌋ : ℚ) < q := lt_of_le_of_ne lo (Ne.symm whole)
    have hneg : ⌊-q⌋ = -⌊q⌋ - 1 := by
      rw [Int.floor_eq_iff]
      push_cast
      constructor <;> linarith
    have hcast : (⌊-q⌋ : ℚ) = -⌊q⌋ - 1 := by rw [hneg]; push_cast; ring
    unfold halfEven
    rw [hcast, hneg]
    split_ifs <;> first | omega | (exfalso; linarith)

theorem nearest_neg (x : ℚ) : nearest (-x) = -nearest x := by
  have hu : ulp (-x) = ulp x := by simp only [ulp, unitExp, abs_neg]
  rw [nearest, nearest, hu, neg_div, halfEven_neg]
  push_cast
  ring

theorem nearest_nonneg (h : 0 ≤ x) : 0 ≤ nearest x :=
  le_nearest ⟨0, 0, by norm_num, by norm_num, by simp⟩ h

theorem nearest_abs (x : ℚ) : nearest |x| = |nearest x| := by
  rcases le_total 0 x with h | h
  · rw [abs_of_nonneg h, abs_of_nonneg (nearest_nonneg h)]
  · have := nearest_nonneg (neg_nonneg.mpr h)
    rw [nearest_neg] at this
    rw [abs_of_nonpos h, nearest_neg, abs_of_nonpos (by linarith)]

theorem OnGrid.normal (h : OnGrid x) : ∃ m e : ℤ, m < 2 ^ 53 ∧ -1074 ≤ e ∧ x = m * 2 ^ e := by
  obtain ⟨m, e, hm, he, rfl⟩ := h
  rcases (abs_le.mp hm).2.lt_or_eq with hlt | rfl
  · exact ⟨m, e, hlt, he, rfl⟩
  refine ⟨2 ^ 52, e + 1, by norm_num, by omega, ?_⟩
  rw [zpow_add₀ (by norm_num)]
  push_cast
  ring

theorem gap_of_units {n : ℤ} (hm : m < 2 ^ 53) (h : (m * 2 ^ g : ℚ) < n * 2 ^ g) :
    (m * 2 ^ g : ℚ) * (1 + 2 ^ (-53 : ℤ)) < n * 2 ^ g := by
  have hg : (0 : ℚ) < 2 ^ g := by positivity
  have hmn : (m : ℚ) + 1 ≤ n := by exact_mod_cast (lt_of_mul_lt_mul_right h hg.le)
  have hm' : (m : ℚ) < 2 ^ 53 := by exact_mod_cast hm
  have hs : (m : ℚ) * (1 + 2 ^ (-53 : ℤ)) < n := by
    norm_num at hm' ⊢
    linarith
  nlinarith

/-- Two doubles with `d` above half of `c` are apart by more than the rounding of
their quotient can hide. -/
theorem half_gap (gc : OnGrid c) (gd : OnGrid d) (h : c < 2 * d) : c * (1 + 2 ^ (-53 : ℤ)) < 2 * d := by
  obtain ⟨m, e, hm, -, rfl⟩ := gc.normal
  obtain ⟨n, f, hn, -, rfl⟩ := gd
  have double : (2 : ℚ) * (n * 2 ^ f) = n * 2 ^ (f + 1) := by
    rw [zpow_add₀ (by norm_num)]
    ring
  rw [double] at h ⊢
  -- Count both in the finer of their two units.
  rcases le_total e (f + 1) with hef | hef
  · rw [scale_down n hef] at h ⊢
    exact gap_of_units hm h
  rw [scale_down m hef] at h ⊢
  refine gap_of_units ?_ h
  have hg : (0 : ℚ) < 2 ^ (f + 1) := by positivity
  have hlt : m * 2 ^ (e - (f + 1)).toNat < n := by
    exact_mod_cast lt_of_mul_lt_mul_right h hg.le
  exact hlt.trans_le (abs_le.mp hn).2

theorem onGrid_int (h : |m| ≤ 2 ^ 53) : OnGrid m := ⟨m, 0, h, by norm_num, by simp⟩

theorem onGrid_half : OnGrid (1 / 2) := ⟨1, -1, by norm_num, by norm_num, by norm_num⟩

/-- The first double after one half. -/
theorem onGrid_half_succ : OnGrid (1 / 2 + 2 ^ (-53 : ℤ)) :=
  ⟨2 ^ 52 + 1, -53, by norm_num, by norm_num, by norm_num⟩

theorem onGrid_fifty_succ : OnGrid (50 + 2 ^ (-47 : ℤ)) :=
  ⟨50 * 2 ^ 47 + 1, -47, by norm_num, by norm_num, by norm_num⟩

theorem percent_le (hc : 0 < c) (h : 2 * d ≤ c) : nearest (nearest (d / c) * 100) ≤ 50 := by
  have hq : nearest (d / c) ≤ 1 / 2 :=
    nearest_le onGrid_half (by rw [div_le_iff₀ hc]; linarith)
  exact nearest_le (b := 50) (onGrid_int (m := 50) (by norm_num)) (by linarith)

theorem percent_gt (hc : 0 < c) (gc : OnGrid c) (gd : OnGrid d) (h : c < 2 * d) :
    50 < nearest (nearest (d / c) * 100) := by
  have hgap := half_gap gc gd h
  have hratio : 1 / 2 + (1 / 2 + 2 ^ (-53 : ℤ)) < 2 * (d / c) := by
    rw [← mul_div_assoc, lt_div_iff₀ hc]
    calc (1 / 2 + (1 / 2 + 2 ^ (-53 : ℤ))) * c = c * (1 + 2 ^ (-53 : ℤ)) := by ring
      _ < 2 * d := hgap
  have hq : 1 / 2 < nearest (d / c) :=
    lt_nearest onGrid_half_succ (by norm_num) hratio
  -- The next double after one half already leads past fifty.
  have hq' := half_gap (c := 1) (by simpa using onGrid_int (m := 1) (by norm_num))
    (nearest_onGrid (d / c)) (by linarith)
  refine lt_nearest onGrid_fifty_succ (by norm_num) ?_
  norm_num at hq' ⊢
  linarith

/-- The difference of two doubles within a factor of two of each other is a double. -/
theorem OnGrid.sub (hx : OnGrid x) (hy : OnGrid y) (h : y ≤ x) (h2 : x ≤ 2 * y) : OnGrid (x - y) := by
  obtain ⟨m, e, hm, he, rfl⟩ := hx
  obtain ⟨n, f, hn, hf, rfl⟩ := hy
  -- Count both in the finer unit; the difference is at most the finer operand.
  rcases le_total e f with hef | hef
  · rw [scale_down n hef] at h h2 ⊢
    have hu : (0 : ℚ) < 2 ^ e := by positivity
    set k := n * 2 ^ (f - e).toNat
    have hk : k ≤ m := by exact_mod_cast le_of_mul_le_mul_right h hu
    have hk2 : m ≤ 2 * k := by
      rw [← mul_assoc] at h2
      exact_mod_cast le_of_mul_le_mul_right h2 hu
    refine ⟨m - k, e, abs_le.mpr ⟨by omega, ?_⟩, he, by push_cast; ring⟩
    have := (abs_le.mp hm).2
    omega
  · rw [scale_down m hef] at h h2 ⊢
    have hu : (0 : ℚ) < 2 ^ f := by positivity
    set k := m * 2 ^ (e - f).toNat
    have hk : n ≤ k := by exact_mod_cast le_of_mul_le_mul_right h hu
    have hk2 : k ≤ 2 * n := by
      rw [← mul_assoc] at h2
      exact_mod_cast le_of_mul_le_mul_right h2 hu
    refine ⟨k - n, f, abs_le.mpr ⟨by omega, ?_⟩, hf, by push_cast; ring⟩
    have := (abs_le.mp hn).2
    omega

/-- A computed difference of at most half means an exact one of at most half, unless
the target lies below half and rounding hides by how much. -/
theorem half_hidden (gc : OnGrid c) (gp : OnGrid p) (hc : 0 < c) (gate : 2 * |nearest (p - c)| ≤ c) :
    2 * |p - c| ≤ c ↔ ¬(2 * p < c ∧ 2 * nearest (c - p) ≤ c) := by
  have flip : nearest (c - p) = -nearest (p - c) := by rw [← nearest_neg, neg_sub]
  obtain ⟨lo, hi⟩ := abs_le.mp (le_of_mul_le_mul_left (a := 2) (by linarith) (by norm_num) :
    |nearest (p - c)| ≤ c / 2)
  constructor
  · rintro h ⟨hp, -⟩
    have := neg_abs_le (p - c)
    linarith
  · intro h
    have hp : c ≤ 2 * p := by
      by_contra hlt
      exact h ⟨by linarith, by linarith⟩
    rcases le_total p c with hle | hle
    · rw [abs_of_nonpos (by linarith)]
      linarith
    rw [abs_of_nonneg (by linarith)]
    rcases le_or_gt p (2 * c) with hnear | hfar
    · rw [nearest_of_onGrid (gp.sub gc hle hnear)] at hi
      linarith
    · have := le_nearest gc (by linarith : c ≤ p - c)
      linarith

end FlowHub.Binary64
