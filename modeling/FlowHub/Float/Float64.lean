import FlowHub.Float.Binary64

namespace FlowHub

open Binary64

/-- A finite double, as the rational it stands for. The two zeros are one. -/
abbrev FiniteDouble := {x : ℚ // nearest x = x ∧ |x| < 2 ^ 1024}

theorem FiniteDouble.onGrid (x : FiniteDouble) : OnGrid x.val := by
  have := nearest_onGrid x.val
  rwa [x.property.1] at this

/-- IEEE 754 binary64, the arithmetic of the source's `float`. -/
inductive Float64 where
  | finite (x : FiniteDouble)
  | infinite (negative : Bool)
  | nan
  deriving DecidableEq

namespace Float64

def ofRat (x : ℚ) : Float64 :=
  if h : |nearest x| < 2 ^ 1024 then .finite ⟨nearest x, nearest_idem x, h⟩
  else .infinite (decide (x < 0))

def isFinite : Float64 → Bool
  | .finite _ => true
  | _ => false

def abs : Float64 → Float64
  | .finite x => .finite ⟨|x.val|, by rw [nearest_abs, x.property.1], by
      rw [abs_abs]
      exact x.property.2⟩
  | .infinite _ => .infinite false
  | .nan => .nan

def lt : Float64 → Float64 → Bool
  | .finite a, .finite b => decide (a.val < b.val)
  | .infinite s, .finite _ => s
  | .finite _, .infinite t => !t
  | .infinite s, .infinite t => s && !t
  | _, _ => false

/-- `a == b`: nothing equals a NaN. -/
def eq (a b : Float64) : Bool := decide (a ≠ .nan) && decide (a = b)

def sub : Float64 → Float64 → Float64
  | .finite a, .finite b => ofRat (a.val - b.val)
  | .infinite s, .infinite t => if s = t then .nan else .infinite s
  | .infinite s, .finite _ => .infinite s
  | .finite _, .infinite t => .infinite !t
  | _, _ => .nan

def mul : Float64 → Float64 → Float64
  | .finite a, .finite b => ofRat (a.val * b.val)
  | .infinite s, .infinite t => .infinite (s != t)
  | .infinite s, .finite a | .finite a, .infinite s =>
    if a.val = 0 then .nan else .infinite (s != decide (a.val < 0))
  | _, _ => .nan

/-- Division of doubles. By zero it raises, and answers nothing. -/
def div : Float64 → Float64 → Option Float64
  | .finite a, .finite b => if b.val = 0 then none else some (ofRat (a.val / b.val))
  | .infinite s, .finite b => if b.val = 0 then none else some (.infinite (s != decide (b.val < 0)))
  | .nan, .finite b => if b.val = 0 then none else some .nan
  | .finite _, .infinite _ => some (ofRat 0)
  | _, _ => some .nan

/-- A rational that a finite double stands for. -/
def IsDouble (q : ℚ) : Prop := nearest q = q ∧ |q| < 2 ^ 1024

/-- Rounding gives a number back exactly where a double stands for it. -/
theorem ofRat_exact_iff : (∃ b : FiniteDouble, ofRat q = .finite b ∧ b.val = q) ↔ IsDouble q := by
  constructor
  · rintro ⟨b, -, rfl⟩
    exact b.property
  · rintro ⟨hnearest, hlt⟩
    have hfinite : |nearest q| < 2 ^ 1024 := by rwa [hnearest]
    exact ⟨⟨nearest q, nearest_idem q, hfinite⟩, dif_pos hfinite, hnearest⟩

/-- Comparing a rounded magnitude against a double sees through overflow. -/
theorem lt_abs_ofRat (b : FiniteDouble) (x : ℚ) :
    lt (.finite b) (ofRat x).abs = decide (b.val < |nearest x|) := by
  unfold ofRat
  split
  · simp [abs, lt]
  rename_i h
  have hb := (abs_lt.mp b.property.2).2
  have : b.val < |nearest x| := lt_of_lt_of_le hb (not_lt.mp h)
  simp [abs, lt, this, decide_true, Bool.not_false]

theorem ofRat_finite (b : FiniteDouble) (h : |x| ≤ b.val) :
    ∃ hx, ofRat x = .finite ⟨nearest x, nearest_idem x, hx⟩ := by
  have hle : |nearest x| ≤ b.val := by
    rw [← nearest_abs]
    exact nearest_le b.onGrid h
  have hx : |nearest x| < 2 ^ 1024 := hle.trans_lt ((le_abs_self _).trans_lt b.property.2)
  exact ⟨hx, dif_pos hx⟩

/-- The double of a whole number that has one. -/
def ofNat (n : ℕ) (h : n ≤ 2 ^ 53) : Float64 :=
  have habs : |(n : ℤ)| ≤ 2 ^ 53 := by
    rw [Nat.abs_cast]
    exact_mod_cast h
  .finite ⟨n, by simpa using nearest_of_onGrid (onGrid_int habs), by
    have : (|(n : ℤ)| : ℚ) ≤ 2 ^ 53 := by exact_mod_cast habs
    have hn : |(n : ℚ)| ≤ 2 ^ 53 := by simpa using this
    exact hn.trans_lt (pow_lt_pow_right₀ (by norm_num) (by norm_num))⟩

def zero : Float64 := ofNat 0 (by norm_num)

/-- `((proposed - current) / current) * 100`, when nothing is divided by zero. -/
def percentChange (current proposed : Float64) : Option Float64 :=
  ((proposed.sub current).div current).map (·.mul (ofNat 100 (by norm_num)))

theorem sub_finite (hc : 0 ≤ c.val) (hp : 0 ≤ p.val) :
    ∃ d : FiniteDouble, d.val = nearest (p.val - c.val) ∧ (finite p).sub (finite c) = finite d := by
  have bound : ∃ b : FiniteDouble, |p.val - c.val| ≤ b.val := by
    rcases le_total p.val c.val with h | h
    · exact ⟨c, by rw [abs_of_nonpos (by linarith)]; linarith⟩
    · exact ⟨p, by rw [abs_of_nonneg (by linarith)]; linarith⟩
  obtain ⟨b, hb⟩ := bound
  obtain ⟨hd, h⟩ := ofRat_finite b hb
  exact ⟨_, rfl, h⟩

/-- The computed percentage of a double is above fifty exactly when the double is
above half: neither rounding step hides the difference. -/
theorem fifty_lt_percent {c d : FiniteDouble} (hc : 0 < c.val) :
    50 < |nearest (nearest (d.val / c.val) * 100)| ↔ c.val < 2 * |d.val| := by
  have gd : OnGrid |d.val| := by
    have := nearest_onGrid |d.val|
    rwa [nearest_abs, d.property.1] at this
  have shape : |nearest (nearest (d.val / c.val) * 100)| = nearest (nearest (|d.val| / c.val) * 100) := by
    rw [← nearest_abs, abs_mul, ← nearest_abs, abs_div, abs_of_pos hc]
    norm_num
  rw [shape]
  constructor
  · intro h
    by_contra hle
    linarith [percent_le hc (not_lt.mp hle)]
  · exact percent_gt hc c.onGrid gd

theorem overflow_percent (h : ¬|nearest x| < 2 ^ 1024) : 50 < |nearest (nearest x * 100)| := by
  have h51 : (51 : ℚ) ≤ nearest |nearest x * 100| := by
    have big : (51 : ℚ) ≤ |nearest x| := calc
      (51 : ℚ) ≤ 2 ^ 6 := by norm_num
      _ ≤ 2 ^ 1024 := pow_le_pow_right₀ (by norm_num) (by norm_num)
      _ ≤ |nearest x| := not_lt.mp h
    refine le_nearest (by simpa using onGrid_int (m := 51) (by norm_num)) ?_
    rw [abs_mul, show |(100 : ℚ)| = 100 by norm_num]
    linarith only [big]
  rw [nearest_abs] at h51
  linarith only [h51]

theorem lt_abs_mul_hundred : lt (ofNat 50 (by decide)) ((ofRat x).mul (ofNat 100 (by decide))).abs =
      decide (50 < |nearest (nearest x * 100)|) := by
  by_cases h : |nearest x| < 2 ^ 1024
  · have hx : ofRat x = .finite ⟨_, nearest_idem x, h⟩ := dif_pos h
    rw [hx]
    exact lt_abs_ofRat _ _
  · have hx : ofRat x = .infinite (decide (x < 0)) := dif_neg h
    rw [hx, decide_eq_true (overflow_percent h)]
    simp [ofNat, mul, lt, abs]

/-- For positive doubles, a change of more than fifty percent as computed is a
computed difference of more than half. -/
theorem lt_abs_percentChange (hc : 0 < c.val) (hp : 0 < p.val) :
    ∃ pct, percentChange (.finite c) (.finite p) = some pct ∧
      (lt (ofNat 50 (by decide)) pct.abs = true ↔ c.val < 2 * |nearest (p.val - c.val)|) := by
  obtain ⟨d, hd, hsub⟩ := sub_finite hc.le hp.le
  refine ⟨(ofRat (d.val / c.val)).mul (ofNat 100 (by decide)), ?_, ?_⟩
  · simp [percentChange, hsub, div, if_neg hc.ne', Option.map_some]
  · rw [lt_abs_mul_hundred, decide_eq_true_eq, fifty_lt_percent hc, hd]

end Float64

end FlowHub
