import FlowHub.Formula.Questions

namespace FlowHub.Formula

open Python Demand

/-- A value that is a number already, not a text that reads as one. -/
def Value.isNumber : Value → Bool
  | .decimal _ | .bool _ => true
  | _ => false

section

variable {u : Unicode} {a b : Value} {x y : Decimal}

/-- Numbers are compared as numbers, other values as they stand. -/
theorem equalValues_numbers (ha : toDecimal u a = .ok x) (hb : toDecimal u b = .ok y)
    (hx : x.isFinite = true) (hy : y.isFinite = true) :
    equalValues a b =
      .ok (if a.isNumber && b.isNumber then decide (x.value = y.value) else decide (a = b)) := by
  cases a with
  | range items => cases ha
  | decimal d =>
    cases ha
    cases b with
    | decimal d' =>
      cases hb
      simp [equalValues, signalled, Decimal.eq_finite hx hy, Value.isNumber]
    | bool c =>
      cases hb
      simp [equalValues, Decimal.eq_finite hx hy, signalled, Value.isNumber, Bool.and_self, if_true]
    | range items => cases hb
    | _ => rfl
  | bool c =>
    cases ha
    cases b with
    | decimal d' =>
      cases hb
      simp [equalValues, Decimal.eq_finite hx hy, signalled, Value.isNumber, Bool.and_self, if_true]
    | bool c' =>
      cases hb
      cases c <;> cases c' <;> simp [equalValues, Value.isNumber, Decimal.value, Decimal.ofNat]
    | range items => cases hb
    | _ => rfl
  | text s =>
    cases b with
    | text t =>
      simp [equalValues, Value.isNumber, Bool.and_self, Bool.false_eq_true, if_false,
        Value.text.injEq, beq_eq_decide]
    | range items => cases hb
    | _ => rfl
  | absent =>
    cases b with
    | range items => cases hb
    | _ => rfl

theorem ordered_decimals (compare : Decimal → Decimal → Except Signal Bool)
    (ha : toDecimal u a = .ok x) (hb : toDecimal u b = .ok y) :
    ordered u compare a b = signalled (compare x y) := by
  unfold ordered
  rw [ha, hb]
  rfl

/-- Equal values are equal numbers. -/
theorem value_of_equal (ha : toDecimal u a = .ok x) (hb : toDecimal u b = .ok y) (h : a = b) :
    x.value = y.value := by
  subst h
  rw [ha] at hb
  cases hb
  rfl

end

section

variable {u : Unicode} {oracle : Ref → Answer} {left right : Expr} {s₀ s s₁ s₂ : EvalState} {a b : Value}
  {x y : Decimal}

/-- A comparison of two operands that comes out true. -/
def HoldsIn (u : Unicode) (oracle : Ref → Answer) (s : EvalState) (op : CompareOp) (left right : Expr) :
    Prop :=
  ((node u (.compare op left right)).outcome oracle s).1 = .ok (.bool true)

theorem compare_outcome (htick : tick.outcome oracle s₀ = (.ok (), s))
    (hleft : (node u left).outcome oracle s = (.ok a, s₁))
    (hright : (node u right).outcome oracle s₁ = (.ok b, s₂)) (op : CompareOp) :
    (node u (.compare op left right)).outcome oracle s₀ = ((comparison u op a b).map .bool, s₂) := by
  unfold node
  rw [Eval.outcome_bind_ok htick, Eval.outcome_bind_ok hleft, Eval.outcome_bind_ok hright]
  rfl

theorem holds_iff (htick : tick.outcome oracle s₀ = (.ok (), s))
    (hleft : (node u left).outcome oracle s = (.ok a, s₁))
    (hright : (node u right).outcome oracle s₁ = (.ok b, s₂))
    (h : comparison u op a b = .ok result) : HoldsIn u oracle s₀ op left right ↔ result = true := by
  unfold HoldsIn
  rw [compare_outcome htick hleft hright, h]
  simp [Except.map]

/-- Operands that are finite decimals are ordered as numbers, and equal as numbers or as they stand. -/
theorem holds_numbers (htick : tick.outcome oracle s₀ = (.ok (), s))
    (hleft : (node u left).outcome oracle s = (.ok a, s₁))
    (hright : (node u right).outcome oracle s₁ = (.ok b, s₂))
    (ha : toDecimal u a = .ok x) (hb : toDecimal u b = .ok y)
    (hx : x.isFinite = true) (hy : y.isFinite = true) :
    (HoldsIn u oracle s₀ .lt left right ↔ x.value < y.value) ∧
    (HoldsIn u oracle s₀ .ltE left right ↔ x.value ≤ y.value) ∧
    (HoldsIn u oracle s₀ .gt left right ↔ y.value < x.value) ∧
    (HoldsIn u oracle s₀ .eq left right ↔ if a.isNumber && b.isNumber then x.value = y.value else a = b) ∧
    (HoldsIn u oracle s₀ .notEq left right ↔
      ¬ if a.isNumber && b.isNumber then x.value = y.value else a = b) := by
  have holds (op : CompareOp) {result : Bool} (h : comparison u op a b = .ok result) :
      HoldsIn u oracle s₀ op left right ↔ result = true := holds_iff htick hleft hright h
  have hequal := equalValues_numbers ha hb hx hy
  refine ⟨?_, ?_, ?_, ?_, ?_⟩
  · rw [holds .lt ((ordered_decimals _ ha hb).trans (by rw [Decimal.lt_finite hx hy]; rfl))]
    exact decide_eq_true_iff
  · rw [holds .ltE ((ordered_decimals _ ha hb).trans (by rw [Decimal.le_finite hx hy]; rfl))]
    exact decide_eq_true_iff
  · rw [holds .gt ((ordered_decimals _ ha hb).trans (by rw [Decimal.lt_finite hy hx]; rfl))]
    exact decide_eq_true_iff
  · rw [holds .eq hequal]
    split <;> exact decide_eq_true_iff
  · rw [holds .notEq (congrArg (·.map (!·)) hequal)]
    split <;> simp

/-- For operands that are finite decimals, exactly one of the three comparisons is true, and the others
follow from these, if and only if the two are not one number under two values. -/
theorem comparison_trichotomy (htick : tick.outcome oracle s₀ = (.ok (), s))
    (hleft : (node u left).outcome oracle s = (.ok a, s₁))
    (hright : (node u right).outcome oracle s₁ = (.ok b, s₂))
    (ha : toDecimal u a = .ok x) (hb : toDecimal u b = .ok y)
    (hx : x.isFinite = true) (hy : y.isFinite = true) :
    let holds (op : CompareOp) : Prop := HoldsIn u oracle s₀ op left right
    (((holds .lt ∧ ¬ holds .eq ∧ ¬ holds .gt) ∨ (¬ holds .lt ∧ holds .eq ∧ ¬ holds .gt) ∨
        (¬ holds .lt ∧ ¬ holds .eq ∧ holds .gt)) ∧
      (holds .ltE ↔ holds .lt ∨ holds .eq) ∧ (holds .notEq ↔ ¬ holds .eq)) ↔
    (x.value ≠ y.value ∨ (a.isNumber = true ∧ b.isNumber = true) ∨ a = b) := by
  intro holds
  obtain ⟨hlt, hle, hgt, heq, hne⟩ := holds_numbers htick hleft hright ha hb hx hy
  have hsame := value_of_equal ha hb
  simp only [holds, hlt, hle, hgt, heq, hne, iff_self, and_true]
  cases hnumbers : a.isNumber && b.isNumber with
  | true =>
    have hboth : a.isNumber = true ∧ b.isNumber = true := by simpa using hnumbers
    simp only [hboth, if_true, le_iff_lt_or_eq, iff_self, and_true, and_self, true_or, or_true, iff_true]
    rcases lt_trichotomy x.value y.value with h | h | h
    · exact .inl ⟨h, h.ne, h.not_gt⟩
    · exact .inr (.inl ⟨h.not_lt, h, h.not_gt⟩)
    · exact .inr (.inr ⟨h.not_gt, h.ne', h⟩)
  | false =>
    have hboth : ¬ (a.isNumber = true ∧ b.isNumber = true) := by simpa using hnumbers
    simp only [hboth, false_or, Bool.false_eq_true, if_false]
    rcases lt_trichotomy x.value y.value with h | h | h
    · have hab : a ≠ b := fun hab => h.ne (hsame hab)
      simp [h, h.ne, h.not_gt, h.le, hab]
    · simp [h]
    · have hab : a ≠ b := fun hab => h.ne' (hsame hab)
      simp [h, h.ne', h.not_gt, h.not_ge, hab]

end

namespace Sample

/-- A cell with the text 3. -/
def three : Ref → Answer := fun _ => .ok (some "3")

def threeCell : Expr := .call "CELL" [.constant (.str "A1")] false

/-- A cell with the text 3 is neither below 3 nor equal to it nor above it. -/
theorem cell_against_literal :
    let holds (op : CompareOp) : Prop :=
      HoldsIn Unicode.ascii three ⟨[], 0⟩ op threeCell (.constant (.int 3))
    ¬ (((holds .lt ∧ ¬ holds .eq ∧ ¬ holds .gt) ∨ (¬ holds .lt ∧ holds .eq ∧ ¬ holds .gt) ∨
        (¬ holds .lt ∧ ¬ holds .eq ∧ holds .gt)) ∧
      (holds .ltE ↔ holds .lt ∨ holds .eq) ∧ (holds .notEq ↔ ¬ holds .eq)) := by
  intro holds
  have hlt : ¬ holds .lt := by
    unfold holds HoldsIn
    decide +kernel
  have heq : ¬ holds .eq := by
    unfold holds HoldsIn
    decide +kernel
  have hgt : ¬ holds .gt := by
    unfold holds HoldsIn
    decide +kernel
  tauto

/-- Two literals. -/
theorem literals_compared :
    let holds (op : CompareOp) : Prop :=
      HoldsIn Unicode.ascii three ⟨[], 0⟩ op (.constant (.int 2)) (.constant (.int 3))
    (((holds .lt ∧ ¬ holds .eq ∧ ¬ holds .gt) ∨ (¬ holds .lt ∧ holds .eq ∧ ¬ holds .gt) ∨
        (¬ holds .lt ∧ ¬ holds .eq ∧ holds .gt)) ∧
      (holds .ltE ↔ holds .lt ∨ holds .eq) ∧ (holds .notEq ↔ ¬ holds .eq)) :=
  (@comparison_trichotomy Unicode.ascii three (.constant (.int 2)) (.constant (.int 3)) ⟨[], 0⟩ ⟨[], 1⟩
    ⟨[], 2⟩ ⟨[], 3⟩ (.decimal (.ofNat 2)) (.decimal (.ofNat 3)) (.ofNat 2) (.ofNat 3)
    rfl rfl rfl rfl rfl rfl rfl).mpr (.inr (.inl ⟨rfl, rfl⟩))

end Sample

end FlowHub.Formula
