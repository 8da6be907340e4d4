import FlowHub.Formula.OrderFree

namespace FlowHub.Formula

open Python Demand List

/-- A computation that ends in an exception which `evaluate` does not catch. -/
def Escapes {α : Type} (r : Except Raised α) : Prop := ∃ e, r = .error (.failure (.escape e))

section

variable {α β : Type}

theorem not_escapes_ok (a : α) : ¬ Escapes (.ok a : Except Raised α) := nofun

theorem not_escapes_formulaError (code : String) : ¬ Escapes (formulaError code : Except Raised α) := nofun

theorem escapes_bind {r : Except Raised α} {f : α → Except Raised β} :
    Escapes (r >>= f) ↔ Escapes r ∨ ∃ a, r = .ok a ∧ Escapes (f a) := by
  cases r with
  | ok a =>
    constructor
    · exact fun h => .inr ⟨a, rfl, h⟩
    rintro (h | ⟨a', ha, h⟩)
    · exact absurd h (not_escapes_ok a)
    · cases ha
      exact h
  | error raised =>
    constructor
    · rintro ⟨e, he⟩
      injection he with he
      exact .inl ⟨e, he ▸ rfl⟩
    · rintro (⟨e, he⟩ | ⟨a, ha, -⟩)
      · exact ⟨e, he ▸ rfl⟩
      · cases ha

theorem escapes_map {r : Except Raised α} {f : α → β} : Escapes (r.map f) ↔ Escapes r := by
  cases r with
  | ok a => exact iff_of_false (not_escapes_ok _) (not_escapes_ok a)
  | error raised =>
    constructor
    · rintro ⟨e, he⟩
      injection he with he
      exact ⟨e, he ▸ rfl⟩
    · rintro ⟨e, he⟩
      exact ⟨e, he ▸ rfl⟩

theorem escapes_signalled : Escapes (signalled r) ↔ r = .error .overflow := by
  cases r with
  | ok a => exact iff_of_false (not_escapes_ok a) nofun
  | error signal =>
    cases signal with
    | invalidOperation => exact iff_of_false nofun nofun
    | overflow => exact iff_of_true ⟨_, rfl⟩ rfl

/-- `int` refuses the decimals that are no numbers. -/
theorem escapes_intOf : Escapes (intOf d) ↔ d.isFinite = false := by
  cases d with
  | finite n c e => exact iff_of_false nofun nofun
  | infinity n => exact iff_of_true ⟨_, rfl⟩ rfl
  | nan s n p => exact iff_of_true ⟨_, rfl⟩ rfl

theorem not_escapes_foldlM (hf : ∀ b a, ¬ Escapes (f b a))
    (items : List α) (b : β) : ¬ Escapes (items.foldlM f b) := by
  induction items generalizing b with
  | nil => exact not_escapes_ok b
  | cons a rest ih =>
    rw [foldlM_cons, escapes_bind]
    rintro (h | ⟨b', -, h⟩)
    · exact hf b a h
    · exact ih b' h

theorem not_escapes_mapM (hf : ∀ a, ¬ Escapes (f a)) (items : List α) : ¬ Escapes (items.mapM f) := by
  induction items with
  | nil => exact not_escapes_ok _
  | cons a rest ih =>
    rw [mapM_cons, escapes_bind]
    rintro (h | ⟨b, -, h⟩)
    · exact hf a h
    · rcases escapes_bind.mp h with h | ⟨bs, -, h⟩
      · exact ih h
      · exact not_escapes_ok _ h

/-- A comparison of decimals does not overflow. -/
theorem not_escapes_compare {a : Decimal} :
    ¬ Escapes (signalled (a.lt b)) ∧ ¬ Escapes (signalled (a.le b)) ∧ ¬ Escapes (signalled (a.eq b)) := by
  refine ⟨?_, ?_, ?_⟩
  · unfold Decimal.lt
    split <;> nofun
  · unfold Decimal.le
    split <;> nofun
  · unfold Decimal.eq
    split
    · nofun
    · split <;> nofun

theorem propagate_overflow : Decimal.propagate operands ≠ some (.error .overflow) := by
  unfold Decimal.propagate
  split
  · simp
  · simp [Option.map_eq_some_iff]

/-- Rounding to places does not overflow. -/
theorem not_escapes_quantize {d : Decimal} {places : Int} : ¬ Escapes (signalled (d.quantize places)) := by
  have hend (negative : Bool) (rounded : Nat) :
      (if Decimal.prec < Decimal.numDigits rounded then .error .invalidOperation
        else .ok (.finite negative rounded (-places)) : Except Signal Decimal) ≠ .error .overflow := by
    split <;> nofun
  rw [escapes_signalled]
  unfold Decimal.quantize
  split
  · rename_i result hresult
    rintro rfl
    exact propagate_overflow hresult
  · exact hend _ _
  · nofun

end

section

variable {u : Unicode}

theorem not_escapes_toDecimal (value : Value) : ¬ Escapes (toDecimal u value) := by
  cases value with
  | text s =>
    simp only [toDecimal]
    split
    · exact not_escapes_ok _
    · split
      · exact not_escapes_ok _
      · exact not_escapes_formulaError _
  | range items => exact not_escapes_formulaError _
  | _ => exact not_escapes_ok _

theorem not_escapes_literal (c : Constant) : ¬ Escapes (literal u c) := by
  cases c with
  | float x =>
    simp only [literal]
    split
    · exact not_escapes_ok _
    · rintro ⟨e, he⟩
      cases he
  | other => exact not_escapes_formulaError _
  | _ => exact not_escapes_ok _

theorem not_escapes_equalValues (a b : Value) : ¬ Escapes (equalValues a b) := by
  cases a <;> cases b <;> first | exact not_escapes_compare.2.2 | exact not_escapes_ok _

theorem not_escapes_ordered {compare : Decimal → Decimal → Except Signal Bool}
    (h : ∀ x y, ¬ Escapes (signalled (compare x y))) (a b : Value) : ¬ Escapes (ordered u compare a b) := by
  unfold ordered
  rw [escapes_bind]
  rintro (ha | ⟨x, -, hx⟩)
  · exact not_escapes_toDecimal a ha
  · rcases escapes_bind.mp hx with hb | ⟨y, -, hy⟩
    · exact not_escapes_toDecimal b hb
    · exact h x y hy

theorem not_escapes_comparison (op : CompareOp) (a b : Value) : ¬ Escapes (comparison u op a b) := by
  cases op with
  | eq => exact not_escapes_equalValues a b
  | notEq =>
    change ¬ Escapes ((equalValues a b).map _)
    rw [escapes_map]
    exact not_escapes_equalValues a b
  | other => exact not_escapes_formulaError _
  | gt => exact not_escapes_ordered (fun _ _ => not_escapes_compare.1) a b
  | lt => exact not_escapes_ordered (fun _ _ => not_escapes_compare.1) a b
  | gtE => exact not_escapes_ordered (fun _ _ => not_escapes_compare.2.1) a b
  | ltE => exact not_escapes_ordered (fun _ _ => not_escapes_compare.2.1) a b

theorem not_escapes_conditional (arguments : List Value) : ¬ Escapes (conditional arguments) := by
  unfold conditional
  split <;> nofun

/-- An arithmetic operation that ends in an exception: an exponent that is no number, or a result beyond
the exponents of the context. -/
def Fatal (op : BinaryOp) (left right : Decimal) : Prop :=
  match op with
  | .add => left.add right = .error .overflow
  | .sub => left.sub right = .error .overflow
  | .mult => left.mul right = .error .overflow
  | .div => right.eq (.ofNat 0) = .ok false ∧ left.div right = .error .overflow
  | .pow => right.isFinite = false ∨ ∃ n : Int, right.toInt = .ok n ∧ right.value = n ∧ n.natAbs ≤ 20 ∧
      left.pow n = .error .overflow

theorem escapes_unary : Escapes (unary op d) ↔ op = .uSub ∧ d.neg = .error .overflow := by
  cases op with
  | uAdd => exact iff_of_false (not_escapes_ok d) nofun
  | uSub => exact escapes_signalled.trans ⟨fun h => ⟨rfl, h⟩, fun h => h.2⟩

theorem escapes_divide : Escapes (divide left right) ↔ Fatal .div left right := by
  unfold divide Fatal
  rw [escapes_bind]
  cases heq : right.eq (.ofNat 0) with
  | error signal =>
    apply iff_of_false
    · rintro (h | ⟨c, hc, -⟩)
      · exact not_escapes_compare.2.2 (heq ▸ h)
      · cases signal <;> cases hc
    · rintro ⟨h, -⟩
      cases h
  | ok isZero =>
    cases isZero with
    | true =>
      apply iff_of_false
      · rintro (⟨_, h⟩ | ⟨c, hc, h⟩)
        · cases h
        · cases hc
          exact not_escapes_formulaError _ h
      · rintro ⟨h, -⟩
        cases h
    | false =>
      constructor
      · rintro (⟨_, h⟩ | ⟨c, hc, h⟩)
        · cases h
        · cases hc
          exact ⟨rfl, escapes_signalled.mp h⟩
      · exact fun h => .inr ⟨false, rfl, escapes_signalled.mpr h.2⟩

theorem escapes_power : Escapes (power left right) ↔ Fatal .pow left right := by
  unfold power Fatal
  rw [escapes_bind, escapes_intOf]
  apply or_congr Iff.rfl
  have hint : ∀ n : Int, intOf right = .ok n ↔ right.toInt = .ok n := by
    cases right <;> simp [intOf, Decimal.toInt, escape]
  constructor
  · rintro ⟨n, hn, h⟩
    split at h
    · exact absurd h (not_escapes_formulaError _)
    · rename_i hlimit
      push Not at hlimit
      exact ⟨n, (hint n).mp hn, hlimit.1, hlimit.2, escapes_signalled.mp h⟩
  · rintro ⟨n, hn, hvalue, hbound, h⟩
    refine ⟨n, (hint n).mpr hn, ?_⟩
    rw [if_neg (by push Not; exact ⟨hvalue, hbound⟩), escapes_signalled]
    exact h

theorem escapes_binary : Escapes (binary op left right) ↔ Fatal op left right := by
  cases op with
  | div => exact escapes_divide
  | pow => exact escapes_power
  | _ => exact escapes_signalled

/-- A call of a function on decimals that ends in an exception: digits of `ROUND` that are no number, or a
sum beyond the exponents of the context. -/
def FatalCall (u : Unicode) (name : String) (arguments : List Value) : Prop :=
  (name = "ROUND" ∧ ∃ number places d, arguments = [number, places] ∧ toDecimal u places = .ok d ∧
    d.isFinite = false) ∨
  (name = "SUM" ∧ ∃ before sum d after, (flatten arguments).mapM (toDecimal u) = .ok (before ++ d :: after) ∧
    total before = .ok sum ∧ sum.add d = .error .overflow)

theorem not_escapes_roundTo (number : Value) (digits : Int) : ¬ Escapes (roundTo u number digits) := by
  unfold roundTo
  split
  · exact not_escapes_formulaError _
  rw [escapes_bind]
  rintro (h | ⟨d, -, h⟩)
  · exact not_escapes_toDecimal number h
  · rcases escapes_bind.mp h with h | ⟨rounded, -, h⟩
    · exact not_escapes_quantize h
    · exact not_escapes_ok _ h

theorem escapes_round : Escapes (round u arguments) ↔ ∃ number places d, arguments = [number, places] ∧
      toDecimal u places = .ok d ∧ d.isFinite = false := by
  unfold round
  split
  · exact iff_of_false (not_escapes_roundTo _ _) (by rintro ⟨_, _, _, h, -⟩; cases h)
  · rename_i number places
    constructor
    · intro h
      rcases escapes_bind.mp h with h | ⟨d, hd, h⟩
      · exact absurd h (not_escapes_toDecimal places)
      · rcases escapes_bind.mp h with h | ⟨digits, -, h⟩
        · exact ⟨number, places, d, rfl, hd, escapes_intOf.mp h⟩
        · exact absurd h (not_escapes_roundTo number digits)
    · rintro ⟨_, _, d, h, hd, hfinite⟩
      cases h
      exact escapes_bind.mpr (.inr ⟨d, hd, escapes_bind.mpr (.inl (escapes_intOf.mpr hfinite))⟩)
  · rename_i hshort hlong
    exact iff_of_false (not_escapes_formulaError _) (by rintro ⟨a, b, _, h, -⟩; exact hlong a b h)

theorem total_append (values : List Decimal) (d : Decimal) :
    total (values ++ [d]) = (total values >>= fun sum => signalled (sum.add d)) := by
  unfold total
  rw [foldlM_append]
  cases values.foldlM (fun sum d => signalled (sum.add d)) Decimal.zero with
  | error e => rfl
  | ok sum => simp

/-- A sum escapes at the first decimal that takes it too far. -/
theorem escapes_total : Escapes (total values) ↔ ∃ before sum d after, values = before ++ d :: after ∧
      total before = .ok sum ∧ sum.add d = .error .overflow := by
  induction values using reverseRecOn with
  | nil =>
    apply iff_of_false (not_escapes_ok _)
    rintro ⟨before, _, d, after, h, -⟩
    simp at h
  | append_singleton values d ih =>
    rw [total_append, escapes_bind, ih]
    constructor
    · rintro (⟨before, sum, d', after, rfl, htotal, h⟩ | ⟨sum, htotal, h⟩)
      · exact ⟨before, sum, d', after ++ [d], by simp, htotal, h⟩
      · exact ⟨values, sum, d, [], rfl, htotal, escapes_signalled.mp h⟩
    · rintro ⟨before, sum, d', after, hsplit, htotal, h⟩
      rcases eq_nil_or_concat after with rfl | ⟨rest, last, rfl⟩
      · obtain ⟨rfl, hlast⟩ := append_inj' hsplit rfl
        cases hlast
        exact .inr ⟨sum, htotal, escapes_signalled.mpr h⟩
      · left
        refine ⟨before, sum, d', rest, ?_, htotal, h⟩
        rw [concat_eq_append, ← cons_append, ← append_assoc] at hsplit
        exact (append_inj' hsplit rfl).1

theorem escapes_aggregate {name : String} : Escapes (aggregate u name arguments) ↔ name = "SUM" ∧
      ∃ before sum d after, (flatten arguments).mapM (toDecimal u) = .ok (before ++ d :: after) ∧
        total before = .ok sum ∧ sum.add d = .error .overflow := by
  have hextreme {before : Decimal → Decimal → Except Signal Bool}
      (hbefore : ∀ x y, ¬ Escapes (signalled (before x y))) (first : Decimal) (rest : List Decimal) :
      ¬ Escapes (extreme before first rest) := by
    apply not_escapes_foldlM
    intro best d
    rw [escapes_bind]
    rintro (h | ⟨better, -, h⟩)
    · exact hbefore d best h
    · exact not_escapes_ok _ h
  unfold aggregate
  rw [escapes_bind]
  constructor
  · rintro (h | ⟨values, hvalues, h⟩)
    · exact absurd h (not_escapes_mapM not_escapes_toDecimal _)
    · cases values with
      | nil => exact absurd h (not_escapes_formulaError _)
      | cons first rest =>
        have h : Escapes (reduce name first rest) := escapes_map.mp h
        unfold reduce at h
        split at h
        · rename_i hname
          obtain ⟨before, sum, d, after, hsplit, htotal, hadd⟩ := escapes_total.mp h
          exact ⟨hname, before, sum, d, after, hsplit ▸ hvalues, htotal, hadd⟩
        · split at h
          · exact absurd h (hextreme (fun _ _ => not_escapes_compare.1) first rest)
          · split at h
            · exact absurd h (hextreme (fun _ _ => not_escapes_compare.1) first rest)
            · exact absurd h (not_escapes_formulaError _)
  · rintro ⟨rfl, before, sum, d, after, hvalues, htotal, hadd⟩
    right
    refine ⟨_, hvalues, ?_⟩
    have hescapes := escapes_total.mpr ⟨before, sum, d, after, rfl, htotal, hadd⟩
    cases hcut : before ++ d :: after with
    | nil => simp at hcut
    | cons first rest =>
      rw [hcut] at hescapes
      exact escapes_map.mpr hescapes

theorem escapes_serialize :
    Escapes (serialize value) ↔ ∃ d, value = .decimal d ∧ d.normalize = .error .overflow := by
  cases value with
  | decimal d =>
    unfold serialize
    rw [escapes_bind, escapes_signalled]
    constructor
    · rintro (h | ⟨normalized, -, h⟩)
      · exact ⟨d, rfl, h⟩
      · exact absurd h (not_escapes_ok _)
    · rintro ⟨_, hvalue, h⟩
      cases hvalue
      exact .inl h
  | range items => exact iff_of_false (not_escapes_formulaError _) (by rintro ⟨_, h, -⟩; cases h)
  | _ => exact iff_of_false (not_escapes_ok _) (by rintro ⟨_, h, -⟩; cases h)

end

section Nodes

variable (u : Unicode) (oracle : Ref → Answer)

mutual

/-- The evaluation of a formula comes to an operation that ends in an exception which nothing catches. -/
inductive Hazard : Expr → EvalState → Prop
  | operand {op : UnaryOp} {operand : Expr} {s t : EvalState} (htick : tick.outcome oracle s = (.ok (), t))
      (h : Hazard operand t) : Hazard (.unaryOp op operand) s
  | negation {operand : Expr} {s t t' : EvalState} {value : Value} {d : Decimal}
      (htick : tick.outcome oracle s = (.ok (), t))
      (hvalue : (node u operand).outcome oracle t = (.ok value, t'))
      (hd : toDecimal u value = .ok d) (h : d.neg = .error .overflow) : Hazard (.unaryOp .uSub operand) s
  | left {op : BinaryOp} {left right : Expr} {s t : EvalState} (htick : tick.outcome oracle s = (.ok (), t))
      (h : Hazard left t) : Hazard (.binOp op left right) s
  | right {op : BinaryOp} {left right : Expr} {s t t' : EvalState} {value : Value} {a : Decimal}
      (htick : tick.outcome oracle s = (.ok (), t))
      (hvalue : (node u left).outcome oracle t = (.ok value, t'))
      (ha : toDecimal u value = .ok a) (h : Hazard right t') : Hazard (.binOp op left right) s
  | operation {op : BinaryOp} {left right : Expr} {s t t' t'' : EvalState} {value value' : Value}
      {a b : Decimal} (htick : tick.outcome oracle s = (.ok (), t))
      (hvalue : (node u left).outcome oracle t = (.ok value, t')) (ha : toDecimal u value = .ok a)
      (hvalue' : (node u right).outcome oracle t' = (.ok value', t'')) (hb : toDecimal u value' = .ok b)
      (h : Fatal op a b) : Hazard (.binOp op left right) s
  | compareLeft {op : CompareOp} {left right : Expr} {s t : EvalState}
      (htick : tick.outcome oracle s = (.ok (), t)) (h : Hazard left t) : Hazard (.compare op left right) s
  | compareRight {op : CompareOp} {left right : Expr} {s t t' : EvalState} {value : Value}
      (htick : tick.outcome oracle s = (.ok (), t))
      (hvalue : (node u left).outcome oracle t = (.ok value, t')) (h : Hazard right t') :
      Hazard (.compare op left right) s
  | argument {name : String} {args : List Expr} {s t : EvalState}
      (htick : tick.outcome oracle s = (.ok (), t)) (hname : u.upper name ∈ allowedFunctions)
      (h : HazardIn args t) : Hazard (.call name args false) s
  | function {name : String} {args : List Expr} {s t t' : EvalState} {arguments : List Value}
      (htick : tick.outcome oracle s = (.ok (), t)) (hname : u.upper name ∈ allowedFunctions)
      (harguments : (nodes u args).outcome oracle t = (.ok arguments, t'))
      (h : FatalCall u (u.upper name) arguments) : Hazard (.call name args false) s

inductive HazardIn : List Expr → EvalState → Prop
  | head {e : Expr} {rest : List Expr} {s : EvalState} (h : Hazard e s) : HazardIn (e :: rest) s
  | tail {e : Expr} {rest : List Expr} {s t : EvalState} {value : Value}
      (hvalue : (node u e).outcome oracle s = (.ok value, t)) (h : HazardIn rest t) :
      HazardIn (e :: rest) s

end

end Nodes

section

variable {α β : Type} {oracle : Ref → Answer}

/-- An evaluation that ends in an exception which nothing catches. -/
def EscapesAt (oracle : Ref → Answer) (x : Eval α) (s : EvalState) : Prop :=
  Escapes (x.outcome oracle s).1

/-- An evaluation asks for a cell that ends in such an exception. -/
def AsksBroken (oracle : Ref → Answer) (x : Eval α) (s : EvalState) : Prop :=
  ∃ k e, x.Asks oracle s k ∧ oracle k = .error (.escape e)

theorem escapesAt_bind : EscapesAt oracle (x >>= f) s ↔ EscapesAt oracle x s ∨
      ∃ a t, x.outcome oracle s = (.ok a, t) ∧ EscapesAt oracle (f a) t := by
  unfold EscapesAt
  rw [Eval.outcome_bind]
  cases x.outcome oracle s with
  | mk r t =>
    cases r with
    | ok a =>
      constructor
      · exact fun h => .inr ⟨a, t, rfl, h⟩
      rintro (⟨_, h⟩ | ⟨a', t', h, hescapes⟩)
      · cases h
      · cases h
        exact hescapes
    | error raised =>
      constructor
      · rintro ⟨e, he⟩
        injection he with he
        exact .inl ⟨e, he ▸ rfl⟩
      · rintro (⟨e, he⟩ | ⟨a, t', h, -⟩)
        · injection he with he
          exact ⟨e, he ▸ rfl⟩
        · cases h

theorem not_escapesAt_of {r : Except Raised α} (h : ¬ Escapes r) : ¬ EscapesAt oracle (.of r) s := h

theorem not_escapesAt_tick : ¬ EscapesAt oracle tick s := by
  unfold EscapesAt Eval.outcome tick
  dsimp only
  split
  · exact not_escapes_formulaError _
  · exact not_escapes_ok _

theorem not_escapesAt_addDependencies {references : List Ref} :
    ¬ EscapesAt oracle (addDependencies references) s := by
  unfold EscapesAt Eval.outcome addDependencies
  dsimp only
  split
  · exact not_escapes_formulaError _
  · exact not_escapes_ok _

theorem asksBroken_first (h : AsksBroken oracle x s) : AsksBroken oracle (x >>= f) s := by
  obtain ⟨k, e, hasks, hk⟩ := h
  exact ⟨k, e, Eval.asks_first hasks, hk⟩

theorem asksBroken_second {s t : EvalState} {a : α}
    (hx : x.outcome oracle s = (.ok a, t)) (h : AsksBroken oracle (f a) t) :
    AsksBroken oracle (x >>= f) s := by
  obtain ⟨k, e, hasks, hk⟩ := h
  exact ⟨k, e, Eval.asks_second hx hasks, hk⟩

end

section

variable {u : Unicode} {oracle : Ref → Answer}

theorem broken_of_resolver
    (h : EscapesAt oracle (resolver u reference) s) : AsksBroken oracle (resolver u reference) s := by
  obtain ⟨e, he⟩ := h
  unfold Eval.outcome resolver at he
  rw [Prog.eval_ask] at he
  cases hk : oracle (u.upper reference) with
  | ok value =>
    rw [hk] at he
    cases he
  | error f =>
    rw [hk] at he
    cases he
    exact ⟨_, e, resolver_asks reference s, hk⟩

theorem broken_of_resolveAll {references : List Ref}
    (h : EscapesAt oracle (resolveAll u references) s) : AsksBroken oracle (resolveAll u references) s := by
  induction references generalizing s with
  | nil => exact absurd h (not_escapesAt_of (not_escapes_ok _))
  | cons reference rest ih =>
    rcases escapesAt_bind.mp h with h | ⟨value, t, hvalue, h⟩
    · exact asksBroken_first (broken_of_resolver h)
    rcases escapesAt_bind.mp h with h | ⟨values, t', -, h⟩
    · exact asksBroken_second hvalue (asksBroken_first (ih h))
    · exact absurd h (not_escapesAt_of (not_escapes_ok _))

theorem broken_of_cell
    (h : EscapesAt oracle (cell u arguments) s) : AsksBroken oracle (cell u arguments) s := by
  unfold cell at h ⊢
  split at h
  · rcases escapesAt_bind.mp h with h | ⟨_, t, hadd, h⟩
    · exact absurd h not_escapesAt_addDependencies
    rcases escapesAt_bind.mp h with h | ⟨value, t', -, h⟩
    · exact asksBroken_second hadd (asksBroken_first (broken_of_resolver h))
    · exact absurd h (not_escapesAt_of (not_escapes_ok _))
  · exact absurd h (not_escapesAt_of (not_escapes_formulaError _))

theorem broken_of_range
    (h : EscapesAt oracle (range u arguments) s) : AsksBroken oracle (range u arguments) s := by
  unfold range at h ⊢
  split at h
  · rename_i start stop
    rcases escapesAt_bind.mp h with h | ⟨references, t, hreferences, h⟩
    · obtain ⟨e, he⟩ := h
      cases hexpand : expandRange u start stop with
      | ok references =>
        rw [hexpand] at he
        cases he
      | error code =>
        rw [hexpand] at he
        cases he
    rcases escapesAt_bind.mp h with h | ⟨_, t', hadd, h⟩
    · exact absurd h not_escapesAt_addDependencies
    rcases escapesAt_bind.mp h with h | ⟨values, t'', -, h⟩
    · exact asksBroken_second hreferences (asksBroken_second hadd (asksBroken_first (broken_of_resolveAll h)))
    · exact absurd h (not_escapesAt_of (not_escapes_ok _))
  · exact absurd h (not_escapesAt_of (not_escapes_formulaError _))

/-- A call ends in such an exception of its own, or asks for a cell that does. -/
theorem escapesAt_callFunction (h : EscapesAt oracle (callFunction u name arguments) s) :
    FatalCall u name arguments ∨ AsksBroken oracle (callFunction u name arguments) s := by
  unfold callFunction at h ⊢
  split
  · rename_i hname
    rw [if_pos hname] at h
    exact .inr (broken_of_cell h)
  rename_i hname
  rw [if_neg hname] at h
  split
  · rename_i hname
    rw [if_pos hname] at h
    exact .inr (broken_of_range h)
  rename_i hname
  rw [if_neg hname] at h
  split at h
  · exact absurd h (not_escapesAt_of (not_escapes_conditional arguments))
  split at h
  · rename_i hround
    exact .inl (.inl ⟨hround, escapes_round.mp h⟩)
  · exact .inl (.inr (escapes_aggregate.mp h))

theorem escapesAt_of_fatalCall
    (h : FatalCall u name arguments) : EscapesAt oracle (callFunction u name arguments) s := by
  rcases h with ⟨rfl, h⟩ | ⟨rfl, h⟩
  · exact escapes_round.mpr h
  · exact escapes_aggregate.mpr ⟨rfl, h⟩

mutual

/-- An evaluation that ends in such an exception has come to it itself, or has asked for a cell that does. -/
theorem escapesAt_node {e : Expr} {s : EvalState} (h : EscapesAt oracle (node u e) s) :
    Hazard u oracle e s ∨ AsksBroken oracle (node u e) s := by
  cases e with
  | constant c =>
    unfold node at h
    rcases escapesAt_bind.mp h with h | ⟨_, t, -, h⟩
    · exact absurd h not_escapesAt_tick
    · exact absurd h (not_escapesAt_of (not_escapes_literal c))
  | other =>
    unfold node at h
    rcases escapesAt_bind.mp h with h | ⟨_, t, -, h⟩
    · exact absurd h not_escapesAt_tick
    · exact absurd h (not_escapesAt_of (not_escapes_formulaError _))
  | unaryOp op operand =>
    unfold node at h ⊢
    rcases escapesAt_bind.mp h with h | ⟨_, t₁, htick, h⟩
    · exact absurd h not_escapesAt_tick
    rcases escapesAt_bind.mp h with h | ⟨value, t₂, hvalue, h⟩
    · rcases escapesAt_node h with h | h
      · exact .inl (.operand htick h)
      · exact .inr (asksBroken_second htick (asksBroken_first h))
    · rcases escapes_bind.mp (show Escapes _ from h) with h | ⟨d, hd, h⟩
      · exact absurd h (not_escapes_toDecimal value)
      rcases escapes_bind.mp h with h | ⟨result, -, h⟩
      · obtain ⟨rfl, hneg⟩ := escapes_unary.mp h
        exact .inl (.negation htick hvalue hd hneg)
      · exact absurd h (not_escapes_ok _)
  | binOp op left right =>
    unfold node at h ⊢
    rcases escapesAt_bind.mp h with h | ⟨_, t₁, htick, h⟩
    · exact absurd h not_escapesAt_tick
    rcases escapesAt_bind.mp h with h | ⟨value, t₂, hvalue, h⟩
    · rcases escapesAt_node h with h | h
      · exact .inl (.left htick h)
      · exact .inr (asksBroken_second htick (asksBroken_first h))
    rcases escapesAt_bind.mp h with h | ⟨a, t₃, ha, h⟩
    · exact absurd h (not_escapesAt_of (not_escapes_toDecimal value))
    obtain ⟨hd, rfl⟩ := Eval.of_outcome_ok ha
    rcases escapesAt_bind.mp h with h | ⟨value', t₄, hvalue', h⟩
    · rcases escapesAt_node h with h | h
      · exact .inl (.right htick hvalue hd h)
      · exact .inr (asksBroken_second htick (asksBroken_second hvalue
          (asksBroken_second ha (asksBroken_first h))))
    · rcases escapes_bind.mp (show Escapes _ from h) with h | ⟨b, hb, h⟩
      · exact absurd h (not_escapes_toDecimal value')
      rcases escapes_bind.mp h with h | ⟨result, -, h⟩
      · exact .inl (.operation htick hvalue hd hvalue' hb (escapes_binary.mp h))
      · exact absurd h (not_escapes_ok _)
  | compare op left right =>
    unfold node at h ⊢
    rcases escapesAt_bind.mp h with h | ⟨_, t₁, htick, h⟩
    · exact absurd h not_escapesAt_tick
    rcases escapesAt_bind.mp h with h | ⟨value, t₂, hvalue, h⟩
    · rcases escapesAt_node h with h | h
      · exact .inl (.compareLeft htick h)
      · exact .inr (asksBroken_second htick (asksBroken_first h))
    rcases escapesAt_bind.mp h with h | ⟨value', t₃, -, h⟩
    · rcases escapesAt_node h with h | h
      · exact .inl (.compareRight htick hvalue h)
      · exact .inr (asksBroken_second htick (asksBroken_second hvalue (asksBroken_first h)))
    · exact absurd (escapes_map.mp (show Escapes _ from h)) (not_escapes_comparison op value value')
  | call name args keywords =>
    unfold node at h ⊢
    rcases escapesAt_bind.mp h with h | ⟨_, t₁, htick, hcall⟩
    · exact absurd h not_escapesAt_tick
    by_cases hrefused : u.upper name ∉ allowedFunctions ∨ keywords = true
    · rw [if_pos hrefused] at hcall
      exact absurd hcall (not_escapesAt_of (not_escapes_formulaError _))
    rw [if_neg hrefused] at hcall ⊢
    push Not at hrefused
    obtain ⟨hname, hkeywords⟩ := hrefused
    rw [ne_eq, Bool.not_eq_true] at hkeywords
    subst hkeywords
    rcases escapesAt_bind.mp hcall with harguments | ⟨arguments, t₂, harguments, hcall⟩
    · rcases escapesAt_nodes harguments with h | h
      · exact .inl (.argument htick hname h)
      · exact .inr (asksBroken_second htick (asksBroken_first h))
    · rcases escapesAt_callFunction hcall with h | h
      · exact .inl (.function htick hname harguments h)
      · exact .inr (asksBroken_second htick (asksBroken_second harguments h))

theorem escapesAt_nodes {args : List Expr} {s : EvalState} (h : EscapesAt oracle (nodes u args) s) :
    HazardIn u oracle args s ∨ AsksBroken oracle (nodes u args) s := by
  cases args with
  | nil =>
    unfold nodes at h
    exact absurd h (not_escapesAt_of (not_escapes_ok _))
  | cons e rest =>
    unfold nodes at h ⊢
    rcases escapesAt_bind.mp h with h | ⟨value, t₁, hvalue, h⟩
    · rcases escapesAt_node h with h | h
      · exact .inl (.head h)
      · exact .inr (asksBroken_first h)
    rcases escapesAt_bind.mp h with h | ⟨values, t₂, -, h⟩
    · rcases escapesAt_nodes h with h | h
      · exact .inl (.tail hvalue h)
      · exact .inr (asksBroken_second hvalue (asksBroken_first h))
    · exact absurd h (not_escapesAt_of (not_escapes_ok _))

end

theorem escapesAt_second {α β : Type} {x : Eval α} {f : α → Eval β} {s t : EvalState} {a : α}
    (hx : x.outcome oracle s = (.ok a, t)) (h : EscapesAt oracle (f a) t) : EscapesAt oracle (x >>= f) s :=
  escapesAt_bind.mpr (.inr ⟨a, t, hx, h⟩)

theorem escapesAt_first {α β : Type} {x : Eval α} {f : α → Eval β} {s : EvalState}
    (h : EscapesAt oracle x s) : EscapesAt oracle (x >>= f) s :=
  escapesAt_bind.mpr (.inl h)

mutual

theorem escapesAt_of_hazard {e : Expr} {s : EvalState} (h : Hazard u oracle e s) :
    EscapesAt oracle (node u e) s := by
  cases h with
  | operand htick h =>
    unfold node
    exact escapesAt_second htick (escapesAt_first (escapesAt_of_hazard h))
  | negation htick hvalue hd h =>
    unfold node
    refine escapesAt_second htick (escapesAt_second hvalue ?_)
    exact escapes_bind.mpr (.inr ⟨_, hd, escapes_bind.mpr (.inl (escapes_unary.mpr ⟨rfl, h⟩))⟩)
  | left htick h =>
    unfold node
    exact escapesAt_second htick (escapesAt_first (escapesAt_of_hazard h))
  | right htick hvalue ha h =>
    unfold node
    refine escapesAt_second htick (escapesAt_second hvalue ?_)
    exact escapesAt_second (Eval.outcome_of_ok ha _) (escapesAt_first (escapesAt_of_hazard h))
  | operation htick hvalue ha hvalue' hb h =>
    unfold node
    refine escapesAt_second htick (escapesAt_second hvalue ?_)
    refine escapesAt_second (Eval.outcome_of_ok ha _) (escapesAt_second hvalue' ?_)
    exact escapes_bind.mpr (.inr ⟨_, hb, escapes_bind.mpr (.inl (escapes_binary.mpr h))⟩)
  | compareLeft htick h =>
    unfold node
    exact escapesAt_second htick (escapesAt_first (escapesAt_of_hazard h))
  | compareRight htick hvalue h =>
    unfold node
    exact escapesAt_second htick (escapesAt_second hvalue (escapesAt_first (escapesAt_of_hazard h)))
  | argument htick hname h =>
    unfold node
    apply escapesAt_second htick
    rw [if_neg (by simp [hname])]
    exact escapesAt_first (escapesAt_of_hazardIn h)
  | function htick hname harguments h =>
    unfold node
    apply escapesAt_second htick
    rw [if_neg (by simp [hname])]
    exact escapesAt_second harguments (escapesAt_of_fatalCall h)

theorem escapesAt_of_hazardIn {args : List Expr} {s : EvalState} (h : HazardIn u oracle args s) :
    EscapesAt oracle (nodes u args) s := by
  cases h with
  | head h =>
    unfold nodes
    exact escapesAt_first (escapesAt_of_hazard h)
  | tail hvalue h =>
    unfold nodes
    exact escapesAt_second hvalue (escapesAt_first (escapesAt_of_hazardIn h))

end

end

namespace Sheet

section

variable {u : Unicode} (sheet : Sheet u) (parse : String → Option Expr)

/-- A cell whose formula comes to an operation that ends in an exception which nothing catches, or to a
decimal beyond the exponents of the context. -/
def Hazardous (k : Ref) : Prop :=
  ∃ raw tree, sheet.raw k = some raw ∧ isFormula u raw = true ∧ parsed u parse raw = .ok tree ∧
    (Hazard u (sheet.system parse).value tree ⟨[], 0⟩ ∨
      ∃ d t, (node u tree).outcome (sheet.system parse).value ⟨[], 0⟩ = (.ok (.decimal d), t) ∧
        d.normalize = .error .overflow)

variable {sheet parse}

theorem not_escapes_parsed (raw : String) : ¬ Escapes (parsed u parse raw) := by
  unfold parsed
  split
  · exact not_escapes_formulaError _
  · split
    · exact not_escapes_ok _
    · nofun

theorem finish_error : finish r = .error e ↔ r.1 = .error (.failure (.escape e)) := by
  unfold finish
  split <;> simp

variable {k : Ref}

/-- A cell ends in such an exception where its formula does. -/
theorem broken_iff {raw : String} (hraw : sheet.raw k = some raw) (hformula : isFormula u raw = true) :
    (∃ e, (sheet.system parse).value k = .error (.escape e)) ↔
      EscapesAt (sheet.system parse).value (formula u parse raw) ⟨[], 0⟩ := by
  have hbody : (sheet.system parse).body k = .inr (evaluate u parse raw) := body_formula hraw hformula
  have hvalue (e : Escape) : (sheet.system parse).value k = .error (.escape e) ↔
      ((formula u parse raw).outcome (sheet.system parse).value ⟨[], 0⟩).1 =
        .error (.failure (.escape e)) := by
    rw [System.value_body _ hbody (body_strict k _ hbody), answer_escape, ← finish_error]
    unfold evaluate
    rw [Prog.eval_bind]
    rfl
  exact exists_congr hvalue

/-- A formula ends in such an exception of its own, or in one of a cell that it asks for. -/
theorem escapesAt_formula {raw : String} (hraw : sheet.raw k = some raw) (hformula : isFormula u raw = true)
    (h : EscapesAt (sheet.system parse).value (formula u parse raw) ⟨[], 0⟩) :
    sheet.Hazardous parse k ∨ AsksBroken (sheet.system parse).value (formula u parse raw) ⟨[], 0⟩ := by
  rcases escapesAt_bind.mp h with h | ⟨tree, t₁, htree, h⟩
  · exact absurd h (not_escapesAt_of (not_escapes_parsed raw))
  obtain ⟨hparsed, rfl⟩ := Eval.of_outcome_ok htree
  rcases escapesAt_bind.mp h with h | ⟨value, t₂, hvalue, h⟩
  · rcases escapesAt_node h with h | h
    · exact .inl ⟨raw, tree, hraw, hformula, hparsed, .inl h⟩
    · exact .inr (asksBroken_second htree (asksBroken_first h))
  · obtain ⟨d, rfl, hd⟩ := escapes_serialize.mp h
    exact .inl ⟨raw, tree, hraw, hformula, hparsed, .inr ⟨d, t₂, hvalue, hd⟩⟩

theorem broken_of_hazardous (h : sheet.Hazardous parse k) :
    ∃ e, (sheet.system parse).value k = .error (.escape e) := by
  obtain ⟨raw, tree, hraw, hformula, htree, h⟩ := h
  apply (broken_iff hraw hformula).mpr
  refine escapesAt_second (Eval.outcome_of_ok htree _) ?_
  rcases h with h | ⟨d, t, hvalue, hd⟩
  · exact escapesAt_first (escapesAt_of_hazard h)
  · exact escapesAt_second hvalue (escapes_serialize.mpr ⟨d, rfl, hd⟩)

/-- Behind a cell that ends in such an exception there is a cell that comes to it itself; by induction on
the depth of its questions. -/
theorem hazardous_of_broken
    (h : (sheet.system parse).value k = .error (.escape e)) : ∃ j, sheet.Hazardous parse j := by
  have hconverges : (sheet.system parse).Converges k := by
    by_contra hdiverges
    rw [System.value_of_diverges _ hdiverges] at h
    cases h
  obtain ⟨n, a, hn⟩ := hconverges
  induction n using Nat.strongRecOn generalizing k e a with
  | ind n ih =>
    cases hbody : (sheet.system parse).body k with
    | inl b =>
      rw [System.value_inl _ hbody] at h
      simp only [system] at hbody
      split at hbody
      · cases hbody
        cases h
      · split at hbody
        · cases hbody
        · cases hbody
          cases h
    | inr p =>
      obtain ⟨raw, hraw, hformula, rfl⟩ := formula_of_body hbody
      rcases escapesAt_formula hraw hformula ((broken_iff hraw hformula).mp ⟨e, h⟩) with
        hazard | ⟨j, e', hasks, hj⟩
      · exact ⟨k, hazard⟩
      · have hcalls : (sheet.system parse).Calls k j := ⟨_, hbody, Prog.asks_bind.mpr (.inl hasks)⟩
        obtain ⟨m, b, hm, hb⟩ := hcalls.lower _ hn
        exact ih m hm hj b hb

end

namespace Sample

/-- A cell with a text that reads as no number is an exponent. -/
def exponentParse (text : String) : Option Expr :=
  if text = "2**CELL(\"B1\")" then
    some (.binOp .pow (.constant (.int 2)) (.call "CELL" [.constant (.str "B1")] false))
  else none

def exponentSheet : Sheet Unicode.ascii where
  cells := [("A1", some "=2^B1"), ("B1", some "NaN")]
  nodup := by decide
  canonical := by decide

end Sample

end Sheet

end FlowHub.Formula
