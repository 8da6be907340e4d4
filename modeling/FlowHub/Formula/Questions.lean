import FlowHub.Formula.Sheet

namespace FlowHub.Formula

open Python Demand

namespace Eval

variable {α β : Type} {oracle : Ref → Answer}

/-- What an evaluation comes to, where the cells have the answers of an oracle. -/
def outcome (oracle : Ref → Answer) (x : Eval α) (s : EvalState) : Except Raised α × EvalState :=
  (x s).eval oracle

@[simp] theorem outcome_of (r : Except Raised α) (s : EvalState) : (of r).outcome oracle s = (r, s) := rfl

variable {f : α → Eval β} {x : Eval α} {a : α}

variable {s s' t : EvalState} {r : Except Raised α} {k : Ref}

theorem of_outcome_ok (h : (of r).outcome oracle s = (.ok a, t)) : r = .ok a ∧ s = t := Prod.mk.inj h

theorem outcome_of_ok (h : r = .ok a) (s : EvalState) : (of r).outcome oracle s = (.ok a, s) := by
  rw [outcome_of, h]

theorem outcome_bind (x : Eval α) (f : α → Eval β) (s : EvalState) :
    (x >>= f).outcome oracle s = match x.outcome oracle s with
      | (.ok a, s) => (f a).outcome oracle s
      | (.error e, s) => (.error e, s) := by
  change ((x s).bind _).eval oracle = _
  rw [Prog.eval_bind]
  change _ = match (x s).eval oracle with
    | (.ok a, s) => (f a).outcome oracle s
    | (.error e, s) => (.error e, s)
  cases (x s).eval oracle with
  | mk r t => cases r <;> rfl

theorem outcome_bind_ok (h : x.outcome oracle s = (.ok a, s')) :
    (x >>= f).outcome oracle s = (f a).outcome oracle s' := by
  rw [outcome_bind, h]

theorem bind_outcome_ok (h : (x >>= f).outcome oracle s = (.ok b, s')) :
    ∃ a t, x.outcome oracle s = (.ok a, t) ∧ (f a).outcome oracle t = (.ok b, s') := by
  rw [outcome_bind] at h
  cases hx : x.outcome oracle s with
  | mk r t =>
    rw [hx] at h
    cases r with
    | ok a => exact ⟨a, t, rfl, h⟩
    | error e => cases h

/-- The references that an evaluation asks for. -/
def Asks (oracle : Ref → Answer) (x : Eval α) (s : EvalState) (k : Ref) : Prop := (x s).Asks oracle k

theorem asks_first (h : x.Asks oracle s k) : (x >>= f).Asks oracle s k := Prog.asks_bind.mpr (.inl h)

theorem asks_second
    (hx : x.outcome oracle s = (.ok a, t)) (h : (f a).Asks oracle t k) : (x >>= f).Asks oracle s k := by
  apply Prog.asks_bind.mpr
  right
  rw [show (x s).eval oracle = (.ok a, t) from hx]
  exact h

end Eval

/-- A computation that does not raise a given error. -/
def Avoids {ε α : Type} (bad : ε) (r : Except ε α) : Prop := r ≠ .error bad

namespace Avoids

variable {ε α β : Type} {bad : ε}

theorem ok (a : α) : Avoids bad (.ok a : Except ε α) := nofun

theorem error {e : ε} (h : e ≠ bad) : Avoids bad (.error e : Except ε α) := by
  intro heq
  injection heq with he
  exact h he

variable {r : Except ε α}

theorem bind {f : α → Except ε β} (hr : Avoids bad r) (hf : ∀ a, Avoids bad (f a)) :
    Avoids bad (r >>= f) := by
  cases r with
  | ok a => exact hf a
  | error e => exact error fun he => hr (he ▸ rfl)

theorem map (hr : Avoids bad r) (f : α → β) : Avoids bad (r.map f) := by
  cases r with
  | ok a => exact ok _
  | error e => exact error fun he => hr (he ▸ rfl)

theorem foldlM (hf : ∀ b a, Avoids bad (f b a)) (items : List α) (b : β) : Avoids bad (items.foldlM f b) := by
  induction items generalizing b with
  | nil => exact ok b
  | cons a rest ih =>
    rw [List.foldlM_cons]
    exact (hf b a).bind ih

theorem mapM (hf : ∀ a, Avoids bad (f a)) (items : List α) : Avoids bad (items.mapM f) := by
  induction items with
  | nil => exact ok _
  | cons a rest ih =>
    rw [List.mapM_cons]
    exact (hf a).bind fun _ => ih.bind fun _ => ok _

end Avoids

abbrev Plain {α : Type} (r : Except Raised α) : Prop := Avoids (.failure circularReference) r

/-- An evaluation that passes on what resolving a reference raises, and says `CIRCULAR_REFERENCE` of its
own accord nowhere. -/
def Honest {α : Type} : Prog Ref Answer (Except Raised α × EvalState) → Prop
  | .done (r, _) => Plain r
  | .ask _ next =>
    (∀ f, ∃ s, next (.error f) = .done (.error (.failure f), s)) ∧ ∀ value, Honest (next (.ok value))

section

variable {α β : Type}

theorem plain_formulaError {code : String} (h : code ≠ "CIRCULAR_REFERENCE") :
    Plain (formulaError code : Except Raised α) := by
  apply Avoids.error
  simpa [circularReference] using h

theorem plain_signalled (r : Except Signal α) : Plain (signalled r) := by
  cases r with
  | ok a => exact .ok a
  | error signal => cases signal <;> nofun

theorem plain_intOf (d : Decimal) : Plain (intOf d) := by
  unfold intOf
  split <;> nofun

theorem honest_of {r : Except Raised α} (h : Plain r) (s : EvalState) : Honest (Eval.of r s) := h

theorem honest_bind {x : Eval α} {f : α → Eval β} (hx : ∀ s, Honest (x s))
    (hf : ∀ a s, Honest (f a s)) (s : EvalState) : Honest ((x >>= f) s) := by
  have hprog : ∀ p : Prog Ref Answer (Except Raised α × EvalState), Honest p →
      Honest (p.bind fun
        | (.ok a, s) => f a s
        | (.error e, s) => .done (.error e, s)) := by
    intro p hp
    induction p with
    | done r =>
      obtain ⟨r, t⟩ := r
      cases r with
      | ok a => exact hf a t
      | error e => exact .error fun he => hp (he ▸ rfl)
    | ask k next ih =>
      constructor
      · intro failure
        obtain ⟨t, ht⟩ := hp.1 failure
        refine ⟨t, ?_⟩
        change (next (.error failure)).bind _ = _
        rw [ht]
        rfl
      · intro value
        exact ih _ (hp.2 value)
  exact hprog (x s) (hx s)

theorem honest_pure (a : α) (s : EvalState) : Honest ((pure a : Eval α) s) := .ok a

theorem honest_tick (s : EvalState) : Honest (tick s) := by
  unfold tick
  dsimp only
  split
  · exact plain_formulaError (by decide)
  · exact .ok _

theorem honest_addDependencies (references : List Ref) (s : EvalState) :
    Honest (addDependencies references s) := by
  unfold addDependencies
  dsimp only
  split
  · exact plain_formulaError (by decide)
  · exact .ok _

end

section

variable (u : Unicode)

theorem honest_resolver (reference : Ref) (s : EvalState) : Honest (resolver u reference s) :=
  ⟨fun _ => ⟨s, rfl⟩, fun value => .ok value⟩

theorem honest_resolveAll (references : List Ref) : ∀ s, Honest (resolveAll u references s) := by
  induction references with
  | nil => exact honest_pure []
  | cons reference rest ih =>
    exact honest_bind (honest_resolver u reference) fun _ =>
      honest_bind ih fun _ => honest_pure _

theorem plain_toDecimal (value : Value) : Plain (toDecimal u value) := by
  cases value with
  | text s =>
    simp only [toDecimal]
    split
    · exact .ok _
    · split
      · exact .ok _
      · exact plain_formulaError (by decide)
  | range items => exact plain_formulaError (by decide)
  | _ => exact .ok _

theorem plain_equalValues (left right : Value) : Plain (equalValues left right) := by
  cases left <;> cases right <;> first | exact plain_signalled _ | exact .ok _

theorem plain_literal (c : Constant) : Plain (literal u c) := by
  cases c with
  | float x =>
    simp only [literal]
    split
    · exact .ok _
    · exact .error nofun
  | other => exact plain_formulaError (by decide)
  | _ => exact .ok _

theorem plain_unary (op : UnaryOp) (d : Decimal) : Plain (unary op d) := by
  cases op with
  | uAdd => exact .ok d
  | uSub => exact plain_signalled _

theorem plain_power (left right : Decimal) : Plain (power left right) := by
  apply (plain_intOf right).bind
  intro exponent
  split
  · exact plain_formulaError (by decide)
  · exact plain_signalled _

theorem plain_divide (left right : Decimal) : Plain (divide left right) := by
  apply (plain_signalled _).bind
  intro isZero
  split
  · exact plain_formulaError (by decide)
  · exact plain_signalled _

theorem plain_binary (op : BinaryOp) (left right : Decimal) : Plain (binary op left right) := by
  cases op with
  | div => exact plain_divide left right
  | pow => exact plain_power left right
  | _ => exact plain_signalled _

theorem plain_comparison (op : CompareOp) (left right : Value) : Plain (comparison u op left right) := by
  cases op with
  | eq => exact plain_equalValues left right
  | notEq => exact (plain_equalValues left right).map _
  | other => exact plain_formulaError (by decide)
  | _ => exact (plain_toDecimal u left).bind fun _ => (plain_toDecimal u right).bind fun _ => plain_signalled _

variable (arguments : List Value)

theorem plain_conditional : Plain (conditional arguments) := by
  unfold conditional
  split
  · exact .ok _
  · exact plain_formulaError (by decide)

theorem plain_roundTo (number : Value) (digits : Int) : Plain (roundTo u number digits) := by
  unfold roundTo
  split
  · exact plain_formulaError (by decide)
  · exact (plain_toDecimal u number).bind fun _ => (plain_signalled _).bind fun _ => .ok _

theorem plain_round : Plain (round u arguments) := by
  unfold round
  split
  · exact plain_roundTo u _ _
  · exact (plain_toDecimal u _).bind fun _ => (plain_intOf _).bind fun _ => plain_roundTo u _ _
  · exact plain_formulaError (by decide)

theorem plain_reduce (name : String) (first : Decimal) (rest : List Decimal) :
    Plain (reduce name first rest) := by
  have hextreme : ∀ before, Plain (extreme before first rest) := fun before =>
    .foldlM (fun _ _ => (plain_signalled _).bind fun _ => .ok _) rest first
  unfold reduce
  split
  · exact .foldlM (fun _ _ => plain_signalled _) _ _
  split
  · exact hextreme _
  · split
    · exact hextreme _
    · exact plain_formulaError (by decide)

theorem plain_aggregate (name : String) (arguments : List Value) : Plain (aggregate u name arguments) := by
  apply (Avoids.mapM (plain_toDecimal u) _).bind
  intro values
  cases values with
  | nil => exact plain_formulaError (by decide)
  | cons first rest => exact (plain_reduce name first rest).map _

theorem plain_serialize (value : Value) : Plain (serialize value) := by
  cases value with
  | decimal d => exact (plain_signalled _).bind fun _ => .ok _
  | range items => exact plain_formulaError (by decide)
  | _ => exact .ok _

theorem expandRange_avoids (start stop : String) :
    Avoids "CIRCULAR_REFERENCE" (expandRange u start stop) := by
  have hsplit : ∀ reference, Avoids "CIRCULAR_REFERENCE" (splitReference reference) := by
    intro reference
    simp only [splitReference]
    split
    · exact .error (by decide)
    · exact .ok _
  have hcolumn : ∀ name, Avoids "CIRCULAR_REFERENCE" (columnNumber name) := by
    intro name
    refine .foldlM (fun n c => ?_) name 0
    split
    · exact .ok _
    · exact .error (by decide)
  have hname : ∀ number, Avoids "CIRCULAR_REFERENCE" (columnName number) := by
    intro number
    unfold columnName
    split
    · exact .error (by decide)
    · exact .ok _
  unfold expandRange
  refine (hsplit _).bind fun first => (hsplit _).bind fun last => ?_
  refine (hcolumn _).bind fun startColumn => (hcolumn _).bind fun stopColumn => ?_
  refine (Avoids.mapM (fun place => (hname _).map _) _).bind fun references => ?_
  split
  · exact .error (by decide)
  · exact .ok _

theorem plain_coded {α : Type} {r : Except String α} (h : Avoids "CIRCULAR_REFERENCE" r) :
    Plain (r.mapError fun code => .failure (.formulaError code)) := by
  cases r with
  | ok a => exact .ok a
  | error code => exact plain_formulaError fun hcode => h (hcode ▸ rfl)

theorem honest_cell (s : EvalState) : Honest (cell u arguments s) := by
  unfold cell
  split
  · exact honest_bind (honest_addDependencies _) (fun _ =>
      honest_bind (honest_resolver u _) fun _ => honest_pure _) s
  · exact honest_of (plain_formulaError (by decide)) s

theorem honest_range (s : EvalState) : Honest (range u arguments s) := by
  unfold range
  split
  · exact honest_bind (honest_of (plain_coded (expandRange_avoids u _ _))) (fun _ =>
      honest_bind (honest_addDependencies _) fun _ =>
        honest_bind (honest_resolveAll u _) fun _ => honest_pure _) s
  · exact honest_of (plain_formulaError (by decide)) s

theorem honest_callFunction (name : String) (arguments : List Value) (s : EvalState) :
    Honest (callFunction u name arguments s) := by
  unfold callFunction
  split
  · exact honest_cell u arguments s
  split
  · exact honest_range u arguments s
  split
  · exact honest_of (plain_conditional arguments) s
  split
  · exact honest_of (plain_round u arguments) s
  · exact honest_of (plain_aggregate u name arguments) s

mutual

theorem honest_node (e : Expr) (s : EvalState) : Honest (node u e s) := by
  cases e with
  | constant c =>
    unfold node
    exact honest_bind honest_tick (fun _ => honest_of (plain_literal u c)) s
  | unaryOp op operand =>
    unfold node
    refine honest_bind honest_tick (fun _ => honest_bind (honest_node operand) fun value => ?_) s
    apply honest_of
    exact (plain_toDecimal u value).bind fun d => (plain_unary op d).bind fun _ => .ok _
  | binOp op left right =>
    unfold node
    refine honest_bind honest_tick (fun _ => honest_bind (honest_node left) fun leftValue => ?_) s
    refine honest_bind (honest_of (plain_toDecimal u leftValue)) fun a => ?_
    refine honest_bind (honest_node right) fun rightValue => ?_
    apply honest_of
    exact (plain_toDecimal u rightValue).bind fun b => (plain_binary op a b).bind fun _ => .ok _
  | compare op left right =>
    unfold node
    refine honest_bind honest_tick (fun _ => honest_bind (honest_node left) fun leftValue => ?_) s
    refine honest_bind (honest_node right) fun rightValue => ?_
    exact honest_of ((plain_comparison u op leftValue rightValue).map _)
  | call name args keywords =>
    unfold node
    refine honest_bind honest_tick (fun _ => ?_) s
    split
    · exact honest_of (plain_formulaError (by decide))
    · exact honest_bind (honest_nodes args) fun arguments => honest_callFunction u _ arguments
  | other =>
    unfold node
    exact honest_bind honest_tick (fun _ => honest_of (plain_formulaError (by decide))) s

theorem honest_nodes (args : List Expr) (s : EvalState) : Honest (nodes u args s) := by
  cases args with
  | nil =>
    unfold nodes
    exact honest_pure [] s
  | cons e rest =>
    unfold nodes
    exact honest_bind (honest_node e) (fun _ => honest_bind (honest_nodes rest) fun _ => honest_pure _) s

end

theorem translate_avoids (expression : String) : Avoids "CIRCULAR_REFERENCE" (translate u expression) := by
  simp only [translate]
  split
  · exact .error (by decide)
  · split
    · exact .error (by decide)
    · exact .ok _

theorem honest_formula (parse : String → Option Expr) (expression : String) (s : EvalState) :
    Honest (formula u parse expression s) := by
  have hparsed : Plain (parsed u parse expression) := by
    unfold parsed
    cases htext : translate u expression with
    | error code => exact plain_formulaError fun hcode => translate_avoids u expression (hcode ▸ htext)
    | ok text =>
      dsimp only
      split
      · exact .ok _
      · exact .error nofun
  exact honest_bind (honest_of hparsed) (fun tree =>
    honest_bind (honest_node u tree) fun value => honest_of (plain_serialize value)) s

end

end FlowHub.Formula
