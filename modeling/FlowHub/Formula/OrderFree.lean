import FlowHub.Formula.Questions

namespace FlowHub.Formula

open Python Demand List Option

section References

variable (u : Unicode)

/-- The references that a call names by a literal. -/
def namedReferences (name : String) : List Expr → List Ref
  | [.constant (.str reference)] => if name = "CELL" then [u.upper (u.upper reference)] else []
  | [.constant (.str start), .constant (.str stop)] =>
    if name = "RANGE" then ((expandRange u start stop).toOption.getD []).map u.upper else []
  | _ => []

mutual

/-- The references that a formula names. -/
def references : Expr → List Ref
  | .constant _ => []
  | .unaryOp _ operand => references operand
  | .binOp _ left right => references left ++ references right
  | .compare _ left right => references left ++ references right
  | .call name args _ => namedReferences u (u.upper name) args ++ referencesOfAll args
  | .other => []

def referencesOfAll : List Expr → List Ref
  | [] => []
  | e :: rest => references e ++ referencesOfAll rest

end

end References

section

end

section

variable {u : Unicode} {oracle : Ref → Answer}

theorem resolver_asks (reference : Ref) (s : EvalState) :
    (resolver u reference).Asks oracle s (u.upper reference) := .here

theorem resolveAll_asks {references : List Ref}
    (h : (resolveAll u references).outcome oracle s = (.ok values, t))
    (hmem : reference ∈ references) : (resolveAll u references).Asks oracle s (u.upper reference) := by
  induction references generalizing s values t with
  | nil => cases hmem
  | cons first rest ih =>
    obtain ⟨value, s₁, hfirst, h⟩ := Eval.bind_outcome_ok h
    obtain ⟨rest', s₂, hrest, -⟩ := Eval.bind_outcome_ok h
    rcases mem_cons.mp hmem with rfl | hmem
    · exact Eval.asks_first (resolver_asks reference s)
    · exact Eval.asks_second hfirst (Eval.asks_first (ih hrest hmem))

theorem constant_outcome
    (h : (node u (.constant (.str s₀))).outcome oracle s = (.ok value, t)) : value = .text s₀ := by
  unfold node at h
  obtain ⟨_, s₁, -, h⟩ := Eval.bind_outcome_ok h
  simpa [literal] using (congrArg Prod.fst h).symm

theorem nodes_cons_outcome {e : Expr} {rest : List Expr} {s t : EvalState} {values : List Value}
    (h : (nodes u (e :: rest)).outcome oracle s = (.ok values, t)) :
    ∃ value values' s', values = value :: values' ∧ (node u e).outcome oracle s = (.ok value, s') ∧
      (nodes u rest).outcome oracle s' = (.ok values', t) := by
  unfold nodes at h
  obtain ⟨value, s₁, hnode, h⟩ := Eval.bind_outcome_ok h
  obtain ⟨values', s₂, hnodes, h⟩ := Eval.bind_outcome_ok h
  cases h
  exact ⟨value, values', s₁, rfl, hnode, hnodes⟩

theorem nodes_nil_outcome (h : (nodes u []).outcome oracle s = (.ok values, t)) : values = [] ∧ t = s := by
  unfold nodes at h
  cases h
  exact ⟨rfl, rfl⟩

theorem namedReferences_asks (hargs : (nodes u args).outcome oracle s = (.ok arguments, t))
    (h : (callFunction u name arguments).outcome oracle t = (.ok value, t'))
    (hk : k ∈ namedReferences u name args) : (callFunction u name arguments).Asks oracle t k := by
  unfold namedReferences at hk
  split at hk
  · obtain ⟨first, rest, s₁, rfl, hfirst, hrest⟩ := nodes_cons_outcome hargs
    obtain ⟨rfl, -⟩ := nodes_nil_outcome hrest
    have htext := constant_outcome hfirst
    subst htext
    split at hk
    · subst_vars
      rw [mem_singleton] at hk
      subst hk
      obtain ⟨_, s₂, hadd, -⟩ := Eval.bind_outcome_ok h
      exact Eval.asks_second hadd (Eval.asks_first (resolver_asks _ _))
    · cases hk
  · rename_i start stop
    obtain ⟨first, rest, s₁, rfl, hfirst, hrest⟩ := nodes_cons_outcome hargs
    obtain ⟨second, rest, s₂, rfl, hsecond, hrest⟩ := nodes_cons_outcome hrest
    obtain ⟨rfl, -⟩ := nodes_nil_outcome hrest
    have hstart := constant_outcome hfirst
    have hstop := constant_outcome hsecond
    subst hstart hstop
    split at hk
    · subst_vars
      obtain ⟨reference, hmem, rfl⟩ := mem_map.mp hk
      obtain ⟨found, s₃, hfound, h⟩ := Eval.bind_outcome_ok h
      obtain ⟨_, s₄, hadd, h⟩ := Eval.bind_outcome_ok h
      obtain ⟨values, s₅, hvalues, -⟩ := Eval.bind_outcome_ok h
      have hreferences : found = (expandRange u start stop).toOption.getD [] := by
        cases hexpand : expandRange u start stop with
        | error code =>
          rw [hexpand] at hfound
          cases hfound
        | ok found' =>
          rw [hexpand] at hfound
          cases hfound
          rfl
      rw [← hreferences] at hmem
      exact Eval.asks_second hfound (Eval.asks_second hadd (Eval.asks_first (resolveAll_asks hvalues hmem)))
    · cases hk
  · cases hk

mutual

/-- A formula that goes through has asked for the references that it names. -/
theorem node_asks {e : Expr} {s t : EvalState} {value : Value}
    (h : (node u e).outcome oracle s = (.ok value, t)) {k : Ref} (hk : k ∈ references u e) :
    (node u e).Asks oracle s k := by
  cases e with
  | constant c => cases hk
  | unaryOp op operand =>
    unfold node at h ⊢
    obtain ⟨_, s₁, htick, h⟩ := Eval.bind_outcome_ok h
    obtain ⟨value', s₂, hoperand, -⟩ := Eval.bind_outcome_ok h
    exact Eval.asks_second htick (Eval.asks_first (node_asks hoperand hk))
  | binOp op left right =>
    unfold node at h ⊢
    obtain ⟨_, s₁, htick, h⟩ := Eval.bind_outcome_ok h
    obtain ⟨leftValue, s₂, hleft, h⟩ := Eval.bind_outcome_ok h
    obtain ⟨a, s₃, ha, h⟩ := Eval.bind_outcome_ok h
    obtain ⟨rightValue, s₄, hright, -⟩ := Eval.bind_outcome_ok h
    apply Eval.asks_second htick
    rcases mem_append.mp hk with hk | hk
    · exact Eval.asks_first (node_asks hleft hk)
    · exact Eval.asks_second hleft (Eval.asks_second ha (Eval.asks_first (node_asks hright hk)))
  | compare op left right =>
    unfold node at h ⊢
    obtain ⟨_, s₁, htick, h⟩ := Eval.bind_outcome_ok h
    obtain ⟨leftValue, s₂, hleft, h⟩ := Eval.bind_outcome_ok h
    obtain ⟨rightValue, s₃, hright, -⟩ := Eval.bind_outcome_ok h
    apply Eval.asks_second htick
    rcases mem_append.mp hk with hk | hk
    · exact Eval.asks_first (node_asks hleft hk)
    · exact Eval.asks_second hleft (Eval.asks_first (node_asks hright hk))
  | call name args keywords =>
    unfold node at h ⊢
    obtain ⟨_, s₁, htick, h⟩ := Eval.bind_outcome_ok h
    apply Eval.asks_second htick
    split at h
    · cases h
    rename_i hallowed
    rw [if_neg hallowed]
    obtain ⟨arguments, s₂, hargs, h⟩ := Eval.bind_outcome_ok h
    rcases mem_append.mp hk with hk | hk
    · exact Eval.asks_second hargs (namedReferences_asks hargs h hk)
    · exact Eval.asks_first (nodes_asks hargs hk)
  | other => cases hk

theorem nodes_asks {args : List Expr} {s t : EvalState} {values : List Value}
    (h : (nodes u args).outcome oracle s = (.ok values, t)) {k : Ref}
    (hk : k ∈ referencesOfAll u args) : (nodes u args).Asks oracle s k := by
  cases args with
  | nil => cases hk
  | cons e rest =>
    obtain ⟨value, values', s₁, -, hnode, hnodes⟩ := nodes_cons_outcome h
    unfold nodes
    rcases mem_append.mp hk with hk | hk
    · exact Eval.asks_first (node_asks hnode hk)
    · exact Eval.asks_second hnode (Eval.asks_first (nodes_asks hnodes hk))

end

end

namespace Sheet

section

variable {u : Unicode} (sheet : Sheet u) (parse : String → Option Expr)

/-- An evaluation as the cell's computation. -/
theorem strict_finish (h : Honest p) : (sheet.system parse).Strict (p.bind fun r => .done (finish r)) := by
  induction p with
  | done r => trivial
  | ask k next ih =>
    constructor
    · obtain ⟨s, hs⟩ := h.1 circularReference
      refine ⟨finish (.error (.failure circularReference), s), ?_, rfl⟩
      change (next (.error circularReference)).bind _ = _
      rw [hs]
      rfl
    · intro a
      cases a with
      | ok value => exact ih _ (h.2 value)
      | error f =>
        obtain ⟨s, hs⟩ := h.1 f
        change (sheet.system parse).Strict ((next (.error f)).bind _)
        rw [hs]
        trivial

theorem finish_failure (f : Failure) (s : EvalState) :
    (sheet.system parse).answer (finish (.error (.failure f), s)) = .error f := by
  cases f <;> rfl

theorem sober_finish (h : Honest p) : (sheet.system parse).Sober (p.bind fun r => .done (finish r)) := by
  induction p with
  | done r =>
    obtain ⟨r, s⟩ := r
    intro hanswer
    cases r with
    | ok value => cases hanswer
    | error e =>
      cases e with
      | calculation =>
        injection hanswer with hcode
        injection hcode with hcode
        revert hcode
        decide
      | failure f =>
        apply h
        change (sheet.system parse).answer (finish (.error (.failure f), s)) = _ at hanswer
        rw [finish_failure] at hanswer
        injection hanswer with hf
        rw [hf]
  | ask k next ih =>
    intro a ha
    cases a with
    | ok value => exact ih _ (h.2 value)
    | error f =>
      obtain ⟨s, hs⟩ := h.1 f
      change (sheet.system parse).Sober ((next (.error f)).bind _)
      rw [hs]
      change (sheet.system parse).answer (finish (.error (.failure f), s)) ≠ _
      rw [finish_failure]
      exact ha

variable {sheet parse}

theorem body_formula {reference : Ref} {raw : String} (hraw : sheet.raw reference = some raw)
    (hformula : isFormula u raw = true) :
    (sheet.system parse).body reference = .inr (evaluate u parse raw) := by
  simp [system, hraw, hformula]

theorem formula_of_body (h : (sheet.system parse).body reference = .inr p) :
    ∃ raw, sheet.raw reference = some raw ∧ isFormula u raw = true ∧ p = evaluate u parse raw := by
  simp only [system] at h
  split at h
  · cases h
  rename_i raw hraw
  split at h
  · rename_i hformula
    cases h
    exact ⟨raw, hraw, hformula, rfl⟩
  · cases h

theorem hasFormula_iff : sheet.HasFormula reference ↔ ∃ p, (sheet.system parse).body reference = .inr p := by
  constructor
  · rintro ⟨raw, hraw, hformula⟩
    exact ⟨_, body_formula hraw hformula⟩
  · rintro ⟨p, hp⟩
    obtain ⟨raw, hraw, hformula, -⟩ := formula_of_body hp
    exact ⟨raw, hraw, hformula⟩

theorem body_strict (reference : Ref) (p : Prog Ref Answer (Except Escape FormulaResult))
    (h : (sheet.system parse).body reference = .inr p) : (sheet.system parse).Strict p := by
  obtain ⟨raw, -, -, rfl⟩ := formula_of_body h
  exact sheet.strict_finish parse (honest_formula u parse raw _)

theorem body_sober (reference : Ref) (p : Prog Ref Answer (Except Escape FormulaResult))
    (h : (sheet.system parse).body reference = .inr p) : (sheet.system parse).Sober p := by
  obtain ⟨raw, -, -, rfl⟩ := formula_of_body h
  exact sheet.sober_finish parse (honest_formula u parse raw _)

theorem raw_mem {raw : String} (h : sheet.raw reference = some raw) : reference ∈ sheet.references := by
  unfold Sheet.raw at h
  cases hlookup : sheet.cells.lookup reference with
  | none =>
    rw [hlookup] at h
    cases h
  | some value =>
    obtain ⟨before, after, hsplit, -⟩ := lookup_eq_some_iff.mp hlookup
    rw [references, hsplit]
    simp

theorem body_mem (reference : Ref) (p : Prog Ref Answer (Except Escape FormulaResult))
    (h : (sheet.system parse).body reference = .inr p) : reference ∈ sheet.references := by
  obtain ⟨raw, hraw, -⟩ := formula_of_body h
  exact raw_mem hraw

theorem upper_reference (h : reference ∈ sheet.references) : u.upper reference = reference := by
  obtain ⟨c, hc, rfl⟩ := mem_map.mp h
  exact sheet.canonical c hc

/-- What a cell is asked for is a failure of the cell itself. -/
theorem failure_of_calls {k j : Ref} {f : Failure} (hcalls : (sheet.system parse).Calls k j)
    (hj : (sheet.system parse).value j = .error f) : (sheet.system parse).value k = .error f := by
  obtain ⟨p, hbody, hasks⟩ := hcalls
  rw [System.value_body _ hbody (body_strict k p hbody)]
  obtain ⟨raw, -, -, rfl⟩ := formula_of_body hbody
  have hhonest := honest_formula u parse raw ⟨[], 0⟩
  unfold evaluate at hasks ⊢
  generalize formula u parse raw ⟨[], 0⟩ = q at hhonest hasks ⊢
  clear hbody
  induction q with
  | done r =>
    rcases Prog.asks_bind.mp hasks with h | h <;> cases h
  | ask i next ih =>
    rw [Prog.bind_ask] at hasks ⊢
    rw [Prog.eval_ask]
    cases hi : (sheet.system parse).value i with
    | ok value =>
      cases hasks with
      | here =>
        rw [hi] at hj
        cases hj
      | there hasks =>
        rw [hi] at hasks
        exact ih _ (hhonest.2 value) hasks
    | error f' =>
      obtain ⟨s, hs⟩ := hhonest.1 f'
      rw [hs, Prog.bind_done, Prog.eval_done, finish_failure]
      cases hasks with
      | here => exact hi ▸ hj
      | there hasks =>
        rw [hi] at hasks
        change ((next (.error f')).bind _).Asks _ j at hasks
        rw [hs] at hasks
        cases hasks

theorem failure_of_path (hpath : Relation.ReflTransGen (sheet.system parse).Calls k j)
    (hj : (sheet.system parse).value j = .error f) : (sheet.system parse).value k = .error f := by
  induction hpath using Relation.ReflTransGen.head_induction_on with
  | refl => exact hj
  | head hcalls _ ih => exact failure_of_calls hcalls ih

/-- Results without an exception that ends the run. -/
def Calm (results : Results) : Prop := ∀ entry ∈ results, ∃ result, entry.2 = .ok result

theorem resolve_known {results : Results} (hknown : (sheet.system parse).Known results) {k : Ref}
    (hk : sheet.HasFormula k) :
    ∃ results', sheet.resolve parse results k = some ((sheet.system parse).value k, results') ∧
      (sheet.system parse).Known results' ∧
      System.Grown results (Relation.ReflTransGen (sheet.system parse).Calls k) results' ∧
      ∃ r, (k, r) ∈ results' := by
  obtain ⟨p, hbody⟩ := hasFormula_iff.mp hk
  have hdepth : (sheet.references.toFinset \ ([] : List Ref).toFinset).card ≤ sheet.cells.length := by
    have hcard := sheet.references.toFinset_card_le
    simpa [references] using hcard
  obtain ⟨results', hanswer, hknown', hgrown, -, hthere⟩ :=
    System.resolve_spec body_strict body_mem sheet.cells.length [] results k hknown trivial
      nofun nofun hdepth
  refine ⟨results', ?_, hknown', hgrown, hthere nofun p hbody⟩
  rw [Sheet.resolve, upper_reference (body_mem k p hbody), hanswer]

theorem find_of_mem {results : Results} {k : Ref} {r : Except Escape FormulaResult}
    (h : (k, r) ∈ results) : ∃ r', System.Memo.find results k = some r' := by
  cases hfind : System.Memo.find results k with
  | none => exact absurd rfl (System.Memo.find_none.mp hfind _ h)
  | some r' => exact ⟨r', rfl⟩

/-- What a cell gets in a fresh run is what its formula comes to under the values of the cells. -/
theorem fresh_eq {k : Ref} {p : Prog Ref Answer (Except Escape FormulaResult)}
    (hbody : (sheet.system parse).body k = .inr p) :
    sheet.fresh parse k = some (p.eval (sheet.system parse).value) := by
  obtain ⟨results, hresolve, hknown, -, r, hr⟩ :=
    @resolve_known u sheet parse [] nofun k (hasFormula_iff.mpr ⟨p, hbody⟩)
  obtain ⟨r', hfind⟩ := find_of_mem hr
  obtain ⟨q, hq, rfl⟩ := hknown.find hfind
  rw [hbody] at hq
  cases hq
  rw [fresh, hresolve]
  exact hfind

theorem value_fresh (h : sheet.fresh parse k = some r)
    (hk : sheet.HasFormula k) : (sheet.system parse).value k = (sheet.system parse).answer r := by
  obtain ⟨p, hbody⟩ : ∃ p, (sheet.system parse).body k = .inr p := hasFormula_iff.mp hk
  rw [fresh_eq hbody] at h
  cases h
  exact System.value_body _ hbody (body_strict k p hbody)

theorem answer_escape : (sheet.system parse).answer r = .error (.escape e) ↔ r = .error e := by
  cases r with
  | error e' => simp [system]
  | ok result =>
    simp only [system, FormulaResult.answer, reduceCtorEq, iff_false]
    split <;> nofun

/-- One turn of the loop leaves results that hold of the cells, or ends with the exception of the cell. -/
theorem visit_spec {results : Results} (hknown : (sheet.system parse).Known results)
    (hcalm : Calm results) (k : Ref) :
    (∃ results', sheet.visit parse k results = some (.ok results') ∧
      (sheet.system parse).Known results' ∧ Calm results' ∧ results <+: results' ∧
      (sheet.HasFormula k → ∃ r, (k, r) ∈ results')) ∨
    ∃ e, sheet.visit parse k results = some (.error e) ∧ sheet.HasFormula k ∧
      sheet.fresh parse k = some (.error e) := by
  by_cases hopen : sheet.HasFormula k ∧ System.Memo.find results k = none
  · have hk := hopen.1
    obtain ⟨p, hbody⟩ : ∃ p, (sheet.system parse).body k = .inr p := hasFormula_iff.mp hk
    obtain ⟨results', hresolve, hknown', hgrown, r, hr⟩ := resolve_known hknown hk
    have hcalm' : (∀ e, (sheet.system parse).value k ≠ .error (.escape e)) → Calm results' := by
      intro hvalue entry hentry
      rcases hgrown.2 entry hentry with hold | hpath
      · exact hcalm entry hold
      cases hresult : entry.2 with
      | ok result => exact ⟨result, rfl⟩
      | error e =>
        obtain ⟨q, hq, heval⟩ := hknown' entry hentry
        have hentryValue := System.value_body _ hq (body_strict _ q hq)
        rw [← heval, hresult] at hentryValue
        exact absurd (failure_of_path hpath hentryValue) (hvalue e)
    unfold visit
    rw [if_pos hopen, hresolve]
    cases hvalue : (sheet.system parse).value k with
    | ok value =>
      exact .inl ⟨results', rfl, hknown', hcalm' (by simp [hvalue]), hgrown.1, fun _ => ⟨r, hr⟩⟩
    | error f =>
      cases f with
      | formulaError code =>
        left
        obtain ⟨r', hfind⟩ := find_of_mem hr
        refine ⟨results', ?_, hknown', hcalm' (by simp [hvalue]), hgrown.1, fun _ => ⟨r, hr⟩⟩
        simp [setDefault, hfind, isSome_some, if_true]
      | escape e =>
        right
        refine ⟨e, rfl, hk, ?_⟩
        rw [fresh_eq hbody]
        rw [System.value_body _ hbody (body_strict k p hbody)] at hvalue
        exact congrArg some (answer_escape.mp hvalue)
  · left
    unfold visit
    rw [if_neg hopen]
    refine ⟨results, rfl, hknown, hcalm, prefix_refl _, ?_⟩
    intro hk
    cases hfind : System.Memo.find results k with
    | none => exact absurd ⟨hk, hfind⟩ hopen
    | some r =>
      obtain ⟨entry, hentry, rfl⟩ := map_eq_some_iff.mp hfind
      have hkey : entry.1 = k := by simpa using find?_some hentry
      exact ⟨entry.2, hkey ▸ mem_of_find?_eq_some hentry⟩

/-- The loop over the cells: what one turn keeps, all turns keep. -/
theorem visitAll_spec (order : List Ref) : ∀ results, (sheet.system parse).Known results → Calm results →
      (∃ results', sheet.visitAll parse order results = some (.ok results') ∧
        (sheet.system parse).Known results' ∧ Calm results' ∧ results <+: results' ∧
        ∀ k ∈ order, sheet.HasFormula k → ∃ r, (k, r) ∈ results') ∨
      ∃ e k, sheet.visitAll parse order results = some (.error e) ∧ sheet.HasFormula k ∧
        sheet.fresh parse k = some (.error e) := by
  induction order with
  | nil => exact fun results hknown hcalm => .inl ⟨results, rfl, hknown, hcalm, prefix_refl _, nofun⟩
  | cons k rest ih =>
    intro results hknown hcalm
    unfold visitAll
    rcases visit_spec hknown hcalm k with ⟨results', hvisit, hknown', hcalm', hprefix, hthere⟩ | hescape
    · rw [hvisit]
      rcases ih results' hknown' hcalm' with
        ⟨results'', hvisitAll, hknown'', hcalm'', hprefix', hall⟩ | hescape
      · refine .inl ⟨results'', hvisitAll, hknown'', hcalm'', hprefix.trans hprefix', ?_⟩
        intro j hj hformula
        rcases mem_cons.mp hj with rfl | hj
        · obtain ⟨r, hr⟩ := hthere hformula
          exact ⟨r, hprefix'.subset hr⟩
        · exact hall j hj hformula
      · exact .inr hescape
    · obtain ⟨e, hvisit, hk, hfresh⟩ := hescape
      rw [hvisit]
      exact .inr ⟨e, k, rfl, hk, hfresh⟩

theorem returned_lookup {results : Results} (hcalm : Calm results) (k : Ref) :
    (returned results).lookup k = (System.Memo.find results k).bind Except.toOption := by
  induction results with
  | nil => rfl
  | cons entry rest ih =>
    obtain ⟨result, hresult⟩ := hcalm entry (mem_cons_self ..)
    obtain ⟨reference, r⟩ := entry
    cases hresult
    have ih := ih fun entry hentry => hcalm entry (mem_cons_of_mem _ hentry)
    change lookup k ((reference, result) :: returned rest) = _
    by_cases hk : reference = k
    · subst hk
      simp [System.Memo.find, Except.toOption]
    · have hkey : (k == reference) = false := by simpa using Ne.symm hk
      rw [lookup_cons, hkey, ih]
      simp [System.Memo.find, hk]

variable (sheet parse)

/-- A formula asks for a cell, where every cell has the answer of a fresh run. -/
def AsksFor : Ref → Ref → Prop := (sheet.system parse).Calls

/-- A formula names a cell or asks for it. -/
def RefersTo (k j : Ref) : Prop :=
  sheet.AsksFor parse k j ∨ ∃ raw tree, sheet.raw k = some raw ∧ isFormula u raw = true ∧
    parsed u parse raw = .ok tree ∧ j ∈ Formula.references u tree

variable {sheet parse}

/-- A cell with a value has asked for the cells that it names, and they have values. -/
theorem asksFor_of_value {k j : Ref} {value : Option String} (hk : (sheet.system parse).value k = .ok value)
    (hrefers : sheet.RefersTo parse k j) :
    sheet.AsksFor parse k j ∧ ∃ value, (sheet.system parse).value j = .ok value := by
  have hasks : sheet.AsksFor parse k j := by
    rcases hrefers with hasks | ⟨raw, tree, hraw, hformula, hparsed, hj⟩
    · exact hasks
    have hbody : (sheet.system parse).body k = .inr (evaluate u parse raw) := body_formula hraw hformula
    refine ⟨_, hbody, Prog.asks_bind.mpr (.inl ?_)⟩
    rw [System.value_body _ hbody (body_strict k _ hbody)] at hk
    unfold evaluate at hk
    rw [Prog.eval_bind] at hk
    change (formula u parse raw).Asks (sheet.system parse).value ⟨[], 0⟩ j
    cases houtcome : (formula u parse raw).outcome (sheet.system parse).value ⟨[], 0⟩ with
    | mk r s =>
      change (sheet.system parse).answer (finish ((formula u parse raw).outcome _ ⟨[], 0⟩)) = _ at hk
      rw [houtcome] at hk
      cases r with
      | error e =>
        rcases e with f | _
        · rw [finish_failure] at hk
          cases hk
        · cases hk
      | ok text =>
        obtain ⟨tree', t, htree, hrest⟩ := Eval.bind_outcome_ok houtcome
        rw [hparsed] at htree
        cases htree
        obtain ⟨value, t', hnode, -⟩ := Eval.bind_outcome_ok hrest
        exact Eval.asks_second (a := tree) (by rw [hparsed]; rfl) (Eval.asks_first (node_asks hnode hj))
  refine ⟨hasks, ?_⟩
  cases hj : (sheet.system parse).value j with
  | ok value => exact ⟨value, rfl⟩
  | error f =>
    rw [failure_of_calls hasks hj] at hk
    cases hk

/-- A cell that asks for a cell that refers back to it has no value. -/
theorem no_value_of_cycle (hasks : sheet.AsksFor parse k j)
    (hback : Relation.ReflTransGen (sheet.RefersTo parse) j k) (value : Option String) :
    (sheet.system parse).value k ≠ .ok value := by
  intro hk
  have hall : ∀ i, Relation.ReflTransGen (sheet.RefersTo parse) j i →
      Relation.ReflTransGen (sheet.AsksFor parse) j i ∧ ∃ value, (sheet.system parse).value i = .ok value := by
    intro i hpath
    induction hpath with
    | refl => exact ⟨.refl, (asksFor_of_value hk (.inl hasks)).2⟩
    | tail _ hrefers ih =>
      obtain ⟨hpath, _, hi⟩ := ih
      obtain ⟨hstep, hvalue⟩ := asksFor_of_value hi hrefers
      exact ⟨hpath.tail hstep, hvalue⟩
  have hcycle : Relation.TransGen (sheet.system parse).Calls k k := .head' hasks (hall k hback).1
  rw [System.value_of_diverges _ (System.diverges_of_cycle _ hcycle)] at hk
  cases hk

/-- A cell that leads into no cycle is not circular. -/
theorem not_circular_of_acyclic (h : ¬ ∃ c, Relation.ReflTransGen (sheet.AsksFor parse) k c ∧
      Relation.TransGen (sheet.AsksFor parse) c c) :
    (sheet.system parse).value k ≠ .error circularReference := by
  have hconverges : (sheet.system parse).Converges k := by
    by_contra hdiverges
    exact h (System.diverges_cycle body_mem hdiverges)
  obtain ⟨n, a, ha⟩ := hconverges
  rw [System.value_of_unfold _ ha]
  apply System.unfold_ne_circular body_sober _ n k a ha
  intro j b hbody
  simp only [system] at hbody
  split at hbody
  · cases hbody
    nofun
  · split at hbody
    · cases hbody
    · cases hbody
      nofun

theorem mem_sortedReferences (hk : sheet.HasFormula k) : k ∈ sheet.sortedReferences := by
  obtain ⟨raw, hraw, -⟩ := hk
  exact (mem_insertionSort _).mpr (raw_mem hraw)

/-- The calculation in an order that has all formulas: the results of fresh runs, or the exception of a
cell. -/
theorem calculateIn_spec (order : List Ref) (hall : ∀ k, sheet.HasFormula k → k ∈ order) :
    (∃ results, sheet.calculateIn parse order = some (.ok results) ∧
      (∀ k, sheet.HasFormula k →
        ∃ result, sheet.fresh parse k = some (.ok result) ∧ results.lookup k = some result) ∧
      ∀ k, ¬ sheet.HasFormula k → results.lookup k = none) ∨
    ∃ e k, sheet.calculateIn parse order = some (.error e) ∧ sheet.HasFormula k ∧
      sheet.fresh parse k = some (.error e) := by
  rcases @visitAll_spec u sheet parse order [] nofun nofun with
    ⟨results, hvisit, hknown, hcalm, -, hthere⟩ | ⟨e, k, hvisit, hk, hfresh⟩
  · left
    refine ⟨returned results, by rw [calculateIn, hvisit]; rfl, ?_, ?_⟩
    · intro k hk
      obtain ⟨r, hr⟩ := hthere k (hall k hk) hk
      obtain ⟨r', hfind⟩ := find_of_mem hr
      obtain ⟨entry, hentry, hsecond⟩ := map_eq_some_iff.mp hfind
      obtain ⟨result, hresult⟩ := hcalm entry (mem_of_find?_eq_some hentry)
      obtain ⟨p, hbody, heval⟩ := hknown.find hfind
      refine ⟨result, ?_, ?_⟩
      · rw [fresh_eq hbody, ← heval, ← hsecond, hresult]
      · rw [returned_lookup hcalm, hfind, ← hsecond, hresult]
        rfl
    · intro k hk
      rw [returned_lookup hcalm]
      cases hfind : System.Memo.find results k with
      | none => rfl
      | some r =>
        obtain ⟨p, hbody, -⟩ := hknown.find hfind
        exact absurd (hasFormula_iff.mpr ⟨p, hbody⟩) hk
  · exact .inr ⟨e, k, by rw [calculateIn, hvisit]; rfl, hk, hfresh⟩

/-- A sheet has the same results in every order of its cells: those of a fresh run for each cell, or an
exception that some cell raises in a fresh run. Cells that lead into no cycle are never circular, and a
cell that asks along a cycle has no value. -/
theorem calculation_order_free (sheet : Sheet u) (parse : String → Option Expr) :
    (∀ k, sheet.HasFormula k → k ∈ sheet.sortedReferences) ∧
    (∀ order, (∀ k, sheet.HasFormula k → k ∈ order) →
      ((∃ results, sheet.calculateIn parse order = some (.ok results) ∧
          (∀ k, sheet.HasFormula k →
            ∃ result, sheet.fresh parse k = some (.ok result) ∧ results.lookup k = some result) ∧
          ∀ k, ¬ sheet.HasFormula k → results.lookup k = none) ∨
        ∃ e k, sheet.calculateIn parse order = some (.error e) ∧ sheet.HasFormula k ∧
          sheet.fresh parse k = some (.error e))) ∧
    (∀ k result, sheet.HasFormula k → sheet.fresh parse k = some (.ok result) →
      (¬ ∃ c, Relation.ReflTransGen (sheet.AsksFor parse) k c ∧ Relation.TransGen (sheet.AsksFor parse) c c) →
      result.error ≠ some "CIRCULAR_REFERENCE") ∧
    ∀ k j result, sheet.HasFormula k → sheet.fresh parse k = some (.ok result) →
      sheet.AsksFor parse k j → Relation.ReflTransGen (sheet.RefersTo parse) j k →
      result.error ≠ none := by
  refine ⟨fun k => mem_sortedReferences, calculateIn_spec, ?_, ?_⟩
  · intro k result hk hfresh hacyclic herror
    apply not_circular_of_acyclic hacyclic
    rw [value_fresh hfresh hk]
    simp [system, FormulaResult.answer, herror, circularReference]
  · intro k j result hk hfresh hasks hback herror
    apply no_value_of_cycle hasks hback result.value
    rw [value_fresh hfresh hk]
    simp [system, FormulaResult.answer, herror]

end

namespace Sample

/-- `ast.parse` on the texts below. -/
def parse (text : String) : Option Expr :=
  if text = "CELL(\"B1\")+1" then
    some (.binOp .add (.call "CELL" [.constant (.str "B1")] false) (.constant (.int 1)))
  else if text = "CELL(\"C1\")" then some (.call "CELL" [.constant (.str "C1")] false)
  else none

def sheet : Sheet Unicode.ascii where
  cells := [("A1", some "=B1+1"), ("B1", some "2.50"), ("C1", some "= c1")]
  nodup := by decide
  canonical := by decide

example : sheet.calculateSheet parse = some (.ok [("A1", ⟨some "3.5", ["B1"], none⟩),
    ("C1", ⟨none, ["C1"], some "CIRCULAR_REFERENCE"⟩)]) := by decide +kernel

/-- The cells of the sample, from the last. -/
theorem visited_backwards :
    (∃ results, sheet.calculateIn parse ["C1", "B1", "A1"] = some (.ok results) ∧
      (∀ k, sheet.HasFormula k →
        ∃ result, sheet.fresh parse k = some (.ok result) ∧ results.lookup k = some result) ∧
      ∀ k, ¬ sheet.HasFormula k → results.lookup k = none) ∨
    ∃ e k, sheet.calculateIn parse ["C1", "B1", "A1"] = some (.error e) ∧ sheet.HasFormula k ∧
      sheet.fresh parse k = some (.error e) := by
  apply (calculation_order_free sheet parse).2.1
  rintro k ⟨raw, hraw, -⟩
  have hmem : k ∈ ["A1", "B1", "C1"] := raw_mem hraw
  simp only [mem_cons, not_mem_nil, or_false] at hmem ⊢
  tauto

end Sample

end Sheet

end FlowHub.Formula
