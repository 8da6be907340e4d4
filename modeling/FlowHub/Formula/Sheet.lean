import FlowHub.Formula.Evaluator

namespace FlowHub.Formula

open Python Demand

/-- The cells of a sheet under their references, which are in upper case. -/
structure Sheet (u : Unicode) where
  cells : List (Ref × Option String)
  nodup : (cells.map Prod.fst).Nodup
  canonical : ∀ c ∈ cells, u.upper c.1 = c.1

def circularReference : Failure := .formulaError "CIRCULAR_REFERENCE"

/-- What resolving a reference with a result comes to. -/
def FormulaResult.answer (result : FormulaResult) : Answer :=
  match result.error with
  | some code => .error (.formulaError code)
  | none => .ok result.value

section

variable (u : Unicode)

/-- `str(raw).lstrip().startswith("=")`. -/
def isFormula (raw : String) : Bool := (raw.toList.dropWhile u.isSpace).head? = some '='

end

namespace Sheet

variable {u : Unicode} (sheet : Sheet u)

/-- `values.get(reference)`. -/
def raw (reference : Ref) : Option String := (sheet.cells.lookup reference).join

def references : List Ref := sheet.cells.map Prod.fst

/-- `sorted(values.items())`. -/
def sortedReferences : List Ref := sheet.references.insertionSort (· ≤ ·)

/-- A cell with a formula. -/
def HasFormula (reference : Ref) : Prop := ∃ raw, sheet.raw reference = some raw ∧ isFormula u raw = true

instance (reference : Ref) : Decidable (sheet.HasFormula reference) :=
  match h : sheet.raw reference with
  | none => isFalse (by rintro ⟨raw, hraw, -⟩; rw [h] at hraw; cases hraw)
  | some raw =>
    if hf : isFormula u raw = true then isTrue ⟨raw, h, hf⟩
    else isFalse (by rintro ⟨raw', hraw, hf'⟩; rw [h] at hraw; cases hraw; exact hf hf')

variable (parse : String → Option Expr)

/-- The sheet as cells that ask for each other: a cell without a formula has its text, one with a formula
is evaluated. -/
def system : System Ref Answer (Except Escape FormulaResult) where
  body reference := match sheet.raw reference with
    | none => .inl (.ok none)
    | some raw => if isFormula u raw then .inr (evaluate u parse raw) else .inl (.ok (some raw))
  answer
    | .ok result => result.answer
    | .error e => .error (.escape e)
  circular := .error circularReference

/-- `results`; an exception that nothing catches ends the run, so nothing reads its entry. -/
abbrev Results := System.Memo Ref (Except Escape FormulaResult)

/-- `resolve(reference)` with no cell being visited; a chain of questions is no longer than the sheet. -/
def resolve (results : Results) (reference : Ref) : Option (Answer × Results) :=
  (sheet.system parse).resolve sheet.cells.length [] results (u.upper reference)

/-- `results.setdefault(reference, ...)`. -/
def setDefault (results : Results) (reference : Ref) (code : String) : Results :=
  if (System.Memo.find results reference).isSome then results
  else results ++ [(reference, .ok ⟨none, [], some code⟩)]

/-- One turn of the loop. -/
def visit (reference : Ref) (results : Results) : Option (Except Escape Results) :=
  if sheet.HasFormula reference ∧ System.Memo.find results reference = none then
    match sheet.resolve parse results reference with
    | none => none
    | some (.ok _, results) => some (.ok results)
    | some (.error (.formulaError code), results) => some (.ok (setDefault results reference code))
    | some (.error (.escape e), _) => some (.error e)
  else some (.ok results)

/-- The loop over the cells in an order. -/
def visitAll : List Ref → Results → Option (Except Escape Results)
  | [], results => some (.ok results)
  | reference :: rest, results =>
    match sheet.visit parse reference results with
    | none => none
    | some (.error e) => some (.error e)
    | some (.ok results) => visitAll rest results

def returned (results : Results) : List (Ref × FormulaResult) :=
  results.filterMap fun (reference, result) => result.toOption.map fun result => (reference, result)

/-- `calculate_sheet`, with the cells visited in an order. -/
def calculateIn (order : List Ref) : Option (Except Escape (List (Ref × FormulaResult))) :=
  (sheet.visitAll parse order []).map fun outcome => outcome.map returned

def calculateSheet : Option (Except Escape (List (Ref × FormulaResult))) :=
  sheet.calculateIn parse sheet.sortedReferences

/-- What a cell gets when it is evaluated first in a fresh run. -/
def fresh (reference : Ref) : Option (Except Escape FormulaResult) :=
  (sheet.resolve parse [] reference).bind fun (_, results) => System.Memo.find results reference

end Sheet

end FlowHub.Formula
