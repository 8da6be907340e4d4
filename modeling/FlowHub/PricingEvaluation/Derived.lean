import FlowHub.DepthFirst
import FlowHub.PricingEvaluation.Inputs
import FlowHub.Python.Json
import FlowHub.Python.Collections

namespace FlowHub.PricingEvaluation

open Txn Python

inductive DependencyRefKind where
  | observation | manualInput | derived
  deriving DecidableEq

def DependencyRefKind.value : DependencyRefKind → String
  | .observation => "observation"
  | .manualInput => "manual_input"
  | .derived => "derived"

inductive DerivedOperator where
  | addConstant | multiplyPercent | floorToStep | roundUpToStep | minNonzeroSelection
  | multiplyConstant | divideConstant

def DerivedOperator.value : DerivedOperator → String
  | .addConstant => "add_constant"
  | .multiplyPercent => "multiply_percent"
  | .floorToStep => "floor_to_step"
  | .roundUpToStep => "round_up_to_step"
  | .minNonzeroSelection => "min_nonzero_selection"
  | .multiplyConstant => "multiply_constant"
  | .divideConstant => "divide_constant"

structure DependencyRef where
  kind : DependencyRefKind
  key : String
  deriving DecidableEq

/-- A dict whose keys are in the order `sort_keys` gives them. -/
abbrev Parameters := List (String × Json)

structure DefinitionDraft where
  definitionKey : String
  operator : DerivedOperator
  parameters : Parameters
  dependencies : List DependencyRef

def derivedMaxDepth : Nat := 8

variable (drafts : List DefinitionDraft)

/-- `{d.definition_key: d for d in derived_definitions}`: the last of a key stays. -/
def draftByKey (key : String) : Option DefinitionDraft :=
  drafts.reverse.find? fun draft => decide (draft.definitionKey = key)

/-- The keys of that dict, in its order. -/
def draftKeys : List String :=
  (drafts.map DefinitionDraft.definitionKey).eraseDups

def DefinitionDraft.derivedKeys (draft : DefinitionDraft) : List String :=
  (draft.dependencies.filter fun ref => decide (ref.kind = .derived)).map DependencyRef.key

def derivedEdges (key : String) : Option (List String) :=
  (draftByKey drafts key).map DefinitionDraft.derivedKeys

def dagFailure : DepthFirst.Fault → Failure
  | .missing => .derivedValue "derived_dependency_missing"
  | .cycle => .derivedValue "derived_cycle_detected"
  | .tooDeep => .derivedValue "derived_depth_exceeded"

def validateDag : Except Failure Unit :=
  match DepthFirst.checkAll (derivedEdges drafts) derivedMaxDepth (draftKeys drafts) with
  | .ok _ => .ok ()
  | .error fault => .error (dagFailure fault)

/-- What `topological_order` visits below a key: `sorted(draft.dependencies)`, derived ones. -/
def sortedDerivedKeys (key : String) : List String :=
  (((draftByKey drafts key).map DefinitionDraft.derivedKeys).getD []).insertionSort (· ≤ ·)

def topologicalOrder : List String :=
  DepthFirst.order (sortedDerivedKeys drafts) ((draftKeys drafts).insertionSort (· ≤ ·))

def parametersInvalid : Failure := .derivedValue "derived_parameters_invalid"

def requireSingle : List ℚ → Except Failure ℚ
  | [value] => .ok value
  | _ => .error parametersInvalid

def intParam (parameters : Parameters) (key : String) : Except Failure Int :=
  match parameters.lookup key with
  | some (.int value) => .ok value
  | _ => .error parametersInvalid

def evaluateOperator (operator : DerivedOperator) (parameters : Parameters) (values : List ℚ) :
    Except Failure ℚ :=
  match operator with
  | .addConstant => do
    let basis ← requireSingle values
    let addend ← intParam parameters "addend_minor"
    pure (basis + addend)
  | .multiplyPercent => do
    let basis ← requireSingle values
    let percentBp ← intParam parameters "percent_bp"
    pure (basis * ((10000 + percentBp : Int) / 10000))
  | .floorToStep => do
    let value ← requireSingle values
    let step ← intParam parameters "step_minor"
    refuse (decide (step < 1)) parametersInvalid
    let units := value.num / (value.den * step)
    pure ((units * step : Int) : ℚ)
  | .roundUpToStep => do
    let value ← requireSingle values
    let step ← intParam parameters "step_minor"
    refuse (decide (step < 1)) parametersInvalid
    let scaledDenominator := value.den * step
    let units := value.num / scaledDenominator
    let units := if value.num % scaledDenominator ≠ 0 then units + 1 else units
    pure ((units * step : Int) : ℚ)
  | .minNonzeroSelection =>
    match (values.filter fun value => decide (0 < value)).min? with
    | none => .error (.derivedValue "derived_no_eligible_input")
    | some least => .ok least
  | .multiplyConstant => do
    let value ← requireSingle values
    let numerator ← intParam parameters "factor_numerator"
    let denominator ← intParam parameters "factor_denominator"
    refuse (decide (denominator = 0)) parametersInvalid
    pure (value * (numerator / denominator))
  | .divideConstant => do
    let value ← requireSingle values
    let numerator ← intParam parameters "divisor_numerator"
    let denominator ← intParam parameters "divisor_denominator"
    refuse (decide (denominator = 0) || decide (numerator = 0)) parametersInvalid
    pure (value / (numerator / denominator))

end FlowHub.PricingEvaluation
