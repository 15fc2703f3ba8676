import StructuredText.Proofs.Call.Actual
import StructuredText.Proofs.Lowering.Call

/-!
# What arguments supply to a call

Arguments are lowered one by one: what is supplied at the index of an argument comes from
that argument alone.  So the value of a bound parameter is the code of the expression
that is bound to it, and its receiver is the place of the variable that is.
-/

set_option autoImplicit false

namespace StructuredText

/-- The code that an expression is lowered to at a site, at some depth and from some state. -/
def Expr.LowersTo (site : Site) (expr : Expr) (code : Code.Expr) : Prop :=
  ∃ depth before after, expr.lower site depth before = .ok (code, after)

/-- The place that a variable is lowered to at a site, at some depth and from some state. -/
def Variable.LowersTo (site : Site) (source : Variable) (place : Code.Place) : Prop :=
  ∃ depth before after, source.lower site depth before = .ok (place, after)

variable {site : Site}

def Variable.destination (site : Site) (depth : Nat) (target : Variable) : Destination :=
  { place := target.lower site depth, type := site.context.variableType site.scope target }

def Argument.supply (site : Site) (depth : Nat) : Argument → Supply
  | .positional value | .named _ value =>
      { value := some (value.lower site depth), destination := value.destination? site depth }
  | .output _ _ target => { value := none, destination := some (target.destination site depth) }

theorem Argument.supplies_eq_map (depth : Nat) (arguments : List Argument) :
    Argument.supplies site depth arguments = arguments.map (Argument.supply site depth) := by
  induction arguments with
  | nil => rw [Argument.supplies, List.map_nil]
  | cons argument rest ih =>
      cases argument with
      | positional value | named name value | output isNegated source target =>
          rw [Argument.supplies, ih]
          rfl

def Actual.givenVariable? : Actual → Option Variable
  | .input _ (.var source) => some source
  | .input .. => none
  | .output _ target => some target

theorem Expr.destination?_eq (depth : Nat) (index : Nat) (value : Expr) :
    value.destination? site depth =
      (Actual.input index value).givenVariable?.map (Variable.destination site depth) := by
  cases value with
  | var source =>
      rw [Expr.destination?]
      rfl
  | _ => simp [Expr.destination?, Actual.givenVariable?]

namespace BoundParameter

variable {arguments : List Argument} {bound : BoundParameter}

/-- The value that is supplied for an input is the code of the expression bound to it. -/
theorem lowerInput_supplies {index : Nat} {value : Expr} (depth : Nat)
    (isGiven : Binding.IsGiven arguments bound)
    (isActual : bound.actual = some (.input index value)) :
    bound.lowerInput (Argument.supplies site depth arguments) = value.lower site depth := by
  have supplied : (bound.supply? (Argument.supplies site depth arguments)).bind Supply.value =
      some (value.lower site depth) := by
    rw [supply?, isActual, Argument.supplies_eq_map]
    cases isGiven _ isActual with
    | positional given | named given =>
        simp only [List.getElem?_map, given]
        rfl
  unfold lowerInput
  simp only [isActual, supplied]

/-- The destination that is supplied for a parameter is the variable bound to it. -/
theorem destination_supplies {actual : Actual} (depth : Nat)
    (isGiven : Binding.IsGiven arguments bound) (isActual : bound.actual = some actual) :
    (bound.supply? (Argument.supplies site depth arguments)).bind Supply.destination =
      actual.givenVariable?.map (Variable.destination site depth) := by
  rw [supply?, isActual, Argument.supplies_eq_map]
  cases isGiven _ isActual with
  | positional given | named given =>
      simp only [List.getElem?_map, given]
      exact Expr.destination?_eq depth _ _
  | output given =>
      simp only [List.getElem?_map, given]
      rfl

theorem receiver?_supplies (depth : Nat) (isGiven : Binding.IsGiven arguments bound) :
    bound.receiver? (Argument.supplies site depth arguments) =
      bound.target?.map (Variable.destination site depth) := by
  cases isActual : bound.actual with
  | none =>
      cases direction : bound.parameter.direction <;> simp [receiver?, target?, isActual, direction]
  | some actual =>
      have supplied : (bound.supply? (Argument.supplies site depth arguments)).bind
          Supply.destination = actual.givenVariable?.map (Variable.destination site depth) :=
        destination_supplies depth isGiven isActual
      cases direction : bound.parameter.direction with
      | input | external => simp [receiver?, target?, direction]
      | output =>
          cases actual with
          | input index value => simp [receiver?, target?, direction, isActual]
          | output index target =>
              simp only [receiver?, target?, direction, isActual]
              exact supplied
      | inOut =>
          cases actual with
          | output index target =>
              simp only [receiver?, target?, direction, isActual]
              exact supplied
          | input index value =>
              simp only [receiver?, direction, isActual, supplied]
              cases value <;> simp [target?, direction, isActual, Actual.givenVariable?]

end BoundParameter

end StructuredText
