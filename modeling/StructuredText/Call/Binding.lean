import StructuredText.Call.Signature
import StructuredText.Fault
import StructuredText.Tree.Expr

/-!
# Binding arguments to parameters

Named arguments are bound first; of two for one parameter the later counts.  The
positional arguments then go, in order, to the inputs that are still open, the
implicit ones passed over.  An extensible parameter takes all that are left and
becomes one entry for each position of its group.
-/

set_option autoImplicit false

namespace StructuredText

/-- What a call gives for a parameter: a value, or a place for one.  The index is
that of the argument in the call. -/
inductive Actual where
  | input (index : Nat) (value : Expr)
  | output (index : Nat) (target : Variable)

/-- A parameter with what a call gives for it. -/
structure BoundParameter where
  parameter : Parameter
  /-- The position in the group of an extensible parameter. -/
  position : Option Nat := none
  actual : Option Actual := none

namespace BoundParameter

/-- The name of the parameter in generated code. -/
def cName (bound : BoundParameter) : String :=
  bound.parameter.name.upper ++ (bound.position.map toString).getD ""

/-- True if the call takes a value out of the parameter. -/
def hasDestination (bound : BoundParameter) : Bool :=
  bound.parameter.isOutput &&
    match bound.actual with
    | some (.output ..) => true
    | _ => false

end BoundParameter

structure Binding where
  /-- Every parameter in the order of declaration, extensible ones spread out. -/
  parameters : List BoundParameter
  /-- The number of positions of the extensible parameter. -/
  count : Nat

namespace Binding

/-- True if the call takes a value out of some parameter. -/
def hasDestination (binding : Binding) : Bool :=
  binding.parameters.any BoundParameter.hasDestination

/-- The arguments of a call by the way they are bound; later named ones first. -/
structure Sorted where
  /-- By the index of the parameter. -/
  named : List (Nat × Actual) := []
  /-- By the position in the group of the extensible parameter. -/
  grouped : List (Nat × Actual) := []
  positional : List (Nat × Expr) := []

/-- The input that a name stands for. -/
def inputIndex? (parameters : List Parameter) (name : Ident) : Option Nat :=
  parameters.findIdx? fun parameter =>
    parameter.isInput && !parameter.isExtensible && parameter.name == name

/-- The output that a name stands for. -/
def outputIndex? (parameters : List Parameter) (name : Ident) : Option Nat :=
  parameters.findIdx? fun parameter => parameter.isOutput && parameter.name == name

/-- Sorts in the arguments from one on, given its index. -/
def Sorted.add (parameters : List Parameter) :
    (index : Nat) → Sorted → List Argument → Except Fault Sorted
  | _, sorted, [] => .ok sorted
  | index, sorted, .positional value :: rest =>
      Sorted.add parameters (index + 1)
        { sorted with positional := sorted.positional ++ [(index, value)] } rest
  | index, sorted, .named name value :: rest =>
      match inputIndex? parameters name with
      | some slot =>
          Sorted.add parameters (index + 1)
            { sorted with named := (slot, .input index value) :: sorted.named } rest
      | none =>
          match parameters.findSome? fun parameter => parameter.position? name with
          | some position =>
              Sorted.add parameters (index + 1)
                { sorted with grouped := (position, .input index value) :: sorted.grouped } rest
          | none => .error (.unknownParameter name)
  | index, sorted, .output _ source target :: rest =>
      match outputIndex? parameters source with
      | some slot =>
          Sorted.add parameters (index + 1)
            { sorted with named := (slot, .output index target) :: sorted.named } rest
      | none => .error (.unknownParameter source)

/-- The highest position of a group that is given by name. -/
def highest (grouped : List (Nat × Actual)) : Nat :=
  grouped.foldl (fun most entry => max most entry.1) 0

/-- The group of an extensible parameter: positions given by name, then the
positional arguments.  A position may be left open. -/
def group (parameter : Parameter) (grouped : List (Nat × Actual))
    (positional : List (Nat × Expr)) : List BoundParameter :=
  ((List.range (highest grouped)).map fun index =>
    { parameter, position := some (index + 1), actual := grouped.lookup (index + 1) }) ++
  positional.mapIdx fun offset (index, value) =>
    { parameter, position := some (highest grouped + offset + 1)
      actual := some (.input index value) }

/-- Binds the parameters from one on, given its index, the positional arguments
that are left and the count so far.  Gives back what is left over. -/
def spread (sorted : Sorted) :
    (slot : Nat) → (positional : List (Nat × Expr)) → (count : Nat) → List Parameter →
      List BoundParameter × Nat × List (Nat × Expr)
  | _, positional, count, [] => ([], count, positional)
  | slot, positional, count, parameter :: parameters =>
      if parameter.isExtensible then
        let members := group parameter sorted.grouped positional
        let (rest, count, left) := spread sorted (slot + 1) [] members.length parameters
        (members ++ rest, count, left)
      else
        match sorted.named.lookup slot with
        | some actual =>
            let (rest, count, left) := spread sorted (slot + 1) positional count parameters
            ({ parameter, actual := some actual } :: rest, count, left)
        | none =>
            if !parameter.isImplicit && parameter.isInput then
              match positional with
              | (index, value) :: positional =>
                  let (rest, count, left) := spread sorted (slot + 1) positional count parameters
                  ({ parameter, actual := some (.input index value) } :: rest, count, left)
              | [] =>
                  let (rest, count, left) := spread sorted (slot + 1) [] count parameters
                  ({ parameter } :: rest, count, left)
            else
              let (rest, count, left) := spread sorted (slot + 1) positional count parameters
              ({ parameter } :: rest, count, left)

/-- The place to report an argument that is left over. -/
def leftoverSpan : Expr → Span
  | .var source => source.span
  | _ => {}

/-- Binds the arguments of a call to parameters. -/
def make (parameters : List Parameter) (arguments : List Argument) : Except Fault Binding := do
  let sorted ← Sorted.add parameters 0 {} arguments
  match spread sorted 0 sorted.positional 0 parameters with
  | (_, _, (_, leftover) :: _) => .error (.tooManyArguments (leftoverSpan leftover))
  | (bound, count, []) => .ok { parameters := bound, count }

end Binding

end StructuredText
