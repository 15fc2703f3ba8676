import StructuredText.Call.Binding
import StructuredText.Call.Table

/-!
# Choosing a declaration for a call

Of several declarations of a function, a call means the one that its arguments
match best.  An argument of the very type of the parameter counts two, a number
without a type counts one for the widest type of its category, and any other
argument that may be stored in the parameter counts nothing.
-/

set_option autoImplicit false

namespace StructuredText

/-- How well an argument matches a parameter, if it may be stored there. -/
def matchScore? (parameter argument : DataType) : Option Nat :=
  let best : Option Nat :=
    match argument.resolved with
    | .intLiteral => if parameter.elementary? == some .lint then some 1 else none
    | .realLiteral => if parameter.elementary? == some .lreal then some 1 else none
    | _ =>
        if parameter.elementary?.isSome && parameter.elementary? == argument.elementary? then
          some 2
        else none
  match best with
  | some score => some score
  | none => if parameter.accepts argument then some 0 else none

/-- How well one bound parameter matches, given the types of the arguments. -/
def BoundParameter.score? (types : List (Option DataType)) (bound : BoundParameter) :
    Option Nat :=
  match bound.actual with
  | none => some 0
  | some (.input index _) =>
      (types[index]?.join).bind fun argument => matchScore? bound.parameter.type argument
  | some (.output index _) =>
      (types[index]?.join).bind fun target =>
        if target.accepts bound.parameter.type then some 0 else none

/-- The sum of the scores, if every argument matches. -/
def Binding.score? (types : List (Option DataType)) (binding : Binding) : Option Nat :=
  (binding.parameters.mapM (BoundParameter.score? types)).map (List.foldl (· + ·) 0)

/-- What a call means: a declaration and the number of extensible arguments. -/
structure CallResolution where
  signature : FunctionSignature
  isOverloaded : Bool
  count : Nat

namespace CallResolution

/-- A declaration that takes the arguments, with its score. -/
structure Candidate where
  score : Nat
  signature : FunctionSignature
  count : Nat

/-- The candidate that a declaration is for a call. -/
def candidate? (arguments : List Argument) (types : List (Option DataType))
    (signature : FunctionSignature) : Option Candidate :=
  match Binding.make signature.parameters arguments with
  | .error _ => none
  | .ok binding =>
      (binding.score? types).map fun score => { score, signature, count := binding.count }

/-- The first of the best candidates. -/
def best? (candidates : List Candidate) : Option Candidate :=
  candidates.foldl (fun best candidate =>
    match best with
    | none => some candidate
    | some leader => if leader.score < candidate.score then some candidate else best) none

/-- The first fault in binding the arguments. -/
def bindingFault? (arguments : List Argument) (overloads : List FunctionSignature) :
    Option Fault :=
  overloads.findSome? fun signature =>
    match Binding.make signature.parameters arguments with
    | .error fault => some fault
    | .ok _ => none

/-- What a call of a function means, given its declarations and the types of the
arguments. -/
def resolve (name : Ident) (overloads : List FunctionSignature) (arguments : List Argument)
    (types : List (Option DataType)) : Except Fault CallResolution :=
  let isOverloaded := decide (1 < overloads.length)
  match best? (overloads.filterMap (candidate? arguments types)) with
  | some best => .ok { signature := best.signature, isOverloaded, count := best.count }
  | none =>
      if isOverloaded then .error (.noOverload name)
      else
        match bindingFault? arguments overloads with
        | some fault => .error fault
        | none => .error (.argumentMismatch name)

end CallResolution

end StructuredText
