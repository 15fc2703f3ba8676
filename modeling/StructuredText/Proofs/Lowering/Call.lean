import StructuredText.Proofs.Call.Binding
import StructuredText.Proofs.Lowering.Limit

/-!
# What stops the lowering of a call

A call is put together from what its arguments supply.  If these stay within the
limits of generated code, so does the call.
-/

set_option autoImplicit false

namespace StructuredText

/-! ## What arguments supply -/

structure Destination.FailsOnly (allowed : Fault → Prop) (destination : Destination) : Prop where
  place : Lower.FailsOnly allowed destination.place
  typed : ∃ type, destination.type = .ok type

structure Supply.FailsOnly (allowed : Fault → Prop) (supply : Supply) : Prop where
  value : ∀ value, supply.value = some value → Lower.FailsOnly allowed value
  destination : ∀ destination, supply.destination = some destination →
    destination.FailsOnly allowed

theorem BoundParameter.mem_of_supply? {bound : BoundParameter} {supplies : List Supply}
    {supply : Supply} (found : bound.supply? supplies = some supply) : supply ∈ supplies := by
  unfold supply? at found
  split at found
  · exact List.mem_of_getElem? found
  · exact List.mem_of_getElem? found
  · cases found

theorem BoundParameter.supplied_of_receiver? {bound : BoundParameter} {supplies : List Supply}
    {receiver : Destination} (found : bound.receiver? supplies = some receiver) :
    (bound.supply? supplies).bind Supply.destination = some receiver := by
  unfold receiver? at found
  split at found
  · exact found
  · exact found
  · cases found

theorem BoundParameter.lowerDestination_eq_ok {bound : BoundParameter} {supplies : List Supply}
    {destination : Option Destination} {state after : LoweringState}
    (run : bound.lowerDestination supplies state = .ok (destination, after)) :
    (destination = none ∧ bound.actual = none) ∨
      ∃ given found, bound.actual = some given ∧ destination = some found ∧
        (bound.supply? supplies).bind Supply.destination = some found := by
  unfold lowerDestination at run
  cases actual : bound.actual with
  | none =>
      rw [actual] at run
      cases run
      exact .inl ⟨rfl, rfl⟩
  | some given =>
      rw [actual] at run
      dsimp only at run
      cases found : (bound.supply? supplies).bind Supply.destination with
      | none =>
          rw [found] at run
          cases run
      | some target =>
          rw [found] at run
          cases run
          exact .inr ⟨given, target, rfl, rfl, rfl⟩

section Call

variable {decls : List TypeDecl} {supplies : List Supply} {arguments : List Argument}
  (suppliesFail : ∀ supply ∈ supplies, supply.FailsOnly (Fault.IsLimit decls))

theorem Parameter.defaultValue_failsOnly {parameter : Parameter}
    (declared : parameter.type.IsDeclaredIn decls) :
    FailsOnly (Fault.IsLimit decls) parameter.defaultValue := by
  unfold Parameter.defaultValue
  split
  · exact Code.Literal.constant_failsOnly _
  · exact Code.Literal.initial_failsOnly declared

theorem BoundParameter.lowerDestination_failsOnly (bound : BoundParameter) :
    Lower.FailsOnly (Fault.IsLimit decls) (bound.lowerDestination supplies) := by
  unfold lowerDestination
  split
  · exact Lower.failsOnly_pure _
  · split
    · exact Lower.failsOnly_pure _
    · exact Lower.failsOnly_throw (.unexpectedNode _)

include suppliesFail

/-- Only an input that is left open takes the initial value of its type. -/
theorem BoundParameter.lowerInput_failsOnly {bound : BoundParameter}
    (declared : bound.actual = none → bound.parameter.type.IsDeclaredIn decls) :
    Lower.FailsOnly (Fault.IsLimit decls) (bound.lowerInput supplies) := by
  unfold lowerInput
  split
  · next isOpen =>
      refine Lower.failsOnly_bind ?_ fun _ => Lower.failsOnly_pure _
      exact Lower.failsOnly_lift (Parameter.defaultValue_failsOnly (declared isOpen))
  · split
    · next value found =>
        obtain ⟨supply, isSupply, found⟩ := Option.bind_eq_some_iff.mp found
        exact (suppliesFail supply (mem_of_supply? isSupply)).value value found
    · exact Lower.failsOnly_throw (.unexpectedNode _)

theorem BoundParameter.lowerDestination_ok {bound : BoundParameter} {destination : Destination}
    {state after : LoweringState}
    (run : bound.lowerDestination supplies state = .ok (some destination, after)) :
    destination.FailsOnly (Fault.IsLimit decls) := by
  rcases lowerDestination_eq_ok run with ⟨isNone, -⟩ | ⟨given, target, -, isTarget, found⟩
  · cases isNone
  · cases isTarget
    obtain ⟨supply, isSupply, found⟩ := Option.bind_eq_some_iff.mp found
    exact (suppliesFail supply (mem_of_supply? isSupply)).destination _ found

omit suppliesFail

theorem CallParts.addDestination_failsOnly {parts : CallParts} {bound : BoundParameter}
    {destination : Destination} (declared : bound.parameter.type.IsDeclaredIn decls)
    (fails : destination.FailsOnly (Fault.IsLimit decls)) :
    Lower.FailsOnly (Fault.IsLimit decls) (parts.addDestination arguments bound destination) := by
  obtain ⟨type, typed⟩ := fails.typed
  unfold addDestination
  simp only [typed, Lower.lift_ok_bind, pure_bind]
  split
  · refine Lower.failsOnly_bind fails.place fun _ => ?_
    exact Lower.failsOnly_bind fails.place fun _ => Lower.failsOnly_pure _
  · refine Lower.failsOnly_bind ?_ fun _ => ?_
    · exact Lower.failsOnly_lift (Code.Literal.initial_failsOnly declared)
    · exact Lower.failsOnly_bind fails.place fun _ => Lower.failsOnly_pure _

include suppliesFail

theorem CallParts.add_failsOnly {parts : CallParts} {isIndirect : Bool} {bound : BoundParameter}
    (declared : bound.parameter.type.IsDeclaredIn decls) :
    Lower.FailsOnly (Fault.IsLimit decls) (parts.add isIndirect arguments supplies bound) := by
  unfold add
  dsimp only
  cases direction : bound.parameter.direction with
  | input =>
      refine Lower.failsOnly_bind ?_ fun _ => Lower.failsOnly_pure _
      exact BoundParameter.lowerInput_failsOnly suppliesFail fun _ => declared
  | output | inOut =>
      refine Lower.failsOnly_bind_of_run bound.lowerDestination_failsOnly ?_
      intro state destination after run
      cases destination with
      | none => cases isIndirect <;> exact Lower.failsOnly_pure _
      | some destination =>
          have fails := BoundParameter.lowerDestination_ok suppliesFail run
          cases isIndirect with
          | false => exact Lower.failsOnly_bind fails.place fun _ => Lower.failsOnly_pure _
          | true => exact CallParts.addDestination_failsOnly declared fails
  | external => exact Lower.failsOnly_throw (Fault.IsLimit.notImplemented _)

theorem CallParts.addAll_failsOnly {isIndirect : Bool} {count : Nat}
    {parameters : List BoundParameter} :
    ∀ {isCounted : Bool} {parts : CallParts},
      (∀ bound ∈ parameters, bound.parameter.type.IsDeclaredIn decls) →
        Lower.FailsOnly (Fault.IsLimit decls)
          (CallParts.addAll isIndirect count arguments supplies isCounted parts parameters) := by
  induction parameters with
  | nil =>
      intro isCounted parts _
      exact Lower.failsOnly_pure _
  | cons bound parameters ih =>
      intro isCounted parts declared
      refine Lower.failsOnly_bind (CallParts.add_failsOnly suppliesFail ?_) fun _ => ih ?_
      · exact declared bound (List.mem_cons_self ..)
      · exact fun other member => declared other (List.mem_cons_of_mem _ member)

/-- A call within the limits, once its meaning is known and its arguments can be bound. -/
theorem CallResolution.lower_failsOnly {site : Site} {depth : Nat} {resolution : CallResolution}
    {function : Ident} {binding : Binding}
    (declared : ∀ parameter ∈ resolution.signature.parameters, parameter.type.IsDeclaredIn decls)
    (bound : Binding.make resolution.signature.parameters arguments = .ok binding) :
    Lower.FailsOnly (Fault.IsLimit decls)
      (resolution.lower site depth function arguments supplies) := by
  have boundDeclared : ∀ bound ∈ binding.parameters,
      bound.parameter.type.IsDeclaredIn decls := fun other member =>
    declared other.parameter (Binding.parameter_mem_of_make bound other member)
  unfold lower
  dsimp only
  split
  · exact Lower.failsOnly_throw_bind (.extensibleCountMissing _)
  · simp only [bound, Lower.lift_ok_bind]
    split
    · refine Lower.failsOnly_bind Lower.failsOnly_nextCall fun number => ?_
      refine Lower.failsOnly_bind (CallParts.addAll_failsOnly suppliesFail boundDeclared) ?_
      intro parts
      exact Lower.failsOnly_bind (Lower.failsOnly_modify _) fun _ => Lower.failsOnly_pure _
    · refine Lower.failsOnly_bind (CallParts.addAll_failsOnly suppliesFail boundDeclared) ?_
      exact fun parts => Lower.failsOnly_pure _

end Call

end StructuredText
