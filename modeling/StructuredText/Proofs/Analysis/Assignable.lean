import StructuredText.Proofs.Analysis.Part
import StructuredText.Proofs.Analysis.Storable
import StructuredText.Proofs.Call.Actual

/-!
# What acceptance says about stores

An accepted assignment stores a value that its target accepts.  An argument that matches
its parameter is accepted by it, and an output is accepted by the variable that receives
it.  For a parameter that passes both ways the match is checked on the way in alone, but
among types that are stored to it is the same either way.
-/

set_option autoImplicit false

namespace StructuredText

/-! ## Matches -/

namespace DataType

theorem resolved_resolved (type : DataType) : type.resolved.resolved = type.resolved := by
  induction type using resolved.induct with
  | case1 name base ih => exact ih
  | case2 type notSynonym =>
      have same : type.resolved = type := resolved.eq_2 type notSynonym
      rw [same, same]

@[simp] theorem elementary?_resolved (type : DataType) :
    type.resolved.elementary? = type.elementary? := by
  unfold elementary?
  rw [resolved_resolved]

theorem accepts_of_elementary? {target source : DataType} {type : Elementary}
    (ofTarget : target.elementary? = some type) (ofSource : source.elementary? = some type) :
    target.accepts source = true := by
  have notLiteral : source.resolved.isIntLiteral = false ∧
      source.resolved.isRealLiteral = false := by
    unfold elementary? at ofSource
    cases resolved : source.resolved with
    | intLiteral | realLiteral =>
        rw [resolved] at ofSource
        cases ofSource
    | _ => exact ⟨rfl, rfl⟩
  rw [accepts_eq, notLiteral.1, notLiteral.2, elementary?_resolved, elementary?_resolved,
    ofTarget, ofSource]
  simp

end DataType

theorem accepts_of_matchScore? {parameter argument : DataType} {score : Nat}
    (found : matchScore? parameter argument = some score) :
    parameter.accepts argument = true := by
  unfold matchScore? at found
  dsimp only at found
  split at found
  · next best matched =>
      cases resolved : argument.resolved with
      | intLiteral =>
          rw [resolved] at matched
          have widest := beq_iff_eq.mp (Option.ite_none_right_eq_some.mp matched).1
          simp [DataType.accepts_eq, resolved, DataType.isIntLiteral, DataType.isInteger, widest,
            Elementary.isInteger]
      | realLiteral =>
          rw [resolved] at matched
          have widest := beq_iff_eq.mp (Option.ite_none_right_eq_some.mp matched).1
          simp [DataType.accepts_eq, resolved, DataType.isIntLiteral, DataType.isRealLiteral,
            DataType.isReal, widest, Elementary.isReal]
      | _ =>
          rw [resolved] at matched
          have same := (Option.ite_none_right_eq_some.mp matched).1
          rw [Bool.and_eq_true, beq_iff_eq] at same
          obtain ⟨type, isType⟩ := Option.isSome_iff_exists.mp same.1
          exact DataType.accepts_of_elementary? isType (same.2 ▸ isType)
  · exact (Option.ite_none_right_eq_some.mp found).1

/-! ## Arguments -/

section Assignable

variable (context : Context) (scope : Scope)

/-- The type of what an argument passes in, or of the variable that it gives for an output. -/
def Argument.type? : Argument → Option DataType
  | .positional value | .named _ value => value.type? context scope
  | .output _ _ target => (context.variableType scope target).toOption

/-- The value that a call gives for a parameter may be stored in it, and what comes out of
it may be stored in the variable that receives it. -/
structure BoundParameter.Assignable (bound : BoundParameter) : Prop where
  value : ∀ value, bound.value? = some value → ∃ type, value.type? context scope = some type ∧
    bound.parameter.type.accepts type = true
  target : ∀ target, bound.target? = some target →
    ∃ type, context.variableType scope target = .ok type ∧
      type.accepts bound.parameter.type = true

end Assignable

variable {context : Context} {scope : Scope}

theorem Argument.types_judgeList (arguments : List Argument) :
    (Argument.judgeList context scope arguments).1 =
      arguments.map (Argument.type? context scope) := by
  induction arguments with
  | nil => rw [Argument.judgeList, List.map_nil]
  | cons argument rest ih =>
      cases argument with
      | positional value | named name value =>
          rw [Argument.judgeList, List.map_cons, ← ih]
          rfl
      | output isNegated source target =>
          rw [Argument.judgeList, List.map_cons, ← ih, Argument.type?, ← Variable.judge_type]

theorem Expr.type?_var (source : Variable) :
    (Expr.var source).type? context scope = (context.variableType scope source).toOption := by
  rw [Expr.type?, Expr.judge, ← Variable.judge_type]

theorem BoundParameter.accepts_of_score? {arguments : List Argument} {bound : BoundParameter}
    (isGiven : Binding.IsGiven arguments bound)
    (scored : (bound.score? (arguments.map (Argument.type? context scope))).isSome = true) :
    (∀ index value, bound.actual = some (.input index value) →
      ∃ type, value.type? context scope = some type ∧
        bound.parameter.type.accepts type = true) ∧
    ∀ index target, bound.actual = some (.output index target) →
      ∃ type, context.variableType scope target = .ok type ∧
        type.accepts bound.parameter.type = true := by
  obtain ⟨score, scored⟩ := Option.isSome_iff_exists.mp scored
  constructor
  · intro index value isActual
    have typed : ((arguments.map (Argument.type? context scope))[index]?).join =
        value.type? context scope := by
      cases isGiven _ isActual with
      | positional given | named given =>
          rw [List.getElem?_map, given]
          rfl
    simp only [score?, isActual, typed] at scored
    obtain ⟨type, isType, matched⟩ := Option.bind_eq_some_iff.mp scored
    exact ⟨type, isType, accepts_of_matchScore? matched⟩
  · intro index target isActual
    have typed : ((arguments.map (Argument.type? context scope))[index]?).join =
        (context.variableType scope target).toOption := by
      cases isGiven _ isActual with
      | output given =>
          rw [List.getElem?_map, given]
          rfl
    simp only [score?, isActual, typed] at scored
    obtain ⟨type, isType, matched⟩ := Option.bind_eq_some_iff.mp scored
    exact ⟨type, eq_ok_of_toOption isType, (Option.ite_none_right_eq_some.mp matched).1⟩

section Resolved

variable {library : Library} {withConversions : Bool}
  (resolved : Context.resolve library withConversions = .ok context) (storable : scope.IsStorable)

include resolved storable

/-- What a binding with a score gives for its parameters can be stored, in both directions. -/
theorem Binding.assignable_of_score? {parameters : List Parameter} {arguments : List Argument}
    {binding : Binding} (made : Binding.make parameters arguments = .ok binding)
    (storables : ∀ parameter ∈ parameters, parameter.type.Storable)
    (scored : (binding.score? (Argument.judgeList context scope arguments).1).isSome = true) :
    ∀ bound ∈ binding.parameters, bound.Assignable context scope := by
  intro bound member
  rw [Argument.types_judgeList, Binding.score?, Option.isSome_map, isSome_mapM] at scored
  obtain ⟨takesIn, givesOut⟩ :=
    BoundParameter.accepts_of_score? (Binding.isGiven_of_make made bound member)
      (scored bound member)
  constructor
  · intro value isValue
    unfold BoundParameter.value? at isValue
    split at isValue
    · next index given isActual =>
        cases isValue
        exact takesIn index value isActual
    · cases isValue
  · intro target isTarget
    unfold BoundParameter.target? at isTarget
    split at isTarget
    · next index given direction isActual =>
        cases isTarget
        exact givesOut index target isActual
    · next index given direction isActual =>
        cases isTarget
        exact givesOut index target isActual
    · next index given direction isActual =>
        cases isTarget
        obtain ⟨type, typed, accepts⟩ := takesIn index _ isActual
        rw [Expr.type?_var] at typed
        have isVariable := eq_ok_of_toOption typed
        refine ⟨type, isVariable, ?_⟩
        have parameterSo := storables _ (Binding.parameter_mem_of_make made bound member)
        have targetSo := Context.storable_variableType resolved storable isVariable
        rw [targetSo.accepts_comm parameterSo]
        exact accepts
    · cases isTarget

/-- What a call gives for the parameters of the function that it means can be stored. -/
theorem CallResolution.assignable {function : Ident} {arguments : List Argument}
    {resolution : CallResolution} {binding : Binding}
    (meaning : CallResolution.of? context scope function arguments = some resolution)
    (made : Binding.make resolution.signature.parameters arguments = .ok binding) :
    ∀ bound ∈ binding.parameters, bound.Assignable context scope := by
  obtain ⟨overloads, declared, isResolved⟩ := CallResolution.resolve_of_of? meaning
  obtain ⟨member, -, other, otherMade, -, scored⟩ := CallResolution.candidate_of_resolve isResolved
  have isDeclaration : resolution.signature ∈ context.functions.declarationsOf function := by
    rw [FunctionTable.declarationsOf, declared]
    exact member
  rw [made] at otherMade
  cases otherMade
  exact Binding.assignable_of_score? resolved storable made
    (Context.storable_function resolved isDeclaration) scored

/-! ## Statements -/

/-- What an accepted invocation gives for the parameters of the function block can be
stored. -/
theorem Stmt.assignable_of_accepted_invoke {block type : Ident} {arguments : List Argument}
    {signature : BlockSignature} {binding : Binding}
    (accepted : Stmt.Accepted context scope (.invoke block arguments))
    (isInstance : instanceType scope block = .ok type)
    (declared : context.functions.block? type = some signature)
    (made : Binding.make signature.parameters arguments = .ok binding) :
    ∀ bound ∈ binding.parameters, bound.Assignable context scope := by
  obtain ⟨argumentsAccepted, other, otherSignature, sameInstance, sameDeclared, noFaults⟩ :=
    Stmt.faultless_invoke accepted
  rw [isInstance] at sameInstance
  cases sameInstance
  rw [declared] at sameDeclared
  cases sameDeclared
  refine Binding.assignable_of_score? resolved storable made
    (Context.storable_block resolved declared) ?_
  have allTyped := argumentsAccepted.types
  simp only [invocationFaults, made, allTyped, Bool.true_and, ite_eq_right_iff, reduceCtorEq,
    imp_false, Bool.not_eq_true, Option.isNone_eq_false_iff] at noFaults
  exact noFaults

end Resolved

theorem Stmt.accepts_of_accepted_assign {target : Variable} {value : Expr}
    (accepted : Stmt.Accepted context scope (.assign target value)) :
    ∃ targetType valueType, context.variableType scope target = .ok targetType ∧
      value.type? context scope = some valueType ∧ targetType.accepts valueType = true := by
  obtain ⟨⟨targetAccepted, valueAccepted⟩, noFaults⟩ := Stmt.faultless_assign accepted
  obtain ⟨targetType, targetTyped⟩ := targetAccepted.type
  obtain ⟨valueType, valueTyped⟩ := valueAccepted.type
  refine ⟨targetType, valueType, targetTyped, valueTyped, ?_⟩
  rw [Expr.type?] at valueTyped
  have mismatch := (List.append_eq_nil_iff.mp noFaults).2
  rw [Variable.judge_type, targetTyped, valueTyped] at mismatch
  by_contra notAccepted
  simp [Except.toOption, notAccepted] at mismatch

/-- The root of the target of an accepted assignment is not constant. -/
theorem Stmt.not_constant_of_accepted_assign {reference : Reference} {value : Expr}
    {entry : VariableEntry}
    (accepted : Stmt.Accepted context scope (.assign (.symbolic reference) value))
    (found : scope.entryFor? reference = some entry) : entry.isConstant = false := by
  obtain ⟨-, noFaults⟩ := Stmt.faultless_assign accepted
  have constant := (List.append_eq_nil_iff.mp noFaults).1
  by_contra isConstant
  simp [found, isConstant] at constant

theorem Stmt.isInteger_of_accepted_forTo {control : Ident} {first last : Expr}
    {step : Option Expr} {body : List Stmt} {type : DataType}
    (accepted : Stmt.Accepted context scope (.forTo control first last step body))
    (typed : context.variableType scope (.named control) = .ok type) : type.isInteger = true := by
  obtain ⟨noFaults, -⟩ := Stmt.faultless_forTo accepted
  rw [Variable.named, Context.variableType, Context.referenceType] at typed
  cases found : scope.lookup control with
  | none => rw [found] at typed; cases typed
  | some entry =>
      rw [found] at typed
      cases typed
      by_contra notInteger
      simp [controlFaults, found, notInteger] at noFaults

end StructuredText
