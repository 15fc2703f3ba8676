import StructuredText.Proofs.Analysis.Accepted
import StructuredText.Proofs.Call.Overloads
import StructuredText.Proofs.Lowering.Call

/-!
# What stops the lowering of a body

Lowering looks up again what analysis has looked up.  Where analysis found no fault
every such lookup succeeds, so that an accepted body is stopped by the limits of
generated code alone.  The argument follows the recursion of lowering; each step uses
what acceptance says about the part at hand.
-/

set_option autoImplicit false

namespace StructuredText

def Context.ParametersDeclaredIn (decls : List TypeDecl) (context : Context) : Prop :=
  ∀ name, ∀ signature ∈ context.functions.declarationsOf name,
    ∀ parameter ∈ signature.parameters, parameter.type.IsDeclaredIn decls

section Lower

variable {site : Site} {decls : List TypeDecl}

/-! ## Operators and lookups -/

theorem CompareOp.lower_failsOnly (op : CompareOp) (leftType rightType : DataType)
    (left right : Code.Expr) :
    FailsOnly (Fault.IsLimit decls) (op.lower leftType rightType left right) := by
  cases op with
  | or | and => exact failsOnly_ok _
  | xor =>
      simp only [CompareOp.lower]
      split <;> exact failsOnly_ok _
  | eq | ne | lt | gt | le | ge =>
      simp only [CompareOp.lower, CompareOp.relation?]
      split <;> exact failsOnly_ok _

theorem Site.typeOf_eq_pure {expr : Expr} (accepted : expr.Accepted site.context site.scope) :
    ∃ type, site.typeOf expr = pure type := by
  obtain ⟨type, typed⟩ := accepted.type
  refine ⟨type, ?_⟩
  rw [Site.typeOf, typed, Lower.need_some]

theorem Site.enumerated_failsOnly {value : EnumValue}
    (declared : ∃ type, site.context.enumeration? value = some type) :
    FailsOnly (Fault.IsLimit decls) (site.enumerated value) := by
  obtain ⟨type, found⟩ := declared
  rw [Site.enumerated, found]
  exact failsOnly_ok _

/-! ## Expressions -/

mutual

theorem Reference.lowerPath_failsOnly
    (parameters : site.context.ParametersDeclaredIn decls) :
    ∀ {reference : Reference} {depth : Nat},
    (reference.judge site.context site.scope).faults = [] →
      (∃ type, site.context.referenceType site.scope reference = .ok type) →
        Lower.FailsOnly (Fault.IsLimit decls) (reference.lowerPath site depth)
  | .named name, depth, _, _ => by
      rw [Reference.lowerPath]
      exact Lower.failsOnly_pure _
  | .field record name, depth, clean, ⟨type, typed⟩ => by
      rw [Reference.judge] at clean
      rw [Reference.lowerPath]
      refine Lower.failsOnly_bind ?_ fun _ => Lower.failsOnly_pure _
      exact Reference.lowerPath_failsOnly parameters clean (Context.referenceType_record typed)
  | .element array subscripts, depth, clean, ⟨type, typed⟩ => by
      rw [Reference.judge, Findings.faults_append, List.append_eq_nil_iff] at clean
      obtain ⟨arrayType, -, -, -, arrayTyped, -, -⟩ := Context.referenceType_array typed
      rw [Reference.lowerPath]
      refine Lower.failsOnly_bind ?_ fun path => ?_
      · exact Reference.lowerPath_failsOnly parameters clean.1 ⟨arrayType, arrayTyped⟩
      · refine Lower.failsOnly_bind ?_ fun _ => Lower.failsOnly_pure _
        apply Expr.lowerSubscripts_failsOnly parameters clean.2
        intro position _ inside
        rw [Nat.zero_add] at inside
        exact Context.dimension_of_referenceType typed inside

/-- The subscripts from an index on, each of which has a dimension. -/
theorem Expr.lowerSubscripts_failsOnly {array : Reference}
    (parameters : site.context.ParametersDeclaredIn decls) :
    ∀ {subscripts : List Expr} {index depth : Nat},
      Expr.SubscriptsAccepted site.context site.scope subscripts →
        (∀ position, index ≤ position → position < index + subscripts.length →
          ∃ dimension, site.context.dimension site.scope array position = .ok dimension) →
          Lower.FailsOnly (Fault.IsLimit decls)
            (Expr.lowerSubscripts site depth array index subscripts)
  | [], index, depth, _, _ => by
      rw [Expr.lowerSubscripts]
      exact Lower.failsOnly_pure _
  | subscript :: subscripts, index, depth, accepted, dimensions => by
      obtain ⟨firstAccepted, restAccepted⟩ := Expr.accepted_subscripts_cons accepted
      obtain ⟨dimension, found⟩ := dimensions index (Nat.le_refl _) (by simp)
      rw [Expr.lowerSubscripts, found, Lower.lift_ok_bind]
      refine Lower.failsOnly_bind (Expr.lower_failsOnly parameters firstAccepted) fun value => ?_
      refine Lower.failsOnly_bind ?_ fun _ => Lower.failsOnly_pure _
      apply Expr.lowerSubscripts_failsOnly parameters restAccepted
      intro position after inside
      refine dimensions position (by omega) ?_
      rw [List.length_cons]
      omega

theorem Variable.lower_failsOnly
    (parameters : site.context.ParametersDeclaredIn decls) :
    ∀ {source : Variable} {depth : Nat},
    source.Accepted site.context site.scope →
      Lower.FailsOnly (Fault.IsLimit decls) (source.lower site depth)
  | .direct address, depth, _ => by
      rw [Variable.lower]
      exact Lower.failsOnly_pure _
  | .symbolic reference, depth, accepted => by
      obtain ⟨clean, type, typed⟩ := Variable.accepted_symbolic accepted
      obtain ⟨entry, found⟩ := Context.entry_of_referenceType typed
      have pathFails : Lower.FailsOnly (Fault.IsLimit decls) (reference.lowerPath site depth) :=
        Reference.lowerPath_failsOnly parameters clean ⟨type, typed⟩
      rw [Variable.lower, found, Lower.need_some_bind]
      dsimp only
      split
      · exact Lower.failsOnly_bind pathFails fun _ => Lower.failsOnly_pure _
      · split
        · exact Lower.failsOnly_bind pathFails fun _ => Lower.failsOnly_pure _
        · exact Lower.failsOnly_pure _

theorem Expr.lower_failsOnly
    (parameters : site.context.ParametersDeclaredIn decls) :
    ∀ {expr : Expr} {depth : Nat},
    expr.Accepted site.context site.scope →
      Lower.FailsOnly (Fault.IsLimit decls) (expr.lower site depth)
  | .compare op left right, depth, accepted => by
      obtain ⟨leftAccepted, rightAccepted⟩ := Expr.accepted_compare accepted
      obtain ⟨leftType, leftTyped⟩ := Site.typeOf_eq_pure leftAccepted
      obtain ⟨rightType, rightTyped⟩ := Site.typeOf_eq_pure rightAccepted
      rw [Expr.lower, leftTyped, rightTyped, pure_bind, pure_bind]
      refine Lower.failsOnly_bind (Expr.lower_failsOnly parameters leftAccepted) fun _ => ?_
      refine Lower.failsOnly_bind (Expr.lower_failsOnly parameters rightAccepted) fun _ => ?_
      exact Lower.failsOnly_lift (CompareOp.lower_failsOnly op leftType rightType _ _)
  | .arith op left right, depth, accepted => by
      obtain ⟨leftAccepted, rightAccepted⟩ := Expr.accepted_arith accepted
      obtain ⟨leftType, leftTyped⟩ := Site.typeOf_eq_pure leftAccepted
      obtain ⟨rightType, rightTyped⟩ := Site.typeOf_eq_pure rightAccepted
      rw [Expr.lower, leftTyped, rightTyped, pure_bind, pure_bind]
      refine Lower.failsOnly_bind (Expr.lower_failsOnly parameters leftAccepted) fun _ => ?_
      refine Lower.failsOnly_bind (Expr.lower_failsOnly parameters rightAccepted) fun _ => ?_
      exact Lower.failsOnly_pure _
  | .unary op term, depth, accepted => by
      have termAccepted := Expr.accepted_unary accepted
      obtain ⟨type, typed⟩ := Site.typeOf_eq_pure termAccepted
      rw [Expr.lower, typed, pure_bind]
      exact Lower.failsOnly_bind (Expr.lower_failsOnly parameters termAccepted) fun _ =>
        Lower.failsOnly_pure _
  | .group inner, depth, accepted => by
      rw [Expr.lower]
      exact Expr.lower_failsOnly parameters (Expr.accepted_group accepted)
  | .const value, depth, _ => by
      rw [Expr.lower]
      refine Lower.failsOnly_bind ?_ fun _ => Lower.failsOnly_pure _
      exact Lower.failsOnly_lift (Code.Literal.constant_failsOnly value)
  | .enumerated value, depth, accepted => by
      rw [Expr.lower]
      refine Lower.failsOnly_bind ?_ fun _ => Lower.failsOnly_pure _
      exact Lower.failsOnly_lift (Site.enumerated_failsOnly (Expr.accepted_enumerated accepted))
  | .var source, depth, accepted => by
      rw [Expr.lower]
      refine Lower.failsOnly_bind ?_ fun _ => Lower.failsOnly_pure _
      exact Variable.lower_failsOnly parameters (Expr.accepted_var accepted)
  | .call function arguments, depth, accepted => by
      obtain ⟨resolution, resolved⟩ := accepted.resolution
      obtain ⟨overloads, declared, member, -, binding, bound, -⟩ :=
        CallResolution.of?_eq_some resolved
      have isDeclaration : resolution.signature ∈
          site.context.functions.declarationsOf function := by
        rw [FunctionTable.declarationsOf, declared]
        exact member
      rw [Expr.lower, resolved, Lower.need_some_bind]
      refine CallResolution.lower_failsOnly ?_ ?_ bound
      · exact Argument.supplies_failsOnly parameters (Expr.accepted_call accepted).1
      · exact parameters function _ isDeclaration

theorem Expr.destination?_failsOnly
    (parameters : site.context.ParametersDeclaredIn decls) :
    ∀ {expr : Expr} {depth : Nat},
    expr.Accepted site.context site.scope →
      ∀ destination, expr.destination? site depth = some destination →
        destination.FailsOnly (Fault.IsLimit decls)
  | .var source, depth, accepted, destination, isVariable => by
      have sourceAccepted := Expr.accepted_var accepted
      rw [Expr.destination?] at isVariable
      cases isVariable
      exact ⟨Variable.lower_failsOnly parameters sourceAccepted, sourceAccepted.type⟩
  | .compare .., _, _, _, isVariable => by simp [Expr.destination?] at isVariable
  | .arith .., _, _, _, isVariable => by simp [Expr.destination?] at isVariable
  | .unary .., _, _, _, isVariable => by simp [Expr.destination?] at isVariable
  | .group .., _, _, _, isVariable => by simp [Expr.destination?] at isVariable
  | .const .., _, _, _, isVariable => by simp [Expr.destination?] at isVariable
  | .enumerated .., _, _, _, isVariable => by simp [Expr.destination?] at isVariable
  | .call .., _, _, _, isVariable => by simp [Expr.destination?] at isVariable

theorem Argument.supplies_failsOnly
    (parameters : site.context.ParametersDeclaredIn decls) :
    ∀ {arguments : List Argument} {depth : Nat},
    Argument.ListAccepted site.context site.scope arguments →
      ∀ supply ∈ Argument.supplies site depth arguments,
        supply.FailsOnly (Fault.IsLimit decls)
  | [], depth, _, supply, member => by
      rw [Argument.supplies] at member
      cases member
  | .positional value :: arguments, depth, accepted, supply, member => by
      obtain ⟨valueAccepted, restAccepted⟩ := Argument.listAccepted_cons.mp accepted
      rw [Argument.supplies] at member
      rcases List.mem_cons.mp member with rfl | inRest
      · refine ⟨?_, Expr.destination?_failsOnly parameters valueAccepted⟩
        rintro _ ⟨⟩
        exact Expr.lower_failsOnly parameters valueAccepted
      · exact Argument.supplies_failsOnly parameters restAccepted supply inRest
  | .named name value :: arguments, depth, accepted, supply, member => by
      obtain ⟨valueAccepted, restAccepted⟩ := Argument.listAccepted_cons.mp accepted
      rw [Argument.supplies] at member
      rcases List.mem_cons.mp member with rfl | inRest
      · refine ⟨?_, Expr.destination?_failsOnly parameters valueAccepted⟩
        rintro _ ⟨⟩
        exact Expr.lower_failsOnly parameters valueAccepted
      · exact Argument.supplies_failsOnly parameters restAccepted supply inRest
  | .output isNegated source target :: arguments, depth, accepted, supply, member => by
      obtain ⟨targetAccepted, restAccepted⟩ := Argument.listAccepted_cons.mp accepted
      rw [Argument.supplies] at member
      rcases List.mem_cons.mp member with rfl | inRest
      · refine ⟨nofun, ?_⟩
        rintro _ ⟨⟩
        exact ⟨Variable.lower_failsOnly parameters targetAccepted, targetAccepted.type⟩
      · exact Argument.supplies_failsOnly parameters restAccepted supply inRest

end

/-! ## Invocations -/

theorem InstanceAccess.copiesIn_failsOnly {access : InstanceAccess} {supplies : List Supply}
    (suppliesFail : ∀ supply ∈ supplies, supply.FailsOnly (Fault.IsLimit decls))
    (bound : List BoundParameter) :
    Lower.FailsOnly (Fault.IsLimit decls) (access.copiesIn supplies bound) := by
  induction bound with
  | nil => exact Lower.failsOnly_pure _
  | cons first rest ih =>
      rw [InstanceAccess.copiesIn]
      split
      · next given =>
          split
          · refine Lower.failsOnly_bind ?_ fun value => ?_
            · apply BoundParameter.lowerInput_failsOnly suppliesFail
              intro isOpen
              rw [given] at isOpen
              cases isOpen
            · exact Lower.failsOnly_bind ih fun _ => Lower.failsOnly_pure _
          · exact ih
      · exact ih

theorem BoundParameter.receiver?_failsOnly {supplies : List Supply}
    (suppliesFail : ∀ supply ∈ supplies, supply.FailsOnly (Fault.IsLimit decls))
    {bound : BoundParameter} {receiver : Destination}
    (found : bound.receiver? supplies = some receiver) :
    receiver.FailsOnly (Fault.IsLimit decls) := by
  obtain ⟨supply, isSupply, isDestination⟩ :=
    Option.bind_eq_some_iff.mp (BoundParameter.supplied_of_receiver? found)
  exact (suppliesFail supply (BoundParameter.mem_of_supply? isSupply)).destination _ isDestination

theorem InstanceAccess.copiesOut_failsOnly {access : InstanceAccess} {arguments : List Argument}
    {supplies : List Supply}
    (suppliesFail : ∀ supply ∈ supplies, supply.FailsOnly (Fault.IsLimit decls))
    (bound : List BoundParameter) :
    Lower.FailsOnly (Fault.IsLimit decls) (access.copiesOut arguments supplies bound) := by
  induction bound with
  | nil => exact Lower.failsOnly_pure _
  | cons first rest ih =>
      rw [InstanceAccess.copiesOut]
      cases found : first.receiver? supplies with
      | none => exact ih
      | some receiver =>
          have fails := BoundParameter.receiver?_failsOnly suppliesFail found
          obtain ⟨type, typed⟩ := fails.typed
          simp only [typed, Lower.lift_ok_bind]
          refine Lower.failsOnly_bind fails.place fun place => ?_
          exact Lower.failsOnly_bind ih fun _ => Lower.failsOnly_pure _

theorem Site.lowerInvoke_failsOnly (parameters : site.context.ParametersDeclaredIn decls)
    {depth : Nat} {block : Ident} {arguments : List Argument}
    (accepted : Stmt.Accepted site.context site.scope (.invoke block arguments)) :
    Lower.FailsOnly (Fault.IsLimit decls) (site.lowerInvoke depth block arguments) := by
  obtain ⟨argumentsAccepted, type, signature, binding, isInstance, declared, bound⟩ :=
    Stmt.accepted_invoke accepted
  have found : site.blockSignature? block = some signature := by
    rw [Site.blockSignature?, isInstance]
    exact declared
  have suppliesFail : ∀ supply ∈ Argument.supplies site depth arguments,
      supply.FailsOnly (Fault.IsLimit decls) :=
    Argument.supplies_failsOnly parameters argumentsAccepted
  rw [Site.lowerInvoke, found, Lower.need_some_bind, bound, Lower.lift_ok_bind]
  refine Lower.failsOnly_bind (InstanceAccess.copiesIn_failsOnly suppliesFail _) fun _ => ?_
  refine Lower.failsOnly_bind (InstanceAccess.copiesOut_failsOnly suppliesFail _) fun _ => ?_
  exact Lower.failsOnly_pure _

/-! ## Statements -/

theorem Site.lowerStep_failsOnly (parameters : site.context.ParametersDeclaredIn decls)
    {depth : Nat} {step : Option Expr}
    (accepted : ∀ value ∈ step, value.Accepted site.context site.scope) :
    Lower.FailsOnly (Fault.IsLimit decls) (site.lowerStep depth step) := by
  cases step with
  | none => exact Lower.failsOnly_pure _
  | some value =>
      refine Lower.failsOnly_bind ?_ fun _ => Lower.failsOnly_pure _
      exact Expr.lower_failsOnly parameters (accepted value rfl)

theorem CaseLabel.lowerSingles_failsOnly {labels : List CaseLabel}
    (accepted : (CaseLabel.judgeList site.context labels).faults = []) :
    FailsOnly (Fault.IsLimit decls) (CaseLabel.lowerSingles site labels) := by
  have enumerations : ∀ value, .enumerated value ∈ labels →
      ∃ type, site.context.enumeration? value = some type :=
    fun value member => CaseLabel.enumeration_of_accepted accepted member
  clear accepted
  induction labels with
  | nil => exact failsOnly_ok _
  | cons label labels ih =>
      have rest := ih fun value member => enumerations value (List.mem_cons_of_mem _ member)
      cases label with
      | range bounds => exact rest
      | integer value =>
          rw [CaseLabel.lowerSingles]
          exact failsOnly_bind rest fun _ _ => failsOnly_ok _
      | enumerated value =>
          have first := enumerations value (List.mem_cons_self ..)
          rw [CaseLabel.lowerSingles]
          refine failsOnly_bind (Site.enumerated_failsOnly first) fun _ _ => ?_
          exact failsOnly_bind rest fun _ _ => failsOnly_ok _

section Forms

variable {allowed : Fault → Prop} {depth : Nat} {around : List Breakable}

theorem Stmt.failsOnly_assign {target : Variable} {value : Expr} {type : DataType}
    (typed : site.context.variableType site.scope target = .ok type)
    (valueFails : Lower.FailsOnly allowed (value.lower site depth))
    (targetFails : Lower.FailsOnly allowed (target.lower site depth)) :
    Lower.FailsOnly allowed ((Stmt.assign target value).lower site depth around) := by
  rw [Stmt.lower, typed, Lower.lift_ok_bind]
  refine Lower.failsOnly_bind valueFails fun _ => ?_
  exact Lower.failsOnly_bind targetFails fun _ => Lower.failsOnly_pure _

theorem Stmt.failsOnly_ifElse {test : Expr} {body otherwise : List Stmt} {elseIfs : List ElseIf}
    (testFails : Lower.FailsOnly allowed (test.lower site depth))
    (bodyFails : Lower.FailsOnly allowed (Stmt.lowerList site (depth + 1) around body))
    (elseIfsFail : Lower.FailsOnly allowed (ElseIf.lowerList site depth around elseIfs))
    (otherwiseFails : Lower.FailsOnly allowed (Stmt.lowerList site (depth + 1) around otherwise)) :
    Lower.FailsOnly allowed
      ((Stmt.ifElse test body elseIfs otherwise).lower site depth around) := by
  rw [Stmt.lower]
  refine Lower.failsOnly_bind testFails fun _ => ?_
  refine Lower.failsOnly_bind bodyFails fun _ => ?_
  refine Lower.failsOnly_bind elseIfsFail fun _ => ?_
  exact Lower.failsOnly_bind otherwiseFails fun _ => Lower.failsOnly_pure _

theorem Stmt.failsOnly_select {selector : Expr} {groups : List CaseGroup}
    {otherwise : List Stmt} {type : DataType} (typed : site.typeOf selector = pure type)
    (selectorFails : Lower.FailsOnly allowed (selector.lower site depth))
    (casesFail : ∀ depth around,
      Lower.FailsOnly allowed (CaseGroup.lowerCases site depth around groups))
    (rangesFail : ∀ depth around,
      Lower.FailsOnly allowed (CaseGroup.lowerRanges site depth around groups))
    (otherwiseFails : ∀ depth around,
      Lower.FailsOnly allowed (Stmt.lowerList site depth around otherwise)) :
    Lower.FailsOnly allowed ((Stmt.select selector groups otherwise).lower site depth around) := by
  rw [Stmt.lower, typed, pure_bind]
  refine Lower.failsOnly_bind selectorFails fun _ => ?_
  refine Lower.failsOnly_bind (casesFail _ _) fun _ => ?_
  refine Lower.failsOnly_bind (rangesFail _ _) fun _ => ?_
  exact Lower.failsOnly_bind (otherwiseFails _ _) fun _ => Lower.failsOnly_pure _

theorem Stmt.failsOnly_forTo {control : Ident} {first last : Expr} {step : Option Expr}
    {body : List Stmt} {type : DataType}
    (typed : site.context.variableType site.scope (.named control) = .ok type)
    (firstFails : Lower.FailsOnly allowed (first.lower site depth))
    (lastFails : Lower.FailsOnly allowed (last.lower site depth))
    (stepFails : Lower.FailsOnly allowed (site.lowerStep depth step))
    (controlFails : Lower.FailsOnly allowed ((Variable.named control).lower site depth))
    (bodyFails : ∀ around,
      Lower.FailsOnly allowed (Stmt.lowerList site (depth + 1) around body)) :
    Lower.FailsOnly allowed
      ((Stmt.forTo control first last step body).lower site depth around) := by
  rw [Stmt.lower]
  refine Lower.failsOnly_bind Lower.failsOnly_nextLoop fun number => ?_
  simp only [typed, Lower.lift_ok_bind]
  refine Lower.failsOnly_bind firstFails fun _ => ?_
  refine Lower.failsOnly_bind lastFails fun _ => ?_
  refine Lower.failsOnly_bind stepFails fun _ => ?_
  refine Lower.failsOnly_bind controlFails fun _ => ?_
  refine Lower.failsOnly_bind (bodyFails _) fun _ => ?_
  exact Lower.failsOnly_bind (Lower.failsOnly_exit? number) fun _ => Lower.failsOnly_pure _

theorem Stmt.failsOnly_whileDo {test : Expr} {body : List Stmt}
    (testFails : Lower.FailsOnly allowed (test.lower site depth))
    (bodyFails : ∀ around,
      Lower.FailsOnly allowed (Stmt.lowerList site (depth + 1) around body)) :
    Lower.FailsOnly allowed ((Stmt.whileDo test body).lower site depth around) := by
  rw [Stmt.lower]
  refine Lower.failsOnly_bind testFails fun _ => ?_
  refine Lower.failsOnly_bind Lower.failsOnly_nextLoop fun number => ?_
  refine Lower.failsOnly_bind (bodyFails _) fun _ => ?_
  exact Lower.failsOnly_bind (Lower.failsOnly_exit? number) fun _ => Lower.failsOnly_pure _

theorem Stmt.failsOnly_repeatUntil {test : Expr} {body : List Stmt}
    (testFails : Lower.FailsOnly allowed (test.lower site depth))
    (bodyFails : ∀ around,
      Lower.FailsOnly allowed (Stmt.lowerList site (depth + 1) around body)) :
    Lower.FailsOnly allowed ((Stmt.repeatUntil body test).lower site depth around) := by
  rw [Stmt.lower]
  refine Lower.failsOnly_bind Lower.failsOnly_nextLoop fun number => ?_
  refine Lower.failsOnly_bind (bodyFails _) fun _ => ?_
  refine Lower.failsOnly_bind testFails fun _ => ?_
  exact Lower.failsOnly_bind (Lower.failsOnly_exit? number) fun _ => Lower.failsOnly_pure _

theorem Stmt.failsOnly_leaveLoop :
    Lower.FailsOnly allowed (Stmt.leaveLoop.lower site depth around) := by
  rw [Stmt.lower]
  split
  · exact Lower.failsOnly_pure _
  · exact Lower.failsOnly_bind (Lower.failsOnly_modify _) fun _ => Lower.failsOnly_pure _

theorem Stmt.failsOnly_pragma (directive : Pragma) :
    Lower.FailsOnly allowed ((Stmt.pragma directive).lower site depth around) := by
  cases directive with
  | code text =>
      rw [Stmt.lower]
      exact Lower.failsOnly_pure _
  | enable | disable =>
      rw [Stmt.lower]
      exact Lower.failsOnly_bind (Lower.failsOnly_modify _) fun _ => Lower.failsOnly_pure _

end Forms

theorem Variable.accepted_named {context : Context} {scope : Scope} {name : Ident}
    {entry : VariableEntry} (found : scope.lookup name = some entry) :
    Variable.Accepted context scope (.named name) ∧
      context.variableType scope (.named name) = .ok entry.type := by
  constructor
  · rw [Variable.named, Variable.Accepted, Variable.judge, Context.referenceType, found,
      Reference.judge]
    rfl
  · rw [Variable.named, Context.variableType, Context.referenceType, found]

mutual

theorem Stmt.lower_failsOnly (parameters : site.context.ParametersDeclaredIn decls) :
    ∀ {stmt : Stmt} {depth : Nat} {around : List Breakable},
      stmt.Accepted site.context site.scope →
        Lower.FailsOnly (Fault.IsLimit decls) (stmt.lower site depth around)
  | .assign target value, depth, around, accepted => by
      obtain ⟨targetAccepted, valueAccepted⟩ := Stmt.accepted_assign accepted
      obtain ⟨type, typed⟩ := targetAccepted.type
      exact Stmt.failsOnly_assign typed (Expr.lower_failsOnly parameters valueAccepted)
        (Variable.lower_failsOnly parameters targetAccepted)
  | .invoke block arguments, depth, around, accepted => by
      rw [Stmt.lower_invoke]
      exact Site.lowerInvoke_failsOnly parameters accepted
  | .ifElse test body elseIfs otherwise, depth, around, accepted => by
      obtain ⟨testAccepted, bodyAccepted, elseIfsAccepted, otherwiseAccepted⟩ :=
        Stmt.accepted_ifElse accepted
      exact Stmt.failsOnly_ifElse (Expr.lower_failsOnly parameters testAccepted)
        (Stmt.lowerList_failsOnly parameters bodyAccepted)
        (ElseIf.lowerList_failsOnly parameters elseIfsAccepted)
        (Stmt.lowerList_failsOnly parameters otherwiseAccepted)
  | .select selector groups otherwise, depth, around, accepted => by
      obtain ⟨selectorAccepted, groupsAccepted, otherwiseAccepted⟩ :=
        Stmt.accepted_select accepted
      obtain ⟨type, typed⟩ := Site.typeOf_eq_pure selectorAccepted
      exact Stmt.failsOnly_select typed (Expr.lower_failsOnly parameters selectorAccepted)
        (fun _ _ => CaseGroup.lowerCases_failsOnly parameters groupsAccepted)
        (fun _ _ => CaseGroup.lowerRanges_failsOnly parameters groupsAccepted)
        (fun _ _ => Stmt.lowerList_failsOnly parameters otherwiseAccepted)
  | .forTo control first last step body, depth, around, accepted => by
      obtain ⟨⟨entry, found⟩, firstAccepted, lastAccepted, stepAccepted, bodyAccepted⟩ :=
        Stmt.accepted_forTo accepted
      obtain ⟨controlAccepted, typed⟩ := Variable.accepted_named found
      exact Stmt.failsOnly_forTo typed (Expr.lower_failsOnly parameters firstAccepted)
        (Expr.lower_failsOnly parameters lastAccepted)
        (Site.lowerStep_failsOnly parameters stepAccepted)
        (Variable.lower_failsOnly parameters controlAccepted)
        (fun _ => Stmt.lowerList_failsOnly parameters bodyAccepted)
  | .whileDo test body, depth, around, accepted => by
      obtain ⟨testAccepted, bodyAccepted⟩ := Stmt.accepted_whileDo accepted
      exact Stmt.failsOnly_whileDo (Expr.lower_failsOnly parameters testAccepted)
        (fun _ => Stmt.lowerList_failsOnly parameters bodyAccepted)
  | .repeatUntil body test, depth, around, accepted => by
      obtain ⟨testAccepted, bodyAccepted⟩ := Stmt.accepted_repeatUntil accepted
      exact Stmt.failsOnly_repeatUntil (Expr.lower_failsOnly parameters testAccepted)
        (fun _ => Stmt.lowerList_failsOnly parameters bodyAccepted)
  | .leaveUnit, depth, around, _ => by
      rw [Stmt.lower]
      exact Lower.failsOnly_pure _
  | .leaveLoop, depth, around, _ => Stmt.failsOnly_leaveLoop
  | .pragma directive, depth, around, _ => Stmt.failsOnly_pragma directive

theorem Stmt.lowerList_failsOnly (parameters : site.context.ParametersDeclaredIn decls) :
    ∀ {stmts : List Stmt} {depth : Nat} {around : List Breakable},
      Stmt.ListAccepted site.context site.scope stmts →
        Lower.FailsOnly (Fault.IsLimit decls) (Stmt.lowerList site depth around stmts)
  | [], depth, around, _ => by
      rw [Stmt.lowerList]
      exact Lower.failsOnly_pure _
  | stmt :: stmts, depth, around, accepted => by
      obtain ⟨firstAccepted, restAccepted⟩ := Stmt.listAccepted_cons accepted
      rw [Stmt.lowerList]
      refine Lower.failsOnly_bind (Stmt.lower_failsOnly parameters firstAccepted) fun _ => ?_
      refine Lower.failsOnly_bind (Stmt.lowerList_failsOnly parameters restAccepted) fun _ => ?_
      exact Lower.failsOnly_pure _

theorem ElseIf.lowerList_failsOnly (parameters : site.context.ParametersDeclaredIn decls) :
    ∀ {elseIfs : List ElseIf} {depth : Nat} {around : List Breakable},
      ElseIf.ListAccepted site.context site.scope elseIfs →
        Lower.FailsOnly (Fault.IsLimit decls) (ElseIf.lowerList site depth around elseIfs)
  | [], depth, around, _ => by
      rw [ElseIf.lowerList]
      exact Lower.failsOnly_pure _
  | .mk condition body :: elseIfs, depth, around, accepted => by
      obtain ⟨conditionAccepted, bodyAccepted, restAccepted⟩ := ElseIf.listAccepted_cons accepted
      rw [ElseIf.lowerList]
      refine Lower.failsOnly_bind (Expr.lower_failsOnly parameters conditionAccepted) fun _ => ?_
      refine Lower.failsOnly_bind (Stmt.lowerList_failsOnly parameters bodyAccepted) fun _ => ?_
      refine Lower.failsOnly_bind (ElseIf.lowerList_failsOnly parameters restAccepted)
        fun _ => ?_
      exact Lower.failsOnly_pure _

theorem CaseGroup.lowerCases_failsOnly (parameters : site.context.ParametersDeclaredIn decls) :
    ∀ {groups : List CaseGroup} {depth : Nat} {around : List Breakable},
      CaseGroup.ListAccepted site.context site.scope groups →
        Lower.FailsOnly (Fault.IsLimit decls) (CaseGroup.lowerCases site depth around groups)
  | [], depth, around, _ => by
      rw [CaseGroup.lowerCases]
      exact Lower.failsOnly_pure _
  | .mk labels body :: groups, depth, around, accepted => by
      obtain ⟨labelsAccepted, bodyAccepted, restAccepted⟩ := CaseGroup.listAccepted_cons accepted
      have restFails : Lower.FailsOnly (Fault.IsLimit decls)
          (CaseGroup.lowerCases site depth around groups) :=
        CaseGroup.lowerCases_failsOnly parameters restAccepted
      rw [CaseGroup.lowerCases]
      refine Lower.failsOnly_bind
        (Lower.failsOnly_lift (CaseLabel.lowerSingles_failsOnly labelsAccepted)) fun singles => ?_
      split
      · exact restFails
      · refine Lower.failsOnly_bind (Stmt.lowerList_failsOnly parameters bodyAccepted)
          fun _ => ?_
        exact Lower.failsOnly_bind restFails fun _ => Lower.failsOnly_pure _

theorem CaseGroup.lowerRanges_failsOnly (parameters : site.context.ParametersDeclaredIn decls) :
    ∀ {groups : List CaseGroup} {depth : Nat} {around : List Breakable},
      CaseGroup.ListAccepted site.context site.scope groups →
        Lower.FailsOnly (Fault.IsLimit decls) (CaseGroup.lowerRanges site depth around groups)
  | [], depth, around, _ => by
      rw [CaseGroup.lowerRanges]
      exact Lower.failsOnly_pure _
  | .mk labels body :: groups, depth, around, accepted => by
      obtain ⟨-, bodyAccepted, restAccepted⟩ := CaseGroup.listAccepted_cons accepted
      have restFails : Lower.FailsOnly (Fault.IsLimit decls)
          (CaseGroup.lowerRanges site depth around groups) :=
        CaseGroup.lowerRanges_failsOnly parameters restAccepted
      rw [CaseGroup.lowerRanges]
      split
      · exact restFails
      · refine Lower.failsOnly_bind (Stmt.lowerList_failsOnly parameters bodyAccepted)
          fun _ => ?_
        exact Lower.failsOnly_bind restFails fun _ => Lower.failsOnly_pure _

end

theorem Site.lowerBody_failsOnly (parameters : site.context.ParametersDeclaredIn decls)
    {isOn : Bool} {body : List Stmt}
    (accepted : Stmt.ListAccepted site.context site.scope body) :
    FailsOnly (Fault.IsLimit decls) (site.lowerBody isOn body) :=
  failsOnly_bind (Stmt.lowerList_failsOnly parameters accepted { isOn }) fun _ _ =>
    failsOnly_ok _

end Lower

end StructuredText
