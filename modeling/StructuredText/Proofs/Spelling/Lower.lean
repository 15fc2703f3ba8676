import StructuredText.Proofs.Lowering.Limit
import StructuredText.Proofs.Spelling.Check

/-!
# Lowering a folded library

Generated code holds the generated names only, which do not show the case of a name.  So a
folded tree is lowered to the very code that the tree is lowered to, and fails where the
tree fails.
-/

set_option autoImplicit false

namespace StructuredText

/-! ## Steps of lowering -/

namespace Lower

variable {α β α' β' : Type}

def folded (change : α → α') (step : Lower α) : Lower α' := fun state =>
  foldedResult (fun result => (change result.1, result.2)) (step state)

theorem folded_bind {change : α → α'} {change' : β → β'} {first : Lower α} {first' : Lower α'}
    {next : α → Lower β} {next' : α' → Lower β'} (firstSo : first' = folded change first)
    (nextSo : ∀ value, next' (change value) = folded change' (next value)) :
    (first' >>= next') = folded change' (first >>= next) := by
  funext state
  refine foldedResult_bind (congrFun firstSo state) fun result => ?_
  exact congrFun (nextSo result.1) result.2

@[simp] theorem folded_pure (change : α → α') (value : α) :
    folded change (pure value) = pure (change value) := rfl

theorem folded_lift {change : α → α'} {result : Except Fault α} {result' : Except Fault α'}
    (same : result' = foldedResult change result) :
    (liftM result' : Lower α') = folded change (liftM result) := by
  funext state
  rw [same]
  cases result <;> rfl

theorem folded_need {change : α → α'} (fault : Fault) {value : Option α} {value' : Option α'}
    (same : value' = value.map change) :
    need fault.folded value' = folded change (need fault value) := by
  rw [same]
  cases value <;> rfl

theorem folded_nextCall : nextCall = folded id nextCall := rfl

theorem folded_nextLoop : nextLoop = folded id nextLoop := rfl

theorem folded_jump (loop : Nat) : jump loop = folded id (jump loop) := rfl

theorem folded_exit? (loop : Nat) : exit? loop = folded id (exit? loop) := rfl

theorem folded_addHelper (helper : Code.Helper) : addHelper helper = folded id (addHelper helper) :=
  rfl

theorem folded_switch (on : Bool) : switch on = folded id (switch on) := rfl

end Lower

def Site.folded (site : Site) : Site :=
  { site with context := site.context.folded, scope := site.scope.folded }

@[simp] theorem Site.context_folded (site : Site) :
    site.folded.context = site.context.folded := rfl

@[simp] theorem Site.scope_folded (site : Site) : site.folded.scope = site.scope.folded := rfl

@[simp] theorem Site.style_folded (site : Site) : site.folded.style = site.style := rfl

@[simp] theorem Site.unit_folded (site : Site) : site.folded.unit = site.unit := rfl

def Destination.folded (destination : Destination) : Destination :=
  { place := Lower.folded id destination.place
    type := foldedResult DataType.folded destination.type }

def Supply.folded (supply : Supply) : Supply :=
  { value := supply.value.map (Lower.folded id)
    destination := supply.destination.map Destination.folded }

/-! ## Constants and operators -/

theorem Fault.folded_of_isInternal {fault : Fault} (isInternal : fault.problem.isInternal = true) :
    fault.folded = fault := by
  cases fault <;> first | rfl | cases isInternal

theorem foldedResult_of_limit {α : Type} {result : Except Fault α}
    (fails : FailsOnly (Fault.IsLimit []) result) : foldedResult id result = result := by
  cases failed : result with
  | ok value => rfl
  | error fault =>
      have isLimit := fails fault failed
      exact congrArg Except.error
        (Fault.folded_of_isInternal (Fault.IsLimit.problem_of_limit isLimit).1)

namespace Code.Literal

theorem folded_string (value : CharString) : foldedResult id (string value) = string value :=
  foldedResult_of_limit (string_failsOnly value)

theorem folded_constant (value : Constant) :
    foldedResult id (constant value) = constant value :=
  foldedResult_of_limit (constant_failsOnly value)

theorem initial_folded : ∀ type : DataType,
    initial type.folded = foldedResult id (initial type)
  | .elementary type => by
      rw [DataType.folded, initial]
      exact (foldedResult_of_limit (elementaryInitial_failsOnly type)).symm
  | .synonym name base => by
      rw [DataType.folded, initial, initial]
      exact initial_folded base
  | .enumeration name values => by
      rw [DataType.folded]
      cases values <;> simp [initial, foldedResult, enumerated, Fault.folded]
  | .intLiteral | .realLiteral | .subrange .. | .array .. | .record .. | .functionBlock _ => by
      simp [DataType.folded, initial, foldedResult, Fault.folded, DataType.cName]

@[simp] theorem enumerated_folded (type : String) (value : Ident) :
    enumerated type value.folded = enumerated type value := by
  simp [enumerated]

end Code.Literal

@[simp] theorem Code.Expr.checked_folded (type : DataType) (value : Code.Expr) :
    value.checked type.folded = value.checked type := by
  simp [Code.Expr.checked]

@[simp] theorem Argument.isNegated_folded (arguments : List Argument) (name : Ident) :
    Argument.isNegated (Argument.foldedList arguments) name.folded =
      Argument.isNegated arguments name := by
  rw [Argument.foldedList_eq, Argument.isNegated, Argument.isNegated, List.any_map]
  congr 1
  funext argument
  cases argument <;> simp [Argument.folded]

theorem CompareOp.lower_folded (op : CompareOp) (leftType rightType : DataType)
    (left right : Code.Expr) :
    op.lower leftType.folded rightType.folded left right =
      foldedResult id (op.lower leftType rightType left right) := by
  cases op with
  | or | and => simp [CompareOp.lower, foldedResult]
  | xor =>
      simp only [CompareOp.lower, DataType.isBool_folded]
      split <;> rfl
  | eq | ne | lt | gt | le | ge =>
      simp only [CompareOp.lower, CompareOp.relation?, DataType.isTime_folded,
        DataType.isDate_folded, DataType.isString_folded, DataType.resolved_folded,
        DataType.cName_folded]
      split <;> rfl

@[simp] theorem ArithOp.lower_folded (op : ArithOp) (leftType rightType : DataType)
    (left right : Code.Expr) :
    op.lower leftType.folded rightType.folded left right =
      op.lower leftType rightType left right := by
  cases op <;> simp [ArithOp.lower]

@[simp] theorem UnaryOp.lower_folded (op : UnaryOp) (type : DataType) (term : Code.Expr) :
    op.lower type.folded term = op.lower type term := by
  cases op <;> simp [UnaryOp.lower]

@[simp] theorem VariableEntry.family_folded (entry : VariableEntry) :
    entry.folded.family = entry.family := by
  simp [VariableEntry.family, VariableEntry.folded]

/-! ## Calls -/

theorem BoundParameter.supply?_folded (bound : BoundParameter) (supplies : List Supply) :
    bound.folded.supply? (supplies.map Supply.folded) =
      (bound.supply? supplies).map Supply.folded := by
  unfold BoundParameter.supply? BoundParameter.folded
  rcases bound.actual with _ | ⟨index, value⟩ | ⟨index, target⟩ <;> simp [Actual.folded]

theorem Parameter.defaultValue_folded (parameter : Parameter) :
    parameter.folded.defaultValue = foldedResult id parameter.defaultValue := by
  unfold Parameter.defaultValue
  rw [Parameter.default_folded]
  cases parameter.default with
  | some value => exact (Code.Literal.folded_constant value).symm
  | none => exact Code.Literal.initial_folded parameter.type

theorem BoundParameter.lowerInput_folded (bound : BoundParameter) (supplies : List Supply) :
    bound.folded.lowerInput (supplies.map Supply.folded) =
      Lower.folded id (bound.lowerInput supplies) := by
  have supplied : (bound.folded.supply? (supplies.map Supply.folded)).bind Supply.value =
      ((bound.supply? supplies).bind Supply.value).map (Lower.folded id) := by
    rw [BoundParameter.supply?_folded]
    cases bound.supply? supplies <;> rfl
  unfold BoundParameter.lowerInput
  rw [bound.actual_folded, supplied]
  cases bound.actual with
  | none =>
      exact Lower.folded_bind (Lower.folded_lift bound.parameter.defaultValue_folded)
        fun value => rfl
  | some actual => cases (bound.supply? supplies).bind Supply.value <;> rfl

theorem BoundParameter.destination_folded (bound : BoundParameter) (supplies : List Supply) :
    (bound.folded.supply? (supplies.map Supply.folded)).bind Supply.destination =
      ((bound.supply? supplies).bind Supply.destination).map Destination.folded := by
  rw [BoundParameter.supply?_folded]
  cases bound.supply? supplies <;> rfl

theorem BoundParameter.lowerDestination_folded (bound : BoundParameter) (supplies : List Supply) :
    bound.folded.lowerDestination (supplies.map Supply.folded) =
      Lower.folded (Option.map Destination.folded) (bound.lowerDestination supplies) := by
  unfold BoundParameter.lowerDestination
  rw [bound.actual_folded, bound.destination_folded supplies]
  cases bound.actual with
  | none => rfl
  | some actual => cases (bound.supply? supplies).bind Supply.destination <;> rfl

theorem CallParts.addDestination_folded (parts : CallParts) (arguments : List Argument)
    (bound : BoundParameter) (destination : Destination) :
    parts.addDestination (Argument.foldedList arguments) bound.folded destination.folded =
      Lower.folded id (parts.addDestination arguments bound destination) := by
  have place : destination.folded.place = Lower.folded id destination.place := rfl
  have type : destination.folded.type = foldedResult DataType.folded destination.type := rfl
  unfold CallParts.addDestination
  simp only [BoundParameter.parameter_folded, Parameter.direction_folded, Parameter.name_folded,
    Parameter.type_folded, Argument.isNegated_folded, BoundParameter.cName_folded]
  cases bound.parameter.direction with
  | inOut =>
      refine Lower.folded_bind place fun start => ?_
      refine Lower.folded_bind (Lower.folded_pure id _).symm fun initial => ?_
      refine Lower.folded_bind (Lower.folded_lift type) fun type => ?_
      refine Lower.folded_bind place fun place => ?_
      simp
  | input | output | external =>
      refine Lower.folded_bind (Lower.folded_lift (Code.Literal.initial_folded _)) fun start => ?_
      refine Lower.folded_bind (Lower.folded_pure id _).symm fun initial => ?_
      refine Lower.folded_bind (Lower.folded_lift type) fun type => ?_
      refine Lower.folded_bind place fun place => ?_
      simp

theorem CallParts.add_folded (parts : CallParts) (isIndirect : Bool) (arguments : List Argument)
    (supplies : List Supply) (bound : BoundParameter) :
    parts.add isIndirect (Argument.foldedList arguments) (supplies.map Supply.folded)
        bound.folded =
      Lower.folded id (parts.add isIndirect arguments supplies bound) := by
  unfold CallParts.add
  simp only [BoundParameter.parameter_folded, Parameter.direction_folded, Parameter.name_folded,
    Parameter.type_folded, BoundParameter.cName_folded, DataType.cName_folded]
  cases bound.parameter.direction with
  | input =>
      refine Lower.folded_bind (bound.lowerInput_folded supplies) fun value => ?_
      simp
  | output | inOut =>
      refine Lower.folded_bind (bound.lowerDestination_folded supplies) fun destination => ?_
      cases destination with
      | none => cases isIndirect <;> rfl
      | some destination =>
          cases isIndirect with
          | true => exact CallParts.addDestination_folded parts arguments bound destination
          | false => exact Lower.folded_bind rfl fun place => rfl
  | external => rfl

theorem CallParts.addAll_folded (isIndirect : Bool) (count : Nat) (arguments : List Argument)
    (supplies : List Supply) (bounds : List BoundParameter) :
    ∀ (isCounted : Bool) (parts : CallParts),
      CallParts.addAll isIndirect count (Argument.foldedList arguments)
          (supplies.map Supply.folded) isCounted parts (bounds.map BoundParameter.folded) =
        Lower.folded id
          (CallParts.addAll isIndirect count arguments supplies isCounted parts bounds) := by
  induction bounds with
  | nil => exact fun _ _ => rfl
  | cons bound bounds ih =>
      intro isCounted parts
      rw [List.map_cons, CallParts.addAll, CallParts.addAll]
      refine Lower.folded_bind (CallParts.add_folded ..) fun parts => ?_
      exact ih _ parts

theorem CallResolution.lower_folded (site : Site) (depth : Nat) (resolution : CallResolution)
    (function : Ident) (arguments : List Argument) (supplies : List Supply) :
    resolution.folded.lower site.folded depth function.folded (Argument.foldedList arguments)
        (supplies.map Supply.folded) =
      Lower.folded id (resolution.lower site depth function arguments supplies) := by
  unfold CallResolution.lower
  rw [site.style_folded]
  simp only [CallResolution.signature_folded, CallResolution.count_folded,
    CallResolution.isOverloaded_folded, Site.unit_folded,
    FunctionSignature.hasExtensible_folded, FunctionSignature.cName_folded,
    FunctionSignature.returnType_folded, DataType.cName_folded]
  split
  · rfl
  · refine Lower.folded_bind (Lower.folded_lift (Binding.make_folded ..)) fun binding => ?_
    rw [Binding.hasDestination_folded]
    by_cases indirect : (decide (site.style = .accessor) && binding.hasDestination) = true
    · simp only [indirect, if_true]
      refine Lower.folded_bind Lower.folded_nextCall fun number => ?_
      refine Lower.folded_bind (CallParts.addAll_folded ..) fun parts => ?_
      exact Lower.folded_bind (Lower.folded_addHelper _) fun done => rfl
    · simp only [indirect]
      exact Lower.folded_bind (CallParts.addAll_folded ..) fun parts => rfl

/-! ## Expressions -/

section Expr

variable (site : Site)

theorem Site.typeOf_folded (expr : Expr) :
    site.folded.typeOf expr.folded = Lower.folded DataType.folded (site.typeOf expr) :=
  Lower.folded_need (.internal .typeNotResolved {})
    (Expr.type?_folded site.context site.scope expr)

theorem Site.enumerated_folded (value : EnumValue) :
    site.folded.enumerated value.folded = foldedResult id (site.enumerated value) := by
  unfold Site.enumerated
  rw [site.context_folded, Context.enumeration?_folded]
  cases site.context.enumeration? value with
  | none => rfl
  | some type => simp [foldedResult, EnumValue.folded]

mutual

theorem Reference.lowerPath_folded (depth : Nat) : ∀ reference : Reference,
    reference.folded.lowerPath site.folded depth =
      Lower.folded id (reference.lowerPath site depth)
  | .named name => by simp [Reference.folded, Reference.lowerPath]
  | .field record name => by
      rw [Reference.folded, Reference.lowerPath, Reference.lowerPath]
      refine Lower.folded_bind (Reference.lowerPath_folded depth record) fun path => ?_
      simp
  | .element array subscripts => by
      rw [Reference.folded, Reference.lowerPath, Reference.lowerPath]
      refine Lower.folded_bind (Reference.lowerPath_folded depth array) fun path => ?_
      exact Lower.folded_bind (Expr.lowerSubscripts_folded depth array 0 subscripts)
        fun values => rfl

theorem Expr.lowerSubscripts_folded (depth : Nat) (array : Reference) :
    ∀ (index : Nat) (subscripts : List Expr),
      Expr.lowerSubscripts site.folded depth array.folded index (Expr.foldedList subscripts) =
        Lower.folded id (Expr.lowerSubscripts site depth array index subscripts)
  | index, [] => by simp [Expr.foldedList, Expr.lowerSubscripts]
  | index, subscript :: rest => by
      rw [Expr.foldedList, Expr.lowerSubscripts, Expr.lowerSubscripts]
      refine Lower.folded_bind
        (Lower.folded_lift (site.context.dimension_folded site.scope array index))
        fun dimension => ?_
      refine Lower.folded_bind (Expr.lower_folded depth subscript) fun value => ?_
      exact Lower.folded_bind (Expr.lowerSubscripts_folded depth array (index + 1) rest)
        fun values => rfl

theorem Variable.lower_folded (depth : Nat) : ∀ source : Variable,
    source.folded.lower site.folded depth = Lower.folded id (source.lower site depth)
  | .direct address => by
      rw [Variable.folded, Variable.lower, Variable.lower]
      rfl
  | .symbolic reference => by
      rw [Variable.folded, Variable.lower, Variable.lower, Reference.span_folded,
        Reference.root_folded, Ident.upper_folded]
      refine Lower.folded_bind
        (Lower.folded_need (.internal .variableUndefined reference.span)
          (site.scope.entryFor?_folded reference)) fun entry => ?_
      have path := Reference.lowerPath_folded depth reference
      have compound : entry.folded.type.isCompound = entry.type.isCompound :=
        entry.type.isCompound_folded
      simp only [Site.style_folded, compound, VariableEntry.family_folded]
      cases site.style with
      | direct => exact Lower.folded_bind path fun path => rfl
      | accessor =>
          by_cases isCompound : entry.type.isCompound = true
          · simp only [isCompound, if_true]
            exact Lower.folded_bind path fun path => rfl
          · simp only [isCompound]
            rfl

theorem Expr.lower_folded (depth : Nat) : ∀ expr : Expr,
    expr.folded.lower site.folded depth = Lower.folded id (expr.lower site depth)
  | .compare op left right => by
      rw [Expr.folded, Expr.lower, Expr.lower]
      refine Lower.folded_bind (site.typeOf_folded left) fun leftType => ?_
      refine Lower.folded_bind (site.typeOf_folded right) fun rightType => ?_
      refine Lower.folded_bind (Expr.lower_folded depth left) fun left' => ?_
      refine Lower.folded_bind (Expr.lower_folded depth right) fun right' => ?_
      exact Lower.folded_lift (op.lower_folded leftType rightType left' right')
  | .arith op left right => by
      rw [Expr.folded, Expr.lower, Expr.lower]
      refine Lower.folded_bind (site.typeOf_folded left) fun leftType => ?_
      refine Lower.folded_bind (site.typeOf_folded right) fun rightType => ?_
      refine Lower.folded_bind (Expr.lower_folded _ left) fun left' => ?_
      refine Lower.folded_bind (Expr.lower_folded _ right) fun right' => ?_
      simp
  | .unary op term => by
      rw [Expr.folded, Expr.lower, Expr.lower]
      refine Lower.folded_bind (site.typeOf_folded term) fun type => ?_
      refine Lower.folded_bind (Expr.lower_folded depth term) fun term' => ?_
      simp
  | .group inner => by
      rw [Expr.folded, Expr.lower, Expr.lower]
      exact Expr.lower_folded depth inner
  | .const value => by
      rw [Expr.folded, Expr.lower]
      exact Lower.folded_bind (Lower.folded_lift (Code.Literal.folded_constant value).symm)
        fun text => rfl
  | .enumerated value => by
      rw [Expr.folded, Expr.lower, Expr.lower]
      exact Lower.folded_bind (Lower.folded_lift (site.enumerated_folded value)) fun text => rfl
  | .var source => by
      rw [Expr.folded, Expr.lower, Expr.lower]
      exact Lower.folded_bind (Variable.lower_folded depth source) fun place => rfl
  | .call function arguments => by
      rw [Expr.folded, Expr.lower, Expr.lower]
      refine Lower.folded_bind
        (Lower.folded_need (.internal .callNotResolved function.span)
          (CallResolution.of?_folded site.context site.scope function arguments))
        fun resolution => ?_
      rw [Argument.supplies_folded (depth + 1) arguments]
      exact CallResolution.lower_folded ..

theorem Expr.destination?_folded (depth : Nat) : ∀ expr : Expr,
    expr.folded.destination? site.folded depth =
      (expr.destination? site depth).map Destination.folded
  | .var source => by
      simp [Expr.folded, Expr.destination?, Destination.folded, Variable.lower_folded depth source]
  | .compare .. | .arith .. | .unary .. | .group _ | .const _ | .enumerated _ | .call .. => by
      simp [Expr.folded, Expr.destination?]

theorem Argument.supplies_folded (depth : Nat) : ∀ arguments : List Argument,
    Argument.supplies site.folded depth (Argument.foldedList arguments) =
      (Argument.supplies site depth arguments).map Supply.folded
  | [] => by simp [Argument.foldedList, Argument.supplies]
  | .positional value :: rest => by
      simp [Argument.foldedList, Argument.folded, Argument.supplies, Supply.folded,
        Expr.lower_folded depth value, Expr.destination?_folded depth value,
        Argument.supplies_folded depth rest]
  | .named name value :: rest => by
      simp [Argument.foldedList, Argument.folded, Argument.supplies, Supply.folded,
        Expr.lower_folded depth value, Expr.destination?_folded depth value,
        Argument.supplies_folded depth rest]
  | .output isNegated source target :: rest => by
      simp [Argument.foldedList, Argument.folded, Argument.supplies, Supply.folded,
        Destination.folded, Variable.lower_folded depth target,
        Argument.supplies_folded depth rest]

end

end Expr

/-! ## Invocations -/

theorem InstanceAccess.copiesIn_folded (access : InstanceAccess) (supplies : List Supply) :
    ∀ bounds : List BoundParameter,
      access.copiesIn (supplies.map Supply.folded) (bounds.map BoundParameter.folded) =
        Lower.folded id (access.copiesIn supplies bounds)
  | [] => rfl
  | bound :: rest => by
      have ih := InstanceAccess.copiesIn_folded access supplies rest
      simp only [List.map_cons, InstanceAccess.copiesIn, BoundParameter.actual_folded,
        BoundParameter.parameter_folded, Parameter.isInput_folded, Parameter.type_folded,
        BoundParameter.cName_folded, Code.Expr.checked_folded]
      rcases bound.actual with _ | ⟨index, value⟩ | ⟨index, target⟩
      · exact ih
      · by_cases given : bound.parameter.isInput = true
        · simp only [Option.map_some, Actual.folded, given, if_true]
          refine Lower.folded_bind (bound.lowerInput_folded supplies) fun value => ?_
          exact Lower.folded_bind ih fun stores => rfl
        · simp only [Option.map_some, Actual.folded, given]
          exact ih
      · exact ih

theorem BoundParameter.receiver?_folded (bound : BoundParameter) (supplies : List Supply) :
    bound.folded.receiver? (supplies.map Supply.folded) =
      (bound.receiver? supplies).map Destination.folded := by
  unfold BoundParameter.receiver?
  rw [bound.parameter_folded, Parameter.direction_folded, bound.actual_folded,
    bound.destination_folded supplies]
  rcases bound.actual with _ | ⟨index, value⟩ | ⟨index, target⟩ <;>
    cases bound.parameter.direction <;> rfl

theorem InstanceAccess.copiesOut_folded (access : InstanceAccess) (arguments : List Argument)
    (supplies : List Supply) : ∀ bounds : List BoundParameter,
      access.copiesOut (Argument.foldedList arguments) (supplies.map Supply.folded)
          (bounds.map BoundParameter.folded) =
        Lower.folded id (access.copiesOut arguments supplies bounds)
  | [] => rfl
  | bound :: rest => by
      have ih := InstanceAccess.copiesOut_folded access arguments supplies rest
      simp only [List.map_cons, InstanceAccess.copiesOut, bound.receiver?_folded supplies,
        BoundParameter.parameter_folded, Parameter.name_folded, BoundParameter.cName_folded,
        Argument.isNegated_folded]
      cases bound.receiver? supplies with
      | none => exact ih
      | some receiver =>
          refine Lower.folded_bind (Lower.folded_lift rfl) fun type => ?_
          refine Lower.folded_bind rfl fun place => ?_
          refine Lower.folded_bind ih fun stores => ?_
          simp

section Stmt

variable (site : Site)

theorem Site.instanceAccess_folded (block : Ident) :
    site.folded.instanceAccess block.folded = site.instanceAccess block := by
  unfold Site.instanceAccess
  rw [site.scope_folded, Scope.lookup_folded, Ident.upper_folded]
  cases site.scope.lookup block <;> rfl

theorem Site.blockSignature?_folded (block : Ident) :
    site.folded.blockSignature? block.folded =
      (site.blockSignature? block).map BlockSignature.folded := by
  unfold Site.blockSignature?
  rw [site.scope_folded, instanceType_folded, site.context_folded, Context.functions_folded]
  cases instanceType site.scope block with
  | error fault => rfl
  | ok type => exact site.context.functions.block?_folded type

theorem Site.lowerInvoke_folded (depth : Nat) (block : Ident) (arguments : List Argument) :
    site.folded.lowerInvoke depth block.folded (Argument.foldedList arguments) =
      Lower.folded id (site.lowerInvoke depth block arguments) := by
  unfold Site.lowerInvoke
  refine Lower.folded_bind
    (Lower.folded_need (.internal .callNotResolved block.span) (site.blockSignature?_folded block))
    fun signature => ?_
  refine Lower.folded_bind (Lower.folded_lift (Binding.make_folded ..)) fun binding => ?_
  rw [site.instanceAccess_folded, Argument.supplies_folded]
  refine Lower.folded_bind (InstanceAccess.copiesIn_folded ..) fun before => ?_
  refine Lower.folded_bind (InstanceAccess.copiesOut_folded ..) fun after => ?_
  simp [BlockSignature.folded]

/-! ## Statements -/

theorem Site.lowerStep_folded (depth : Nat) (step : Option Expr) :
    site.folded.lowerStep depth (step.map Expr.folded) =
      Lower.folded id (site.lowerStep depth step) := by
  cases step with
  | none => rfl
  | some step =>
      refine Lower.folded_bind (step.lower_folded site depth) fun value => ?_
      simp

theorem Site.countingLoop_folded (type : DataType) (control : Code.Place)
    (first last : Code.Expr) (step : Code.Step) (body : List Code.Stmt) (exit : Option Nat) :
    site.folded.countingLoop type.folded control first last step body exit =
      site.countingLoop type control first last step body exit := by
  simp only [Site.countingLoop, Site.style_folded, Code.Expr.checked_folded]

theorem CaseLabel.lowerSingles_folded : ∀ labels : List CaseLabel,
    CaseLabel.lowerSingles site.folded (labels.map CaseLabel.folded) =
      foldedResult id (CaseLabel.lowerSingles site labels)
  | [] => rfl
  | .range _ :: rest => CaseLabel.lowerSingles_folded rest
  | .integer _ :: rest =>
      foldedResult_bind (CaseLabel.lowerSingles_folded rest) fun _ => rfl
  | .enumerated value :: rest =>
      foldedResult_bind (site.enumerated_folded value) fun _ =>
        foldedResult_bind (CaseLabel.lowerSingles_folded rest) fun _ => rfl

theorem CaseLabel.lowerRanges_folded (labels : List CaseLabel) :
    CaseLabel.lowerRanges (labels.map CaseLabel.folded) = CaseLabel.lowerRanges labels := by
  unfold CaseLabel.lowerRanges
  rw [List.filterMap_map]
  congr 1
  funext label
  cases label <;> rfl

mutual

theorem Stmt.lower_folded (depth : Nat) (around : List Breakable) : ∀ stmt : Stmt,
    stmt.folded.lower site.folded depth around = Lower.folded id (stmt.lower site depth around)
  | .assign target value => by
      rw [Stmt.folded, Stmt.lower, Stmt.lower]
      refine Lower.folded_bind
        (Lower.folded_lift (site.context.variableType_folded site.scope target)) fun type => ?_
      refine Lower.folded_bind (value.lower_folded site depth) fun value => ?_
      refine Lower.folded_bind (target.lower_folded site depth) fun place => ?_
      simp
  | .invoke block arguments => by
      rw [Stmt.folded, Stmt.lower, Stmt.lower]
      exact site.lowerInvoke_folded depth block arguments
  | .ifElse condition body elseIfs otherwise => by
      rw [Stmt.folded, Stmt.lower, Stmt.lower]
      refine Lower.folded_bind (condition.lower_folded site depth) fun condition => ?_
      refine Lower.folded_bind (Stmt.lowerList_folded _ around body) fun body => ?_
      refine Lower.folded_bind (ElseIf.lowerList_folded depth around elseIfs) fun elseIfs => ?_
      exact Lower.folded_bind (Stmt.lowerList_folded _ around otherwise) fun otherwise => rfl
  | .select selector groups otherwise => by
      rw [Stmt.folded, Stmt.lower, Stmt.lower]
      refine Lower.folded_bind (site.typeOf_folded selector) fun type => ?_
      refine Lower.folded_bind (selector.lower_folded site depth) fun selector => ?_
      refine Lower.folded_bind (CaseGroup.lowerCases_folded _ _ groups) fun cases => ?_
      refine Lower.folded_bind (CaseGroup.lowerRanges_folded _ _ groups) fun ranges => ?_
      refine Lower.folded_bind (Stmt.lowerList_folded _ _ otherwise) fun otherwise => ?_
      simp
  | .forTo control first last step body => by
      rw [Stmt.folded, Stmt.lower, Stmt.lower]
      refine Lower.folded_bind Lower.folded_nextLoop fun number => ?_
      rw [← Variable.folded_named]
      refine Lower.folded_bind
        (Lower.folded_lift (site.context.variableType_folded site.scope _)) fun type => ?_
      refine Lower.folded_bind (first.lower_folded site depth) fun first => ?_
      refine Lower.folded_bind (last.lower_folded site depth) fun last => ?_
      refine Lower.folded_bind (site.lowerStep_folded depth step) fun step => ?_
      refine Lower.folded_bind (Variable.lower_folded site depth _) fun place => ?_
      refine Lower.folded_bind (Stmt.lowerList_folded _ _ body) fun body => ?_
      refine Lower.folded_bind (Lower.folded_exit? number) fun exit => ?_
      simp [Site.countingLoop_folded]
  | .whileDo condition body => by
      rw [Stmt.folded, Stmt.lower, Stmt.lower]
      refine Lower.folded_bind (condition.lower_folded site depth) fun condition => ?_
      refine Lower.folded_bind Lower.folded_nextLoop fun number => ?_
      refine Lower.folded_bind (Stmt.lowerList_folded _ _ body) fun body => ?_
      exact Lower.folded_bind (Lower.folded_exit? number) fun exit => rfl
  | .repeatUntil body condition => by
      rw [Stmt.folded, Stmt.lower, Stmt.lower]
      refine Lower.folded_bind Lower.folded_nextLoop fun number => ?_
      refine Lower.folded_bind (Stmt.lowerList_folded _ _ body) fun body => ?_
      refine Lower.folded_bind (condition.lower_folded site depth) fun condition => ?_
      exact Lower.folded_bind (Lower.folded_exit? number) fun exit => rfl
  | .leaveUnit => by simp [Stmt.folded, Stmt.lower]
  | .leaveLoop => by
      simp only [Stmt.folded, Stmt.lower]
      cases Breakable.jumpTarget? false around with
      | none => rfl
      | some loop => exact Lower.folded_bind (Lower.folded_jump loop) fun _ => rfl
  | .pragma directive => by
      simp only [Stmt.folded, Stmt.lower]
      cases directive with
      | code text => rfl
      | enable => exact Lower.folded_bind (Lower.folded_switch true) fun _ => rfl
      | disable => exact Lower.folded_bind (Lower.folded_switch false) fun _ => rfl

theorem Stmt.lowerList_folded (depth : Nat) (around : List Breakable) : ∀ stmts : List Stmt,
    Stmt.lowerList site.folded depth around (Stmt.foldedList stmts) =
      Lower.folded id (Stmt.lowerList site depth around stmts)
  | [] => by simp [Stmt.foldedList, Stmt.lowerList]
  | stmt :: stmts => by
      rw [Stmt.foldedList, Stmt.lowerList, Stmt.lowerList]
      refine Lower.folded_bind (Stmt.lower_folded depth around stmt) fun first => ?_
      exact Lower.folded_bind (Stmt.lowerList_folded depth around stmts) fun rest => rfl

theorem ElseIf.lowerList_folded (depth : Nat) (around : List Breakable) :
    ∀ elseIfs : List ElseIf,
      ElseIf.lowerList site.folded depth around (ElseIf.foldedList elseIfs) =
        Lower.folded id (ElseIf.lowerList site depth around elseIfs)
  | [] => by simp [ElseIf.foldedList, ElseIf.lowerList]
  | .mk condition body :: elseIfs => by
      rw [ElseIf.foldedList, ElseIf.lowerList, ElseIf.lowerList]
      refine Lower.folded_bind (condition.lower_folded site depth) fun condition => ?_
      refine Lower.folded_bind (Stmt.lowerList_folded _ around body) fun body => ?_
      exact Lower.folded_bind (ElseIf.lowerList_folded depth around elseIfs) fun rest => rfl

theorem CaseGroup.lowerCases_folded (depth : Nat) (around : List Breakable) :
    ∀ groups : List CaseGroup,
      CaseGroup.lowerCases site.folded depth around (CaseGroup.foldedList groups) =
        Lower.folded id (CaseGroup.lowerCases site depth around groups)
  | [] => by simp [CaseGroup.foldedList, CaseGroup.lowerCases]
  | .mk labels body :: groups => by
      rw [CaseGroup.foldedList, CaseGroup.lowerCases, CaseGroup.lowerCases]
      refine Lower.folded_bind (Lower.folded_lift (CaseLabel.lowerSingles_folded site labels))
        fun singles => ?_
      cases singles with
      | nil => exact CaseGroup.lowerCases_folded depth around groups
      | cons first singles =>
          refine Lower.folded_bind (Stmt.lowerList_folded depth around body) fun body => ?_
          exact Lower.folded_bind (CaseGroup.lowerCases_folded depth around groups)
            fun rest => rfl

theorem CaseGroup.lowerRanges_folded (depth : Nat) (around : List Breakable) :
    ∀ groups : List CaseGroup,
      CaseGroup.lowerRanges site.folded depth around (CaseGroup.foldedList groups) =
        Lower.folded id (CaseGroup.lowerRanges site depth around groups)
  | [] => by simp [CaseGroup.foldedList, CaseGroup.lowerRanges]
  | .mk labels body :: groups => by
      rw [CaseGroup.foldedList, CaseGroup.lowerRanges, CaseGroup.lowerRanges,
        CaseLabel.lowerRanges_folded]
      cases CaseLabel.lowerRanges labels with
      | nil => exact CaseGroup.lowerRanges_folded depth around groups
      | cons first ranges =>
          refine Lower.folded_bind (Stmt.lowerList_folded depth around body) fun body => ?_
          exact Lower.folded_bind (CaseGroup.lowerRanges_folded depth around groups)
            fun rest => rfl

end

end Stmt

end StructuredText
