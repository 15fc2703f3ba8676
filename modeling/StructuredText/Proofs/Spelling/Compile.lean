import StructuredText.Compile
import StructuredText.Proofs.Spelling.Lower
import StructuredText.Tree.Build

/-!
# The case of identifiers does not matter

Two libraries are equal up to the case of their identifiers if they are equal when folded.
A folded library compiles to what the library itself compiles to, so two such libraries
compile to one text, or fail with problems of the same kinds in the same order.
-/

set_option autoImplicit false

namespace StructuredText

/-! ## Declared types -/

namespace DeclaredTypes

def folded (declared : DeclaredTypes) : DeclaredTypes :=
  { declared with arrays := declared.arrays.map Ident.foldedArray }

theorem contains_foldedArray (arrays : List Ident) (name : Ident) :
    (arrays.map Ident.foldedArray).contains name.foldedArray = arrays.contains name := by
  induction arrays with
  | nil => rfl
  | cons first arrays ih => simp [ih]

theorem addArray_folded (declared : DeclaredTypes) (name : Ident) (dimensions : List Dimension)
    (element : DataType) :
    declared.folded.addArray name.foldedArray dimensions element.folded =
      (declared.addArray name dimensions element).folded := by
  have known : declared.folded.arrays.contains name.foldedArray = declared.arrays.contains name :=
    contains_foldedArray declared.arrays name
  unfold addArray
  rw [known]
  by_cases isKnown : declared.arrays.contains name = true
  · simp only [isKnown, if_true]
  · simp [isKnown, folded]

theorem addInline_folded : ∀ (type : DataType) (declared : DeclaredTypes),
    declared.folded.addInline type.folded = (declared.addInline type).folded
  | .array name dimensions element, declared => by
      rw [DataType.folded, addInline, addInline, Ident.startsWith_foldedArray]
      by_cases isInline : name.name.startsWith DataType.inlineMark = true
      · simp only [isInline, if_true]
        rw [addInline_folded element, addArray_folded]
      · simp only [isInline]
        rfl
  | .elementary _, _ | .intLiteral, _ | .realLiteral, _ | .synonym .., _ | .subrange .., _
  | .enumeration .., _ | .record .., _ | .functionBlock _, _ => by
      simp [DataType.folded, addInline]

theorem foldl_addInline_folded (fields : List (Ident × DataType)) (declared : DeclaredTypes) :
    (DataType.foldedFields fields).foldl (fun declared field => declared.addInline field.2)
        declared.folded =
      (fields.foldl (fun declared field => declared.addInline field.2) declared).folded := by
  induction fields generalizing declared with
  | nil => rfl
  | cons field fields ih =>
      rw [DataType.foldedFields, List.foldl_cons, List.foldl_cons, addInline_folded]
      exact ih _

def addType (declared : DeclaredTypes) (name : Ident) : DataType → Except Fault DeclaredTypes
  | .synonym _ base => .ok (declared.add (.derived name.upper base.cName))
  | .subrange _ base lower upper =>
      .ok (declared.add (.subrange name.upper base.cName lower upper))
  | .enumeration _ values =>
      .ok (declared.add (.enumeration name.upper (values.map Ident.upper)))
  | .array arrayName dimensions element =>
      .ok ((declared.addInline element).addArray arrayName dimensions element)
  | .record _ fields =>
      .ok ((fields.foldl (fun declared field => declared.addInline field.2) declared).add
        (.record name.upper (fields.map fun field => (field.1.upper, field.2.cName))))
  | other => .error (.internalWith .unexpectedNode name.span "type" other.cName)

theorem addDecl_eq_addType (declared : DeclaredTypes) {context : Context} {decl : TypeDecl}
    {type : DataType} (found : context.types.type? decl.name = some type)
    (notString : ∀ name length width, decl ≠ .string name length width) :
    declared.addDecl context decl = declared.addType decl.name type := by
  unfold addDecl
  rw [found]
  cases decl with
  | string name length width => exact absurd rfl (notString name length width)
  | synonym | subrange | enumeration | array | record => cases type <;> rfl

theorem addType_folded (declared : DeclaredTypes) (name : Ident) (type : DataType) :
    declared.folded.addType name.folded type.folded =
      foldedResult folded (declared.addType name type) := by
  cases type with
  | enumeration _ values =>
      simp [DataType.folded, addType, foldedResult, folded, add, Function.comp_def]
  | array arrayName dimensions element =>
      simp only [DataType.folded, addType, addInline_folded, addArray_folded, foldedResult]
  | record _ fields =>
      have names : (DataType.foldedFields fields).map
          (fun field => (field.1.upper, field.2.cName)) =
          fields.map fun field => (field.1.upper, field.2.cName) := by
        simp [DataType.foldedFields_eq, Function.comp_def]
      simp only [DataType.folded, addType, foldl_addInline_folded, names, Ident.upper_folded]
      rfl
  | synonym | subrange => simp [DataType.folded, addType, foldedResult, folded, add]
  | elementary | intLiteral | realLiteral | functionBlock =>
      simp [DataType.folded, addType, foldedResult, Fault.folded, DataType.cName]

theorem addDecl_folded (context : Context) (declared : DeclaredTypes) (decl : TypeDecl) :
    declared.folded.addDecl context.folded decl.folded =
      foldedResult folded (declared.addDecl context decl) := by
  have sameType : context.folded.types.type? decl.folded.name =
      (context.types.type? decl.name).map DataType.folded := by
    rw [TypeDecl.name_folded, Context.types_folded, TypeTable.type?_folded]
  cases found : context.types.type? decl.name with
  | none =>
      rw [found, Option.map_none] at sameType
      unfold addDecl
      rw [found, sameType, TypeDecl.name_folded]
      rfl
  | some type =>
      rw [found, Option.map_some] at sameType
      cases decl with
      | string name length width =>
          unfold addDecl
          rw [found, sameType]
          simp only [TypeDecl.folded]
          cases length.value <;> simp [foldedResult, folded, add, TypeDecl.name, Fault.folded]
      | synonym | subrange | enumeration | array | record =>
          rw [addDecl_eq_addType _ sameType (by simp [TypeDecl.folded]),
            addDecl_eq_addType _ found (by simp), TypeDecl.name_folded, addType_folded]

theorem addDecls_folded (context : Context) (decls : List TypeDecl) :
    ∀ declared : DeclaredTypes,
      addDecls context.folded declared.folded (decls.map TypeDecl.folded) =
        foldedResult folded (addDecls context declared decls) := by
  induction decls with
  | nil => exact fun _ => rfl
  | cons decl decls ih =>
      exact fun declared => foldedResult_bind (addDecl_folded context declared decl) ih

theorem addVariables_folded (context : Context) (vars : List VarDecl) (declared : DeclaredTypes) :
    declared.folded.addVariables context.folded (vars.map VarDecl.folded) =
      (declared.addVariables context vars).folded := by
  unfold addVariables
  induction vars generalizing declared with
  | nil => rfl
  | cons decl vars ih =>
      rw [List.map_cons, List.foldl_cons, List.foldl_cons, Context.typeOf_folded]
      cases context.typeOf decl with
      | error fault => exact ih declared
      | ok type =>
          simp only [foldedResult, addInline_folded]
          exact ih _

end DeclaredTypes

theorem Library.lowerTypes_folded (library : Library) (context : Context) :
    library.folded.lowerTypes context.folded =
      foldedResult id (library.lowerTypes context) := by
  have vars : library.folded.elements.flatMap Element.vars =
      (library.elements.flatMap Element.vars).map VarDecl.folded := by
    simp [Library.folded, List.flatMap_map, List.map_flatMap]
  unfold Library.lowerTypes
  rw [vars, Library.typeDecls_folded]
  refine foldedResult_bind (DeclaredTypes.addDecls_folded context library.typeDecls {})
    fun declared => ?_
  rw [DeclaredTypes.addVariables_folded]
  rfl

/-! ## Variables -/

section Variables

variable (context : Context)

theorem foldedResult_map {result : Except Fault String}
    (same : result = foldedResult id result) :
    result.map some = foldedResult id (result.map some) := by
  cases result with
  | ok value => rfl
  | error fault => exact congrArg Except.error (Except.error.inj same)

theorem VarDecl.statedValue_folded (decl : VarDecl) (type : DataType) :
    decl.folded.statedValue type.folded = foldedResult id (decl.statedValue type) := by
  unfold VarDecl.statedValue
  rw [VarDecl.initializer_folded]
  cases decl.initializer with
  | simple type value =>
      cases value with
      | none => rfl
      | some value => exact foldedResult_map (Code.Literal.folded_constant value).symm
  | string length width value =>
      cases value with
      | none => rfl
      | some value => exact foldedResult_map (Code.Literal.folded_string value).symm
  | enumerated type value =>
      cases value with
      | none => rfl
      | some value => simp [Initializer.folded, EnumValue.folded, foldedResult]
  | functionBlock type => rfl
  | array spec => rfl

theorem VarDecl.initialValue_folded (decl : VarDecl) (type : DataType) :
    decl.folded.initialValue type.folded = foldedResult id (decl.initialValue type) := by
  refine foldedResult_bind (decl.statedValue_folded type) fun stated => ?_
  cases stated with
  | none => exact Code.Literal.initial_folded type
  | some value => rfl

theorem Parameter.formal_folded (parameter : Parameter) :
    parameter.folded.formal = foldedResult id parameter.formal := by
  simp only [Parameter.formal, Parameter.direction_folded, Parameter.type_folded,
    Parameter.name_folded, DataType.cName_folded, Ident.upper_folded, Ident.span_folded]
  cases parameter.direction <;> rfl

theorem VarDecl.lowerLocal_folded (decl : VarDecl) :
    decl.folded.lowerLocal context.folded = foldedResult id (decl.lowerLocal context) := by
  unfold VarDecl.lowerLocal
  rw [VarDecl.name_folded, VarName.ident?_folded, VarDecl.kind_folded]
  cases decl.name.ident? with
  | none => rfl
  | some name =>
      refine foldedResult_bind (context.typeOf_folded decl) fun type => ?_
      simp only [DataType.cName_folded, DataType.isCompound_folded, Ident.upper_folded]
      cases decl.kind with
      | input | external | global | inOut => rfl
      | output | var | temp =>
          by_cases isCompound : type.isCompound = true
          · simp only [isCompound, if_true]
            rfl
          · simp only [isCompound]
            exact foldedResult_bind (decl.initialValue_folded type) fun value => rfl

theorem VarDecl.lowerLocals_folded : ∀ decls : List VarDecl,
    VarDecl.lowerLocals context.folded (decls.map VarDecl.folded) =
      foldedResult id (VarDecl.lowerLocals context decls)
  | [] => rfl
  | decl :: decls =>
      foldedResult_bind (decl.lowerLocal_folded context) fun _ =>
        foldedResult_bind (VarDecl.lowerLocals_folded decls) fun _ => rfl

theorem VarDecl.lowerMember_folded (decl : VarDecl) (name : String) :
    decl.folded.lowerMember context.folded name =
      foldedResult id (decl.lowerMember context name) := by
  unfold VarDecl.lowerMember
  rw [VarDecl.name_folded, VarName.address?_folded, VarDecl.kind_folded,
    VarDecl.qualifier_folded]
  refine foldedResult_bind (context.typeOf_folded decl) fun type => ?_
  simp only [DataType.cName_folded, DataType.isFunctionBlock_folded, DataType.isCompound_folded]
  cases decl.name.address? with
  | some address => exact foldedResult_bind (decl.statedValue_folded type) fun value => rfl
  | none =>
      by_cases isBlock : type.isFunctionBlock = true <;>
        by_cases isCompound : type.isCompound = true <;>
          simp only [isBlock, isCompound, if_true] <;> cases decl.kind <;>
            first
            | rfl
            | exact foldedResult_bind (decl.initialValue_folded type) fun value => rfl

theorem VarDecl.lowerSlots_folded : ∀ decls : List VarDecl,
    VarDecl.lowerSlots context.folded (decls.map VarDecl.folded) =
      foldedResult id (VarDecl.lowerSlots context decls)
  | [] => rfl
  | decl :: decls => by
      have ih := VarDecl.lowerSlots_folded decls
      rw [List.map_cons, VarDecl.lowerSlots, VarDecl.lowerSlots, VarDecl.name_folded,
        VarName.ident?_folded]
      cases decl.name.ident? with
      | none => exact ih
      | some name =>
          simp only [Option.map_some, Ident.upper_folded]
          refine foldedResult_bind (decl.lowerMember_folded context name.upper) fun member => ?_
          exact foldedResult_bind ih fun slots => rfl

end Variables

/-! ## Units -/

section Units

variable (context : Context) (isOn : Bool)

theorem unitScope_folded (outer : Scope) (vars : List VarDecl) :
    unitScope context.folded outer.folded (vars.map VarDecl.folded) =
      foldedResult Scope.folded (unitScope context outer vars) := by
  unfold unitScope
  rw [Scope.folded_push, Scope.declare_folded]
  rcases Scope.declare context outer.push vars with ⟨scope, faults⟩
  cases faults <;> rfl

theorem folded_blockOuterScope : blockOuterScope.folded = blockOuterScope :=
  (Scope.declareImplicit_folded ScopeStack.new.push).symm

theorem functionOuterScope_folded (name : Ident) (returnType : DataType) :
    functionOuterScope name.folded returnType.folded =
      (functionOuterScope name returnType).folded := by
  unfold functionOuterScope
  rw [← Scope.declareResult_folded, folded_blockOuterScope]

theorem Site.lowerBody_folded (site : Site) (body : List Stmt) :
    site.folded.lowerBody isOn (Stmt.foldedList body) =
      foldedResult id (site.lowerBody isOn body) := by
  have statements : (Stmt.lowerList site.folded 1 [] (Stmt.foldedList body)).run { isOn } =
      foldedResult id ((Stmt.lowerList site 1 [] body).run { isOn }) :=
    congrFun (Stmt.lowerList_folded site 1 [] body) { isOn }
  exact foldedResult_bind statements fun lowered => rfl

theorem mapM_formal_folded (parameters : List Parameter) :
    (parameters.map Parameter.folded).mapM Parameter.formal =
      foldedResult id (parameters.mapM Parameter.formal) := by
  induction parameters with
  | nil => rfl
  | cons parameter parameters ih =>
      rw [List.map_cons, List.mapM_cons, List.mapM_cons]
      refine foldedResult_bind parameter.formal_folded fun formal => ?_
      exact foldedResult_bind ih fun formals => rfl

theorem FunctionDecl.lower_folded (signature : FunctionSignature) (decl : FunctionDecl) :
    decl.folded.lower context.folded isOn signature.folded =
      foldedResult id (decl.lower context isOn signature) := by
  have scope : unitScope context.folded
      (functionOuterScope decl.folded.name signature.folded.returnType) decl.folded.vars =
      foldedResult Scope.folded
        (unitScope context (functionOuterScope decl.name signature.returnType) decl.vars) := by
    rw [FunctionDecl.name_folded, signature.returnType_folded, functionOuterScope_folded]
    exact unitScope_folded context _ decl.vars
  unfold FunctionDecl.lower
  refine foldedResult_bind scope fun scope => ?_
  refine foldedResult_bind (mapM_formal_folded signature.parameters) fun formals => ?_
  refine foldedResult_bind (VarDecl.lowerLocals_folded context decl.vars) fun locals => ?_
  refine foldedResult_bind (Code.Literal.initial_folded signature.returnType) fun result => ?_
  let site : Site := { context, scope, style := .direct, unit := decl.name.upper }
  rw [FunctionDecl.name_folded, Ident.upper_folded, Context.functions_folded,
    FunctionTable.isOverloaded_folded, FunctionSignature.cName_folded,
    signature.returnType_folded, DataType.cName_folded]
  exact foldedResult_bind (site.lowerBody_folded isOn decl.body) fun lowered => rfl

theorem lowerUnit_folded (kind : Code.UnitKind) (outer : Scope) (implicit : List Code.Slot)
    (name : Ident) (vars : List VarDecl) (body : List Stmt) :
    lowerUnit context.folded isOn kind outer.folded implicit name.folded
        (vars.map VarDecl.folded) (Stmt.foldedList body) =
      foldedResult id (lowerUnit context isOn kind outer implicit name vars body) := by
  unfold lowerUnit
  refine foldedResult_bind (unitScope_folded context outer vars) fun scope => ?_
  refine foldedResult_bind (VarDecl.lowerSlots_folded context vars) fun slots => ?_
  let site : Site := { context, scope, style := .accessor, unit := name.upper }
  rw [Ident.upper_folded]
  exact foldedResult_bind (site.lowerBody_folded isOn body) fun lowered => rfl

theorem FunctionBlockDecl.lower_folded (decl : FunctionBlockDecl) :
    decl.folded.lower context.folded isOn = foldedResult id (decl.lower context isOn) := by
  have lowered := lowerUnit_folded context isOn .functionBlock blockOuterScope implicitSlots
    decl.name decl.vars decl.body
  rwa [folded_blockOuterScope] at lowered

theorem ProgramDecl.lower_folded (decl : ProgramDecl) :
    decl.folded.lower context.folded isOn = foldedResult id (decl.lower context isOn) :=
  lowerUnit_folded context isOn .program ScopeStack.new [] decl.name decl.vars decl.body

end Units

/-! ## Libraries -/

namespace Context

theorem declaredSignature?_folded (context : Context) (name : Ident) (earlier : Nat) :
    context.folded.declaredSignature? name.folded earlier =
      (context.declaredSignature? name earlier).map FunctionSignature.folded := by
  have overloads : (context.folded.functions.overloads? name.folded).getD [] =
      ((context.functions.overloads? name).getD []).map FunctionSignature.folded := by
    rw [functions_folded, FunctionTable.overloads?_folded]
    cases context.functions.overloads? name <;> rfl
  have isStandard : (fun signature : FunctionSignature => !signature.isStandard) ∘
      FunctionSignature.folded = fun signature => !signature.isStandard := rfl
  unfold declaredSignature?
  rw [overloads, List.filter_map, isStandard, ← List.map_drop, List.head?_map]

theorem lowerElements_folded (context : Context) (elements : List Element) :
    ∀ (declared : List Ident) (isOn : Bool),
      context.folded.lowerElements (declared.map Ident.folded) isOn
          (elements.map Element.folded) =
        foldedResult id (context.lowerElements declared isOn elements) := by
  induction elements with
  | nil => exact fun _ _ => rfl
  | cons element elements ih =>
      intro declared isOn
      rw [List.map_cons]
      cases element with
      | type decl => exact ih declared isOn
      | function decl =>
          simp only [Element.folded, lowerElements, FunctionDecl.name_folded,
            Ident.count_folded, declaredSignature?_folded]
          cases context.declaredSignature? decl.name (declared.count decl.name) with
          | none => rfl
          | some signature =>
              refine foldedResult_bind (decl.lower_folded context isOn signature)
                fun lowered => ?_
              exact foldedResult_bind (ih (decl.name :: declared) lowered.2) fun rest => rfl
      | functionBlock decl =>
          simp only [Element.folded, lowerElements, FunctionBlockDecl.name_folded,
            Standard.isBlock_folded]
          by_cases isStandard : Standard.isBlock decl.name = true
          · simp only [isStandard, if_true]
            exact ih declared isOn
          · simp only [isStandard]
            refine foldedResult_bind (decl.lower_folded context isOn) fun lowered => ?_
            exact foldedResult_bind (ih declared lowered.2) fun rest => rfl
      | program decl =>
          refine foldedResult_bind (decl.lower_folded context isOn) fun lowered => ?_
          exact foldedResult_bind (ih declared lowered.2) fun rest => rfl
      | pragma directive =>
          cases directive <;> exact foldedResult_bind (ih declared _) fun rest => rfl

end Context

theorem Library.lower_folded (library : Library) (context : Context) :
    library.folded.lower context.folded = foldedResult id (library.lower context) := by
  refine foldedResult_bind (library.lowerTypes_folded context) fun types => ?_
  exact foldedResult_bind (context.lowerElements_folded library.elements [] true)
    fun elements => rfl

/-- A folded library compiles to what the library compiles to. -/
theorem Library.compile_folded {library : Library}
    (unreserved : TypeTable.Unreserved library.typeDecls) (withConversions : Bool)
    (layout : Code.Layout) :
    library.folded.compile withConversions layout =
      foldedResults id (library.compile withConversions layout) := by
  refine foldedResults_bind (Context.resolve_folded unreserved withConversions)
    fun context => ?_
  refine foldedResults_bind (library.check_folded context) fun notes => ?_
  rw [Library.lower_folded]
  cases library.lower context <;> rfl

/-- True of libraries that differ in the case of their identifiers only. -/
def Library.EqualUpToCase (left right : Library) : Prop := left.folded = right.folded

theorem TypeTable.unreserved_folded (decls : List TypeDecl) :
    Unreserved (decls.map TypeDecl.folded) ↔ Unreserved decls := by
  simp [Unreserved]

theorem Library.EqualUpToCase.unreserved {left right : Library}
    (same : left.EqualUpToCase right) (unreserved : TypeTable.Unreserved left.typeDecls) :
    TypeTable.Unreserved right.typeDecls := by
  rw [← TypeTable.unreserved_folded, ← Library.typeDecls_folded] at unreserved ⊢
  rwa [← same]

/-- The text of a library, or the problems that it has. -/
def Library.outcome (library : Library) (withConversions : Bool) (layout : Code.Layout) :
    Except (List Problem) String :=
  (library.compile withConversions layout).mapError (List.map Fault.problem)

theorem Library.outcome_folded {library : Library}
    (unreserved : TypeTable.Unreserved library.typeDecls) (withConversions : Bool)
    (layout : Code.Layout) :
    library.folded.outcome withConversions layout = library.outcome withConversions layout := by
  unfold Library.outcome
  rw [Library.compile_folded unreserved]
  cases library.compile withConversions layout with
  | ok text => rfl
  | error faults => simp [foldedResults, Except.mapError]

/-- The case of identifiers does not matter: libraries that are equal up to it compile to the
same text, or fail with problems of the same kinds in the same order. -/
theorem Library.compile_equalUpToCase {left right : Library} (same : left.EqualUpToCase right)
    (unreserved : TypeTable.Unreserved left.typeDecls) (withConversions : Bool)
    (layout : Code.Layout) :
    left.outcome withConversions layout = right.outcome withConversions layout := by
  rw [← Library.outcome_folded unreserved, same,
    Library.outcome_folded (same.unreserved unreserved)]

/-- A program that copies a count of a type, given the spellings of their names. -/
def copying (type count copy : Ident) : Library where
  elements :=
    [.type (.synonym type "int"),
      .program
        { name := "Main"
          vars := [VarDecl.simple count type, VarDecl.simple copy type]
          body := [.copy copy count] }]

theorem copying_equalUpToCase {type type' count count' copy copy' : Ident}
    (sameType : type.folded = type'.folded) (sameCount : count.folded = count'.folded)
    (sameCopy : copy.folded = copy'.folded) :
    (copying type count copy).EqualUpToCase (copying type' count' copy') := by
  simp [Library.EqualUpToCase, Library.folded, copying, Element.folded, TypeDecl.folded,
    ProgramDecl.folded, VarDecl.folded, VarDecl.simple, VarName.folded, Initializer.folded,
    Stmt.copy, Stmt.foldedList, Stmt.folded, Expr.named, Expr.folded, sameType, sameCount, sameCopy]

theorem Library.compile_equalUpToCase_copying :
    (copying "Count" "total" "last").EqualUpToCase (copying "COUNT" "TOTAL" "LAST") ∧
      TypeTable.Unreserved (copying "Count" "total" "last").typeDecls ∧
      ∃ text, (copying "Count" "total" "last").outcome false {} = .ok text ∧
        (copying "COUNT" "TOTAL" "LAST").outcome false {} = .ok text := by
  have spelled (first second : String) (sameUpper : first.toUpper = second.toUpper) :
      Ident.folded { name := first } = Ident.folded { name := second } := by
    rw [Ident.folded, Ident.folded, Ident.upper, Ident.upper, sameUpper]
  have same : (copying "Count" "total" "last").EqualUpToCase (copying "COUNT" "TOTAL" "LAST") :=
    copying_equalUpToCase (spelled "Count" "COUNT" (by cbv)) (spelled "total" "TOTAL" (by cbv))
      (spelled "last" "LAST" (by cbv))
  have unreserved : TypeTable.Unreserved (copying "Count" "total" "last").typeDecls := by
    intro decl member
    rw [List.mem_singleton.mp member]
    cbv
  have compiles : ((copying "COUNT" "TOTAL" "LAST").outcome false {}).isOk = true := by
    decide +kernel
  cases outcome : (copying "COUNT" "TOTAL" "LAST").outcome false {} with
  | error problems =>
      rw [outcome] at compiles
      cases compiles
  | ok text =>
      have sameOutcome := Library.compile_equalUpToCase same unreserved false {}
      exact ⟨same, unreserved, text, sameOutcome.trans outcome, rfl⟩

end StructuredText
