import StructuredText.Proofs.Spelling.Calls

/-!
# Analysis of a folded library

A folded scope answers a folded name as the scope answers the name, and every judgement
about a folded tree is the folded judgement.
-/

set_option autoImplicit false

namespace StructuredText

/-! ## Scopes -/

namespace ScopeStack

variable {α : Type} (change : α → α)

def folded (stack : ScopeStack α) : ScopeStack α :=
  { current := stack.current.folded change
    enclosing := stack.enclosing.map (Table.folded change) }

@[simp] theorem push_folded (stack : ScopeStack α) :
    (stack.folded change).push = stack.push.folded change := rfl

theorem pop_folded (stack : ScopeStack α) :
    (stack.folded change).pop = foldedResult (folded change) stack.pop := by
  unfold pop folded
  cases stack.enclosing <;> rfl

@[simp] theorem lookupCurrent_folded (stack : ScopeStack α) (name : Ident) :
    (stack.folded change).lookupCurrent name.folded = (stack.lookupCurrent name).map change :=
  Table.get?_folded ..

@[simp] theorem lookup_folded (stack : ScopeStack α) (name : Ident) :
    (stack.folded change).lookup name.folded = (stack.lookup name).map change := by
  have tables : ∀ tables : List (Table α),
      ((tables.map (Table.folded change)).findSome? fun table => table.get? name.folded) =
        (tables.findSome? fun table => table.get? name).map change := by
    intro tables
    induction tables with
    | nil => rfl
    | cons table tables ih =>
        rw [List.map_cons, List.findSome?_cons, List.findSome?_cons, Table.get?_folded, ih]
        cases table.get? name <;> rfl
  exact tables (stack.current :: stack.enclosing)

@[simp] theorem bind_folded (stack : ScopeStack α) (name : Ident) (value : α) :
    (stack.folded change).bind name.folded (change value) =
      (stack.bind name value).folded change := by
  simp [bind, folded]

@[simp] theorem tryBind_folded (stack : ScopeStack α) (name : Ident) (value : α) :
    (stack.folded change).tryBind name.folded (change value) =
      (stack.tryBind name value).folded change := by
  unfold tryBind
  simp only [folded, Table.contains_folded, Table.folded_push]
  split <;> rfl

end ScopeStack

def VariableEntry.folded (entry : VariableEntry) : VariableEntry :=
  { entry with name := entry.name.folded, type := entry.type.folded }

namespace Scope

def folded (scope : Scope) : Scope := ScopeStack.folded VariableEntry.folded scope

@[simp] theorem folded_new : folded ScopeStack.new = ScopeStack.new := rfl

@[simp] theorem folded_push (scope : Scope) : scope.folded.push = folded scope.push := rfl

@[simp] theorem lookup_folded (scope : Scope) (name : Ident) :
    scope.folded.lookup name.folded = (scope.lookup name).map VariableEntry.folded :=
  ScopeStack.lookup_folded ..

@[simp] theorem storageOf_folded (decl : VarDecl) : storageOf decl.folded = storageOf decl := by
  unfold storageOf VarDecl.folded
  cases decl.name <;> cases decl.kind <;> rfl

@[simp] theorem entryOf_folded (decl : VarDecl) (name : Ident) (type : DataType) :
    entryOf decl.folded name.folded type.folded = (entryOf decl name type).folded := by
  have located : decl.folded.name.address? = decl.name.address? := decl.name.address?_folded
  rw [entryOf, storageOf_folded, located]
  rfl

theorem declareOne_folded (context : Context) (scope : Scope) (decl : VarDecl) :
    scope.folded.declareOne context.folded decl.folded =
      ((scope.declareOne context decl).1.folded,
        (scope.declareOne context decl).2.map Fault.folded) := by
  unfold declareOne
  rw [VarDecl.name_folded, VarName.ident?_folded, Context.typeOf_folded]
  cases decl.name.ident? with
  | none => rfl
  | some name =>
      cases context.typeOf decl with
      | error fault => rfl
      | ok type =>
          have known : (scope.folded.lookupCurrent name.folded).isSome =
              (scope.lookupCurrent name).isSome := by
            simp [folded]
          simp only [Option.map_some, foldedResult, known, entryOf_folded]
          split
          · rfl
          · simp [folded]

theorem declare_folded (context : Context) (vars : List VarDecl) :
    ∀ scope : Scope, scope.folded.declare context.folded (vars.map VarDecl.folded) =
      ((scope.declare context vars).1.folded, (scope.declare context vars).2.map Fault.folded) := by
  induction vars with
  | nil => exact fun _ => rfl
  | cons decl vars ih =>
      intro scope
      rw [List.map_cons, declare, declareOne_folded]
      dsimp only
      rw [ih]
      simp only [declare, List.map_append]
      cases (scope.declareOne context decl).2 <;> rfl

@[simp] theorem declareResult_folded (scope : Scope) (name : Ident) (type : DataType) :
    scope.folded.declareResult name.folded type.folded =
      (scope.declareResult name type).folded :=
  ScopeStack.bind_folded VariableEntry.folded scope name { name, type, kind := .output }

@[simp] theorem declareImplicit_folded (scope : Scope) :
    scope.folded.declareImplicit = scope.declareImplicit.folded := by
  have entry (name : String) (isUpper : name.toUpper = name) (kind : VarKind) (scope : Scope) :
      scope.folded.bind { name } { name := { name }, type := .elementary .bool, kind } =
        folded (scope.bind { name } { name := { name }, type := .elementary .bool, kind }) := by
    have bound := ScopeStack.bind_folded VariableEntry.folded scope { name }
      { name := { name }, type := .elementary .bool, kind }
    rw [Ident.folded_of_upper isUpper, VariableEntry.folded] at bound
    rw [Ident.folded_of_upper isUpper, DataType.folded] at bound
    exact bound
  unfold declareImplicit
  dsimp only
  rw [entry "EN" (by decide +kernel), entry "ENO" (by decide +kernel)]

@[simp] theorem entryFor?_folded (scope : Scope) (reference : Reference) :
    scope.folded.entryFor? reference.folded =
      (scope.entryFor? reference).map VariableEntry.folded := by
  simp [entryFor?]

end Scope

/-! ## References -/

/-- A test that does not see the spelling selects the same types. -/
theorem filter_folded {test test' : DataType → Bool}
    (same : ∀ type, test' type.folded = test type) (type : Option DataType) :
    (type.map DataType.folded).filter test' = (type.filter test).map DataType.folded := by
  cases type with
  | none => rfl
  | some type => by_cases isSo : test type = true <;> simp [Option.filter, same, isSo]

namespace Context

@[simp] theorem field?_folded (context : Context) (record : DataType) (name : Ident) :
    context.folded.field? record.folded name.folded =
      (context.field? record name).map DataType.folded := by
  unfold field?
  rw [DataType.resolved_folded]
  cases record.resolved with
  | record owner fields =>
      simp [DataType.folded, DataType.foldedFields_eq, List.find?_map, Function.comp_def]
  | functionBlock block =>
      simp only [DataType.folded, functions_folded, FunctionTable.block?_folded]
      cases context.functions.block? block <;> simp [Function.comp_def]
  | _ => simp [DataType.folded]

@[simp] theorem referenceType_folded (context : Context) (scope : Scope) (reference : Reference) :
    context.folded.referenceType scope.folded reference.folded =
      foldedResult DataType.folded (context.referenceType scope reference) := by
  cases reference with
  | named name =>
      simp only [Reference.folded, referenceType, Scope.lookup_folded]
      cases scope.lookup name <;> rfl
  | field record name =>
      simp only [Reference.folded, referenceType]
      refine foldedResult_bind (referenceType_folded context scope record) fun type => ?_
      rw [field?_folded]
      cases context.field? type name <;> rfl
  | element array subscripts =>
      simp only [Reference.folded, referenceType]
      refine foldedResult_bind (referenceType_folded context scope array) fun type => ?_
      rw [DataType.resolved_folded]
      cases type.resolved with
      | array name dimensions element =>
          simp only [DataType.folded, Expr.length_foldedList, Reference.span_folded]
          split <;> rfl
      | _ => simp [DataType.folded, foldedResult, Fault.folded]

@[simp] theorem dimension_folded (context : Context) (scope : Scope) (array : Reference)
    (index : Nat) :
    context.folded.dimension scope.folded array.folded index =
      foldedResult id (context.dimension scope array index) := by
  unfold dimension
  rw [referenceType_folded]
  cases context.referenceType scope array with
  | error fault => simp [foldedResult, Except.map, Fault.folded]
  | ok type =>
      simp only [foldedResult, Except.map, DataType.resolved_folded, Reference.span_folded]
      cases type.resolved with
      | array name dimensions element =>
          simp only [DataType.folded]
          cases dimensions[index]? <;> rfl
      | _ => simp [DataType.folded, Fault.folded]

@[simp] theorem variableType_folded (context : Context) (scope : Scope) (source : Variable) :
    context.folded.variableType scope.folded source.folded =
      foldedResult DataType.folded (context.variableType scope source) := by
  cases source with
  | direct address => simp [Variable.folded, variableType, foldedResult, DataType.folded]
  | symbolic reference => simp [Variable.folded, variableType]

@[simp] theorem enumeration?_folded (context : Context) (value : EnumValue) :
    context.folded.enumeration? value.folded =
      (context.enumeration? value).map DataType.folded := by
  unfold enumeration? EnumValue.folded
  cases value.type with
  | none => simp
  | some name =>
      simp only [Option.map_some, types_folded, TypeTable.type?_folded]
      exact filter_folded (fun type => by simp) _

end Context

/-! ## Judgements -/

def Note.folded : Note → Note
  | .expr type => .expr (type.map DataType.folded)
  | .variable text type => .variable text.toUpper (type.map DataType.folded)
  | .enumerated value type => .enumerated value.folded (type.map DataType.folded)
  | .call name resolution => .call name.folded (resolution.map CallResolution.folded)
  | .block name signature => .block name.folded (signature.map BlockSignature.folded)

namespace Findings

def folded (findings : Findings) : Findings :=
  { faults := findings.faults.map Fault.folded, notes := findings.notes.map Note.folded }

@[simp] theorem folded_append (first second : Findings) :
    (first ++ second).folded = first.folded ++ second.folded := by
  rw [folded, faults_append, notes_append, List.map_append, List.map_append]
  rfl

@[simp] theorem folded_ofFaults (faults : List Fault) :
    (ofFaults faults).folded = ofFaults (faults.map Fault.folded) := rfl

@[simp] theorem folded_under (note : Note) (findings : Findings) :
    (findings.under note).folded = findings.folded.under note.folded := rfl

@[simp] theorem folded_empty : folded {} = {} := rfl

end Findings

def Judgement.folded (judgement : Judgement) : Judgement :=
  { type := judgement.type.map DataType.folded, findings := judgement.findings.folded }

@[simp] theorem Constant.type_folded (value : Constant) : value.type.folded = value.type := by
  cases value with
  | integer value type => cases type <;> simp [Constant.type, DataType.folded]
  | real token =>
      rw [Constant.type]
      cases token.type <;> simp [DataType.folded]
  | bitString value type => cases type <;> simp [Constant.type, DataType.folded]
  | _ => simp [Constant.type, DataType.folded]

@[simp] theorem numericType?_folded (left right : DataType) :
    numericType? left.folded right.folded = (numericType? left right).map DataType.folded := by
  rw [numericType?, numericType?, DataType.common?_folded]
  exact filter_folded (fun type => type.isNumeric_folded) _

@[simp] theorem ArithOp.type?_folded (op : ArithOp) (left right : DataType) :
    op.type? left.folded right.folded = (op.type? left right).map DataType.folded := by
  cases op with
  | add =>
      simp only [ArithOp.type?, DataType.elementary?_folded, numericType?_folded]
      split <;> simp [DataType.folded]
  | sub =>
      simp only [ArithOp.type?, DataType.elementary?_folded, numericType?_folded]
      split <;> simp [DataType.folded]
  | mul =>
      simp only [ArithOp.type?, DataType.isTime_folded, DataType.isNumeric_folded,
        numericType?_folded]
      split <;> simp [DataType.folded]
  | div =>
      simp only [ArithOp.type?, DataType.isTime_folded, DataType.isNumeric_folded,
        numericType?_folded]
      split <;> simp [DataType.folded]
  | mod =>
      rw [ArithOp.type?, ArithOp.type?, DataType.common?_folded]
      exact filter_folded (fun type => type.isInteger_folded) _
  | pow =>
      simp only [ArithOp.type?, DataType.isNumeric_folded, DataType.isReal_folded]
      split
      · split <;> simp [DataType.folded]
      · rfl

@[simp] theorem CompareOp.type?_folded (op : CompareOp) (left right : DataType) :
    op.type? left.folded right.folded =
      ((op.type? left right).1.map DataType.folded, (op.type? left right).2) := by
  simp only [CompareOp.type?, DataType.common?_folded,
    filter_folded (fun type => type.isLogical_folded)]
  split
  · cases (DataType.common? left right).filter DataType.isLogical <;> rfl
  · simp [DataType.folded]

@[simp] theorem UnaryOp.accepts_folded (op : UnaryOp) (term : DataType) :
    op.accepts term.folded = op.accepts term := by
  cases op <;> simp [UnaryOp.accepts]

@[simp] theorem Context.judgeEnum_folded (context : Context) (value : EnumValue) :
    context.folded.judgeEnum value.folded = (context.judgeEnum value).folded := by
  unfold Context.judgeEnum
  rw [Context.enumeration?_folded]
  cases context.enumeration? value <;> rfl

@[simp] theorem subscriptFaults_folded (subscript : Expr) (type : Option DataType) :
    subscriptFaults subscript.folded (type.map DataType.folded) =
      (subscriptFaults subscript type).map Fault.folded := by
  cases type with
  | none => rfl
  | some type =>
      by_cases isInteger : type.isInteger = true <;>
        simp [subscriptFaults, isInteger, Fault.folded]

theorem all_isSome_foldedTypes (types : List (Option DataType)) :
    (foldedTypes types).all Option.isSome = types.all Option.isSome := by
  simp [foldedTypes, Function.comp_def]

section Judge

variable (context : Context) (scope : Scope)

mutual

theorem Reference.judge_folded : ∀ reference : Reference,
    reference.folded.judge context.folded scope.folded = (reference.judge context scope).folded
  | .named name => by simp [Reference.folded, Reference.judge]
  | .field record name => by
      simp [Reference.folded, Reference.judge, Reference.judge_folded record]
  | .element array subscripts => by
      simp [Reference.folded, Reference.judge, Reference.judge_folded array,
        Expr.judgeSubscripts_folded subscripts]

theorem Expr.judgeSubscripts_folded : ∀ subscripts : List Expr,
    Expr.judgeSubscripts context.folded scope.folded (Expr.foldedList subscripts) =
      (Expr.judgeSubscripts context scope subscripts).folded
  | [] => by simp [Expr.foldedList, Expr.judgeSubscripts]
  | subscript :: subscripts => by
      simp [Expr.foldedList, Expr.judgeSubscripts, Expr.judge_folded subscript, Judgement.folded,
        Expr.judgeSubscripts_folded subscripts]

theorem Variable.judge_folded : ∀ source : Variable,
    source.folded.judge context.folded scope.folded = (source.judge context scope).folded
  | .direct address => by
      simp [Variable.folded, Variable.judge, Judgement.folded, Findings.folded, Note.folded,
        DataType.folded, Address.display_toUpper]
  | .symbolic reference => by
      simp only [Variable.folded, Variable.judge, Context.referenceType_folded,
        Reference.judge_folded reference, Reference.display_folded]
      cases context.referenceType scope reference with
      | ok type => rfl
      | error fault => simp [foldedResult, Judgement.folded, Note.folded]

theorem Expr.judge_folded : ∀ expr : Expr,
    expr.folded.judge context.folded scope.folded = (expr.judge context scope).folded
  | .compare op left right => by
      simp only [Expr.folded, Expr.judge, Expr.judge_folded left, Expr.judge_folded right]
      obtain ⟨_ | first, inLeft⟩ := left.judge context scope <;>
        obtain ⟨_ | second, inRight⟩ := right.judge context scope
      case some.some =>
        rcases given : op.type? first second with ⟨type, _ | _⟩ <;>
          simp [Judgement.folded, Note.folded, Fault.folded, given]
      all_goals simp [Judgement.folded, Note.folded]
  | .arith op left right => by
      simp only [Expr.folded, Expr.judge, Expr.judge_folded left, Expr.judge_folded right]
      obtain ⟨_ | first, inLeft⟩ := left.judge context scope <;>
        obtain ⟨_ | second, inRight⟩ := right.judge context scope
      case some.some =>
        rcases given : op.type? first second with _ | type <;>
          simp [Judgement.folded, Note.folded, Fault.folded, given]
      all_goals simp [Judgement.folded, Note.folded]
  | .unary op term => by
      simp only [Expr.folded, Expr.judge, Expr.judge_folded term]
      obtain ⟨_ | type, inTerm⟩ := term.judge context scope
      · simp [Judgement.folded, Note.folded]
      · by_cases accepted : op.accepts type = true <;>
          simp [Judgement.folded, Note.folded, Fault.folded, accepted]
  | .group inner => by
      simp [Expr.folded, Expr.judge, Expr.judge_folded inner, Judgement.folded, Note.folded]
  | .const value => by
      simp [Expr.folded, Expr.judge, Judgement.folded, Findings.folded, Note.folded]
  | .enumerated value => by
      simp [Expr.folded, Expr.judge, Judgement.folded, Note.folded]
  | .var source => by
      simp [Expr.folded, Expr.judge, Variable.judge_folded source, Judgement.folded, Note.folded]
  | .call name arguments => by
      simp only [Expr.folded, Expr.judge, Argument.judgeList_folded arguments,
        Context.functions_folded, FunctionTable.overloads?_folded]
      cases context.functions.overloads? name with
      | none => simp [Judgement.folded, Note.folded, Fault.folded]
      | some overloads =>
          simp only [Option.map_some, all_isSome_foldedTypes, CallResolution.resolve_folded]
          by_cases typed :
              (Argument.judgeList context scope arguments).1.all Option.isSome = true
          · simp only [typed, if_true]
            cases CallResolution.resolve name overloads arguments
                (Argument.judgeList context scope arguments).1 with
            | ok resolution => rfl
            | error fault => simp [foldedResult, Judgement.folded, Note.folded]
          · simp only [typed]
            rfl

theorem Argument.judgeList_folded : ∀ arguments : List Argument,
    Argument.judgeList context.folded scope.folded (Argument.foldedList arguments) =
      (foldedTypes (Argument.judgeList context scope arguments).1,
        (Argument.judgeList context scope arguments).2.folded)
  | [] => by simp [Argument.foldedList, Argument.judgeList, foldedTypes]
  | .positional value :: rest => by
      simp [Argument.foldedList, Argument.folded, Argument.judgeList, Expr.judge_folded value,
        Argument.judgeList_folded rest, Judgement.folded, foldedTypes]
  | .named name value :: rest => by
      simp [Argument.foldedList, Argument.folded, Argument.judgeList, Expr.judge_folded value,
        Argument.judgeList_folded rest, Judgement.folded, foldedTypes]
  | .output isNegated source target :: rest => by
      simp [Argument.foldedList, Argument.folded, Argument.judgeList,
        Variable.judge_folded target, Argument.judgeList_folded rest, Judgement.folded,
        foldedTypes]

end

@[simp] theorem Expr.type?_folded (expr : Expr) :
    expr.folded.type? context.folded scope.folded =
      (expr.type? context scope).map DataType.folded := by
  rw [Expr.type?, Expr.judge_folded]
  rfl

@[simp] theorem CallResolution.of?_folded (name : Ident) (arguments : List Argument) :
    CallResolution.of? context.folded scope.folded name.folded (Argument.foldedList arguments) =
      (CallResolution.of? context scope name arguments).map CallResolution.folded := by
  simp only [CallResolution.of?, Context.functions_folded, FunctionTable.overloads?_folded,
    Argument.judgeList_folded, all_isSome_foldedTypes]
  cases context.functions.overloads? name with
  | none => rfl
  | some overloads =>
      by_cases typed : (Argument.judgeList context scope arguments).1.all Option.isSome = true
      · simp only [Option.map_some, Option.bind_eq_bind, Option.bind_some, typed, if_true,
          CallResolution.resolve_folded]
        cases CallResolution.resolve name overloads arguments
          (Argument.judgeList context scope arguments).1 <;> rfl
      · simp [typed]

theorem Expr.judgeCondition_folded (condition : Expr) :
    condition.folded.judgeCondition context.folded scope.folded =
      (condition.judgeCondition context scope).folded := by
  simp only [Expr.judgeCondition, Expr.judge_folded]
  obtain ⟨_ | type, inside⟩ := condition.judge context scope
  · rfl
  · by_cases isBool : type.isBool = true <;>
      simp [Judgement.folded, Fault.folded, isBool]

theorem CaseLabel.judgeList_folded : ∀ labels : List CaseLabel,
    CaseLabel.judgeList context.folded (labels.map CaseLabel.folded) =
      (CaseLabel.judgeList context labels).folded
  | [] => rfl
  | label :: labels => by
      have first : label.folded.judge context.folded = (label.judge context).folded := by
        cases label with
        | enumerated value =>
            simp only [CaseLabel.folded, CaseLabel.judge, Context.judgeEnum_folded]
            rfl
        | range bounds => rfl
        | integer value => rfl
      rw [List.map_cons, CaseLabel.judgeList, first, CaseLabel.judgeList_folded labels,
        CaseLabel.judgeList, Findings.folded_append]

theorem assignmentFaults_folded (target : Variable) (targetType valueType : Option DataType) :
    assignmentFaults scope.folded target.folded (targetType.map DataType.folded)
        (valueType.map DataType.folded) =
      (assignmentFaults scope target targetType valueType).map Fault.folded := by
  unfold assignmentFaults
  rw [List.map_append]
  congr 1
  · cases target with
    | direct address => simp [Variable.folded]
    | symbolic reference =>
        simp only [Variable.folded, Scope.entryFor?_folded]
        cases scope.entryFor? reference with
        | none => rfl
        | some entry =>
            by_cases isConstant : entry.isConstant = true <;>
              simp [VariableEntry.folded, isConstant, Fault.folded, Variable.span]
  · rcases targetType with _ | targetType <;> rcases valueType with _ | valueType
    case some.some =>
      by_cases accepted : targetType.accepts valueType = true <;>
        simp [accepted, Fault.folded]
    all_goals rfl

theorem judgeAssign_folded (target : Variable) (value : Expr) :
    judgeAssign context.folded scope.folded target.folded value.folded =
      (judgeAssign context scope target value).folded := by
  simp [judgeAssign, Variable.judge_folded, Expr.judge_folded, Judgement.folded,
    assignmentFaults_folded]

@[simp] theorem instanceType_folded (block : Ident) :
    instanceType scope.folded block.folded =
      foldedResult Ident.folded (instanceType scope block) := by
  unfold instanceType
  rw [Scope.lookup_folded]
  cases scope.lookup block with
  | none => rfl
  | some entry =>
      simp only [Option.map_some, VariableEntry.folded, DataType.resolved_folded]
      cases entry.type.resolved <;> simp [DataType.folded, foldedResult, Fault.folded]

theorem invocationFaults_folded (block type : Ident) (signature : BlockSignature)
    (arguments : List Argument) (types : List (Option DataType)) :
    invocationFaults block.folded type.folded signature.folded (Argument.foldedList arguments)
        (foldedTypes types) =
      (invocationFaults block type signature arguments types).map Fault.folded := by
  have made : Binding.make signature.folded.parameters (Argument.foldedList arguments) =
      foldedResult Binding.folded (Binding.make signature.parameters arguments) :=
    Binding.make_folded ..
  unfold invocationFaults
  rw [made]
  cases Binding.make signature.parameters arguments with
  | error fault => rfl
  | ok binding =>
      simp only [foldedResult, all_isSome_foldedTypes, Binding.score?_folded]
      split <;> rfl

theorem judgeInvoke_folded (block : Ident) (arguments : List Argument) :
    judgeInvoke context.folded scope.folded block.folded (Argument.foldedList arguments) =
      foldedResult Findings.folded (judgeInvoke context scope block arguments) := by
  simp only [judgeInvoke, Argument.judgeList_folded, instanceType_folded]
  cases instanceType scope block with
  | error fault => simp [foldedResult, Note.folded]
  | ok name =>
      simp only [foldedResult, Context.functions_folded, FunctionTable.block?_folded]
      cases context.functions.block? name with
      | none => rfl
      | some signature => simp [invocationFaults_folded, Note.folded]

theorem controlFaults_folded (control : Ident) :
    controlFaults scope.folded control.folded =
      (controlFaults scope control).map Fault.folded := by
  unfold controlFaults
  rw [Scope.lookup_folded]
  cases scope.lookup control with
  | none => rfl
  | some entry =>
      by_cases isInteger : entry.type.isInteger = true <;>
        simp [VariableEntry.folded, isInteger, Fault.folded]

theorem judgeControl_folded (control : Ident) (first last : Expr) (step : Option Expr) :
    judgeControl context.folded scope.folded control.folded first.folded last.folded
        (step.map Expr.folded) =
      (judgeControl context scope control first last step).folded := by
  cases step <;>
    simp [judgeControl, controlFaults_folded, Expr.judge_folded, Judgement.folded]

/-! ## Statements -/

mutual

theorem Stmt.judge_folded : ∀ stmt : Stmt,
    stmt.folded.judge context.folded scope.folded =
      foldedResult Findings.folded (stmt.judge context scope)
  | .assign target value => by
      simp [Stmt.folded, Stmt.judge, judgeAssign_folded, foldedResult]
  | .invoke block arguments => by simp [Stmt.folded, Stmt.judge, judgeInvoke_folded]
  | .ifElse condition body elseIfs otherwise => by
      rw [Stmt.folded, Stmt.judge, Stmt.judge]
      refine foldedResult_bind (Stmt.judgeList_folded body) fun inBody => ?_
      refine foldedResult_bind (ElseIf.judgeList_folded elseIfs) fun inElseIfs => ?_
      refine foldedResult_bind (Stmt.judgeList_folded otherwise) fun inOtherwise => ?_
      simp [foldedResult, pure, Except.pure, Expr.judgeCondition_folded]
  | .select selector groups otherwise => by
      rw [Stmt.folded, Stmt.judge, Stmt.judge]
      refine foldedResult_bind (CaseGroup.judgeList_folded groups) fun inGroups => ?_
      refine foldedResult_bind (Stmt.judgeList_folded otherwise) fun inOtherwise => ?_
      simp [foldedResult, pure, Except.pure, Expr.judge_folded, Judgement.folded]
  | .forTo control first last step body => by
      rw [Stmt.folded, Stmt.judge, Stmt.judge]
      refine foldedResult_bind (Stmt.judgeList_folded body) fun inBody => ?_
      simp [foldedResult, pure, Except.pure, judgeControl_folded]
  | .whileDo condition body => by
      rw [Stmt.folded, Stmt.judge, Stmt.judge]
      refine foldedResult_bind (Stmt.judgeList_folded body) fun inBody => ?_
      simp [foldedResult, pure, Except.pure, Expr.judgeCondition_folded]
  | .repeatUntil body condition => by
      rw [Stmt.folded, Stmt.judge, Stmt.judge]
      refine foldedResult_bind (Stmt.judgeList_folded body) fun inBody => ?_
      simp [foldedResult, pure, Except.pure, Expr.judgeCondition_folded]
  | .leaveUnit | .leaveLoop | .pragma _ => by simp [Stmt.folded, Stmt.judge, foldedResult]

theorem Stmt.judgeList_folded : ∀ stmts : List Stmt,
    Stmt.judgeList context.folded scope.folded (Stmt.foldedList stmts) =
      foldedResult Findings.folded (Stmt.judgeList context scope stmts)
  | [] => by simp [Stmt.foldedList, Stmt.judgeList, foldedResult]
  | stmt :: stmts => by
      rw [Stmt.foldedList, Stmt.judgeList, Stmt.judgeList]
      refine foldedResult_bind (Stmt.judge_folded stmt) fun inFirst => ?_
      refine foldedResult_bind (Stmt.judgeList_folded stmts) fun inRest => ?_
      simp [foldedResult, pure, Except.pure]

theorem ElseIf.judgeList_folded : ∀ elseIfs : List ElseIf,
    ElseIf.judgeList context.folded scope.folded (ElseIf.foldedList elseIfs) =
      foldedResult Findings.folded (ElseIf.judgeList context scope elseIfs)
  | [] => by simp [ElseIf.foldedList, ElseIf.judgeList, foldedResult]
  | .mk condition body :: elseIfs => by
      rw [ElseIf.foldedList, ElseIf.judgeList, ElseIf.judgeList]
      refine foldedResult_bind (Stmt.judgeList_folded body) fun inBody => ?_
      refine foldedResult_bind (ElseIf.judgeList_folded elseIfs) fun inRest => ?_
      simp [foldedResult, pure, Except.pure, Expr.judgeCondition_folded]

theorem CaseGroup.judgeList_folded : ∀ groups : List CaseGroup,
    CaseGroup.judgeList context.folded scope.folded (CaseGroup.foldedList groups) =
      foldedResult Findings.folded (CaseGroup.judgeList context scope groups)
  | [] => by simp [CaseGroup.foldedList, CaseGroup.judgeList, foldedResult]
  | .mk labels body :: groups => by
      rw [CaseGroup.foldedList, CaseGroup.judgeList, CaseGroup.judgeList]
      refine foldedResult_bind (Stmt.judgeList_folded body) fun inBody => ?_
      refine foldedResult_bind (CaseGroup.judgeList_folded groups) fun inRest => ?_
      simp [foldedResult, pure, Except.pure, CaseLabel.judgeList_folded]

end

end Judge

/-! ## Units -/

theorem FunctionDecl.outerScope_folded (context : Context) (scope : Scope)
    (decl : FunctionDecl) :
    decl.folded.outerScope context.folded scope.folded =
      (decl.outerScope context scope).folded := by
  simp only [FunctionDecl.outerScope, FunctionDecl.folded, Context.types_folded,
    TypeTable.type?_folded]
  cases context.types.type? decl.returnType <;> simp

def foldedJudged (result : Findings × Scope) : Findings × Scope :=
  (result.1.folded, result.2.folded)

theorem judgeUnit_folded (context : Context) (scope : Scope) (vars : List VarDecl)
    (body : List Stmt) :
    judgeUnit context.folded scope.folded (vars.map VarDecl.folded) (Stmt.foldedList body) =
      foldedResult foldedJudged (judgeUnit context scope vars body) := by
  unfold judgeUnit
  rw [Scope.folded_push, Scope.declare_folded]
  refine foldedResult_bind (Stmt.judgeList_folded context _ body) fun inBody => ?_
  refine foldedResult_bind (ScopeStack.pop_folded VariableEntry.folded _) fun outer => ?_
  simp [foldedResult, foldedJudged, pure, Except.pure, Scope.folded]

theorem Element.judge_folded (context : Context) (scope : Scope) (element : Element) :
    element.folded.judge context.folded scope.folded =
      foldedResult foldedJudged (element.judge context scope) := by
  -- the scope of a unit is left after the unit
  have left : ∀ result : Findings × Scope,
      (do return (result.1.folded, ← (Scope.folded result.2).pop) : Except Fault _) =
        foldedResult foldedJudged (do return (result.1, ← result.2.pop)) := fun result =>
    foldedResult_bind (ScopeStack.pop_folded VariableEntry.folded _) fun outer => rfl
  cases element with
  | function decl =>
      rw [Element.folded, Element.judge, Element.judge, FunctionDecl.outerScope_folded]
      exact foldedResult_bind (judgeUnit_folded context _ decl.vars decl.body) left
  | functionBlock decl =>
      rw [Element.folded, Element.judge, Element.judge, Scope.folded_push,
        Scope.declareImplicit_folded]
      exact foldedResult_bind (judgeUnit_folded context _ decl.vars decl.body) left
  | program decl => exact judgeUnit_folded context scope decl.vars decl.body
  | type decl => rfl
  | pragma directive => rfl

theorem Element.judgeList_folded (context : Context) (elements : List Element) :
    ∀ scope : Scope, Element.judgeList context.folded scope.folded (elements.map Element.folded) =
      foldedResult foldedJudged (Element.judgeList context scope elements) := by
  induction elements with
  | nil => exact fun _ => rfl
  | cons element elements ih =>
      intro scope
      rw [List.map_cons, Element.judgeList, Element.judgeList]
      refine foldedResult_bind (Element.judge_folded context scope element) fun first => ?_
      refine foldedResult_bind (ih first.2) fun rest => ?_
      simp [foldedResult, foldedJudged, pure, Except.pure]

theorem Library.check_folded (library : Library) (context : Context) :
    library.folded.check context.folded =
      foldedResults (List.map Note.folded) (library.check context) := by
  have judged := Element.judgeList_folded context library.elements ScopeStack.new
  rw [Scope.folded_new] at judged
  unfold Library.check Library.folded
  rw [judged]
  cases Element.judgeList context ScopeStack.new library.elements with
  | error fault => rfl
  | ok result =>
      simp only [foldedResult, foldedJudged, Findings.folded]
      cases result.1.faults <;> rfl

end StructuredText
