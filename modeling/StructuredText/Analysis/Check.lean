import StructuredText.Analysis.Finding
import StructuredText.Analysis.Typing
import StructuredText.Scope.Variable

/-!
# Checking a library

One walk over the library finds as many faults as it can: a part that has no type
is not held against the parts around it.  A tree that cannot be judged at all
ends the walk with a single fault.
-/

set_option autoImplicit false

namespace StructuredText

namespace Context

/-- The enumeration that a value belongs to. -/
def enumeration? (context : Context) (value : EnumValue) : Option DataType :=
  match value.type with
  | some name =>
      (context.types.type? name).filter fun type => TypeTable.hasValue value.value type.resolved
  | none => (context.types.enumerationsWith value.value).head?

/-- Judges an enumerated value. -/
def judgeEnum (context : Context) (value : EnumValue) : Judgement :=
  match context.enumeration? value with
  | some type => { type := some type, findings := { notes := [.enumerated value.value type] } }
  | none =>
      { type := none
        findings :=
          { faults := [.undeclaredEnumValue value.value]
            notes := [.enumerated value.value none] } }

end Context

/-- The fault of a subscript that is not a whole number. -/
def subscriptFaults (subscript : Expr) (type : Option DataType) : List Fault :=
  match type with
  | some type => if type.isInteger then [] else [.badSubscript subscript.span type]
  | none => []

section Judge

variable (context : Context) (scope : Scope)

mutual

/-- Judges the subscripts of a reference. -/
def Reference.judge : Reference → Findings
  | .named _ => {}
  | .field record _ => record.judge
  | .element array subscripts => array.judge ++ Expr.judgeSubscripts subscripts

def Expr.judgeSubscripts : List Expr → Findings
  | [] => {}
  | subscript :: subscripts =>
      let judged := subscript.judge
      judged.findings ++ .ofFaults (subscriptFaults subscript judged.type) ++
        Expr.judgeSubscripts subscripts

def Variable.judge : Variable → Judgement
  | .direct address =>
      let type : DataType := .elementary address.size.type
      { type := some type, findings := { notes := [.variable address.display (some type)] } }
  | .symbolic reference =>
      let inner := reference.judge
      match context.referenceType scope reference with
      | .ok type =>
          { type := some type, findings := inner.under (.variable reference.display (some type)) }
      | .error fault =>
          { type := none
            findings := (inner ++ .ofFaults [fault]).under (.variable reference.display none) }

def Expr.judge : Expr → Judgement
  | .compare op left right =>
      let left' := left.judge
      let right' := right.judge
      let inner := left'.findings ++ right'.findings
      match left'.type, right'.type with
      | some first, some second =>
          let (type, compatible) := op.type? first second
          let faults : List Fault := if compatible then [] else [.mismatch left.span first second]
          { type, findings := (inner ++ .ofFaults faults).under (.expr type) }
      | _, _ => { type := none, findings := inner.under (.expr none) }
  | .arith op left right =>
      let left' := left.judge
      let right' := right.judge
      let inner := left'.findings ++ right'.findings
      match left'.type, right'.type with
      | some first, some second =>
          let type := op.type? first second
          let faults : List Fault := if type.isSome then [] else [.mismatch left.span first second]
          { type, findings := (inner ++ .ofFaults faults).under (.expr type) }
      | _, _ => { type := none, findings := inner.under (.expr none) }
  | .unary op term =>
      let judged := term.judge
      match judged.type with
      | some type =>
          if op.accepts type then
            { type := some type, findings := judged.findings.under (.expr (some type)) }
          else
            { type := none
              findings :=
                (judged.findings ++ .ofFaults [.badOperand term.span type]).under (.expr none) }
      | none => { type := none, findings := judged.findings.under (.expr none) }
  | .group inner =>
      let judged := inner.judge
      { judged with findings := judged.findings.under (.expr judged.type) }
  | .const value => { type := some value.type, findings := { notes := [.expr (some value.type)] } }
  | .enumerated value =>
      let judged := context.judgeEnum value
      { judged with findings := judged.findings.under (.expr judged.type) }
  | .var source =>
      let judged := source.judge
      { judged with findings := judged.findings.under (.expr judged.type) }
  | .call name arguments =>
      let (types, inner) := Argument.judgeList arguments
      match context.functions.overloads? name with
      | none =>
          { type := none
            findings :=
              ((inner ++ .ofFaults [.undeclaredFunction name]).under (.call name none)).under
                (.expr none) }
      | some overloads =>
          if types.all Option.isSome then
            match CallResolution.resolve name overloads arguments types with
            | .ok resolution =>
                let type := resolution.signature.returnType
                { type := some type
                  findings := (inner.under (.call name (some resolution))).under (.expr type) }
            | .error fault =>
                { type := none
                  findings :=
                    ((inner ++ .ofFaults [fault]).under (.call name none)).under (.expr none) }
          else { type := none, findings := (inner.under (.call name none)).under (.expr none) }

/-- The type of every argument, and the findings in all of them. -/
def Argument.judgeList : List Argument → List (Option DataType) × Findings
  | [] => ([], {})
  | .positional value :: rest =>
      let judged := value.judge
      let (types, findings) := Argument.judgeList rest
      (judged.type :: types, judged.findings ++ findings)
  | .named _ value :: rest =>
      let judged := value.judge
      let (types, findings) := Argument.judgeList rest
      (judged.type :: types, judged.findings ++ findings)
  | .output _ _ target :: rest =>
      let judged := target.judge
      let (types, findings) := Argument.judgeList rest
      (judged.type :: types, judged.findings ++ findings)

end

/-- The type of an expression. -/
def Expr.type? (expr : Expr) : Option DataType := (expr.judge context scope).type

/-- What a call means, if its arguments have types and a declaration takes them. -/
def CallResolution.of? (name : Ident) (arguments : List Argument) : Option CallResolution := do
  let overloads ← context.functions.overloads? name
  let (types, _) := Argument.judgeList context scope arguments
  if types.all Option.isSome then
    (CallResolution.resolve name overloads arguments types).toOption
  else none

/-- Judges an expression that has to be a truth value. -/
def Expr.judgeCondition (condition : Expr) : Findings :=
  let judged := condition.judge context scope
  match judged.type with
  | some type =>
      if type.isBool then judged.findings
      else judged.findings ++ .ofFaults [.conditionNotBool condition.span type]
  | none => judged.findings

/-- Judges a label of a selection. -/
def CaseLabel.judge : CaseLabel → Findings
  | .enumerated value => (context.judgeEnum value).findings
  | .range _ | .integer _ => {}

def CaseLabel.judgeList : List CaseLabel → Findings
  | [] => {}
  | label :: labels => label.judge context ++ CaseLabel.judgeList labels

/-- The faults of an assignment beyond those of its parts. -/
def assignmentFaults (target : Variable) (targetType valueType : Option DataType) : List Fault :=
  (match target with
    | .symbolic reference =>
        match scope.entryFor? reference with
        | some entry =>
            if entry.isConstant then [.constantAssigned target.span reference.root] else []
        | none => []
    | .direct _ => []) ++
  (match targetType, valueType with
    | some targetType, some valueType =>
        if targetType.accepts valueType then []
        else [.notAssignable target.span targetType valueType]
    | _, _ => [])

/-- Judges an assignment. -/
def judgeAssign (target : Variable) (value : Expr) : Findings :=
  let target' := target.judge context scope
  let value' := value.judge context scope
  target'.findings ++ value'.findings ++
    .ofFaults (assignmentFaults scope target target'.type value'.type)

/-- The function block that an instance is of, if the instance is one. -/
def instanceType (scope : Scope) (block : Ident) : Except Fault Ident :=
  match (scope.lookup block).map VariableEntry.type with
  | some type =>
      match type.resolved with
      | .functionBlock name => .ok name
      | other => .error (.notABlock block other)
  | none => .error (.undeclaredInstance block)

/-- The faults in binding the arguments of an invocation. -/
def invocationFaults (block type : Ident) (signature : BlockSignature)
    (arguments : List Argument) (types : List (Option DataType)) : List Fault :=
  match Binding.make signature.parameters arguments with
  | .error fault => [fault]
  | .ok binding =>
      if types.all Option.isSome && (binding.score? types).isNone then
        [.blockArgumentMismatch block type]
      else []

/-- Judges an invocation.  A function block without a signature cannot be judged. -/
def judgeInvoke (block : Ident) (arguments : List Argument) : Except Fault Findings :=
  let (types, inner) := Argument.judgeList context scope arguments
  match instanceType scope block with
  | .error fault => .ok ((inner ++ .ofFaults [fault]).under (.block block none))
  | .ok name =>
      match context.functions.block? name with
      | none => .error (.internal .typeNotResolved name.span)
      | some signature =>
          .ok ((inner ++ .ofFaults (invocationFaults block name signature arguments types)).under
            (.block block (some signature)))

/-- The faults of the variable that counts the rounds of a loop. -/
def controlFaults (control : Ident) : List Fault :=
  match scope.lookup control with
  | some entry =>
      if entry.type.isInteger then [] else [.controlNotInteger control.span entry.type]
  | none => [.undeclaredControl control]

/-- Judges the parts of a counting loop other than its statements. -/
def judgeControl (control : Ident) (first last : Expr) (step : Option Expr) : Findings :=
  .ofFaults (controlFaults scope control) ++ (first.judge context scope).findings ++
    (last.judge context scope).findings ++
    (match step with
      | some step => (step.judge context scope).findings
      | none => {})

mutual

def Stmt.judge : Stmt → Except Fault Findings
  | .assign target value => .ok (judgeAssign context scope target value)
  | .invoke block arguments => judgeInvoke context scope block arguments
  | .ifElse condition body elseIfs otherwise => do
      let body ← Stmt.judgeList body
      let elseIfs ← ElseIf.judgeList elseIfs
      let otherwise ← Stmt.judgeList otherwise
      return condition.judgeCondition context scope ++ body ++ elseIfs ++ otherwise
  | .select selector groups otherwise => do
      let groups ← CaseGroup.judgeList groups
      let otherwise ← Stmt.judgeList otherwise
      return (selector.judge context scope).findings ++ groups ++ otherwise
  | .forTo control first last step body => do
      let body ← Stmt.judgeList body
      return judgeControl context scope control first last step ++ body
  | .whileDo condition body => do
      let body ← Stmt.judgeList body
      return condition.judgeCondition context scope ++ body
  | .repeatUntil body condition => do
      let body ← Stmt.judgeList body
      return body ++ condition.judgeCondition context scope
  | .leaveUnit | .leaveLoop | .pragma _ => .ok {}

def Stmt.judgeList : List Stmt → Except Fault Findings
  | [] => .ok {}
  | stmt :: stmts => do
      let first ← stmt.judge
      let rest ← Stmt.judgeList stmts
      return first ++ rest

def ElseIf.judgeList : List ElseIf → Except Fault Findings
  | [] => .ok {}
  | .mk condition body :: elseIfs => do
      let body ← Stmt.judgeList body
      let rest ← ElseIf.judgeList elseIfs
      return condition.judgeCondition context scope ++ body ++ rest

def CaseGroup.judgeList : List CaseGroup → Except Fault Findings
  | [] => .ok {}
  | .mk labels body :: groups => do
      let body ← Stmt.judgeList body
      let rest ← CaseGroup.judgeList groups
      return CaseLabel.judgeList context labels ++ body ++ rest

end

end Judge

/-! ## Units -/

/-- The scope of a function before its own variables: the implicit variables and,
if its type is known, the result. -/
def FunctionDecl.outerScope (context : Context) (scope : Scope) (decl : FunctionDecl) : Scope :=
  match context.types.type? decl.returnType with
  | some type => Scope.declareResult (Scope.declareImplicit scope.push) decl.name type
  | none => Scope.declareImplicit scope.push

/-- Judges a unit whose surroundings are in scope.  Gives back the surroundings. -/
def judgeUnit (context : Context) (scope : Scope) (vars : List VarDecl) (body : List Stmt) :
    Except Fault (Findings × Scope) := do
  let (inner, faults) := Scope.declare context scope.push vars
  let body ← Stmt.judgeList context inner body
  return (.ofFaults faults ++ body, ← inner.pop)

/-- Judges an element in the scope that the elements before it left.  Every scope
that the element enters is left again. -/
def Element.judge (context : Context) (scope : Scope) :
    Element → Except Fault (Findings × Scope)
  | .function decl => do
      let (findings, outer) ←
        judgeUnit context (decl.outerScope context scope) decl.vars decl.body
      return (findings, ← outer.pop)
  | .functionBlock decl => do
      let (findings, outer) ←
        judgeUnit context (Scope.declareImplicit scope.push) decl.vars decl.body
      return (findings, ← outer.pop)
  | .program decl => judgeUnit context scope decl.vars decl.body
  | .type _ | .pragma _ => .ok ({}, scope)

def Element.judgeList (context : Context) (scope : Scope) :
    List Element → Except Fault (Findings × Scope)
  | [] => .ok ({}, scope)
  | element :: elements => do
      let (first, scope) ← element.judge context scope
      let (rest, scope) ← Element.judgeList context scope elements
      return (first ++ rest, scope)

/-- The notes on a library without faults, or its faults. -/
def Library.check (library : Library) (context : Context) : Except (List Fault) (List Note) :=
  match Element.judgeList context ScopeStack.new library.elements with
  | .error fault => .error [fault]
  | .ok (findings, _) =>
      match findings.faults with
      | [] => .ok findings.notes
      | faults => .error faults

end StructuredText
