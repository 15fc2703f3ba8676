import StructuredText.Lowering.Stmt
import StructuredText.Lowering.Type

/-!
# Lowering units

A function becomes a function whose body names its variables.  A function block or
a program becomes a structure of its variables, a function that initializes them
and a function that runs the body.
-/

set_option autoImplicit false

namespace StructuredText

open Code (Formal Local Member Slot)

/-! ## Scopes -/

/-- The scope of a unit, given the scope around it; the first fault if there is
one. -/
def unitScope (context : Context) (outer : Scope) (vars : List VarDecl) :
    Except Fault Scope :=
  match Scope.declare context outer.push vars with
  | (scope, []) => .ok scope
  | (_, fault :: _) => .error fault

/-- The scope around the variables of a function block. -/
def blockOuterScope : Scope := Scope.declareImplicit ScopeStack.new.push

/-- The scope around the variables of a function. -/
def functionOuterScope (name : Ident) (returnType : DataType) : Scope :=
  Scope.declareResult blockOuterScope name returnType

/-- The body of a unit with its helpers, and whether the output is on after it. -/
structure LoweredBody where
  body : List Code.Stmt
  helpers : List Code.Helper
  isOn : Bool

/-- Lowers the body of a unit, given whether the output is on before it. -/
def Site.lowerBody (site : Site) (isOn : Bool) (body : List Stmt) : Except Fault LoweredBody := do
  let (body, state) ← (Stmt.lowerList site 1 [] body).run { isOn }
  return { body, helpers := state.helpers, isOn := state.isOn }

/-! ## Functions -/

/-- A parameter in the heading of a function. -/
def Parameter.formal (parameter : Parameter) : Except Fault Formal :=
  match parameter.direction with
  | .input => .ok { type := parameter.type.cName, name := parameter.name.upper }
  | .output | .inOut =>
      .ok { type := parameter.type.cName, name := parameter.name.upper, byPointer := true }
  | .external => .error (.internal .notImplemented parameter.name.span)

/-- The variable of a function that a declaration makes, if it makes one. -/
def VarDecl.lowerLocal (context : Context) (decl : VarDecl) : Except Fault (Option Local) :=
  match decl.name.ident? with
  | none => .ok none
  | some name => do
      let type ← context.typeOf decl
      match decl.kind with
      | .input | .external | .global => return none
      | .inOut => return some (.copied type.cName name.upper)
      | .output | .var | .temp =>
          if type.isCompound then return some (.cleared type.cName name.upper)
          else return some (.initialized type.cName name.upper (← decl.initialValue type))

def VarDecl.lowerLocals (context : Context) : List VarDecl → Except Fault (List Local)
  | [] => .ok []
  | decl :: decls => do
      let entry ← decl.lowerLocal context
      return entry.toList ++ (← lowerLocals context decls)

/-- Lowers a declaration of a function that has the given signature. -/
def FunctionDecl.lower (context : Context) (isOn : Bool) (signature : FunctionSignature)
    (decl : FunctionDecl) : Except Fault (Code.FunctionDef × Bool) := do
  let scope ←
    unitScope context (functionOuterScope decl.name signature.returnType) decl.vars
  let formals ← signature.parameters.mapM Parameter.formal
  let locals ← VarDecl.lowerLocals context decl.vars
  let resultValue ← Code.Literal.initial signature.returnType
  let site : Site := { context, scope, style := .direct, unit := decl.name.upper }
  let lowered ← site.lowerBody isOn decl.body
  let definition : Code.FunctionDef :=
    { unit := decl.name.upper
      name := signature.cName (context.functions.isOverloaded decl.name)
      returnType := signature.returnType.cName
      formals, locals, resultValue, body := lowered.body }
  return (definition, lowered.isOn)

/-! ## Function blocks and programs -/

/-- Whether a variable outlives a restart; most leave it to the caller. -/
def Qualifier.retainFlag : Qualifier → String
  | .retain => "1"
  | .nonRetain => "0"
  | .unspecified | .constant => "retain"

/-- True for the sections of variables that other units see. -/
def VarKind.isInterface : VarKind → Bool
  | .input | .output | .inOut => true
  | .var | .temp | .external | .global => false

/-- The variable of a unit that a declaration makes. -/
def VarDecl.lowerMember (context : Context) (decl : VarDecl) (name : String) :
    Except Fault Member := do
  let type ← context.typeOf decl
  let retain := decl.qualifier.retainFlag
  match decl.name.address?, decl.kind with
  | some address, _ =>
      return .located type.cName name address.cName retain (← decl.statedValue type)
  | none, .external => return .external type.cName name retain
  | none, _ =>
      if type.isFunctionBlock then return .block type.cName name retain
      else if type.isCompound then return .compound type.cName name
      else return .plain type.cName name (← decl.initialValue type) retain

/-- The variables of a unit in order; those without a name have no place in it. -/
def VarDecl.lowerSlots (context : Context) : List VarDecl → Except Fault (List Slot)
  | [] => .ok []
  | decl :: decls =>
      match decl.name.ident? with
      | none => lowerSlots context decls
      | some name => do
          let member ← decl.lowerMember context name.upper
          let slot : Slot := { member, isInterface := decl.kind.isInterface }
          return slot :: (← lowerSlots context decls)

/-- The implicit variables of function blocks. -/
def implicitSlots : List Slot :=
  ["EN", "ENO"].map fun name =>
    { member := .plain "BOOL" name (Code.Literal.boolean true) "retain", isInterface := true }

/-- Lowers a function block or a program. -/
def lowerUnit (context : Context) (isOn : Bool) (kind : Code.UnitKind) (outer : Scope)
    (implicit : List Slot) (name : Ident) (vars : List VarDecl) (body : List Stmt) :
    Except Fault (Code.UnitDef × Bool) := do
  let scope ← unitScope context outer vars
  let slots ← VarDecl.lowerSlots context vars
  let site : Site := { context, scope, style := .accessor, unit := name.upper }
  let lowered ← site.lowerBody isOn body
  let definition : Code.UnitDef :=
    { kind, name := name.upper, slots := implicit ++ slots
      helpers := lowered.helpers, body := lowered.body }
  return (definition, lowered.isOn)

def FunctionBlockDecl.lower (context : Context) (isOn : Bool) (decl : FunctionBlockDecl) :
    Except Fault (Code.UnitDef × Bool) :=
  lowerUnit context isOn .functionBlock blockOuterScope implicitSlots decl.name decl.vars
    decl.body

def ProgramDecl.lower (context : Context) (isOn : Bool) (decl : ProgramDecl) :
    Except Fault (Code.UnitDef × Bool) :=
  lowerUnit context isOn .program ScopeStack.new [] decl.name decl.vars decl.body

end StructuredText
