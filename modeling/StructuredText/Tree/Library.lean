import StructuredText.Tree.Expr

/-!
# Statements, units and libraries
-/

set_option autoImplicit false

namespace StructuredText

/-- Directives: text for the output, and the switch that turns output on and off. -/
inductive Pragma where
  | code (text : String)
  | enable
  | disable
deriving DecidableEq, Repr

/-- A label of a group in a selection. -/
inductive CaseLabel where
  | range (bounds : Range)
  | integer (value : SignedToken)
  | enumerated (value : EnumValue)
deriving BEq

mutual

inductive Stmt where
  | assign (target : Variable) (value : Expr)
  | invoke (block : Ident) (arguments : List Argument)
  | ifElse (condition : Expr) (body : List Stmt) (elseIfs : List ElseIf) (otherwise : List Stmt)
  | select (selector : Expr) (groups : List CaseGroup) (otherwise : List Stmt)
  | forTo (control : Ident) (first last : Expr) (step : Option Expr) (body : List Stmt)
  | whileDo (condition : Expr) (body : List Stmt)
  | repeatUntil (body : List Stmt) (condition : Expr)
  | leaveUnit
  | leaveLoop
  | pragma (directive : Pragma)

/-- A further condition of a conditional with its statements. -/
inductive ElseIf where
  | mk (condition : Expr) (body : List Stmt)

/-- A group of a selection: its labels and its statements. -/
inductive CaseGroup where
  | mk (labels : List CaseLabel) (body : List Stmt)

end

def ElseIf.condition : ElseIf → Expr
  | mk condition _ => condition

def ElseIf.body : ElseIf → List Stmt
  | mk _ body => body

def CaseGroup.labels : CaseGroup → List CaseLabel
  | mk labels _ => labels

def CaseGroup.body : CaseGroup → List Stmt
  | mk _ body => body

structure FunctionDecl where
  name : Ident
  returnType : Ident
  vars : List VarDecl
  body : List Stmt

structure FunctionBlockDecl where
  name : Ident
  vars : List VarDecl
  body : List Stmt

structure ProgramDecl where
  name : Ident
  vars : List VarDecl
  body : List Stmt

inductive Element where
  | type (decl : TypeDecl)
  | function (decl : FunctionDecl)
  | functionBlock (decl : FunctionBlockDecl)
  | program (decl : ProgramDecl)
  | pragma (directive : Pragma)

/-- The variables that an element declares. -/
def Element.vars : Element → List VarDecl
  | function decl => decl.vars
  | functionBlock decl => decl.vars
  | program decl => decl.vars
  | type _ | pragma _ => []

structure Library where
  elements : List Element := []

namespace Library

/-- The elements of one library followed by those of another. -/
def append (first second : Library) : Library :=
  { elements := first.elements ++ second.elements }

/-- The data types that the library declares, in source order. -/
def typeDecls (library : Library) : List TypeDecl :=
  library.elements.filterMap fun
    | .type decl => some decl
    | _ => none

/-- The functions that the library declares, in source order. -/
def functions (library : Library) : List FunctionDecl :=
  library.elements.filterMap fun
    | .function decl => some decl
    | _ => none

/-- The function blocks that the library declares, in source order. -/
def functionBlocks (library : Library) : List FunctionBlockDecl :=
  library.elements.filterMap fun
    | .functionBlock decl => some decl
    | _ => none

end Library

end StructuredText
