import StructuredText.Tree.Library

/-!
# Walking a library

A walk meets the leaves of a library from left to right: names before variables
before statements, a subscripted variable before its subscripts, a record before
the field, a condition before what depends on it, and the statements of a
`REPEAT` before the condition that ends it.  The walk runs in any monad, so a
handler that fails ends the walk where it fails.
-/

set_option autoImplicit false

namespace StructuredText

/-- What a walk stops at. -/
inductive Leaf where
  | ident (name : Ident)
  | pragma (directive : Pragma)
  | constant (value : Constant)
  | type (decl : TypeDecl)
  | enumerated (value : EnumValue)
  | address (address : Address)
  | declaration (decl : VarDecl)
  | label (label : CaseLabel)

section Walk

variable {m : Type → Type} [Monad m] (visit : Leaf → m Unit)

mutual

def Reference.walk : Reference → m Unit
  | .named name => visit (.ident name)
  | .element array subscripts => do
      array.walk
      Expr.walkList subscripts
  | .field record name => do
      record.walk
      visit (.ident name)

def Variable.walk : Variable → m Unit
  | .direct address => visit (.address address)
  | .symbolic reference => reference.walk

def Expr.walk : Expr → m Unit
  | .compare _ left right => do
      left.walk
      right.walk
  | .arith _ left right => do
      left.walk
      right.walk
  | .unary _ term => term.walk
  | .group inner => inner.walk
  | .const value => visit (.constant value)
  | .enumerated value => visit (.enumerated value)
  | .var source => source.walk
  | .call function arguments => do
      visit (.ident function)
      Argument.walkList arguments

def Expr.walkList : List Expr → m Unit
  | [] => pure ()
  | expr :: exprs => do
      expr.walk
      Expr.walkList exprs

def Argument.walk : Argument → m Unit
  | .positional value => value.walk
  | .named name value => do
      visit (.ident name)
      value.walk
  | .output _ source target => do
      visit (.ident source)
      target.walk

def Argument.walkList : List Argument → m Unit
  | [] => pure ()
  | argument :: arguments => do
      argument.walk
      Argument.walkList arguments

end

/-- Walks an optional step. -/
def Expr.walkOption : Option Expr → m Unit
  | none => pure ()
  | some expr => expr.walk visit

mutual

def Stmt.walk : Stmt → m Unit
  | .assign target value => do
      target.walk visit
      value.walk visit
  | .invoke block arguments => do
      visit (.ident block)
      Argument.walkList visit arguments
  | .ifElse condition body elseIfs otherwise => do
      condition.walk visit
      Stmt.walkList body
      ElseIf.walkList elseIfs
      Stmt.walkList otherwise
  | .select selector groups otherwise => do
      selector.walk visit
      CaseGroup.walkList groups
      Stmt.walkList otherwise
  | .forTo control first last step body => do
      visit (.ident control)
      first.walk visit
      last.walk visit
      Expr.walkOption visit step
      Stmt.walkList body
  | .whileDo condition body => do
      condition.walk visit
      Stmt.walkList body
  | .repeatUntil body condition => do
      Stmt.walkList body
      condition.walk visit
  | .leaveUnit => pure ()
  | .leaveLoop => pure ()
  | .pragma directive => visit (.pragma directive)

def Stmt.walkList : List Stmt → m Unit
  | [] => pure ()
  | stmt :: stmts => do
      stmt.walk
      Stmt.walkList stmts

def ElseIf.walkList : List ElseIf → m Unit
  | [] => pure ()
  | .mk condition body :: elseIfs => do
      condition.walk visit
      Stmt.walkList body
      ElseIf.walkList elseIfs

def CaseGroup.walkList : List CaseGroup → m Unit
  | [] => pure ()
  | .mk labels body :: groups => do
      labels.forM fun label => visit (.label label)
      Stmt.walkList body
      CaseGroup.walkList groups

end

/-- Walks a unit: its name, its variables and its statements. -/
def walkUnit (name : Ident) (vars : List VarDecl) (body : List Stmt) : m Unit := do
  visit (.ident name)
  vars.forM fun decl => visit (.declaration decl)
  Stmt.walkList visit body

def Element.walk : Element → m Unit
  | .type decl => visit (.type decl)
  | .function decl => walkUnit visit decl.name decl.vars decl.body
  | .functionBlock decl => walkUnit visit decl.name decl.vars decl.body
  | .program decl => walkUnit visit decl.name decl.vars decl.body
  | .pragma directive => visit (.pragma directive)

/-- Meets every leaf of the library, from left to right. -/
def Library.walk (library : Library) : m Unit := library.elements.forM fun element =>
  element.walk visit

end Walk

end StructuredText
