import StructuredText.Tree.Library

/-!
# What is inside a tree

Statements stand inside statements, and expressions inside expressions: among operands,
in subscripts and in the arguments of calls.
-/

set_option autoImplicit false

namespace StructuredText

/-! ## Expressions inside expressions -/

mutual

/-- The expressions in the subscripts of a reference. -/
def Reference.parts : Reference → List Expr
  | .named _ => []
  | .field record _ => record.parts
  | .element array subscripts => array.parts ++ Expr.partsList subscripts

def Variable.parts : Variable → List Expr
  | .direct _ => []
  | .symbolic reference => reference.parts

def Expr.parts : Expr → List Expr
  | .compare op left right => .compare op left right :: (left.parts ++ right.parts)
  | .arith op left right => .arith op left right :: (left.parts ++ right.parts)
  | .unary op term => .unary op term :: term.parts
  | .group inner => .group inner :: inner.parts
  | .const value => [.const value]
  | .enumerated value => [.enumerated value]
  | .var source => .var source :: source.parts
  | .call function arguments => .call function arguments :: Argument.partsList arguments

def Expr.partsList : List Expr → List Expr
  | [] => []
  | expr :: exprs => expr.parts ++ Expr.partsList exprs

def Argument.partsList : List Argument → List Expr
  | [] => []
  | .positional value :: rest => value.parts ++ Argument.partsList rest
  | .named _ value :: rest => value.parts ++ Argument.partsList rest
  | .output _ _ target :: rest => target.parts ++ Argument.partsList rest

end

/-! ## Statements inside statements -/

mutual

def Stmt.all : Stmt → List Stmt
  | .ifElse condition body elseIfs otherwise =>
      .ifElse condition body elseIfs otherwise ::
        (Stmt.allList body ++ ElseIf.allList elseIfs ++ Stmt.allList otherwise)
  | .select selector groups otherwise =>
      .select selector groups otherwise :: (CaseGroup.allList groups ++ Stmt.allList otherwise)
  | .forTo control first last step body =>
      .forTo control first last step body :: Stmt.allList body
  | .whileDo condition body => .whileDo condition body :: Stmt.allList body
  | .repeatUntil body condition => .repeatUntil body condition :: Stmt.allList body
  | stmt => [stmt]

def Stmt.allList : List Stmt → List Stmt
  | [] => []
  | stmt :: stmts => stmt.all ++ Stmt.allList stmts

def ElseIf.allList : List ElseIf → List Stmt
  | [] => []
  | .mk _ body :: elseIfs => Stmt.allList body ++ ElseIf.allList elseIfs

def CaseGroup.allList : List CaseGroup → List Stmt
  | [] => []
  | .mk _ body :: groups => Stmt.allList body ++ CaseGroup.allList groups

end

/-- The expressions of a statement with what is inside them, but not those of the
statements in it. -/
def Stmt.parts : Stmt → List Expr
  | .assign target value => target.parts ++ value.parts
  | .invoke _ arguments => Argument.partsList arguments
  | .ifElse condition _ elseIfs _ =>
      condition.parts ++ elseIfs.flatMap fun elseIf => elseIf.condition.parts
  | .select selector _ _ => selector.parts
  | .forTo _ first last step _ => first.parts ++ last.parts ++ (step.map Expr.parts).getD []
  | .whileDo condition _ => condition.parts
  | .repeatUntil _ condition => condition.parts
  | .leaveUnit | .leaveLoop | .pragma _ => []

def Stmt.partsList (stmts : List Stmt) : List Expr := (Stmt.allList stmts).flatMap Stmt.parts

end StructuredText
