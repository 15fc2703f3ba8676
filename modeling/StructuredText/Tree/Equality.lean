import StructuredText.Tree.Library

/-!
# Equality of programs

Two trees are the same program when they have the same shape, the same tokens
and the same identifiers up to case.
-/

set_option autoImplicit false

namespace StructuredText

mutual

def Reference.same : Reference → Reference → Bool
  | .named left, .named right => left == right
  | .element left subscripts, .element right subscripts' =>
      left.same right && Expr.sameList subscripts subscripts'
  | .field left name, .field right name' => left.same right && name == name'
  | _, _ => false

def Variable.same : Variable → Variable → Bool
  | .direct left, .direct right => left == right
  | .symbolic left, .symbolic right => left.same right
  | _, _ => false

def Expr.same : Expr → Expr → Bool
  | .compare op left right, .compare op' left' right' =>
      op == op' && left.same left' && right.same right'
  | .arith op left right, .arith op' left' right' =>
      op == op' && left.same left' && right.same right'
  | .unary op term, .unary op' term' => op == op' && term.same term'
  | .group left, .group right => left.same right
  | .const left, .const right => left == right
  | .enumerated left, .enumerated right => left == right
  | .var left, .var right => left.same right
  | .call function arguments, .call function' arguments' =>
      function == function' && Argument.sameList arguments arguments'
  | _, _ => false

def Expr.sameList : List Expr → List Expr → Bool
  | [], [] => true
  | left :: lefts, right :: rights => left.same right && Expr.sameList lefts rights
  | _, _ => false

def Argument.same : Argument → Argument → Bool
  | .positional left, .positional right => left.same right
  | .named name value, .named name' value' => name == name' && value.same value'
  | .output isNegated source target, .output isNegated' source' target' =>
      isNegated == isNegated' && source == source' && target.same target'
  | _, _ => false

def Argument.sameList : List Argument → List Argument → Bool
  | [], [] => true
  | left :: lefts, right :: rights => left.same right && Argument.sameList lefts rights
  | _, _ => false

end

/-- Equality of an optional step. -/
def Expr.sameOption : Option Expr → Option Expr → Bool
  | none, none => true
  | some left, some right => left.same right
  | _, _ => false

mutual

def Stmt.same : Stmt → Stmt → Bool
  | .assign target value, .assign target' value' => target.same target' && value.same value'
  | .invoke block arguments, .invoke block' arguments' =>
      block == block' && Argument.sameList arguments arguments'
  | .ifElse condition body elseIfs otherwise, .ifElse condition' body' elseIfs' otherwise' =>
      condition.same condition' && Stmt.sameList body body' &&
        ElseIf.sameList elseIfs elseIfs' && Stmt.sameList otherwise otherwise'
  | .select selector groups otherwise, .select selector' groups' otherwise' =>
      selector.same selector' && CaseGroup.sameList groups groups' &&
        Stmt.sameList otherwise otherwise'
  | .forTo control first last step body, .forTo control' first' last' step' body' =>
      control == control' && first.same first' && last.same last' &&
        Expr.sameOption step step' && Stmt.sameList body body'
  | .whileDo condition body, .whileDo condition' body' =>
      condition.same condition' && Stmt.sameList body body'
  | .repeatUntil body condition, .repeatUntil body' condition' =>
      Stmt.sameList body body' && condition.same condition'
  | .leaveUnit, .leaveUnit => true
  | .leaveLoop, .leaveLoop => true
  | .pragma left, .pragma right => left == right
  | _, _ => false

def Stmt.sameList : List Stmt → List Stmt → Bool
  | [], [] => true
  | left :: lefts, right :: rights => left.same right && Stmt.sameList lefts rights
  | _, _ => false

def ElseIf.sameList : List ElseIf → List ElseIf → Bool
  | [], [] => true
  | .mk condition body :: lefts, .mk condition' body' :: rights =>
      condition.same condition' && Stmt.sameList body body' && ElseIf.sameList lefts rights
  | _, _ => false

def CaseGroup.sameList : List CaseGroup → List CaseGroup → Bool
  | [], [] => true
  | .mk labels body :: lefts, .mk labels' body' :: rights =>
      labels == labels' && Stmt.sameList body body' && CaseGroup.sameList lefts rights
  | _, _ => false

end

def Element.same : Element → Element → Bool
  | .type left, .type right => left == right
  | .function left, .function right =>
      left.name == right.name && left.returnType == right.returnType &&
        left.vars == right.vars && Stmt.sameList left.body right.body
  | .functionBlock left, .functionBlock right =>
      left.name == right.name && left.vars == right.vars &&
        Stmt.sameList left.body right.body
  | .program left, .program right =>
      left.name == right.name && left.vars == right.vars &&
        Stmt.sameList left.body right.body
  | .pragma left, .pragma right => left == right
  | _, _ => false

def Element.sameList : List Element → List Element → Bool
  | [], [] => true
  | left :: lefts, right :: rights => left.same right && Element.sameList lefts rights
  | _, _ => false

/-- Equality of libraries, element by element in order. -/
def Library.same (left right : Library) : Bool :=
  Element.sameList left.elements right.elements

end StructuredText
