/-!
# Generated code as a tree

The code that units are compiled to, before it is laid out as text.  The body of
a function names its variables; the body of a function block or program reaches
them through accessors, which take the handle of the instance.
-/

set_option autoImplicit false

namespace StructuredText.Code

inductive BinaryOp where
  | add | sub | mul | div | rem | eq | ne | lt | gt | le | ge
  | logicalAnd | logicalOr | bitAnd | bitOr | bitXor
deriving DecidableEq, Repr

inductive UnaryOp where
  | minus | logicalNot | complement | address
deriving DecidableEq, Repr

/-- The accessors for the ways in which a unit stores its variables. -/
inductive Family where
  | own | located | external | externalBlock
deriving DecidableEq, Repr

mutual

inductive Expr where
  /-- A constant or a name. -/
  | atom (text : String)
  | paren (inner : Expr)
  | unary (op : UnaryOp) (term : Expr)
  /-- An operation in brackets of its own. -/
  | binary (op : BinaryOp) (left right : Expr)
  /-- One of two values, in brackets of its own. -/
  | choose (condition yes no : Expr)
  /-- The next value of a counter: a sum without brackets. -/
  | next (value step : Expr)
  | cast (type : String) (value : Expr)
  /-- A call on one line. -/
  | call (function : String) (arguments : List Expr)
  /-- A call with each argument on a line of its own. -/
  | callLines (function : String) (arguments : List Expr)
  | load (place : Place)
  /-- A pointer to a place. -/
  | pointer (place : Place)

/-- Where a value is kept. -/
inductive Place where
  /-- A place of the hardware, reached through the pointer of the name. -/
  | pin (name : String)
  | named (root : String) (path : Path)
  /-- A variable that an accessor reaches as a whole. -/
  | member (family : Family) (handle root : String)
  /-- A part of a variable that an accessor reaches. -/
  | part (family : Family) (handle root : String) (path : Path)

/-- The way from a variable to a part of it. -/
inductive Path where
  | here
  | field (record : Path) (name : String)
  | cell (array : Path) (subscripts : List Subscript)

/-- A subscript with the lower bound that it counts from. -/
inductive Subscript where
  | mk (value : Expr) (lower : Int)

end

/-- A value on its way to a place. -/
structure Store where
  place : Place
  value : Expr

/-- How a counter goes on after each round. -/
inductive Step where
  /-- By one. -/
  | one
  /-- By a number that is not negative. -/
  | upward (step : Expr)
  /-- By a value whose sign shows only at run time. -/
  | either (step : Expr)

mutual

inductive Stmt where
  | store (store : Store)
  /-- Copies into a function block, runs it and copies out of it. -/
  | invoke (before : List Store) (run : Expr) (after : List Store)
  | ifElse (condition : Expr) (body : List Stmt) (elseIfs : List Branch) (otherwise : List Stmt)
  /-- Single values select by label; ranges are tested in order where no label
  fits. -/
  | select (type : String) (selector : Expr) (cases : List Case) (ranges : List RangeCase)
      (otherwise : List Stmt)
  /-- A counting loop over a variable that has a name. -/
  | forLoop (control : Place) (first last : Expr) (step : Step) (body : List Stmt)
      (exit : Option Nat)
  /-- A counting loop over a variable behind accessors; `next` is stored after
  each round. -/
  | countLoop (control : Place) (first last : Expr) (step : Step) (next : Expr)
      (body : List Stmt) (exit : Option Nat)
  | whileLoop (condition : Expr) (body : List Stmt) (exit : Option Nat)
  | untilLoop (body : List Stmt) (condition : Expr) (exit : Option Nat)
  | leaveUnit
  | leaveLoop
  /-- Leaves the loop of a number from within a selection. -/
  | jumpOut (loop : Nat)
  /-- Text of the program itself. -/
  | code (text : String)
  /-- Text of the program itself that may use the accessors. -/
  | accessorCode (text : String)
  | switch (on : Bool)

inductive Branch where
  | mk (condition : Expr) (body : List Stmt)

inductive Case where
  | mk (labels : List String) (body : List Stmt)

/-- Ranges given by their bounds, and what is done in each of them. -/
inductive RangeCase where
  | mk (ranges : List (String × String)) (body : List Stmt)

end

/-! ## Declarations and definitions -/

inductive TypeDecl where
  | string (name : String) (length : Nat)
  | derived (name base : String)
  | subrange (name base : String) (lower upper : Int)
  | enumeration (name : String) (values : List String)
  | array (name element : String) (lengths : List Int)
  | record (name : String) (fields : List (String × String))

/-- A parameter in the heading of a function, by value or by pointer. -/
structure Formal where
  type : String
  name : String
  byPointer : Bool := false

/-- How a variable of a function starts. -/
inductive Local where
  /-- With what the pointer of its name points to. -/
  | copied (type name : String)
  /-- With zeros throughout. -/
  | cleared (type name : String)
  | initialized (type name value : String)

structure FunctionDef where
  /-- The name that the program gives the function, which is also that of the
  result. -/
  unit : String
  /-- The name that calls use. -/
  name : String
  returnType : String
  formals : List Formal
  locals : List Local
  resultValue : String
  body : List Stmt

/-- A variable of a unit that keeps its variables in a structure.  The flag tells
whether the value outlives a restart. -/
inductive Member where
  | located (type name location retain : String) (value : Option String)
  | external (type name retain : String)
  | block (type name retain : String)
  | compound (type name : String)
  | plain (type name value retain : String)

/-- A variable of a unit, and whether other units see it. -/
structure Slot where
  member : Member
  isInterface : Bool

/-- A function that makes a call with outputs on behalf of a unit: it keeps the
outputs in variables of its own and then stores each of them. -/
structure Helper where
  /-- The unit whose variables it stores to. -/
  unit : String
  name : String
  returnType : String
  formals : List Formal
  callee : String
  temporaries : List (String × String × Expr)
  arguments : List Expr
  stores : List Store
  /-- The depth that the lines of its expressions are laid out at. -/
  depth : Nat

inductive UnitKind where
  | functionBlock | program
deriving DecidableEq, Repr

structure UnitDef where
  kind : UnitKind
  name : String
  /-- The variables in the order of their initialization. -/
  slots : List Slot
  helpers : List Helper
  body : List Stmt

inductive Element where
  | function (definition : FunctionDef)
  | unit (definition : UnitDef)
  | code (text : String)
  | switch (on : Bool)

structure File where
  types : List TypeDecl
  elements : List Element

end StructuredText.Code
