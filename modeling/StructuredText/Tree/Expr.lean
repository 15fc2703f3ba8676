import StructuredText.Tree.Declaration

/-!
# Variables and expressions

References, expressions and the arguments of calls depend on one another: a
subscript is an expression, an expression may be a call, and an argument may
name a variable that receives an output.
-/

set_option autoImplicit false

namespace StructuredText

/-- Comparisons and the logical operators. -/
inductive CompareOp where
  | or | xor | and | eq | ne | lt | gt | le | ge
deriving DecidableEq, Repr

inductive ArithOp where
  | add | sub | mul | div | mod | pow
deriving DecidableEq, Repr

inductive UnaryOp where
  | neg | not
deriving DecidableEq, Repr

mutual

/-- A declared variable, followed by fields and subscripts. -/
inductive Reference where
  | named (name : Ident)
  | element (array : Reference) (subscripts : List Expr)
  | field (record : Reference) (name : Ident)

/-- A variable of the program or a place of the hardware. -/
inductive Variable where
  | direct (address : Address)
  | symbolic (reference : Reference)

inductive Expr where
  | compare (op : CompareOp) (left right : Expr)
  | arith (op : ArithOp) (left right : Expr)
  | unary (op : UnaryOp) (term : Expr)
  | group (inner : Expr)
  | const (value : Constant)
  | enumerated (value : EnumValue)
  | var (source : Variable)
  | call (function : Ident) (arguments : List Argument)

/-- An argument of a call: an input by position or by name, or an output with
the variable that receives it. -/
inductive Argument where
  | positional (value : Expr)
  | named (name : Ident) (value : Expr)
  | output (isNegated : Bool) (source : Ident) (target : Variable)

end

namespace Reference

/-- The declared variable at the start of the reference. -/
def root : Reference → Ident
  | named name => name
  | element array _ => array.root
  | field record _ => record.root

/-- The reference for a reader; subscripts show as blanks. -/
def display : Reference → String
  | named name => name.name
  | element array subscripts =>
      array.display ++ "[" ++ ",".intercalate (subscripts.map fun _ => "_") ++ "]"
  | field record name => record.display ++ "." ++ name.name

def span (reference : Reference) : Span := reference.root.span

end Reference

namespace Variable

def display : Variable → String
  | direct address => address.display
  | symbolic reference => reference.display

/-- The place of a variable; places of the hardware have none. -/
def span : Variable → Span
  | direct _ => {}
  | symbolic reference => reference.span

/-- The variable of a name. -/
def named (name : Ident) : Variable := .symbolic (.named name)

end Variable

/-- The place of an expression: that of its leftmost name, if it starts with one. -/
def Expr.span : Expr → Span
  | var source => source.span
  | call function _ => function.span
  | group inner => inner.span
  | compare _ left _ => left.span
  | arith _ left _ => left.span
  | unary _ term => term.span
  | const _ | enumerated _ => {}

end StructuredText
