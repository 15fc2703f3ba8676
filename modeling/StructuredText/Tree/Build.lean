import StructuredText.Tree.Library

/-!
# Building trees by hand

Short ways to write the parts of a library that come up most.
-/

set_option autoImplicit false

namespace StructuredText

namespace Constant

/-- A decimal integer, possibly with a type. -/
def ofText (text : String) (type : Option Elementary := none) : Except TokenError Constant :=
  (SignedToken.parse text).map fun value => .integer value type

/-- A real number without a type. -/
def realOfText (text : String) : Except TokenError Constant :=
  (RealToken.parse text).map .real

/-- A string of single-byte characters. -/
def text (value : String) : Constant := .string { value }

end Constant

namespace Expr

/-- A number without a type. -/
def ofInt (value : Int) : Expr := .const (.integer (SignedToken.ofInt value))

/-- The variable of a name. -/
def named (name : Ident) : Expr := .var (.named name)

end Expr

/-- Both bounds from their text, the lower one first. -/
def Range.ofText (start stop : String) : Except TokenError Range := do
  let start ← SignedToken.parse start
  let stop ← SignedToken.parse stop
  return { start, stop }

namespace Variable

/-- A field of a variable. -/
def fieldOf (record field : Ident) : Variable := .symbolic (.field (.named record) field)

/-- An element of an array. -/
def elementOf (array : Ident) (subscripts : List Expr) : Variable :=
  .symbolic (.element (.named array) subscripts)

end Variable

namespace VarDecl

/-- A local variable of a type, possibly with a value to start with. -/
def simple (name type : Ident) (value : Option Constant := none) : VarDecl :=
  { name := .symbol name, initializer := .simple type value }

/-- An instance of a function block. -/
def instanceOf (name type : Ident) : VarDecl :=
  { name := .symbol name, initializer := .functionBlock type }

/-- An array written out where it is declared. -/
def array (name : Ident) (ranges : List Range) (element : Ident) : VarDecl :=
  { name := .symbol name, initializer := .array (.inline { ranges, element }) }

/-- A variable at a place of the hardware. -/
def located (name : Ident) (address : Address) (type : Ident) : VarDecl :=
  { name := .located (some name) address, initializer := .simple type }

end VarDecl

namespace Stmt

/-- A conditional with one condition. -/
def ifThen (condition : Expr) (body : List Stmt) (otherwise : List Stmt := []) : Stmt :=
  .ifElse condition body [] otherwise

/-- One variable assigned to another. -/
def copy (target source : Ident) : Stmt := .assign (.named target) (.named source)

/-- An invocation whose inputs are variables given by name. -/
def invokeNamed (block : Ident) (inputs : List (Ident × Ident)) : Stmt :=
  .invoke block (inputs.map fun (name, source) => .named name (.named source))

end Stmt

end StructuredText
