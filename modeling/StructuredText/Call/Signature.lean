import StructuredText.Tree.Constant
import StructuredText.Types.DataType

/-!
# Signatures of functions and function blocks

Every function and every function block has an implicit input `EN` and an
implicit output `ENO` before its own parameters.  One parameter of a standard
function may be extensible: it stands for any number of arguments, which are
named by the parameter and a position that starts at one.
-/

set_option autoImplicit false

namespace StructuredText

/-- The way a parameter passes values.  An external reference is not bound by
calls. -/
inductive Direction where
  | input | output | inOut | external
deriving DecidableEq, Repr

structure Parameter where
  name : Ident
  direction : Direction := .input
  type : DataType
  /-- The value of an input that a call leaves open. -/
  default : Option Constant := none
  isExtensible : Bool := false
  isImplicit : Bool := false

namespace Parameter

def input (name : String) (type : Elementary) : Parameter :=
  { name := { name }, type := .elementary type }

def output (name : String) (type : Elementary) : Parameter :=
  { name := { name }, direction := .output, type := .elementary type }

def extensible (name : String) (type : Elementary) : Parameter :=
  { name := { name }, type := .elementary type, isExtensible := true }

/-- The implicit input. -/
def en : Parameter :=
  { name := { name := "EN" }, type := .elementary .bool, default := some (.boolean true)
    isImplicit := true }

/-- The implicit output. -/
def eno : Parameter :=
  { name := { name := "ENO" }, direction := .output, type := .elementary .bool
    isImplicit := true }

/-- The parameters that come before those declared. -/
def implicit : List Parameter := [en, eno]

/-- True if a call may pass a value in. -/
def isInput (parameter : Parameter) : Bool :=
  match parameter.direction with
  | .input | .inOut => true
  | .output | .external => false

/-- True if a call may take a value out. -/
def isOutput (parameter : Parameter) : Bool :=
  match parameter.direction with
  | .output | .inOut => true
  | .input | .external => false

/-- The position that a name has in the group of an extensible parameter: `IN3`
is the third of `IN`. -/
def position? (parameter : Parameter) (name : Ident) : Option Nat :=
  let stem := parameter.name.key.toList
  let chars := name.key.toList
  if parameter.isExtensible && stem.isPrefixOf chars then
    let digits := chars.drop stem.length
    if digits.all Char.isDigit then
      (Text.readNat? 10 digits).filter fun position => 0 < position ∧ position < Nat.pow 2 64
    else none
  else none

end Parameter

structure FunctionSignature where
  name : Ident
  returnType : DataType
  /-- The parameters in the order of declaration, the implicit ones first. -/
  parameters : List Parameter
  span : Span := {}

namespace FunctionSignature

/-- A function that comes with the compiler. -/
def standard (name : Ident) (returnType : DataType) (parameters : List Parameter) :
    FunctionSignature :=
  { name, returnType, parameters := Parameter.implicit ++ parameters, span := Span.builtIn }

def isStandard (signature : FunctionSignature) : Bool := signature.span.file.isBuiltIn

/-- The parameters other than the implicit ones. -/
def explicit (signature : FunctionSignature) : List Parameter :=
  signature.parameters.filter fun parameter => !parameter.isImplicit

def hasExtensible (signature : FunctionSignature) : Bool :=
  signature.parameters.any Parameter.isExtensible

end FunctionSignature

structure BlockSignature where
  name : Ident
  parameters : List Parameter
  span : Span := {}

namespace BlockSignature

/-- A function block that comes with the compiler. -/
def standard (name : Ident) (parameters : List Parameter) : BlockSignature :=
  { name, parameters := Parameter.implicit ++ parameters, span := Span.builtIn }

def isStandard (signature : BlockSignature) : Bool := signature.span.file.isBuiltIn

/-- The first parameter of a name. -/
def find? (signature : BlockSignature) (name : Ident) : Option Parameter :=
  signature.parameters.find? fun parameter => parameter.name == name

end BlockSignature

end StructuredText
