import StructuredText.Analysis.Context
import StructuredText.Code.Literal
import StructuredText.Code.Tree

/-!
# Lowering type declarations

Declared types come in source order.  An array that is written out where it is
used is declared once, ahead of the first declaration that needs it; those that
only variables need come last.
-/

set_option autoImplicit false

namespace StructuredText

/-- The declarations made so far and the names of the arrays among them. -/
structure DeclaredTypes where
  decls : List Code.TypeDecl := []
  arrays : List Ident := []

namespace DeclaredTypes

def add (declared : DeclaredTypes) (decl : Code.TypeDecl) : DeclaredTypes :=
  { declared with decls := declared.decls ++ [decl] }

/-- Declares an array unless an array of the name is declared. -/
def addArray (declared : DeclaredTypes) (name : Ident) (dimensions : List Dimension)
    (element : DataType) : DeclaredTypes :=
  if declared.arrays.contains name then declared
  else
    { decls :=
        declared.decls ++ [.array name.upper element.cName (dimensions.map Dimension.length)]
      arrays := declared.arrays ++ [name] }

/-- Declares the array that a type is, if it is one without a declaration of its
own, after the array that its elements are. -/
def addInline (declared : DeclaredTypes) : DataType → DeclaredTypes
  | .array name dimensions element =>
      if name.name.startsWith DataType.inlineMark then
        (declared.addInline element).addArray name dimensions element
      else declared
  | _ => declared

/-- Declares a type of the program. -/
def addDecl (declared : DeclaredTypes) (context : Context) (decl : TypeDecl) :
    Except Fault DeclaredTypes := do
  let name := decl.name.upper
  match context.types.type? decl.name, decl with
  | none, _ => .error (.internal .typeNotResolved decl.name.span)
  | some _, .string _ length _ =>
      match length.value with
      | .ok length => .ok (declared.add (.string name length))
      | .error _ => .error (.internal .typeNotResolved decl.name.span)
  | some (.synonym _ base), _ => .ok (declared.add (.derived name base.cName))
  | some (.subrange _ base lower upper), _ =>
      .ok (declared.add (.subrange name base.cName lower upper))
  | some (.enumeration _ values), _ =>
      .ok (declared.add (.enumeration name (values.map Ident.upper)))
  | some (.array arrayName dimensions element), _ =>
      .ok ((declared.addInline element).addArray arrayName dimensions element)
  | some (.record _ fields), _ =>
      let declared := fields.foldl (fun declared field => declared.addInline field.2) declared
      .ok (declared.add
        (.record name (fields.map fun field => (field.1.upper, field.2.cName))))
  | some other, _ =>
      .error (.internalWith .unexpectedNode decl.name.span "type" other.cName)

def addDecls (context : Context) :
    DeclaredTypes → List TypeDecl → Except Fault DeclaredTypes
  | declared, [] => .ok declared
  | declared, decl :: decls => do
      let declared ← declared.addDecl context decl
      addDecls context declared decls

/-- Declares the arrays that variables need. -/
def addVariables (declared : DeclaredTypes) (context : Context) (vars : List VarDecl) :
    DeclaredTypes :=
  vars.foldl (fun declared decl =>
    match context.typeOf decl with
    | .ok type => declared.addInline type
    | .error _ => declared) declared

end DeclaredTypes

/-- The type declarations of a library. -/
def Library.lowerTypes (library : Library) (context : Context) :
    Except Fault (List Code.TypeDecl) := do
  let declared ← DeclaredTypes.addDecls context {} library.typeDecls
  return (declared.addVariables context (library.elements.flatMap Element.vars)).decls

/-- The initial value that a declaration states, if it states one. -/
def VarDecl.statedValue (decl : VarDecl) (type : DataType) : Except Fault (Option String) :=
  match decl.initializer with
  | .simple _ (some value) => (Code.Literal.constant value).map some
  | .string _ _ (some value) => (Code.Literal.string value).map some
  | .enumerated _ (some value) =>
      .ok (some (Code.Literal.enumerated type.resolved.cName value.value))
  | _ => .ok none

/-- The value that a variable starts with. -/
def VarDecl.initialValue (decl : VarDecl) (type : DataType) : Except Fault String := do
  match (← decl.statedValue type) with
  | some value => return value
  | none => Code.Literal.initial type

end StructuredText
