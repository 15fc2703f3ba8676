import StructuredText.Fault
import StructuredText.Table
import StructuredText.Tree.Library

/-!
# The types in scope

A type table holds the elementary types and the declared ones.  Declarations may
refer to types declared after them: the table is built in rounds, each of which
resolves what refers to known types only, until a round resolves nothing.
-/

set_option autoImplicit false

namespace StructuredText

/-- The bounds of a range, if both have a value. -/
def Range.dimension? (range : Range) : Option Dimension := do
  let lower ← range.start.value?
  let upper ← range.stop.value?
  return { lower, upper }

abbrev TypeTable := Table DataType

namespace TypeTable

/-- The type that a name means.  The spellings of the elementary types always
mean these. -/
def type? (types : TypeTable) (name : Ident) : Option DataType :=
  match Elementary.ofIdent? name with
  | some type => some (.elementary type)
  | none => types.get? name

/-- Declares a type under a name that is not taken. -/
def declare (types : TypeTable) (name : Ident) (type : DataType) : Except Fault TypeTable :=
  if types.contains name then .error (.duplicateType name) else .ok (types.push name type)

/-- True for an enumeration with the value. -/
def hasValue (value : Ident) : DataType → Bool
  | .enumeration _ values => values.contains value
  | _ => false

/-- The declared enumerations with the value, in the order of their generated
names. -/
def enumerationsWith (types : TypeTable) (value : Ident) : List DataType :=
  ((types.entries.map Prod.snd).filter (hasValue value)).mergeSort fun left right =>
    left.cName ≤ right.cName

/-- The dimensions and the element type of an array. -/
def shape? (types : TypeTable) (shape : ArrayShape) : Option (List Dimension × DataType) := do
  let element ← types.type? shape.element
  let dimensions ← shape.ranges.mapM Range.dimension?
  return (dimensions, element)

/-- The type of an array specification. -/
def array? (types : TypeTable) : ArraySpec → Option DataType
  | .named type => types.type? type
  | .inline shape =>
      (types.shape? shape).map fun (dimensions, element) => .inlineArray dimensions element

/-- The type that an initializer declares.  A function block is taken at its
word: whether it exists is not known here. -/
def initializer? (types : TypeTable) : Initializer → Option DataType
  | .simple type _ => types.type? type
  | .string _ width _ => some (.elementary width.type)
  | .enumerated type _ => types.type? type
  | .functionBlock type => some (.functionBlock type)
  | .array spec => types.array? spec

/-- What a declaration means, if all that it refers to is known. -/
def declaration? (types : TypeTable) : TypeDecl → Option DataType
  | .synonym name base => (types.type? base).map (.synonym name)
  | .subrange name base range =>
      range.dimension?.map fun bounds => .subrange name base bounds.lower bounds.upper
  | .enumeration name values => some (.enumeration name values)
  | .array name shape =>
      (types.shape? shape).map fun (dimensions, element) => .array name dimensions element
  | .record name fields =>
      (fields.mapM fun field =>
        (types.initializer? field.initializer).map fun type => (field.name, type)).map
          (.record name)
  | .string name _ width => some (.synonym name (.elementary width.type))

/-- A table under construction: what is declared so far, the faults found, and
the declarations that wait for others. -/
structure Progress where
  types : TypeTable
  faults : List Fault := []
  waiting : List TypeDecl := []

/-- Takes one declaration. -/
def Progress.step (progress : Progress) (decl : TypeDecl) : Progress :=
  match progress.types.declaration? decl with
  | none => { progress with waiting := progress.waiting ++ [decl] }
  | some type =>
      match progress.types.declare decl.name type with
      | .ok types => { progress with types }
      | .error fault => { progress with faults := progress.faults ++ [fault] }

/-- One round over the declarations that wait. -/
def Progress.round (progress : Progress) : Progress :=
  progress.waiting.foldl Progress.step { progress with waiting := [] }

/-- Rounds until nothing waits or a round resolves nothing.  Every other round
resolves a declaration, so as many rounds as there are declarations suffice. -/
def Progress.rounds : Nat → Progress → Progress
  | 0, progress => progress
  | bound + 1, progress =>
      let next := progress.round
      if next.waiting.isEmpty || next.waiting.length == progress.waiting.length then next
      else Progress.rounds bound next

/-- The table of the elementary types. -/
def elementary : TypeTable :=
  { entries := Elementary.all.map fun type => (type.ident, .elementary type) }

/-- Adds declarations to a table.  The faults are the names declared twice, in
the order they were met, and then the declarations that could not be resolved. -/
def build (start : TypeTable) (decls : List TypeDecl) : Except (List Fault) TypeTable :=
  let done := Progress.rounds (decls.length + 1) { types := start, waiting := decls }
  match done.faults ++ done.waiting.map fun decl => .unresolvedType decl.name with
  | [] => .ok done.types
  | faults => .error faults

end TypeTable

end StructuredText
