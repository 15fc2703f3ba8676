import StructuredText.Analysis.Context
import StructuredText.Scope.Stack

/-!
# Variables in scope

What is known of a declared variable, how the variables of a unit come into
scope, and what a reference to a variable refers to.
-/

set_option autoImplicit false

namespace StructuredText

/-- Where a variable lives: in the unit, at a place of the hardware, or in
another unit. -/
inductive Storage where
  | own | located | external
deriving DecidableEq, Repr

structure VariableEntry where
  name : Ident
  storage : Storage := .own
  type : DataType
  kind : VarKind
  isConstant : Bool := false
  location : Option Address := none

abbrev Scope := ScopeStack VariableEntry

namespace Scope

/-- The storage that a declaration asks for. -/
def storageOf (decl : VarDecl) : Storage :=
  match decl.name, decl.kind with
  | .located .., _ => .located
  | .symbol _, .external => .external
  | .symbol _, _ => .own

/-- What is known of a variable once its type is. -/
def entryOf (decl : VarDecl) (name : Ident) (type : DataType) : VariableEntry :=
  { name, storage := storageOf decl, type, kind := decl.kind
    isConstant := decl.qualifier == .constant, location := decl.name.address? }

/-- Declares one variable; a declaration without a name declares nothing. -/
def declareOne (context : Context) (scope : Scope) (decl : VarDecl) : Scope × Option Fault :=
  match decl.name.ident? with
  | none => (scope, none)
  | some name =>
      match context.typeOf decl with
      | .error fault => (scope, some fault)
      | .ok type =>
          if (scope.lookupCurrent name).isSome then (scope, some (.duplicateVariable name))
          else (scope.tryBind name (entryOf decl name type), none)

/-- Declares the variables of a unit in the current scope.  Of two declarations
of one name the first counts. -/
def declare (context : Context) (scope : Scope) : List VarDecl → Scope × List Fault
  | [] => (scope, [])
  | decl :: decls =>
      let (scope, fault) := declareOne context scope decl
      let (scope, faults) := declare context scope decls
      (scope, fault.toList ++ faults)

/-- Declares the variable for the result of a function, which has its name. -/
def declareResult (scope : Scope) (name : Ident) (type : DataType) : Scope :=
  scope.bind name { name, type, kind := .output }

/-- Declares the implicit variables of functions and function blocks. -/
def declareImplicit (scope : Scope) : Scope :=
  let bool : DataType := .elementary .bool
  (scope.bind { name := "EN" } { name := { name := "EN" }, type := bool, kind := .input }).bind
    { name := "ENO" } { name := { name := "ENO" }, type := bool, kind := .output }

/-! ## References -/

/-- The declaration at the start of a reference. -/
def entryFor? (scope : Scope) (reference : Reference) : Option VariableEntry :=
  scope.lookup reference.root

/-- Where the variable of a reference lives. -/
def storage? (scope : Scope) : Variable → Option Storage
  | .direct _ => some .located
  | .symbolic reference => (scope.entryFor? reference).map VariableEntry.storage

/-- True if a reference goes into an array, a record or a function block. -/
def isCompound? (scope : Scope) : Variable → Option Bool
  | .direct _ => some false
  | .symbolic reference => (scope.entryFor? reference).map fun entry => entry.type.isCompound

/-- True if a reference goes into a function block. -/
def isFunctionBlock? (scope : Scope) : Variable → Option Bool
  | .direct _ => some false
  | .symbolic reference => (scope.entryFor? reference).map fun entry => entry.type.isFunctionBlock

end Scope

namespace Context

/-- The type of a field of a record or of a parameter of a function block. -/
def field? (context : Context) (record : DataType) (name : Ident) : Option DataType :=
  match record.resolved with
  | .record _ fields => (fields.find? fun field => field.1 == name).map Prod.snd
  | .functionBlock block =>
      ((context.functions.block? block).bind fun signature => signature.find? name).map
        Parameter.type
  | _ => none

/-- The type of what a reference refers to. -/
def referenceType (context : Context) (scope : Scope) : Reference → Except Fault DataType
  | .named name =>
      match scope.lookup name with
      | some entry => .ok entry.type
      | none => .error (.undeclaredVariable name)
  | .field record name => do
      let type ← referenceType context scope record
      match context.field? type name with
      | some found => .ok found
      | none => .error (.undeclaredField name type)
  | .element array subscripts => do
      let type ← referenceType context scope array
      match type.resolved with
      | .array _ dimensions element =>
          if dimensions.length = subscripts.length then .ok element
          else .error (.subscriptCount array.span dimensions.length subscripts.length)
      | other => .error (.notAnArray array.span other)

/-- The bounds of a dimension of the array that a reference names. -/
def dimension (context : Context) (scope : Scope) (array : Reference) (index : Nat) :
    Except Fault Dimension :=
  match (context.referenceType scope array).map DataType.resolved with
  | .ok (.array _ dimensions _) =>
      match dimensions[index]? with
      | some dimension => .ok dimension
      | none => .error (.internal .arrayDimensionUnresolved array.span)
  | _ => .error (.internal .arrayDimensionUnresolved array.span)

/-- The type of a variable. -/
def variableType (context : Context) (scope : Scope) : Variable → Except Fault DataType
  | .direct address => .ok (.elementary address.size.type)
  | .symbolic reference => context.referenceType scope reference

end Context

end StructuredText
