import StructuredText.Call.Standard
import StructuredText.Types.Table

/-!
# The functions and function blocks in scope

A function may be declared more than once: its declarations are kept in order.
A function block has one declaration.
-/

set_option autoImplicit false

namespace StructuredText

/-- The type of a declared variable.  A name that is no type may be a function
block. -/
def VarDecl.type (types : TypeTable) (blocks : List Ident) (decl : VarDecl) :
    Except Fault DataType :=
  match decl.initializer with
  | .simple type _ =>
      match types.type? type with
      | some found => .ok found
      | none =>
          if blocks.contains type then .ok (.functionBlock type)
          else .error (.undeclaredVariableType type)
  | .functionBlock type =>
      if blocks.contains type then .ok (.functionBlock type)
      else .error (.undeclaredVariableType type)
  | initializer =>
      match types.initializer? initializer with
      | some found => .ok found
      | none => .error (.undeclaredVariableType (decl.name.ident?.getD { name := "?" }))

/-- The value that a declaration gives to an input that a call leaves open. -/
def VarDecl.default? (decl : VarDecl) : Option Constant :=
  match decl.initializer with
  | .simple _ value => value
  | .string _ _ value => value.map .string
  | _ => none

/-- The way a section of declarations passes values, if it does. -/
def VarKind.direction? : VarKind → Option Direction
  | .input => some .input
  | .output => some .output
  | .inOut => some .inOut
  | .external => some .external
  | .var | .temp | .global => none

/-- The faults of a list of results, or all the values. -/
def collect {α : Type} : List (Except Fault α) → Except (List Fault) (List α)
  | [] => .ok []
  | .ok value :: rest => (collect rest).map (value :: ·)
  | .error fault :: rest =>
      match collect rest with
      | .ok _ => .error [fault]
      | .error faults => .error (fault :: faults)

/-- The parameter that a variable declares, if it declares one. -/
def VarDecl.parameter? (types : TypeTable) (blocks : List Ident) (decl : VarDecl) :
    Option (Except Fault Parameter) := do
  let direction ← decl.kind.direction?
  let name ← decl.name.ident?
  return (decl.type types blocks).map fun type =>
    { name, direction, type, default := decl.default? }

/-- The parameters that variables declare, after the implicit ones. -/
def parametersOf (types : TypeTable) (blocks : List Ident) (vars : List VarDecl) :
    Except (List Fault) (List Parameter) :=
  (collect (vars.filterMap (VarDecl.parameter? types blocks))).map (Parameter.implicit ++ ·)

def FunctionDecl.signature (types : TypeTable) (blocks : List Ident) (decl : FunctionDecl) :
    Except (List Fault) FunctionSignature :=
  match types.type? decl.returnType with
  | none => .error [.undeclaredReturnType decl.returnType]
  | some returnType =>
      (parametersOf types blocks decl.vars).map fun parameters =>
        { name := decl.name, returnType, parameters, span := decl.name.span }

def FunctionBlockDecl.signature (types : TypeTable) (blocks : List Ident)
    (decl : FunctionBlockDecl) : Except (List Fault) BlockSignature :=
  (parametersOf types blocks decl.vars).map fun parameters =>
    { name := decl.name, parameters, span := decl.name.span }

structure FunctionTable where
  functions : Table (List FunctionSignature) := {}
  blocks : Table BlockSignature := {}

namespace FunctionTable

/-- The declarations of a function, in order. -/
def overloads? (table : FunctionTable) (name : Ident) : Option (List FunctionSignature) :=
  table.functions.get? name

def block? (table : FunctionTable) (name : Ident) : Option BlockSignature :=
  table.blocks.get? name

/-- True if a function is declared more than once. -/
def isOverloaded (table : FunctionTable) (name : Ident) : Bool :=
  (table.overloads? name).any fun overloads => 1 < overloads.length

def isEmpty (table : FunctionTable) : Bool :=
  table.functions.entries.isEmpty && table.blocks.entries.isEmpty

/-- Adds a declaration after those of the same name. -/
def addFunction (table : FunctionTable) (signature : FunctionSignature) : FunctionTable :=
  { table with
    functions :=
      table.functions.insert signature.name
        ((table.overloads? signature.name).getD [] ++ [signature]) }

/-- Adds a function block under a name that is not taken. -/
def addBlock (table : FunctionTable) (signature : BlockSignature) : Except Fault FunctionTable :=
  match table.block? signature.name with
  | some first => .error (.duplicateBlock signature.name first.span)
  | none => .ok { table with blocks := table.blocks.push signature.name signature }

/-- A table under construction with the faults found so far. -/
structure Progress where
  table : FunctionTable := {}
  faults : List Fault := []

/-- Takes a result: a new table or faults. -/
def Progress.take (progress : Progress) : Except (List Fault) FunctionTable → Progress
  | .ok table => { progress with table }
  | .error faults => { progress with faults := progress.faults ++ faults }

/-- Takes an element of a library. -/
def Progress.step (types : TypeTable) (blocks : List Ident) (progress : Progress) :
    Element → Progress
  | .function decl =>
      progress.take ((decl.signature types blocks).map progress.table.addFunction)
  | .functionBlock decl =>
      progress.take do
        let signature ← decl.signature types blocks
        match progress.table.addBlock signature with
        | .ok table => .ok table
        | .error fault => .error [fault]
  | .type _ | .program _ | .pragma _ => progress

/-- The table of the standard functions and function blocks. -/
def standard (withConversions : Bool) : FunctionTable :=
  { functions :=
      ((Standard.functions withConversions).foldl addFunction {}).functions
    blocks := { entries := Standard.blocks.map fun block => (block.name, block) } }

/-- The names of all function blocks: those of the library and the standard ones. -/
def blockNames (library : Library) : List Ident :=
  library.functionBlocks.map FunctionBlockDecl.name ++ Standard.blocks.map BlockSignature.name

/-- Adds the functions and function blocks of a library to a table. -/
def build (start : FunctionTable) (types : TypeTable) (library : Library) :
    Except (List Fault) FunctionTable :=
  let done :=
    library.elements.foldl (Progress.step types (blockNames library)) { table := start }
  match done.faults with
  | [] => .ok done.table
  | faults => .error faults

end FunctionTable

end StructuredText
