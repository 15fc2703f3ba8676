import StructuredText.Call.Table

/-!
# What a library declares

The context of a library: the types, the functions and the function blocks that
its units may refer to.
-/

set_option autoImplicit false

namespace StructuredText

structure Context where
  types : TypeTable := {}
  functions : FunctionTable := {}
  /-- The names of all function blocks, declared or standard. -/
  blocks : List Ident := []

namespace Context

/-- The context of a library with given tables. -/
def make (types : TypeTable) (functions : FunctionTable) (library : Library) : Context :=
  { types, functions, blocks := FunctionTable.blockNames library }

/-- Resolves all declarations of a library, the types first. -/
def resolve (library : Library) (withConversions : Bool := false) :
    Except (List Fault) Context := do
  let types ← TypeTable.build TypeTable.elementary library.typeDecls
  let functions ← FunctionTable.build (FunctionTable.standard withConversions) types library
  return make types functions library

/-- The type of a declared variable. -/
def typeOf (context : Context) (decl : VarDecl) : Except Fault DataType :=
  decl.type context.types context.blocks

end Context

end StructuredText
