import StructuredText.Code.Printer
import StructuredText.Lowering.Unit

/-!
# Compiling a library

A library is resolved, checked, lowered and printed.  Faults of the program are
reported all at once; what stops lowering is a single fault.
-/

set_option autoImplicit false

namespace StructuredText

namespace Context

/-- The signature of the declaration of a function that `earlier` declarations of
the same name come before.  Standard declarations are not counted. -/
def declaredSignature? (context : Context) (name : Ident) (earlier : Nat) :
    Option FunctionSignature :=
  ((context.functions.overloads? name).getD []).filter (fun signature => !signature.isStandard)
    |>.drop earlier |>.head?

/-- Lowers elements in order, given the names of the functions declared before them
and whether the output is on.  Types have been declared already, and the standard
function blocks come with the support layer. -/
def lowerElements (context : Context) :
    (declared : List Ident) → (isOn : Bool) → List Element → Except Fault (List Code.Element)
  | _, _, [] => .ok []
  | declared, isOn, .type _ :: rest => lowerElements context declared isOn rest
  | declared, isOn, .function decl :: rest =>
      match context.declaredSignature? decl.name (declared.count decl.name) with
      | none => .error (.internal .callNotResolved decl.name.span)
      | some signature => do
          let (definition, isOn) ← decl.lower context isOn signature
          return .function definition ::
            (← lowerElements context (decl.name :: declared) isOn rest)
  | declared, isOn, .functionBlock decl :: rest =>
      if Standard.isBlock decl.name then lowerElements context declared isOn rest
      else do
        let (definition, isOn) ← decl.lower context isOn
        return .unit definition :: (← lowerElements context declared isOn rest)
  | declared, isOn, .program decl :: rest => do
      let (definition, isOn) ← decl.lower context isOn
      return .unit definition :: (← lowerElements context declared isOn rest)
  | declared, isOn, .pragma directive :: rest =>
      match directive with
      | .code text => do return .code text :: (← lowerElements context declared isOn rest)
      | .enable => do return .switch true :: (← lowerElements context declared true rest)
      | .disable => do return .switch false :: (← lowerElements context declared false rest)

end Context

/-- The generated code of a library that analysis has accepted. -/
def Library.lower (library : Library) (context : Context) : Except Fault Code.File := do
  let types ← library.lowerTypes context
  let elements ← context.lowerElements [] true library.elements
  return { types, elements }

/-- The text of the generated code of a library, in a context. -/
def Library.generate (library : Library) (context : Context) (layout : Code.Layout) :
    Except (List Fault) String := do
  let _ ← library.check context
  match library.lower context with
  | .ok file => return file.render layout
  | .error fault => .error [fault]

/-- Compiles a library. -/
def Library.compile (library : Library) (withConversions : Bool := false)
    (layout : Code.Layout := {}) : Except (List Fault) String := do
  let context ← Context.resolve library withConversions
  library.generate context layout

end StructuredText
