import StructuredText.Ident
import StructuredText.Problem

/-!
# Diagnostics

A diagnostic names a problem, the place it was met at, the particulars of this
occurrence and further places that matter to it.  Internal diagnostics may point
at the line of the compiler that raised them.
-/

set_option autoImplicit false

namespace StructuredText

/-- A place with a short remark about it. -/
structure Label where
  span : Span := {}
  message : String
deriving DecidableEq, Repr

/-- A remark about a file as a whole. -/
def Label.file (file : FileId) (message : String) : Label :=
  { span := Span.ofFile file, message }

/-- A line of the compiler. -/
structure CompilerLine where
  file : String
  line : Nat
deriving DecidableEq, Repr

/-- The text ` at file#Lline`, empty when no line is known. -/
def CompilerLine.suffix : Option CompilerLine → String
  | none => ""
  | some place => " at " ++ place.file ++ "#L" ++ toString place.line

structure Diagnostic where
  problem : Problem
  primary : Label
  /-- Particulars of this occurrence, as pairs of a description and an item. -/
  context : List (String × String) := []
  secondary : List Label := []
deriving DecidableEq, Repr

namespace Diagnostic

/-- A problem met at a place of the program. -/
def report (problem : Problem) (span : Span) (message : String) : Diagnostic :=
  { problem, primary := { span, message } }

/-- A problem of the compiler, met while it worked on the element at `span`. -/
def internal (problem : Problem) (span : Span := {}) (place : Option CompilerLine := none) :
    Diagnostic :=
  .report problem span ("Internal error" ++ CompilerLine.suffix place)

/-- Something the compiler does not do yet. -/
def todo (place : Option CompilerLine := none) : Diagnostic :=
  .report .notImplemented {} ("Not implemented" ++ CompilerLine.suffix place)

/-- Adds a particular to the description. -/
def withContext (diagnostic : Diagnostic) (description item : String) : Diagnostic :=
  { diagnostic with context := diagnostic.context ++ [(description, item)] }

/-- Adds an identifier, in its own spelling, to the description. -/
def withIdent (diagnostic : Diagnostic) (description : String) (ident : Ident) : Diagnostic :=
  diagnostic.withContext description ident.name

/-- Adds a further place. -/
def withSecondary (diagnostic : Diagnostic) (label : Label) : Diagnostic :=
  { diagnostic with secondary := diagnostic.secondary ++ [label] }

def isInternal (diagnostic : Diagnostic) : Bool := diagnostic.problem.isInternal

/-- The meaning of the problem, followed by the particulars in parentheses. -/
def description (diagnostic : Diagnostic) : String :=
  match diagnostic.context with
  | [] => diagnostic.problem.message
  | context =>
      diagnostic.problem.message ++ " (" ++
        ", ".intercalate (context.map fun (key, item) => key ++ "=" ++ item) ++ ")"

/-- One line for a reader: code, description and the remark at the primary place. -/
def display (diagnostic : Diagnostic) : String :=
  let head := diagnostic.problem.code ++ ": " ++ diagnostic.description
  if diagnostic.primary.message.isEmpty then head
  else head ++ " [" ++ diagnostic.primary.message ++ "]"

end Diagnostic

end StructuredText
