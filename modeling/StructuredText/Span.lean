/-!
# Positions in source files

A `Span` names a stretch of one source file.  Declarations that come with the
compiler rather than from a file carry the built-in file.  Positions never take
part in comparing programs: two trees are the same program wherever they stand.
-/

set_option autoImplicit false

namespace StructuredText

/-- Where a piece of program text comes from. -/
inductive FileId where
  | path (name : String)
  | builtIn
deriving DecidableEq, Repr

/-- The file of text that has no known origin. -/
def FileId.unknown : FileId := .path ""

instance : Inhabited FileId := ⟨FileId.unknown⟩

/-- How a file is named in reports. -/
def FileId.display : FileId → String
  | .path name => name
  | .builtIn => "<builtin>"

/-- True for declarations that come with the compiler. -/
def FileId.isBuiltIn : FileId → Bool
  | .path _ => false
  | .builtIn => true

/-- A stretch of a file, by the indices of its first and last character. -/
structure Span where
  start : Nat := 0
  stop : Nat := 0
  file : FileId := FileId.unknown
deriving DecidableEq, Repr, Inhabited

namespace Span

/-- The stretch from the start of one span to the end of another; the file is
that of the first. -/
def join (first last : Span) : Span :=
  { start := first.start, stop := last.stop, file := first.file }

/-- The position of everything that comes with the compiler. -/
def builtIn : Span := { file := .builtIn }

/-- A whole file, with no particular stretch of it. -/
def ofFile (file : FileId) : Span := { file }

end Span

end StructuredText
