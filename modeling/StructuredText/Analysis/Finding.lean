import StructuredText.Analysis.Overload

/-!
# What analysis finds

Analysis goes over a tree from left to right.  It finds faults, and it notes what
every expression, variable, enumerated value and call turned out to be: the
notes are in the order of the walk, a node before its parts.
-/

set_option autoImplicit false

namespace StructuredText

/-- What a node of the tree turned out to be. -/
inductive Note where
  | expr (type : Option DataType)
  | variable (text : String) (type : Option DataType)
  | enumerated (value : Ident) (type : Option DataType)
  | call (name : Ident) (resolution : Option CallResolution)
  | block (name : Ident) (signature : Option BlockSignature)

/-- True for a note of a type. -/
def Note.isTyped : Note → Bool
  | .expr type | .variable _ type | .enumerated _ type => type.isSome
  | .call .. | .block .. => false

/-- The faults and the notes of a part of the tree. -/
structure Findings where
  faults : List Fault := []
  notes : List Note := []

namespace Findings

/-- The findings of one part followed by those of another. -/
def append (first second : Findings) : Findings :=
  { faults := first.faults ++ second.faults, notes := first.notes ++ second.notes }

instance : Append Findings := ⟨append⟩

/-- Faults without notes. -/
def ofFaults (faults : List Fault) : Findings := { faults }

/-- Puts a note before all others. -/
def under (note : Note) (findings : Findings) : Findings :=
  { findings with notes := note :: findings.notes }

@[simp] theorem faults_append (first second : Findings) :
    (first ++ second).faults = first.faults ++ second.faults := rfl

@[simp] theorem notes_append (first second : Findings) :
    (first ++ second).notes = first.notes ++ second.notes := rfl

@[simp] theorem faults_ofFaults (faults : List Fault) : (ofFaults faults).faults = faults := rfl

@[simp] theorem notes_ofFaults (faults : List Fault) : (ofFaults faults).notes = [] := rfl

@[simp] theorem faults_under (note : Note) (findings : Findings) :
    (findings.under note).faults = findings.faults := rfl

@[simp] theorem notes_under (note : Note) (findings : Findings) :
    (findings.under note).notes = note :: findings.notes := rfl

end Findings

/-- What analysis makes of an expression: its type, if it has one, and the
findings. -/
structure Judgement where
  type : Option DataType
  findings : Findings := {}

end StructuredText
