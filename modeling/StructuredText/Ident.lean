import StructuredText.Span

/-!
# Identifiers

Identifiers keep the spelling they were written with and compare without regard
to the case of ASCII letters.  Other letters never fold.  Generated names are
upper case, so two spellings of one identifier give one generated name.
-/

set_option autoImplicit false

namespace StructuredText

/-- A name as it was written, with the place it was written at. -/
structure Ident where
  name : String
  span : Span := {}
deriving Repr, Inhabited

namespace Ident

/-- The spelling under which the identifier is looked up. -/
def key (ident : Ident) : String := ident.name.toLower

/-- The spelling used in generated code. -/
def upper (ident : Ident) : String := ident.name.toUpper

/-- The same identifier standing at another place. -/
def moveTo (ident : Ident) (span : Span) : Ident := { ident with span }

/-- Identifiers are equal when their spellings agree up to ASCII case. -/
instance : BEq Ident := ⟨fun left right => left.key == right.key⟩

theorem beq_iff {left right : Ident} : (left == right) = true ↔ left.key = right.key := by
  show (left.key == right.key) = true ↔ _
  exact beq_iff_eq

instance : ReflBEq Ident := ⟨fun {_} => beq_iff.mpr rfl⟩

instance : PartialEquivBEq Ident where
  symm same := beq_iff.mpr (beq_iff.mp same).symm
  trans first second := beq_iff.mpr ((beq_iff.mp first).trans (beq_iff.mp second))

instance : Coe String Ident := ⟨fun name => { name }⟩

end Ident

end StructuredText
