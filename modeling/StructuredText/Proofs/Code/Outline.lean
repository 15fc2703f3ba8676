import StructuredText.Call.Standard
import StructuredText.Code.Tree

/-!
# The order of type declarations

Generated code declares names of types one after the other: the declared types first, then
the structures of the units.  Each declaration is made of types that it names, and should
find them declared by those before it, unless they come with the support layer.
-/

set_option autoImplicit false

namespace StructuredText.Code

/-- The name of a type that generated code declares, and the names of the types that the
declaration is made of. -/
structure Outline where
  name : String
  types : List String
deriving DecidableEq

def TypeDecl.outline : TypeDecl → Outline
  | .string name _ => { name, types := [] }
  | .derived name base => { name, types := [base] }
  | .subrange name base _ _ => { name, types := [base] }
  | .enumeration name _ => { name, types := [] }
  | .array name element _ => { name, types := [element] }
  | .record name fields => { name, types := fields.map Prod.snd }

def Member.type : Member → String
  | .located type _ _ _ _ | .external type _ _ | .block type _ _ | .compound type _
  | .plain type _ _ _ => type

def UnitDef.outline (definition : UnitDef) : Outline where
  name := definition.name
  types := definition.slots.map fun slot => slot.member.type

def Element.outline? : Element → Option Outline
  | .unit definition => some definition.outline
  | .function _ | .code _ | .switch _ => none

/-- The declarations of types in a file, in the order in which they come out. -/
def File.outlines (file : File) : List Outline :=
  file.types.map TypeDecl.outline ++ file.elements.filterMap Element.outline?

/-- True for the names of the types that come with the support layer: the elementary types
and the standard function blocks. -/
def isBuiltIn (name : String) : Bool :=
  (Elementary.all.any fun type => type.cName == name) ||
    Standard.blocks.any fun block => block.name.upper == name

theorem isBuiltIn_cName (type : Elementary) : isBuiltIn type.cName = true := by
  have found : Elementary.all.any (fun other => other.cName == type.cName) = true :=
    List.any_eq_true.mpr ⟨type, type.mem_all, BEq.rfl⟩
  rw [isBuiltIn, found, Bool.true_or]

theorem isBuiltIn_block {block : BlockSignature} (member : block ∈ Standard.blocks) :
    isBuiltIn block.name.upper = true := by
  have found : Standard.blocks.any (fun other => other.name.upper == block.name.upper) = true :=
    List.any_eq_true.mpr ⟨block, member, BEq.rfl⟩
  rw [isBuiltIn, found, Bool.or_true]

/-- The name of a type may be used where `before` has been declared: it comes with the
support layer, or it has been declared, or it is let pass. -/
def Settled (letPass : String → Prop) (before : List Outline) (type : String) : Prop :=
  isBuiltIn type = true ∨ (∃ earlier ∈ before, earlier.name = type) ∨ letPass type

/-- Every type that a declaration is made of comes with the support layer or is declared
before it, but for what is let pass: `letPass` relates the declaration to the type. -/
def InOrder (letPass : String → String → Prop) (outlines : List Outline) : Prop :=
  ∀ before outline after, outlines = before ++ outline :: after →
    ∀ type ∈ outline.types, Settled (letPass outline.name) before type

variable {letPass : String → String → Prop} {before : List Outline}

theorem Settled.append {letPass : String → Prop} {type : String}
    (settled : Settled letPass before type) (more : List Outline) :
    Settled letPass (before ++ more) type := by
  refine settled.imp_right (Or.imp_left ?_)
  rintro ⟨earlier, isEarlier, named⟩
  exact ⟨earlier, List.mem_append_left _ isEarlier, named⟩

/-- One more declaration keeps the order if it may use its types. -/
theorem InOrder.concat (inOrder : InOrder letPass before) {outline : Outline}
    (settled : ∀ type ∈ outline.types, Settled (letPass outline.name) before type) :
    InOrder letPass (before ++ [outline]) := by
  intro first other after split type isUsed
  rcases List.eq_nil_or_concat after with rfl | ⟨middle, last, rfl⟩
  · obtain ⟨rfl, same⟩ := List.append_inj' split rfl
    cases same
    exact settled type isUsed
  · rw [List.concat_eq_append, ← List.cons_append, ← List.append_assoc] at split
    exact inOrder first other middle (List.append_inj' split rfl).1 type isUsed

end StructuredText.Code
