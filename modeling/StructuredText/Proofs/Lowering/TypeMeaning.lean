import StructuredText.Proofs.Analysis.Resolved
import StructuredText.Proofs.Lowering.TypeOrder

/-!
# Declared types under their names

The name of a declared type means what the declaration makes, and generated code declares it
as a type of the kind of the declaration.  The long names of elementary types are the
exception: they can be declared, but they keep their elementary meaning, and then there is
generated code only if what is declared is a string.
-/

set_option autoImplicit false

namespace StructuredText

/-- True if generated code can declare the type.  A string needs a length that can be read,
another type a name that does not already mean something else. -/
def TypeDecl.isDeclarable : TypeDecl → Bool
  | .string _ length _ => length.value.isOk
  | .synonym name _ | .subrange name _ _ | .enumeration name _ | .array name _ | .record name _ =>
      !name.isLongName

namespace DeclaredTypes

variable {library : Library} {context : Context} {declared later : DeclaredTypes}

theorem Turn.isDeclarable {decl : TypeDecl} (turn : Turn context.types declared decl later) :
    decl.isDeclarable = true := by
  -- A long name means an elementary type, and only a string is declared whatever its name means.
  have isShort : ∀ {name : Ident} {type : DataType}, context.types.type? name = some type →
      (∀ base, type ≠ .elementary base) → (!name.isLongName) = true := by
    intro name type found notElementary
    cases isLong : name.isLongName with
    | false => rfl
    | true =>
        obtain ⟨base, isBase⟩ : ∃ base, context.types.type? name = some (.elementary base) :=
          TypeTable.type?_of_isLongName isLong
        exact absurd (Option.some.inj (found.symm.trans isBase)) (notElementary base)
  cases turn with
  | string isNumber =>
      rw [TypeDecl.isDeclarable, isNumber]
      rfl
  | synonym found => exact isShort found fun _ => nofun
  | subrange found => exact isShort found fun _ => nofun
  | enumeration found => exact isShort found fun _ => nofun
  | array found => exact isShort found fun _ => nofun
  | record found => exact isShort found fun _ => nofun

variable (built : TypeTable.build TypeTable.elementary library.typeDecls = .ok context.types)

include built

theorem exists_addDecl (declared : DeclaredTypes) {decl : TypeDecl}
    (isDecl : decl ∈ library.typeDecls) (isDeclarable : decl.isDeclarable = true) :
    ∃ later, declared.addDecl context decl = .ok later := by
  unfold addDecl
  cases decl with
  | string name length width =>
      obtain ⟨number, isNumber⟩ := exists_ok_of_isOk isDeclarable
      obtain ⟨type, found⟩ := TypeTable.type?_of_contains
        ((TypeTable.build_ok TypeTable.allDeclaredIn_elementary built).2 _ isDecl)
      rw [found]
      dsimp only
      rw [isNumber]
      exact ⟨_, rfl⟩
  | synonym name | subrange name | enumeration name | array name | record name =>
      have isShort : name.isLongName = false := Bool.not_eq_true' _ ▸ isDeclarable
      obtain ⟨type, means, named⟩ := TypeTable.type?_of_build built isDecl isShort
      rw [named _ BEq.rfl]
      cases means
      exact ⟨_, rfl⟩

theorem exists_addDecls {decls : List TypeDecl} :
    ∀ declared : DeclaredTypes, decls ⊆ library.typeDecls →
      (∀ decl ∈ decls, decl.isDeclarable = true) →
        ∃ later, addDecls context declared decls = .ok later := by
  induction decls with
  | nil => exact fun declared _ _ => ⟨declared, rfl⟩
  | cons decl decls ih =>
      intro declared within areDeclarable
      obtain ⟨isDecl, rest⟩ := List.cons_subset.mp within
      obtain ⟨isDeclarable, others⟩ := List.forall_mem_cons.mp areDeclarable
      obtain ⟨next, step⟩ := exists_addDecl built declared isDecl isDeclarable
      rw [addDecls, step, ok_bind]
      exact ih next rest others

end DeclaredTypes

/-- In a table that was built without faults every declared name means, in whatever case it is
written, what the declaration makes; but a long name of an elementary type means that type.
There is generated code for the types if and only if each of them can be declared, and then
each has had its turn, in which its own kind of declaration was made. -/
theorem Library.declared_types_mean {library : Library} {context : Context}
    (built : TypeTable.build TypeTable.elementary library.typeDecls = .ok context.types) :
    (∀ decl ∈ library.typeDecls, decl.name.isLongName = false →
      ∃ type, decl.Means context.types type ∧
        ∀ name, (decl.name == name) = true → context.types.type? name = some type) ∧
    (∀ decl ∈ library.typeDecls, decl.name.isLongName = true →
      ∃ base, context.types.type? decl.name = some (.elementary base)) ∧
    ((library.lowerTypes context).isOk = true ↔
      ∀ decl ∈ library.typeDecls, decl.isDeclarable = true) ∧
    ∀ types, library.lowerTypes context = .ok types → ∀ decl ∈ library.typeDecls,
      ∃ first next, DeclaredTypes.Turn context.types first decl next ∧ next.decls <+: types := by
  refine ⟨fun decl isDecl => TypeTable.type?_of_build built isDecl,
    fun decl _ => TypeTable.type?_of_isLongName, ⟨fun isOk decl isDecl => ?_, fun all => ?_⟩,
    fun types run decl => DeclaredTypes.turn_of_lowerTypes built run⟩
  · obtain ⟨types, run⟩ := exists_ok_of_isOk isOk
    obtain ⟨first, next, turn, -⟩ := DeclaredTypes.turn_of_lowerTypes built run isDecl
    exact turn.isDeclarable
  · obtain ⟨declared, run⟩ := DeclaredTypes.exists_addDecls built {} (List.Subset.refl _) all
    rw [Library.lowerTypes, run]
    rfl

theorem Library.declared_types_mean_measurements :
    ∃ context, Context.resolve measurements = .ok context ∧
      TypeTable.build TypeTable.elementary measurements.typeDecls = .ok context.types ∧
      (∀ decl ∈ measurements.typeDecls, ∃ type, decl.Means context.types type ∧
        context.types.type? decl.name = some type) ∧
      (measurements.lowerTypes context).isOk = true := by
  have accepted : measurements.accepted?.isSome = true := by decide +kernel
  obtain ⟨context, isAccepted⟩ := Option.isSome_iff_exists.mp accepted
  obtain ⟨resolved, -⟩ := Library.of_accepted? isAccepted
  obtain ⟨built, -, -⟩ := Context.resolve_ok resolved
  obtain ⟨means, -, isOk, -⟩ := Library.declared_types_mean built
  refine ⟨context, resolved, built, fun decl isDecl => ?_, isOk.mpr (by decide +kernel)⟩
  have areShort : ∀ decl ∈ measurements.typeDecls, decl.name.isLongName = false := by
    decide +kernel
  obtain ⟨type, isMeant, named⟩ := means decl isDecl (areShort decl isDecl)
  exact ⟨type, isMeant, named _ BEq.rfl⟩

def daybreak : Library where
  elements := [.type (.synonym "TIME_OF_DAY" "INT")]

/-- The table of types is built without faults, but the declared name does not mean what the
declaration makes, and no code is generated. -/
theorem Library.long_name_keeps_meaning :
    ∃ types, TypeTable.build TypeTable.elementary daybreak.typeDecls = .ok types ∧
      types.type? "TIME_OF_DAY" = some (.elementary .timeOfDay) ∧
      (∀ type, TypeDecl.Means types (.synonym "TIME_OF_DAY" "INT") type →
        types.type? "TIME_OF_DAY" ≠ some type) ∧
      ∀ context : Context, context.types = types → (daybreak.lowerTypes context).isOk = false := by
  have isOk : (TypeTable.build TypeTable.elementary daybreak.typeDecls).isOk = true := by
    decide +kernel
  obtain ⟨types, built⟩ := exists_ok_of_isOk isOk
  have isElementary : Elementary.ofIdent? "TIME_OF_DAY" = some .timeOfDay := by decide +kernel
  have found : types.type? "TIME_OF_DAY" = some (.elementary .timeOfDay) := by
    rw [TypeTable.type?, isElementary]
  refine ⟨types, built, found, fun type means same => ?_, fun context sameTypes => ?_⟩
  · cases means
    rw [found] at same
    cases same
  · rw [Bool.eq_false_iff]
    intro lowers
    obtain ⟨codes, run⟩ := exists_ok_of_isOk lowers
    obtain ⟨declared, run, -⟩ := bind_eq_ok run
    have run :
        DeclaredTypes.addDecls context {} [.synonym "TIME_OF_DAY" "INT"] = .ok declared := run
    obtain ⟨next, step, -⟩ := bind_eq_ok run
    unfold DeclaredTypes.addDecl at step
    dsimp only [TypeDecl.name] at step
    rw [sameTypes, found] at step
    cases step

end StructuredText
