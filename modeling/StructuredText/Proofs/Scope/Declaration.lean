import Mathlib.Data.List.Forall2
import Mathlib.Data.List.Infix
import Mathlib.Data.List.ReduceOption
import StructuredText.Proofs.Scope.Unit
import StructuredText.Tree.Build

/-!
# Declaring the variables of a unit

The declarations of a unit are taken one after the other.  A declaration introduces its name if
its type exists, and a name is free until the scope has it or an earlier declaration introduces
it.  So the first declaration that introduces a name counts.  A declaration whose type does not
exist and one whose name is taken are reported, each where it stands, and nothing else is.
-/

set_option autoImplicit false

namespace StructuredText

/-- The name that is reported when the type of a declaration does not exist.  It is that of the
type where a plain type or a function block is declared, and that of the variable otherwise. -/
def VarDecl.untypedName (decl : VarDecl) (name : Ident) : Ident :=
  match decl.initializer with
  | .simple type _ | .functionBlock type => type
  | .string .. | .enumerated .. | .array _ => name

theorem Context.typeOf_eq_error {context : Context} {decl : VarDecl} {name : Ident}
    {fault : Fault} (named : decl.name.ident? = some name)
    (untyped : context.typeOf decl = .error fault) :
    fault = .undeclaredVariableType (decl.untypedName name) := by
  obtain ⟨varName, kind, qualifier, initializer⟩ := decl
  dsimp only at named
  unfold Context.typeOf VarDecl.type at untyped
  unfold VarDecl.untypedName
  cases initializer with
  | simple type value =>
      dsimp only at untyped ⊢
      split at untyped
      · cases untyped
      · split at untyped <;> cases untyped
        rfl
  | functionBlock type =>
      dsimp only at untyped ⊢
      split at untyped <;> cases untyped
      rfl
  | string | enumerated | array =>
      dsimp only at untyped ⊢
      split at untyped <;> cases untyped
      rw [named, Option.getD_some]

namespace Scope

variable {context : Context} {scope : Scope} {name : Ident} {entry : VariableEntry}

/-! ## What a declaration introduces -/

/-- The entry says of a variable what its declaration says, and its type.  The variable is at a
place of the hardware if the declaration gives one, else in another unit if it is declared
external, and else in the unit. -/
structure Describes (decl : VarDecl) (written : Ident) (type : DataType) (entry : VariableEntry) :
    Prop where
  name : entry.name = written
  type : entry.type = type
  kind : entry.kind = decl.kind
  isConstant : entry.isConstant = true ↔ decl.qualifier = .constant
  location : entry.location = decl.name.address?
  storage : entry.storage =
    if decl.name.address?.isSome then .located
    else if decl.kind = .external then .external else .own

theorem storageOf_eq (decl : VarDecl) :
    storageOf decl = if decl.name.address?.isSome then .located
      else if decl.kind = .external then .external else .own := by
  obtain ⟨varName, kind, qualifier, initializer⟩ := decl
  cases varName with
  | symbol name => cases kind <;> rfl
  | located name address => rfl

theorem describes_iff {decl : VarDecl} {written : Ident} {type : DataType} :
    Describes decl written type entry ↔ entry = entryOf decl written type := by
  constructor
  · rintro ⟨sameName, sameType, sameKind, sameConstant, sameLocation, sameStorage⟩
    obtain ⟨name, storage, type', kind, isConstant, location⟩ := entry
    dsimp only at sameName sameType sameKind sameConstant sameLocation sameStorage
    have constant : isConstant = (decl.qualifier == .constant) := by
      rw [Bool.eq_iff_iff, sameConstant, beq_iff_eq]
    rw [entryOf, storageOf_eq, sameName, sameType, sameKind, sameLocation, sameStorage, constant]
  · rintro rfl
    exact ⟨rfl, rfl, rfl, beq_iff_eq, rfl, storageOf_eq decl⟩

/-- The declaration introduces a name with an entry: it gives the name, in some spelling, and
its type exists. -/
def Introduces (context : Context) (decl : VarDecl) (name : Ident) (entry : VariableEntry) : Prop :=
  ∃ written type, decl.name.ident? = some written ∧ (written == name) = true ∧
    context.typeOf decl = .ok type ∧ Describes decl written type entry

/-- The name is free behind declarations: the scope did not have it, and none of them introduces
it. -/
def IsFree (context : Context) (scope : Scope) (before : List VarDecl) (name : Ident) : Prop :=
  scope.lookupCurrent name = none ∧ ∀ decl ∈ before, ∀ entry, ¬Introduces context decl name entry

theorem isFree_nil : IsFree context scope [] name ↔ scope.lookupCurrent name = none :=
  and_iff_left (List.forall_mem_nil _)

/-! ## One declaration -/

section One

variable {decl : VarDecl}

theorem declareOne_unnamed (unnamed : decl.name.ident? = none) :
    declareOne context scope decl = (scope, none) := by
  rw [declareOne, unnamed]

theorem declareOne_untyped {written : Ident} {fault : Fault}
    (named : decl.name.ident? = some written) (untyped : context.typeOf decl = .error fault) :
    declareOne context scope decl = (scope, some fault) := by
  rw [declareOne, named]
  dsimp only
  rw [untyped]

theorem declareOne_typed {written : Ident} {type : DataType}
    (named : decl.name.ident? = some written) (typed : context.typeOf decl = .ok type) :
    declareOne context scope decl =
      (scope.tryBind written (entryOf decl written type),
        if (scope.lookupCurrent written).isSome then some (.duplicateVariable written)
        else none) := by
  rw [declareOne, named]
  dsimp only
  rw [typed]
  dsimp only
  split
  · next taken =>
      have keeps : scope.tryBind written (entryOf decl written type) = scope := if_pos taken
      rw [keeps]
  · rfl

theorem introduces_iff_of_typed {written : Ident} {type : DataType}
    (named : decl.name.ident? = some written) (typed : context.typeOf decl = .ok type) :
    Introduces context decl name entry ↔
      (if written == name then some (entryOf decl written type) else none) = some entry := by
  constructor
  · rintro ⟨_, _, isNamed, same, isTyped, describes⟩
    rw [named] at isNamed
    rw [typed] at isTyped
    cases isNamed
    cases isTyped
    rw [if_pos same, describes_iff.mp describes]
  · intro gives
    split at gives
    · next same =>
        cases gives
        exact ⟨written, type, named, same, typed, describes_iff.mpr rfl⟩
    · cases gives

/-- A name that the current scope has keeps its entry, and a name that a declaration introduces
otherwise gets the entry of the declaration. -/
theorem lookupCurrent_declareOne :
    (declareOne context scope decl).1.lookupCurrent name = some entry ↔
      scope.lookupCurrent name = some entry ∨
        scope.lookupCurrent name = none ∧ Introduces context decl name entry := by
  cases named : decl.name.ident? with
  | none =>
      rw [declareOne_unnamed named]
      simp [Introduces, named]
  | some written =>
      cases typed : context.typeOf decl with
      | error fault =>
          rw [declareOne_untyped named typed]
          simp [Introduces, typed]
      | ok type =>
          rw [declareOne_typed named typed, ScopeStack.lookupCurrent_tryBind, Option.or_eq_some_iff,
            introduces_iff_of_typed named typed]

theorem isFree_declareOne {before : List VarDecl} :
    IsFree context (declareOne context scope decl).1 before name ↔
      IsFree context scope (decl :: before) name := by
  have stillFree : (declareOne context scope decl).1.lookupCurrent name = none ↔
      scope.lookupCurrent name = none ∧ ∀ entry, ¬Introduces context decl name entry := by
    simp only [Option.eq_none_iff_forall_ne_some, ne_eq, lookupCurrent_declareOne]
    grind
  rw [IsFree, IsFree, stillFree, List.forall_mem_cons, and_assoc]

/-- What is reported of a declaration that stands behind others. -/
inductive Reported (context : Context) (scope : Scope) (before : List VarDecl) (decl : VarDecl) :
    Option Diagnostic → Prop where
  | unnamed (unnamed : decl.name.ident? = none) : Reported context scope before decl none
  | untyped {name : Ident} (named : decl.name.ident? = some name)
      (untyped : ∀ type, context.typeOf decl ≠ .ok type) :
      Reported context scope before decl (some {
        problem := .typeUndefined
        primary := { span := (decl.untypedName name).span, message := "Variable declaration" }
        context := [("type", (decl.untypedName name).name)] })
  | first {name : Ident} {type : DataType} (named : decl.name.ident? = some name)
      (typed : context.typeOf decl = .ok type) (free : IsFree context scope before name) :
      Reported context scope before decl none
  | duplicate {name : Ident} {type : DataType} (named : decl.name.ident? = some name)
      (typed : context.typeOf decl = .ok type) (taken : ¬IsFree context scope before name) :
      Reported context scope before decl (some {
        problem := .duplicateDeclaration
        primary := { span := name.span, message := "Duplicate declaration" }
        context := [("variable", name.name)] })

theorem reported_declareOne (context : Context) (scope : Scope) (decl : VarDecl) :
    Reported context scope [] decl ((declareOne context scope decl).2.map Fault.diagnostic) := by
  cases named : decl.name.ident? with
  | none =>
      rw [declareOne_unnamed named]
      exact .unnamed named
  | some written =>
      cases typed : context.typeOf decl with
      | error fault =>
          rw [declareOne_untyped named typed, Context.typeOf_eq_error named typed]
          exact .untyped named fun type isTyped => by rw [typed] at isTyped; cases isTyped
      | ok type =>
          rw [declareOne_typed named typed]
          cases known : scope.lookupCurrent written with
          | none => exact .first named typed (isFree_nil.mpr known)
          | some entry =>
              refine .duplicate named typed fun free => ?_
              rw [isFree_nil.mp free] at known
              cases known

/-- What is reported behind a declaration is what is reported once it is taken. -/
theorem Reported.behind {first : VarDecl} {before : List VarDecl} {report : Option Diagnostic}
    (reported : Reported context (declareOne context scope first).1 before decl report) :
    Reported context scope (first :: before) decl report := by
  cases reported with
  | unnamed unnamed => exact .unnamed unnamed
  | untyped named untyped => exact .untyped named untyped
  | first named typed free => exact .first named typed (isFree_declareOne.mp free)
  | duplicate named typed taken =>
      exact .duplicate named typed fun free => taken (isFree_declareOne.mpr free)

end One

/-! ## All declarations of a unit -/

theorem lookupCurrent_declare {vars : List VarDecl} :
    ∀ {scope : Scope}, (declare context scope vars).1.lookupCurrent name = some entry ↔
      scope.lookupCurrent name = some entry ∨
        ∃ before decl later, vars = before ++ decl :: later ∧
          IsFree context scope before name ∧ Introduces context decl name entry := by
  induction vars with
  | nil =>
      intro scope
      simp [declare]
  | cons first vars ih =>
      intro scope
      rw [declare]
      dsimp only
      rw [ih, lookupCurrent_declareOne, or_assoc]
      refine or_congr_right ⟨?_, ?_⟩
      · rintro (⟨free, introduces⟩ | ⟨before, decl, later, rfl, free, introduces⟩)
        · exact ⟨[], first, vars, rfl, isFree_nil.mpr free, introduces⟩
        · exact ⟨first :: before, decl, later, rfl, isFree_declareOne.mp free, introduces⟩
      · rintro ⟨before, decl, later, split, free, introduces⟩
        cases before with
        | nil =>
            obtain ⟨rfl, rfl⟩ := List.cons_eq_cons.mp split
            exact .inl ⟨isFree_nil.mp free, introduces⟩
        | cons head before =>
            obtain ⟨rfl, rfl⟩ := List.cons_eq_cons.mp split
            exact .inr ⟨before, decl, later, rfl, isFree_declareOne.mpr free, introduces⟩

/-- The reports are those of the declarations in order, each paired with the ones before it. -/
theorem reported_declare {vars : List VarDecl} :
    ∀ {scope : Scope}, ∃ reports,
      List.Forall₂ (fun place report => Reported context scope place.1 place.2 report)
        (vars.inits.zip vars) reports ∧
      (declare context scope vars).2.map Fault.diagnostic = reports.reduceOption := by
  induction vars with
  | nil => exact fun {scope} => ⟨[], .nil, rfl⟩
  | cons first vars ih =>
      intro scope
      obtain ⟨reports, reported, same⟩ := @ih (declareOne context scope first).1
      refine ⟨(declareOne context scope first).2.map Fault.diagnostic :: reports, ?_, ?_⟩
      · -- The first declaration goes into the scope, and in front of what stands before the others.
        rw [List.inits_cons, List.zip_cons_cons, List.zip_map_left]
        refine .cons (reported_declareOne context scope first) (List.forall₂_map_left_iff.mpr ?_)
        exact reported.imp fun place report isReported => isReported.behind
      · rw [declare]
        dsimp only
        rw [List.map_append, same]
        cases (declareOne context scope first).2 <;> rfl

/-- Declaring the variables of a unit changes the current scope only.  There a name keeps the
entry that it had, and otherwise gets that of the first declaration that introduces it.  The
reports are, in the order of the declarations, one for each named declaration whose type does
not exist and one for each whose name is taken already. -/
theorem first_declaration_counts (context : Context) (scope : Scope) (vars : List VarDecl) :
    (declare context scope vars).1.enclosing = scope.enclosing ∧
    (∀ name entry, (declare context scope vars).1.lookupCurrent name = some entry ↔
      scope.lookupCurrent name = some entry ∨
        ∃ before decl later, vars = before ++ decl :: later ∧
          IsFree context scope before name ∧ Introduces context decl name entry) ∧
    ∃ reports,
      List.Forall₂ (fun place report => Reported context scope place.1 place.2 report)
        (vars.inits.zip vars) reports ∧
      (declare context scope vars).2.map Fault.diagnostic = reports.reduceOption :=
  ⟨enclosing_declare, fun _ _ => lookupCurrent_declare, reported_declare⟩

/-- A name that is declared again, one that has no type at first, and a place without a name. -/
example :
    let place : Address := { area := .input, size := .word, parts := [2] }
    let done := declare {} ScopeStack.new
      [.located "level" place "INT", .simple "level" "BOOL", .simple "speed" "VELOCITY",
        { VarDecl.simple "speed" "REAL" with kind := .external },
        { name := .located none place, initializer := .simple "WEIGHT" }]
    done.2.map Fault.problem = [.duplicateDeclaration, .typeUndefined] ∧
      done.1.current.entries.map (fun entry => (entry.2.name.name, entry.2.storage)) =
        [("level", .located), ("speed", .external)] := by
  decide +kernel

end Scope

end StructuredText
