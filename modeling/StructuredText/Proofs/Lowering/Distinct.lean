import StructuredText.Proofs.Code.Mangling
import StructuredText.Proofs.Lowering.Names
import StructuredText.Proofs.Scope.Unit
import StructuredText.Proofs.Spelling.Fold

/-!
# Distinct names of functions

A function that is declared more than once gets the names of its types into its name in
generated code.  Two declarations then have one name only if they name the same function
and the same types: nothing else brings the names of two definitions together, or the name
of a definition and that of a standard function.
-/

set_option autoImplicit false

namespace StructuredText

namespace FunctionSignature

/-- The names that a declaration is known by among the others: those of the function, of
the type of the result and of the types of the parameters. -/
def heading (signature : FunctionSignature) : List String :=
  signature.name.upper :: signature.returnType.cName ::
    signature.distinguishing.map fun parameter => parameter.type.cName

/-- The names of the heading can be told apart when they are joined. -/
def IsSeparable (signature : FunctionSignature) : Prop :=
  ∀ name ∈ signature.heading, Code.isSeparable name = true

instance (signature : FunctionSignature) : Decidable signature.IsSeparable :=
  inferInstanceAs (Decidable (∀ name ∈ signature.heading, Code.isSeparable name = true))

def shownTypes (signature : FunctionSignature) (isOverloaded : Bool) : List String :=
  if isOverloaded then signature.heading.tail else []

theorem mem_of_distinguishing {signature : FunctionSignature} {parameter : Parameter}
    (distinguishes : parameter ∈ signature.distinguishing) : parameter ∈ signature.parameters := by
  have explicit : ∀ other ∈ signature.explicit.filter (fun other => other.direction != .external),
      other ∈ signature.parameters := by
    intro other member
    exact (List.mem_filter.mp (List.mem_filter.mp member).1).1
  simp only [distinguishing, List.span_eq_takeWhile_dropWhile, List.mem_append] at distinguishes
  rcases distinguishes with (before | first) | after
  · exact explicit _ ((List.takeWhile_sublist _).subset before)
  · exact explicit _ ((List.dropWhile_sublist _).subset (List.mem_of_mem_take first))
  · have dropped := List.mem_of_mem_drop (List.mem_filter.mp after).1
    exact explicit _ ((List.dropWhile_sublist _).subset dropped)

theorem cName_eq_intercalate (signature : FunctionSignature) (isOverloaded : Bool) :
    signature.cName isOverloaded =
      "__".intercalate (signature.name.upper :: signature.shownTypes isOverloaded) := by
  apply String.toList_inj.mp
  rw [Code.toList_joined]
  cases isOverloaded with
  | false => simp [cName, shownTypes, Code.following]
  | true =>
      have suffix := Code.toList_joined signature.returnType.cName
        (signature.distinguishing.map fun parameter => parameter.type.cName)
      rw [cName, if_pos rfl, overloadSuffix, String.toList_append, String.toList_append, suffix]
      simp [shownTypes, heading, Code.following]

theorem IsSeparable.parts {signature : FunctionSignature} (separable : signature.IsSeparable)
    (isOverloaded : Bool) :
    ∀ name ∈ signature.name.upper :: signature.shownTypes isOverloaded,
      Code.isSeparable name = true := by
  intro name member
  apply separable
  rcases List.mem_cons.mp member with rfl | isType
  · exact List.mem_cons_self ..
  · cases isOverloaded with
    | false => cases isType
    | true => exact List.mem_cons_of_mem _ isType

/-- The names of two functions in generated code agree only if the functions and the types
that show in the names do. -/
theorem IsSeparable.parts_eq {first second : FunctionSignature} {overloaded overloaded' : Bool}
    (separable : first.IsSeparable) (separable' : second.IsSeparable)
    (same : first.cName overloaded = second.cName overloaded') :
    first.name.upper = second.name.upper ∧
      first.shownTypes overloaded = second.shownTypes overloaded' := by
  rw [cName_eq_intercalate, cName_eq_intercalate] at same
  exact List.cons.inj (Code.intercalate_injective (separable.parts _) (separable'.parts _) same)

end FunctionSignature

/-! ## Standard functions -/

namespace Standard

theorem plain_cName (type : Elementary) :
    type.cName.toList ≠ [] ∧ '_' ∉ type.cName.toList := by
  cases type <;> decide +kernel

theorem isSeparable_cName (type : Elementary) : Code.isSeparable type.cName = true := by
  obtain ⟨present, plain⟩ := plain_cName type
  exact Code.isSeparable_of_plain (List.append_nil _).symm present plain rfl

theorem eq_elementary_of_same {type : DataType} {base : Elementary}
    (same : type.same (.elementary base) = true) : type = .elementary base := by
  cases type with
  | elementary other =>
      rw [DataType.same, beq_iff_eq] at same
      rw [same]
  | _ => simp [DataType.same] at same

theorem returns_elementary {withConversions : Bool} {signature : FunctionSignature}
    (member : signature ∈ functions withConversions) :
    ∃ type, signature.returnType = .elementary type := by
  have all : ∀ withConversions, ∀ signature ∈ functions withConversions,
      (signature.returnType.elementary?.any fun base =>
        signature.returnType.same (.elementary base)) = true := by
    decide +kernel
  obtain ⟨base, -, same⟩ := (Option.any_eq_true ..).mp (all withConversions signature member)
  exact ⟨base, eq_elementary_of_same same⟩

theorem isSeparable_conversion {signature : FunctionSignature}
    (member : signature ∈ conversions) : Code.isSeparable signature.name.upper = true := by
  obtain ⟨source, -, member⟩ := List.mem_flatMap.mp member
  obtain ⟨target, -, rfl⟩ := List.mem_map.mp member
  obtain ⟨sourcePresent, sourcePlain⟩ := plain_cName source
  obtain ⟨targetPresent, targetPlain⟩ := plain_cName target
  have parts : (source.cName ++ "_TO_" ++ target.cName).toUpper.toList =
      source.cName.toList ++ (['_', 'T', 'O', '_'] ++ target.cName.toList) := by
    rw [toUpper_append, toUpper_append, Elementary.cName_toUpper, Elementary.cName_toUpper,
      String.toList_append, String.toList_append, toList_toUpper, List.append_assoc]
    rfl
  apply Code.isSeparable_of_plain parts sourcePresent sourcePlain
  -- The last underscore does not end the name, and no other follows it.
  cases rest : target.cName.toList with
  | nil => exact absurd rest targetPresent
  | cons char text =>
      rw [rest] at targetPlain
      have settled := Code.isSettled_append targetPlain []
      have other : char ≠ '_' := fun same => targetPlain (same ▸ List.mem_cons_self ..)
      simpa [Code.isSettled, other] using settled

theorem isSeparable_name {withConversions : Bool} {signature : FunctionSignature}
    (member : signature ∈ functions withConversions) :
    Code.isSeparable signature.name.upper = true := by
  have others : signature ∈ functions false → Code.isSeparable signature.name.upper = true := by
    intro isOther
    have known : ∀ signature ∈ functions false,
        signature.name.name ∈ FunctionTable.standardNames.map Ident.name := by
      decide +kernel
    have separable : ∀ name ∈ FunctionTable.standardNames.map Ident.name,
        Code.isSeparable name.toUpper = true := by
      decide +kernel
    exact separable _ (known signature isOther)
  cases withConversions with
  | false => exact others member
  | true =>
      have split : functions true = functions false ++ conversions := by
        simp [functions, List.append_assoc]
      rw [split, List.mem_append] at member
      exact member.elim others isSeparable_conversion

/-- The names of a standard function and of its types can be told apart. -/
theorem isSeparable_functions {withConversions : Bool} {signature : FunctionSignature}
    (member : signature ∈ functions withConversions) : signature.IsSeparable := by
  intro name isName
  rcases List.mem_cons.mp isName with rfl | isName
  · exact isSeparable_name member
  rcases List.mem_cons.mp isName with rfl | isName
  · obtain ⟨type, same⟩ := returns_elementary member
    rw [same]
    exact isSeparable_cName type
  · obtain ⟨parameter, distinguishes, rfl⟩ := List.mem_map.mp isName
    obtain ⟨type, same⟩ := (isElementary_functions member).2 parameter
      (FunctionSignature.mem_of_distinguishing distinguishes)
    rw [same]
    exact isSeparable_cName type

end Standard

/-! ## Two declarations -/

section Declarations

variable {context : Context} {library : Library} {withConversions : Bool}

/-- A function is overloaded if two declarations in scope have its name. -/
theorem Context.isOverloaded_of_two {signatures : List FunctionSignature}
    (declared : ∀ name, context.functions.declarationsOf name =
      (Standard.functions withConversions).filter (fun signature => signature.name == name) ++
        signatures.filter fun signature => signature.name == name)
    {first second : FunctionSignature}
    (inScope : [first, second].Sublist (Standard.functions withConversions ++ signatures))
    {name : Ident} (isFirst : (first.name == name) = true)
    (isSecond : (second.name == name) = true) : context.functions.isOverloaded name = true := by
  have kept : [first, second].Sublist (context.functions.declarationsOf name) := by
    rw [declared, ← List.filter_append]
    have filtered := inScope.filter fun signature => signature.name == name
    have both : [first, second].filter (fun signature => signature.name == name) =
        [first, second] := by
      simp [isFirst, isSecond]
    rwa [both] at filtered
  exact FunctionTable.isOverloaded_iff.mpr kept.length_le

/-- Two declarations in scope have one name in generated code just if they have one
heading. -/
theorem Context.cName_eq_iff {signatures : List FunctionSignature}
    (declared : ∀ name, context.functions.declarationsOf name =
      (Standard.functions withConversions).filter (fun signature => signature.name == name) ++
        signatures.filter fun signature => signature.name == name)
    {first second : FunctionSignature}
    (inScope : [first, second].Sublist (Standard.functions withConversions ++ signatures))
    (separable : first.IsSeparable) (separable' : second.IsSeparable) :
    first.cName (context.functions.isOverloaded first.name) =
        second.cName (context.functions.isOverloaded second.name) ↔
      first.heading = second.heading := by
  have overloaded : first.name.upper = second.name.upper →
      context.functions.isOverloaded first.name = true ∧
        context.functions.isOverloaded second.name = true := by
    intro same
    have sameName := Ident.beq_iff_upper.mpr same
    exact ⟨isOverloaded_of_two declared inScope BEq.rfl (BEq.symm sameName),
      isOverloaded_of_two declared inScope sameName BEq.rfl⟩
  constructor
  · intro same
    obtain ⟨sameName, sameTypes⟩ := separable.parts_eq separable' same
    obtain ⟨isFirst, isSecond⟩ := overloaded sameName
    rw [isFirst, isSecond] at sameTypes
    exact congrArg₂ List.cons sameName sameTypes
  · intro same
    obtain ⟨sameName, sameTypes⟩ := List.cons.inj same
    obtain ⟨isFirst, isSecond⟩ := overloaded sameName
    rw [isFirst, isSecond, FunctionSignature.cName_eq_intercalate,
      FunctionSignature.cName_eq_intercalate]
    exact congrArg _ same

end Declarations

/-! ## Definitions -/

/-- The signatures of functions side by side with the definitions that are made of them. -/
theorem pairs_of_forall₂ {α β γ : Type} {sign : α → Except (List Fault) β} {heads : β → γ → Prop}
    {sources : List α} {signatures : List β}
    (signed : List.Forall₂ (fun source signature => sign source = .ok signature)
      sources signatures) :
    ∀ {definitions : List γ},
      List.Forall₂ (fun source definition => ∃ signature,
        sign source = .ok signature ∧ heads signature definition) sources definitions →
      ∃ pairs : List (β × γ), signatures = pairs.map Prod.fst ∧ definitions = pairs.map Prod.snd ∧
        List.Forall₂ (fun source pair => sign source = .ok pair.1) sources pairs ∧
        ∀ pair ∈ pairs, heads pair.1 pair.2 := by
  induction signed with
  | nil =>
      intro definitions made
      cases made
      exact ⟨[], rfl, rfl, .nil, fun _ member => absurd member List.not_mem_nil⟩
  | @cons source signature sources signatures isSigned _ ih =>
      intro definitions made
      cases made with
      | @cons _ definition _ definitions isMade made =>
          obtain ⟨same, found, isHeaded⟩ := isMade
          rw [isSigned] at found
          cases found
          obtain ⟨pairs, rfl, rfl, allSigned, allHeaded⟩ := ih made
          exact ⟨(signature, definition) :: pairs, rfl, rfl, .cons isSigned allSigned,
            List.forall_mem_cons.mpr ⟨isHeaded, allHeaded⟩⟩

/-- In a compiled library each function is defined under the heading of its own declaration.
Two definitions have one name just if their declarations name the same function, result
type and parameter types, and a definition has the name by which calls run a standard
function just if its declaration names these as the standard function does. -/
theorem Library.definitions_distinct {library : Library} {withConversions : Bool}
    {layout : Code.Layout} {text : String}
    (compiled : library.compile withConversions layout = .ok text) :
    ∃ context notes file, ∃ defined : List (FunctionSignature × Code.FunctionDef),
      Context.resolve library withConversions = .ok context ∧
      library.check context = .ok notes ∧ library.lower context = .ok file ∧
      text = file.render layout ∧ Code.functionDefs file.elements = defined.map Prod.snd ∧
      List.Forall₂
        (fun decl pair =>
          FunctionDecl.signature context.types context.blocks decl = .ok pair.1)
        library.functions defined ∧
      (∀ pair ∈ defined, pair.2.Heads context pair.1) ∧
      (defined.Pairwise fun first second =>
        first.1.IsSeparable → second.1.IsSeparable →
          (first.2.name = second.2.name ↔ first.1.heading = second.1.heading)) ∧
      ∀ standard ∈ Standard.functions withConversions, ∃ name, standard.RunsAs context name ∧
        ∀ pair ∈ defined, pair.1.IsSeparable →
          (pair.2.name = name ↔ pair.1.heading = standard.heading) := by
  obtain ⟨context, notes, file, resolved, checked, lowered, rendered⟩ :=
    Library.compile_ok compiled
  obtain ⟨signatures, signed, declared⟩ := Context.functions_declared resolved
  have headed := Library.heads_of_lower resolved lowered
  obtain ⟨defined, rfl, definitions, allSigned, allHeaded⟩ :=
    pairs_of_forall₂ signed (headed.imp fun _ _ ⟨signature, made, _, heads⟩ =>
      ⟨signature, made, heads⟩)
  have named : ∀ pair ∈ defined,
      pair.2.name = pair.1.cName (context.functions.isOverloaded pair.1.name) :=
    fun pair member => (allHeaded pair member).name
  refine ⟨context, notes, file, defined, resolved, checked, lowered, rendered, definitions,
    allSigned, allHeaded, ?_, ?_⟩
  · rw [List.pairwise_iff_forall_sublist]
    intro first second inOrder separable separable'
    have inScope : [first.1, second.1].Sublist
        (Standard.functions withConversions ++ defined.map Prod.fst) :=
      (inOrder.map Prod.fst).trans (List.sublist_append_right ..)
    rw [named first (inOrder.subset (List.mem_cons_self ..)),
      named second (inOrder.subset (List.mem_cons_of_mem _ (List.mem_singleton_self _)))]
    exact Context.cName_eq_iff declared inScope separable separable'
  · intro standard isStandard
    refine ⟨_, FunctionSignature.runsAs_of_resolve resolved standard,
      fun pair member separable => ?_⟩
    have inScope : [standard, pair.1].Sublist
        (Standard.functions withConversions ++ defined.map Prod.fst) :=
      (List.singleton_sublist.mpr isStandard).append
        (List.singleton_sublist.mpr (List.mem_map_of_mem member))
    rw [named pair member, eq_comm, Context.cName_eq_iff declared inScope
      (Standard.isSeparable_functions isStandard) separable, eq_comm]

theorem picking_headings : ((Context.resolve picking false).toOption.map fun context =>
    picking.functions.map fun decl =>
      (FunctionDecl.signature context.types context.blocks decl).toOption.map fun signature =>
        (decide signature.IsSeparable, signature.heading)) =
      some [some (true, ["PICK", "INT", "INT"]), some (true, ["PICK", "BOOL", "BOOL"])] := by
  rw [Context.resolve, FunctionTable.standard_eq_grouped]
  decide +kernel

theorem Library.definitions_distinct_picking :
    ∃ text file first second, picking.compile false {} = .ok text ∧
      text = Code.File.render {} file ∧ Code.functionDefs file.elements = [first, second] ∧
      first.name ≠ second.name := by
  obtain ⟨text, compiled⟩ := exists_ok_of_isOk picking_compiles
  obtain ⟨context, notes, file, defined, resolved, -, -, rendered, definitions, signed, -,
    apart, -⟩ := Library.definitions_distinct compiled
  have headings := picking_headings
  rw [resolved] at headings
  obtain ⟨first, rest, firstSigned, restSigned, rfl⟩ := List.forall₂_cons_left_iff.mp signed
  obtain ⟨second, others, secondSigned, othersSigned, rfl⟩ :=
    List.forall₂_cons_left_iff.mp restSigned
  cases othersSigned
  simp only [Except.toOption, Option.map_some, picking, Library.functions,
    List.filterMap_cons, List.filterMap_nil, List.map_cons, List.map_nil, firstSigned,
    secondSigned, Option.some.injEq, List.cons.injEq, Prod.mk.injEq, decide_eq_true_eq,
    and_true] at headings
  obtain ⟨⟨separable, heading⟩, separable', heading'⟩ := headings
  refine ⟨text, file, first.2, second.2, compiled, rendered, definitions, ?_⟩
  have iff := (List.pairwise_pair.mp apart) separable separable'
  rw [Ne, iff, heading, heading']
  decide

def repeating : Library where
  elements :=
    [.function
        { name := "Twice", returnType := "INT"
          vars := [{ VarDecl.simple "X" "INT" with kind := .input }]
          body := [.assign (.named "Twice") (.arith .add (.named "X") (.named "X"))] },
      .function
        { name := "Twice", returnType := "INT"
          vars := [{ VarDecl.simple "Y" "INT" with kind := .input }]
          body := [.copy "Twice" "Y"] },
      .function
        { name := "ADD", returnType := "INT"
          vars := [{ VarDecl.simple "IN1" "INT" with kind := .input }]
          body := [.copy "ADD" "IN1"] }]

theorem repeating_names : (repeating.accepted?.bind fun context => do
    let file ← (repeating.lower context).toOption
    return ((Code.functionDefs file.elements).map Code.FunctionDef.name,
      (Standard.functions false).any fun standard =>
        standard.cName (context.functions.isOverloaded standard.name) == "ADD__INT__INT")) =
      some (["TWICE__INT__INT", "TWICE__INT__INT", "ADD__INT__INT"], true) := by
  rw [Library.accepted?, Context.resolve, FunctionTable.standard_eq_grouped]
  decide +kernel

/-- The code of an accepted library may define two functions of one name, and one of the name
by which calls run a standard function. -/
theorem Library.definitions_collide :
    ∃ context notes file standard, Context.resolve repeating = .ok context ∧
      repeating.check context = .ok notes ∧ repeating.lower context = .ok file ∧
      ¬((Code.functionDefs file.elements).map Code.FunctionDef.name).Nodup ∧
      standard ∈ Standard.functions false ∧ standard.RunsAs context "ADD__INT__INT" ∧
      ∃ definition ∈ Code.functionDefs file.elements, definition.name = "ADD__INT__INT" := by
  obtain ⟨context, accepted, found⟩ := Option.bind_eq_some_iff.mp repeating_names
  obtain ⟨resolved, notes, checked⟩ := Library.of_accepted? accepted
  obtain ⟨file, isFile, found⟩ := Option.bind_eq_some_iff.mp found
  simp only [Option.pure_def, Option.some.injEq, Prod.mk.injEq] at found
  obtain ⟨names, isStandard⟩ := found
  obtain ⟨standard, member, named⟩ := List.any_eq_true.mp isStandard
  have runs := FunctionSignature.runsAs_of_resolve resolved standard
  rw [beq_iff_eq.mp named] at runs
  have isDefined : "ADD__INT__INT" ∈
      (Code.functionDefs file.elements).map Code.FunctionDef.name := by
    rw [names]
    decide
  obtain ⟨definition, isDefinition, sameName⟩ := List.mem_map.mp isDefined
  refine ⟨context, notes, file, standard, resolved, checked, eq_ok_of_toOption isFile, ?_, member,
    runs, definition, isDefinition, sameName⟩
  rw [names]
  decide

end StructuredText
