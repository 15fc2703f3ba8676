import StructuredText.Proofs.Call.Related
import StructuredText.Proofs.Spelling.Fold

/-!
# Standard functions that are declared for several types

The declarations of an overloaded standard function differ in one type: it is what they
return and what the parameters for the operands have.  The other parameters, which enable
the call or select an operand, have the same type in all of them.
-/

set_option autoImplicit false

namespace StructuredText

open FunctionTable (standardNames)

/-! ## Parameters whose types vary -/

namespace Parameter

def fixedNames : List String := ["EN", "ENO", "G", "K"]

def isOperand (parameter : Parameter) : Bool := !fixedNames.contains parameter.name.name

def withType (type : Elementary) (parameter : Parameter) : Parameter :=
  if parameter.isOperand then { parameter with type := .elementary type } else parameter

variable {type : Elementary} {parameter : Parameter}

theorem withType_of_operand (isOperand : parameter.isOperand = true) :
    parameter.withType type = { parameter with type := .elementary type } := by
  rw [withType, if_pos isOperand]

theorem withType_of_fixed (isFixed : parameter.isOperand = false) :
    parameter.withType type = parameter := by
  rw [withType, isFixed, if_neg nofun]

theorem alike_withType (type : Elementary) (parameter : Parameter) :
    parameter.Alike (parameter.withType type) := by
  rw [withType]
  split <;> exact ⟨rfl, rfl, rfl, rfl⟩

@[simp] theorem name_withType (type : Elementary) (parameter : Parameter) :
    (parameter.withType type).name = parameter.name :=
  (parameter.alike_withType type).name.symm

@[simp] theorem isOperand_withType (type : Elementary) (parameter : Parameter) :
    (parameter.withType type).isOperand = parameter.isOperand := by
  rw [isOperand, isOperand, name_withType]

theorem withType_withType (type other : Elementary) (parameter : Parameter) :
    (parameter.withType other).withType type = parameter.withType type := by
  cases operand : parameter.isOperand with
  | true =>
      rw [withType_of_operand operand, withType_of_operand operand, withType_of_operand]
      exact operand
  | false => rw [withType_of_fixed operand]

end Parameter

/-! ## Declarations for several types -/

/-- Declarations that differ in one type: what they return, and the type of the operands. -/
def Varies (types : List Elementary) (declarations : List FunctionSignature) : Prop :=
  ∃ (base : List Parameter) (declare : Elementary → FunctionSignature),
    declarations = types.map declare ∧ ∀ type, (declare type).returnType = .elementary type ∧
      (declare type).parameters = base.map (Parameter.withType type)

def Parameter.IsElement (declarations : List FunctionSignature) (parameter : Parameter) : Prop :=
  ∀ declaration ∈ declarations, ∀ other ∈ declaration.parameters,
    other.name = parameter.name → other.type = declaration.returnType

namespace Varies

variable {types : List Elementary} {declarations : List FunctionSignature}

/-- The parameters of the declarations for all types are those of any one with their types
changed. -/
theorem parameters_eq (vary : Varies types declarations) {declaration : FunctionSignature}
    (member : declaration ∈ declarations) :
    ∃ declare : Elementary → FunctionSignature, declarations = types.map declare ∧
      ∀ type, (declare type).returnType = .elementary type ∧
        (declare type).parameters = declaration.parameters.map (Parameter.withType type) := by
  obtain ⟨base, declare, rfl, areVariants⟩ := vary
  obtain ⟨other, -, rfl⟩ := List.mem_map.mp member
  refine ⟨declare, rfl, fun type => ⟨(areVariants type).1, ?_⟩⟩
  rw [(areVariants type).2, (areVariants other).2, List.map_map]
  exact List.map_congr_left fun parameter _ => (parameter.withType_withType type other).symm

/-- Among declarations for at least two types the operands are the parameters whose types
vary. -/
theorem isElement_iff (vary : Varies types declarations) {first second : Elementary}
    (isFirst : first ∈ types) (isSecond : second ∈ types) (differ : first ≠ second)
    {declaration : FunctionSignature} (member : declaration ∈ declarations)
    {parameter : Parameter} (isParameter : parameter ∈ declaration.parameters) :
    parameter.IsElement declarations ↔ parameter.isOperand = true := by
  obtain ⟨declare, rfl, areVariants⟩ := vary.parameters_eq member
  constructor
  · intro isElement
    by_contra notOperand
    rw [Bool.not_eq_true] at notOperand
    have hasType : ∀ type ∈ types, parameter.type = .elementary type := by
      intro type isType
      have isVariant : parameter ∈ (declare type).parameters := by
        rw [(areVariants type).2]
        exact List.mem_map.mpr ⟨parameter, isParameter, Parameter.withType_of_fixed notOperand⟩
      rw [isElement _ (List.mem_map_of_mem isType) parameter isVariant rfl, (areVariants type).1]
    have same := (hasType first isFirst).symm.trans (hasType second isSecond)
    exact differ (DataType.elementary.inj same)
  · intro isOperand other isOther variant isVariant sameName
    obtain ⟨type, -, rfl⟩ := List.mem_map.mp isOther
    rw [(areVariants type).2] at isVariant
    obtain ⟨origin, -, rfl⟩ := List.mem_map.mp isVariant
    have operand : origin.isOperand = true := by
      rw [Parameter.name_withType] at sameName
      rw [Parameter.isOperand, sameName]
      exact isOperand
    rw [Parameter.withType_of_operand operand, (areVariants type).1]

end Varies

namespace Standard

def family (label : String) (inputs : Elementary → List Parameter) (types : List Elementary) :
    List FunctionSignature :=
  types.map fun type => .standard { name := label } (.elementary type) (inputs type)

theorem filter_family (label : String) (inputs : Elementary → List Parameter)
    (types : List Elementary) (name : Ident) :
    (family label inputs types).filter (fun signature => signature.name == name) =
      if ({ name := label } : Ident) == name then family label inputs types else [] := by
  rw [family, List.filter_map]
  cases same : ({ name := label } : Ident) == name with
  | true => simp [FunctionSignature.standard, same, Function.comp_def]
  | false => simp [FunctionSignature.standard, same, Function.comp_def]

/-- The parameters that a function has for a type are those it has for another with the types
of the operands changed. -/
theorem varies_family (label : String) (types : List Elementary)
    {inputs : Elementary → List Parameter} (type : Elementary)
    (same : ∀ other, inputs other = (inputs type).map (Parameter.withType other)) :
    Varies types (family label inputs types) := by
  refine ⟨Parameter.implicit ++ inputs type, _, rfl, fun other => ⟨rfl, ?_⟩⟩
  rw [List.map_append, ← same other]
  rfl

/-- The functions that come with the compiler: one family for each name. -/
theorem functions_eq (withConversions : Bool) : functions withConversions =
    family "ADD" (fun type => [.extensible "IN" type]) Elementary.numeric ++
    family "MUL" (fun type => [.extensible "IN" type]) Elementary.numeric ++
    family "ABS" (fun type => [.input "IN" type]) Elementary.numeric ++
    family "SQRT" (fun type => [.input "IN" type]) [.real, .lreal] ++
    family "EXPT" (fun type => [.input "IN1" type, .input "IN2" type]) [.real, .lreal] ++
    family "AND" (fun type => [.extensible "IN" type]) Elementary.bits ++
    family "OR" (fun type => [.extensible "IN" type]) Elementary.bits ++
    family "XOR" (fun type => [.extensible "IN" type]) Elementary.bits ++
    family "MAX" (fun type => [.extensible "IN" type]) Elementary.numeric ++
    family "MIN" (fun type => [.extensible "IN" type]) Elementary.numeric ++
    Elementary.numeric.flatMap selection ++ if withConversions then conversions else [] := rfl

/-! ## Conversions -/

def conversion (types : Elementary × Elementary) : FunctionSignature :=
  .standard { name := types.1.cName ++ "_TO_" ++ types.2.cName } (.elementary types.2)
    [.input "IN" types.1]

def conversionTypes : List (Elementary × Elementary) :=
  convertible.flatMap fun source =>
    (convertible.filter fun target => target ≠ source).map (source, ·)

theorem conversions_eq : conversions = conversionTypes.map conversion := by
  rw [conversions, conversionTypes, List.map_flatMap]
  refine List.flatMap_congr fun source _ => ?_
  rw [List.map_map]
  rfl

theorem convertible_of_mem {types : Elementary × Elementary} (member : types ∈ conversionTypes) :
    types.1 ∈ convertible ∧ types.2 ∈ convertible := by
  obtain ⟨source, isSource, member⟩ := List.mem_flatMap.mp member
  obtain ⟨target, isTarget, rfl⟩ := List.mem_map.mp member
  exact ⟨isSource, (List.mem_filter.mp isTarget).1⟩

theorem conversionTypes_nodup : conversionTypes.Nodup := by
  have distinct : convertible.Nodup := by decide
  refine List.nodup_flatMap.mpr ⟨fun source _ => ?_, distinct.imp fun {first second} apart => ?_⟩
  · exact (distinct.filter _).map fun first second same => (Prod.ext_iff.mp same).2
  · rintro types inFirst inSecond
    obtain ⟨target, -, rfl⟩ := List.mem_map.mp inFirst
    obtain ⟨other, -, same⟩ := List.mem_map.mp inSecond
    exact apart (Prod.ext_iff.mp same).1.symm

/-- The name of a conversion in generated code: that of the source up to the first
underscore. -/
theorem toList_upper_conversion {types : Elementary × Elementary}
    (member : types ∈ conversionTypes) : (conversion types).name.upper.toList =
      types.1.cName.toList ++ '_' :: ("TO_".toList ++ types.2.cName.toList) := by
  have isUpper : ∀ type ∈ convertible, type.cName.toUpper = type.cName := by decide +kernel
  have middle : "_TO_".toUpper = "_TO_" := by decide +kernel
  obtain ⟨isSource, isTarget⟩ := convertible_of_mem member
  rw [conversion, FunctionSignature.standard, Ident.upper, toUpper_append, toUpper_append,
    isUpper _ isSource, isUpper _ isTarget]
  simp [middle]

theorem conversion_inj {types types' : Elementary × Elementary} (member : types ∈ conversionTypes)
    (member' : types' ∈ conversionTypes)
    (same : ((conversion types).name == (conversion types').name) = true) : types = types' := by
  have noUnderscore : ∀ type ∈ convertible, type.cName.toList.all (· != '_') = true := by
    decide +kernel
  have upTo : ∀ type ∈ convertible, ∀ rest : List Char,
      (type.cName.toList ++ '_' :: rest).takeWhile (· != '_') = type.cName.toList := by
    intro type isConvertible rest
    rw [List.takeWhile_append_of_pos (List.all_eq_true.mp (noUnderscore type isConvertible)),
      List.takeWhile_cons_of_neg (by simp), List.append_nil]
  have distinct : ∀ {type other : Elementary}, type.cName.toList = other.cName.toList →
      type = other := by
    intro type other same
    have sameIdent : type.ident = other.ident := by
      rw [Elementary.ident, Elementary.ident, String.toList_inj.mp same]
    exact Option.some.inj (by rw [← type.ofIdent?_ident, sameIdent, other.ofIdent?_ident])
  have names := congrArg String.toList (Ident.beq_iff_upper.mp same)
  rw [toList_upper_conversion member, toList_upper_conversion member'] at names
  have sources := congrArg (List.takeWhile (· != '_')) names
  rw [upTo _ (convertible_of_mem member).1, upTo _ (convertible_of_mem member').1] at sources
  have sameSource := distinct sources
  rw [sameSource, List.append_cancel_left_eq, List.cons.injEq,
    List.append_cancel_left_eq] at names
  exact Prod.ext sameSource (distinct names.2)

theorem length_filter_conversions (name : Ident) :
    (conversions.filter fun signature => signature.name == name).length ≤ 1 := by
  have distinct : conversions.Pairwise fun first second =>
      (first.name == second.name) = false := by
    rw [conversions_eq, List.pairwise_map]
    refine conversionTypes_nodup.imp_of_mem fun {first second} isFirst isSecond apart => ?_
    rw [Bool.eq_false_iff]
    exact fun same => apart (conversion_inj isFirst isSecond same)
  have named : ∀ signature ∈ conversions.filter fun signature => signature.name == name,
      (signature.name == name) = true := fun signature member => (List.mem_filter.mp member).2
  have apart := distinct.filter fun signature => signature.name == name
  cases found : conversions.filter fun signature => signature.name == name with
  | nil => exact Nat.zero_le 1
  | cons first rest =>
      cases rest with
      | nil => exact Nat.le_refl 1
      | cons second rest =>
          rw [found] at named apart
          have differ := (List.pairwise_cons.mp apart).1 second (List.mem_cons_self ..)
          have isFirst := named first (List.mem_cons_self ..)
          have isSecond := named second (List.mem_cons_of_mem _ (List.mem_cons_self ..))
          rw [BEq.trans isFirst (BEq.symm isSecond)] at differ
          cases differ

theorem filter_conversions_of_label {label name : Ident} (isLabel : label ∈ standardNames)
    (same : (label == name) = true) :
    (conversions.filter fun signature => signature.name == name) = [] := by
  have noUnderscore : ∀ label ∈ standardNames, label.upper.toList.contains '_' = false := by
    decide +kernel
  rw [List.filter_eq_nil_iff]
  intro signature member isNamed
  rw [conversions_eq] at member
  obtain ⟨types, isPair, rfl⟩ := List.mem_map.mp member
  have sameUpper := Ident.beq_iff_upper.mp (BEq.trans isNamed (BEq.symm same))
  have absent := noUnderscore label isLabel
  rw [← sameUpper, toList_upper_conversion isPair] at absent
  simp at absent

/-! ## Overloaded standard functions -/

theorem beq_label {label name : Ident} (isLabel : label ∈ standardNames)
    (same : (label == name) = true) :
    ∀ other ∈ standardNames, (other == name) = decide (other.name = label.name) := by
  have labels : ∀ label ∈ standardNames, ∀ other ∈ standardNames,
      (other == label) = decide (other.name = label.name) := by decide +kernel
  intro other isOther
  rw [← labels label isLabel other isOther, Bool.eq_iff_iff]
  exact ⟨fun isName => BEq.trans isName (BEq.symm same), fun isLabel => BEq.trans isLabel same⟩

/-- The functions that select a value, with the parameters that they have for a type. -/
def select (type : Elementary) : List Parameter :=
  [.input "G" .bool, .input "IN0" type, .input "IN1" type]

def limit (type : Elementary) : List Parameter :=
  [.input "MN" type, .input "IN" type, .input "MX" type]

def multiplex (type : Elementary) : List Parameter := [.input "K" .int, .extensible "IN" type]

theorem filter_selection (types : List Elementary) (name : Ident) :
    (types.flatMap selection).filter (fun signature => signature.name == name) =
      types.flatMap fun type =>
        (if ({ name := "SEL" } : Ident) == name then
            [FunctionSignature.standard { name := "SEL" } (.elementary type) (select type)]
              else []) ++
        (if ({ name := "LIMIT" } : Ident) == name then
            [FunctionSignature.standard { name := "LIMIT" } (.elementary type) (limit type)]
              else []) ++
        (if ({ name := "MUX" } : Ident) == name then
            [FunctionSignature.standard { name := "MUX" } (.elementary type) (multiplex type)]
              else []) := by
  rw [List.filter_flatMap]
  refine List.flatMap_congr fun type _ => ?_
  cases selects : ({ name := "SEL" } : Ident) == name <;>
    cases limits : ({ name := "LIMIT" } : Ident) == name <;>
      cases multiplexes : ({ name := "MUX" } : Ident) == name <;>
        simp [selection, FunctionSignature.standard, selects, limits, multiplexes, select, limit,
          multiplex]

theorem flatMap_none (types : List Elementary) :
    (types.flatMap fun _ => ([] : List FunctionSignature)) = [] :=
  List.flatMap_eq_nil_iff.mpr fun _ _ => rfl

def typeSets : List (List Elementary) := [Elementary.numeric, [.real, .lreal], Elementary.bits]

theorem varies_of_label {withConversions : Bool} {label name : Ident}
    (isLabel : label ∈ standardNames) (same : (label == name) = true) :
    ∃ types ∈ typeSets, Varies types
      ((functions withConversions).filter fun signature => signature.name == name) := by
  have names := beq_label isLabel same
  have noConversion : (if withConversions then conversions else []).filter
      (fun signature => signature.name == name) = [] := by
    split
    · exact filter_conversions_of_label isLabel same
    · rfl
  rw [functions_eq]
  simp only [standardNames, List.forall_mem_cons, List.not_mem_nil, IsEmpty.forall_iff,
    implies_true, and_true] at names
  simp only [List.filter_append, filter_family, noConversion, filter_selection]
  simp only [standardNames, List.mem_cons, List.not_mem_nil, or_false] at isLabel
  rcases isLabel with rfl | rfl | rfl | rfl | rfl | rfl | rfl | rfl | rfl | rfl | rfl | rfl | rfl
  all_goals
    simp only [String.reduceEq, decide_true, decide_false] at names
    simp only [names, if_true, Bool.false_eq_true, if_false, List.append_nil, List.nil_append,
      flatMap_none, ← List.map_eq_flatMap]
    exact ⟨_, by simp [typeSets], varies_family _ _ .lint fun _ => rfl⟩

/-- A name that is declared more than once is one of those. -/
theorem label_of_overloaded {withConversions : Bool} {name : Ident}
    (overloaded : 1 <
      ((functions withConversions).filter fun signature => signature.name == name).length) :
    ∃ label ∈ standardNames, (label == name) = true := by
  by_contra noLabel
  have names : ∀ other ∈ standardNames, (other == name) = false := by simpa using noLabel
  simp only [standardNames, List.forall_mem_cons, List.not_mem_nil, IsEmpty.forall_iff,
    implies_true, and_true] at names
  rw [functions_eq] at overloaded
  simp only [List.filter_append, filter_family, filter_selection, names, Bool.false_eq_true,
    if_false, List.append_nil, List.nil_append, flatMap_none] at overloaded
  split at overloaded
  · exact absurd (length_filter_conversions name) (Nat.not_le_of_lt overloaded)
  · cases overloaded

theorem varies_of_isOverloaded {withConversions : Bool} {name : Ident}
    (overloaded : (FunctionTable.standard withConversions).isOverloaded name = true) :
    ∃ types ∈ typeSets,
      Varies types ((FunctionTable.standard withConversions).declarationsOf name) := by
  have several := FunctionTable.isOverloaded_iff.mp overloaded
  rw [FunctionTable.declarationsOf_standard] at several ⊢
  obtain ⟨label, isLabel, same⟩ := label_of_overloaded several
  exact varies_of_label isLabel same

end Standard

end StructuredText
