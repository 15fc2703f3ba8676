import StructuredText.Proofs.Analysis.Independence
import StructuredText.Proofs.Call.Block
import StructuredText.Proofs.Spelling.Types

/-!
# The types that variables have

Numbers without a type are values only: no variable, no parameter, no element and no
field is declared with such a type.  Among the other types it makes no difference which
of two is the target and which the source of a store.
-/

set_option autoImplicit false

namespace StructuredText

namespace DataType

inductive Storable : DataType → Prop where
  | elementary (type : Elementary) : Storable (.elementary type)
  | synonym (name : Ident) {base : DataType} (isSo : Storable base) :
      Storable (.synonym name base)
  | subrange (name : Ident) (base : Elementary) (lower upper : Int) :
      Storable (.subrange name base lower upper)
  | enumeration (name : Ident) (values : List Ident) : Storable (.enumeration name values)
  | array (name : Ident) (dimensions : List Dimension) {element : DataType}
      (isSo : Storable element) : Storable (.array name dimensions element)
  | record (name : Ident) {fields : List (Ident × DataType)}
      (areSo : ∀ field ∈ fields, Storable field.2) : Storable (.record name fields)
  | functionBlock (name : Ident) : Storable (.functionBlock name)

theorem Storable.resolved {type : DataType} (storable : type.Storable) :
    type.resolved.Storable := by
  induction storable with
  | elementary type => exact .elementary type
  | synonym name _ ih => exact ih
  | subrange name base lower upper => exact .subrange name base lower upper
  | enumeration name values => exact .enumeration name values
  | array name dimensions isSo => exact .array name dimensions isSo
  | record name areSo => exact .record name areSo
  | functionBlock name => exact .functionBlock name

theorem Storable.isLiteral_resolved {type : DataType} (storable : type.Storable) :
    type.resolved.isIntLiteral = false ∧ type.resolved.isRealLiteral = false := by
  have resolvedSo := storable.resolved
  cases resolved : type.resolved with
  | intLiteral | realLiteral =>
      rw [resolved] at resolvedSo
      cases resolvedSo
  | _ => exact ⟨rfl, rfl⟩

/-- Of two types that values are stored in, either accepts the other or neither does. -/
theorem Storable.accepts_comm {first second : DataType} (firstSo : first.Storable)
    (secondSo : second.Storable) : first.accepts second = second.accepts first := by
  obtain ⟨firstInt, firstReal⟩ := firstSo.isLiteral_resolved
  obtain ⟨secondInt, secondReal⟩ := secondSo.isLiteral_resolved
  rw [accepts_eq, accepts_eq, firstInt, firstReal, secondInt, secondReal]
  cases first.resolved.elementary? <;> cases second.resolved.elementary? <;>
    simp [Bool.beq_comm]

end DataType

/-! ## Declared types -/

namespace TypeTable

variable {types : TypeTable}

/-- The type of an initializer, given that the smaller types of the table are storable. -/
theorem storable_initializer? {initializer : Initializer} {type : DataType}
    (known : ∀ name inner, types.type? name = some inner → sizeOf inner ≤ sizeOf type →
      inner.Storable) (found : types.initializer? initializer = some type) : type.Storable := by
  cases initializer with
  | simple name value => exact known name type found le_rfl
  | enumerated name value => exact known name type found le_rfl
  | string length width value =>
      cases found
      exact .elementary _
  | functionBlock name =>
      cases found
      exact .functionBlock name
  | array spec =>
      cases spec with
      | named name => exact known name type found le_rfl
      | inline shape =>
          obtain ⟨⟨dimensions, element⟩, shaped, rfl⟩ := Option.map_eq_some_iff.mp found
          obtain ⟨inner, isInner, shaped⟩ := Option.bind_eq_some_iff.mp shaped
          obtain ⟨bounds, -, shaped⟩ := Option.bind_eq_some_iff.mp shaped
          cases shaped
          refine .array _ dimensions (known _ element isInner ?_)
          simp only [DataType.inlineArray, DataType.array.sizeOf_spec]
          omega

/-- What a declaration means, given that the smaller types of the table are storable. -/
theorem storable_declaration? {decl : TypeDecl} {type : DataType}
    (known : ∀ name inner, types.type? name = some inner → sizeOf inner < sizeOf type →
      inner.Storable) (found : types.declaration? decl = some type) : type.Storable := by
  cases decl with
  | synonym name baseName =>
      obtain ⟨base, isBase, rfl⟩ := Option.map_eq_some_iff.mp found
      refine .synonym name (known _ base isBase ?_)
      simp only [DataType.synonym.sizeOf_spec]
      omega
  | subrange name base range =>
      obtain ⟨bounds, -, rfl⟩ := Option.map_eq_some_iff.mp found
      exact .subrange ..
  | enumeration name values =>
      cases found
      exact .enumeration name values
  | string name length width =>
      cases found
      exact .synonym name (.elementary _)
  | array name shape =>
      obtain ⟨⟨dimensions, element⟩, shaped, rfl⟩ := Option.map_eq_some_iff.mp found
      obtain ⟨inner, isInner, shaped⟩ := Option.bind_eq_some_iff.mp shaped
      obtain ⟨bounds, -, shaped⟩ := Option.bind_eq_some_iff.mp shaped
      cases shaped
      refine .array name dimensions (known _ element isInner ?_)
      simp only [DataType.array.sizeOf_spec]
      omega
  | record name decls =>
      obtain ⟨fields, made, rfl⟩ := Option.map_eq_some_iff.mp found
      refine .record name fun field member => ?_
      obtain ⟨decl, -, made⟩ := exists_of_mem_right (mapM_eq_some_iff.mp made) field member
      obtain ⟨type, typed, rfl⟩ := Option.map_eq_some_iff.mp made
      refine storable_initializer? (fun inner innerType isInner smaller => ?_) typed
      refine known inner innerType isInner (lt_of_le_of_lt smaller ?_)
      have inList := List.sizeOf_lt_of_mem member
      simp only [DataType.record.sizeOf_spec, Prod.mk.sizeOf_spec] at inList ⊢
      omega

variable {decls : List TypeDecl}

/-- Every type of a table that was built without faults is storable. -/
theorem storable_type? (built : build elementary decls = .ok types) {name : Ident}
    {type : DataType} (found : types.type? name = some type) : type.Storable := by
  induction size : sizeOf type using Nat.strong_induction_on generalizing name type with
  | _ bound ih =>
      subst size
      obtain ⟨base, rfl⟩ | ⟨decl, -, meaning⟩ := origin_of_build built found
      · exact .elementary base
      · refine storable_declaration? (fun other inner isInner smaller => ?_) meaning
        exact ih _ smaller isInner rfl

end TypeTable

/-! ## Declared variables -/

def Scope.IsStorable (scope : Scope) : Prop :=
  ScopeStack.All (fun (entry : VariableEntry) => entry.type.Storable) scope

section Resolved

variable {context : Context} {library : Library} {withConversions : Bool}
  (resolved : Context.resolve library withConversions = .ok context)

include resolved

theorem Context.storable_typeOf {decl : VarDecl} {type : DataType}
    (typed : context.typeOf decl = .ok type) : type.Storable := by
  obtain ⟨built, -, -⟩ := Context.resolve_ok resolved
  have known : ∀ name inner, context.types.type? name = some inner → inner.Storable :=
    fun name inner found => TypeTable.storable_type? built found
  unfold Context.typeOf VarDecl.type at typed
  split at typed
  · split at typed
    · next found =>
        cases typed
        exact known _ _ found
    · split at typed
      · cases typed
        exact .functionBlock _
      · cases typed
  · split at typed
    · cases typed
      exact .functionBlock _
    · cases typed
  · split at typed
    · next found =>
        cases typed
        exact TypeTable.storable_initializer? (fun name inner isInner _ => known name inner isInner)
          found
    · cases typed

theorem Context.storable_block {name : Ident} {signature : BlockSignature}
    (found : context.functions.block? name = some signature) :
    ∀ parameter ∈ signature.parameters, parameter.type.Storable := by
  intro parameter member
  obtain ⟨-, ⟨type, same⟩ | ⟨decl, typed⟩⟩ := Context.isPlain_block? resolved found parameter member
  · rw [same]
    exact .elementary type
  · exact Context.storable_typeOf resolved typed

theorem Context.storable_function {name : Ident} {signature : FunctionSignature}
    (isDeclaration : signature ∈ context.functions.declarationsOf name) :
    ∀ parameter ∈ signature.parameters, parameter.type.Storable := by
  obtain ⟨signatures, signed, declarations⟩ := Context.functions_declared resolved
  rw [declarations] at isDeclaration
  intro parameter member
  rcases List.mem_append.mp isDeclaration with standard | ofLibrary
  · have elementary := Standard.isElementary_functions (List.mem_filter.mp standard).1
    obtain ⟨type, same⟩ := elementary.2 parameter member
    rw [same]
    exact .elementary type
  · obtain ⟨decl, -, made⟩ := Context.mem_signatures signed (List.mem_filter.mp ofLibrary).1
    obtain ⟨-, -, -, parametersMade⟩ := FunctionDecl.signature_ok made
    rcases (parameter_of_parametersOf parametersMade parameter member).2 with
      ⟨type, same⟩ | ⟨source, -, typed⟩
    · rw [same]
      exact .elementary type
    · exact Context.storable_typeOf resolved typed

theorem Element.isStorable_innerScope (element : Element) :
    (element.innerScope context ScopeStack.new).IsStorable := by
  obtain ⟨built, -, -⟩ := Context.resolve_ok resolved
  exact Element.all_innerScope (.elementary .bool)
    (fun _ _ found => TypeTable.storable_type? built found)
    (fun _ _ _ => Context.storable_typeOf resolved) ScopeStack.all_new

/-! ## References -/

theorem Context.storable_field {record type : DataType} {name : Ident}
    (storable : record.Storable) (found : context.field? record name = some type) :
    type.Storable := by
  have resolvedSo := storable.resolved
  unfold Context.field? at found
  split at found
  · next same =>
      rw [same] at resolvedSo
      obtain ⟨field, isField, rfl⟩ := Option.map_eq_some_iff.mp found
      cases resolvedSo with
      | record name areSo => exact areSo field (List.mem_of_find?_eq_some isField)
  · obtain ⟨parameter, isParameter, rfl⟩ := Option.map_eq_some_iff.mp found
    obtain ⟨signature, isSignature, isParameter⟩ := Option.bind_eq_some_iff.mp isParameter
    exact Context.storable_block resolved isSignature parameter
      (List.mem_of_find?_eq_some isParameter)
  · cases found

theorem Context.storable_referenceType {scope : Scope} (storable : scope.IsStorable)
    {reference : Reference} {type : DataType}
    (typed : context.referenceType scope reference = .ok type) : type.Storable := by
  induction reference using Reference.root.induct generalizing type with
  | case1 name =>
      rw [Context.referenceType] at typed
      cases found : scope.lookup name with
      | none => rw [found] at typed; cases typed
      | some entry =>
          rw [found] at typed
          cases typed
          exact ScopeStack.All.lookup storable found
  | case2 array subscripts ih =>
      obtain ⟨arrayType, name, dimensions, element, arrayTyped, isArray, sameLength⟩ :=
        Context.referenceType_array typed
      have arraySo := (ih arrayTyped).resolved
      rw [isArray] at arraySo
      rw [Context.referenceType, arrayTyped, ok_bind, isArray] at typed
      simp only [sameLength, if_true] at typed
      cases typed
      cases arraySo with
      | array name dimensions isSo => exact isSo
  | case3 record name ih =>
      rw [Context.referenceType] at typed
      obtain ⟨recordType, recordTyped, typed⟩ := bind_eq_ok typed
      cases found : context.field? recordType name with
      | none => rw [found] at typed; cases typed
      | some inner =>
          rw [found] at typed
          cases typed
          exact Context.storable_field resolved (ih recordTyped) found

theorem Context.storable_variableType {scope : Scope} (storable : scope.IsStorable)
    {source : Variable} {type : DataType} (typed : context.variableType scope source = .ok type) :
    type.Storable := by
  cases source with
  | direct address =>
      cases typed
      exact .elementary _
  | symbolic reference => exact Context.storable_referenceType resolved storable typed

end Resolved

end StructuredText
