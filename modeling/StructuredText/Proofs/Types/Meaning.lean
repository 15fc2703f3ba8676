import StructuredText.Proofs.Types.Fixpoint

/-!
# What the name of a declared type means

A declaration means a type of its own kind, made of what the declaration states and of what
the names in it mean.  Its own name means that type, unless the name is one of those that the
elementary types have besides the names that they are entered under in the table: such a name
can be declared, but it keeps its elementary meaning.
-/

set_option autoImplicit false

namespace StructuredText

/-! ## The meaning of a declaration -/

/-- The dimension has the bounds that the range states. -/
def Range.Means (range : Range) (dimension : Dimension) : Prop :=
  range.start.value? = some dimension.lower ∧ range.stop.value? = some dimension.upper

theorem Range.dimension?_eq_some_iff {range : Range} {dimension : Dimension} :
    range.dimension? = some dimension ↔ range.Means dimension := by
  constructor
  · intro found
    obtain ⟨lower, isLower, found⟩ := Option.bind_eq_some_iff.mp found
    obtain ⟨upper, isUpper, found⟩ := Option.bind_eq_some_iff.mp found
    cases found
    exact ⟨isLower, isUpper⟩
  · rintro ⟨isLower, isUpper⟩
    rw [dimension?, isLower, isUpper]
    rfl

/-- The dimensions and the elements are those that the shape of an array states. -/
def ArrayShape.Means (types : TypeTable) (shape : ArrayShape) (dimensions : List Dimension)
    (element : DataType) : Prop :=
  List.Forall₂ Range.Means shape.ranges dimensions ∧ types.type? shape.element = some element

theorem TypeTable.shape?_eq_some_iff {types : TypeTable} {shape : ArrayShape}
    {dimensions : List Dimension} {element : DataType} :
    types.shape? shape = some (dimensions, element) ↔ shape.Means types dimensions element := by
  have ranges : shape.ranges.mapM Range.dimension? = some dimensions ↔
      List.Forall₂ Range.Means shape.ranges dimensions := by
    simp only [mapM_eq_some_iff, Range.dimension?_eq_some_iff]
  rw [ArrayShape.Means, ← ranges]
  constructor
  · intro found
    obtain ⟨inner, isElement, found⟩ := Option.bind_eq_some_iff.mp found
    obtain ⟨known, isDimensions, found⟩ := Option.bind_eq_some_iff.mp found
    cases found
    exact ⟨isDimensions, isElement⟩
  · rintro ⟨isDimensions, isElement⟩
    rw [shape?, isElement, isDimensions]
    rfl

/-- The field has the name and the type that are declared. -/
def FieldDecl.Means (types : TypeTable) (decl : FieldDecl) (field : Ident × DataType) : Prop :=
  field.1 = decl.name ∧ types.initializer? decl.initializer = some field.2

/-- The type is the one that the declaration makes, where the names in it mean what the table
says. -/
inductive TypeDecl.Means (types : TypeTable) : TypeDecl → DataType → Prop where
  | synonym {name base : Ident} {type : DataType} (isBase : types.type? base = some type) :
      TypeDecl.Means types (.synonym name base) (.synonym name type)
  | subrange {name : Ident} {base : Elementary} {range : Range} {lower upper : Int}
      (isRange : range.Means { lower, upper }) :
      TypeDecl.Means types (.subrange name base range) (.subrange name base lower upper)
  | enumeration {name : Ident} {values : List Ident} :
      TypeDecl.Means types (.enumeration name values) (.enumeration name values)
  | array {name : Ident} {shape : ArrayShape} {dimensions : List Dimension} {element : DataType}
      (isShape : shape.Means types dimensions element) :
      TypeDecl.Means types (.array name shape) (.array name dimensions element)
  | record {name : Ident} {decls : List FieldDecl} {fields : List (Ident × DataType)}
      (isFields : List.Forall₂ (FieldDecl.Means types) decls fields) :
      TypeDecl.Means types (.record name decls) (.record name fields)
  | string {name : Ident} {length : IntegerToken} {width : StringWidth} :
      TypeDecl.Means types (.string name length width) (.synonym name (.elementary width.type))

namespace TypeTable

variable {types : TypeTable}

theorem fields_eq_some_iff {decls : List FieldDecl} {fields : List (Ident × DataType)} :
    (decls.mapM fun decl =>
        (types.initializer? decl.initializer).map fun type => (decl.name, type)) = some fields ↔
      List.Forall₂ (FieldDecl.Means types) decls fields := by
  rw [mapM_eq_some_iff]
  have each : ∀ (decl : FieldDecl) (field : Ident × DataType),
      (types.initializer? decl.initializer).map (fun type => (decl.name, type)) = some field ↔
        decl.Means types field := by
    intro decl field
    rw [Option.map_eq_some_iff, FieldDecl.Means]
    constructor
    · rintro ⟨type, typed, rfl⟩
      exact ⟨rfl, typed⟩
    · rintro ⟨named, typed⟩
      exact ⟨field.2, typed, by rw [← named]⟩
  simp only [each]

theorem declaration?_eq_some_iff {decl : TypeDecl} {type : DataType} :
    types.declaration? decl = some type ↔ decl.Means types type := by
  constructor
  · intro found
    cases decl with
    | synonym name base =>
        obtain ⟨inner, isBase, rfl⟩ := Option.map_eq_some_iff.mp found
        exact .synonym isBase
    | subrange name base range =>
        obtain ⟨bounds, isBounds, rfl⟩ := Option.map_eq_some_iff.mp found
        exact .subrange (Range.dimension?_eq_some_iff.mp isBounds)
    | enumeration name values =>
        cases found
        exact .enumeration
    | array name shape =>
        obtain ⟨⟨dimensions, element⟩, isShape, rfl⟩ := Option.map_eq_some_iff.mp found
        exact .array (shape?_eq_some_iff.mp isShape)
    | record name decls =>
        obtain ⟨fields, isFields, rfl⟩ := Option.map_eq_some_iff.mp found
        exact .record (fields_eq_some_iff.mp isFields)
    | string name length width =>
        cases found
        exact .string
  · intro means
    cases means with
    | synonym isBase => rw [declaration?, isBase, Option.map_some]
    | subrange isRange =>
        rw [declaration?, Range.dimension?_eq_some_iff.mpr isRange, Option.map_some]
    | enumeration | string => rfl
    | array isShape => rw [declaration?, shape?_eq_some_iff.mpr isShape, Option.map_some]
    | record isFields => rw [declaration?, fields_eq_some_iff.mpr isFields, Option.map_some]

end TypeTable

/-! ## The meaning of a declared name -/

/-- The identifier is a name of an elementary type under which the table of these types has no
entry: the long name of a type that is entered under its short one. -/
def Ident.isLongName (ident : Ident) : Bool :=
  ident.key == "time_of_day" || ident.key == "date_and_time"

theorem Ident.isLongName_iff (ident : Ident) :
    ident.isLongName = true ↔ (Elementary.ofIdent? ident).isSome = true ∧
      TypeTable.elementary.contains ident = false := by
  have entered : ∀ spelling ∈ Elementary.spellings,
      (spelling.1 == "time_of_day" || spelling.1 == "date_and_time") =
        !TypeTable.elementary.entries.any fun entry => entry.1.key == spelling.1 := by
    decide +kernel
  have contains : TypeTable.elementary.contains ident =
      TypeTable.elementary.entries.any fun entry => entry.1.key == ident.key := by
    rw [Bool.eq_iff_iff, Table.contains_iff, List.any_eq_true]
    rfl
  have isSpelling : ∀ type, Elementary.ofIdent? ident = some type →
      (ident.key, type) ∈ Elementary.spellings := by
    intro type found
    obtain ⟨before, after, split, -⟩ := List.lookup_eq_some_iff.mp found
    rw [split]
    exact List.mem_append_right _ (List.mem_cons_self ..)
  rw [isLongName, contains]
  constructor
  · intro isLong
    have found : (Elementary.ofIdent? ident).isSome = true := by
      rcases Bool.or_eq_true_iff.mp isLong with same | same <;>
        rw [Elementary.ofIdent?, beq_iff_eq.mp same] <;> rfl
    obtain ⟨type, isType⟩ := Option.isSome_iff_exists.mp found
    rw [entered _ (isSpelling type isType), Bool.not_eq_true'] at isLong
    exact ⟨found, isLong⟩
  · rintro ⟨found, absent⟩
    obtain ⟨type, isType⟩ := Option.isSome_iff_exists.mp found
    rw [entered _ (isSpelling type isType), absent, Bool.not_false]

namespace TypeTable

variable {decls : List TypeDecl} {types : TypeTable}

theorem type?_of_isLongName {name : Ident} (isLong : name.isLongName = true) :
    ∃ base, types.type? name = some (.elementary base) := by
  obtain ⟨base, isBase⟩ :=
    Option.isSome_iff_exists.mp (name.isLongName_iff.mp isLong).1
  exact ⟨base, by rw [type?, isBase]⟩

variable (built : build elementary decls = .ok types)

include built

/-- Any other declared name means what the declaration makes, in whatever case it is
written. -/
theorem type?_of_build {decl : TypeDecl} (isDecl : decl ∈ decls)
    (isShort : decl.name.isLongName = false) :
    ∃ type, decl.Means types type ∧
      ∀ name, (decl.name == name) = true → types.type? name = some type := by
  have isOk : (build elementary decls).isOk = true := by rw [built]; rfl
  have notEntered : elementary.contains decl.name = false :=
    ((isOk_build decls).mp isOk).2.2 decl isDecl
  have notElementary : Elementary.ofIdent? decl.name = none := by
    rw [Option.eq_none_iff_forall_ne_some]
    intro base isBase
    have isLong := decl.name.isLongName_iff.mpr ⟨Option.isSome_of_eq_some isBase, notEntered⟩
    rw [isLong] at isShort
    cases isShort
  obtain ⟨type, found⟩ := Option.isSome_iff_exists.mp
    ((build_ok allDeclaredIn_elementary built).2 decl isDecl)
  refine ⟨type, ?_, fun name same => ?_⟩
  · rw [← declaration?_eq_some_iff, ← get?_of_build built isDecl BEq.rfl]
    exact found
  · rw [type?, Elementary.ofIdent?, ← Ident.beq_iff.mp same, ← Elementary.ofIdent?, notElementary,
      ← types.get?_congr same]
    exact found

end TypeTable

end StructuredText
