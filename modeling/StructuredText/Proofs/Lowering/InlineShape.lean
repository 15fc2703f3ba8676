import StructuredText.Proofs.Lowering.ArrayDeclaration
import StructuredText.Proofs.Lowering.Names
import StructuredText.Proofs.Types.InlineName

/-!
# Arrays that are written out

A field of a record or a variable may write an array out.  Generated code has a name for the
array and declares it under this name, once.  The declaration is of the array itself, unless
the name is also that of another array.
-/

set_option autoImplicit false

namespace StructuredText

/-! ## Where arrays are written out -/

def Initializer.shape? : Initializer → Option ArrayShape
  | .array (.inline shape) => some shape
  | .array (.named _) | .simple .. | .string .. | .enumerated .. | .functionBlock _ => none

/-- The fields that a declaration of a type states. -/
def TypeDecl.fields : TypeDecl → List FieldDecl
  | .record _ fields => fields
  | .synonym .. | .subrange .. | .enumeration .. | .array .. | .string .. => []

def Library.initializers (library : Library) : List Initializer :=
  (library.typeDecls.flatMap TypeDecl.fields).map FieldDecl.initializer ++
    (library.elements.flatMap Element.vars).map VarDecl.initializer

def Library.inlineShapes (library : Library) : List ArrayShape :=
  library.initializers.filterMap Initializer.shape?

/-- A field or a variable writes out an array with the dimensions and the elements. -/
def Library.WritesOut (library : Library) (context : Context) (dimensions : List Dimension)
    (element : DataType) : Prop :=
  ∃ shape ∈ library.inlineShapes, shape.Means context.types dimensions element

/-- A field or a variable that writes out an array has the array as its type. -/
theorem TypeTable.initializer?_of_shape? {types : TypeTable} {initializer : Initializer}
    {shape : ArrayShape} {type : DataType} (isShape : initializer.shape? = some shape) :
    types.initializer? initializer = some type ↔
      ∃ dimensions element, shape.Means types dimensions element ∧
        type = .inlineArray dimensions element := by
  cases initializer with
  | array spec =>
      cases spec with
      | named name => cases isShape
      | inline inner =>
          cases isShape
          rw [initializer?, array?, Option.map_eq_some_iff]
          constructor
          · rintro ⟨⟨dimensions, element⟩, found, rfl⟩
            exact ⟨dimensions, element, shape?_eq_some_iff.mp found, rfl⟩
          · rintro ⟨dimensions, element, means, rfl⟩
            exact ⟨_, shape?_eq_some_iff.mpr means, rfl⟩
  | simple | string | enumerated | functionBlock => cases isShape

theorem VarDecl.type_of_shape? {types : TypeTable} {blocks : List Ident} {decl : VarDecl}
    {shape : ArrayShape} {type : DataType} (isShape : decl.initializer.shape? = some shape)
    (typed : types.initializer? decl.initializer = some type) :
    decl.type types blocks = .ok type := by
  unfold VarDecl.type
  cases isArray : decl.initializer with
  | array spec =>
      rw [isArray] at typed
      simp only [typed]
  | simple | string | enumerated | functionBlock =>
      rw [isArray] at isShape
      cases isShape

/-! ## The types that occur in a library -/

/-- Where a type of a library comes from: it has a name, it is an array that is written out, or
it is one that needs no declaration. -/
inductive Library.Occurs (library : Library) (context : Context) : DataType → Prop where
  | named {name : Ident} {type : DataType} (found : context.types.type? name = some type) :
      library.Occurs context type
  | inline {dimensions : List Dimension} {element : DataType}
      (written : library.WritesOut context dimensions element) :
      library.Occurs context
        (.array { name := DataType.inlineName dimensions element } dimensions element)
  | elementary (base : Elementary) : library.Occurs context (.elementary base)
  | functionBlock (name : Ident) : library.Occurs context (.functionBlock name)

namespace Library

variable {library : Library} {context : Context}

theorem occurs_of_initializer? {initializer : Initializer} {type : DataType}
    (isStated : initializer ∈ library.initializers)
    (found : context.types.initializer? initializer = some type) : library.Occurs context type := by
  cases initializer with
  | simple name value => exact .named found
  | enumerated name value => exact .named found
  | string length width value =>
      cases found
      exact .elementary _
  | functionBlock name =>
      cases found
      exact .functionBlock name
  | array spec =>
      cases spec with
      | named name => exact .named found
      | inline shape =>
          obtain ⟨⟨dimensions, element⟩, isShape, rfl⟩ := Option.map_eq_some_iff.mp found
          have isInline : shape ∈ library.inlineShapes :=
            List.mem_filterMap.mpr ⟨_, isStated, rfl⟩
          exact .inline ⟨shape, isInline, TypeTable.shape?_eq_some_iff.mp isShape⟩

theorem mem_initializers_of_field {decl : TypeDecl} {field : FieldDecl}
    (isDecl : decl ∈ library.typeDecls) (isField : field ∈ decl.fields) :
    field.initializer ∈ library.initializers :=
  List.mem_append_left _ (List.mem_map_of_mem (List.mem_flatMap.mpr ⟨decl, isDecl, isField⟩))

theorem mem_initializers_of_var {decl : VarDecl}
    (isVar : decl ∈ library.elements.flatMap Element.vars) :
    decl.initializer ∈ library.initializers :=
  List.mem_append_right _ (List.mem_map_of_mem isVar)

theorem occurs_of_typeOf {decl : VarDecl} {type : DataType}
    (isVar : decl ∈ library.elements.flatMap Element.vars)
    (typed : context.typeOf decl = .ok type) : library.Occurs context type := by
  rcases TypeTable.cases_of_varType typed with ⟨known, -⟩ | ⟨block, -, -, rfl⟩
  · exact occurs_of_initializer? (mem_initializers_of_var isVar) known
  · exact .functionBlock block

section Built

variable (built : TypeTable.build TypeTable.elementary library.typeDecls = .ok context.types)

include built

/-- An array of a library is declared under its name, or it is written out and has the name
that belongs to it. -/
theorem Occurs.array_cases {name : Ident} {dimensions : List Dimension} {element : DataType}
    (occurs : library.Occurs context (.array name dimensions element)) :
    (∃ shape, .array name shape ∈ library.typeDecls ∧
        shape.Means context.types dimensions element) ∨
      library.WritesOut context dimensions element ∧
        name = { name := DataType.inlineName dimensions element } := by
  cases occurs with
  | named found =>
      rcases TypeTable.cases_of_type? built found with ⟨base, same⟩ | ⟨decl, isDecl, -, meaning⟩
      · cases same
      · obtain ⟨shape, rfl, isShape⟩ := TypeTable.array_of_declaration? meaning
        exact .inl ⟨shape, isDecl, isShape⟩
  | inline written => exact .inr ⟨written, rfl⟩

theorem Occurs.element {name : Ident} {dimensions : List Dimension} {element : DataType}
    (occurs : library.Occurs context (.array name dimensions element)) :
    library.Occurs context element := by
  rcases occurs.array_cases built with ⟨shape, -, isShape⟩ | ⟨⟨shape, -, isShape⟩, -⟩
  · exact .named isShape.2
  · exact .named isShape.2

theorem Occurs.base {name : Ident} {base : DataType}
    (occurs : library.Occurs context (.synonym name base)) : library.Occurs context base := by
  cases occurs with
  | named found =>
      rcases TypeTable.cases_of_type? built found with ⟨base, same⟩ | ⟨decl, -, -, meaning⟩
      · cases same
      · rcases TypeTable.synonym_of_declaration? meaning with
          ⟨reference, -, isBase⟩ | ⟨length, width, rfl⟩
        · exact .named isBase
        · cases meaning
          exact .elementary _

theorem Occurs.field {name : Ident} {fields : List (Ident × DataType)} {field : Ident × DataType}
    (occurs : library.Occurs context (.record name fields)) (isField : field ∈ fields) :
    library.Occurs context field.2 := by
  cases occurs with
  | named found =>
      rcases TypeTable.cases_of_type? built found with ⟨base, same⟩ | ⟨decl, isDecl, -, meaning⟩
      · cases same
      · obtain ⟨decls, rfl, isFields⟩ := TypeTable.record_of_declaration? meaning
        obtain ⟨source, isSource, -, made⟩ := exists_of_mem_right isFields field isField
        exact occurs_of_initializer? (mem_initializers_of_field isDecl isSource) made

theorem Occurs.within {inner outer : DataType} (occurs : library.Occurs context outer)
    (isWithin : inner.Within outer) : library.Occurs context inner := by
  induction isWithin with
  | here => exact occurs
  | synonym _ ih => exact ih (occurs.base built)
  | array _ ih => exact ih (occurs.element built)
  | record isField _ ih => exact ih (occurs.field built isField)

theorem occurs_of_mentions {type : DataType} (mentioned : library.Mentions context type) :
    library.Occurs context type := by
  obtain ⟨outer, isWithin, ⟨decl, -, found⟩ | ⟨decl, isVar, typed⟩⟩ := mentioned
  · exact (Occurs.named found).within built isWithin
  · exact (occurs_of_typeOf isVar typed).within built isWithin

/-- An array that is written out is one of the arrays of the library. -/
theorem mentions_of_writesOut {types : List Code.TypeDecl}
    (run : library.lowerTypes context = .ok types) {dimensions : List Dimension}
    {element : DataType} (written : library.WritesOut context dimensions element) :
    library.Mentions context (.inlineArray dimensions element) := by
  obtain ⟨shape, isInline, means⟩ := written
  obtain ⟨initializer, isStated, isShape⟩ := List.mem_filterMap.mp isInline
  have typed : context.types.initializer? initializer = some (.inlineArray dimensions element) :=
    (TypeTable.initializer?_of_shape? isShape).mpr ⟨dimensions, element, means, rfl⟩
  rcases List.mem_append.mp isStated with ofField | ofVar
  · obtain ⟨source, isSource, rfl⟩ := List.mem_map.mp ofField
    obtain ⟨decl, isDecl, isSource⟩ := List.mem_flatMap.mp isSource
    obtain ⟨first, next, turn, -⟩ := DeclaredTypes.turn_of_lowerTypes built run isDecl
    cases turn with
    | record found isFields =>
        obtain ⟨field, isField, -, made⟩ := exists_of_mem_right (.flip isFields) source isSource
        rw [typed] at made
        rw [Option.some.inj made]
        exact (mentions_of_decl isDecl found).within (.record isField .here)
    | string | synonym | subrange | enumeration | array => cases isSource
  · obtain ⟨decl, isVar, rfl⟩ := List.mem_map.mp ofVar
    exact mentions_of_var isVar (VarDecl.type_of_shape? isShape typed)

end Built

end Library

/-! ## The declaration under the name of an array -/

/-- True for the declaration of an array under the name. -/
def Code.TypeDecl.declaresArray (name : String) : Code.TypeDecl → Bool
  | .array other _ _ => other == name
  | .string .. | .derived .. | .subrange .. | .enumeration .. | .record .. => false

theorem ArrayEntry.filter_of_distinct {entries : List ArrayEntry} {entry : ArrayEntry}
    (distinct : entries.Pairwise fun entry other => (entry.name == other.name) = false)
    (isEntry : entry ∈ entries) :
    entries.filter (fun other => other.name.upper == entry.name.upper) = [entry] := by
  have sameTest : ∀ one other : ArrayEntry,
      (one.name.upper == other.name.upper) = (one.name == other.name) := fun one other => by
    rw [Bool.eq_iff_iff, beq_iff_eq, Ident.beq_iff_upper]
  induction distinct with
  | nil => cases isEntry
  | @cons first rest differs _ ih =>
      rcases List.mem_cons.mp isEntry with rfl | isLater
      · have noOther : rest.filter (fun other => other.name.upper == entry.name.upper) = [] := by
          rw [List.filter_eq_nil_iff]
          intro other isOther
          rw [sameTest, BEq.comm, differs other isOther]
          exact Bool.false_ne_true
        rw [List.filter_cons, if_pos (beq_self_eq_true _), noOther]
      · have isOther : ¬ (first.name.upper == entry.name.upper) = true := by
          rw [sameTest, differs entry isLater]
          exact Bool.false_ne_true
        rw [List.filter_cons, if_neg isOther, ih isLater]

theorem ArrayEntry.filter_declaresArray {types : List Code.TypeDecl} {entries : List ArrayEntry}
    (arrays : types.filter Code.TypeDecl.isArray = entries.map ArrayEntry.decl) (name : String) :
    types.filter (Code.TypeDecl.declaresArray name) =
      (entries.filter fun entry => entry.name.upper == name).map ArrayEntry.decl := by
  have isArray : ∀ decl : Code.TypeDecl,
      (decl.declaresArray name && decl.isArray) = decl.declaresArray name := by
    intro decl
    cases decl <;> simp [Code.TypeDecl.declaresArray, Code.TypeDecl.isArray]
  have sameTest : (fun entry : ArrayEntry => entry.name.upper == name) =
      Code.TypeDecl.declaresArray name ∘ ArrayEntry.decl := rfl
  rw [sameTest, ← List.filter_map, ← arrays, List.filter_filter]
  exact List.filter_congr fun decl _ => (isArray decl).symm

/-- An array that is written out has one declaration, of an array of the library that has its
name. -/
theorem Library.declaration_of_writesOut {library : Library} {context : Context}
    {types : List Code.TypeDecl}
    (built : TypeTable.build TypeTable.elementary library.typeDecls = .ok context.types)
    (run : library.lowerTypes context = .ok types) {dimensions : List Dimension}
    {element : DataType} (written : library.WritesOut context dimensions element) :
    ∃ entry : ArrayEntry, library.Occurs context entry.type ∧
      entry.name.upper = DataType.inlineName dimensions element ∧
      types.filter (Code.TypeDecl.declaresArray (DataType.inlineName dimensions element)) =
        [entry.decl] := by
  obtain ⟨entries, arrays, distinct, known, covers⟩ := library.arrays_declared built run
  obtain ⟨entry, isEntry, same⟩ := covers _ _ _ (library.mentions_of_writesOut built run written)
  have named : entry.name.upper = DataType.inlineName dimensions element :=
    (Ident.beq_iff_upper.mp same).trans (DataType.cName_inlineArray dimensions element)
  refine ⟨entry, library.occurs_of_mentions built (known entry isEntry), named, ?_⟩
  rw [ArrayEntry.filter_declaresArray arrays, ← named,
    ArrayEntry.filter_of_distinct distinct isEntry]
  rfl

/-- Lengths can only run into the name of a type that the library declares: the name of an
elementary type has no underscore in it. -/
theorem Library.declares_of_runsInto {library : Library} {context : Context}
    (built : TypeTable.build TypeTable.elementary library.typeDecls = .ok context.types)
    {dimensions dimensions' : List Dimension} {element element' : DataType}
    (written : library.WritesOut context dimensions' element')
    (runs : DataType.RunsInto dimensions element dimensions' element') :
    ∃ decl ∈ library.typeDecls, decl.name.upper = element'.cName := by
  obtain ⟨shape, -, -, isElement⟩ := written
  rcases TypeTable.cases_of_type? built isElement with ⟨base, rfl⟩ | ⟨decl, isDecl, -, meaning⟩
  · obtain ⟨more, isLength, -, named⟩ := runs
    have plain : '_' ∉ base.cName.toList := by cases base <;> decide +kernel
    have underscore : '_' ∈ (DataType.lengthsText more).toList := by
      obtain ⟨length, more, rfl⟩ := List.exists_cons_of_ne_nil isLength
      simp [DataType.toList_lengthsText]
    rw [DataType.cName] at named
    rw [named, String.toList_append] at plain
    exact absurd (List.mem_append_right _ underscore) plain
  · exact ⟨decl, isDecl, (TypeTable.cName_of_declaration? meaning).symm⟩

/-! ## Compiled libraries -/

/-- In a compiled library two arrays that are written out have one name just if they have one
shape, or the lengths of one run into the name of the elements of the other, which is then that
of a declared type.  The name is declared once, for an array of the same shape, for an array
whose name comes about by lengths that run into it, or for an array that the source declares
under the name. -/
theorem Library.inline_arrays_named {library : Library} {withConversions : Bool}
    {layout : Code.Layout} {text : String}
    (compiled : library.compile withConversions layout = .ok text) :
    ∃ context notes file, Context.resolve library withConversions = .ok context ∧
      library.check context = .ok notes ∧ library.lower context = .ok file ∧
      text = file.render layout ∧
      (∀ dimensions element dimensions' element',
        library.WritesOut context dimensions element →
        library.WritesOut context dimensions' element' →
          (DataType.inlineName dimensions element = DataType.inlineName dimensions' element' ↔
            DataType.SameShape dimensions element dimensions' element' ∨
              DataType.RunsInto dimensions element dimensions' element' ∨
              DataType.RunsInto dimensions' element' dimensions element) ∧
          (DataType.RunsInto dimensions element dimensions' element' →
            ∃ decl ∈ library.typeDecls, decl.name.upper = element'.cName)) ∧
      ∀ dimensions element, library.WritesOut context dimensions element →
        ∃ dimensions' element',
          file.types.filter
              (Code.TypeDecl.declaresArray (DataType.inlineName dimensions element)) =
            [.array (DataType.inlineName dimensions element) element'.cName
              (dimensions'.map Dimension.length)] ∧
          (DataType.SameShape dimensions element dimensions' element' ∨
            (library.WritesOut context dimensions' element' ∧
              (DataType.RunsInto dimensions element dimensions' element' ∨
                DataType.RunsInto dimensions' element' dimensions element)) ∨
            ∃ name shape, .array name shape ∈ library.typeDecls ∧
              name.upper = DataType.inlineName dimensions element ∧
              shape.Means context.types dimensions' element') := by
  obtain ⟨context, notes, file, resolved, checked, lowered, rendered⟩ :=
    Library.compile_ok compiled
  obtain ⟨built, -, -⟩ := Context.resolve_ok resolved
  refine ⟨context, notes, file, resolved, checked, lowered, rendered, ?_, ?_⟩
  · intro dimensions element dimensions' element' _ written
    exact ⟨DataType.inlineName_eq_iff, Library.declares_of_runsInto built written⟩
  · intro dimensions element written
    obtain ⟨typesRun, -⟩ := Library.lower_ok lowered
    obtain ⟨entry, occurs, named, declared⟩ :=
      Library.declaration_of_writesOut built typesRun written
    refine ⟨entry.dimensions, entry.element, ?_, ?_⟩
    · rw [declared, ArrayEntry.decl, named]
    · rcases occurs.array_cases built with ⟨shape, isDecl, isShape⟩ | ⟨isWritten, isName⟩
      · exact .inr (.inr ⟨entry.name, shape, isDecl, named, isShape⟩)
      · have ownName : entry.name.upper = DataType.inlineName entry.dimensions entry.element :=
          (congrArg Ident.upper isName).trans (DataType.cName_inlineArray ..)
        rcases DataType.inlineName_eq_iff.mp (named.symm.trans ownName) with same | runs
        · exact .inl same
        · exact .inr (.inl ⟨isWritten, runs⟩)

def ArrayShape.inlineName? (shape : ArrayShape) (context : Context) :
    Option (String × List Dimension) :=
  (context.types.shape? shape).map fun (dimensions, element) =>
    (DataType.inlineName dimensions element, dimensions)

theorem ArrayShape.means_of_inlineName? {shape : ArrayShape} {context : Context} {name : String}
    {dimensions : List Dimension} (found : shape.inlineName? context = some (name, dimensions)) :
    ∃ element, shape.Means context.types dimensions element ∧
      DataType.inlineName dimensions element = name := by
  obtain ⟨⟨known, element⟩, isShape, same⟩ := Option.map_eq_some_iff.mp found
  cases same
  exact ⟨element, TypeTable.shape?_eq_some_iff.mp isShape, rfl⟩

def Code.TypeDecl.array? : Code.TypeDecl → Option (String × String × List Int)
  | .array name element lengths => some (name, element, lengths)
  | .string .. | .derived .. | .subrange .. | .enumeration .. | .record .. => none

structure InlineNames where
  first : String × List Dimension
  second : String × List Dimension
  declared : List (String × String × List Int)
deriving DecidableEq

def Library.inlineNames? (library : Library) (shape other : ArrayShape) : Option InlineNames := do
  let context ← library.accepted?
  let file ← (library.lower context).toOption
  let first ← shape.inlineName? context
  let second ← other.inlineName? context
  return { first, second, declared := file.types.filterMap Code.TypeDecl.array? }

/-- The names belong to arrays that the library writes out, and the library compiles. -/
theorem Library.of_inlineNames? {library : Library} {shape other : ArrayShape} {names : InlineNames}
    (isInline : shape ∈ library.inlineShapes) (isOther : other ∈ library.inlineShapes)
    (found : library.inlineNames? shape other = some names) :
    ∃ context file element element', Context.resolve library = .ok context ∧
      library.lower context = .ok file ∧ library.compile false {} = .ok (file.render {}) ∧
      library.WritesOut context names.first.2 element ∧
      library.WritesOut context names.second.2 element' ∧
      DataType.inlineName names.first.2 element = names.first.1 ∧
      DataType.inlineName names.second.2 element' = names.second.1 ∧
      file.types.filterMap Code.TypeDecl.array? = names.declared := by
  obtain ⟨context, isAccepted, found⟩ := Option.bind_eq_some_iff.mp found
  obtain ⟨resolved, notes, checked⟩ := Library.of_accepted? isAccepted
  obtain ⟨file, isFile, found⟩ := Option.bind_eq_some_iff.mp found
  have lowered := eq_ok_of_toOption isFile
  obtain ⟨_, isName, found⟩ := Option.bind_eq_some_iff.mp found
  obtain ⟨_, isName', found⟩ := Option.bind_eq_some_iff.mp found
  cases found
  obtain ⟨element, means, named⟩ := ArrayShape.means_of_inlineName? isName
  obtain ⟨element', means', named'⟩ := ArrayShape.means_of_inlineName? isName'
  have compiled : library.compile false {} = .ok (file.render {}) := by
    rw [Library.compile, resolved, ok_bind, Library.generate, checked, ok_bind, lowered]
    rfl
  exact ⟨context, file, element, element', resolved, lowered, compiled, ⟨shape, isInline, means⟩,
    ⟨other, isOther, means'⟩, named, named', rfl⟩

def rackShape : ArrayShape where
  ranges := [{ start := .ofInt 0, stop := .ofInt 9 }]
  element := "Level"

/-- An array in a variable, with the lengths of the other one and other bounds. -/
def rowShape : ArrayShape where
  ranges := [{ start := .ofInt 1, stop := .ofInt 10 }]
  element := "Level"

def shelving : Library where
  elements :=
    [.type (.synonym "Level" "INT"),
      .type (.record "Rack" [{ name := "levels", initializer := .array (.inline rackShape) }]),
      .program
        { name := "Main"
          vars := [{ name := .symbol "row", initializer := .array (.inline rowShape) }]
          body := [] }]

theorem shelving_names : shelving.inlineNames? rackShape rowShape =
    some
      { first := ("__ARRAY_OF_LEVEL_10", [⟨0, 9⟩]), second := ("__ARRAY_OF_LEVEL_10", [⟨1, 10⟩])
        declared := [("__ARRAY_OF_LEVEL_10", "LEVEL", [10])] } := by
  decide +kernel

theorem Library.inline_arrays_named_shelving :
    ∃ text context element element', shelving.compile false {} = .ok text ∧
      Context.resolve shelving = .ok context ∧
      shelving.WritesOut context [⟨0, 9⟩] element ∧ shelving.WritesOut context [⟨1, 10⟩] element' ∧
      (DataType.SameShape [⟨0, 9⟩] element [⟨1, 10⟩] element' ∨
        DataType.RunsInto [⟨0, 9⟩] element [⟨1, 10⟩] element' ∨
        DataType.RunsInto [⟨1, 10⟩] element' [⟨0, 9⟩] element) := by
  obtain ⟨context, file, element, element', resolved, -, compiled, written, written', named,
    named', -⟩ := Library.of_inlineNames? (List.mem_cons_self ..)
      (List.mem_cons_of_mem _ (List.mem_cons_self ..)) shelving_names
  obtain ⟨other, notes, otherFile, resolved', -, -, -, names, -⟩ :=
    Library.inline_arrays_named compiled
  cases resolved.symm.trans resolved'
  refine ⟨_, context, element, element', compiled, resolved, written, written', ?_⟩
  exact (names _ _ _ _ written written').1.mp (named.trans named'.symm)

def cellShape : ArrayShape where
  ranges := [{ start := .ofInt 1, stop := .ofInt 4 }]
  element := "INT_3"

def gridShape : ArrayShape where
  ranges := [{ start := .ofInt 1, stop := .ofInt 3 }, { start := .ofInt 1, stop := .ofInt 4 }]
  element := "INT"

def packing : Library where
  elements :=
    [.type (.synonym "INT_3" "INT"),
      .type (.record "Pack" [{ name := "cells", initializer := .array (.inline cellShape) }]),
      .program
        { name := "Main"
          vars := [{ name := .symbol "grid", initializer := .array (.inline gridShape) }]
          body := [] }]

theorem packing_names : packing.inlineNames? cellShape gridShape =
    some
      { first := ("__ARRAY_OF_INT_3_4", [⟨1, 4⟩])
        second := ("__ARRAY_OF_INT_3_4", [⟨1, 3⟩, ⟨1, 4⟩])
        declared := [("__ARRAY_OF_INT_3_4", "INT_3", [4])] } := by
  decide +kernel

/-- Two arrays that are written out in a compiled library may have one name and different
lengths; the one declaration of the name is then wrong for one of them. -/
theorem Library.inline_names_collide :
    ∃ text context file element element', packing.compile false {} = .ok text ∧
      Context.resolve packing = .ok context ∧ packing.lower context = .ok file ∧
      packing.WritesOut context [⟨1, 4⟩] element ∧
      packing.WritesOut context [⟨1, 3⟩, ⟨1, 4⟩] element' ∧
      DataType.inlineName [⟨1, 4⟩] element = DataType.inlineName [⟨1, 3⟩, ⟨1, 4⟩] element' ∧
      ¬ DataType.SameShape [⟨1, 4⟩] element [⟨1, 3⟩, ⟨1, 4⟩] element' ∧
      file.types.filterMap Code.TypeDecl.array? = [("__ARRAY_OF_INT_3_4", "INT_3", [4])] := by
  obtain ⟨context, file, element, element', resolved, lowered, compiled, written, written', named,
    named', arrays⟩ := Library.of_inlineNames? (List.mem_cons_self ..)
      (List.mem_cons_of_mem _ (List.mem_cons_self ..)) packing_names
  refine ⟨_, context, file, element, element', compiled, resolved, lowered, written, written',
    named.trans named'.symm, ?_, arrays⟩
  rintro ⟨-, lengths⟩
  cases lengths

end StructuredText
