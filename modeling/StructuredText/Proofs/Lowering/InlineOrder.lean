import StructuredText.Proofs.Code.Visible
import StructuredText.Proofs.Lowering.InlineShape

/-!
# When arrays that are written out are declared

Declared types come in source order, and the arrays that are written out in the fields of a
record come ahead of the record; those that only variables need come after all declared types,
and still ahead of the units.
-/

set_option autoImplicit false

namespace StructuredText

/-- The name is that of an array that a field or a variable writes out. -/
def Library.UsesInline (library : Library) (context : Context) (name : String) : Prop :=
  ∃ dimensions element, library.WritesOut context dimensions element ∧
    name = DataType.inlineName dimensions element

/-- A field of a generated record is that of a declared one.  If the declared one writes out an
array, the array is among the declarations `before` the record. -/
structure FieldDecl.Becomes (context : Context) (before : List Code.TypeDecl) (decl : FieldDecl)
    (field : String × String) : Prop where
  name : field.1 = decl.name.upper
  type : ∃ type, context.types.initializer? decl.initializer = some type ∧ field.2 = type.cName
  ahead : ∀ shape, decl.initializer.shape? = some shape → ∃ dimensions element,
    shape.Means context.types dimensions element ∧
      field.2 = DataType.inlineName dimensions element ∧
      before.any (Code.TypeDecl.declaresArray field.2) = true

namespace DeclaredTypes

/-! ## Records after the arrays of their fields -/

/-- Every record among the declarations comes from one of the library and after the arrays of
its fields. -/
def RecordsInTime (library : Library) (context : Context) (decls : List Code.TypeDecl) : Prop :=
  ∀ before name fields, before ++ [.record name fields] <+: decls →
    ∃ ident sources, .record ident sources ∈ library.typeDecls ∧ name = ident.upper ∧
      List.Forall₂ (FieldDecl.Becomes context before) sources fields

section InTime

variable {library : Library} {context : Context} {decls : List Code.TypeDecl}

theorem recordsInTime_nil : RecordsInTime library context [] := by
  intro before name fields isPrefix
  exact absurd (List.prefix_nil.mp isPrefix) (List.concat_ne_nil _ _)

theorem RecordsInTime.concat (inTime : RecordsInTime library context decls)
    {decl : Code.TypeDecl} (notRecord : ∀ name fields, decl ≠ .record name fields) :
    RecordsInTime library context (decls ++ [decl]) := by
  intro before name fields isPrefix
  rcases List.prefix_concat_iff.mp isPrefix with whole | isEarlier
  · exact absurd (List.append_singleton_inj.mp whole).2.symm (notRecord name fields)
  · exact inTime before name fields isEarlier

theorem RecordsInTime.append {more : List Code.TypeDecl} :
    ∀ {decls : List Code.TypeDecl}, RecordsInTime library context decls →
      (∀ decl ∈ more, decl.isArray = true) → RecordsInTime library context (decls ++ more) := by
  induction more with
  | nil =>
      intro decls inTime _
      rwa [List.append_nil]
  | cons decl more ih =>
      intro decls inTime arrays
      obtain ⟨isArray, rest⟩ := List.forall_mem_cons.mp arrays
      have notRecord : ∀ name fields, decl ≠ .record name fields := by
        rintro name fields rfl
        cases isArray
      have next := ih (inTime.concat notRecord) rest
      rwa [List.append_assoc, List.singleton_append] at next

theorem RecordsInTime.record (inTime : RecordsInTime library context decls) {ident : Ident}
    {sources : List FieldDecl} (isDecl : .record ident sources ∈ library.typeDecls)
    {fields : List (String × String)}
    (become : List.Forall₂ (FieldDecl.Becomes context decls) sources fields) :
    RecordsInTime library context (decls ++ [.record ident.upper fields]) := by
  intro before name others isPrefix
  rcases List.prefix_concat_iff.mp isPrefix with whole | isEarlier
  · obtain ⟨rfl, same⟩ := List.append_singleton_inj.mp whole
    cases same
    exact ⟨ident, sources, isDecl, rfl, become⟩
  · exact inTime before name others isEarlier

/-- The fields of a record, given that the arrays they are have been declared. -/
theorem becomes_of_hasInline {declared : DeclaredTypes} {entries : List ArrayEntry}
    (ledger : Ledger (library.Mentions context) declared entries) {decl : FieldDecl}
    {field : Ident × DataType} (means : decl.Means context.types field)
    (hasInline : declared.HasInline field.2) :
    decl.Becomes context declared.decls (field.1.upper, field.2.cName) where
  name := congrArg Ident.upper means.1
  type := ⟨field.2, means.2, rfl⟩
  ahead shape isShape := by
    obtain ⟨dimensions, element, isMeant, same⟩ :=
      (TypeTable.initializer?_of_shape? isShape).mp means.2
    have named := DataType.cName_inlineArray dimensions element
    obtain ⟨entry, isEntry, sameName⟩ := ledger.contains_iff.mp
      (hasInline _ _ _ same (DataType.startsWith_inlineName dimensions element))
    have isDecl : entry.decl ∈ declared.decls := by
      have isArray := List.mem_map_of_mem (f := ArrayEntry.decl) isEntry
      rw [← ledger.decls] at isArray
      exact (List.mem_filter.mp isArray).1
    refine ⟨dimensions, element, isMeant, by rw [same, named], ?_⟩
    refine List.any_eq_true.mpr ⟨entry.decl, isDecl, ?_⟩
    rw [same]
    exact beq_iff_eq.mpr (Ident.beq_iff_upper.mp sameName)

theorem AddsArrays.recordsInTime {declared later : DeclaredTypes}
    (adds : declared.AddsArrays later) (inTime : RecordsInTime library context declared.decls) :
    RecordsInTime library context later.decls := by
  obtain ⟨more, same, arrays⟩ := adds
  rw [same]
  exact inTime.append arrays

theorem RecordsInTime.turn {declared later : DeclaredTypes} {decl : TypeDecl}
    (inTime : RecordsInTime library context declared.decls)
    (grows : Grows (library.Mentions context) {} declared) (isDecl : decl ∈ library.typeDecls)
    (turn : Turn context.types declared decl later) :
    RecordsInTime library context later.decls := by
  cases turn with
  | string | synonym | subrange | enumeration => exact inTime.concat fun _ _ => nofun
  | array => exact ((addsArrays_addInline ..).trans (addsArrays_addArray ..)).recordsInTime inTime
  | record found isFields =>
      have mentioned := Library.mentions_of_decl isDecl found
      obtain ⟨fieldsGrow, hasInline⟩ := grows_foldl_addInline declared fun type member => by
        obtain ⟨field, isField, rfl⟩ := List.mem_map.mp member
        exact mentioned.within (.record isField .here)
      obtain ⟨entries, ledger⟩ := (grows.trans fieldsGrow).ledger ledger_nil
      refine ((addsArrays_foldl declared).recordsInTime inTime).record isDecl ?_
      rw [List.forall₂_map_right_iff]
      refine forall₂_of_mem isFields fun source _ field isField means => ?_
      exact becomes_of_hasInline ledger means (hasInline field.2 (List.mem_map_of_mem isField))

theorem RecordsInTime.addDecls
    (built : TypeTable.build TypeTable.elementary library.typeDecls = .ok context.types)
    {decls : List TypeDecl} :
    ∀ {declared later : DeclaredTypes}, decls ⊆ library.typeDecls →
      RecordsInTime library context declared.decls →
      Grows (library.Mentions context) {} declared →
      DeclaredTypes.addDecls context declared decls = .ok later →
        RecordsInTime library context later.decls := by
  induction decls with
  | nil =>
      intro declared later _ inTime _ run
      cases run
      exact inTime
  | cons decl decls ih =>
      intro declared later within inTime grows run
      obtain ⟨isDecl, rest⟩ := List.cons_subset.mp within
      obtain ⟨next, step, run⟩ := bind_eq_ok run
      have turn := turn_of_addDecl built isDecl step
      exact ih rest (inTime.turn grows isDecl turn)
        (grows.trans (turn.grows built isDecl).1) run

end InTime

end DeclaredTypes

namespace Library

variable {library : Library} {context : Context} {types : List Code.TypeDecl}
  (built : TypeTable.build TypeTable.elementary library.typeDecls = .ok context.types)
  (run : library.lowerTypes context = .ok types)

include built run

theorem recordsInTime_lowerTypes : DeclaredTypes.RecordsInTime library context types := by
  obtain ⟨declared, declsRun, run⟩ := bind_eq_ok run
  cases run
  rw [DeclaredTypes.addVariables_eq_foldl]
  refine (DeclaredTypes.addsArrays_foldl declared).recordsInTime ?_
  exact DeclaredTypes.recordsInTime_nil.addDecls built (List.Subset.refl _) .refl declsRun

theorem filter_of_usesInline {name : String} (uses : library.UsesInline context name) :
    ∃ element lengths,
      types.filter (Code.TypeDecl.declaresArray name) = [.array name element lengths] := by
  obtain ⟨dimensions, element, written, rfl⟩ := uses
  obtain ⟨entry, -, named, declared⟩ := library.declaration_of_writesOut built run written
  rw [declared, ArrayEntry.decl, named]
  exact ⟨_, _, rfl⟩

/-- Where no declared type has such a name, an array is declared under the name of one that is
written out only if one is written out. -/
theorem usesInline_of_declaresArray
    (unreserved : ∀ decl ∈ library.typeDecls, decl.name.isReserved = false) {name : String}
    (isInline : name.startsWith DataType.inlineMark = true)
    (declares : types.any (Code.TypeDecl.declaresArray name) = true) :
    library.UsesInline context name := by
  obtain ⟨entries, arrays, -, known, -⟩ := library.arrays_declared built run
  have declared : types.filter (Code.TypeDecl.declaresArray name) ≠ [] := by
    obtain ⟨decl, isDecl, isThis⟩ := List.any_eq_true.mp declares
    exact List.ne_nil_of_mem (List.mem_filter.mpr ⟨isDecl, isThis⟩)
  rw [ArrayEntry.filter_declaresArray arrays, ne_eq, List.map_eq_nil_iff] at declared
  obtain ⟨entry, isEntry⟩ := List.exists_mem_of_ne_nil _ declared
  obtain ⟨isEntry, named⟩ := List.mem_filter.mp isEntry
  have named := beq_iff_eq.mp named
  rcases (library.occurs_of_mentions built (known entry isEntry)).array_cases built with
    ⟨shape, isDecl, -⟩ | ⟨written, isName⟩
  · have isFree : entry.name.upper.startsWith DataType.inlineMark = false := unreserved _ isDecl
    rw [named, isInline] at isFree
    cases isFree
  · refine ⟨entry.dimensions, entry.element, written, ?_⟩
    rw [← named, ← DataType.cName_inlineArray]
    exact congrArg Ident.upper isName

end Library

/-- The text of a compiled library has the declarations of all types, one after another, ahead of
all units, and only arrays have declarations that begin as those of arrays do.  If none of the
declared types has a name of the kind that arrays get when they are written out, an array is
declared once under such a name if a field or a variable writes out an array of the name, and
not at all if none does.  Every record comes from one of the library, after the arrays of its
fields. -/
theorem Library.inline_arrays_declared_once {library : Library} {withConversions : Bool}
    {layout : Code.Layout} {text : String}
    (compiled : library.compile withConversions layout = .ok text)
    (unreserved : ∀ decl ∈ library.typeDecls, decl.name.isReserved = false) :
    ∃ context notes file, Context.resolve library withConversions = .ok context ∧
      library.check context = .ok notes ∧ library.lower context = .ok file ∧
      text = "// Generated from IEC 61131-3 structured text\n#include \"iec_std_lib.h\"\n\n" ++
        String.join (file.types.map (Code.TypeDecl.render layout.width)) ++ "\n" ++
        Code.Piece.renderAll layout.width (file.elements.flatMap (Code.Element.print layout)) ∧
      (∀ decl ∈ file.types,
        (decl.render layout.width).startsWith "__DECLARE_ARRAY_TYPE(" = true →
          ∃ name element lengths, decl = .array name element lengths) ∧
      (∀ name, library.UsesInline context name →
        ∃ (decl : Code.TypeDecl) (element : String) (lengths : List Int),
          file.types.filter (Code.TypeDecl.declaresArray name) = [decl] ∧
          decl.render layout.width = "__DECLARE_ARRAY_TYPE(" ++ name ++ "," ++ element ++ "," ++
            String.join (lengths.map fun length => "[" ++ toString length ++ "]") ++ ")\n") ∧
      (∀ name, name.startsWith DataType.inlineMark = true → ¬ library.UsesInline context name →
        file.types.filter (Code.TypeDecl.declaresArray name) = []) ∧
      ∀ before name fields, before ++ [.record name fields] <+: file.types →
        (Code.TypeDecl.record name fields).render layout.width =
            "__DECLARE_STRUCT_TYPE(" ++ name ++ ",\n" ++
              String.join (fields.map fun field =>
                String.ofList (List.replicate layout.width ' ') ++ field.2 ++ " " ++ field.1 ++
                  ";\n") ++ ")\n" ∧
          ∃ ident decls, .record ident decls ∈ library.typeDecls ∧ name = ident.upper ∧
            List.Forall₂ (FieldDecl.Becomes context before) decls fields := by
  obtain ⟨context, notes, file, resolved, checked, lowered, rendered⟩ :=
    Library.compile_ok compiled
  obtain ⟨built, -, -⟩ := Context.resolve_ok resolved
  obtain ⟨typesRun, -⟩ := Library.lower_ok lowered
  refine ⟨context, notes, file, resolved, checked, lowered,
    rendered.trans (Code.File.render_eq layout file),
    fun _ _ => Code.TypeDecl.eq_array_of_startsWith, ?_, ?_, ?_⟩
  · intro name uses
    obtain ⟨element, lengths, declared⟩ := library.filter_of_usesInline built typesRun uses
    exact ⟨_, element, lengths, declared, Code.TypeDecl.render_array ..⟩
  · intro name isInline unused
    rw [List.filter_eq_nil_iff]
    intro decl isDecl declares
    exact unused (library.usesInline_of_declaresArray built typesRun unreserved isInline
      (List.any_eq_true.mpr ⟨decl, isDecl, declares⟩))
  · intro before name fields isPrefix
    exact ⟨Code.TypeDecl.render_record .., library.recordsInTime_lowerTypes built typesRun before
      name fields isPrefix⟩

def slotsShape : ArrayShape where
  ranges := [{ start := .ofInt 0, stop := .ofInt 9 }]
  element := "INT"

def binsShape : ArrayShape where
  ranges := [{ start := .ofInt 1, stop := .ofInt 3 }]
  element := "Bin"

def stocking : Library where
  elements :=
    [.type (.record "Bin" [{ name := "slots", initializer := .array (.inline slotsShape) }]),
      .type (.record "Shelf"
        [{ name := "bins", initializer := .array (.inline binsShape) },
          { name := "counts", initializer := .array (.inline slotsShape) }]),
      .functionBlock
        { name := "Sorter"
          vars := [{ name := .symbol "slots", initializer := .array (.inline slotsShape) }]
          body := [] },
      .program
        { name := "Main"
          vars := [{ name := .symbol "bins", initializer := .array (.inline binsShape) }]
          body := [] }]

theorem stocking_names : stocking.inlineNames? slotsShape binsShape =
    some
      { first := ("__ARRAY_OF_INT_10", [⟨0, 9⟩]), second := ("__ARRAY_OF_BIN_3", [⟨1, 3⟩])
        declared := [("__ARRAY_OF_INT_10", "INT", [10]), ("__ARRAY_OF_BIN_3", "BIN", [3])] } := by
  decide +kernel

theorem Library.inline_arrays_declared_once_stocking :
    (∀ decl ∈ stocking.typeDecls, decl.name.isReserved = false) ∧
      ∃ text context file, stocking.compile false {} = .ok text ∧
        Context.resolve stocking = .ok context ∧ stocking.lower context = .ok file ∧
        (∃ (decl : Code.TypeDecl) (element : String) (lengths : List Int),
          file.types.filter (Code.TypeDecl.declaresArray "__ARRAY_OF_INT_10") = [decl] ∧
          decl.render 2 = "__DECLARE_ARRAY_TYPE(" ++ "__ARRAY_OF_INT_10" ++ "," ++ element ++
            "," ++ String.join (lengths.map fun length => "[" ++ toString length ++ "]") ++
            ")\n") ∧
        ∀ before name fields, before ++ [.record name fields] <+: file.types →
          ∃ ident decls, .record ident decls ∈ stocking.typeDecls ∧ name = ident.upper ∧
            List.Forall₂ (FieldDecl.Becomes context before) decls fields := by
  have unreserved : ∀ decl ∈ stocking.typeDecls, decl.name.isReserved = false := by
    decide +kernel
  obtain ⟨context, file, element, element', resolved, -, compiled, written, -, named, -⟩ :=
    Library.of_inlineNames? (List.mem_cons_self ..)
      (List.mem_cons_of_mem _ (List.mem_cons_self ..)) stocking_names
  obtain ⟨other, notes, otherFile, resolved', -, lowered, -, -, once, -, inTime⟩ :=
    Library.inline_arrays_declared_once compiled unreserved
  cases resolved.symm.trans resolved'
  exact ⟨unreserved, _, context, otherFile, compiled, resolved, lowered,
    once _ ⟨_, element, written, named.symm⟩,
    fun before name fields isPrefix => (inTime before name fields isPrefix).2⟩

end StructuredText
