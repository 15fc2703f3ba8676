import StructuredText.Proofs.Lowering.TypeOrder

/-!
# The arrays that generated code declares

Generated code declares an array type once for each name, with the lengths of the first
array of the library that has the name.  Every array type of the library has its name
declared, be it declared itself or written out in a variable or in a field.
-/

set_option autoImplicit false

namespace StructuredText

/-! ## Types of a library -/

/-- A type is inside another if it is the other, what the other is a further name for, or
inside the elements or a field of it. -/
inductive DataType.Within (inner : DataType) : DataType → Prop where
  | here : Within inner inner
  | synonym {name : Ident} {base : DataType} (isWithin : Within inner base) :
      Within inner (.synonym name base)
  | array {name : Ident} {dimensions : List Dimension} {element : DataType}
      (isWithin : Within inner element) : Within inner (.array name dimensions element)
  | record {name : Ident} {fields : List (Ident × DataType)} {field : Ident × DataType}
      (isField : field ∈ fields) (isWithin : Within inner field.2) :
      Within inner (.record name fields)

theorem DataType.Within.trans {inner middle outer : DataType} (first : inner.Within middle)
    (second : middle.Within outer) : inner.Within outer := by
  induction second with
  | here => exact first
  | synonym _ ih => exact .synonym ih
  | array _ ih => exact .array ih
  | record isField _ ih => exact .record isField ih

theorem DataType.resolved_within (type : DataType) : type.resolved.Within type := by
  induction type using resolved.induct with
  | case1 name base ih => exact .synonym ih
  | case2 type notSynonym =>
      rw [resolved.eq_2 type notSynonym]
      exact .here

/-- A type is one of the library if it is inside the type of a declaration or of a
variable. -/
def Library.Mentions (library : Library) (context : Context) (type : DataType) : Prop :=
  ∃ outer, type.Within outer ∧
    ((∃ decl ∈ library.typeDecls, context.types.type? decl.name = some outer) ∨
      ∃ decl ∈ library.elements.flatMap Element.vars, context.typeOf decl = .ok outer)

theorem TypeTable.type?_congr (types : TypeTable) {name other : Ident}
    (same : (name == other) = true) : types.type? name = types.type? other := by
  unfold TypeTable.type? Elementary.ofIdent?
  rw [Ident.beq_iff.mp same, types.get?_congr same]

section Mentions

variable {library : Library} {context : Context}

theorem Library.Mentions.within {inner outer : DataType}
    (mentioned : library.Mentions context outer) (isWithin : inner.Within outer) :
    library.Mentions context inner := by
  obtain ⟨whole, outerWithin, origin⟩ := mentioned
  exact ⟨whole, isWithin.trans outerWithin, origin⟩

theorem Library.mentions_of_decl {decl : TypeDecl} {type : DataType}
    (isDecl : decl ∈ library.typeDecls) (found : context.types.type? decl.name = some type) :
    library.Mentions context type :=
  ⟨type, .here, .inl ⟨decl, isDecl, found⟩⟩

theorem Library.mentions_of_var {decl : VarDecl} {type : DataType}
    (isVar : decl ∈ library.elements.flatMap Element.vars)
    (typed : context.typeOf decl = .ok type) : library.Mentions context type :=
  ⟨type, .here, .inr ⟨decl, isVar, typed⟩⟩

end Mentions

/-! ## Declaring arrays -/

structure ArrayEntry where
  name : Ident
  dimensions : List Dimension
  element : DataType

namespace ArrayEntry

def type (entry : ArrayEntry) : DataType := .array entry.name entry.dimensions entry.element

def decl (entry : ArrayEntry) : Code.TypeDecl :=
  .array entry.name.upper entry.element.cName (entry.dimensions.map Dimension.length)

theorem eq_of_distinct {entries : List ArrayEntry}
    (distinct : entries.Pairwise fun entry other => (entry.name == other.name) = false)
    {entry other : ArrayEntry} (isEntry : entry ∈ entries) (isOther : other ∈ entries)
    (same : (entry.name == other.name) = true) : entry = other := by
  induction distinct with
  | nil => cases isEntry
  | cons differs _ ih =>
      rcases List.mem_cons.mp isEntry with rfl | laterEntry <;>
        rcases List.mem_cons.mp isOther with rfl | laterOther
      · rfl
      · rw [differs other laterOther] at same
        cases same
      · rw [BEq.comm, differs entry laterEntry] at same
        cases same
      · exact ih laterEntry laterOther

end ArrayEntry

namespace DeclaredTypes

/-- What declaring types of a library does step by step: it declares an array that is one of
the library, or adds a declaration that is of no array. -/
inductive Grows (known : DataType → Prop) (first : DeclaredTypes) : DeclaredTypes → Prop where
  | refl : Grows known first first
  | other {later : DeclaredTypes} {decl : Code.TypeDecl} (grows : Grows known first later)
      (notArray : decl.isArray = false) : Grows known first (later.add decl)
  | array {later : DeclaredTypes} {name : Ident} {dimensions : List Dimension}
      {element : DataType} (grows : Grows known first later)
      (isKnown : known (.array name dimensions element)) :
      Grows known first (later.addArray name dimensions element)

section Grows

variable {known : DataType → Prop} {first second third : DeclaredTypes}

theorem Grows.trans (start : Grows known first second) (rest : Grows known second third) :
    Grows known first third := by
  induction rest with
  | refl => exact start
  | other _ notArray ih => exact ih.other notArray
  | array _ isKnown ih => exact ih.array isKnown

/-- The arrays that are declared, in order: one for each name. -/
structure Ledger (known : DataType → Prop) (declared : DeclaredTypes)
    (entries : List ArrayEntry) : Prop where
  arrays : declared.arrays = entries.map ArrayEntry.name
  decls : declared.decls.filter Code.TypeDecl.isArray = entries.map ArrayEntry.decl
  distinct : entries.Pairwise fun entry other => (entry.name == other.name) = false
  known : ∀ entry ∈ entries, known entry.type

theorem ledger_nil : Ledger known {} [] :=
  ⟨rfl, rfl, .nil, fun _ member => absurd member List.not_mem_nil⟩

theorem Ledger.contains_iff {declared : DeclaredTypes} {entries : List ArrayEntry}
    (ledger : Ledger known declared entries) {name : Ident} :
    declared.arrays.contains name = true ↔ ∃ entry ∈ entries, (entry.name == name) = true := by
  rw [ledger.arrays, List.contains_iff_exists_mem_beq]
  constructor
  · rintro ⟨_, member, same⟩
    obtain ⟨entry, isEntry, rfl⟩ := List.mem_map.mp member
    exact ⟨entry, isEntry, BEq.symm same⟩
  · rintro ⟨entry, isEntry, same⟩
    exact ⟨entry.name, List.mem_map_of_mem isEntry, BEq.symm same⟩

theorem Ledger.addArray {declared : DeclaredTypes} {entries : List ArrayEntry}
    (ledger : Ledger known declared entries) {name : Ident} {dimensions : List Dimension}
    {element : DataType} (isKnown : known (.array name dimensions element)) :
    ∃ more, Ledger known (declared.addArray name dimensions element) (entries ++ more) := by
  unfold DeclaredTypes.addArray
  split
  · exact ⟨[], by rw [List.append_nil]; exact ledger⟩
  · next isNew =>
      rw [ledger.contains_iff] at isNew
      refine ⟨[⟨name, dimensions, element⟩], ?_, ?_, ?_, ?_⟩
      · rw [ledger.arrays, List.map_append]
        rfl
      · rw [List.filter_append, ledger.decls, List.map_append]
        rfl
      · rw [List.pairwise_append]
        refine ⟨ledger.distinct, List.pairwise_singleton .., fun entry isEntry other isOther => ?_⟩
        rw [List.mem_singleton.mp isOther]
        exact Bool.eq_false_iff.mpr fun same => isNew ⟨entry, isEntry, same⟩
      · intro entry member
        rcases List.mem_append.mp member with old | isThis
        · exact ledger.known entry old
        · rw [List.mem_singleton.mp isThis]
          exact isKnown

theorem Grows.ledger (grows : Grows known first second) {entries : List ArrayEntry}
    (ledger : Ledger known first entries) : ∃ more, Ledger known second (entries ++ more) := by
  induction grows with
  | refl => exact ⟨[], by rw [List.append_nil]; exact ledger⟩
  | @other later decl _ notArray ih =>
      obtain ⟨more, made⟩ := ih
      refine ⟨more, made.arrays, ?_, made.distinct, made.known⟩
      rw [DeclaredTypes.add, List.filter_append, made.decls,
        List.filter_cons_of_neg (by rw [notArray]; exact Bool.false_ne_true), List.filter_nil,
        List.append_nil]
  | array _ isKnown ih =>
      obtain ⟨more, made⟩ := ih
      obtain ⟨evenMore, made⟩ := made.addArray isKnown
      exact ⟨more ++ evenMore, by rw [← List.append_assoc]; exact made⟩

theorem Grows.contains (grows : Grows known first second) {name : Ident}
    (isDeclared : first.arrays.contains name = true) : second.arrays.contains name = true := by
  induction grows with
  | refl => exact isDeclared
  | other _ _ ih => exact ih
  | array _ _ ih =>
      unfold addArray
      split
      · exact ih
      · simp [ih]

end Grows

theorem contains_addArray (declared : DeclaredTypes) (name : Ident)
    (dimensions : List Dimension) (element : DataType) :
    (declared.addArray name dimensions element).arrays.contains name = true := by
  unfold addArray
  split
  · next isDeclared => exact isDeclared
  · simp

def HasInline (declared : DeclaredTypes) (type : DataType) : Prop :=
  ∀ name dimensions element, type = .array name dimensions element →
    name.name.startsWith DataType.inlineMark = true → declared.arrays.contains name = true

theorem hasInline_addInline (declared : DeclaredTypes) (type : DataType) :
    (declared.addInline type).HasInline type := by
  rintro name dimensions element rfl isInline
  rw [addInline, if_pos isInline]
  exact contains_addArray ..

section Library

variable {library : Library} {context : Context}

theorem grows_addInline {type : DataType} (mentioned : library.Mentions context type)
    (declared : DeclaredTypes) :
    Grows (library.Mentions context) declared (declared.addInline type) := by
  induction type using addInline.induct with
  | case1 name dimensions element isInline ih =>
      rw [addInline, if_pos isInline]
      exact (ih (mentioned.within (.array .here))).array mentioned
  | case2 name dimensions element notInline =>
      rw [addInline, if_neg notInline]
      exact .refl
  | case3 type notArray =>
      rw [addInline]
      · exact .refl
      · exact notArray

theorem grows_foldl_addInline {needed : List DataType} :
    ∀ (declared : DeclaredTypes), (∀ type ∈ needed, library.Mentions context type) →
      Grows (library.Mentions context) declared (needed.foldl addInline declared) ∧
        ∀ type ∈ needed, (needed.foldl addInline declared).HasInline type := by
  induction needed with
  | nil => exact fun _ _ => ⟨.refl, fun _ member => absurd member List.not_mem_nil⟩
  | cons type needed ih =>
      intro declared mentioned
      obtain ⟨isKnown, rest⟩ := List.forall_mem_cons.mp mentioned
      obtain ⟨grows, all⟩ := ih (declared.addInline type) rest
      refine ⟨(grows_addInline isKnown declared).trans grows, List.forall_mem_cons.mpr ⟨?_, all⟩⟩
      exact fun name dimensions element same isInline =>
        grows.contains (hasInline_addInline declared type name dimensions element same isInline)

structure Serves (declared : DeclaredTypes) (type : DataType) : Prop where
  array : ∀ name dimensions element, type = .array name dimensions element →
    declared.arrays.contains name = true
  record : ∀ name fields, type = .record name fields →
    ∀ field ∈ fields, declared.HasInline field.2

theorem Serves.grow {first later : DeclaredTypes} {known : DataType → Prop} {type : DataType}
    (serves : first.Serves type) (grows : Grows known first later) : later.Serves type where
  array name dimensions element same := grows.contains (serves.array name dimensions element same)
  record name fields same field isField inner dimensions element isArray isInline :=
    grows.contains (serves.record name fields same field isField inner dimensions element isArray
      isInline)

theorem Serves.of_found {declared : DeclaredTypes} {name : Ident} {type other : DataType}
    (found : context.types.type? name = some type) (serves : declared.Serves type)
    (same : context.types.type? name = some other) : declared.Serves other := by
  rw [found] at same
  cases same
  exact serves

section Built

variable (built : TypeTable.build TypeTable.elementary library.typeDecls = .ok context.types)

include built

theorem Turn.grows {declared later : DeclaredTypes} {decl : TypeDecl}
    (turn : Turn context.types declared decl later) (isDecl : decl ∈ library.typeDecls) :
    Grows (library.Mentions context) declared later ∧
      ∀ type, context.types.type? decl.name = some type → later.Serves type := by
  cases turn with
  | string =>
      refine ⟨Grows.refl.other rfl, fun type found => ?_⟩
      rcases TypeTable.declaration?_of_type? built isDecl found with ⟨base, rfl⟩ | found
      · exact ⟨nofun, nofun⟩
      · cases found
        exact ⟨nofun, nofun⟩
  | synonym found | subrange found | enumeration found =>
      exact ⟨Grows.refl.other rfl, fun _ => Serves.of_found found ⟨nofun, nofun⟩⟩
  | array found =>
      have mentioned := Library.mentions_of_decl isDecl found
      refine ⟨(grows_addInline (mentioned.within (.array .here)) declared).array mentioned,
        fun _ => Serves.of_found found ⟨fun name dimensions element same => ?_, nofun⟩⟩
      cases same
      exact contains_addArray ..
  | record found =>
      have mentioned := Library.mentions_of_decl isDecl found
      obtain ⟨grows, all⟩ := grows_foldl_addInline declared fun type member => by
        obtain ⟨field, isField, rfl⟩ := List.mem_map.mp member
        exact mentioned.within (.record isField .here)
      refine ⟨grows.other rfl,
        fun _ => Serves.of_found found ⟨nofun, fun name fields same field isField => ?_⟩⟩
      cases same
      exact all field.2 (List.mem_map_of_mem isField)

theorem grows_addDecls {decls : List TypeDecl} :
    ∀ {declared later : DeclaredTypes}, (∀ decl ∈ decls, decl ∈ library.typeDecls) →
      addDecls context declared decls = .ok later →
      Grows (library.Mentions context) declared later ∧
        ∀ decl ∈ decls, ∀ type, context.types.type? decl.name = some type →
          later.Serves type := by
  induction decls with
  | nil =>
      intro declared later _ run
      cases run
      exact ⟨.refl, fun _ member => absurd member List.not_mem_nil⟩
  | cons decl decls ih =>
      intro declared later members run
      obtain ⟨isDecl, rest⟩ := List.forall_mem_cons.mp members
      obtain ⟨next, step, run⟩ := bind_eq_ok run
      obtain ⟨stepGrows, served⟩ := (turn_of_addDecl built isDecl step).grows built isDecl
      obtain ⟨grows, all⟩ := ih rest run
      refine ⟨stepGrows.trans grows, List.forall_mem_cons.mpr ⟨?_, all⟩⟩
      exact fun type found => (served type found).grow grows

end Built

variable (context) in
theorem grows_addVariables (declared : DeclaredTypes) {vars : List VarDecl}
    (members : ∀ decl ∈ vars, decl ∈ library.elements.flatMap Element.vars) :
    Grows (library.Mentions context) declared (declared.addVariables context vars) ∧
      ∀ decl ∈ vars, ∀ type, context.typeOf decl = .ok type →
        (declared.addVariables context vars).HasInline type := by
  rw [addVariables_eq_foldl]
  have mentioned : ∀ type ∈ vars.filterMap fun decl => (context.typeOf decl).toOption,
      library.Mentions context type := by
    intro type member
    obtain ⟨decl, isVar, typed⟩ := List.mem_filterMap.mp member
    exact Library.mentions_of_var (members decl isVar) (eq_ok_of_toOption typed)
  obtain ⟨grows, all⟩ := grows_foldl_addInline declared mentioned
  refine ⟨grows, fun decl isVar type typed => all type ?_⟩
  exact List.mem_filterMap.mpr ⟨decl, isVar, by rw [typed]; rfl⟩

end Library

end DeclaredTypes

/-! ## All arrays of a library -/

section Covered

variable {library : Library} {context : Context}

def DeclaredTypes.Covers (declared : DeclaredTypes) (type : DataType) : Prop :=
  ∀ name dimensions element, (DataType.array name dimensions element).Within type →
    declared.arrays.contains name = true

namespace DeclaredTypes

variable {declared : DeclaredTypes}

theorem covers_elementary (base : Elementary) : declared.Covers (.elementary base) := by
  intro name dimensions element isWithin
  cases isWithin

theorem covers_functionBlock (name : Ident) : declared.Covers (.functionBlock name) := by
  intro name dimensions element isWithin
  cases isWithin

theorem Covers.synonym {name : Ident} {base : DataType} (covers : declared.Covers base) :
    declared.Covers (.synonym name base) := by
  intro inner dimensions element isWithin
  cases isWithin with
  | synonym isWithin => exact covers inner dimensions element isWithin

theorem Covers.array {name : Ident} {dimensions : List Dimension} {element : DataType}
    (covers : declared.Covers element) (isDeclared : declared.arrays.contains name = true) :
    declared.Covers (.array name dimensions element) := by
  intro inner dimensions element isWithin
  cases isWithin with
  | here => exact isDeclared
  | array isWithin => exact covers inner dimensions element isWithin

theorem covers_record {name : Ident} {fields : List (Ident × DataType)}
    (covers : ∀ field ∈ fields, declared.Covers field.2) :
    declared.Covers (.record name fields) := by
  intro inner dimensions element isWithin
  cases isWithin with
  | record isField isWithin => exact covers _ isField inner dimensions element isWithin

/-- What can be written with covered names is covered, if arrays that are written out are
declared. -/
theorem covers_of_written {types : TypeTable} {references : List Ident} {type : DataType}
    (known : ∀ name inner, types.type? name = some inner → sizeOf inner ≤ sizeOf type →
      declared.Covers inner)
    (hasInline : declared.HasInline type) (written : types.Written references type) :
    declared.Covers type := by
  cases written with
  | named refers found => exact known _ type found le_rfl
  | @inline name element dimensions refers found =>
      refine Covers.array (known name element found ?_)
        (hasInline _ dimensions element rfl (DataType.startsWith_inlineName dimensions element))
      simp only [DataType.inlineArray, DataType.array.sizeOf_spec]
      omega
  | elementary base => exact covers_elementary base

section Built

variable (built : TypeTable.build TypeTable.elementary library.typeDecls = .ok context.types)
  (served : ∀ decl ∈ library.typeDecls, ∀ type, context.types.type? decl.name = some type →
    declared.Serves type)

include built served

/-- Types that have names are covered once all declarations had their turns. -/
theorem covers_type? {name : Ident} {type : DataType}
    (found : context.types.type? name = some type) : declared.Covers type := by
  -- The induction is on the size: what a declaration refers to has a name of its own, and is
  -- no part of the declaration.
  induction size : sizeOf type using Nat.strong_induction_on generalizing name type with
  | _ bound ih =>
      subst size
      obtain ⟨base, rfl⟩ | ⟨decl, isDecl, names, meaning⟩ := TypeTable.cases_of_type? built found
      · exact covers_elementary base
      have serves := served decl isDecl type ((TypeTable.type?_congr _ names).trans found)
      have known : ∀ name inner, context.types.type? name = some inner →
          sizeOf inner < sizeOf type → declared.Covers inner :=
        fun name inner isInner smaller => ih _ smaller isInner rfl
      cases type with
      | elementary base => exact covers_elementary base
      | functionBlock name => exact covers_functionBlock name
      | intLiteral | realLiteral | subrange | enumeration =>
          intro name dimensions element isWithin
          cases isWithin
      | synonym name base =>
          refine Covers.synonym ?_
          obtain ⟨reference, -, isBase⟩ | ⟨length, width, rfl⟩ :=
            TypeTable.synonym_of_declaration? meaning
          · refine known _ base isBase ?_
            simp only [DataType.synonym.sizeOf_spec]
            omega
          · cases meaning
            exact covers_elementary _
      | array name dimensions element =>
          obtain ⟨shape, -, -, isElement⟩ := TypeTable.array_of_declaration? meaning
          refine Covers.array (known _ element isElement ?_) (serves.array name _ _ rfl)
          simp only [DataType.array.sizeOf_spec]
          omega
      | record name fields =>
          obtain ⟨decls, -, isFields⟩ := TypeTable.record_of_declaration? meaning
          refine covers_record fun field isField => ?_
          have smaller : sizeOf field.2 < sizeOf (DataType.record name fields) := by
            obtain ⟨fieldName, fieldType⟩ := field
            have inList := List.sizeOf_lt_of_mem isField
            simp only [DataType.record.sizeOf_spec, Prod.mk.sizeOf_spec] at inList ⊢
            omega
          obtain ⟨source, -, -, made⟩ := exists_of_mem_right isFields field isField
          rcases TypeTable.written_of_initializer? made with written | ⟨block, -, isBlock⟩
          · exact covers_of_written
              (fun name inner isInner le => known name inner isInner (lt_of_le_of_lt le smaller))
              (serves.record name fields rfl field isField) written
          · rw [isBlock]
            exact covers_functionBlock block

end Built

end DeclaredTypes

/-- The array declarations of a library are those of its array types, one for each name. -/
theorem Library.arrays_declared {types : List Code.TypeDecl}
    (built : TypeTable.build TypeTable.elementary library.typeDecls = .ok context.types)
    (run : library.lowerTypes context = .ok types) :
    ∃ entries : List ArrayEntry,
      types.filter Code.TypeDecl.isArray = entries.map ArrayEntry.decl ∧
      (entries.Pairwise fun entry other => (entry.name == other.name) = false) ∧
      (∀ entry ∈ entries, library.Mentions context entry.type) ∧
      ∀ name dimensions element, library.Mentions context (.array name dimensions element) →
        ∃ entry ∈ entries, (entry.name == name) = true := by
  obtain ⟨declared, declsRun, run⟩ := bind_eq_ok run
  cases run
  obtain ⟨declsGrow, served⟩ :=
    DeclaredTypes.grows_addDecls built (fun _ isDecl => isDecl) declsRun
  obtain ⟨varsGrow, hasInline⟩ :=
    DeclaredTypes.grows_addVariables context declared (fun _ isVar => isVar)
  obtain ⟨entries, ledger⟩ := (declsGrow.trans varsGrow).ledger DeclaredTypes.ledger_nil
  rw [List.nil_append] at ledger
  refine ⟨entries, ledger.decls, ledger.distinct, ledger.known,
    fun name dimensions element mentioned => ledger.contains_iff.mp ?_⟩
  have known : ∀ name type, context.types.type? name = some type →
      DeclaredTypes.Covers _ type := fun name type found =>
    DeclaredTypes.covers_type? built
      (fun decl isDecl type found => (served decl isDecl type found).grow varsGrow) found
  obtain ⟨outer, isWithin, ⟨decl, -, found⟩ | ⟨decl, isVar, typed⟩⟩ := mentioned
  · exact known _ outer found name dimensions element isWithin
  · rcases TypeTable.written_of_type typed with written | ⟨block, -, -, rfl⟩
    · exact DeclaredTypes.covers_of_written (fun name inner found _ => known name inner found)
        (hasInline decl isVar outer typed) written name dimensions element isWithin
    · cases isWithin

end Covered

end StructuredText
