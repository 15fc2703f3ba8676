import StructuredText.Lowering.Type
import StructuredText.Proofs.Analysis.Storable
import StructuredText.Proofs.Code.Outline
import StructuredText.Proofs.Spelling.Types
import StructuredText.Proofs.Types.Meaning

/-!
# The order of declared types

Types come out in source order, and an array that is written out comes out ahead of the
first declaration that needs it.  So a declaration finds every type that it refers to
declared, unless the source refers ahead.
-/

set_option autoImplicit false

namespace StructuredText

/-! ## References ahead -/

def Initializer.block? : Initializer → Option Ident
  | .simple type _ | .functionBlock type => some type
  | .string .. | .enumerated .. | .array _ => none

def Element.unitName? : Element → Option Ident
  | .functionBlock decl => some decl.name
  | .program decl => some decl.name
  | .type _ | .function _ | .pragma _ => none

/-- What the source of a library lets a declaration in generated code use before it is
declared, given the generated names of both. -/
inductive Library.RefersAhead (library : Library) : (user used : String) → Prop where
  /-- A type declaration, or an array that is written out in it, refers to a type that is
  declared no earlier. -/
  | type {before after : List TypeDecl} {decl target : TypeDecl} {reference : Ident}
      {user : String} (position : library.typeDecls = before ++ decl :: after)
      (ahead : target ∈ decl :: after) (refers : reference ∈ decl.references)
      (names : (target.name == reference) = true)
      (isUser : user = decl.name.upper ∨ user.startsWith DataType.inlineMark = true) :
      library.RefersAhead user target.name.upper
  /-- A function block or a program has an instance of a function block that is declared no
  earlier. -/
  | unit {before after : List Element} {element : Element} {block : FunctionBlockDecl}
      {decl : VarDecl} {name reference : Ident}
      (position : library.elements = before ++ element :: after)
      (ahead : .functionBlock block ∈ element :: after) (isUnit : element.unitName? = some name)
      (declares : decl ∈ element.vars) (refers : decl.initializer.block? = some reference)
      (names : (block.name == reference) = true) :
      library.RefersAhead name.upper block.name.upper
  /-- A field of a record is a function block: units come after all types. -/
  | field {name : Ident} {fields : List FieldDecl} {field : FieldDecl} {block : Ident}
      (declared : .record name fields ∈ library.typeDecls) (isField : field ∈ fields)
      (refers : field.initializer = .functionBlock block) :
      library.RefersAhead name.upper block.upper
  /-- A type has taken a name of the kind that arrays get when they are written out. -/
  | reserved {decl : TypeDecl} {used : String} (declared : decl ∈ library.typeDecls)
      (isReserved : decl.name.isReserved = true) :
      library.RefersAhead decl.name.upper used

/-! ## Types of a table -/

namespace TypeTable

variable {decls : List TypeDecl} {types : TypeTable}

theorem cName_of_declaration? {decl : TypeDecl} {type : DataType}
    (found : types.declaration? decl = some type) : type.cName = decl.name.upper := by
  cases decl with
  | synonym name base | subrange name base range | array name shape | record name fields =>
      obtain ⟨-, -, rfl⟩ := Option.map_eq_some_iff.mp found
      rfl
  | enumeration name values | string name length width =>
      cases found
      rfl

/-- What a name means is an elementary type, or what a declaration of the name says. -/
theorem cases_of_type? (built : build elementary decls = .ok types) {name : Ident}
    {type : DataType} (found : types.type? name = some type) :
    (∃ base, type = .elementary base) ∨
      ∃ decl ∈ decls, (decl.name == name) = true ∧ types.declaration? decl = some type := by
  unfold type? at found
  split at found
  · cases found
    exact .inl ⟨_, rfl⟩
  · obtain ⟨accepted, ledger⟩ := ledger_of_build built
    obtain ⟨entry, isEntry, named, rfl⟩ := ledger.distinct.get?_eq_some_iff.mp found
    rw [ledger.entries] at isEntry
    rcases List.mem_append.mp isEntry with isElementary | isDeclared
    · obtain ⟨base, -, rfl⟩ := List.mem_map.mp isElementary
      exact .inl ⟨base, rfl⟩
    · obtain ⟨⟨decl, meaning⟩, isPair, rfl⟩ := List.mem_map.mp isDeclared
      have isDecl : decl ∈ decls := by
        have split : decls.Perm (accepted.map Prod.fst) := by simpa using ledger.split
        exact split.mem_iff.mpr (List.mem_map.mpr ⟨_, isPair, rfl⟩)
      exact .inr ⟨decl, isDecl, named, ledger.meaning _ isPair⟩

theorem array_of_declaration? {decl : TypeDecl} {name : Ident} {dimensions : List Dimension}
    {element : DataType} (found : types.declaration? decl = some (.array name dimensions element)) :
    ∃ shape, decl = .array name shape ∧ shape.Means types dimensions element := by
  cases declaration?_eq_some_iff.mp found with
  | array isShape => exact ⟨_, rfl, isShape⟩

theorem record_of_declaration? {decl : TypeDecl} {name : Ident} {fields : List (Ident × DataType)}
    (found : types.declaration? decl = some (.record name fields)) :
    ∃ decls, decl = .record name decls ∧ List.Forall₂ (FieldDecl.Means types) decls fields := by
  cases declaration?_eq_some_iff.mp found with
  | record isFields => exact ⟨_, rfl, isFields⟩

theorem synonym_of_declaration? {decl : TypeDecl} {name : Ident} {base : DataType}
    (found : types.declaration? decl = some (.synonym name base)) :
    (∃ reference, decl = .synonym name reference ∧ types.type? reference = some base) ∨
      ∃ length width, decl = .string name length width := by
  cases declaration?_eq_some_iff.mp found with
  | synonym isBase => exact .inl ⟨_, rfl, isBase⟩
  | string => exact .inr ⟨_, _, rfl⟩

/-- What the name of a declaration means is an elementary type, or what it declares. -/
theorem declaration?_of_type? (built : build elementary decls = .ok types) {decl : TypeDecl}
    (member : decl ∈ decls) {type : DataType} (found : types.type? decl.name = some type) :
    (∃ base, type = .elementary base) ∨ types.declaration? decl = some type := by
  unfold type? at found
  split at found
  · cases found
    exact .inl ⟨_, rfl⟩
  · rw [get?_of_build built member BEq.rfl] at found
    exact .inr found

/-- The types that a declaration with the given references can be made of: a type that it
refers to, an array of such a type, or an elementary type. -/
inductive Written (types : TypeTable) (references : List Ident) : DataType → Prop where
  | named {name : Ident} {type : DataType} (refers : name ∈ references)
      (found : types.type? name = some type) : Written types references type
  | inline {name : Ident} {element : DataType} (dimensions : List Dimension)
      (refers : name ∈ references) (found : types.type? name = some element) :
      Written types references (.inlineArray dimensions element)
  | elementary (base : Elementary) : Written types references (.elementary base)

theorem Written.mono {references others : List Ident} {type : DataType}
    (written : types.Written references type) (within : references ⊆ others) :
    types.Written others type := by
  cases written with
  | named refers found => exact .named (within refers) found
  | inline dimensions refers found => exact .inline dimensions (within refers) found
  | elementary base => exact .elementary base

theorem written_of_initializer? {initializer : Initializer} {type : DataType}
    (found : types.initializer? initializer = some type) :
    types.Written initializer.references type ∨
      ∃ block, initializer = .functionBlock block ∧ type = .functionBlock block := by
  cases initializer with
  | simple name value => exact .inl (.named (List.mem_singleton_self _) found)
  | string length width value =>
      cases found
      exact .inl (.elementary _)
  | enumerated name value => exact .inl (.named (List.mem_singleton_self _) found)
  | functionBlock name =>
      cases found
      exact .inr ⟨name, rfl, rfl⟩
  | array spec =>
      cases spec with
      | named name => exact .inl (.named (List.mem_singleton_self _) found)
      | inline shape =>
          obtain ⟨⟨dimensions, element⟩, isShape, rfl⟩ := Option.map_eq_some_iff.mp found
          obtain ⟨known, isElement, isShape⟩ := Option.bind_eq_some_iff.mp isShape
          obtain ⟨lengths, -, same⟩ := Option.bind_eq_some_iff.mp isShape
          cases same
          exact .inl (.inline _ (List.mem_singleton_self _) isElement)

/-- A variable has the type that its initializer declares, or it is an instance of a function
block. -/
theorem cases_of_varType {blocks : List Ident} {decl : VarDecl} {type : DataType}
    (found : decl.type types blocks = .ok type) :
    (types.initializer? decl.initializer = some type ∧
        ∀ block, decl.initializer ≠ .functionBlock block) ∨
      ∃ block, decl.initializer.block? = some block ∧ blocks.contains block = true ∧
        type = .functionBlock block := by
  unfold VarDecl.type at found
  split at found
  · next name _ isSimple =>
      rw [isSimple]
      split at found
      · next known =>
          cases found
          refine .inl ⟨known, ?_⟩
          intro block same
          cases same
      · split at found
        · next isBlock =>
            cases found
            exact .inr ⟨name, rfl, isBlock, rfl⟩
        · cases found
  · next name isInstance =>
      rw [isInstance]
      split at found
      · next isBlock =>
          cases found
          exact .inr ⟨name, rfl, isBlock, rfl⟩
      · cases found
  · next notInstance =>
      split at found
      · next known =>
          cases found
          exact .inl ⟨known, notInstance⟩
      · cases found

theorem written_of_type {blocks : List Ident} {decl : VarDecl} {type : DataType}
    (found : decl.type types blocks = .ok type) :
    types.Written decl.initializer.references type ∨
      ∃ block, decl.initializer.block? = some block ∧ blocks.contains block = true ∧
        type = .functionBlock block := by
  rcases cases_of_varType found with ⟨known, notInstance⟩ | isInstance
  · refine (written_of_initializer? known).imp_right ?_
    rintro ⟨block, same, -⟩
    exact absurd same (notInstance block)
  · exact .inr isInstance

end TypeTable

/-! ## The turn of a declaration -/

def Code.TypeDecl.isArray : Code.TypeDecl → Bool
  | .array .. => true
  | _ => false

namespace DeclaredTypes

/-- What the turn of a declaration adds.  The kind of the declaration decides, for its name
means what it makes; a string alone is declared without a look at what its name means. -/
inductive Turn (types : TypeTable) (declared : DeclaredTypes) :
    TypeDecl → DeclaredTypes → Prop where
  | string {name : Ident} {length : IntegerToken} {width : StringWidth} {number : Nat}
      (isNumber : length.value = .ok number) :
      Turn types declared (.string name length width) (declared.add (.string name.upper number))
  | synonym {name base : Ident} {type : DataType}
      (found : types.type? name = some (.synonym name type))
      (isBase : types.type? base = some type) :
      Turn types declared (.synonym name base) (declared.add (.derived name.upper type.cName))
  | subrange {name : Ident} {base : Elementary} {range : Range} {lower upper : Int}
      (found : types.type? name = some (.subrange name base lower upper))
      (isRange : range.Means { lower, upper }) :
      Turn types declared (.subrange name base range)
        (declared.add (.subrange name.upper base.cName lower upper))
  | enumeration {name : Ident} {values : List Ident}
      (found : types.type? name = some (.enumeration name values)) :
      Turn types declared (.enumeration name values)
        (declared.add (.enumeration name.upper (values.map Ident.upper)))
  | array {name : Ident} {shape : ArrayShape} {dimensions : List Dimension} {element : DataType}
      (found : types.type? name = some (.array name dimensions element))
      (isShape : shape.Means types dimensions element) :
      Turn types declared (.array name shape)
        ((declared.addInline element).addArray name dimensions element)
  | record {name : Ident} {decls : List FieldDecl} {fields : List (Ident × DataType)}
      (found : types.type? name = some (.record name fields))
      (isFields : List.Forall₂ (FieldDecl.Means types) decls fields) :
      Turn types declared (.record name decls)
        (((fields.map Prod.snd).foldl addInline declared).add
          (.record name.upper (fields.map fun field => (field.1.upper, field.2.cName))))

variable {declared later : DeclaredTypes}

theorem turn_of_addDecl_string {context : Context} {name : Ident} {length : IntegerToken}
    {width : StringWidth} (run : declared.addDecl context (.string name length width) = .ok later) :
    Turn context.types declared (.string name length width) later := by
  unfold addDecl at run
  dsimp only [TypeDecl.name] at run
  cases found : context.types.type? name with
  | none =>
      rw [found] at run
      cases run
  | some type =>
      rw [found] at run
      dsimp only at run
      split at run
      · next isNumber =>
          cases run
          exact .string isNumber
      · cases run

theorem turn_of_addDecl {library : Library} {context : Context} {decl : TypeDecl}
    (built : TypeTable.build TypeTable.elementary library.typeDecls = .ok context.types)
    (isDecl : decl ∈ library.typeDecls) (run : declared.addDecl context decl = .ok later) :
    Turn context.types declared decl later := by
  cases isLong : decl.name.isLongName with
  | true =>
      obtain ⟨base, found⟩ := TypeTable.type?_of_isLongName isLong
      cases decl with
      | string => exact turn_of_addDecl_string run
      | synonym | subrange | enumeration | array | record =>
          unfold addDecl at run
          rw [found] at run
          cases run
  | false =>
      obtain ⟨type, means, named⟩ := TypeTable.type?_of_build built isDecl isLong
      have step := run
      unfold addDecl at step
      have found := named _ BEq.rfl
      rw [found] at step
      cases means with
      | string => exact turn_of_addDecl_string run
      | synonym isBase =>
          cases step
          exact .synonym found isBase
      | subrange isRange =>
          cases step
          exact .subrange found isRange
      | enumeration =>
          cases step
          exact .enumeration found
      | array isShape =>
          cases step
          exact .array found isShape
      | record isFields =>
          cases step
          rw [← List.foldl_map (f := Prod.snd) (g := addInline)]
          exact .record found isFields

/-! ### What is declared stays -/

def AddsArrays (declared later : DeclaredTypes) : Prop :=
  ∃ more, later.decls = declared.decls ++ more ∧ ∀ decl ∈ more, decl.isArray = true

theorem AddsArrays.refl (declared : DeclaredTypes) : declared.AddsArrays declared :=
  ⟨[], (List.append_nil _).symm, List.forall_mem_nil _⟩

theorem AddsArrays.trans {first second third : DeclaredTypes} (start : first.AddsArrays second)
    (rest : second.AddsArrays third) : first.AddsArrays third := by
  obtain ⟨more, same, arrays⟩ := start
  obtain ⟨others, same', arrays'⟩ := rest
  refine ⟨more ++ others, by rw [same', same, List.append_assoc], fun decl member => ?_⟩
  exact (List.mem_append.mp member).elim (arrays decl) (arrays' decl)

theorem AddsArrays.kept (adds : declared.AddsArrays later) : declared.decls <+: later.decls := by
  obtain ⟨more, same, -⟩ := adds
  exact ⟨more, same.symm⟩

theorem addsArrays_addArray (declared : DeclaredTypes) (name : Ident)
    (dimensions : List Dimension) (element : DataType) :
    declared.AddsArrays (declared.addArray name dimensions element) := by
  unfold addArray
  split
  · exact .refl _
  · exact ⟨_, rfl, List.forall_mem_singleton.mpr rfl⟩

theorem addsArrays_addInline (declared : DeclaredTypes) (type : DataType) :
    declared.AddsArrays (declared.addInline type) := by
  fun_induction addInline declared type with
  | case1 name dimensions element isInline ih => exact ih.trans (addsArrays_addArray ..)
  | case2 | case3 => exact .refl _

theorem addsArrays_foldl {needed : List DataType} :
    ∀ declared : DeclaredTypes, declared.AddsArrays (needed.foldl addInline declared) := by
  induction needed with
  | nil => exact .refl
  | cons type needed ih => exact fun declared => (addsArrays_addInline declared type).trans (ih _)

theorem Turn.kept {types : TypeTable} {decl : TypeDecl} (turn : Turn types declared decl later) :
    declared.decls <+: later.decls := by
  cases turn with
  | string | synonym | subrange | enumeration => exact List.prefix_append ..
  | array => exact ((addsArrays_addInline ..).trans (addsArrays_addArray ..)).kept
  | record => exact (addsArrays_foldl declared).kept.trans (List.prefix_append ..)

theorem addVariables_eq_foldl (context : Context) (vars : List VarDecl) :
    declared.addVariables context vars =
      (vars.filterMap fun decl => (context.typeOf decl).toOption).foldl addInline declared := by
  induction vars generalizing declared with
  | nil => rfl
  | cons decl vars ih =>
      rw [addVariables, List.foldl_cons, ← addVariables, ih]
      cases typed : context.typeOf decl <;> simp [typed, Except.toOption]

section Run

variable {library : Library} {context : Context}
  (built : TypeTable.build TypeTable.elementary library.typeDecls = .ok context.types)

include built

theorem turn_of_addDecls {decls : List TypeDecl} :
    ∀ {declared later : DeclaredTypes}, decls ⊆ library.typeDecls →
      addDecls context declared decls = .ok later →
        declared.decls <+: later.decls ∧ ∀ decl ∈ decls, ∃ first next,
          Turn context.types first decl next ∧ next.decls <+: later.decls := by
  induction decls with
  | nil =>
      intro declared later _ run
      cases run
      exact ⟨List.prefix_refl _, fun _ member => absurd member List.not_mem_nil⟩
  | cons decl decls ih =>
      intro declared later within run
      obtain ⟨isDecl, rest⟩ := List.cons_subset.mp within
      obtain ⟨next, step, run⟩ := bind_eq_ok run
      have turn := turn_of_addDecl built isDecl step
      obtain ⟨kept, turns⟩ := ih rest run
      exact ⟨turn.kept.trans kept,
        List.forall_mem_cons.mpr ⟨⟨declared, next, turn, kept⟩, turns⟩⟩

theorem turn_of_lowerTypes {types : List Code.TypeDecl}
    (run : library.lowerTypes context = .ok types) {decl : TypeDecl}
    (isDecl : decl ∈ library.typeDecls) : ∃ first next,
      Turn context.types first decl next ∧ next.decls <+: types := by
  obtain ⟨declared, declsRun, run⟩ := bind_eq_ok run
  cases run
  obtain ⟨first, next, turn, kept⟩ :=
    (turn_of_addDecls built (List.Subset.refl _) declsRun).2 decl isDecl
  refine ⟨first, next, turn, kept.trans ?_⟩
  rw [addVariables_eq_foldl]
  exact (addsArrays_foldl declared).kept

end Run

end DeclaredTypes

/-! ## Declaring one after the other -/

namespace DeclaredTypes

open Code (InOrder Settled)

variable {letPass : String → String → Prop} {declared : DeclaredTypes}

def outlines (declared : DeclaredTypes) : List Code.Outline :=
  declared.decls.map Code.TypeDecl.outline

/-- The declarations made so far are in order, and the arrays that are kept are among
them. -/
structure IsOrdered (letPass : String → String → Prop) (declared : DeclaredTypes) : Prop where
  inOrder : InOrder letPass declared.outlines
  arrays : ∀ name ∈ declared.arrays, ∃ outline ∈ declared.outlines, outline.name = name.upper

def Extends (declared later : DeclaredTypes) : Prop :=
  ∃ more, later.outlines = declared.outlines ++ more

theorem extends_of_kept {later : DeclaredTypes} (kept : declared.decls <+: later.decls) :
    declared.Extends later := by
  obtain ⟨more, same⟩ := kept
  exact ⟨more.map Code.TypeDecl.outline, by rw [outlines, outlines, ← same, List.map_append]⟩

theorem Extends.refl (declared : DeclaredTypes) : declared.Extends declared :=
  ⟨[], (List.append_nil _).symm⟩

theorem Extends.trans {first second third : DeclaredTypes} (firstStep : first.Extends second)
    (secondStep : second.Extends third) : first.Extends third := by
  obtain ⟨more, same⟩ := firstStep
  obtain ⟨evenMore, same'⟩ := secondStep
  exact ⟨more ++ evenMore, by rw [same', same, List.append_assoc]⟩

theorem Extends.settled {later : DeclaredTypes} (extends' : declared.Extends later)
    {letPass : String → Prop} {type : String}
    (settled : Settled letPass declared.outlines type) : Settled letPass later.outlines type := by
  obtain ⟨more, same⟩ := extends'
  rw [same]
  exact settled.append more

theorem Extends.declares {later : DeclaredTypes} (extends' : declared.Extends later)
    {name : String} (isDeclared : ∃ outline ∈ declared.outlines, outline.name = name) :
    ∃ outline ∈ later.outlines, outline.name = name := by
  obtain ⟨more, same⟩ := extends'
  obtain ⟨outline, member, named⟩ := isDeclared
  exact ⟨outline, by rw [same]; exact List.mem_append_left _ member, named⟩

theorem outlines_add (decl : Code.TypeDecl) :
    (declared.add decl).outlines = declared.outlines ++ [decl.outline] := by
  simp [outlines, add]

theorem extends_add (decl : Code.TypeDecl) : declared.Extends (declared.add decl) :=
  ⟨_, outlines_add decl⟩

theorem IsOrdered.add (ordered : declared.IsOrdered letPass) {decl : Code.TypeDecl}
    (settled : ∀ type ∈ decl.outline.types,
      Settled (letPass decl.outline.name) declared.outlines type) :
    (declared.add decl).IsOrdered letPass := by
  refine ⟨?_, fun name isArray => (extends_add decl).declares (ordered.arrays name isArray)⟩
  rw [outlines_add]
  exact ordered.inOrder.concat settled

theorem addArray_cases (declared : DeclaredTypes) (name : Ident) (dimensions : List Dimension)
    (element : DataType) :
    declared.arrays.contains name = true ∧
        declared.addArray name dimensions element = declared ∨
      (declared.addArray name dimensions element).outlines =
          declared.outlines ++ [{ name := name.upper, types := [element.cName] }] ∧
        (declared.addArray name dimensions element).arrays = declared.arrays ++ [name] := by
  unfold addArray
  split
  · next known => exact .inl ⟨known, rfl⟩
  · refine .inr ⟨?_, rfl⟩
    rw [outlines, List.map_append]
    rfl

theorem extends_addArray (name : Ident) (dimensions : List Dimension) (element : DataType) :
    declared.Extends (declared.addArray name dimensions element) :=
  extends_of_kept (addsArrays_addArray ..).kept

theorem IsOrdered.addArray (ordered : declared.IsOrdered letPass) {name : Ident}
    {element : DataType} (dimensions : List Dimension)
    (settled : Settled (letPass name.upper) declared.outlines element.cName) :
    (declared.addArray name dimensions element).IsOrdered letPass ∧
      ∃ outline ∈ (declared.addArray name dimensions element).outlines,
        outline.name = name.upper := by
  rcases addArray_cases declared name dimensions element with
    ⟨known, same⟩ | ⟨outlines, arrays⟩
  · obtain ⟨other, isArray, sameName⟩ := List.contains_iff_exists_mem_beq.mp known
    obtain ⟨outline, member, named⟩ := ordered.arrays other isArray
    rw [same]
    exact ⟨ordered, outline, member, named.trans (Ident.beq_iff_upper.mp (BEq.symm sameName))⟩
  · have isNew : ∃ outline ∈ (declared.addArray name dimensions element).outlines,
        outline.name = name.upper := by
      rw [outlines]
      exact ⟨_, List.mem_append_right _ (List.mem_singleton_self _), rfl⟩
    refine ⟨⟨?_, ?_⟩, isNew⟩
    · rw [outlines]
      refine ordered.inOrder.concat fun type isUsed => ?_
      rw [List.mem_singleton.mp isUsed]
      exact settled
    · intro other isArray
      rw [arrays] at isArray
      rcases List.mem_append.mp isArray with isOld | isThis
      · exact (extends_addArray _ _ _).declares (ordered.arrays other isOld)
      · rw [List.mem_singleton.mp isThis]
        exact isNew

theorem extends_addInline (declared : DeclaredTypes) (type : DataType) :
    declared.Extends (declared.addInline type) :=
  extends_of_kept (addsArrays_addInline ..).kept

/-! ## The types of a library -/

section Library

variable {library : Library} {types : TypeTable}

/-- A declaration under the name `owner`, or an array written out in it, may use what the
references mean. -/
def Settles (library : Library) (types : TypeTable) (owner : String) (references : List Ident)
    (declared : DeclaredTypes) : Prop :=
  ∀ reference ∈ references, ∀ type, types.type? reference = some type →
    ∀ user, user = owner ∨ user.startsWith DataType.inlineMark = true →
      Settled (library.RefersAhead user) declared.outlines type.cName

theorem Settles.extend {owner : String} {references : List Ident} {later : DeclaredTypes}
    (settles : Settles library types owner references declared)
    (extends' : declared.Extends later) : Settles library types owner references later :=
  fun reference refers type found user isUser =>
    extends'.settled (settles reference refers type found user isUser)

variable (built : TypeTable.build TypeTable.elementary library.typeDecls = .ok types)

include built

/-- The array behind a name comes out early only if its name is reserved. -/
theorem IsOrdered.addInline_named {type : DataType}
    (ordered : declared.IsOrdered library.RefersAhead) {name : Ident}
    (found : types.type? name = some type) :
    (declared.addInline type).IsOrdered library.RefersAhead := by
  fun_induction addInline declared type generalizing name with
  | case1 arrayName dimensions element isInline ih =>
      rcases TypeTable.cases_of_type? built found with ⟨base, same⟩ | ⟨decl, isDecl, -, meaning⟩
      · cases same
      · obtain ⟨shape, rfl, -, isElement⟩ := TypeTable.array_of_declaration? meaning
        have isReserved : arrayName.isReserved = true :=
          startsWith_toUpper DataType.inlineMark_toUpper isInline
        exact ((ih isElement).addArray dimensions
          (.inr (.inr (.reserved isDecl isReserved)))).1
  | case2 | case3 => exact ordered

theorem IsOrdered.addInline_written {type : DataType} {owner : String}
    {references : List Ident} (ordered : declared.IsOrdered library.RefersAhead)
    (settles : Settles library types owner references declared)
    (written : types.Written references type) :
    (declared.addInline type).IsOrdered library.RefersAhead ∧
      Settled (library.RefersAhead owner) (declared.addInline type).outlines type.cName := by
  cases written with
  | named refers found =>
      refine ⟨ordered.addInline_named built found, (extends_addInline declared type).settled ?_⟩
      exact settles _ refers type found owner (.inl rfl)
  | @inline name element dimensions refers found =>
      have starts := DataType.startsWith_inlineName dimensions element
      have isInline : declared.addInline (.inlineArray dimensions element) =
          (declared.addInline element).addArray
            { name := DataType.inlineName dimensions element } dimensions element := by
        rw [DataType.inlineArray, addInline, if_pos starts]
      have settled : Settled
          (library.RefersAhead (Ident.upper { name := DataType.inlineName dimensions element }))
          declared.outlines element.cName :=
        settles name refers element found _
          (.inr (startsWith_toUpper DataType.inlineMark_toUpper starts))
      have added := (ordered.addInline_named built found).addArray dimensions
        ((extends_addInline declared element).settled settled)
      rw [isInline]
      exact ⟨added.1, .inr (.inl added.2)⟩
  | elementary base => exact ⟨ordered, .inl (Code.isBuiltIn_cName base)⟩

/-- Arrays for several types: afterwards each of the types may be used, function blocks
apart. -/
theorem IsOrdered.foldl_addInline {owner : String} {references : List Ident}
    {needed : List DataType} :
    ∀ {declared : DeclaredTypes}, declared.IsOrdered library.RefersAhead →
      Settles library types owner references declared →
      (∀ type ∈ needed, types.Written references type ∨ ∃ block, type = .functionBlock block) →
      (needed.foldl addInline declared).IsOrdered library.RefersAhead ∧
        declared.Extends (needed.foldl addInline declared) ∧
        ∀ type ∈ needed, types.Written references type →
          Settled (library.RefersAhead owner) (needed.foldl addInline declared).outlines
            type.cName := by
  induction needed with
  | nil =>
      exact fun ordered _ _ =>
        ⟨ordered, .refl _, fun _ member => absurd member List.not_mem_nil⟩
  | cons type needed ih =>
      intro declared ordered settles written
      rw [List.forall_mem_cons] at written
      obtain ⟨first, rest⟩ := written
      have next : (declared.addInline type).IsOrdered library.RefersAhead := by
        rcases first with isWritten | ⟨block, rfl⟩
        · exact (ordered.addInline_written built settles isWritten).1
        · exact ordered
      have extends' := extends_addInline declared type
      obtain ⟨laterOrdered, laterExtends, settled⟩ := ih next (settles.extend extends') rest
      rw [List.foldl_cons]
      refine ⟨laterOrdered, extends'.trans laterExtends,
        List.forall_mem_cons.mpr ⟨fun isWritten => ?_, settled⟩⟩
      exact laterExtends.settled (ordered.addInline_written built settles isWritten).2

/-- What references mean may be used if it is declared or referred to ahead. -/
theorem settles_of_known {before after : List TypeDecl} {owner : String}
    {references : List Ident} (position : library.typeDecls = before ++ after)
    (known : ∀ other ∈ before, ∃ outline ∈ declared.outlines, outline.name = other.name.upper)
    (ahead : ∀ target ∈ after, ∀ reference ∈ references, (target.name == reference) = true →
      ∀ user, user = owner ∨ user.startsWith DataType.inlineMark = true →
        library.RefersAhead user target.name.upper) :
    Settles library types owner references declared := by
  intro reference refers type found user isUser
  rcases TypeTable.cases_of_type? built found with ⟨base, rfl⟩ | ⟨target, isTarget, names, meaning⟩
  · exact .inl (Code.isBuiltIn_cName base)
  · rw [TypeTable.cName_of_declaration? meaning]
    rw [position] at isTarget
    rcases List.mem_append.mp isTarget with isBefore | isAfter
    · exact .inr (.inl (known target isBefore))
    · exact .inr (.inr (ahead target isAfter reference refers names user isUser))

end Library

section Turns

variable {library : Library} {context : Context}
  (built : TypeTable.build TypeTable.elementary library.typeDecls = .ok context.types)

theorem IsOrdered.added {owner : String} {decl : Code.TypeDecl}
    (ordered : declared.IsOrdered library.RefersAhead) (named : decl.outline.name = owner)
    (settled : ∀ type ∈ decl.outline.types,
      Settled (library.RefersAhead owner) declared.outlines type) :
    (declared.add decl).IsOrdered library.RefersAhead ∧ declared.Extends (declared.add decl) ∧
      ∃ outline ∈ (declared.add decl).outlines, outline.name = owner := by
  refine ⟨ordered.add (by rw [named]; exact settled), extends_add decl, decl.outline, ?_, named⟩
  rw [outlines_add]
  exact List.mem_append_right _ (List.mem_singleton_self _)

include built

/-- The arrays that the fields of a record need: afterwards the record may be declared. -/
theorem IsOrdered.addFields {name : Ident} {decls : List FieldDecl}
    {fields : List (Ident × DataType)} (isDecl : .record name decls ∈ library.typeDecls)
    (isFields : List.Forall₂ (FieldDecl.Means context.types) decls fields)
    (ordered : declared.IsOrdered library.RefersAhead)
    (settles : Settles library context.types name.upper (TypeDecl.record name decls).references
      declared) :
    ((fields.map Prod.snd).foldl addInline declared).IsOrdered library.RefersAhead ∧
      declared.Extends ((fields.map Prod.snd).foldl addInline declared) ∧
      ∀ type ∈ (Code.TypeDecl.record name.upper
          (fields.map fun field => (field.1.upper, field.2.cName))).outline.types,
        Settled (library.RefersAhead name.upper)
          ((fields.map Prod.snd).foldl addInline declared).outlines type := by
  have cases : ∀ type ∈ fields.map Prod.snd,
      context.types.Written (TypeDecl.record name decls).references type ∨
        ∃ block, type = .functionBlock block ∧ library.RefersAhead name.upper block.upper := by
    intro type member
    obtain ⟨field, isField, rfl⟩ := List.mem_map.mp member
    obtain ⟨decl, isSource, -, made⟩ := exists_of_mem_right isFields field isField
    refine (TypeTable.written_of_initializer? made).imp ?_ ?_
    · exact fun written => written.mono fun reference refers =>
        List.mem_flatMap.mpr ⟨decl, isSource, refers⟩
    · exact fun ⟨block, isBlock, same⟩ => ⟨block, same, .field isDecl isSource isBlock⟩
  have written : ∀ type ∈ fields.map Prod.snd,
      context.types.Written (TypeDecl.record name decls).references type ∨
        ∃ block, type = .functionBlock block :=
    fun type member => (cases type member).imp_right fun ⟨block, same, _⟩ => ⟨block, same⟩
  obtain ⟨later, extends', settled⟩ := ordered.foldl_addInline built settles written
  refine ⟨later, extends', fun type isUsed => ?_⟩
  obtain ⟨field, isField, rfl⟩ : ∃ field ∈ fields, field.2.cName = type := by
    simpa [Code.TypeDecl.outline] using isUsed
  have inTypes := List.mem_map_of_mem (f := Prod.snd) isField
  rcases cases field.2 inTypes with isWritten | ⟨block, same, ahead⟩
  · exact settled field.2 inTypes isWritten
  · rw [same]
    exact .inr (.inr ahead)

theorem IsOrdered.turn {before after : List TypeDecl} {decl : TypeDecl}
    {later : DeclaredTypes} (position : library.typeDecls = before ++ decl :: after)
    (known : ∀ other ∈ before, ∃ outline ∈ declared.outlines, outline.name = other.name.upper)
    (ordered : declared.IsOrdered library.RefersAhead)
    (turn : Turn context.types declared decl later) :
    later.IsOrdered library.RefersAhead ∧ declared.Extends later ∧
      ∃ outline ∈ later.outlines, outline.name = decl.name.upper := by
  have settles : Settles library context.types decl.name.upper decl.references declared :=
    settles_of_known built position known fun target ahead reference refers names user isUser =>
      .type position ahead refers names isUser
  have isDecl : decl ∈ library.typeDecls := by
    rw [position]
    exact List.mem_append_right _ (List.mem_cons_self ..)
  cases turn with
  | string | enumeration =>
      exact ordered.added rfl fun type isUsed => absurd isUsed List.not_mem_nil
  | subrange =>
      refine ordered.added rfl fun type isUsed => ?_
      rw [List.mem_singleton.mp isUsed]
      exact .inl (Code.isBuiltIn_cName _)
  | synonym _ isBase =>
      refine ordered.added rfl fun type isUsed => ?_
      rw [List.mem_singleton.mp isUsed]
      exact settles _ (List.mem_singleton_self _) _ isBase _ (.inl rfl)
  | @array name shape dimensions element _ isShape =>
      have extends' := extends_addInline declared element
      have settled := settles _ (List.mem_singleton_self _) element isShape.2 _ (.inl rfl)
      have added := (ordered.addInline_named built isShape.2).addArray dimensions
        (extends'.settled settled)
      exact ⟨added.1, extends'.trans (extends_addArray _ _ _), added.2⟩
  | record _ isFields =>
      obtain ⟨fieldsOrdered, extends', settled⟩ := ordered.addFields built isDecl isFields settles
      obtain ⟨addedOrdered, addedExtends, isAdded⟩ := fieldsOrdered.added rfl settled
      exact ⟨addedOrdered, extends'.trans addedExtends, isAdded⟩

theorem IsOrdered.addDecls {after : List TypeDecl} :
    ∀ {before : List TypeDecl} {declared later : DeclaredTypes},
      library.typeDecls = before ++ after →
      (∀ other ∈ before, ∃ outline ∈ declared.outlines, outline.name = other.name.upper) →
      declared.IsOrdered library.RefersAhead →
      DeclaredTypes.addDecls context declared after = .ok later →
      later.IsOrdered library.RefersAhead ∧
        ∀ decl ∈ library.typeDecls, ∃ outline ∈ later.outlines, outline.name = decl.name.upper := by
  induction after with
  | nil =>
      intro before declared later position known ordered run
      rw [List.append_nil] at position
      cases run
      exact ⟨ordered, by rw [position]; exact known⟩
  | cons decl after ih =>
      intro before declared later position known ordered run
      obtain ⟨next, step, run⟩ := bind_eq_ok run
      have isDecl : decl ∈ library.typeDecls := by
        rw [position]
        exact List.mem_append_right _ (List.mem_cons_self ..)
      obtain ⟨nextOrdered, extends', isDeclared⟩ :=
        ordered.turn built position known (turn_of_addDecl built isDecl step)
      have nextPosition : library.typeDecls = (before ++ [decl]) ++ after := by
        rw [position, List.append_assoc, List.singleton_append]
      refine ih nextPosition (fun other member => ?_) nextOrdered run
      rcases List.mem_append.mp member with isBefore | isThis
      · exact extends'.declares (known other isBefore)
      · rw [List.mem_singleton.mp isThis]
        exact isDeclared

end Turns

end DeclaredTypes

end StructuredText
