import StructuredText.Proofs.Analysis.Independence

/-!
# Resolved libraries are closed

Every name that a type declaration, the parameters of a function or function block or the
result of a function refers to is that of an elementary type, of a declared type or of a
function block with a signature, and no two types and no two function blocks have one name.
The four routines that look such names up each vouch for their own: types for what they are
built from, results and parameters for what a call passes.  No routine looks at the name of
a function block that is the field of a record, and none compares the names of programs, or
those of types with those of function blocks.
-/

set_option autoImplicit false

namespace StructuredText

/-! ## References -/

def Initializer.names : Initializer → List Ident
  | .functionBlock type => [type]
  | initializer => initializer.references

def VarDecl.isParameter (decl : VarDecl) : Bool :=
  decl.kind.direction?.isSome && decl.name.ident?.isSome

def VarDecl.parameterNames (vars : List VarDecl) : List Ident :=
  (vars.filter VarDecl.isParameter).flatMap fun decl => decl.initializer.names

/-- The types and function blocks that the declaration of an element refers to.  Function blocks
that are fields of a record are not among them. -/
def Element.references : Element → List Ident
  | .type decl => decl.references
  | .function decl => decl.returnType :: VarDecl.parameterNames decl.vars
  | .functionBlock decl => VarDecl.parameterNames decl.vars
  | .program _ | .pragma _ => []

/-- The name of an elementary type, of a type that a library declares, or of a function block
with a signature. -/
def Ident.IsDeclared (library : Library) (context : Context) (name : Ident) : Prop :=
  (Elementary.ofIdent? name).isSome = true ∨
    (∃ decl ∈ library.typeDecls, (decl.name == name) = true) ∨
    (context.functions.block? name).isSome = true

/-! ## Function blocks in a table without faults -/

namespace FunctionTable

variable {types : TypeTable} {blocks : List Ident}

/-- A function block that is taken without fault has a signature and a name that was free. -/
theorem Progress.free_of_step {progress : Progress} {decl : FunctionBlockDecl}
    (faultless : (progress.step types blocks (.functionBlock decl)).faults = []) :
    (∃ signature, decl.signature types blocks = .ok signature) ∧
      progress.table.blocks.contains decl.name = false := by
  rw [Progress.step] at faultless
  cases signed : decl.signature types blocks with
  | error faults =>
      rw [signed] at faultless
      have noFaults := (List.append_eq_nil_iff.mp faultless).2
      exact absurd noFaults (FunctionBlockDecl.signature_error_ne_nil signed)
  | ok signature =>
      refine ⟨⟨signature, rfl⟩, ?_⟩
      rw [signed, ok_bind] at faultless
      have sameName : signature.name = decl.name := by
        obtain ⟨_, -, rfl⟩ := map_eq_ok signed
        rfl
      rw [← sameName, Table.contains, ← block?]
      cases free : progress.table.block? signature.name with
      | none => rfl
      | some first => simp [addBlock, free, Progress.take] at faultless

theorem Progress.free_of_foldl {elements : List Element} :
    ∀ {progress : Progress}, (elements.foldl (step types blocks) progress).faults = [] →
      (∀ decl ∈ Library.functionBlocks { elements },
        (∃ signature, decl.signature types blocks = .ok signature) ∧
          progress.table.blocks.contains decl.name = false) ∧
      (Library.functionBlocks { elements }).Pairwise fun first second =>
        (first.name == second.name) = false := by
  induction elements with
  | nil => exact fun _ => ⟨by simp [Library.functionBlocks], List.Pairwise.nil⟩
  | cons element elements ih =>
      intro progress faultless
      rw [List.foldl_cons] at faultless
      obtain ⟨midway, -, -⟩ := Progress.blocks_foldl faultless
      obtain ⟨-, keeps, adds⟩ := Progress.blocks_step midway
      obtain ⟨laterFree, distinct⟩ := ih faultless
      have later : ∀ decl ∈ Library.functionBlocks { elements },
          (∃ signature, decl.signature types blocks = .ok signature) ∧
            progress.table.blocks.contains decl.name = false := by
        intro decl member
        obtain ⟨signed, free⟩ := laterFree decl member
        refine ⟨signed, Bool.eq_false_iff.mpr fun taken => ?_⟩
        rw [keeps _ taken] at free
        cases free
      cases element with
      | type decl | function decl | program decl | pragma directive => exact ⟨later, distinct⟩
      | functionBlock decl =>
          have split : Library.functionBlocks { elements := .functionBlock decl :: elements } =
              decl :: Library.functionBlocks { elements } := rfl
          rw [split, List.pairwise_cons]
          refine ⟨?_, ?_, distinct⟩
          · intro other member
            rcases List.mem_cons.mp member with rfl | isLater
            · exact Progress.free_of_step midway
            · exact later other isLater
          · intro other isLater
            refine Bool.eq_false_iff.mpr fun same => ?_
            have free := (laterFree other isLater).2
            rw [Table.contains, ← Table.get?_congr _ same, ← Table.contains, adds decl rfl] at free
            cases free

/-- In a table without faults every declared function block has a signature, and its name is
neither that of another one nor that of a standard one. -/
theorem distinct_of_build {withConversions : Bool} {library : Library} {table : FunctionTable}
    (built : build (standard withConversions) types library = .ok table) :
    (∀ decl ∈ library.functionBlocks,
      (∃ signature, decl.signature types (blockNames library) = .ok signature) ∧
      ∀ block ∈ Standard.blocks, (block.name == decl.name) = false) ∧
    library.functionBlocks.Pairwise fun first second => (first.name == second.name) = false := by
  unfold build at built
  dsimp only at built
  split at built
  · next faultless =>
      obtain ⟨declared, distinct⟩ := Progress.free_of_foldl faultless
      refine ⟨fun decl member => ⟨(declared decl member).1, fun block isStandard => ?_⟩, distinct⟩
      have free := (declared decl member).2
      refine Bool.eq_false_iff.mpr fun same => ?_
      have taken : (standard withConversions).blocks.contains decl.name = true :=
        Table.contains_iff.mpr
          ⟨(block.name, block), List.mem_map.mpr ⟨block, isStandard, rfl⟩, same⟩
      rw [taken] at free
      cases free
  · cases built

end FunctionTable

/-! ## The names that declarations refer to -/

section Resolved

variable {context : Context} {library : Library} {withConversions : Bool}
  (resolved : Context.resolve library withConversions = .ok context)

include resolved

theorem Context.isDeclared_of_type? {name : Ident} {type : DataType}
    (found : context.types.type? name = some type) : name.IsDeclared library context := by
  obtain ⟨built, -, -⟩ := Context.resolve_ok resolved
  unfold TypeTable.type? at found
  split at found
  · next isElementary =>
      exact .inl (by rw [isElementary]; rfl)
  · next notElementary =>
      obtain ⟨accepted, ledger⟩ := TypeTable.ledger_of_build built
      have known : context.types.contains name = true := by rw [Table.contains, found]; rfl
      obtain ⟨entry, member, same⟩ := Table.contains_iff.mp known
      rw [ledger.entries] at member
      rcases List.mem_append.mp member with isElementary | isAccepted
      · exact .inl (TypeTable.ofIdent?_of_contains
          (Table.contains_iff.mpr ⟨entry, isElementary, same⟩))
      · obtain ⟨pair, isPair, rfl⟩ := List.mem_map.mp isAccepted
        refine .inr (.inl ⟨pair.1, ledger.split.mem_iff.mpr ?_, same⟩)
        exact List.mem_append_left _ (List.mem_map_of_mem isPair)

theorem Context.isDeclared_of_block {name : Ident}
    (isBlock : context.blocks.contains name = true) : name.IsDeclared library context := by
  obtain ⟨-, built, blocks⟩ := Context.resolve_ok resolved
  rw [blocks] at isBlock
  exact .inr (.inr (FunctionTable.blocks_of_build built isBlock))

/-- What an initializer refers to is known if it has a type. -/
theorem Context.isDeclared_of_initializer? {initializer : Initializer} {type : DataType}
    (found : context.types.initializer? initializer = some type) :
    ∀ name ∈ initializer.references, name.IsDeclared library context := by
  intro name member
  cases initializer with
  | simple named value | enumerated named value =>
      cases List.mem_singleton.mp member
      exact Context.isDeclared_of_type? resolved found
  | string length width value | functionBlock named => cases member
  | array spec =>
      cases spec with
      | named other =>
          cases List.mem_singleton.mp member
          exact Context.isDeclared_of_type? resolved found
      | inline shape =>
          cases List.mem_singleton.mp member
          obtain ⟨_, shaped, -⟩ := Option.map_eq_some_iff.mp found
          obtain ⟨element, isElement, -⟩ := Option.bind_eq_some_iff.mp shaped
          exact Context.isDeclared_of_type? resolved isElement

theorem Context.isDeclared_of_typeOf {decl : VarDecl} {type : DataType}
    (typed : context.typeOf decl = .ok type) :
    ∀ name ∈ decl.initializer.names, name.IsDeclared library context := by
  intro name member
  unfold Context.typeOf VarDecl.type at typed
  cases initial : decl.initializer with
  | simple named value =>
      simp only [initial] at typed member
      cases List.mem_singleton.mp member
      split at typed
      · next found => exact Context.isDeclared_of_type? resolved found
      · split at typed
        · next isBlock => exact Context.isDeclared_of_block resolved isBlock
        · cases typed
  | functionBlock named =>
      simp only [initial] at typed member
      cases List.mem_singleton.mp member
      split at typed
      · next isBlock => exact Context.isDeclared_of_block resolved isBlock
      · cases typed
  | string length width value | enumerated named value | array spec =>
      simp only [initial] at typed member
      split at typed
      · next found => exact Context.isDeclared_of_initializer? resolved found name member
      · cases typed

theorem Context.isDeclared_of_parametersOf {vars : List VarDecl} {parameters : List Parameter}
    (made : parametersOf context.types context.blocks vars = .ok parameters) :
    ∀ name ∈ VarDecl.parameterNames vars, name.IsDeclared library context := by
  intro name member
  obtain ⟨decl, isParameter, refers⟩ := List.mem_flatMap.mp member
  obtain ⟨isVar, declares⟩ := List.mem_filter.mp isParameter
  rw [VarDecl.isParameter, Bool.and_eq_true] at declares
  obtain ⟨direction, isDirection⟩ := Option.isSome_iff_exists.mp declares.1
  obtain ⟨label, isLabel⟩ := Option.isSome_iff_exists.mp declares.2
  obtain ⟨explicit, -, fromVars⟩ := parametersOf_ok made
  have result : VarDecl.parameter? context.types context.blocks decl =
      some ((decl.type context.types context.blocks).map fun type =>
        { name := label, direction, type, default := decl.default? }) := by
    simp [VarDecl.parameter?, isDirection, isLabel]
  have inResults := List.mem_filterMap.mpr ⟨decl, isVar, result⟩
  rw [fromVars] at inResults
  obtain ⟨parameter, -, succeeded⟩ := List.mem_map.mp inResults
  obtain ⟨type, typed, -⟩ := map_eq_ok succeeded.symm
  exact Context.isDeclared_of_typeOf resolved typed name refers

theorem Context.isDeclared_of_references {element : Element}
    (isElement : element ∈ library.elements) :
    ∀ name ∈ element.references, name.IsDeclared library context := by
  obtain ⟨typesBuilt, functionsBuilt, blocks⟩ := Context.resolve_ok resolved
  intro name refers
  cases element with
  | program decl | pragma directive => cases refers
  | type decl =>
      have isDecl : decl ∈ library.typeDecls := List.mem_filterMap.mpr ⟨_, isElement, rfl⟩
      obtain ⟨resolvable, -, -⟩ :=
        (TypeTable.isOk_build library.typeDecls).mp (by rw [typesBuilt]; rfl)
      obtain ⟨-, known⟩ := resolvable decl isDecl
      cases known name refers with
      | elementary isElementary => exact .inl isElementary
      | declared member same _ => exact .inr (.inl ⟨_, member, same⟩)
  | function decl =>
      have isDecl : decl ∈ library.functions := List.mem_filterMap.mpr ⟨_, isElement, rfl⟩
      obtain ⟨signatures, signed, -⟩ := Context.functions_declared resolved
      obtain ⟨before, after, position⟩ := List.append_of_mem isDecl
      rw [position] at signed
      obtain ⟨-, signature, -, -, made, -⟩ := Context.signatures_split signed
      obtain ⟨-, -, returns, parameters⟩ := FunctionDecl.signature_ok made
      rcases List.mem_cons.mp refers with rfl | inParameters
      · exact Context.isDeclared_of_type? resolved returns
      · exact Context.isDeclared_of_parametersOf resolved parameters name inParameters
  | functionBlock decl =>
      have isDecl : decl ∈ library.functionBlocks := List.mem_filterMap.mpr ⟨_, isElement, rfl⟩
      obtain ⟨⟨signature, made⟩, -⟩ :=
        (FunctionTable.distinct_of_build functionsBuilt).1 decl isDecl
      obtain ⟨parameters, parametersMade, -⟩ := map_eq_ok made
      rw [← blocks] at parametersMade
      exact Context.isDeclared_of_parametersOf resolved parametersMade name refers

end Resolved

/-- A library that resolves is closed: its declarations refer to elementary types, declared
types and function blocks with signatures only.  No two of its types and no two of its function
blocks have one name, and none has that of an elementary type or a standard function block. -/
theorem Library.resolved_closed {library : Library} {context : Context} {withConversions : Bool}
    (resolved : Context.resolve library withConversions = .ok context) :
    (∀ element ∈ library.elements, ∀ name ∈ element.references,
      name.IsDeclared library context) ∧
    library.typeDecls.Pairwise (fun first second => (first.name == second.name) = false) ∧
    (∀ decl ∈ library.typeDecls, TypeTable.elementary.contains decl.name = false) ∧
    library.functionBlocks.Pairwise (fun first second => (first.name == second.name) = false) ∧
    ∀ decl ∈ library.functionBlocks, ∀ block ∈ Standard.blocks,
      (block.name == decl.name) = false := by
  obtain ⟨typesBuilt, functionsBuilt, -⟩ := Context.resolve_ok resolved
  obtain ⟨-, typesDistinct, notElementary⟩ :=
    (TypeTable.isOk_build library.typeDecls).mp (by rw [typesBuilt]; rfl)
  obtain ⟨blocksDeclared, blocksDistinct⟩ := FunctionTable.distinct_of_build functionsBuilt
  exact ⟨fun element member => Context.isDeclared_of_references resolved member, typesDistinct,
    notElementary, blocksDistinct, fun decl member => (blocksDeclared decl member).2⟩

def plant : Library where
  elements :=
    [.type (.record "Reading"
        [{ name := "levels", initializer := .array (.inline
            { ranges := [{ start := .ofInt 0, stop := .ofInt 7 }], element := "Level" }) },
          { name := "delay", initializer := .functionBlock "TON" }]),
      .type (.subrange "Level" .int { start := .ofInt 0, stop := .ofInt 100 }),
      .function
        { name := "Peak", returnType := "Level"
          vars :=
            [{ name := .symbol "gauge", kind := .inOut, initializer := .functionBlock "Gauge" },
              { name := .symbol "reading", kind := .input, initializer := .simple "Reading" }]
          body := [] },
      .functionBlock
        { name := "Gauge"
          vars := [{ name := .symbol "level", kind := .input, initializer := .simple "Level" }]
          body := [] }]

theorem Library.resolved_closed_plant :
    ∃ context, Context.resolve plant = .ok context ∧
      (∀ element ∈ plant.elements, ∀ name ∈ element.references, name.IsDeclared plant context) ∧
      plant.typeDecls.Pairwise (fun first second => (first.name == second.name) = false) := by
  have isOk : (Context.resolve plant).toOption.isSome = true := by
    rw [Context.resolve, FunctionTable.standard_eq_grouped]
    decide +kernel
  obtain ⟨context, found⟩ := Option.isSome_iff_exists.mp isOk
  have resolved := eq_ok_of_toOption found
  obtain ⟨closed, distinct, -⟩ := Library.resolved_closed resolved
  exact ⟨context, resolved, closed, distinct⟩

/-- A record with a field that is no function block, two programs of one name, and a type and a
function block of one name. -/
def dangling : Library where
  elements :=
    [.type (.record "Reading" [{ name := "delay", initializer := .functionBlock "Missing" }]),
      .program { name := "Main", vars := [], body := [] },
      .program { name := "Main", vars := [], body := [] },
      .functionBlock { name := "Reading", vars := [], body := [] }]

def Library.programs (library : Library) : List ProgramDecl :=
  library.elements.filterMap fun
    | .program decl => some decl
    | _ => none

/-- A library may resolve although a field of a record refers to a function block that does not
exist, two programs have one name, and so have a type and a function block. -/
theorem Library.dangling_resolves :
    ∃ context, Context.resolve dangling = .ok context ∧
      (∃ name fields field block, .record name fields ∈ dangling.typeDecls ∧ field ∈ fields ∧
        field.initializer = .functionBlock block ∧ ¬ block.IsDeclared dangling context) ∧
      ¬ dangling.programs.Pairwise (fun first second => (first.name == second.name) = false) ∧
      ∃ decl ∈ dangling.typeDecls, ∃ block ∈ dangling.functionBlocks,
        (decl.name == block.name) = true := by
  have found : (Context.resolve dangling).toOption.map
      (fun context => (context.functions.block? "Missing").isNone) = some true := by
    rw [Context.resolve, FunctionTable.standard_eq_grouped]
    decide +kernel
  obtain ⟨context, resolved, noBlock⟩ := Option.map_eq_some_iff.mp found
  have noType : ¬ ∃ decl ∈ dangling.typeDecls, (decl.name == ("Missing" : Ident)) = true := by
    decide +kernel
  refine ⟨context, eq_ok_of_toOption resolved,
    ⟨_, _, _, "Missing", List.mem_cons_self .., List.mem_cons_self .., rfl, ?_⟩,
    by decide +kernel, by decide +kernel⟩
  rintro (isElementary | isType | isBlock)
  · exact absurd isElementary (by decide +kernel)
  · exact noType isType
  · rw [Option.isNone_iff_eq_none.mp noBlock] at isBlock
    cases isBlock

end StructuredText
