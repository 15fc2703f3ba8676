import StructuredText.Proofs.Lowering.Hardware
import StructuredText.Proofs.Lowering.Passing

/-!
# Pointers to nothing

A call passes a pointer to nothing just for a parameter that it leaves open.  The function
that it calls goes through the pointer of a parameter only behind a test that it points
somewhere, with one exception: a parameter that passes both ways starts with what its
pointer points to, and there is no test ahead.  Statements of the program go through no
pointer of a parameter, unless it has the very name of a place of the hardware.
-/

set_option autoImplicit false

namespace StructuredText

open Code (Formal)

/-! ## Calls -/

/-- The code makes a call that passes the arguments: by itself, or through a helper that
passes them. -/
inductive Code.Expr.Hands (callee : String) (arguments : List Code.Expr) (after : LoweringState) :
    Code.Expr → Prop where
  | direct : Hands callee arguments after (.callLines callee arguments)
  | throughHelper {helper : Code.Helper} {values : List Code.Expr}
      (kept : after.isOn = true → helper ∈ after.helpers) (calls : helper.callee = callee)
      (passes : helper.arguments = arguments) :
      Hands callee arguments after (.callLines helper.name values)

def Binding.LeavesOpen (binding : Binding) (name : String) : Prop :=
  ∃ bound ∈ binding.parameters, bound.parameter.isOutput = true ∧
    bound.parameter.name.upper = name ∧ bound.actual = none

/-- A pointer to nothing is passed only for a parameter that is left open. -/
theorem Code.Expr.PassesOut.hands {site : Site} {arguments : List Argument} {binding : Binding}
    {callee : String} {slots : List CallSlot} {after : LoweringState} {code : Code.Expr}
    (passesOut : code.PassesOut site arguments binding callee slots after) :
    ∃ passed, code.Hands callee passed after ∧
      List.Forall₂ (CallSlot.PassesOut fun bound argument => argument = .atom "NULL" →
        bound.parameter.isOutput = true ∧ bound.actual = none) slots passed := by
  cases passesOut with
  | direct isPlain points =>
      refine ⟨_, .direct, points.imp fun _ _ pointsOut => pointsOut.imp ?_⟩
      rintro bound _ (⟨isTarget, placed⟩ | ⟨isOutput, isOpen⟩) isNull
      · cases isNull
      · exact ⟨isOutput, isOpen⟩
  | throughHelper isAccessor kept calls relays =>
      refine ⟨_, .throughHelper kept calls rfl, relays.imp fun _ _ relaysOut => relaysOut.imp ?_⟩
      rintro bound _ (⟨keptOut, isStored⟩ | ⟨isOutput, isOpen⟩) isNull
      · cases isNull
      · exact ⟨isOutput, isOpen⟩

/-! ## Definitions -/

/-- The definition goes through a pointer behind a test only, unless it is that of a parameter
that passes both ways, at the start, or bears the name of a place of the hardware. -/
def Code.FunctionDef.Tests (decl : FunctionDecl) (definition : Code.FunctionDef)
    (pointer : String) : Prop :=
  ∀ access ∈ definition.accesses, access.pointer = pointer →
    access.isGuarded = true ∨
    (access = .start pointer ∧ ∃ entry ∈ decl.vars, ∃ name, entry.kind = .inOut ∧
      entry.name.ident? = some name ∧ pointer = Code.pointerOf name.upper) ∨
    (access = .body pointer ∧ ∃ address : Address, pointer = address.cName)

theorem VarDecl.mem_of_copied {context : Context} {vars : List VarDecl} :
    ∀ {locals : List Code.Local} {type name : String},
      VarDecl.lowerLocals context vars = .ok locals → .copied type name ∈ locals →
      ∃ entry ∈ vars, ∃ ident, entry.kind = .inOut ∧ entry.name.ident? = some ident ∧
        name = ident.upper := by
  induction vars with
  | nil =>
      intro locals type name run member
      cases run
      cases member
  | cons decl vars ih =>
      intro locals type name run member
      rw [lowerLocals] at run
      obtain ⟨first, firstRun, run⟩ := bind_eq_ok run
      obtain ⟨others, othersRun, run⟩ := bind_eq_ok run
      cases run
      rcases List.mem_append.mp member with isFirst | isLater
      · refine ⟨decl, List.mem_cons_self .., ?_⟩
        rw [Option.mem_toList] at isFirst
        subst isFirst
        unfold lowerLocal at firstRun
        split at firstRun
        · cases firstRun
        · next ident isNamed =>
            obtain ⟨dataType, -, firstRun⟩ := bind_eq_ok firstRun
            cases kind : decl.kind with
            | inOut =>
                rw [kind] at firstRun
                cases firstRun
                exact ⟨ident, rfl, isNamed, rfl⟩
            | input | external | global =>
                rw [kind] at firstRun
                cases firstRun
            | output | var | temp =>
                rw [kind] at firstRun
                dsimp only at firstRun
                split at firstRun
                · cases firstRun
                · obtain ⟨value, -, firstRun⟩ := bind_eq_ok firstRun
                  cases firstRun
      · obtain ⟨entry, inVars, found⟩ := ih othersRun isLater
        exact ⟨entry, List.mem_cons_of_mem _ inVars, found⟩

/-- Every pointer is tested in the definition of a function, but for the exceptions. -/
theorem FunctionDecl.tests_of_lower {context : Context} {isOn after : Bool}
    {signature : FunctionSignature} {decl : FunctionDecl} {definition : Code.FunctionDef}
    (run : decl.lower context isOn signature = .ok (definition, after)) (pointer : String) :
    definition.Tests decl pointer := by
  unfold FunctionDecl.lower at run
  obtain ⟨scope, -, run⟩ := bind_eq_ok run
  obtain ⟨formals, -, run⟩ := bind_eq_ok run
  obtain ⟨locals, localsRun, run⟩ := bind_eq_ok run
  obtain ⟨resultValue, -, run⟩ := bind_eq_ok run
  obtain ⟨lowered, bodyRun, run⟩ := bind_eq_ok run
  cases run
  intro access member samePointer
  rcases Code.FunctionDef.mem_accesses member with
    isGuarded | ⟨type, name, isLocal, rfl⟩ | ⟨other, isDeref, rfl⟩
  · exact .inl isGuarded
  · obtain ⟨entry, inVars, ident, kind, isNamed, rfl⟩ := VarDecl.mem_of_copied localsRun isLocal
    exact .inr (.inl ⟨by rw [← samePointer]; rfl, entry, inVars, ident, kind, isNamed,
      samePointer.symm⟩)
  · obtain ⟨address, isAddress⟩ := Site.areAddresses_of_lowerBody bodyRun _ isDeref
    exact .inr (.inr ⟨by rw [← samePointer]; rfl, address, samePointer.symm.trans isAddress⟩)

/-! ## Calls of definitions -/

/-- The call hands the definition an argument for each of its parameters: a pointer to nothing
only for a parameter that it leaves open and whose pointer the definition tests. -/
def LoweredCall.HeedsNothing {context : Context} (call : LoweredCall context)
    (decl : FunctionDecl) (definition : Code.FunctionDef) : Prop :=
  ∃ binding passed,
    Binding.make call.resolution.signature.parameters call.arguments = .ok binding ∧
    call.code.Hands definition.name passed call.after ∧
    List.Forall₂
      (fun formal argument => formal.byPointer = true → argument = Code.Expr.atom "NULL" →
        binding.LeavesOpen formal.name ∧ definition.Tests decl (Code.pointerOf formal.name))
      definition.formals passed

theorem LoweredCall.heedsNothing {context : Context} {library : Library}
    {withConversions : Bool} (resolved : Context.resolve library withConversions = .ok context)
    {decl : FunctionDecl} {signature : FunctionSignature} {definition : Code.FunctionDef}
    {isOn after : Bool}
    (made : FunctionDecl.signature context.types context.blocks decl = .ok signature)
    (run : decl.lower context isOn signature = .ok (definition, after))
    (call : LoweredCall context) (means : call.resolution.signature = signature) :
    call.HeedsNothing decl definition := by
  have heads := FunctionDecl.heads_of_lower (FunctionDecl.signature_ok made).1 run
  have single := FunctionDecl.single_of_signature made
  obtain ⟨binding, bound, passesOut⟩ := call.passesOut resolved
  have boundTo := bound
  rw [means] at boundTo
  obtain ⟨names, areSingle⟩ := Binding.single_of_make single boundTo
  have slots : CallSlot.ofBound call.resolution.count false binding.parameters =
      binding.parameters.map .given := by
    have noGroup := @CallSlot.ofBound_append call.resolution.count binding.parameters []
      fun entry member => (areSingle entry member).1
    rwa [List.append_nil, CallSlot.ofBound, List.append_nil] at noGroup
  have formals : (binding.parameters.map CallSlot.given).map CallSlot.formal =
      definition.formals :=
    Parameter.formals_of_bound heads.formals names fun entry member => (areSingle entry member).2
  have sameName : call.callee = definition.name := by
    rw [heads.name, LoweredCall.callee, CallResolution.isOverloaded_eq resolved call.meaning, means]
  rw [slots, sameName] at passesOut
  obtain ⟨passed, hands, filled⟩ := passesOut.hands
  refine ⟨binding, passed, bound, hands, ?_⟩
  rw [List.forall₂_map_left_iff] at filled
  rw [← formals, List.map_map, List.forall₂_map_left_iff]
  have members := (List.forall₂_and_left _ _).mpr ⟨fun _ member => member, filled⟩
  refine members.imp ?_
  rintro entry argument ⟨member, passesNull⟩ byPointer isNull
  obtain ⟨isOutput, isOpen⟩ := passesNull byPointer isNull
  have name : (CallSlot.given entry).formal.name = entry.parameter.name.upper :=
    BoundParameter.cName_of_single (areSingle entry member).2
  exact ⟨⟨entry, member, isOutput, name.symm, isOpen⟩, FunctionDecl.tests_of_lower run _⟩

/-- In a compiled library the functions are defined in the order of their declarations, and a
call passes a pointer to nothing only for a parameter that it leaves open.  The definition
tests the pointers of these parameters wherever it goes through them, unless the parameter
passes both ways and starts with what its pointer points to, or bears the name of a place of
the hardware. -/
theorem Library.null_pointers_tested {library : Library} {withConversions : Bool}
    {layout : Code.Layout} {text : String}
    (compiled : library.compile withConversions layout = .ok text) :
    ∃ context notes file, Context.resolve library withConversions = .ok context ∧
      library.check context = .ok notes ∧ library.lower context = .ok file ∧
      text = file.render layout ∧
      List.Forall₂
        (fun decl definition => ∃ signature,
          FunctionDecl.signature context.types context.blocks decl = .ok signature ∧
            definition.print layout =
              Code.unitComment layout "FUNCTION" definition.unit ++
                definition.clauses.flatMap Code.Clause.print ∧
            ∀ call : LoweredCall context, call.resolution.signature = signature →
              call.HeedsNothing decl definition)
        library.functions (Code.functionDefs file.elements) := by
  obtain ⟨context, notes, file, resolved, checked, lowered, rendered⟩ :=
    Library.compile_ok compiled
  refine ⟨context, notes, file, resolved, checked, lowered, rendered, ?_⟩
  refine (Library.definitions_of_lower resolved lowered).imp ?_
  rintro decl definition ⟨signature, isOn, after, made, -, run⟩
  exact ⟨signature, made, definition.print_eq_clauses layout, fun call means =>
    call.heedsNothing resolved made run means⟩

/-- A function with a parameter that passes both ways, and a call that leaves it open. -/
def bumping : Library where
  elements :=
    [.function
        { name := "Bump", returnType := "INT"
          vars := [{ VarDecl.simple "X" "INT" with kind := .inOut }]
          body := [.copy "Bump" "X"] },
      .program
        { name := "Main"
          vars := [VarDecl.simple "sum" "INT"]
          body := [.assign (.named "sum") (.call "Bump" [])] }]

theorem bumping_compiles : (bumping.compile false {}).isOk = true := by
  rw [Library.compile, Context.resolve, FunctionTable.standard_eq_grouped]
  decide +kernel

theorem Library.null_pointers_tested_bumping :
    ∃ text, bumping.compile false {} = .ok text ∧
      ∃ context notes file, Context.resolve bumping false = .ok context ∧
        bumping.check context = .ok notes ∧ bumping.lower context = .ok file ∧
        text = file.render {} ∧
        List.Forall₂
          (fun decl definition => ∃ signature,
            FunctionDecl.signature context.types context.blocks decl = .ok signature ∧
              definition.print {} =
                Code.unitComment {} "FUNCTION" definition.unit ++
                  definition.clauses.flatMap Code.Clause.print ∧
              ∀ call : LoweredCall context, call.resolution.signature = signature →
                call.HeedsNothing decl definition)
          bumping.functions (Code.functionDefs file.elements) := by
  obtain ⟨text, compiled⟩ := exists_ok_of_isOk bumping_compiles
  exact ⟨text, compiled, Library.null_pointers_tested compiled⟩

def Code.Expr.lines? : Code.Expr → Option (String × List Code.Expr)
  | .callLines function arguments => some (function, arguments)
  | _ => none

def Code.Expr.isNull : Code.Expr → Bool
  | .atom text => text == "NULL"
  | _ => false

theorem Code.Expr.eq_of_lines? {expr : Code.Expr} {function : String}
    {arguments : List Code.Expr} (found : expr.lines? = some (function, arguments)) :
    expr = .callLines function arguments := by
  cases expr with
  | callLines other others =>
      cases found
      rfl
  | _ => cases found

theorem Code.Expr.eq_of_isNull {expr : Code.Expr} (isNull : expr.isNull = true) :
    expr = .atom "NULL" := by
  cases expr with
  | atom text => rw [eq_of_beq isNull]
  | _ => cases isNull

theorem bumping_reads : (bumping.accepted?.bind fun context => do
    let file ← (bumping.lower context).toOption
    let definition ← (Code.functionDefs file.elements).head?
    let store ← (file.elements.flatMap Code.Element.stores).getLast?
    let call ← store.value.lines?
    return call.1 == definition.name && (definition.formals.zip call.2).any fun passed =>
      passed.1.byPointer && passed.2.isNull &&
        definition.accesses.contains (.start (Code.pointerOf passed.1.name))) = some true := by
  rw [Library.accepted?, Context.resolve, FunctionTable.standard_eq_grouped]
  decide +kernel

/-- The code of an accepted library may pass a pointer to nothing to a function that goes
through it without a test. -/
theorem Library.null_pointer_read :
    ∃ context notes file, Context.resolve bumping = .ok context ∧
      bumping.check context = .ok notes ∧ bumping.lower context = .ok file ∧
      ∃ definition ∈ Code.functionDefs file.elements,
        ∃ store ∈ file.elements.flatMap Code.Element.stores, ∃ arguments formal access,
          store.value = .callLines definition.name arguments ∧
          (formal, .atom "NULL") ∈ definition.formals.zip arguments ∧
          formal.byPointer = true ∧ access ∈ definition.accesses ∧
          access.pointer = Code.pointerOf formal.name ∧ access.isGuarded = false := by
  obtain ⟨context, accepted, found⟩ := Option.bind_eq_some_iff.mp bumping_reads
  obtain ⟨resolved, notes, checked⟩ := Library.of_accepted? accepted
  obtain ⟨file, isFile, found⟩ := Option.bind_eq_some_iff.mp found
  obtain ⟨definition, isDefinition, found⟩ := Option.bind_eq_some_iff.mp found
  obtain ⟨store, isStore, found⟩ := Option.bind_eq_some_iff.mp found
  obtain ⟨⟨function, arguments⟩, isCall, found⟩ := Option.bind_eq_some_iff.mp found
  simp only [Option.pure_def, Option.some.injEq, Bool.and_eq_true, beq_iff_eq,
    List.any_eq_true, List.contains_eq_mem, decide_eq_true_eq] at found
  obtain ⟨rfl, ⟨formal, argument⟩, isPassed, ⟨byPointer, isNull⟩, isRead⟩ := found
  obtain rfl := Code.Expr.eq_of_isNull isNull
  exact ⟨context, notes, file, resolved, checked, eq_ok_of_toOption isFile, definition,
    List.mem_of_head? isDefinition, store, List.mem_of_getLast? isStore, arguments, formal, _,
    Code.Expr.eq_of_lines? isCall, isPassed, byPointer, isRead, rfl, rfl⟩

end StructuredText
