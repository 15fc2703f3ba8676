import StructuredText.Proofs.Code.Routine
import StructuredText.Proofs.Lowering.Element
import StructuredText.Proofs.Lowering.Leaf

/-!
# The names of helpers

Where the output is never switched off, every helper that a body or a helper calls has been
defined before.  A call takes the next number of its unit, so the helpers of a unit differ in
their numbers.  Whether they differ in their names is another matter: the name runs unit,
function and number together, and an eleventh call of `F` reads like the first of `F1`.
-/

set_option autoImplicit false

namespace StructuredText

open Code (Helper)

/-- The output is switched off nowhere in the library. -/
def Library.NeverOff (library : Library) : Prop :=
  ∀ element ∈ library.elements,
    element ≠ .pragma .disable ∧ .pragma .disable ∉ Stmt.allList element.body

/-! ## Units -/

theorem Site.allowsStmts_true (site : Site) (stmts : List Stmt) :
    site.AllowsStmts stmts fun _ => True where
  fixed _ _ := trivial
  count _ := trivial
  constant _ _ := trivial
  enumerated _ _ := trivial
  initial _ _ _ _ := trivial
  single _ _ _ _ _ := trivial
  range _ _ _ _ := ⟨trivial, trivial⟩
  handle _ := trivial

theorem Site.helpersInOrder_of_lowerBody {site : Site} {body : List Stmt} {lowered : LoweredBody}
    (neverOff : .pragma .disable ∉ Stmt.allList body)
    (run : site.lowerBody true body = .ok lowered) :
    lowered.InOrder site (fun _ => True) True :=
  Site.inOrder_of_lowerBody (site.allowsStmts_true _) (fun _ => neverOff) (fun _ => rfl) run

section Units

variable {context : Context} {after : Bool}

theorem FunctionDecl.inOrder_of_lower {decl : FunctionDecl} {signature : FunctionSignature}
    {definition : Code.FunctionDef} (neverOff : .pragma .disable ∉ Stmt.allList decl.body)
    (run : decl.lower context true signature = .ok (definition, after)) :
    after = true ∧ Code.Element.InOrder (.function definition) := by
  unfold FunctionDecl.lower at run
  obtain ⟨scope, -, run⟩ := bind_eq_ok run
  obtain ⟨formals, -, run⟩ := bind_eq_ok run
  obtain ⟨locals, -, run⟩ := bind_eq_ok run
  obtain ⟨resultValue, -, run⟩ := bind_eq_ok run
  obtain ⟨lowered, bodyRun, run⟩ := bind_eq_ok run
  cases run
  have inOrder := Site.helpersInOrder_of_lowerBody neverOff bodyRun
  have noHelpers : lowered.helpers = [] := by
    rw [List.eq_nil_iff_forall_not_mem]
    intro helper member
    cases inOrder.isAccessor helper member
  refine ⟨inOrder.isOn trivial, fun leaf member => ?_⟩
  have isKnown := inOrder.known leaf member
  rwa [noHelpers] at isKnown

theorem inOrder_of_lowerUnit {kind : Code.UnitKind} {outer : Scope} {implicit : List Code.Slot}
    {name : Ident} {vars : List VarDecl} {body : List Stmt} {definition : Code.UnitDef}
    (neverOff : .pragma .disable ∉ Stmt.allList body)
    (run : lowerUnit context true kind outer implicit name vars body = .ok (definition, after)) :
    after = true ∧ Code.Element.InOrder (.unit definition) := by
  unfold lowerUnit at run
  obtain ⟨scope, -, run⟩ := bind_eq_ok run
  obtain ⟨slots, -, run⟩ := bind_eq_ok run
  obtain ⟨lowered, bodyRun, run⟩ := bind_eq_ok run
  cases run
  have inOrder := Site.helpersInOrder_of_lowerBody neverOff bodyRun
  exact ⟨inOrder.isOn trivial, inOrder.apart, inOrder.numbered, inOrder.sound, inOrder.known⟩

/-- The output stays on from element to element, so every unit keeps its helpers in order. -/
theorem Context.unitsInOrder_of_lowerElements {elements : List Element} :
    ∀ (declared : List Ident) {codes : List Code.Element},
      Library.NeverOff { elements } →
        context.lowerElements declared true elements = .ok codes →
        ∀ code ∈ codes, code.InOrder := by
  induction elements with
  | nil =>
      intro declared codes _ run
      cases run
      exact List.forall_mem_nil _
  | cons element elements ih =>
      intro declared codes neverOff run
      obtain ⟨code, after, rest, turn, restRun, rfl⟩ := Context.lowerElements_cons_ok run
      have neverOffHere := neverOff element (List.mem_cons_self ..)
      have neverOffLater : Library.NeverOff { elements } :=
        fun other member => neverOff other (List.mem_cons_of_mem _ member)
      cases turn with
      | type | standardBlock => exact ih _ neverOffLater restRun
      | function _ definitionRun =>
          obtain ⟨rfl, inOrder⟩ := FunctionDecl.inOrder_of_lower neverOffHere.2 definitionRun
          exact List.forall_mem_cons.mpr ⟨inOrder, ih _ neverOffLater restRun⟩
      | functionBlock _ definitionRun | program definitionRun =>
          obtain ⟨rfl, inOrder⟩ := inOrder_of_lowerUnit neverOffHere.2 definitionRun
          exact List.forall_mem_cons.mpr ⟨inOrder, ih _ neverOffLater restRun⟩
      | code | enable => exact List.forall_mem_cons.mpr ⟨trivial, ih _ neverOffLater restRun⟩
      | disable => exact absurd rfl neverOffHere.1

end Units

/-! ## Calls -/

/-- The call runs its function itself, or it takes the next number of its unit and runs the
helper that it adds under that number. -/
inductive LoweredCall.TakesNumber {context : Context} (call : LoweredCall context) : Prop where
  | direct {arguments : List Code.Expr} (isCode : call.code = .callLines call.callee arguments)
  | throughHelper {helper : Helper} {arguments : List Code.Expr}
      (isCode : call.code = .callLines helper.name (arguments ++ [.atom "data__"]))
      (unit : helper.unit = call.site.unit) (callee : helper.callee = call.callee)
      (hasNumber : helper.HasNumber (call.before.calls + 1))
      (counted : call.before.calls < call.after.calls)
      (kept : call.after.isOn = true → helper ∈ call.after.helpers)

theorem LoweringState.allowsCalls_counted (site : Site) (exprs : List Expr) :
    LoweringState.AllowsCalls site exprs fun before after => before.calls ≤ after.calls where
  refl _ := Nat.le_refl _
  trans := Nat.le_trans
  counted _ := Nat.le_succ _
  helped _ _ _ _ _ _ := Nat.le_refl _

theorem LoweredCall.takesNumber {context : Context} (call : LoweredCall context) :
    call.TakesNumber := by
  have run := call.run
  rw [Expr.lower, call.inContext, call.meaning, Lower.need_some_bind] at run
  obtain ⟨-, binding, -, lowered⟩ := CallResolution.lowered_of_lower run
  generalize isCode : call.code = code at lowered
  generalize isAfter : call.after = after at lowered
  cases lowered with
  | direct isPlain added => exact .direct isCode
  | @throughHelper number parts counted put _ isAccessor numbered added helped =>
      cases numbered
      -- The arguments are lowered after the number is taken, and may take numbers of their own.
      have allows := LoweringState.allowsCalls_counted call.site
        (Argument.partsList call.arguments)
      have grown := CallParts.addAll_moves allows
        (Argument.supplies_moves allows call.arguments (call.depth + 1) (List.Subset.refl _))
        _ _ _ _ _ _ _ _ added
      have counts : call.before.calls < call.after.calls := by
        rw [isAfter]
        cases helped
        dsimp only
        split <;> exact grown
      refine .throughHelper isCode rfl rfl rfl counts ?_
      rw [isAfter]
      exact Lower.mem_of_addHelper helped

/-! ## Compiled libraries -/

/-- In a compiled library whose output is never switched off, each call through a helper takes
the next number of its unit for it, and every helper that is called has been defined before.
If the names of helpers can be read in one way, each of them is defined once. -/
theorem Library.helpers_defined_once {library : Library} {withConversions : Bool}
    {layout : Code.Layout} {text : String} (neverOff : library.NeverOff)
    (compiled : library.compile withConversions layout = .ok text) :
    ∃ context notes file, Context.resolve library withConversions = .ok context ∧
      library.check context = .ok notes ∧ library.lower context = .ok file ∧
      text = file.render layout ∧ (∀ call : LoweredCall context, call.TakesNumber) ∧
      (∀ before routine after, file.routines = before ++ routine :: after →
        ∀ name ∈ routine.helpers,
          name ∈ file.helpers.map Helper.name ∧ ∃ earlier ∈ before, earlier.name = name) ∧
      (∀ definition, .unit definition ∈ file.elements →
        definition.helpers.Pairwise Helper.Apart ∧ ∀ helper ∈ definition.helpers,
          helper.unit = definition.name ∧ ∃ number, helper.HasNumber number) ∧
      (file.NamesApart → (file.helpers.map Helper.name).Nodup ∧
        ∀ helper ∈ file.helpers, (file.routines.map Code.Routine.name).count helper.name = 1) := by
  obtain ⟨context, notes, file, resolved, checked, lowered, rendered⟩ :=
    Library.compile_ok compiled
  have inOrder : ∀ element ∈ file.elements, element.InOrder :=
    Context.unitsInOrder_of_lowerElements [] neverOff (Library.lower_ok lowered).2
  refine ⟨context, notes, file, resolved, checked, lowered, rendered, LoweredCall.takesNumber, ?_,
    ?_, ?_⟩
  · intro before routine after split name isCalled
    have routinesInOrder := Code.File.routines_inOrder inOrder
    have isHelper := Code.File.called_mem_helpers inOrder routine
    rw [split, Code.Routine.inOrder_append, List.nil_append] at routinesInOrder
    rw [split] at isHelper
    exact ⟨isHelper (by simp) name isCalled, routinesInOrder.2.1 name isCalled⟩
  · intro definition isElement
    have ofUnit : definition.InOrder := inOrder _ isElement
    exact ⟨ofUnit.apart, ofUnit.numbered⟩
  · intro apart
    exact ⟨Code.File.nodup_helpers inOrder apart, fun helper member =>
      Code.File.count_helper inOrder apart member⟩

/-- A program in which an argument of a call through a helper is another such call. -/
def nesting : Library where
  elements :=
    [.function
        { name := "Split", returnType := "INT"
          vars := [{ VarDecl.simple "Whole" "INT" with kind := .input },
            { VarDecl.simple "Rest" "INT" with kind := .output }]
          body := [.copy "Split" "Whole"] },
      .program
        { name := "Main"
          vars := [VarDecl.simple "a" "INT", VarDecl.simple "b" "INT", VarDecl.simple "c" "INT"]
          body := [.assign (.named "a") (.call "Split"
            [.positional (.call "Split"
                [.positional (.named "a"), .output false "Rest" (.named "b")]),
              .output false "Rest" (.named "c")])] }]

theorem nesting_compiles : (nesting.compile false {}).isOk = true := by
  rw [Library.compile, Context.resolve, FunctionTable.standard_eq_grouped]
  decide +kernel

theorem nesting_neverOff : nesting.NeverOff := by
  simp [Library.NeverOff, nesting, Element.body, Stmt.allList, Stmt.all, Stmt.copy]

/-- What the code of the library has to tell helpers apart: its units, its functions, and the
unit and the function that each helper is for. -/
theorem nesting_names : ((Context.resolve nesting false).toOption.bind fun context =>
    (nesting.lower context).toOption.map fun file =>
      (file.types.length, file.elements.filterMap Code.Element.unitName?,
        file.elements.filterMap Code.Element.functionName?,
        file.helpers.map fun helper => (helper.unit, helper.callee))) =
      some (0, ["MAIN"], ["SPLIT"], [("MAIN", "SPLIT"), ("MAIN", "SPLIT")]) := by
  rw [Context.resolve, FunctionTable.standard_eq_grouped]
  decide +kernel

/-- A file without checks whose only function and whose only unit with helpers for it are
known by names that differ in length. -/
theorem nesting_apart {file : Code.File} (types : file.types.length = 0)
    (units : file.elements.filterMap Code.Element.unitName? = ["MAIN"])
    (functions : file.elements.filterMap Code.Element.functionName? = ["SPLIT"])
    (helpers : (file.helpers.map fun helper => (helper.unit, helper.callee)) =
      [("MAIN", "SPLIT"), ("MAIN", "SPLIT")]) : file.NamesApart := by
  have parts : ∀ helper ∈ file.helpers, helper.unit = "MAIN" ∧ helper.callee = "SPLIT" := by
    intro helper member
    have isPart := List.mem_map_of_mem
      (f := fun helper : Helper => (helper.unit, helper.callee)) member
    rw [helpers] at isPart
    simpa using isPart
  refine ⟨?_, fun first isFirst second isSecond _ _ _ => ?_, fun decl member => ?_,
    fun name member helper isHelper number same => ?_⟩
  · rw [units]
    decide
  · obtain ⟨unit, callee⟩ := parts first isFirst
    obtain ⟨otherUnit, otherCallee⟩ := parts second isSecond
    exact ⟨unit.trans otherUnit.symm, callee.trans otherCallee.symm⟩
  · rw [List.eq_nil_of_length_eq_zero types] at member
    cases member
  · rw [functions, List.mem_singleton] at member
    obtain ⟨unit, callee⟩ := parts helper isHelper
    have lengths := congrArg String.length (member.symm.trans same)
    rw [Helper.stem, unit, callee, String.length_append] at lengths
    have long : "SPLIT".length < ("__" ++ "MAIN" ++ "_" ++ "SPLIT").length := by decide
    omega

theorem Library.helpers_defined_once_nesting :
    nesting.NeverOff ∧ ∃ text file, nesting.compile false {} = .ok text ∧
      text = Code.File.render {} file ∧ file.helpers.length = 2 ∧
      (file.helpers.map Helper.name).Nodup ∧
      ∀ helper ∈ file.helpers, (file.routines.map Code.Routine.name).count helper.name = 1 := by
  obtain ⟨text, compiled⟩ := exists_ok_of_isOk nesting_compiles
  obtain ⟨context, notes, file, resolved, -, lowered, rendered, -, -, -, once⟩ :=
    Library.helpers_defined_once nesting_neverOff compiled
  have names := nesting_names
  rw [resolved] at names
  simp only [Except.toOption, Option.bind_some, lowered, Option.map_some, Option.some.injEq,
    Prod.mk.injEq] at names
  obtain ⟨types, units, functions, helpers⟩ := names
  have two : file.helpers.length = 2 := by
    have sameLength := congrArg List.length helpers
    rwa [List.length_map] at sameLength
  obtain ⟨differ, defined⟩ := once (nesting_apart types units functions helpers)
  exact ⟨nesting_neverOff, text, file, compiled, rendered, two, differ, defined⟩

def clashing : Library where
  elements :=
    [.function
        { name := "C", returnType := "INT"
          vars := [{ VarDecl.simple "Rest" "INT" with kind := .output }]
          body := [.copy "C" "Rest"] },
      .function
        { name := "B_C", returnType := "INT"
          vars := [{ VarDecl.simple "Rest" "INT" with kind := .output }]
          body := [.copy "B_C" "Rest"] },
      .program
        { name := "A"
          vars := [VarDecl.simple "x" "INT"]
          body := [.assign (.named "x") (.call "B_C" [.output false "Rest" (.named "x")])] },
      .program
        { name := "A_B"
          vars := [VarDecl.simple "x" "INT"]
          body := [.assign (.named "x") (.call "C" [.output false "Rest" (.named "x")])] }]

theorem clashing_neverOff : clashing.NeverOff := by
  simp [Library.NeverOff, clashing, Element.body, Stmt.allList, Stmt.all, Stmt.copy]

theorem clashing_names : (clashing.accepted?.bind fun context =>
    (clashing.lower context).toOption.map fun file =>
      (file.routines.map Code.Routine.name, file.routines.map Code.Routine.helpers)) =
      some (["C", "B_C", "A_init__", "__A_B_C1", "A_body__", "A_B_init__", "__A_B_C1",
          "A_B_body__"],
        [[], [], [], [], ["__A_B_C1"], [], [], ["__A_B_C1"]]) := by
  rw [Library.accepted?, Context.resolve, FunctionTable.standard_eq_grouped]
  decide +kernel

/-- The code of an accepted library may define two helpers of one name, each of them called by
a body of its own. -/
theorem Library.helpers_collide :
    clashing.NeverOff ∧ ∃ context notes file, Context.resolve clashing = .ok context ∧
      clashing.check context = .ok notes ∧ clashing.lower context = .ok file ∧
      (file.routines.map Code.Routine.name).count "__A_B_C1" = 2 ∧
      (file.routines.flatMap Code.Routine.helpers).count "__A_B_C1" = 2 := by
  obtain ⟨context, accepted, found⟩ := Option.bind_eq_some_iff.mp clashing_names
  obtain ⟨resolved, notes, checked⟩ := Library.of_accepted? accepted
  obtain ⟨file, isFile, found⟩ := Option.map_eq_some_iff.mp found
  simp only [Prod.mk.injEq] at found
  obtain ⟨names, helpers⟩ := found
  refine ⟨clashing_neverOff, context, notes, file, resolved, checked, eq_ok_of_toOption isFile,
    ?_, ?_⟩
  · rw [names]
    decide
  · rw [List.flatMap_def, helpers]
    decide

end StructuredText
