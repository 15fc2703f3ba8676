import StructuredText.Proofs.Analysis.Accepted
import StructuredText.Proofs.Analysis.Resolved
import StructuredText.Proofs.Lowering.Run
import StructuredText.Proofs.Lowering.Sequence
import StructuredText.Tree.Build

/-!
# Names of functions in definitions and in calls

A definition gets its name from the signature that belongs to its declaration, and a
call names the signature that analysis chose.  Both ask the function table whether the
name is overloaded, so a call names the very function that is defined.
-/

set_option autoImplicit false

namespace StructuredText

/-! ## Calls -/

/-- What analysis notes for a call: the type of the expression, then the declaration that
the call means, then what it notes for the arguments. -/
theorem Expr.notes_judge_call {context : Context} {scope : Scope} (function : Ident)
    (arguments : List Argument) :
    ((Expr.call function arguments).judge context scope).findings.notes =
      .expr ((Expr.call function arguments).type? context scope) ::
        .call function (CallResolution.of? context scope function arguments) ::
          (Argument.judgeList context scope arguments).2.notes := by
  rw [Expr.type?, Expr.judge]
  unfold CallResolution.of?
  cases context.functions.overloads? function with
  | none => simp
  | some overloads =>
      by_cases allTyped :
          (Argument.judgeList context scope arguments).1.all Option.isSome = true
      · cases resolved : CallResolution.resolve function overloads arguments
            (Argument.judgeList context scope arguments).1 with
        | ok resolution => simp [allTyped, resolved, Except.toOption]
        | error fault => simp [allTyped, resolved, Except.toOption]
      · simp [allTyped]

/-- A lowered call that runs a function: it names the function itself, or a helper of the
unit that calls the function.  The helper is kept if the output is switched on. -/
inductive Code.Expr.Runs (unit callee : String) (after : LoweringState) : Code.Expr → Prop where
  | direct (arguments : List Code.Expr) : Runs unit callee after (.callLines callee arguments)
  | throughHelper {helper : Code.Helper} (arguments : List Code.Expr) (number : Nat)
      (named : helper.name = "__" ++ unit ++ "_" ++ callee ++ toString number)
      (calls : helper.callee = callee) (kept : after.isOn = true → helper ∈ after.helpers) :
      Runs unit callee after (.callLines helper.name arguments)

theorem Lower.mem_of_addHelper {helper : Code.Helper} {state after : LoweringState} {done : Unit}
    (run : Lower.addHelper helper state = .ok (done, after)) :
    after.isOn = true → helper ∈ after.helpers := by
  intro isOn
  cases run
  by_cases wasOn : state.isOn = true
  · simp [wasOn]
  · simp [wasOn] at isOn

theorem CallResolution.runs_of_lower {site : Site} {depth : Nat} {resolution : CallResolution}
    {function : Ident} {arguments : List Argument} {supplies : List Supply}
    {state after : LoweringState} {code : Code.Expr}
    (run : resolution.lower site depth function arguments supplies state = .ok (code, after)) :
    code.Runs site.unit (resolution.signature.cName resolution.isOverloaded) after := by
  obtain ⟨-, binding, -, lowered⟩ := lowered_of_lower run
  cases lowered with
  | direct isPlain added => exact .direct _
  | @throughHelper number _ _ _ _ isAccessor numbered added helped =>
      exact .throughHelper _ number rfl rfl (Lower.mem_of_addHelper helped)

theorem Context.name_of_mem_declarations {context : Context} {library : Library}
    {withConversions : Bool} (resolved : Context.resolve library withConversions = .ok context)
    {name : Ident} {signature : FunctionSignature}
    (member : signature ∈ context.functions.declarationsOf name) :
    (signature.name == name) = true := by
  obtain ⟨signatures, -, declarations⟩ := Context.functions_declared resolved
  rw [declarations, ← List.filter_append] at member
  exact (List.mem_filter.mp member).2

/-- A call that means a declaration takes it to be overloaded if the name of the
declaration is. -/
theorem CallResolution.isOverloaded_eq {context : Context} {library : Library}
    {withConversions : Bool} (resolved : Context.resolve library withConversions = .ok context)
    {scope : Scope} {function : Ident} {arguments : List Argument} {resolution : CallResolution}
    (found : CallResolution.of? context scope function arguments = some resolution) :
    resolution.isOverloaded = context.functions.isOverloaded resolution.signature.name := by
  obtain ⟨overloads, declared, member, overloaded, -⟩ := CallResolution.of?_eq_some found
  have isDeclaration : resolution.signature ∈ context.functions.declarationsOf function := by
    rw [FunctionTable.declarationsOf, declared]
    exact member
  have sameName := Context.name_of_mem_declarations resolved isDeclaration
  have sameOverloads : context.functions.overloads? resolution.signature.name =
      some overloads := by
    rw [← declared]
    exact Table.get?_congr _ sameName
  rw [overloaded, FunctionTable.isOverloaded, sameOverloads, Option.any_some]

/-! ## Definitions -/

/-- The functions that lowered elements define, in order. -/
def Code.functionDefs (elements : List Code.Element) : List Code.FunctionDef :=
  elements.filterMap fun
    | .function definition => some definition
    | _ => none

/-- The definition has the heading that a signature asks for. -/
structure Code.FunctionDef.Heads (context : Context) (signature : FunctionSignature)
    (definition : Code.FunctionDef) : Prop where
  name : definition.name = signature.cName (context.functions.isOverloaded signature.name)
  returnType : definition.returnType = signature.returnType.cName
  formals : signature.parameters.mapM Parameter.formal = .ok definition.formals

theorem FunctionDecl.heads_of_lower {context : Context} {isOn after : Bool}
    {signature : FunctionSignature} {decl : FunctionDecl} {definition : Code.FunctionDef}
    (sameName : signature.name = decl.name)
    (run : decl.lower context isOn signature = .ok (definition, after)) :
    definition.Heads context signature := by
  unfold FunctionDecl.lower at run
  obtain ⟨scope, -, run⟩ := bind_eq_ok run
  obtain ⟨formals, formalsMade, run⟩ := bind_eq_ok run
  obtain ⟨locals, -, run⟩ := bind_eq_ok run
  obtain ⟨resultValue, -, run⟩ := bind_eq_ok run
  obtain ⟨lowered, -, run⟩ := bind_eq_ok run
  cases run
  exact ⟨by rw [sameName], rfl, formalsMade⟩

/-- A declaration that finds its signature is one more of its name, and there are enough
signatures for all of them. -/
theorem Context.count_cons_le_of_declaredSignature? {context : Context} {declared : List Ident}
    {name other : Ident} {signature : FunctionSignature}
    (found : context.declaredSignature? other (declared.count other) = some signature)
    (within : declared.count name ≤ (context.ownDeclarations name).length) :
    (other :: declared).count name ≤ (context.ownDeclarations name).length := by
  rw [Context.declaredSignature?_eq] at found
  obtain ⟨isWithin, -⟩ := List.getElem?_eq_some_iff.mp found
  rw [List.count_cons]
  split
  · next sameName =>
      have sameCount : declared.count other = declared.count name :=
        congrArg (List.countP · declared) (funext fun _ => BEq.congr_right sameName)
      rw [sameCount, context.ownDeclarations_congr sameName] at isWithin
      exact isWithin
  · exact within

/-- Every function that is lowered takes a signature of its name that none before it took. -/
theorem Context.count_le_of_lowerElements {context : Context} (name : Ident)
    {elements : List Element} :
    ∀ (declared : List Ident) (isOn : Bool) {codes : List Code.Element},
      declared.count name ≤ (context.ownDeclarations name).length →
        context.lowerElements declared isOn elements = .ok codes →
          declared.count name + (Element.declaredNames elements).count name ≤
            (context.ownDeclarations name).length := by
  induction elements with
  | nil =>
      intro declared isOn codes within _
      exact within
  | cons element elements ih =>
      intro declared isOn codes within run
      obtain ⟨code, after, rest, turn, restRun, rfl⟩ := Context.lowerElements_cons_ok run
      have withinNext : (Element.declaredNames [element] ++ declared).count name ≤
          (context.ownDeclarations name).length := by
        cases turn with
        | function found _ =>
            exact Context.count_cons_le_of_declaredSignature? found within
        | type | standardBlock | functionBlock | program | code | enable | disable => exact within
      have counted := ih _ after withinNext restRun
      rw [List.count_append] at counted
      rw [← List.singleton_append, Element.declaredNames_append, List.count_append]
      omega

/-- A library that can be lowered does not claim that a function of its own comes with the
compiler: there would be no signature for the last declaration of the name. -/
theorem Library.isUserCode_of_lower {context : Context} {library : Library}
    {withConversions : Bool} {file : Code.File}
    (resolved : Context.resolve library withConversions = .ok context)
    (lowered : library.lower context = .ok file) : library.IsUserCode := by
  refine Context.isUserCode_of_ownDeclarations resolved fun name => ?_
  have counted := Context.count_le_of_lowerElements name [] true (Nat.zero_le _)
    (Library.lower_ok lowered).2
  rwa [List.count_nil, Nat.zero_add, Element.declaredNames, List.count_reverse] at counted

section Library

variable {context : Context} {library : Library} {withConversions : Bool}
  (resolved : Context.resolve library withConversions = .ok context)

include resolved

/-- The functions from a position on are lowered under the signatures of their own
declarations, where `before` are the functions before the position. -/
theorem Context.definitions_of_lowerElements (userCode : library.IsUserCode)
    {elements : List Element} :
    ∀ (before : List FunctionDecl) (isOn : Bool) {codes : List Code.Element},
      library.functions = before ++ Library.functions { elements } →
        context.lowerElements (before.map FunctionDecl.name).reverse isOn elements = .ok codes →
          List.Forall₂
            (fun decl definition => ∃ signature isOn after,
              FunctionDecl.signature context.types context.blocks decl = .ok signature ∧
                signature ∈ context.functions.declarationsOf decl.name ∧
                decl.lower context isOn signature = .ok (definition, after))
            (Library.functions { elements }) (Code.functionDefs codes) := by
  induction elements with
  | nil =>
      intro before isOn codes _ run
      cases run
      exact .nil
  | cons element elements ih =>
      intro before isOn codes position run
      obtain ⟨code, after, rest, turn, restRun, rfl⟩ := Context.lowerElements_cons_ok run
      cases turn with
      | @function decl signature definition after found definitionRun =>
          obtain ⟨own, made, member, isOwn⟩ :=
            Context.declaredSignature?_of_resolve resolved userCode position
          rw [List.count_reverse, isOwn] at found
          rw [← Option.some.inj found] at definitionRun
          have nextPosition :
              library.functions = (before ++ [decl]) ++ Library.functions { elements } := by
            rw [List.append_assoc]
            exact position
          refine .cons ⟨own, isOn, after, made, member, definitionRun⟩
            (ih (before ++ [decl]) after nextPosition ?_)
          rw [List.map_append, List.reverse_append]
          exact restRun
      | type | standardBlock | functionBlock | program | code | enable | disable =>
          have definitions := ih before _ position restRun
          exact definitions

/-- The functions of a library are defined in the order of their declarations, each from the
signature of its own declaration. -/
theorem Library.definitions_of_lower {file : Code.File}
    (lowered : library.lower context = .ok file) :
    List.Forall₂
      (fun decl definition => ∃ signature isOn after,
        FunctionDecl.signature context.types context.blocks decl = .ok signature ∧
          signature ∈ context.functions.declarationsOf decl.name ∧
          decl.lower context isOn signature = .ok (definition, after))
      library.functions (Code.functionDefs file.elements) := by
  have userCode := Library.isUserCode_of_lower resolved lowered
  exact Context.definitions_of_lowerElements resolved userCode [] true rfl
    (Library.lower_ok lowered).2

theorem Library.heads_of_lower {file : Code.File} (lowered : library.lower context = .ok file) :
    List.Forall₂
      (fun decl definition => ∃ signature,
        FunctionDecl.signature context.types context.blocks decl = .ok signature ∧
          signature ∈ context.functions.declarationsOf decl.name ∧
          definition.Heads context signature)
      library.functions (Code.functionDefs file.elements) := by
  refine (Library.definitions_of_lower resolved lowered).imp ?_
  rintro decl definition ⟨signature, isOn, after, made, member, definitionRun⟩
  exact ⟨signature, made, member,
    FunctionDecl.heads_of_lower (FunctionDecl.signature_ok made).1 definitionRun⟩

end Library

/-! ## Compiled libraries -/

theorem Library.compile_ok {library : Library} {withConversions : Bool} {layout : Code.Layout}
    {text : String} (compiled : library.compile withConversions layout = .ok text) :
    ∃ context notes file, Context.resolve library withConversions = .ok context ∧
      library.check context = .ok notes ∧ library.lower context = .ok file ∧
      text = file.render layout := by
  obtain ⟨context, resolved, generated⟩ := bind_eq_ok compiled
  obtain ⟨notes, checked, generated⟩ := bind_eq_ok generated
  cases lowered : library.lower context with
  | error fault =>
      rw [lowered] at generated
      cases generated
  | ok file =>
      rw [lowered] at generated
      cases generated
      exact ⟨context, notes, file, resolved, checked, lowered, rfl⟩

theorem Code.FunctionDef.heading_mem_print (layout : Code.Layout) (definition : Code.FunctionDef) :
    Code.Piece.text (definition.returnType ++ " " ++ definition.name ++ "(" ++
      ", ".intercalate (definition.formals.map Code.Formal.print) ++ ")\n\x7b\n") ∈
        definition.print layout := by
  simp only [Code.FunctionDef.print, List.mem_append, List.mem_singleton, true_or, or_true]

/-- Every call that analysis resolved to a signature runs the function of the given name,
wherever the call is lowered. -/
def FunctionSignature.RunsAs (context : Context) (signature : FunctionSignature)
    (name : String) : Prop :=
  ∀ (site : Site) (depth : Nat) (function : Ident) (arguments : List Argument)
    (type : Option DataType) (resolution : CallResolution) (inner : List Note)
    (state after : LoweringState) (code : Code.Expr), site.context = context →
      ((Expr.call function arguments).judge context site.scope).findings.notes =
        .expr type :: .call function (some resolution) :: inner →
      resolution.signature = signature →
      (Expr.call function arguments).lower site depth state = .ok (code, after) →
        code.Runs site.unit name after

theorem FunctionSignature.runsAs_of_resolve {context : Context} {library : Library}
    {withConversions : Bool} (resolved : Context.resolve library withConversions = .ok context)
    (signature : FunctionSignature) :
    signature.RunsAs context
      (signature.cName (context.functions.isOverloaded signature.name)) := by
  intro site depth function arguments type resolution inner state after code inContext noted
    sameSignature run
  rw [Expr.notes_judge_call] at noted
  have found : CallResolution.of? context site.scope function arguments = some resolution := by
    simp only [List.cons.injEq, Note.call.injEq, true_and] at noted
    exact noted.2.1
  have overloaded := CallResolution.isOverloaded_eq resolved found
  rw [Expr.lower, inContext, found, Lower.need_some_bind] at run
  rw [← sameSignature, ← overloaded]
  exact CallResolution.runs_of_lower run

def picking : Library where
  elements :=
    [.function
        { name := "Pick", returnType := "INT"
          vars := [{ VarDecl.simple "X" "INT" with kind := .input }]
          body := [.copy "Pick" "X"] },
      .function
        { name := "Pick", returnType := "BOOL"
          vars := [{ VarDecl.simple "X" "BOOL" with kind := .input }]
          body := [.copy "Pick" "X"] },
      .program
        { name := "Main"
          vars := [VarDecl.simple "ready" "BOOL"]
          body := [.assign (.named "ready") (.call "Pick" [.positional (.named "ready")])] }]

theorem picking_compiles : (picking.compile false {}).isOk = true := by
  rw [Library.compile, Context.resolve, FunctionTable.standard_eq_grouped]
  decide +kernel

end StructuredText
