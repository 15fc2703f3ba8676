import StructuredText.Proofs.Call.Output
import StructuredText.Proofs.Lowering.Passing

/-!
# Outputs that are taken negated

An output argument may ask for the negated value.  An invocation copies the value of the
output to the variable that is given, and so does the helper of a call; both negate it if
the argument asks for it.  A call without a helper passes a pointer to the variable, and
the function stores the value there as it is.
-/

set_option autoImplicit false

namespace StructuredText

/-! ## Values of outputs -/

def Code.Expr.negatedIf (isNegated : Bool) (value : Code.Expr) : Code.Expr :=
  if isNegated then .unary .logicalNot value else value

def Code.Store.Sets (site : Site) (target : Variable) (value : Code.Expr) (store : Code.Store) :
    Prop :=
  ∃ place type, target.LowersTo site place ∧
    site.context.variableType site.scope target = .ok type ∧ store = ⟨place, value.checked type⟩

namespace BoundParameter

variable {site : Site} {arguments : List Argument} {bound : BoundParameter} {index : Nat}
  {isNegated : Bool} {source : Ident} {target : Variable}

structure TakesOutput (bound : BoundParameter) (index : Nat) (source : Ident) (target : Variable) :
    Prop where
  name : (bound.parameter.name == source) = true
  isOutput : bound.parameter.isOutput = true
  actual : bound.actual = some (.output index target)

theorem TakesOutput.target?_eq (takes : bound.TakesOutput index source target) :
    bound.target? = some target := by
  have isOutput := takes.isOutput
  cases direction : bound.parameter.direction with
  | output | inOut => simp [target?, direction, takes.actual]
  | input | external => simp [Parameter.isOutput, direction] at isOutput

theorem TakesOutput.byPointer (takes : bound.TakesOutput index source target) :
    (CallSlot.given bound).formal.byPointer = true := by
  have isOutput := takes.isOutput
  cases direction : bound.parameter.direction with
  | output | inOut | external => simp [CallSlot.formal, direction]
  | input => simp [Parameter.isOutput, direction] at isOutput

theorem TakesOutput.hasDestination {binding : Binding}
    (takes : bound.TakesOutput index source target) (isBound : bound ∈ binding.parameters) :
    binding.hasDestination = true := by
  refine List.any_eq_true.mpr ⟨bound, isBound, ?_⟩
  simp [BoundParameter.hasDestination, takes.isOutput, takes.actual]

variable (prevails : Argument.Prevails arguments index isNegated source target)
  (takes : bound.TakesOutput index source target)

include prevails takes

theorem sets_of_keptOut {store : Code.Store} (keptOut : bound.KeptOut site arguments store) :
    store.Sets site target
      ((Code.Expr.atom ("__tmp_" ++ bound.cName)).negatedIf isNegated) := by
  obtain ⟨other, place, type, isTarget, placed, typed, stored⟩ := keptOut.exists_target
  rw [takes.target?_eq] at isTarget
  cases isTarget
  rw [kept, prevails.isNegated_eq takes.name] at stored
  exact ⟨place, type, placed, typed, stored⟩

theorem sets_of_copiedOut {access : InstanceAccess} {store : Code.Store}
    (copiedOut : bound.CopiedOut site access arguments store) :
    store.Sets site target
      ((Code.Expr.load (access.member bound.parameter.name.upper)).negatedIf isNegated) := by
  obtain ⟨other, place, type, isTarget, placed, typed, stored⟩ := copiedOut.exists_target
  rw [takes.target?_eq] at isTarget
  cases isTarget
  rw [outcome, prevails.isNegated_eq takes.name] at stored
  exact ⟨place, type, placed, typed, stored⟩

end BoundParameter

/-! ## Calls -/

/-- The code of a call brings what the function gives out for a parameter to a variable.
Through a pointer to the variable it comes as it is; a helper passes a pointer to a variable
of its own and then stores the value, negated or as it is. -/
inductive Code.Expr.Delivers (site : Site) (callee : String) (slots : List CallSlot)
    (after : LoweringState) (bound : BoundParameter) (target : Variable) :
    (isNegated : Bool) → Code.Expr → Prop where
  | byPointer {codes : List Code.Expr} {place : Code.Place} (placed : target.LowersTo site place)
      (passed : (.given bound, .pointer place) ∈ slots.zip codes) :
      Delivers site callee slots after bound target false (.callLines callee codes)
  | throughHelper {isNegated : Bool} {helper : Code.Helper} {values : List Code.Expr}
      {store : Code.Store} (kept : after.isOn = true → helper ∈ after.helpers)
      (calls : helper.callee = callee)
      (passed : (.given bound, .unary .address (.atom ("__tmp_" ++ bound.cName))) ∈
        slots.zip helper.arguments)
      (isStored : store ∈ helper.stores)
      (sets : store.Sets site target
        ((Code.Expr.atom ("__tmp_" ++ bound.cName)).negatedIf isNegated)) :
      Delivers site callee slots after bound target isNegated
        (.callLines helper.name (values ++ [.atom "data__"]))

/-- Each member of a list that is related to another one has a counterpart at its place. -/
theorem exists_zip_of_mem_left {α β : Type} {related : α → β → Prop} {left : List α}
    {right : List β} (all : List.Forall₂ related left right) :
    ∀ one ∈ left, ∃ other, (one, other) ∈ left.zip right ∧ related one other := by
  induction all with
  | nil => exact fun _ member => absurd member List.not_mem_nil
  | @cons first second left right isRelated rest ih =>
      intro one member
      rcases List.mem_cons.mp member with rfl | inRest
      · exact ⟨second, List.mem_cons_self .., isRelated⟩
      · obtain ⟨other, isPaired, otherRelated⟩ := ih one inRest
        exact ⟨other, List.mem_cons_of_mem _ isPaired, otherRelated⟩

theorem Code.Expr.PassesOut.delivers {site : Site} {arguments : List Argument}
    {binding : Binding} {callee : String} {number : Nat} {after : LoweringState}
    {code : Code.Expr} {index : Nat} {isNegated : Bool} {source : Ident} {target : Variable}
    {bound : BoundParameter}
    (passesOut : code.PassesOut site arguments binding callee
      (CallSlot.ofBound number false binding.parameters) after)
    (prevails : Argument.Prevails arguments index isNegated source target)
    (isBound : bound ∈ binding.parameters) (takes : bound.TakesOutput index source target) :
    code.Delivers site callee (CallSlot.ofBound number false binding.parameters) after bound
      target (isNegated && site.style == .accessor) := by
  have isSlot := @CallSlot.given_mem_ofBound number bound binding.parameters isBound false
  cases passesOut with
  | direct isPlain points =>
      have isDirect : (site.style == .accessor) = false := by
        rw [beq_eq_false_iff_ne]
        intro isAccessor
        have noDestination := isPlain isAccessor
        rw [takes.hasDestination isBound] at noDestination
        cases noDestination
      rw [isDirect, Bool.and_false]
      obtain ⟨argument, passed, pointsOut⟩ := exists_zip_of_mem_left points _ isSlot
      cases pointsOut takes.byPointer with
      | given isTarget placed =>
          rw [takes.target?_eq] at isTarget
          cases isTarget
          exact .byPointer placed passed
      | nothing isOutput isOpen =>
          rw [takes.actual] at isOpen
          cases isOpen
  | throughHelper isAccessor kept calls relays =>
      rw [isAccessor, beq_self_eq_true, Bool.and_true]
      obtain ⟨argument, passed, relaysOut⟩ := exists_zip_of_mem_left relays _ isSlot
      cases relaysOut takes.byPointer with
      | given keptOut isStored =>
          exact .throughHelper kept calls passed isStored
            (BoundParameter.sets_of_keptOut prevails takes keptOut)
      | nothing isOutput isOpen =>
          rw [takes.actual] at isOpen
          cases isOpen

/-! ## What becomes of an output argument -/

/-- The code of an invocation, if it is within the limits of generated code, copies the output
that an argument takes from the variable of the instance, negated if asked for. -/
def Site.InvokeTakes (site : Site) (decls : List TypeDecl) (block : Ident)
    (arguments : List Argument) (index : Nat) (isNegated : Bool) (source : Ident)
    (target : Variable) : Prop :=
  ∃ signature binding bound, site.blockSignature? block = some signature ∧
    Binding.make signature.parameters arguments = .ok binding ∧ bound ∈ binding.parameters ∧
    bound.TakesOutput index source target ∧
    ∀ (depth : Nat) (around : List Breakable) (state : LoweringState),
      (∃ before run copiesOut after,
        (Stmt.invoke block arguments).lower site depth around state =
          .ok (.invoke before run copiesOut, after) ∧
        ∃ store ∈ copiesOut, store.Sets site target
          ((Code.Expr.load ((site.instanceAccess block).member
            bound.parameter.name.upper)).negatedIf isNegated)) ∨
      ∃ fault, (Stmt.invoke block arguments).lower site depth around state = .error fault ∧
        fault.IsLimit decls

/-- The code of a call, if it is within the limits of generated code, brings the output that an
argument takes to its variable: negated if asked for, but only where the unit has accessors. -/
def Site.CallTakes (site : Site) (decls : List TypeDecl) (function : Ident)
    (arguments : List Argument) (index : Nat) (isNegated : Bool) (source : Ident)
    (target : Variable) : Prop :=
  ∃ resolution binding bound,
    CallResolution.of? site.context site.scope function arguments = some resolution ∧
    Binding.make resolution.signature.parameters arguments = .ok binding ∧
    bound ∈ binding.parameters ∧ bound.TakesOutput index source target ∧
    ∀ (depth : Nat) (state : LoweringState),
      (∃ code after, (Expr.call function arguments).lower site depth state = .ok (code, after) ∧
        code.Delivers site (resolution.signature.cName resolution.isOverloaded)
          (CallSlot.ofBound resolution.count false binding.parameters) after bound target
          (isNegated && site.style == .accessor)) ∨
      ∃ fault, (Expr.call function arguments).lower site depth state = .error fault ∧
        fault.IsLimit decls

section Resolved

variable {context : Context} {library : Library} {withConversions : Bool}
  (resolved : Context.resolve library withConversions = .ok context) {site : Site}
  (inContext : site.context = context) {arguments : List Argument} {index : Nat}
  {isNegated : Bool} {source : Ident} {target : Variable}
  (prevails : Argument.Prevails arguments index isNegated source target)

include resolved inContext

theorem Site.parametersDeclared : site.context.ParametersDeclaredIn library.typeDecls := by
  rw [inContext]
  exact fun name signature member => Context.parameters_declared resolved member

include prevails

theorem Site.invokeTakes_of_accepted {block : Ident}
    (accepted : Stmt.Accepted context site.scope (.invoke block arguments)) :
    site.InvokeTakes library.typeDecls block arguments index isNegated source target := by
  obtain ⟨-, type, signature, binding, isInstance, declared, made⟩ := Stmt.accepted_invoke accepted
  have found : site.blockSignature? block = some signature := by
    rw [Site.blockSignature?, isInstance, inContext]
    exact declared
  have single := (Site.single_of_blockSignature? resolved inContext found made).2
  have plain : Parameter.GroupLast signature.parameters := .plain fun parameter member =>
    (Context.isPlain_block? resolved declared parameter member).1
  obtain ⟨bound, isBound, name, isOutput, isActual⟩ :=
    Binding.exists_bound_of_prevails plain prevails made
  have takes : bound.TakesOutput index source target := ⟨name, isOutput, isActual⟩
  refine ⟨signature, binding, bound, found, made, isBound, takes, fun depth around state => ?_⟩
  have fails : Lower.FailsOnly (Fault.IsLimit library.typeDecls)
      ((Stmt.invoke block arguments).lower site depth around) :=
    Stmt.lower_failsOnly (Site.parametersDeclared resolved inContext) (inContext ▸ accepted)
  rw [Stmt.lower] at fails ⊢
  refine (fails state).cases.imp ?_ id
  rintro ⟨⟨code, after⟩, run⟩
  obtain ⟨other, otherBinding, otherFound, otherMade, before, copiesOut, rfl, -, copiedOut, -⟩ :=
    Site.invokes_of_lowerInvoke resolved inContext run
  rw [found] at otherFound
  cases otherFound
  rw [made] at otherMade
  cases otherMade
  have isCopied : bound ∈ binding.parameters.filter
      fun bound => bound.passesOut && !bound.isGivenAsValue := by
    refine List.mem_filter.mpr ⟨isBound, ?_⟩
    cases direction : bound.parameter.direction <;>
      simp [BoundParameter.passesOut, BoundParameter.isGivenAsValue, isOutput, isActual, direction]
  obtain ⟨store, passed, copied⟩ := exists_zip_of_mem_left copiedOut bound isCopied
  exact ⟨before, _, copiesOut, after, run, store, (List.of_mem_zip passed).2,
    BoundParameter.sets_of_copiedOut prevails takes copied⟩

theorem Site.callTakes_of_accepted {function : Ident}
    (accepted : Expr.Accepted context site.scope (.call function arguments)) :
    site.CallTakes library.typeDecls function arguments index isNegated source target := by
  obtain ⟨resolution, meaning⟩ := accepted.resolution
  obtain ⟨overloads, declared, member, -, binding, made, -⟩ :=
    CallResolution.of?_eq_some meaning
  have isDeclaration : resolution.signature ∈ context.functions.declarationsOf function := by
    rw [FunctionTable.declarationsOf, declared]
    exact member
  have groupLast := Context.groupLast_of_resolve resolved isDeclaration
  obtain ⟨bound, isBound, name, isOutput, isActual⟩ :=
    Binding.exists_bound_of_prevails groupLast prevails made
  have takes : bound.TakesOutput index source target := ⟨name, isOutput, isActual⟩
  refine ⟨resolution, binding, bound, inContext ▸ meaning, made, isBound, takes,
    fun depth state => ?_⟩
  have fails : Lower.FailsOnly (Fault.IsLimit library.typeDecls)
      ((Expr.call function arguments).lower site depth) :=
    Expr.lower_failsOnly (Site.parametersDeclared resolved inContext) (inContext ▸ accepted)
  refine (fails state).cases.imp ?_ id
  rintro ⟨⟨code, after⟩, run⟩
  have callRun := run
  rw [Expr.lower, inContext, meaning, Lower.need_some_bind] at callRun
  exact ⟨code, after, run,
    (CallResolution.passesOut_of_lower made groupLast callRun).delivers prevails isBound takes⟩

/-- Of an accepted invocation or call that takes an output, wherever it stands, the code brings
the value of the output to the variable that is given, or one of the limits of generated code
is met.  The value comes negated just if an output of its name asks for it, with one exception:
in a unit whose variables have names, calls pass a pointer to the variable, through which the
value comes as it is. -/
theorem Site.outputs_negated :
    (∀ block, Stmt.Accepted context site.scope (.invoke block arguments) →
      site.InvokeTakes library.typeDecls block arguments index isNegated source target) ∧
    ∀ function, Expr.Accepted context site.scope (.call function arguments) →
      site.CallTakes library.typeDecls function arguments index isNegated source target :=
  ⟨fun _ => Site.invokeTakes_of_accepted resolved inContext prevails,
    fun _ => Site.callTakes_of_accepted resolved inContext prevails⟩

end Resolved

def silence : List Argument := [.output true "Active" (.named "quiet")]

/-- A function, a function block and a program that takes the output of either negated. -/
def silencing : Library where
  elements :=
    [.function
        { name := "Alarm", returnType := "BOOL"
          vars := [{ VarDecl.simple "Active" "BOOL" with kind := .output }]
          body := [.copy "Alarm" "Active"] },
      .functionBlock
        { name := "Siren"
          vars := [{ VarDecl.simple "Active" "BOOL" with kind := .output }]
          body := [] },
      .program
        { name := "Main"
          vars :=
            [VarDecl.simple "quiet" "BOOL", VarDecl.simple "done" "BOOL",
              VarDecl.instanceOf "siren" "Siren"]
          body := [.invoke "siren" silence, .assign (.named "done") (.call "Alarm" silence)] }]

def silenceSite (context : Context) : Site :=
  { context, scope := Element.innerScope context ScopeStack.new silencing.elements[2]
    style := .accessor, unit := "MAIN" }

theorem silence_prevails :
    Argument.Prevails silence 0 true "Active" (.named "quiet") where
  given := ⟨true, rfl⟩
  last := fun _ member => absurd member List.not_mem_nil
  asked := iff_of_true rfl ⟨_, _, List.mem_singleton_self _, beq_self_eq_true _⟩

theorem silencing_isAccepted : silencing.accepted?.isSome = true := by
  rw [Library.accepted?, Context.resolve, FunctionTable.standard_eq_grouped]
  decide +kernel

theorem Site.outputs_negated_silencing :
    ∃ context, Context.resolve silencing = .ok context ∧
      Argument.Prevails silence 0 true "Active" (.named "quiet") ∧
      Stmt.Accepted context (silenceSite context).scope (.invoke "siren" silence) ∧
      Expr.Accepted context (silenceSite context).scope (.call "Alarm" silence) ∧
      (silenceSite context).InvokeTakes silencing.typeDecls "siren" silence 0 true "Active"
        (.named "quiet") ∧
      (silenceSite context).CallTakes silencing.typeDecls "Alarm" silence 0 true "Active"
        (.named "quiet") := by
  obtain ⟨context, isAccepted⟩ := Option.isSome_iff_exists.mp silencing_isAccepted
  obtain ⟨resolved, notes, checked⟩ := Library.of_accepted? isAccepted
  have accepted : Element.Accepted context silencing.elements[2] :=
    Library.accepted_of_check checked _ (List.getElem_mem _)
  have invokeAccepted : Stmt.Accepted context (silenceSite context).scope
      (.invoke "siren" silence) :=
    Stmt.accepted_allList accepted.body _ (List.mem_cons_self ..)
  have assignAccepted : Stmt.Accepted context (silenceSite context).scope
      (.assign (.named "done") (.call "Alarm" silence)) :=
    Stmt.accepted_allList accepted.body _ (List.mem_cons_of_mem _ (List.mem_cons_self ..))
  have callAccepted := (Stmt.accepted_assign assignAccepted).2
  obtain ⟨invokes, calls⟩ :=
    Site.outputs_negated resolved (rfl : (silenceSite context).context = context) silence_prevails
  exact ⟨context, resolved, silence_prevails, invokeAccepted, callAccepted,
    invokes _ invokeAccepted, calls _ callAccepted⟩

def hushing : Library where
  elements :=
    [.function
        { name := "Alarm", returnType := "BOOL"
          vars := [{ VarDecl.simple "Active" "BOOL" with kind := .output }]
          body := [.copy "Alarm" "Active"] },
      .function
        { name := "Hush", returnType := "BOOL", vars := [VarDecl.simple "quiet" "BOOL"]
          body := [.assign (.named "Hush") (.call "Alarm" silence)] }]

/-- The text of a body that stores what the call gives back and passes a pointer for the output
that it takes. -/
def hushText : List Code.Piece :=
  [.margin 1, .text "HUSH", .text " = ", .text "ALARM(", .text "(BOOL)",
    .text "__BOOL_LITERAL(TRUE)", .text ",\n", .margin 2, .text "NULL", .text ",\n", .margin 2,
    .text "&(QUIET", .text ")", .text ")", .text ";\n"]

theorem hushing_text : (hushing.accepted?.bind fun context => do
    let file ← (hushing.lower context).toOption
    let definition ← (Code.functionDefs file.elements).getLast?
    return decide (Code.Stmt.printList 1 definition.body = hushText)) = some true := by
  rw [Library.accepted?, Context.resolve, FunctionTable.standard_eq_grouped]
  decide +kernel

/-- The code of an accepted call that takes an output negated may negate nothing. -/
theorem Site.output_not_negated :
    ∃ context notes file, Context.resolve hushing = .ok context ∧
      hushing.check context = .ok notes ∧ hushing.lower context = .ok file ∧
      ∃ definition ∈ Code.functionDefs file.elements,
        Code.Stmt.printList 1 definition.body = hushText ∧ .text "&(QUIET" ∈ hushText ∧
        .text (Code.UnaryOp.symbol .logicalNot) ∉ hushText := by
  obtain ⟨context, accepted, found⟩ := Option.bind_eq_some_iff.mp hushing_text
  obtain ⟨resolved, notes, checked⟩ := Library.of_accepted? accepted
  obtain ⟨file, isFile, found⟩ := Option.bind_eq_some_iff.mp found
  obtain ⟨definition, isDefinition, found⟩ := Option.bind_eq_some_iff.mp found
  simp only [Option.pure_def, Option.some.injEq, decide_eq_true_eq] at found
  exact ⟨context, notes, file, resolved, checked, eq_ok_of_toOption isFile, definition,
    List.mem_of_getLast? isDefinition, found, by decide, by decide⟩

end StructuredText
