import StructuredText.Proofs.Analysis.Part
import StructuredText.Proofs.Call.Block
import StructuredText.Proofs.Lowering.Body
import StructuredText.Proofs.Lowering.Run
import StructuredText.Proofs.Lowering.Supply
import StructuredText.Proofs.Scope.Unit
import StructuredText.Tree.Build

/-!
# Copies around the body of a function block

An invocation copies what it is given into the variables of the instance, runs the body
of the function block and copies out again.  Both groups of copies follow the order of
the parameters, and there is one copy for each parameter that has something to copy.
A parameter that passes both ways is copied both ways if a variable is given as its
value; given as an output it is copied out only, and given a value that is no variable
it is copied in only.
-/

set_option autoImplicit false

namespace StructuredText

open Code (Store)

/-! ## Which parameters are copied -/

namespace BoundParameter

def passesIn (bound : BoundParameter) : Bool := bound.parameter.isInput && bound.actual.isSome

def passesOut (bound : BoundParameter) : Bool := bound.parameter.isOutput && bound.actual.isSome

/-- The parameter passes both ways, but what is given for it is given as an output. -/
def isGivenAsOutput (bound : BoundParameter) : Bool :=
  match bound.parameter.direction, bound.actual with
  | .inOut, some (.output ..) => true
  | _, _ => false

/-- The parameter passes both ways, but what is given for it is a value that is no variable;
a variable in brackets is none. -/
def isGivenAsValue (bound : BoundParameter) : Bool :=
  match bound.parameter.direction, bound.actual with
  | .inOut, some (.input _ (.var _)) => false
  | .inOut, some (.input ..) => true
  | _, _ => false

/-- The store puts the value that is given for the parameter into the variable of the
instance. -/
structure CopiedIn (site : Site) (access : InstanceAccess) (bound : BoundParameter)
    (store : Store) : Prop where
  exists_value : ∃ value code, bound.value? = some value ∧ value.LowersTo site code ∧
    store = ⟨access.member bound.parameter.name.upper, code.checked bound.parameter.type⟩

/-- The value of the variable of the instance, negated if the call asks for it. -/
def outcome (access : InstanceAccess) (arguments : List Argument) (bound : BoundParameter) :
    Code.Expr :=
  let value : Code.Expr := .load (access.member bound.parameter.name.upper)
  if Argument.isNegated arguments bound.parameter.name then .unary .logicalNot value else value

/-- The store puts the value of the variable of the instance into the variable that is given
for the parameter. -/
structure CopiedOut (site : Site) (access : InstanceAccess) (arguments : List Argument)
    (bound : BoundParameter) (store : Store) : Prop where
  exists_target : ∃ target place type, bound.target? = some target ∧
    target.LowersTo site place ∧ site.context.variableType site.scope target = .ok type ∧
    store = ⟨place, (bound.outcome access arguments).checked type⟩

variable {arguments : List Argument} {bound : BoundParameter}

theorem isGiven_output_isOutput {index : Nat} {target : Variable}
    (isGiven : Binding.IsGiven arguments bound)
    (isActual : bound.actual = some (.output index target)) : bound.parameter.isOutput = true := by
  cases isGiven _ isActual with
  | output _ takes => exact takes.1

theorem isGiven_input_isInput {index : Nat} {value : Expr}
    (isGiven : Binding.IsGiven arguments bound) (single : bound.parameter.isExtensible = false)
    (isActual : bound.actual = some (.input index value)) : bound.parameter.isInput = true := by
  cases isGiven _ isActual with
  | positional _ takes => exact takes.resolve_left (by simp [single])
  | named _ takes => exact (takes.resolve_left (by simp [single])).1

/-- A value is copied in for every parameter that passes values in, unless what is given for
it is given as an output. -/
theorem passesIn_iff (isGiven : Binding.IsGiven arguments bound) :
    (bound.passesIn && !bound.isGivenAsOutput) = true ↔
      bound.parameter.isInput = true ∧ ∃ index value, bound.actual = some (.input index value) := by
  cases isActual : bound.actual with
  | none => simp [passesIn, isActual]
  | some actual =>
      cases actual with
      | input index value => simp [passesIn, isGivenAsOutput, isActual]
      | output index target =>
          have isOutput := isGiven_output_isOutput isGiven isActual
          cases direction : bound.parameter.direction with
          | inOut => simp [passesIn, isGivenAsOutput, isActual, direction]
          | output => simp [passesIn, isActual, Parameter.isInput, direction]
          | input | external => simp [Parameter.isOutput, direction] at isOutput

/-- The variable that is given receives the value of every parameter that passes values out,
unless what is given for it is no variable. -/
theorem passesOut_iff (isGiven : Binding.IsGiven arguments bound)
    (single : bound.parameter.isExtensible = false) :
    (bound.passesOut && !bound.isGivenAsValue) = true ↔ bound.target?.isSome = true := by
  cases isActual : bound.actual with
  | none =>
      cases direction : bound.parameter.direction <;>
        simp [passesOut, target?, isActual, direction]
  | some actual =>
      cases direction : bound.parameter.direction with
      | input | external =>
          simp [passesOut, target?, direction, Parameter.isOutput]
      | output =>
          cases actual with
          | output index target =>
              simp [passesOut, isGivenAsValue, target?, isActual, direction, Parameter.isOutput]
          | input index value =>
              have isInput := isGiven_input_isInput isGiven single isActual
              simp [Parameter.isInput, direction] at isInput
      | inOut =>
          cases actual with
          | output index target =>
              simp [passesOut, isGivenAsValue, target?, isActual, direction, Parameter.isOutput]
          | input index value =>
              cases value <;>
                simp [passesOut, isGivenAsValue, target?, isActual, direction,
                  Parameter.isOutput]

theorem cName_of_single (noPosition : bound.position = none) :
    bound.cName = bound.parameter.name.upper := by
  rw [cName, noPosition, Option.map_none, Option.getD_none, String.append_empty]

end BoundParameter

/-! ## The copies -/

namespace InstanceAccess

variable {site : Site} {depth : Nat} {arguments : List Argument} {access : InstanceAccess}

/-- The copies in, one for each parameter that a value is given for. -/
theorem copiesIn_ok {parameters : List BoundParameter}
    (areGiven : ∀ bound ∈ parameters, Binding.IsGiven arguments bound)
    (single : ∀ bound ∈ parameters, bound.position = none) :
    ∀ {stores : List Store} {state after : LoweringState},
      access.copiesIn (Argument.supplies site depth arguments) parameters state =
        .ok (stores, after) →
      List.Forall₂ (BoundParameter.CopiedIn site access)
        (parameters.filter fun bound => bound.passesIn && !bound.isGivenAsOutput) stores := by
  induction parameters with
  | nil =>
      intro stores state after run
      cases run
      exact .nil
  | cons bound rest ih =>
      intro stores state after run
      have isGiven := areGiven bound (List.mem_cons_self ..)
      have further := @ih (fun other later => areGiven other (List.mem_cons_of_mem _ later))
        (fun other later => single other (List.mem_cons_of_mem _ later))
      rw [copiesIn] at run
      cases copied : bound.passesIn && !bound.isGivenAsOutput with
      | true =>
          obtain ⟨isInput, index, value, isActual⟩ :=
            (BoundParameter.passesIn_iff isGiven).mp copied
          rw [isActual] at run
          simp only [isInput, if_true] at run
          obtain ⟨code, middle, valueRun, run⟩ := Lower.bind_eq_ok run
          obtain ⟨later, last, restRun, run⟩ := Lower.bind_eq_ok run
          cases run
          rw [BoundParameter.lowerInput_supplies depth isGiven isActual] at valueRun
          rw [List.filter_cons, if_pos copied]
          refine .cons ⟨value, code, ?_, ⟨depth, _, _, valueRun⟩, ?_⟩ (further restRun)
          · rw [BoundParameter.value?, isActual]
          · rw [BoundParameter.cName_of_single (single bound (List.mem_cons_self ..))]
      | false =>
          have notCopied : ¬ (bound.parameter.isInput = true ∧
              ∃ index value, bound.actual = some (.input index value)) := by
            rw [← BoundParameter.passesIn_iff isGiven, copied]
            exact Bool.false_ne_true
          rw [List.filter_cons, if_neg (by simp [copied])]
          cases isActual : bound.actual with
          | none =>
              rw [isActual] at run
              exact further run
          | some actual =>
              rw [isActual] at run
              cases actual with
              | output => exact further run
              | input index value =>
                  have isNoInput : bound.parameter.isInput = false := by
                    rw [Bool.eq_false_iff]
                    exact fun isInput => notCopied ⟨isInput, index, value, isActual⟩
                  simp only [isNoInput, Bool.false_eq_true, if_false] at run
                  exact further run

/-- The copies out, one for each parameter that has a variable to receive its value. -/
theorem copiesOut_ok {parameters : List BoundParameter}
    (areGiven : ∀ bound ∈ parameters, Binding.IsGiven arguments bound)
    (single : ∀ bound ∈ parameters,
      bound.parameter.isExtensible = false ∧ bound.position = none) :
    ∀ {stores : List Store} {state after : LoweringState},
      access.copiesOut arguments (Argument.supplies site depth arguments) parameters state =
        .ok (stores, after) →
      List.Forall₂ (BoundParameter.CopiedOut site access arguments)
        (parameters.filter fun bound => bound.passesOut && !bound.isGivenAsValue) stores := by
  induction parameters with
  | nil =>
      intro stores state after run
      cases run
      exact .nil
  | cons bound rest ih =>
      intro stores state after run
      have isGiven := areGiven bound (List.mem_cons_self ..)
      obtain ⟨isSingle, noPosition⟩ := single bound (List.mem_cons_self ..)
      have further := @ih (fun other later => areGiven other (List.mem_cons_of_mem _ later))
        (fun other later => single other (List.mem_cons_of_mem _ later))
      have received := BoundParameter.passesOut_iff isGiven isSingle
      rw [copiesOut, BoundParameter.receiver?_supplies depth isGiven] at run
      cases isTarget : bound.target? with
      | none =>
          rw [isTarget] at run received
          rw [List.filter_cons, if_neg (by rw [received]; exact Bool.false_ne_true)]
          exact further run
      | some target =>
          rw [isTarget] at run received
          rw [List.filter_cons, if_pos (received.mpr rfl)]
          obtain ⟨type, first, typeRun, run⟩ := Lower.bind_eq_ok run
          obtain ⟨place, second, placeRun, run⟩ := Lower.bind_eq_ok run
          obtain ⟨later, last, restRun, run⟩ := Lower.bind_eq_ok run
          cases run
          refine .cons ⟨target, place, type, isTarget, ⟨depth, _, _, placeRun⟩,
            Lower.lift_eq_ok typeRun, ?_⟩ (further restRun)
          rw [BoundParameter.outcome, ← BoundParameter.cName_of_single noPosition]

end InstanceAccess

/-! ## Invocations -/

/-- The code of an invocation: the copies in, the body of the function block and the copies
out, in this order in the text too, each copy for the next parameter that has one. -/
structure Site.Invokes (site : Site) (block : Ident) (arguments : List Argument)
    (signature : BlockSignature) (binding : Binding) (code : Code.Stmt) : Prop where
  exists_copies : ∃ before after,
    code = .invoke before
      (.call (signature.name.upper ++ "_body__") [(site.instanceAccess block).pointer]) after ∧
    List.Forall₂ (BoundParameter.CopiedIn site (site.instanceAccess block))
      (binding.parameters.filter fun bound => bound.passesIn && !bound.isGivenAsOutput) before ∧
    List.Forall₂ (BoundParameter.CopiedOut site (site.instanceAccess block) arguments)
      (binding.parameters.filter fun bound => bound.passesOut && !bound.isGivenAsValue) after ∧
    ∀ depth, code.print depth = .margin depth ::
      (Code.Piece.separate [.text ";\n", .margin depth]
        (before.map (Store.print depth) ++
          (Code.Expr.call (signature.name.upper ++ "_body__")
            [(site.instanceAccess block).pointer]).print depth ::
          after.map (Store.print depth)) ++ [.text ";\n"])

section Resolved

variable {context : Context} {library : Library} {withConversions : Bool}
  (resolved : Context.resolve library withConversions = .ok context) {site : Site}
  (inContext : site.context = context) {block : Ident} {arguments : List Argument}
  {signature : BlockSignature}

include resolved inContext

/-- The parameters of a function block are bound in order, each once. -/
theorem Site.single_of_blockSignature? {binding : Binding}
    (found : site.blockSignature? block = some signature)
    (made : Binding.make signature.parameters arguments = .ok binding) :
    binding.parameters.map BoundParameter.parameter = signature.parameters ∧
      ∀ bound ∈ binding.parameters,
        bound.parameter.isExtensible = false ∧ bound.position = none := by
  apply Binding.single_of_make ?_ made
  unfold Site.blockSignature? at found
  split at found
  · rw [inContext] at found
    exact fun parameter member => (Context.isPlain_block? resolved found parameter member).1
  · cases found

theorem Site.invokes_of_lowerInvoke {depth : Nat} {state after : LoweringState}
    {code : Code.Stmt} (run : site.lowerInvoke depth block arguments state = .ok (code, after)) :
    ∃ signature binding, site.blockSignature? block = some signature ∧
      Binding.make signature.parameters arguments = .ok binding ∧
      site.Invokes block arguments signature binding code := by
  obtain ⟨signature, binding, copiesIn, middle, copiesOut, found, made, copiesInRun,
    copiesOutRun, rfl⟩ := Site.lowered_invoke run
  have areGiven := Binding.isGiven_of_make made
  have single := (Site.single_of_blockSignature? resolved inContext found made).2
  refine ⟨signature, binding, found, made, copiesIn, copiesOut, rfl, ?_, ?_, fun depth => ?_⟩
  · exact InstanceAccess.copiesIn_ok areGiven (fun bound member => (single bound member).2)
      copiesInRun
  · exact InstanceAccess.copiesOut_ok areGiven single copiesOutRun
  · rw [Code.Stmt.print]

/-- An accepted invocation has code, or one of the limits of generated code is met.  The
parameters are bound in the order of their declaration, each once and to what an argument
gives for it, and the code copies around the body of the function block in that order:
in for every parameter that passes values in and has something given for it, and out for
every parameter that passes values out and has.  Of the parameters that pass both ways
those that are given as outputs are missing on the way in, and those that are given
values other than variables on the way out. -/
theorem Site.invocation_copies
    (accepted : Stmt.Accepted context site.scope (.invoke block arguments)) :
    ∃ signature binding, site.blockSignature? block = some signature ∧
      Binding.make signature.parameters arguments = .ok binding ∧
      binding.parameters.map BoundParameter.parameter = signature.parameters ∧
      (∀ bound ∈ binding.parameters, Binding.IsGiven arguments bound) ∧
      ∀ (depth : Nat) (around : List Breakable) (state : LoweringState),
        (∃ code after,
          (Stmt.invoke block arguments).lower site depth around state = .ok (code, after) ∧
            site.Invokes block arguments signature binding code) ∨
        ∃ fault, (Stmt.invoke block arguments).lower site depth around state = .error fault ∧
          fault.IsLimit library.typeDecls := by
  obtain ⟨-, type, signature, binding, isInstance, declared, made⟩ := Stmt.accepted_invoke accepted
  have found : site.blockSignature? block = some signature := by
    rw [Site.blockSignature?, isInstance, inContext]
    exact declared
  obtain ⟨inOrder, -⟩ := Site.single_of_blockSignature? resolved inContext found made
  refine ⟨signature, binding, found, made, inOrder, Binding.isGiven_of_make made, ?_⟩
  intro depth around state
  have parametersDeclared : site.context.ParametersDeclaredIn library.typeDecls := by
    rw [inContext]
    exact fun name signature member => Context.parameters_declared resolved member
  have fails : Lower.FailsOnly (Fault.IsLimit library.typeDecls)
      ((Stmt.invoke block arguments).lower site depth around) :=
    Stmt.lower_failsOnly parametersDeclared (inContext ▸ accepted)
  rw [Stmt.lower] at fails ⊢
  refine (fails state).cases.imp ?_ id
  rintro ⟨⟨code, after⟩, run⟩
  obtain ⟨other, otherBinding, otherFound, otherMade, invokes⟩ :=
    Site.invokes_of_lowerInvoke resolved inContext run
  rw [found] at otherFound
  cases otherFound
  rw [made] at otherMade
  cases otherMade
  exact ⟨code, after, run, invokes⟩

end Resolved

/-- The arguments of an invocation: a value, a variable that is given as an output and a
variable in brackets. -/
def adjustment : List Argument :=
  [.named "Level" (.ofInt 1), .output false "Limit" (.named "top"),
    .named "Share" (.group (.named "share"))]

def adjusting : Library where
  elements :=
    [.functionBlock
        { name := "Gauge"
          vars :=
            [{ VarDecl.simple "Level" "INT" with kind := .input },
              { VarDecl.simple "Limit" "INT" with kind := .inOut },
              { VarDecl.simple "Share" "INT" with kind := .inOut }]
          body := [.copy "Limit" "Level"] },
      .program
        { name := "Main"
          vars :=
            [VarDecl.simple "top" "INT", VarDecl.simple "share" "INT",
              VarDecl.instanceOf "gauge" "Gauge"]
          body := [.invoke "gauge" adjustment] }]

def adjustSite (context : Context) : Site :=
  { context, scope := Element.innerScope context ScopeStack.new adjusting.elements[1]
    style := .accessor, unit := "MAIN" }

/-- How many parameters of an invocation pass values in and how many copies are made of
them, and the same for the values that are passed out. -/
def Site.copyCounts? (site : Site) (block : Ident) (arguments : List Argument) :
    Option ((Nat × Nat) × (Nat × Nat)) := do
  let signature ← site.blockSignature? block
  let binding ← (Binding.make signature.parameters arguments).toOption
  match (Stmt.invoke block arguments).lower site 1 [] {} with
  | .ok (.invoke before _ after, _) =>
      some (((binding.parameters.filter BoundParameter.passesIn).length, before.length),
        ((binding.parameters.filter BoundParameter.passesOut).length, after.length))
  | _ => none

theorem adjusting_counts : (adjusting.accepted?.bind fun context =>
    (adjustSite context).copyCounts? "gauge" adjustment) = some ((3, 2), (2, 1)) := by
  decide +kernel

theorem adjusting_accepted {context : Context} {notes : List Note}
    (checked : adjusting.check context = .ok notes) :
    Stmt.Accepted context (adjustSite context).scope (.invoke "gauge" adjustment) := by
  have accepted : Element.Accepted context adjusting.elements[1] :=
    Library.accepted_of_check checked _ (List.getElem_mem _)
  exact Stmt.accepted_allList accepted.body _ (List.mem_cons_self ..)

theorem Site.invocation_copies_adjusting :
    ∃ (context : Context) (signature : BlockSignature) (binding : Binding),
      Context.resolve adjusting = .ok context ∧
        (adjustSite context).blockSignature? "gauge" = some signature ∧
        Binding.make signature.parameters adjustment = .ok binding ∧
        binding.parameters.map BoundParameter.parameter = signature.parameters := by
  obtain ⟨context, isAccepted, -⟩ := Option.bind_eq_some_iff.mp adjusting_counts
  obtain ⟨resolved, notes, checked⟩ := Library.of_accepted? isAccepted
  have accepted := adjusting_accepted checked
  obtain ⟨signature, binding, found, made, inOrder, -⟩ :=
    Site.invocation_copies resolved (rfl : (adjustSite context).context = context) accepted
  exact ⟨context, signature, binding, resolved, found, made, inOrder⟩

/-- The code of an accepted invocation may miss a copy in and a copy out of parameters that
pass both ways and have a variable given for them. -/
theorem Site.copies_missing :
    ∃ (context : Context) (notes : List Note) (signature : BlockSignature) (binding : Binding)
      (before after : List Store) (body : Code.Expr) (state : LoweringState),
      Context.resolve adjusting = .ok context ∧ adjusting.check context = .ok notes ∧
        (adjustSite context).blockSignature? "gauge" = some signature ∧
        Binding.make signature.parameters adjustment = .ok binding ∧
        (Stmt.invoke "gauge" adjustment).lower (adjustSite context) 1 [] {} =
          .ok (.invoke before body after, state) ∧
        (binding.parameters.filter BoundParameter.passesIn).length = 3 ∧ before.length = 2 ∧
        (binding.parameters.filter BoundParameter.passesOut).length = 2 ∧ after.length = 1 := by
  obtain ⟨context, isAccepted, counts⟩ := Option.bind_eq_some_iff.mp adjusting_counts
  obtain ⟨resolved, notes, checked⟩ := Library.of_accepted? isAccepted
  obtain ⟨signature, found, counts⟩ := Option.bind_eq_some_iff.mp counts
  obtain ⟨binding, made, counts⟩ := Option.bind_eq_some_iff.mp counts
  split at counts
  · next before body after state run =>
      simp only [Option.some.injEq, Prod.mk.injEq] at counts
      obtain ⟨⟨passIn, copiedIn⟩, passOut, copiedOut⟩ := counts
      exact ⟨context, notes, signature, binding, before, after, body, state, resolved, checked,
        found, eq_ok_of_toOption made, run, passIn, copiedIn, passOut, copiedOut⟩
  · cases counts

end StructuredText
