import StructuredText.Proofs.Lowering.Invocation
import StructuredText.Proofs.Lowering.Origin
import StructuredText.Proofs.Lowering.Protocol

/-!
# What the code of a body stores

The code of a body stores what statements of the body transfer: an assignment to its
target, an invocation to the variables of the instance and back, a loop to its counter,
and a helper to the variables that receive the outputs of its call.  Each store takes
the value of one such transfer through the range check of the type that it is stored to,
but for the step of a loop over a named variable, which counts on in the head of the loop
and checks nothing.
-/

set_option autoImplicit false

namespace StructuredText

/-! ## Stores of code -/

namespace Code

/-- What a statement stores itself, apart from the statements in it.  The loop over a named
variable stores in its head: the first value, and by its step what comes next. -/
def Stmt.ownStores : Stmt → List Store
  | .store kept => [kept]
  | .invoke before _ after => before ++ after
  | .forLoop control first _ step _ _ =>
      [⟨control, first⟩, ⟨control, step.next (.load control)⟩]
  | .countLoop control first _ _ next _ _ => [⟨control, first⟩, ⟨control, next⟩]
  | _ => []

def Stmt.storesList (stmts : List Stmt) : List Store := (Stmt.allList stmts).flatMap Stmt.ownStores

/-- All that the code of a unit stores in its body and in the helpers of its calls. -/
def Element.stores : Element → List Store
  | .function definition => Stmt.storesList definition.body
  | .unit definition =>
      definition.helpers.flatMap Helper.stores ++ Stmt.storesList definition.body
  | .code _ | .switch _ => []

end Code

/-! ## Outputs through helpers -/

namespace BoundParameter

/-- What a helper has kept of a parameter, negated if the call asks for it. -/
def kept (arguments : List Argument) (bound : BoundParameter) : Code.Expr :=
  let value : Code.Expr := .atom ("__tmp_" ++ bound.cName)
  if Argument.isNegated arguments bound.parameter.name then .unary .logicalNot value else value

/-- The store puts what a helper has kept of the parameter into the variable that is given
for it. -/
structure KeptOut (site : Site) (arguments : List Argument) (bound : BoundParameter)
    (store : Code.Store) : Prop where
  exists_target : ∃ target place type, bound.target? = some target ∧
    target.LowersTo site place ∧ site.context.variableType site.scope target = .ok type ∧
    store = ⟨place, (bound.kept arguments).checked type⟩

variable {arguments : List Argument} {bound : BoundParameter}

/-- A parameter that passes values out receives them in the variable that is given. -/
theorem target?_of_givenVariable? {actual : Actual} {target : Variable}
    (isGiven : Binding.IsGiven arguments bound)
    (isInput : bound.parameter.isExtensible = true → bound.parameter.direction = .input)
    (isOutput : bound.parameter.isOutput = true) (isActual : bound.actual = some actual)
    (isVariable : actual.givenVariable? = some target) : bound.target? = some target := by
  cases direction : bound.parameter.direction with
  | input | external => simp [Parameter.isOutput, direction] at isOutput
  | inOut =>
      cases actual with
      | output index given =>
          cases isVariable
          simp [target?, direction, isActual]
      | input index value =>
          cases value with
          | var source =>
              cases isVariable
              simp [target?, direction, isActual]
          | _ => cases isVariable
  | output =>
      have single : bound.parameter.isExtensible = false := by
        rw [Bool.eq_false_iff]
        intro isExtensible
        rw [isInput isExtensible] at direction
        cases direction
      cases actual with
      | output index given =>
          cases isVariable
          simp [target?, direction, isActual]
      | input index value =>
          have noOutput := isGiven_input_isInput isGiven single isActual
          simp [Parameter.isInput, direction] at noOutput

end BoundParameter

namespace CallParts

variable {site : Site} {arguments : List Argument} {bound : BoundParameter} {depth : Nat}
  {parts next : CallParts} {state after : LoweringState}

theorem stores_of_addDestination {target : Variable} (isTarget : bound.target? = some target)
    (run : parts.addDestination arguments bound (target.destination site depth) state =
      .ok (next, after)) :
    ∃ store, next.stores = parts.stores ++ [store] ∧ bound.KeptOut site arguments store := by
  unfold CallParts.addDestination at run
  dsimp only at run
  cases direction : bound.parameter.direction with
  | input | output | inOut | external =>
      rw [direction] at run
      obtain ⟨start, first, -, run⟩ := Lower.bind_eq_ok run
      obtain ⟨initial, second, -, run⟩ := Lower.bind_eq_ok run
      obtain ⟨type, third, typeRun, run⟩ := Lower.bind_eq_ok run
      obtain ⟨place, fourth, placeRun, run⟩ := Lower.bind_eq_ok run
      cases run
      exact ⟨_, rfl, target, place, type, isTarget, ⟨depth, _, _, placeRun⟩,
        Lower.lift_eq_ok typeRun, rfl⟩

/-- The destination of a parameter that passes values out is the variable given for it, if
there is one. -/
theorem destination_of_given {destination : Option Destination}
    (isGiven : Binding.IsGiven arguments bound)
    (isInput : bound.parameter.isExtensible = true → bound.parameter.direction = .input)
    (isOutput : bound.parameter.isOutput = true)
    (run : bound.lowerDestination (Argument.supplies site depth arguments) state =
      .ok (destination, after)) :
    (destination = none ∧ bound.actual = none) ∨
      ∃ target, bound.target? = some target ∧
        destination = some (target.destination site depth) := by
  rcases BoundParameter.lowerDestination_eq_ok run with
    isOpen | ⟨actual, found, isActual, rfl, supplied⟩
  · exact .inl isOpen
  · rw [BoundParameter.destination_supplies depth isGiven isActual] at supplied
    obtain ⟨target, isVariable, rfl⟩ := Option.map_eq_some_iff.mp supplied
    exact .inr ⟨target,
      BoundParameter.target?_of_givenVariable? isGiven isInput isOutput isActual isVariable, rfl⟩

/-- A parameter of a call through a helper adds at most the store of its output. -/
theorem stores_of_add (isGiven : Binding.IsGiven arguments bound)
    (isInput : bound.parameter.isExtensible = true → bound.parameter.direction = .input)
    (run : parts.add true arguments (Argument.supplies site depth arguments) bound state =
      .ok (next, after)) :
    ∀ store ∈ next.stores, store ∈ parts.stores ∨ bound.KeptOut site arguments store := by
  unfold CallParts.add at run
  dsimp only at run
  intro store member
  cases direction : bound.parameter.direction with
  | input =>
      rw [direction] at run
      obtain ⟨value, middle, -, run⟩ := Lower.bind_eq_ok run
      cases run
      exact .inl member
  | output | inOut =>
      rw [direction] at run
      obtain ⟨destination, middle, destinationRun, run⟩ := Lower.bind_eq_ok run
      have isOutput : bound.parameter.isOutput = true := by
        simp [Parameter.isOutput, direction]
      rcases destination_of_given isGiven isInput isOutput destinationRun with
        ⟨rfl, -⟩ | ⟨target, isTarget, rfl⟩
      · cases run
        exact .inl member
      · obtain ⟨added, grown, keptOut⟩ := stores_of_addDestination isTarget run
        rw [grown] at member
        rcases List.mem_append.mp member with isOld | isNew
        · exact .inl isOld
        · rw [List.mem_singleton.mp isNew]
          exact .inr keptOut
  | external =>
      rw [direction] at run
      cases run

end CallParts

section Resolved

variable {context : Context} {library : Library} {withConversions : Bool}
  (resolved : Context.resolve library withConversions = .ok context) {site : Site}
  (inContext : site.context = context)

include resolved inContext

theorem Expr.keptOut_of_adds {expr : Expr} {helper : Code.Helper} (adds : expr.Adds site helper) :
    ∀ store ∈ helper.stores, ∃ function arguments resolution binding,
      expr = .call function arguments ∧
      CallResolution.of? site.context site.scope function arguments = some resolution ∧
      Binding.make resolution.signature.parameters arguments = .ok binding ∧
      ∃ bound ∈ binding.parameters, bound.KeptOut site arguments store := by
  cases adds with
  | @call function arguments resolution binding parts depth number before after meaning made
      added =>
      have isDeclaration :
          resolution.signature ∈ context.functions.declarationsOf function := by
        obtain ⟨overloads, declared, member, -⟩ := CallResolution.of?_eq_some meaning
        rw [inContext] at declared
        rw [FunctionTable.declarationsOf, declared]
        exact member
      have groupLast := Context.groupLast_of_resolve resolved isDeclaration
      have areGiven := Binding.isGiven_of_make made
      have areInputs := Binding.input_of_extensible groupLast made
      have allKept : ∀ store ∈ parts.stores,
          ∃ bound ∈ binding.parameters, bound.KeptOut site arguments store := by
        refine @CallParts.addAll_keeps _ _ (fun _ parts => ∀ store ∈ parts.stores,
          ∃ bound ∈ binding.parameters, bound.KeptOut site arguments store)
          _ _ _ ?_ ?_ _ _ _ [] _ _ ?_ added
        · exact fun kept => kept
        · intro _ earlier next state after bound isBound kept run store member
          rcases CallParts.stores_of_add (areGiven bound isBound) (areInputs bound isBound) run
            store member with isOld | isNew
          · exact kept store isOld
          · exact ⟨bound, isBound, isNew⟩
        · exact fun store member => absurd member List.not_mem_nil
      intro store member
      exact ⟨function, arguments, resolution, binding, rfl, meaning, made, allKept store member⟩

end Resolved

/-! ## Transfers -/

/-- A value on its way to where it is stored. -/
structure Transfer where
  place : Code.Place
  value : Code.Expr
  /-- The type of what is stored to. -/
  target : DataType
  /-- The type that analysis has for the value; the value of a step has none. -/
  source : Option DataType

/-- The store that a transfer becomes: the range of the target is checked. -/
def Transfer.store (transfer : Transfer) : Code.Store :=
  ⟨transfer.place, transfer.value.checked transfer.target⟩

/-- The store of the value as it is. -/
def Transfer.uncheckedStore (transfer : Transfer) : Code.Store :=
  ⟨transfer.place, transfer.value⟩

/-- What the statements of a body transfer by assignments, by invocations and by the outputs
of calls. -/
inductive Site.Transfers (site : Site) (body : List Stmt) : Transfer → Prop where
  | assign {target : Variable} {value : Expr} {type : DataType} {place : Code.Place}
      {code : Code.Expr} (occurs : .assign target value ∈ Stmt.allList body)
      (typed : site.context.variableType site.scope target = .ok type)
      (placed : target.LowersTo site place) (valued : value.LowersTo site code) :
      Transfers site body ⟨place, code, type, value.type? site.context site.scope⟩
  | copyIn {block : Ident} {arguments : List Argument} {signature : BlockSignature}
      {binding : Binding} {bound : BoundParameter} {value : Expr} {code : Code.Expr}
      (occurs : .invoke block arguments ∈ Stmt.allList body)
      (found : site.blockSignature? block = some signature)
      (made : Binding.make signature.parameters arguments = .ok binding)
      (isBound : bound ∈ binding.parameters) (isValue : bound.value? = some value)
      (valued : value.LowersTo site code) :
      Transfers site body
        ⟨(site.instanceAccess block).member bound.parameter.name.upper, code,
          bound.parameter.type, value.type? site.context site.scope⟩
  | copyOut {block : Ident} {arguments : List Argument} {signature : BlockSignature}
      {binding : Binding} {bound : BoundParameter} {target : Variable} {type : DataType}
      {place : Code.Place} (occurs : .invoke block arguments ∈ Stmt.allList body)
      (found : site.blockSignature? block = some signature)
      (made : Binding.make signature.parameters arguments = .ok binding)
      (isBound : bound ∈ binding.parameters) (isTarget : bound.target? = some target)
      (typed : site.context.variableType site.scope target = .ok type)
      (placed : target.LowersTo site place) :
      Transfers site body
        ⟨place, bound.outcome (site.instanceAccess block) arguments, type,
          some bound.parameter.type⟩
  | result {function : Ident} {arguments : List Argument} {resolution : CallResolution}
      {binding : Binding} {bound : BoundParameter} {target : Variable} {type : DataType}
      {place : Code.Place} (occurs : .call function arguments ∈ Stmt.partsList body)
      (meaning : CallResolution.of? site.context site.scope function arguments = some resolution)
      (made : Binding.make resolution.signature.parameters arguments = .ok binding)
      (isBound : bound ∈ binding.parameters) (isTarget : bound.target? = some target)
      (typed : site.context.variableType site.scope target = .ok type)
      (placed : target.LowersTo site place) :
      Transfers site body ⟨place, bound.kept arguments, type, some bound.parameter.type⟩

/-- What the loops of a body store to their counters through the range check: the first value,
and over accessors after each round the next one. -/
inductive Site.Counts (site : Site) (body : List Stmt) : Transfer → Prop where
  | start {control : Ident} {first last : Expr} {step : Option Expr} {inner : List Stmt}
      {type : DataType} {place : Code.Place} {code : Code.Expr}
      (occurs : .forTo control first last step inner ∈ Stmt.allList body)
      (typed : site.context.variableType site.scope (.named control) = .ok type)
      (placed : (Variable.named control).LowersTo site place)
      (starts : first.LowersTo site code) :
      Counts site body ⟨place, code, type, first.type? site.context site.scope⟩
  | advance {control : Ident} {first last : Expr} {step : Option Expr} {inner : List Stmt}
      {type : DataType} {place : Code.Place} {code : Code.Step}
      (isAccessor : site.style = .accessor)
      (occurs : .forTo control first last step inner ∈ Stmt.allList body)
      (typed : site.context.variableType site.scope (.named control) = .ok type)
      (placed : (Variable.named control).LowersTo site place)
      (steps : site.StepsBy step code) :
      Counts site body ⟨place, code.next (.load place), type, none⟩

/-- What the loops over named variables store to their counters after each round. -/
inductive Site.Steps (site : Site) (body : List Stmt) : Transfer → Prop where
  | intro {control : Ident} {first last : Expr} {step : Option Expr} {inner : List Stmt}
      {type : DataType} {place : Code.Place} {code : Code.Step} (isDirect : site.style = .direct)
      (occurs : .forTo control first last step inner ∈ Stmt.allList body)
      (typed : site.context.variableType site.scope (.named control) = .ok type)
      (placed : (Variable.named control).LowersTo site place)
      (steps : site.StepsBy step code) :
      Steps site body ⟨place, code.next (.load place), type, none⟩

/-- The store is one that the statements of a body ask for. -/
inductive Site.Asks (site : Site) (body : List Stmt) : Code.Store → Prop where
  | checked {transfer : Transfer}
      (isAsked : site.Transfers body transfer ∨ site.Counts body transfer) :
      Asks site body transfer.store
  | unchecked {transfer : Transfer} (steps : site.Steps body transfer) :
      Asks site body transfer.uncheckedStore

section Stores

variable {context : Context} {library : Library} {withConversions : Bool}
  (resolved : Context.resolve library withConversions = .ok context) {site : Site}
  (inContext : site.context = context) {body : List Stmt}

include resolved inContext

theorem Stmt.asks_of_emits {stmt : Stmt} {code : Code.Stmt}
    (occurs : stmt ∈ Stmt.allList body) (emits : stmt.Emits site code) :
    ∀ store ∈ code.ownStores, site.Asks body store := by
  intro store member
  cases emits with
  | store typed placed valued =>
      rw [List.mem_singleton.mp member]
      exact .checked (.inl (.assign occurs typed placed valued))
  | invoke run =>
      obtain ⟨signature, binding, found, made, before, after, isInvoke, copiesIn, copiesOut, -⟩ :=
        Site.invokes_of_lowerInvoke resolved inContext run
      cases isInvoke
      rcases List.mem_append.mp member with isBefore | isAfter
      · obtain ⟨bound, isPassed, copied⟩ := exists_of_mem_right copiesIn store isBefore
        obtain ⟨value, code, isValue, valued, rfl⟩ := copied.exists_value
        have isBound := (List.mem_filter.mp isPassed).1
        exact .checked (.inl (.copyIn occurs found made isBound isValue valued))
      · obtain ⟨bound, isPassed, copied⟩ := exists_of_mem_right copiesOut store isAfter
        obtain ⟨target, place, type, isTarget, placed, typed, rfl⟩ := copied.exists_target
        have isBound := (List.mem_filter.mp isPassed).1
        exact .checked (.inl (.copyOut occurs found made isBound isTarget typed placed))
  | forLoop isDirect typed placed starts steps =>
      rcases List.mem_pair.mp member with rfl | rfl
      · exact .checked (.inr (.start occurs typed placed starts))
      · exact .unchecked (.intro isDirect occurs typed placed steps)
  | countLoop isAccessor typed placed starts steps =>
      rcases List.mem_pair.mp member with rfl | rfl
      · exact .checked (.inr (.start occurs typed placed starts))
      · exact .checked (.inr (.advance isAccessor occurs typed placed steps))
  | ifElse | select | whileLoop | untilLoop | leaveUnit | leaveLoop | jumpOut | code
  | accessorCode | enable | disable => cases member

/-- Everything that the code of a body stores, the body of the unit asks for. -/
theorem Site.asks_of_lowerBody {isOn : Bool} {lowered : LoweredBody}
    (run : site.lowerBody isOn body = .ok lowered) :
    (∀ store ∈ Code.Stmt.storesList lowered.body, site.Asks body store) ∧
      ∀ helper ∈ lowered.helpers, ∀ store ∈ helper.stores, site.Asks body store := by
  obtain ⟨code, helpers⟩ := Site.stems_of_lowerBody run
  constructor
  · intro store member
    obtain ⟨part, isPart, isOwn⟩ := List.mem_flatMap.mp member
    obtain ⟨stmt, occurs, lowers⟩ := code part isPart
    exact Stmt.asks_of_emits resolved inContext occurs (Stmt.emits_of_lowersTo lowers) store isOwn
  · intro helper isHelper store member
    obtain ⟨expr, occurs, adds⟩ := helpers helper isHelper
    obtain ⟨function, arguments, resolution, binding, rfl, meaning, made, bound, isBound, kept⟩ :=
      Expr.keptOut_of_adds resolved inContext adds store member
    obtain ⟨target, place, type, isTarget, placed, typed, rfl⟩ := kept.exists_target
    exact .checked (.inl (.result occurs meaning made isBound isTarget typed placed))

end Stores

end StructuredText
