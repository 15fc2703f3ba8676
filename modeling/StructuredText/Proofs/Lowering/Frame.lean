import StructuredText.Proofs.Lowering.Call
import StructuredText.Proofs.Lowering.Run
import StructuredText.Proofs.Tree.Inside

/-!
# What lowering an expression does to the state

An expression numbers the calls through helpers and adds the helpers of the calls in it,
and does nothing else to the state.  So whatever relation between states allows these two
changes holds between the states before and after an expression.  The induction over
expressions is made once, for every such relation.
-/

set_option autoImplicit false

namespace StructuredText

/-- The helper is one that the call adds, at some depth and from some state. -/
inductive Expr.Adds (site : Site) : Expr → Code.Helper → Prop where
  | call {function : Ident} {arguments : List Argument} {resolution : CallResolution}
      {binding : Binding} {parts : CallParts} {depth number : Nat} {before after : LoweringState}
      (meaning : CallResolution.of? site.context site.scope function arguments = some resolution)
      (made : Binding.make resolution.signature.parameters arguments = .ok binding)
      (added : CallParts.addAll true resolution.count arguments
        (Argument.supplies site (depth + 1) arguments) false {} binding.parameters before =
          .ok (parts, after)) :
      Adds site (.call function arguments) (parts.helper site depth number resolution)

/-- A relation between states that allows what calls through helpers do, if the calls are
among the given expressions.  A helper is only added where the output is on. -/
structure LoweringState.AllowsCalls (site : Site) (exprs : List Expr)
    (moves : LoweringState → LoweringState → Prop) : Prop where
  refl : ∀ state, moves state state
  trans : ∀ {first second third}, moves first second → moves second third → moves first third
  counted : ∀ state, moves state { state with calls := state.calls + 1 }
  helped : ∀ state, state.isOn = true → ∀ expr ∈ exprs, ∀ helper, expr.Adds site helper →
    moves state { state with helpers := state.helpers ++ [helper] }

def Lower.Moves {α : Type} (moves : LoweringState → LoweringState → Prop) (step : Lower α) :
    Prop :=
  ∀ state value after, step state = .ok (value, after) → moves state after

section Frame

variable {site : Site} {exprs : List Expr} {moves : LoweringState → LoweringState → Prop}
  (allows : LoweringState.AllowsCalls site exprs moves)

namespace Lower

variable {α β : Type}

theorem moves_throw (fault : Fault) : Moves moves (throw fault : Lower α) := by
  intro state value after run
  cases run

theorem moves_throw_bind (fault : Fault) {next : α → Lower β} :
    Moves moves ((throw fault : Lower α) >>= next) := by
  intro state value after run
  cases run

include allows

theorem moves_pure (value : α) : Moves moves (pure value : Lower α) := by
  intro state result after run
  cases run
  exact allows.refl state

theorem moves_bind_of_run {first : Lower α} {next : α → Lower β} (firstMoves : Moves moves first)
    (nextMoves : ∀ state value after, first state = .ok (value, after) →
      Moves moves (next value)) :
    Moves moves (first >>= next) := by
  intro state result after run
  obtain ⟨value, middle, firstRun, nextRun⟩ := bind_eq_ok run
  have early := firstMoves state value middle firstRun
  have late := nextMoves state value middle firstRun middle result after nextRun
  exact allows.trans early late

theorem moves_bind {first : Lower α} {next : α → Lower β} (firstMoves : Moves moves first)
    (nextMoves : ∀ value, Moves moves (next value)) : Moves moves (first >>= next) :=
  moves_bind_of_run allows firstMoves fun _ value _ _ => nextMoves value

theorem moves_lift (result : Except Fault α) : Moves moves (liftM result : Lower α) := by
  cases result with
  | ok value => exact moves_pure allows value
  | error fault => exact moves_throw fault

theorem moves_need (fault : Fault) (found : Option α) : Moves moves (need fault found) := by
  cases found with
  | none => exact moves_throw fault
  | some value => exact moves_pure allows value

theorem moves_nextCall : Moves moves nextCall := by
  intro state number after run
  cases run
  exact allows.counted state

theorem moves_addHelper {helper : Code.Helper}
    (helped : ∀ state, state.isOn = true →
      moves state { state with helpers := state.helpers ++ [helper] }) :
    Moves moves (addHelper helper) := by
  intro state done after run
  cases run
  by_cases isOn : state.isOn = true
  · simpa [isOn] using helped state isOn
  · simpa [isOn] using allows.refl state

end Lower

/-! ## Calls -/

structure Supply.Moves (moves : LoweringState → LoweringState → Prop) (supply : Supply) :
    Prop where
  value : ∀ value, supply.value = some value → Lower.Moves moves value
  destination : ∀ destination, supply.destination = some destination →
    Lower.Moves moves destination.place

section Call

variable {supplies : List Supply} {arguments : List Argument}
  (suppliesMove : ∀ supply ∈ supplies, supply.Moves moves)

include suppliesMove in
/-- A destination that a call site gives is one that an argument supplies. -/
theorem BoundParameter.place_moves {bound : BoundParameter} {destination : Destination}
    (found : (bound.supply? supplies).bind Supply.destination = some destination) :
    Lower.Moves moves destination.place := by
  obtain ⟨supply, isSupply, found⟩ := Option.bind_eq_some_iff.mp found
  exact (suppliesMove supply (mem_of_supply? isSupply)).destination destination found

include allows in
theorem BoundParameter.lowerDestination_moves (bound : BoundParameter) :
    Lower.Moves moves (bound.lowerDestination supplies) := by
  unfold lowerDestination
  split
  · exact Lower.moves_pure allows _
  · split
    · exact Lower.moves_pure allows _
    · exact Lower.moves_throw _

include suppliesMove in
theorem BoundParameter.place_moves_of_run {bound : BoundParameter} {destination : Destination}
    {state after : LoweringState}
    (run : bound.lowerDestination supplies state = .ok (some destination, after)) :
    Lower.Moves moves destination.place := by
  rw [lowerDestination] at run
  cases actual : bound.actual with
  | none =>
      rw [actual] at run
      cases run
  | some given =>
      rw [actual] at run
      dsimp only at run
      cases found : (bound.supply? supplies).bind Supply.destination with
      | none =>
          rw [found] at run
          cases run
      | some other =>
          rw [found] at run
          cases run
          exact BoundParameter.place_moves suppliesMove found

include allows

theorem CallParts.addDestination_moves (parts : CallParts) (bound : BoundParameter)
    {destination : Destination} (placeMoves : Lower.Moves moves destination.place) :
    Lower.Moves moves (parts.addDestination arguments bound destination) := by
  have restMoves : ∀ initial : Code.Expr, Lower.Moves moves (do
      let type ← (liftM destination.type : Lower DataType)
      let place ← destination.place
      return parts.addOutput bound.parameter.type.cName ("__tmp_" ++ bound.cName) initial
        ⟨place, (if Argument.isNegated arguments bound.parameter.name then
          .unary .logicalNot (.atom ("__tmp_" ++ bound.cName))
          else .atom ("__tmp_" ++ bound.cName) : Code.Expr).checked type⟩) := by
    intro initial
    refine Lower.moves_bind allows (Lower.moves_lift allows _) fun type => ?_
    exact Lower.moves_bind allows placeMoves fun _ => Lower.moves_pure allows _
  unfold addDestination
  dsimp only
  cases bound.parameter.direction with
  | inOut =>
      refine Lower.moves_bind allows placeMoves fun place => ?_
      exact restMoves _
  | input | output | external =>
      refine Lower.moves_bind allows (Lower.moves_lift allows _) fun value => ?_
      exact restMoves _

include suppliesMove

theorem BoundParameter.lowerInput_moves (bound : BoundParameter) :
    Lower.Moves moves (bound.lowerInput supplies) := by
  unfold lowerInput
  split
  · exact Lower.moves_bind allows (Lower.moves_lift allows _) fun _ => Lower.moves_pure allows _
  · split
    · next value found =>
        obtain ⟨supply, isSupply, found⟩ := Option.bind_eq_some_iff.mp found
        exact (suppliesMove supply (mem_of_supply? isSupply)).value value found
    · exact Lower.moves_throw _

theorem CallParts.add_moves (parts : CallParts) (isIndirect : Bool) (bound : BoundParameter) :
    Lower.Moves moves (parts.add isIndirect arguments supplies bound) := by
  unfold add
  dsimp only
  cases bound.parameter.direction with
  | input =>
      refine Lower.moves_bind allows ?_ fun _ => Lower.moves_pure allows _
      exact BoundParameter.lowerInput_moves allows suppliesMove bound
  | output | inOut =>
      refine Lower.moves_bind_of_run allows (bound.lowerDestination_moves allows) ?_
      intro state destination after run
      cases destination with
      | none => cases isIndirect <;> exact Lower.moves_pure allows _
      | some destination =>
          have placeMoves := BoundParameter.place_moves_of_run suppliesMove run
          cases isIndirect with
          | false => exact Lower.moves_bind allows placeMoves fun _ => Lower.moves_pure allows _
          | true => exact CallParts.addDestination_moves allows parts bound placeMoves
  | external => exact Lower.moves_throw _

theorem CallParts.addAll_moves (isIndirect : Bool) (count : Nat)
    (parameters : List BoundParameter) :
    ∀ (isCounted : Bool) (parts : CallParts), Lower.Moves moves
      (CallParts.addAll isIndirect count arguments supplies isCounted parts parameters) := by
  induction parameters with
  | nil => exact fun _ _ => Lower.moves_pure allows _
  | cons bound parameters ih =>
      intro isCounted parts
      rw [CallParts.addAll]
      refine Lower.moves_bind allows ?_ fun next => ih _ next
      exact CallParts.add_moves allows suppliesMove _ isIndirect bound

theorem CallResolution.lower_moves (depth : Nat) (resolution : CallResolution)
    (function : Ident)
    (helped : ∀ {binding : Binding} {parts : CallParts} {before after : LoweringState},
      Binding.make resolution.signature.parameters arguments = .ok binding →
      CallParts.addAll true resolution.count arguments supplies false {} binding.parameters
        before = .ok (parts, after) → ∀ number state, state.isOn = true →
      moves state
        { state with helpers := state.helpers ++ [parts.helper site depth number resolution] }) :
    Lower.Moves moves (resolution.lower site depth function arguments supplies) := by
  unfold lower
  dsimp only
  split
  · exact Lower.moves_throw_bind _
  · refine Lower.moves_bind_of_run allows (Lower.moves_lift allows _) ?_
    intro _ binding _ bindingRun
    have made := Lower.lift_eq_ok bindingRun
    split
    · refine Lower.moves_bind allows (Lower.moves_nextCall allows) fun number => ?_
      refine Lower.moves_bind_of_run allows
        (CallParts.addAll_moves allows suppliesMove _ _ _ _ _) ?_
      intro _ parts _ added
      exact Lower.moves_bind allows (Lower.moves_addHelper allows (helped made added number))
        fun _ => Lower.moves_pure allows _
    · refine Lower.moves_bind allows
        (CallParts.addAll_moves allows suppliesMove _ _ _ _ _) fun parts => ?_
      exact Lower.moves_pure allows _

end Call

/-! ## Expressions -/

omit allows

mutual

theorem Reference.lowerPath_moves (allows : LoweringState.AllowsCalls site exprs moves) :
    ∀ (reference : Reference) (depth : Nat), reference.parts ⊆ exprs →
      Lower.Moves moves (reference.lowerPath site depth)
  | .named name, depth, _ => by
      rw [Reference.lowerPath]
      exact Lower.moves_pure allows _
  | .field record name, depth, inside => by
      rw [Reference.parts] at inside
      rw [Reference.lowerPath]
      refine Lower.moves_bind allows ?_ fun _ => Lower.moves_pure allows _
      exact Reference.lowerPath_moves allows record depth inside
  | .element array subscripts, depth, inside => by
      rw [Reference.parts, List.append_subset] at inside
      rw [Reference.lowerPath]
      refine Lower.moves_bind allows ?_ fun path => ?_
      · exact Reference.lowerPath_moves allows array depth inside.1
      · refine Lower.moves_bind allows ?_ fun _ => Lower.moves_pure allows _
        exact Expr.lowerSubscripts_moves allows array subscripts depth 0 inside.2

theorem Expr.lowerSubscripts_moves (allows : LoweringState.AllowsCalls site exprs moves)
    (array : Reference) :
    ∀ (subscripts : List Expr) (depth index : Nat), Expr.partsList subscripts ⊆ exprs →
      Lower.Moves moves (Expr.lowerSubscripts site depth array index subscripts)
  | [], depth, index, _ => by
      rw [Expr.lowerSubscripts]
      exact Lower.moves_pure allows _
  | subscript :: subscripts, depth, index, inside => by
      rw [Expr.partsList, List.append_subset] at inside
      rw [Expr.lowerSubscripts]
      refine Lower.moves_bind allows (Lower.moves_lift allows _) fun dimension => ?_
      refine Lower.moves_bind allows ?_ fun value => ?_
      · exact Expr.lower_moves allows subscript depth inside.1
      · refine Lower.moves_bind allows ?_ fun _ => Lower.moves_pure allows _
        exact Expr.lowerSubscripts_moves allows array subscripts depth (index + 1) inside.2

theorem Variable.lower_moves (allows : LoweringState.AllowsCalls site exprs moves) :
    ∀ (source : Variable) (depth : Nat), source.parts ⊆ exprs →
      Lower.Moves moves (source.lower site depth)
  | .direct address, depth, _ => by
      rw [Variable.lower]
      exact Lower.moves_pure allows _
  | .symbolic reference, depth, inside => by
      rw [Variable.parts] at inside
      have pathMoves : Lower.Moves moves (reference.lowerPath site depth) :=
        Reference.lowerPath_moves allows reference depth inside
      rw [Variable.lower]
      refine Lower.moves_bind allows (Lower.moves_need allows _ _) fun entry => ?_
      dsimp only
      split
      · exact Lower.moves_bind allows pathMoves fun _ => Lower.moves_pure allows _
      · split
        · exact Lower.moves_bind allows pathMoves fun _ => Lower.moves_pure allows _
        · exact Lower.moves_pure allows _

theorem Expr.lower_moves (allows : LoweringState.AllowsCalls site exprs moves) :
    ∀ (expr : Expr) (depth : Nat), expr.parts ⊆ exprs → Lower.Moves moves (expr.lower site depth)
  | .compare op left right, depth, inside => by
      rw [Expr.parts, List.cons_subset, List.append_subset] at inside
      obtain ⟨-, leftInside, rightInside⟩ := inside
      rw [Expr.lower]
      refine Lower.moves_bind allows (Lower.moves_need allows _ _) fun leftType => ?_
      refine Lower.moves_bind allows (Lower.moves_need allows _ _) fun rightType => ?_
      refine Lower.moves_bind allows (Expr.lower_moves allows left depth leftInside) fun _ => ?_
      refine Lower.moves_bind allows (Expr.lower_moves allows right depth rightInside) fun _ => ?_
      exact Lower.moves_lift allows _
  | .arith op left right, depth, inside => by
      rw [Expr.parts, List.cons_subset, List.append_subset] at inside
      obtain ⟨-, leftInside, rightInside⟩ := inside
      rw [Expr.lower]
      refine Lower.moves_bind allows (Lower.moves_need allows _ _) fun leftType => ?_
      refine Lower.moves_bind allows (Lower.moves_need allows _ _) fun rightType => ?_
      refine Lower.moves_bind allows (Expr.lower_moves allows left _ leftInside) fun _ => ?_
      refine Lower.moves_bind allows (Expr.lower_moves allows right _ rightInside) fun _ => ?_
      exact Lower.moves_pure allows _
  | .unary op term, depth, inside => by
      rw [Expr.parts, List.cons_subset] at inside
      rw [Expr.lower]
      refine Lower.moves_bind allows (Lower.moves_need allows _ _) fun type => ?_
      exact Lower.moves_bind allows (Expr.lower_moves allows term depth inside.2) fun _ =>
        Lower.moves_pure allows _
  | .group inner, depth, inside => by
      rw [Expr.parts, List.cons_subset] at inside
      rw [Expr.lower]
      exact Expr.lower_moves allows inner depth inside.2
  | .const value, depth, _ => by
      rw [Expr.lower]
      exact Lower.moves_bind allows (Lower.moves_lift allows _) fun _ => Lower.moves_pure allows _
  | .enumerated value, depth, _ => by
      rw [Expr.lower]
      exact Lower.moves_bind allows (Lower.moves_lift allows _) fun _ => Lower.moves_pure allows _
  | .var source, depth, inside => by
      rw [Expr.parts, List.cons_subset] at inside
      rw [Expr.lower]
      refine Lower.moves_bind allows ?_ fun _ => Lower.moves_pure allows _
      exact Variable.lower_moves allows source depth inside.2
  | .call function arguments, depth, inside => by
      rw [Expr.parts, List.cons_subset] at inside
      rw [Expr.lower]
      refine Lower.moves_bind_of_run allows (Lower.moves_need allows _ _) ?_
      intro _ resolution _ found
      have meaning := Lower.need_eq_ok found
      refine CallResolution.lower_moves allows ?_ depth resolution function ?_
      · exact Argument.supplies_moves allows arguments (depth + 1) inside.2
      · intro binding parts before after made added number state isOn
        exact allows.helped state isOn _ inside.1 _ (.call meaning made added)

theorem Expr.destination?_moves (allows : LoweringState.AllowsCalls site exprs moves) :
    ∀ (expr : Expr) (depth : Nat) (destination : Destination), expr.parts ⊆ exprs →
      expr.destination? site depth = some destination → Lower.Moves moves destination.place
  | .var source, depth, destination, inside, isVariable => by
      rw [Expr.parts, List.cons_subset] at inside
      rw [Expr.destination?] at isVariable
      cases isVariable
      exact Variable.lower_moves allows source depth inside.2
  | .compare .., _, _, _, isVariable => by simp [Expr.destination?] at isVariable
  | .arith .., _, _, _, isVariable => by simp [Expr.destination?] at isVariable
  | .unary .., _, _, _, isVariable => by simp [Expr.destination?] at isVariable
  | .group .., _, _, _, isVariable => by simp [Expr.destination?] at isVariable
  | .const .., _, _, _, isVariable => by simp [Expr.destination?] at isVariable
  | .enumerated .., _, _, _, isVariable => by simp [Expr.destination?] at isVariable
  | .call .., _, _, _, isVariable => by simp [Expr.destination?] at isVariable

theorem Argument.supplies_moves (allows : LoweringState.AllowsCalls site exprs moves) :
    ∀ (arguments : List Argument) (depth : Nat), Argument.partsList arguments ⊆ exprs →
      ∀ supply ∈ Argument.supplies site depth arguments, supply.Moves moves
  | [], depth, _, supply, member => by
      rw [Argument.supplies] at member
      cases member
  | .positional value :: arguments, depth, inside, supply, member => by
      rw [Argument.partsList, List.append_subset] at inside
      rw [Argument.supplies] at member
      rcases List.mem_cons.mp member with rfl | inRest
      · refine ⟨?_, fun _ => Expr.destination?_moves allows value depth _ inside.1⟩
        rintro _ ⟨⟩
        exact Expr.lower_moves allows value depth inside.1
      · exact Argument.supplies_moves allows arguments depth inside.2 supply inRest
  | .named name value :: arguments, depth, inside, supply, member => by
      rw [Argument.partsList, List.append_subset] at inside
      rw [Argument.supplies] at member
      rcases List.mem_cons.mp member with rfl | inRest
      · refine ⟨?_, fun _ => Expr.destination?_moves allows value depth _ inside.1⟩
        rintro _ ⟨⟩
        exact Expr.lower_moves allows value depth inside.1
      · exact Argument.supplies_moves allows arguments depth inside.2 supply inRest
  | .output isNegated source target :: arguments, depth, inside, supply, member => by
      rw [Argument.partsList, List.append_subset] at inside
      rw [Argument.supplies] at member
      rcases List.mem_cons.mp member with rfl | inRest
      · refine ⟨nofun, ?_⟩
        rintro _ ⟨⟩
        exact Variable.lower_moves allows target depth inside.1
      · exact Argument.supplies_moves allows arguments depth inside.2 supply inRest

end

/-! ## Invocations and steps of loops -/

include allows

theorem InstanceAccess.copiesIn_moves {supplies : List Supply}
    (suppliesMove : ∀ supply ∈ supplies, supply.Moves moves) (access : InstanceAccess)
    (bound : List BoundParameter) : Lower.Moves moves (access.copiesIn supplies bound) := by
  induction bound with
  | nil => exact Lower.moves_pure allows _
  | cons first rest ih =>
      rw [InstanceAccess.copiesIn]
      split
      · split
        · refine Lower.moves_bind allows ?_ fun value => ?_
          · exact BoundParameter.lowerInput_moves allows suppliesMove first
          · exact Lower.moves_bind allows ih fun _ => Lower.moves_pure allows _
        · exact ih
      · exact ih

theorem InstanceAccess.copiesOut_moves {supplies : List Supply} {arguments : List Argument}
    (suppliesMove : ∀ supply ∈ supplies, supply.Moves moves) (access : InstanceAccess)
    (bound : List BoundParameter) :
    Lower.Moves moves (access.copiesOut arguments supplies bound) := by
  induction bound with
  | nil => exact Lower.moves_pure allows _
  | cons first rest ih =>
      rw [InstanceAccess.copiesOut]
      cases found : first.receiver? supplies with
      | none => exact ih
      | some receiver =>
          have placeMoves : Lower.Moves moves receiver.place :=
            BoundParameter.place_moves suppliesMove (BoundParameter.supplied_of_receiver? found)
          refine Lower.moves_bind allows (Lower.moves_lift allows _) fun type => ?_
          refine Lower.moves_bind allows placeMoves fun place => ?_
          exact Lower.moves_bind allows ih fun _ => Lower.moves_pure allows _

theorem Site.lowerInvoke_moves (depth : Nat) (block : Ident) (arguments : List Argument)
    (inside : Argument.partsList arguments ⊆ exprs) :
    Lower.Moves moves (site.lowerInvoke depth block arguments) := by
  have suppliesMove : ∀ supply ∈ Argument.supplies site depth arguments, supply.Moves moves :=
    Argument.supplies_moves allows arguments depth inside
  rw [Site.lowerInvoke]
  refine Lower.moves_bind allows (Lower.moves_need allows _ _) fun signature => ?_
  refine Lower.moves_bind allows (Lower.moves_lift allows _) fun binding => ?_
  refine Lower.moves_bind allows
    (InstanceAccess.copiesIn_moves allows suppliesMove _ _) fun before => ?_
  refine Lower.moves_bind allows
    (InstanceAccess.copiesOut_moves allows suppliesMove _ _) fun after => ?_
  exact Lower.moves_pure allows _

theorem Site.lowerStep_moves (depth : Nat) (step : Option Expr)
    (inside : (step.map Expr.parts).getD [] ⊆ exprs) :
    Lower.Moves moves (site.lowerStep depth step) := by
  cases step with
  | none => exact Lower.moves_pure allows _
  | some value =>
      exact Lower.moves_bind allows (Expr.lower_moves allows value depth inside) fun _ =>
        Lower.moves_pure allows _

end Frame

end StructuredText
