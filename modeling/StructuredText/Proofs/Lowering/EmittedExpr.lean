import StructuredText.Lowering.Emitter

/-!
# Emitting expressions

The emitter goes one level deeper for the arguments of a call and for the operands of a power,
and comes back behind them.  So what it gives for an expression is what lowering gives at the
depth of the sink, and the depth stays.
-/

set_option autoImplicit false

namespace StructuredText

open Code (Place Store)

/-! ## Steps of lowering -/

namespace Emit

variable {α β : Type}

theorem bind_apply (first : Emit α) (next : α → Emit β) (emitter : Emitter) :
    (first >>= next) emitter = (first emitter >>= fun done => next done.1 done.2) := rfl

theorem lowered_pure (value : α) : lowered (fun _ => pure value) = (pure value : Emit α) := rfl

theorem lowered_lift (result : Except Fault α) :
    lowered (fun _ => liftM result) = (liftM result : Emit α) := by
  cases result <;> rfl

theorem lowered_bind (first : Nat → Lower α) (next : Nat → α → Lower β) :
    lowered (fun depth => first depth >>= next depth) =
      lowered first >>= fun value => lowered fun depth => next depth value := by
  funext emitter
  rw [bind_apply, lowered, lowered]
  change (Except.map _ (first emitter.sink.depth emitter.lowering >>= _)) = _
  cases first emitter.sink.depth emitter.lowering <;> rfl

/-- A step of lowering one level deeper: the depth is moved and moved back. -/
theorem indented_lowered (step : Nat → Lower α) :
    indented (lowered step) = lowered fun depth => step (depth + 1) := by
  funext emitter
  change (lowered step emitter.deeper >>= fun done =>
    (.ok (done.1, done.2.shallower) : Except Fault (α × Emitter))) = _
  rw [lowered, lowered]
  change (Except.map _ (step (emitter.sink.depth + 1) emitter.lowering) >>= _) = _
  cases step (emitter.sink.depth + 1) emitter.lowering <;> rfl

theorem operands_lowered (op : ArithOp) (step : Nat → Lower α) :
    operands op (lowered step) = lowered fun depth => step (op.operandDepth depth) := by
  unfold operands
  split
  next isPower => simp only [indented_lowered, ArithOp.operandDepth, if_pos isPower]
  next other => simp only [ArithOp.operandDepth, if_neg other]

theorem operands_pair (op : ArithOp) (first : Nat → Lower α) (second : Nat → Lower β) :
    (operands op do
      let left ← lowered first
      let right ← lowered second
      return (left, right)) = (do
      let left ← lowered fun depth => first (op.operandDepth depth)
      let right ← lowered fun depth => second (op.operandDepth depth)
      return (left, right)) := by
  have pair : (do
      let left ← lowered first
      let right ← lowered second
      return (left, right)) = lowered fun depth => do
        let left ← first depth
        let right ← second depth
        return (left, right) := by
    simp only [lowered_bind, lowered_pure]
  rw [pair, operands_lowered]
  simp only [lowered_bind, lowered_pure]

end Emit

open Emit

/-! ## Calls -/

structure Offered where
  value : Option (Nat → Lower Code.Expr)
  target : Option ((Nat → Lower Place) × Except Fault DataType)

namespace Offered

def supply (offered : Offered) (depth : Nat) : Supply where
  value := offered.value.map fun value => value depth
  destination := offered.target.map fun target => { place := target.1 depth, type := target.2 }

def offer (offered : Offered) : Offer where
  value := offered.value.map lowered
  target := offered.target.map fun target => { place := lowered target.1, type := target.2 }

end Offered

section Call

variable (bound : BoundParameter) (offered : List Offered)

theorem BoundParameter.offer?_map {α β : Type} (items : List α) (change : α → β) :
    bound.offer? (items.map change) = (bound.offer? items).map change := by
  unfold offer?
  split <;> simp

theorem BoundParameter.value_offer? :
    (bound.offer? (offered.map Offered.offer)).bind Offer.value =
      ((bound.offer? offered).bind Offered.value).map lowered := by
  rw [offer?_map]
  cases bound.offer? offered <;> rfl

theorem BoundParameter.value_supply? (depth : Nat) :
    (bound.supply? (offered.map fun item => item.supply depth)).bind Supply.value =
      ((bound.offer? offered).bind Offered.value).map fun value => value depth := by
  change (bound.offer? (offered.map fun item => item.supply depth)).bind Supply.value = _
  rw [offer?_map]
  cases bound.offer? offered <;> rfl

theorem BoundParameter.target_offer? :
    (bound.offer? (offered.map Offered.offer)).bind Offer.target =
      ((bound.offer? offered).bind Offered.target).map fun target =>
        { place := lowered target.1, type := target.2 } := by
  rw [offer?_map]
  cases bound.offer? offered <;> rfl

theorem BoundParameter.destination_supply? (depth : Nat) :
    (bound.supply? (offered.map fun item => item.supply depth)).bind Supply.destination =
      ((bound.offer? offered).bind Offered.target).map fun target =>
        { place := target.1 depth, type := target.2 } := by
  change (bound.offer? (offered.map fun item => item.supply depth)).bind Supply.destination = _
  rw [offer?_map]
  cases bound.offer? offered <;> rfl

theorem BoundParameter.emitInput_eq :
    bound.emitInput (offered.map Offered.offer) =
      lowered fun depth => bound.lowerInput (offered.map fun item => item.supply depth) := by
  unfold emitInput lowerInput
  cases bound.actual with
  | none => simp only [lowered_bind, lowered_lift, lowered_pure]
  | some actual =>
      simp only [value_offer?, value_supply?]
      cases (bound.offer? offered).bind Offered.value with
      | none => rfl
      | some value => rfl

/-- A target is found by the emitter as it is by lowering. -/
theorem BoundParameter.emitTarget_cases :
    (∃ fault, bound.emitTarget (offered.map Offered.offer) = .error fault ∧
      ∀ depth, bound.lowerDestination (offered.map fun item => item.supply depth) =
        throw fault) ∨
    (bound.emitTarget (offered.map Offered.offer) = .ok none ∧
      ∀ depth, bound.lowerDestination (offered.map fun item => item.supply depth) = pure none) ∨
    ∃ place type,
      bound.emitTarget (offered.map Offered.offer) =
        .ok (some { place := lowered place, type }) ∧
      ∀ depth, bound.lowerDestination (offered.map fun item => item.supply depth) =
        pure (some { place := place depth, type }) := by
  unfold emitTarget lowerDestination
  cases bound.actual with
  | none => exact .inr (.inl ⟨rfl, fun _ => rfl⟩)
  | some actual =>
      simp only [target_offer?, destination_supply?]
      cases (bound.offer? offered).bind Offered.target with
      | none => exact .inl ⟨_, rfl, fun _ => rfl⟩
      | some target => exact .inr (.inr ⟨_, _, rfl, fun _ => rfl⟩)

namespace CallParts

theorem emitOutput_eq (parts : CallParts) (arguments : List Argument)
    (place : Nat → Lower Place) (type : Except Fault DataType) :
    parts.emitOutput arguments bound { place := lowered place, type } =
      lowered fun depth =>
        parts.addDestination arguments bound { place := place depth, type } := by
  unfold emitOutput addDestination
  cases direction : bound.parameter.direction <;>
    simp only [direction, lowered_bind, lowered_lift, lowered_pure]

theorem emit_eq (parts : CallParts) (isIndirect : Bool) (arguments : List Argument) :
    parts.emit isIndirect arguments (offered.map Offered.offer) bound =
      lowered fun depth =>
        parts.add isIndirect arguments (offered.map fun item => item.supply depth) bound := by
  unfold emit add
  cases direction : bound.parameter.direction with
  | input => simp only [direction, BoundParameter.emitInput_eq, lowered_bind, lowered_pure]
  | output | inOut =>
      rcases bound.emitTarget_cases offered with
        ⟨fault, isTarget, isDestination⟩ | ⟨isTarget, isDestination⟩ |
          ⟨place, type, isTarget, isDestination⟩
      · simp only [direction, isTarget, isDestination]
        rfl
      · simp only [direction, isTarget, isDestination, pure_bind]
        cases isIndirect <;> rfl
      · simp only [direction, isTarget, isDestination, pure_bind]
        cases isIndirect with
        | false =>
            simp only [lowered_bind, lowered_pure]
            rfl
        | true => exact emitOutput_eq bound parts arguments place type
  | external =>
      simp only [direction]
      rfl

theorem emitAll_eq (isIndirect : Bool) (count : Nat) (arguments : List Argument)
    (isCounted : Bool) (parts : CallParts) (bounds : List BoundParameter) :
    emitAll isIndirect count arguments (offered.map Offered.offer) isCounted parts bounds =
      lowered fun depth => addAll isIndirect count arguments
        (offered.map fun item => item.supply depth) isCounted parts bounds := by
  induction bounds generalizing isCounted parts with
  | nil => rfl
  | cons bound bounds ih => simp only [emitAll, addAll, emit_eq, ih, lowered_bind]

end CallParts

theorem CallResolution.emit_eq (site : Site) (resolution : CallResolution) (function : Ident)
    (arguments : List Argument) :
    resolution.emit site function arguments (offered.map Offered.offer) =
      lowered fun depth => resolution.lower site depth function arguments
        (offered.map fun item => item.supply (depth + 1)) := by
  unfold emit lower
  simp only [CallParts.emitAll_eq, indented_lowered]
  split
  · rfl
  · simp only [lowered_bind, lowered_lift]
    refine bind_congr fun binding => ?_
    split
    · simp only [lowered_bind, lowered_pure]
    · simp only [lowered_bind, lowered_pure]

end Call

/-! ## Expressions -/

section Expr

variable (site : Site)

def Expr.offeredTarget? : Expr → Option ((Nat → Lower Place) × Except Fault DataType)
  | .var source =>
      some (fun depth => source.lower site depth, site.context.variableType site.scope source)
  | _ => none

def Argument.offered : Argument → Offered
  | .positional value | .named _ value =>
      { value := some fun depth => value.lower site depth, target := value.offeredTarget? site }
  | .output _ _ target =>
      { value := none
        target :=
          some (fun depth => target.lower site depth,
            site.context.variableType site.scope target) }

theorem Expr.destination?_offered (expr : Expr) (depth : Nat) :
    expr.destination? site depth =
      (expr.offeredTarget? site).map fun target =>
        { place := target.1 depth, type := target.2 } := by
  cases expr <;> simp [destination?, offeredTarget?]

theorem Argument.supplies_eq (arguments : List Argument) (depth : Nat) :
    Argument.supplies site depth arguments =
      (arguments.map (Argument.offered site)).map fun item => item.supply depth := by
  induction arguments with
  | nil => rw [supplies, List.map_nil, List.map_nil]
  | cons argument arguments ih =>
      cases argument <;>
        simp [supplies, ih, offered, Offered.supply, Expr.destination?_offered]

mutual

theorem Reference.emitPath_eq : ∀ reference : Reference,
    reference.emitPath site = lowered fun depth => reference.lowerPath site depth
  | .named _ => by
      simp only [Reference.emitPath, Reference.lowerPath, lowered_pure]
  | .field record name => by
      simp only [Reference.emitPath, Reference.lowerPath, Reference.emitPath_eq record,
        lowered_bind, lowered_pure]
  | .element array subscripts => by
      simp only [Reference.emitPath, Reference.lowerPath, Reference.emitPath_eq array,
        Expr.emitSubscripts_eq array subscripts 0, lowered_bind, lowered_pure]

theorem Expr.emitSubscripts_eq (array : Reference) : ∀ (subscripts : List Expr) (index : Nat),
    Expr.emitSubscripts site array index subscripts =
      lowered fun depth => Expr.lowerSubscripts site depth array index subscripts
  | [], index => by
      simp only [Expr.emitSubscripts, Expr.lowerSubscripts, lowered_pure]
  | subscript :: rest, index => by
      simp only [Expr.emitSubscripts, Expr.lowerSubscripts, Expr.emit_eq subscript,
        Expr.emitSubscripts_eq array rest (index + 1), lowered_bind, lowered_lift, lowered_pure]

theorem Variable.emit_eq : ∀ source : Variable,
    source.emit site = lowered fun depth => source.lower site depth
  | .direct _ => rfl
  | .symbolic reference => by
      simp only [Variable.emit, Variable.lower, Reference.emitPath_eq reference, lowered_bind]
      refine bind_congr fun entry => ?_
      cases site.style with
      | direct => simp only [lowered_bind, lowered_pure]
      | accessor =>
          dsimp only
          split <;> simp only [lowered_bind, lowered_pure]

theorem Expr.emit_eq : ∀ expr : Expr,
    expr.emit site = lowered fun depth => expr.lower site depth
  | .compare op left right => by
      simp only [Expr.emit, Expr.lower, Expr.emit_eq left, Expr.emit_eq right, lowered_bind,
        lowered_lift]
  | .arith op left right => by
      simp only [Expr.emit, Expr.lower, Expr.emit_eq left, Expr.emit_eq right, operands_pair,
        lowered_bind, lowered_pure, bind_assoc, pure_bind]
  | .unary op term => by
      simp only [Expr.emit, Expr.lower, Expr.emit_eq term, lowered_bind, lowered_pure]
  | .group inner => by
      simp only [Expr.emit, Expr.lower, Expr.emit_eq inner]
  | .const value => by
      simp only [Expr.emit, Expr.lower, lowered_bind, lowered_lift, lowered_pure]
  | .enumerated value => by
      simp only [Expr.emit, Expr.lower, lowered_bind, lowered_lift, lowered_pure]
  | .var source => by
      simp only [Expr.emit, Expr.lower, Variable.emit_eq source, lowered_bind, lowered_pure]
  | .call function arguments => by
      simp only [Expr.emit, Expr.lower, Argument.emitOffers_eq arguments, Argument.supplies_eq,
        CallResolution.emit_eq, lowered_bind]

theorem Expr.emitTarget?_eq : ∀ expr : Expr,
    expr.emitTarget? site =
      (expr.offeredTarget? site).map fun target => { place := lowered target.1, type := target.2 }
  | .var source => by
      simp only [Expr.emitTarget?, Expr.offeredTarget?, Variable.emit_eq source, Option.map_some]
  | .compare .. | .arith .. | .unary .. | .group .. | .const .. | .enumerated .. | .call .. => by
      simp only [Expr.emitTarget?, Expr.offeredTarget?, Option.map_none]

theorem Argument.emitOffers_eq : ∀ arguments : List Argument,
    Argument.emitOffers site arguments =
      (arguments.map (Argument.offered site)).map Offered.offer
  | [] => by
      rw [Argument.emitOffers, List.map_nil, List.map_nil]
  | .positional value :: rest => by
      simp [Argument.emitOffers, Argument.offered, Offered.offer, Expr.emit_eq value,
        Expr.emitTarget?_eq value, Argument.emitOffers_eq rest]
  | .named _ value :: rest => by
      simp [Argument.emitOffers, Argument.offered, Offered.offer, Expr.emit_eq value,
        Expr.emitTarget?_eq value, Argument.emitOffers_eq rest]
  | .output _ _ target :: rest => by
      simp [Argument.emitOffers, Argument.offered, Offered.offer, Variable.emit_eq target,
        Argument.emitOffers_eq rest]

end

end Expr

/-! ## Invocations -/

section Invocation

variable (offered : List Offered)

def BoundParameter.offeredReceiver? (bound : BoundParameter) :
    Option ((Nat → Lower Place) × Except Fault DataType) :=
  match bound.parameter.direction, bound.actual with
  | .output, some (.output ..) | .inOut, some _ =>
      (bound.offer? offered).bind Offered.target
  | _, _ => none

theorem BoundParameter.emitReceiver?_eq (bound : BoundParameter) :
    bound.emitReceiver? (offered.map Offered.offer) =
      (bound.offeredReceiver? offered).map fun target =>
        { place := lowered target.1, type := target.2 } := by
  unfold emitReceiver? offeredReceiver?
  rw [target_offer?]
  cases bound.parameter.direction <;> rcases bound.actual with _ | _ | _ <;> rfl

theorem BoundParameter.receiver?_eq (bound : BoundParameter) (depth : Nat) :
    bound.receiver? (offered.map fun item => item.supply depth) =
      (bound.offeredReceiver? offered).map fun target =>
        { place := target.1 depth, type := target.2 } := by
  unfold receiver? offeredReceiver?
  rw [destination_supply?]
  cases bound.parameter.direction <;> rcases bound.actual with _ | _ | _ <;> rfl

namespace InstanceAccess

theorem emitCopiesIn_eq (access : InstanceAccess) (bounds : List BoundParameter) :
    access.emitCopiesIn (offered.map Offered.offer) bounds =
      lowered fun depth =>
        access.copiesIn (offered.map fun item => item.supply depth) bounds := by
  induction bounds with
  | nil => rfl
  | cons bound bounds ih =>
      unfold emitCopiesIn copiesIn
      rcases bound.actual with _ | _ | _
      · exact ih
      · dsimp only
        split
        · simp only [ih, BoundParameter.emitInput_eq, lowered_bind, lowered_pure]
        · exact ih
      · exact ih

theorem emitCopiesOut_eq (access : InstanceAccess) (arguments : List Argument)
    (bounds : List BoundParameter) :
    access.emitCopiesOut arguments (offered.map Offered.offer) bounds =
      lowered fun depth =>
        access.copiesOut arguments (offered.map fun item => item.supply depth) bounds := by
  induction bounds with
  | nil => rfl
  | cons bound bounds ih =>
      unfold emitCopiesOut copiesOut
      simp only [BoundParameter.emitReceiver?_eq, BoundParameter.receiver?_eq]
      cases bound.offeredReceiver? offered with
      | none => exact ih
      | some target =>
          simp only [Option.map_some, ih, lowered_bind, lowered_lift, lowered_pure]

end InstanceAccess

theorem Site.emitInvoke_eq (site : Site) (block : Ident) (arguments : List Argument) :
    site.emitInvoke block arguments =
      lowered fun depth => site.lowerInvoke depth block arguments := by
  simp only [emitInvoke, lowerInvoke, Argument.emitOffers_eq, Argument.supplies_eq,
    InstanceAccess.emitCopiesIn_eq, InstanceAccess.emitCopiesOut_eq, lowered_bind, lowered_lift,
    lowered_pure]

theorem Site.emitStep_eq (site : Site) (step : Option Expr) :
    site.emitStep step = lowered fun depth => site.lowerStep depth step := by
  cases step with
  | none => rfl
  | some step => simp only [emitStep, lowerStep, Expr.emit_eq, lowered_bind, lowered_pure]

end Invocation

end StructuredText
