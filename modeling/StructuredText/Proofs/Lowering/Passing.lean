import StructuredText.Proofs.Lowering.Transfer

/-!
# What calls pass for parameters by pointer

For a parameter by pointer a call passes a pointer to the variable that is given for it,
and a pointer to nothing where none is given.  A call through a helper leaves this to the
helper, which passes a pointer to a variable of its own and stores what it finds there to
the variable that is given.
-/

set_option autoImplicit false

namespace StructuredText

/-! ## One parameter -/

namespace BoundParameter

/-- What a call passes by itself: a pointer to the variable that is given, or to nothing. -/
inductive Points (site : Site) (bound : BoundParameter) : Code.Expr → Prop where
  | given {target : Variable} {place : Code.Place} (isTarget : bound.target? = some target)
      (placed : target.LowersTo site place) : Points site bound (.pointer place)
  | nothing (isOutput : bound.parameter.isOutput = true) (isOpen : bound.actual = none) :
      Points site bound (.atom "NULL")

/-- What a helper passes: a pointer to the variable in which it keeps what it stores later,
or a pointer to nothing. -/
inductive Relays (site : Site) (arguments : List Argument) (stores : List Code.Store)
    (bound : BoundParameter) : Code.Expr → Prop where
  | given {store : Code.Store} (keptOut : bound.KeptOut site arguments store)
      (isStored : store ∈ stores) :
      Relays site arguments stores bound (.unary .address (.atom ("__tmp_" ++ bound.cName)))
  | nothing (isOutput : bound.parameter.isOutput = true) (isOpen : bound.actual = none) :
      Relays site arguments stores bound (.atom "NULL")

theorem Relays.mono {site : Site} {arguments : List Argument} {stores more : List Code.Store}
    {bound : BoundParameter} {argument : Code.Expr} (grows : stores ⊆ more)
    (relays : bound.Relays site arguments stores argument) :
    bound.Relays site arguments more argument := by
  cases relays with
  | given keptOut isStored => exact .given keptOut (grows isStored)
  | nothing isOutput isOpen => exact .nothing isOutput isOpen

end BoundParameter

namespace CallSlot

/-- What is said of the arguments for the parameters by pointer. -/
def PassesOut (passes : BoundParameter → Code.Expr → Prop) : CallSlot → Code.Expr → Prop
  | count _, _ => True
  | given bound, argument => (given bound).formal.byPointer = true → passes bound argument

theorem PassesOut.imp {passes others : BoundParameter → Code.Expr → Prop} {slot : CallSlot}
    {argument : Code.Expr}
    (implies : ∀ bound argument, passes bound argument → others bound argument)
    (passesOut : slot.PassesOut passes argument) : slot.PassesOut others argument := by
  cases slot with
  | count number => trivial
  | given bound => exact fun byPointer => implies bound argument (passesOut byPointer)

theorem given_mem_ofBound {number : Nat} {bound : BoundParameter} {parameters : List BoundParameter}
    (member : bound ∈ parameters) :
    ∀ {isCounted : Bool}, .given bound ∈ ofBound number isCounted parameters := by
  induction parameters with
  | nil => cases member
  | cons first rest ih =>
      intro isCounted
      rw [ofBound]
      rcases List.mem_cons.mp member with rfl | inRest
      · split <;> simp
      · split <;> simp [ih inRest]

end CallSlot

/-! ## Calls under construction -/

namespace CallParts

variable {site : Site} {arguments : List Argument} {bound : BoundParameter} {depth : Nat}
  {parts next : CallParts} {state after : LoweringState}

theorem add_points (isGiven : Binding.IsGiven arguments bound)
    (isInput : bound.parameter.isExtensible = true → bound.parameter.direction = .input)
    (run : parts.add false arguments (Argument.supplies site depth arguments) bound state =
      .ok (next, after)) :
    ∃ argument, next.arguments = parts.arguments ++ [argument] ∧
      (CallSlot.given bound).PassesOut (BoundParameter.Points site) argument := by
  unfold CallParts.add at run
  dsimp only at run
  cases direction : bound.parameter.direction with
  | input =>
      rw [direction] at run
      obtain ⟨value, middle, -, run⟩ := Lower.bind_eq_ok run
      cases run
      refine ⟨_, rfl, fun byPointer => ?_⟩
      simp [CallSlot.formal, direction] at byPointer
  | output | inOut =>
      rw [direction] at run
      obtain ⟨destination, middle, destinationRun, run⟩ := Lower.bind_eq_ok run
      have isOutput : bound.parameter.isOutput = true := by
        simp [Parameter.isOutput, direction]
      rcases destination_of_given isGiven isInput isOutput destinationRun with
        ⟨rfl, isOpen⟩ | ⟨target, isTarget, rfl⟩
      · cases run
        exact ⟨_, rfl, fun _ => .nothing isOutput isOpen⟩
      · obtain ⟨place, last, placeRun, run⟩ := Lower.bind_eq_ok run
        cases run
        exact ⟨_, rfl, fun _ => .given isTarget ⟨depth, _, _, placeRun⟩⟩
  | external =>
      rw [direction] at run
      cases run

theorem add_relays (isGiven : Binding.IsGiven arguments bound)
    (isInput : bound.parameter.isExtensible = true → bound.parameter.direction = .input)
    (run : parts.add true arguments (Argument.supplies site depth arguments) bound state =
      .ok (next, after)) :
    parts.stores ⊆ next.stores ∧ ∃ argument, next.passed = parts.passed ++ [argument] ∧
      (CallSlot.given bound).PassesOut
        (BoundParameter.Relays site arguments next.stores) argument := by
  unfold CallParts.add at run
  dsimp only at run
  cases direction : bound.parameter.direction with
  | input =>
      rw [direction] at run
      obtain ⟨value, middle, -, run⟩ := Lower.bind_eq_ok run
      cases run
      refine ⟨List.Subset.refl _, _, rfl, fun byPointer => ?_⟩
      simp [CallSlot.formal, direction] at byPointer
  | output | inOut =>
      rw [direction] at run
      obtain ⟨destination, middle, destinationRun, run⟩ := Lower.bind_eq_ok run
      have isOutput : bound.parameter.isOutput = true := by
        simp [Parameter.isOutput, direction]
      rcases destination_of_given isGiven isInput isOutput destinationRun with
        ⟨rfl, isOpen⟩ | ⟨target, isTarget, rfl⟩
      · cases run
        exact ⟨List.Subset.refl _, _, rfl, fun _ => .nothing isOutput isOpen⟩
      · obtain ⟨initial, -, -, -, passed⟩ := addDestination_ok run
        obtain ⟨store, stores, keptOut⟩ := stores_of_addDestination isTarget run
        refine ⟨?_, _, passed, fun _ => .given keptOut ?_⟩
        · rw [stores]
          exact List.subset_append_left ..
        · rw [stores]
          exact List.mem_append_right _ (List.mem_singleton.mpr rfl)
  | external =>
      rw [direction] at run
      cases run

section All

variable {count : Nat} {parameters : List BoundParameter}
  (areGiven : ∀ bound ∈ parameters, Binding.IsGiven arguments bound)
  (areInputs : ∀ bound ∈ parameters, bound.parameter.isExtensible = true →
    bound.parameter.direction = .input)

include areGiven areInputs

theorem addAll_points
    (run : CallParts.addAll false count arguments (Argument.supplies site depth arguments) false {}
      parameters state = .ok (next, after)) :
    List.Forall₂ (CallSlot.PassesOut (BoundParameter.Points site))
      (CallSlot.ofBound count false parameters) next.arguments := by
  have start : List.Forall₂ (CallSlot.PassesOut (BoundParameter.Points site)) []
      ({} : CallParts).arguments := .nil
  refine addAll_keeps (fun slots parts =>
    List.Forall₂ (CallSlot.PassesOut (BoundParameter.Points site)) slots parts.arguments)
    ?_ ?_ start run
  · intro slots parts filled
    exact List.rel_append filled (.cons trivial .nil)
  · intro slots parts next state after bound isBound filled added
    obtain ⟨argument, grown, points⟩ :=
      add_points (areGiven bound isBound) (areInputs bound isBound) added
    rw [grown]
    exact List.rel_append filled (.cons points .nil)

theorem addAll_relays
    (run : CallParts.addAll true count arguments (Argument.supplies site depth arguments) false {}
      parameters state = .ok (next, after)) :
    List.Forall₂ (CallSlot.PassesOut (BoundParameter.Relays site arguments next.stores))
      (CallSlot.ofBound count false parameters) next.passed := by
  have start : List.Forall₂ (CallSlot.PassesOut (BoundParameter.Relays site arguments [])) []
      ({} : CallParts).passed := .nil
  refine addAll_keeps (fun slots parts =>
    List.Forall₂ (CallSlot.PassesOut (BoundParameter.Relays site arguments parts.stores)) slots
      parts.passed) ?_ ?_ start run
  · intro slots parts filled
    exact List.rel_append filled (.cons trivial .nil)
  · intro slots parts next state after bound isBound filled added
    obtain ⟨grows, argument, grown, relays⟩ :=
      add_relays (areGiven bound isBound) (areInputs bound isBound) added
    rw [grown]
    refine List.rel_append (filled.imp fun _ _ earlier => ?_) (.cons relays .nil)
    exact earlier.imp fun _ _ relays => relays.mono grows

end All

end CallParts

/-! ## Lowered calls -/

/-- The code of a call with the pointers that it passes for slots.  A unit with accessors
leaves a call that takes a value out of the function to a helper. -/
inductive Code.Expr.PassesOut (site : Site) (arguments : List Argument) (binding : Binding)
    (callee : String) (slots : List CallSlot) (after : LoweringState) : Code.Expr → Prop where
  | direct {codes : List Code.Expr}
      (isPlain : site.style = .accessor → binding.hasDestination = false)
      (points : List.Forall₂ (CallSlot.PassesOut (BoundParameter.Points site)) slots codes) :
      PassesOut site arguments binding callee slots after (.callLines callee codes)
  | throughHelper {helper : Code.Helper} {values : List Code.Expr}
      (isAccessor : site.style = .accessor) (kept : after.isOn = true → helper ∈ after.helpers)
      (calls : helper.callee = callee)
      (relays : List.Forall₂
        (CallSlot.PassesOut (BoundParameter.Relays site arguments helper.stores)) slots
        helper.arguments) :
      PassesOut site arguments binding callee slots after
        (.callLines helper.name (values ++ [.atom "data__"]))

theorem CallResolution.passesOut_of_lower {site : Site} {depth inner : Nat}
    {resolution : CallResolution} {function : Ident} {arguments : List Argument}
    {binding : Binding} {state after : LoweringState} {code : Code.Expr}
    (made : Binding.make resolution.signature.parameters arguments = .ok binding)
    (groupLast : Parameter.GroupLast resolution.signature.parameters)
    (run : resolution.lower site depth function arguments (Argument.supplies site inner arguments)
      state = .ok (code, after)) :
    code.PassesOut site arguments binding (resolution.signature.cName resolution.isOverloaded)
      (CallSlot.ofBound resolution.count false binding.parameters) after := by
  have areGiven := Binding.isGiven_of_make made
  have areInputs := Binding.input_of_extensible groupLast made
  obtain ⟨-, other, otherMade, lowered⟩ := lowered_of_lower run
  rw [made] at otherMade
  cases otherMade
  cases lowered with
  | direct isPlain added =>
      exact .direct isPlain (CallParts.addAll_points areGiven areInputs added)
  | throughHelper isAccessor numbered added helped =>
      exact .throughHelper isAccessor (Lower.mem_of_addHelper helped) rfl
        (CallParts.addAll_relays areGiven areInputs added)

section Resolved

variable {context : Context} {library : Library} {withConversions : Bool}
  (resolved : Context.resolve library withConversions = .ok context)

include resolved

/-- Every call passes pointers for what its arguments are bound to. -/
theorem LoweredCall.passesOut (call : LoweredCall context) :
    ∃ binding, Binding.make call.resolution.signature.parameters call.arguments = .ok binding ∧
      call.code.PassesOut call.site call.arguments binding call.callee
        (CallSlot.ofBound call.resolution.count false binding.parameters) call.after := by
  obtain ⟨overloads, declared, member, -, binding, made, -⟩ :=
    CallResolution.of?_eq_some call.meaning
  have isDeclaration :
      call.resolution.signature ∈ context.functions.declarationsOf call.function := by
    rw [FunctionTable.declarationsOf, declared]
    exact member
  have run := call.run
  rw [Expr.lower, call.inContext, call.meaning, Lower.need_some_bind] at run
  exact ⟨binding, made, CallResolution.passesOut_of_lower made
    (Context.groupLast_of_resolve resolved isDeclaration) run⟩

end Resolved

end StructuredText
