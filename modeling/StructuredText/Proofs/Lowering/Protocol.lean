import StructuredText.Proofs.Call.Binding
import StructuredText.Proofs.Lowering.Names

/-!
# Arguments and parameters of calls

A call passes one argument for each parameter of the function that it calls, in the
order of the parameters: a value of the type of a parameter by value, and a pointer for
a parameter by pointer.  A call through a helper passes the values alone; the helper
passes them on and adds the pointers.  Ahead of the group of an extensible parameter
stands the number of its arguments.
-/

set_option autoImplicit false

namespace StructuredText

open Code (Formal)

/-! ## What a parameter takes -/

def Code.Expr.isPointer : Code.Expr → Bool
  | .pointer _ => true
  | .atom text => text == "NULL"
  | _ => false

/-- The argument suits the parameter: a pointer where one is asked for, and a value of
the type elsewhere. -/
structure Code.Expr.Suits (argument : Code.Expr) (formal : Formal) : Prop where
  pointer : argument.isPointer = formal.byPointer
  value : formal.byPointer = false → ∃ value, argument = .cast formal.type value

/-- What a call has to supply: the number of arguments of a group, or what is bound to a
parameter. -/
inductive CallSlot where
  | count (number : Nat)
  | given (bound : BoundParameter)

namespace CallSlot

def formal : CallSlot → Formal
  | count _ => { type := "UINT", name := "__count" }
  | given bound =>
      { type := bound.parameter.type.cName, name := bound.cName
        byPointer := bound.parameter.direction != .input }

def FilledBy : CallSlot → Code.Expr → Prop
  | count number, argument => argument = .cast "UINT" (.atom (toString number))
  | given bound, argument => argument.Suits (given bound).formal

def ofGroup : List BoundParameter → List CallSlot
  | [] => []
  | first :: rest => count (rest.length + 1) :: (first :: rest).map given

/-- The slots of bound parameters, given whether the number has been passed. -/
def ofBound (number : Nat) : (isCounted : Bool) → List BoundParameter → List CallSlot
  | _, [] => []
  | isCounted, bound :: rest =>
      if bound.parameter.isExtensible && !isCounted then
        count number :: given bound :: ofBound number true rest
      else given bound :: ofBound number isCounted rest

theorem ofBound_counted (number : Nat) (bound : List BoundParameter) :
    ofBound number true bound = bound.map given := by
  induction bound with
  | nil => rfl
  | cons first rest ih => simp [ofBound, ih]

theorem ofBound_members {members : List BoundParameter}
    (extensible : ∀ bound ∈ members, bound.parameter.isExtensible = true) :
    ofBound members.length false members = ofGroup members := by
  cases members with
  | nil => rfl
  | cons first rest =>
      have isExtensible := extensible first (List.mem_cons_self ..)
      simp [ofBound, ofGroup, isExtensible, ofBound_counted]

theorem ofBound_append {number : Nat} {plain members : List BoundParameter}
    (single : ∀ bound ∈ plain, bound.parameter.isExtensible = false) :
    ofBound number false (plain ++ members) =
      plain.map given ++ ofBound number false members := by
  induction plain with
  | nil => rfl
  | cons first rest ih =>
      have isSingle := single first (List.mem_cons_self ..)
      have restSingle : ∀ bound ∈ rest, bound.parameter.isExtensible = false :=
        fun bound member => single bound (List.mem_cons_of_mem _ member)
      simp [ofBound, isSingle, ih restSingle]

end CallSlot

/-- What a helper passes for a parameter of the function it calls: a parameter of its own
that is the very same, a pointer to a variable of its own, or a pointer to nothing. -/
inductive Code.PassesOn (own : List Formal) (temporaries : List (String × String × Code.Expr)) :
    Formal → Code.Expr → Prop where
  | value {formal : Formal} (isValue : formal.byPointer = false) (isOwn : formal ∈ own) :
      PassesOn own temporaries formal (.atom formal.name)
  | kept {formal : Formal} {name : String} {initial : Code.Expr}
      (isPointer : formal.byPointer = true)
      (isOwn : (formal.type, name, initial) ∈ temporaries) :
      PassesOn own temporaries formal (.unary .address (.atom name))
  | nothing {formal : Formal} (isPointer : formal.byPointer = true) :
      PassesOn own temporaries formal (.atom "NULL")

theorem Code.PassesOn.mono {own : List Formal} {temporaries : List (String × String × Code.Expr)}
    {formal : Formal} {argument : Code.Expr} (moreOwn : List Formal)
    (moreTemporaries : List (String × String × Code.Expr))
    (passes : PassesOn own temporaries formal argument) :
    PassesOn (own ++ moreOwn) (temporaries ++ moreTemporaries) formal argument := by
  cases passes with
  | value isValue isOwn => exact .value isValue (List.mem_append_left _ isOwn)
  | kept isPointer isOwn => exact .kept isPointer (List.mem_append_left _ isOwn)
  | nothing isPointer => exact .nothing isPointer

/-! ## Calls under construction -/

namespace CallParts

/-- The parts of a call through a helper serve slots: the call site and the helper take
the values, and the helper passes on something for every slot. -/
structure Serves (parts : CallParts) (slots : List CallSlot) : Prop where
  formals : parts.formals =
    (slots.map CallSlot.formal).filter fun formal => !formal.byPointer
  arguments : List.Forall₂ CallSlot.FilledBy
    (slots.filter fun slot => !slot.formal.byPointer) parts.arguments
  passed : List.Forall₂ (Code.PassesOn parts.formals parts.temporaries)
    (slots.map CallSlot.formal) parts.passed

theorem serves_nil : ({} : CallParts).Serves [] := ⟨rfl, .nil, .nil⟩

variable {parts next : CallParts} {slots : List CallSlot} {arguments : List Argument}
  {supplies : List Supply} {bound : BoundParameter} {state after : LoweringState}

theorem Serves.addInput {slot : CallSlot} {argument : Code.Expr} (serves : parts.Serves slots)
    (isValue : slot.formal.byPointer = false) (filled : slot.FilledBy argument) :
    (parts.addInput argument slot.formal.type slot.formal.name).Serves (slots ++ [slot]) := by
  have sameFormal : ({ type := slot.formal.type, name := slot.formal.name } : Formal) =
      slot.formal := by
    rw [← isValue]
  refine ⟨?_, ?_, ?_⟩
  · simp [CallParts.addInput, serves.formals, sameFormal, isValue]
  · rw [List.filter_append]
    refine List.rel_append serves.arguments ?_
    simpa [isValue] using filled
  · rw [List.map_append]
    refine List.rel_append (serves.passed.imp fun _ _ passes => ?_) (.cons ?_ .nil)
    · have more := passes.mono [slot.formal] []
      rw [List.append_nil] at more
      simpa [CallParts.addInput, sameFormal] using more
    · refine .value isValue ?_
      simp [CallParts.addInput, sameFormal]

theorem Serves.addPointer {slot : CallSlot} {argument : Code.Expr}
    {temporaries : List (String × String × Code.Expr)} (serves : parts.Serves slots)
    (isPointer : slot.formal.byPointer = true) (formals : next.formals = parts.formals)
    (sameArguments : next.arguments = parts.arguments)
    (temporariesGrow : next.temporaries = parts.temporaries ++ temporaries)
    (passed : next.passed = parts.passed ++ [argument])
    (passes : Code.PassesOn next.formals next.temporaries slot.formal argument) :
    next.Serves (slots ++ [slot]) := by
  refine ⟨?_, ?_, ?_⟩
  · simp [formals, serves.formals, isPointer]
  · rw [sameArguments, List.filter_append]
    simpa [isPointer] using serves.arguments
  · rw [passed, List.map_append]
    refine List.rel_append (serves.passed.imp fun _ _ earlier => ?_) (.cons passes .nil)
    rw [formals, temporariesGrow]
    have more := earlier.mono [] temporaries
    rw [List.append_nil] at more
    exact more

theorem add_direct (run : parts.add false arguments supplies bound state = .ok (next, after)) :
    ∃ argument, next.arguments = parts.arguments ++ [argument] ∧
      (CallSlot.given bound).FilledBy argument := by
  unfold CallParts.add at run
  dsimp only at run
  cases direction : bound.parameter.direction with
  | input =>
      rw [direction] at run
      obtain ⟨value, middle, -, run⟩ := Lower.bind_eq_ok run
      cases run
      refine ⟨_, rfl, ?_, fun _ => ⟨_, rfl⟩⟩
      simp [CallSlot.formal, direction, Code.Expr.isPointer]
  | output | inOut =>
      rw [direction] at run
      obtain ⟨destination, middle, -, run⟩ := Lower.bind_eq_ok run
      have isPointer : (CallSlot.given bound).formal.byPointer = true := by
        simp [CallSlot.formal, direction]
      cases destination with
      | none =>
          cases run
          refine ⟨.atom "NULL", rfl, ?_, ?_⟩
          · rw [isPointer]
            rfl
          · rw [isPointer]
            exact nofun
      | some destination =>
          obtain ⟨place, last, -, run⟩ := Lower.bind_eq_ok run
          cases run
          refine ⟨.pointer place, rfl, ?_, ?_⟩
          · rw [isPointer]
            rfl
          · rw [isPointer]
            exact nofun
  | external =>
      rw [direction] at run
      cases run

/-- An output that goes through a helper is kept in a variable of the helper. -/
theorem addDestination_ok {destination : Destination}
    (run : parts.addDestination arguments bound destination state = .ok (next, after)) :
    ∃ initial, next.formals = parts.formals ∧ next.arguments = parts.arguments ∧
      next.temporaries = parts.temporaries ++
        [(bound.parameter.type.cName, "__tmp_" ++ bound.cName, initial)] ∧
      next.passed = parts.passed ++ [.unary .address (.atom ("__tmp_" ++ bound.cName))] := by
  unfold CallParts.addDestination at run
  dsimp only at run
  cases direction : bound.parameter.direction with
  | input | output | inOut | external =>
      rw [direction] at run
      obtain ⟨start, first, -, run⟩ := Lower.bind_eq_ok run
      obtain ⟨initial, second, -, run⟩ := Lower.bind_eq_ok run
      obtain ⟨type, third, -, run⟩ := Lower.bind_eq_ok run
      obtain ⟨place, fourth, -, run⟩ := Lower.bind_eq_ok run
      cases run
      exact ⟨initial, rfl, rfl, rfl, rfl⟩

theorem Serves.add (serves : parts.Serves slots)
    (run : parts.add true arguments supplies bound state = .ok (next, after)) :
    next.Serves (slots ++ [.given bound]) := by
  unfold CallParts.add at run
  dsimp only at run
  cases direction : bound.parameter.direction with
  | input =>
      rw [direction] at run
      obtain ⟨value, middle, -, run⟩ := Lower.bind_eq_ok run
      cases run
      have isValue : (CallSlot.given bound).formal.byPointer = false := by
        simp [CallSlot.formal, direction]
      refine serves.addInput isValue ⟨?_, fun _ => ⟨_, rfl⟩⟩
      rw [isValue]
      rfl
  | output | inOut =>
      rw [direction] at run
      obtain ⟨destination, middle, -, run⟩ := Lower.bind_eq_ok run
      have isPointer : (CallSlot.given bound).formal.byPointer = true := by
        simp [CallSlot.formal, direction]
      cases destination with
      | none =>
          cases run
          exact serves.addPointer isPointer rfl rfl (List.append_nil _).symm rfl
            (.nothing isPointer)
      | some destination =>
          obtain ⟨initial, formals, sameArguments, temporaries, passed⟩ := addDestination_ok run
          have isOwn : (bound.parameter.type.cName, "__tmp_" ++ bound.cName, initial) ∈
              next.temporaries := by
            rw [temporaries]
            exact List.mem_append_right _ (List.mem_singleton.mpr rfl)
          exact serves.addPointer isPointer formals sameArguments temporaries passed
            (.kept isPointer isOwn)
  | external =>
      rw [direction] at run
      cases run

/-- A relation between slots and parts that each slot keeps up, as it is added, holds of the
slots of bound parameters once all of them have been added. -/
theorem addAll_keeps (Keeps : List CallSlot → CallParts → Prop) {isIndirect : Bool} {count : Nat}
    {parameters : List BoundParameter}
    (counts : ∀ {slots : List CallSlot} {parts : CallParts}, Keeps slots parts →
      Keeps (slots ++ [.count count])
        (parts.addInput (.cast "UINT" (.atom (toString count))) "UINT" "__count"))
    (gives : ∀ {slots : List CallSlot} {parts next : CallParts} {state after : LoweringState},
      ∀ bound ∈ parameters, Keeps slots parts →
        parts.add isIndirect arguments supplies bound state = .ok (next, after) →
        Keeps (slots ++ [.given bound]) next) :
    ∀ {isCounted : Bool} {parts next : CallParts} {slots : List CallSlot}
      {state after : LoweringState}, Keeps slots parts →
      CallParts.addAll isIndirect count arguments supplies isCounted parts parameters state =
        .ok (next, after) →
      Keeps (slots ++ CallSlot.ofBound count isCounted parameters) next := by
  induction parameters with
  | nil =>
      intro isCounted parts next slots state after kept run
      cases run
      rw [CallSlot.ofBound, List.append_nil]
      exact kept
  | cons bound rest ih =>
      intro isCounted parts next slots state after kept run
      rw [CallParts.addAll] at run
      obtain ⟨middle, between, added, run⟩ := Lower.bind_eq_ok run
      have further := @ih fun other inRest => gives other (List.mem_cons_of_mem _ inRest)
      by_cases isFirst : (bound.parameter.isExtensible && !isCounted) = true
      · simp only [isFirst, if_true, Bool.or_true] at added run
        have all := further (gives bound (List.mem_cons_self ..) (counts kept) added) run
        rw [CallSlot.ofBound, if_pos isFirst]
        rwa [List.append_assoc, List.append_assoc] at all
      · simp only [isFirst, if_false, Bool.or_false, Bool.false_eq_true] at added run
        have all := further (gives bound (List.mem_cons_self ..) kept added) run
        rw [CallSlot.ofBound, if_neg isFirst]
        rwa [List.append_assoc] at all

/-- What holds of the argument for each slot holds of all arguments of a call without a
helper. -/
theorem addAll_direct {count : Nat} {parameters : List BoundParameter}
    {Fills : CallSlot → Code.Expr → Prop}
    (counts : Fills (.count count) (.cast "UINT" (.atom (toString count))))
    (gives : ∀ {parts next : CallParts} {bound : BoundParameter} {state after : LoweringState},
      parts.add false arguments supplies bound state = .ok (next, after) →
      ∃ argument, next.arguments = parts.arguments ++ [argument] ∧ Fills (.given bound) argument)
    {isCounted : Bool} {slots : List CallSlot} (filled : List.Forall₂ Fills slots parts.arguments)
    (run : CallParts.addAll false count arguments supplies isCounted parts parameters state =
      .ok (next, after)) :
    List.Forall₂ Fills (slots ++ CallSlot.ofBound count isCounted parameters)
      next.arguments := by
  refine addAll_keeps (fun slots parts => List.Forall₂ Fills slots parts.arguments)
    ?_ ?_ filled run
  · intro slots parts filled
    exact List.rel_append filled (.cons counts .nil)
  · intro slots parts next state after bound _ filled added
    obtain ⟨argument, grown, isFilled⟩ := gives added
    rw [grown]
    exact List.rel_append filled (.cons isFilled .nil)

/-- The parts of a call through a helper serve the slots of the bound parameters. -/
theorem Serves.addAll {count : Nat} {parameters : List BoundParameter} {isCounted : Bool}
    (serves : parts.Serves slots)
    (run : CallParts.addAll true count arguments supplies isCounted parts parameters state =
      .ok (next, after)) :
    next.Serves (slots ++ CallSlot.ofBound count isCounted parameters) := by
  refine addAll_keeps (fun slots parts => parts.Serves slots) ?_ ?_ serves run
  · intro slots parts serves
    exact @Serves.addInput _ _ (.count count) _ serves rfl rfl
  · intro slots parts next state after bound _ serves added
    exact serves.add added

end CallParts

/-! ## Lowered calls -/

/-- A lowered call that keeps to slots.  It names the function and fills every slot; or it
names a helper that calls the function.  Such a helper takes the slots by value and, last,
the instance, and it passes something on for every slot. -/
inductive Code.Expr.KeepsTo (unit callee : String) (slots : List CallSlot)
    (after : LoweringState) : Code.Expr → Prop where
  | direct {arguments : List Code.Expr}
      (filled : List.Forall₂ CallSlot.FilledBy slots arguments) :
      KeepsTo unit callee slots after (.callLines callee arguments)
  | throughHelper {helper : Code.Helper} {values : List Code.Expr}
      (kept : after.isOn = true → helper ∈ after.helpers) (calls : helper.callee = callee)
      (heading : Code.Piece.text ("static inline " ++ helper.returnType ++ " " ++ helper.name ++
        "(" ++ ", ".intercalate (helper.formals.map Formal.print ++ [unit ++ " *data__"]) ++
        ") \x7b\n") ∈ helper.print)
      (formals : helper.formals =
        (slots.map CallSlot.formal).filter fun formal => !formal.byPointer)
      (filled : List.Forall₂ CallSlot.FilledBy
        (slots.filter fun slot => !slot.formal.byPointer) values)
      (passed : List.Forall₂ (Code.PassesOn helper.formals helper.temporaries)
        (slots.map CallSlot.formal) helper.arguments) :
      KeepsTo unit callee slots after (.callLines helper.name (values ++ [.atom "data__"]))

theorem Code.Helper.heading_mem_print (helper : Code.Helper) :
    Code.Piece.text ("static inline " ++ helper.returnType ++ " " ++ helper.name ++ "(" ++
      ", ".intercalate (helper.formals.map Formal.print ++ [helper.unit ++ " *data__"]) ++
      ") \x7b\n") ∈ helper.print := by
  simp only [Code.Helper.print, List.mem_append, List.mem_singleton, true_or]

theorem CallResolution.keepsTo_of_lower {site : Site} {depth : Nat} {resolution : CallResolution}
    {function : Ident} {arguments : List Argument} {supplies : List Supply} {binding : Binding}
    {state after : LoweringState} {code : Code.Expr}
    (made : Binding.make resolution.signature.parameters arguments = .ok binding)
    (run : resolution.lower site depth function arguments supplies state = .ok (code, after)) :
    (resolution.signature.hasExtensible = true → resolution.count ≠ 0) ∧
      code.KeepsTo site.unit (resolution.signature.cName resolution.isOverloaded)
        (CallSlot.ofBound resolution.count false binding.parameters) after := by
  obtain ⟨counted, other, otherMade, lowered⟩ := lowered_of_lower run
  rw [made] at otherMade
  cases otherMade
  refine ⟨counted, ?_⟩
  cases lowered with
  | direct isPlain added =>
      exact .direct (CallParts.addAll_direct rfl CallParts.add_direct .nil added)
  | throughHelper isAccessor numbered added helped =>
      have serves := CallParts.serves_nil.addAll added
      exact .throughHelper (Lower.mem_of_addHelper helped) rfl
        (Code.Helper.heading_mem_print _) serves.formals serves.arguments serves.passed

/-- A call that analysis has resolved, with the code it was lowered to. -/
structure LoweredCall (context : Context) where
  site : Site
  inContext : site.context = context
  depth : Nat
  function : Ident
  arguments : List Argument
  resolution : CallResolution
  meaning : CallResolution.of? context site.scope function arguments = some resolution
  before : LoweringState
  after : LoweringState
  code : Code.Expr
  run : (Expr.call function arguments).lower site depth before = .ok (code, after)

def LoweredCall.KeepsTo {context : Context} (call : LoweredCall context) (callee : String)
    (slots : List CallSlot) : Prop :=
  call.code.KeepsTo call.site.unit callee slots call.after

/-- The name of the function that the call means. -/
def LoweredCall.callee {context : Context} (call : LoweredCall context) : String :=
  call.resolution.signature.cName call.resolution.isOverloaded

/-- The call keeps to the parameters that its arguments are bound to: those that are not
extensible in the order of declaration, and then the members of the group, if there is
one, after their number. -/
def LoweredCall.Fits {context : Context} (call : LoweredCall context) : Prop :=
  ∃ binding plain members,
    Binding.make call.resolution.signature.parameters call.arguments = .ok binding ∧
    binding.parameters = plain ++ members ∧
    plain.map BoundParameter.parameter = call.resolution.signature.parameters.filter
      (fun parameter => !parameter.isExtensible) ∧
    (∀ bound ∈ plain, bound.position = none) ∧
    (∀ bound ∈ members, bound.parameter.isExtensible = true) ∧
    (call.resolution.signature.hasExtensible = true → members ≠ []) ∧
    call.KeepsTo call.callee (plain.map .given ++ CallSlot.ofGroup members)

section Library

variable {context : Context} {library : Library} {withConversions : Bool}
  (resolved : Context.resolve library withConversions = .ok context)

include resolved

theorem Context.groupLast_of_resolve {name : Ident} {signature : FunctionSignature}
    (member : signature ∈ context.functions.declarationsOf name) :
    Parameter.GroupLast signature.parameters := by
  obtain ⟨signatures, signed, declarations⟩ := Context.functions_declared resolved
  rw [declarations] at member
  rcases List.mem_append.mp member with standard | ofLibrary
  · have shape := Standard.takesInputs_functions (List.mem_filter.mp standard).1
    exact Standard.groupLast_of_takesInputs shape
  · obtain ⟨decl, -, made⟩ :=
      Context.mem_signatures signed (List.mem_filter.mp ofLibrary).1
    exact .plain (FunctionDecl.single_of_signature made)

/-- Every call keeps to the parameters that its arguments are bound to. -/
theorem LoweredCall.fits (call : LoweredCall context) : call.Fits := by
  obtain ⟨overloads, declared, member, -, binding, made, counted⟩ :=
    CallResolution.of?_eq_some call.meaning
  have isDeclaration :
      call.resolution.signature ∈ context.functions.declarationsOf call.function := by
    rw [FunctionTable.declarationsOf, declared]
    exact member
  obtain ⟨plain, members, split, names, single, extensible, length⟩ :=
    Binding.split_of_make (Context.groupLast_of_resolve resolved isDeclaration) made
  have run := call.run
  rw [Expr.lower, call.inContext, call.meaning, Lower.need_some_bind] at run
  obtain ⟨positive, keeps⟩ := CallResolution.keepsTo_of_lower made run
  have slots : CallSlot.ofBound call.resolution.count false binding.parameters =
      plain.map .given ++ CallSlot.ofGroup members := by
    rw [split, CallSlot.ofBound_append fun bound inPlain => (single bound inPlain).1, counted,
      ← length, CallSlot.ofBound_members fun bound inGroup => (extensible bound inGroup).1]
  rw [slots] at keeps
  refine ⟨binding, plain, members, made, split, names, fun bound inPlain =>
    (single bound inPlain).2, fun bound inGroup => (extensible bound inGroup).1, ?_, keeps⟩
  intro hasExtensible isEmpty
  apply positive hasExtensible
  rw [counted, ← length, isEmpty]
  rfl

end Library

/-! ## Definitions -/

/-- The parameters in the heading of a function are those that its calls keep to. -/
theorem Parameter.formals_of_bound {plain : List BoundParameter} :
    ∀ {parameters : List Parameter} {formals : List Formal},
      parameters.mapM Parameter.formal = .ok formals →
      plain.map BoundParameter.parameter = parameters →
      (∀ bound ∈ plain, bound.position = none) →
      (plain.map CallSlot.given).map CallSlot.formal = formals := by
  induction plain with
  | nil =>
      intro parameters formals made names _
      subst names
      cases made
      rfl
  | cons bound rest ih =>
      intro parameters formals made names positions
      subst names
      rw [List.map_cons, List.mapM_cons] at made
      obtain ⟨first, firstMade, made⟩ := bind_eq_ok made
      obtain ⟨others, othersMade, made⟩ := bind_eq_ok made
      cases made
      have same : (CallSlot.given bound).formal = first := by
        have noPosition := positions bound (List.mem_cons_self ..)
        unfold Parameter.formal at firstMade
        cases direction : bound.parameter.direction <;> rw [direction] at firstMade <;>
          cases firstMade <;>
          simp [CallSlot.formal, BoundParameter.cName, noPosition, direction]
      rw [List.map_cons, List.map_cons, same, ih othersMade rfl fun other member =>
        positions other (List.mem_cons_of_mem _ member)]

end StructuredText
