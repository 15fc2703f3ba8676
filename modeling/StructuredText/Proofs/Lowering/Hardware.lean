import StructuredText.Proofs.Code.Pointer
import StructuredText.Proofs.Lowering.Origin
import StructuredText.Proofs.Lowering.Protocol

/-!
# Pointers in the code of a body

The statements of a body go through no pointers but those to places of the hardware, which
bear the names of addresses.
-/

set_option autoImplicit false

namespace StructuredText

/-! ## Pointers to places of the hardware -/

def Code.AreAddresses (pointers : List String) : Prop :=
  ∀ pointer ∈ pointers, ∃ address : Address, pointer = address.cName

namespace Code

@[simp] theorem areAddresses_nil : AreAddresses [] := nofun

@[simp] theorem areAddresses_append {first second : List String} :
    AreAddresses (first ++ second) ↔ AreAddresses first ∧ AreAddresses second :=
  List.forall_mem_append

@[simp] theorem areAddresses_flatMap {α : Type} {parts : List α} {pointers : α → List String} :
    AreAddresses (parts.flatMap pointers) ↔ ∀ part ∈ parts, AreAddresses (pointers part) := by
  simp only [AreAddresses, List.mem_flatMap, forall_exists_index, and_imp]
  exact ⟨fun all part member pointer isPointer => all pointer part member isPointer,
    fun all pointer part member isPointer => all part member pointer isPointer⟩

@[simp] theorem Expr.areAddresses_list {exprs : List Expr} :
    AreAddresses (Expr.derefsList exprs) ↔ ∀ expr ∈ exprs, AreAddresses expr.derefs := by
  induction exprs with
  | nil => simp [Expr.derefsList]
  | cons expr exprs ih => simp [Expr.derefsList, ih]

/-- A pointer to a place takes no more pointers than its value. -/
theorem Place.areAddresses_pointer {place : Place}
    (areAddresses : AreAddresses (place.derefs false)) :
    AreAddresses (place.derefs true) := by
  cases place with
  | pin name => simp [Place.derefs]
  | named root path => simpa [Place.derefs] using areAddresses
  | member family handle root => simp [Place.derefs]
  | part family handle root path => simpa [Place.derefs] using areAddresses

theorem Step.areAddresses_next {step : Step} {control : Expr}
    (stepAddresses : AreAddresses step.derefs) (controlAddresses : AreAddresses control.derefs) :
    AreAddresses (step.next control).derefs := by
  cases step with
  | one => simp [Step.next, Expr.derefs, controlAddresses]
  | upward step | either step =>
      rw [Step.derefs] at stepAddresses
      simp [Step.next, Expr.derefs, controlAddresses, stepAddresses]

theorem Expr.areAddresses_checked (type : DataType) (value : Expr) :
    AreAddresses (value.checked type).derefs ↔ AreAddresses value.derefs := by
  unfold Expr.checked
  split <;> simp [Expr.derefs]

end Code

open Code (AreAddresses)

section Operators

variable {left right : Code.Expr} (leftAddresses : AreAddresses left.derefs)
  (rightAddresses : AreAddresses right.derefs)

include leftAddresses rightAddresses

theorem CompareOp.areAddresses_lower {op : CompareOp} {leftType rightType : DataType}
    {code : Code.Expr} (lowered : op.lower leftType rightType left right = .ok code) :
    AreAddresses code.derefs := by
  cases op with
  | or | and =>
      cases lowered
      simp [Code.Expr.derefs, leftAddresses, rightAddresses]
  | xor =>
      simp only [CompareOp.lower] at lowered
      split at lowered <;> cases lowered <;>
        simp [Code.Expr.derefs, leftAddresses, rightAddresses]
  | eq | ne | lt | gt | le | ge =>
      simp only [CompareOp.lower, CompareOp.relation?] at lowered
      split at lowered <;> cases lowered <;>
        simp [Code.Expr.derefs, leftAddresses, rightAddresses]

theorem ArithOp.areAddresses_lower (op : ArithOp) (leftType rightType : DataType) :
    AreAddresses (op.lower leftType rightType left right).derefs := by
  cases op with
  | add | sub | mul | div =>
      simp only [ArithOp.lower]
      split <;> simp [Code.Expr.derefs, leftAddresses, rightAddresses]
  | mod | pow => simp [ArithOp.lower, Code.Expr.derefs, leftAddresses, rightAddresses]

end Operators

/-! ## Calls -/

structure Supply.TakesAddresses (supply : Supply) : Prop where
  value : ∀ {value : Lower Code.Expr} {state after : LoweringState} {code : Code.Expr},
    supply.value = some value → value state = .ok (code, after) → AreAddresses code.derefs
  place : ∀ {destination : Destination} {state after : LoweringState} {place : Code.Place},
    supply.destination = some destination → destination.place state = .ok (place, after) →
    AreAddresses (place.derefs false)

section Call

variable {supplies : List Supply} (takeAddresses : ∀ supply ∈ supplies, supply.TakesAddresses)
  {arguments : List Argument} {bound : BoundParameter} {state after : LoweringState}

include takeAddresses

theorem BoundParameter.areAddresses_lowerInput {code : Code.Expr}
    (run : bound.lowerInput supplies state = .ok (code, after)) : AreAddresses code.derefs := by
  unfold lowerInput at run
  cases actual : bound.actual with
  | none =>
      rw [actual] at run
      obtain ⟨text, middle, -, run⟩ := Lower.bind_eq_ok run
      cases run
      simp [Code.Expr.derefs]
  | some given =>
      rw [actual] at run
      dsimp only at run
      cases found : (bound.supply? supplies).bind Supply.value with
      | none =>
          rw [found] at run
          cases run
      | some value =>
          rw [found] at run
          obtain ⟨supply, isSupply, isValue⟩ := Option.bind_eq_some_iff.mp found
          exact (takeAddresses supply (mem_of_supply? isSupply)).value isValue run

theorem BoundParameter.areAddresses_place {destination : Destination} {place : Code.Place}
    (found : (bound.supply? supplies).bind Supply.destination = some destination)
    (run : destination.place state = .ok (place, after)) : AreAddresses (place.derefs false) := by
  obtain ⟨supply, isSupply, isDestination⟩ := Option.bind_eq_some_iff.mp found
  exact (takeAddresses supply (mem_of_supply? isSupply)).place isDestination run

/-- The arguments at the site of a call: a helper takes the values alone. -/
theorem CallParts.areAddresses_add {parts next : CallParts} {isIndirect : Bool}
    (earlier : ∀ argument ∈ parts.arguments, AreAddresses argument.derefs)
    (run : parts.add isIndirect arguments supplies bound state = .ok (next, after)) :
    ∀ argument ∈ next.arguments, AreAddresses argument.derefs := by
  have grown : ∀ {last : Code.Expr}, AreAddresses last.derefs →
      ∀ argument ∈ parts.arguments ++ [last], AreAddresses argument.derefs := by
    intro last areAddresses argument member
    rcases List.mem_append.mp member with isEarlier | isLast
    · exact earlier argument isEarlier
    · rw [List.mem_singleton.mp isLast]
      exact areAddresses
  unfold CallParts.add at run
  dsimp only at run
  cases direction : bound.parameter.direction with
  | input =>
      rw [direction] at run
      obtain ⟨value, middle, valueRun, run⟩ := Lower.bind_eq_ok run
      cases run
      apply grown
      rw [Code.Expr.derefs, Code.Expr.areAddresses_checked]
      exact BoundParameter.areAddresses_lowerInput takeAddresses valueRun
  | output | inOut =>
      rw [direction] at run
      obtain ⟨destination, middle, destinationRun, run⟩ := Lower.bind_eq_ok run
      rcases BoundParameter.lowerDestination_eq_ok destinationRun with
        ⟨rfl, -⟩ | ⟨actual, target, -, rfl, found⟩
      · cases isIndirect with
        | false =>
            cases run
            exact grown (by simp [Code.Expr.derefs])
        | true =>
            cases run
            exact earlier
      · cases isIndirect with
        | false =>
            obtain ⟨place, last, placeRun, run⟩ := Lower.bind_eq_ok run
            cases run
            exact grown (Code.Place.areAddresses_pointer
              (BoundParameter.areAddresses_place takeAddresses found placeRun))
        | true =>
            obtain ⟨initial, -, sameArguments, -⟩ := addDestination_ok run
            rw [sameArguments]
            exact earlier
  | external =>
      rw [direction] at run
      cases run

theorem CallParts.areAddresses_addAll {next : CallParts} {isIndirect : Bool} {count : Nat}
    {parameters : List BoundParameter}
    (run : CallParts.addAll isIndirect count arguments supplies false {} parameters state =
      .ok (next, after)) : ∀ argument ∈ next.arguments, AreAddresses argument.derefs := by
  have start : ∀ argument ∈ ({} : CallParts).arguments, AreAddresses argument.derefs := nofun
  refine @CallParts.addAll_keeps _ _
    (fun _ parts => ∀ argument ∈ parts.arguments, AreAddresses argument.derefs)
    _ _ _ ?_ ?_ _ _ _ [] _ _ start run
  · intro slots parts earlier argument member
    rcases List.mem_append.mp member with isEarlier | isLast
    · exact earlier argument isEarlier
    · rw [List.mem_singleton.mp isLast]
      simp [Code.Expr.derefs]
  · intro slots parts next state after bound _ earlier added
    exact CallParts.areAddresses_add takeAddresses earlier added

theorem CallResolution.areAddresses_lower {site : Site} {depth : Nat}
    {resolution : CallResolution} {function : Ident} {code : Code.Expr}
    (run : resolution.lower site depth function arguments supplies state = .ok (code, after)) :
    AreAddresses code.derefs := by
  obtain ⟨-, binding, -, lowered⟩ := lowered_of_lower run
  cases lowered with
  | direct isPlain added =>
      rw [Code.Expr.derefs, Code.Expr.areAddresses_list]
      exact CallParts.areAddresses_addAll takeAddresses added
  | throughHelper isAccessor numbered added helped =>
      have areAddresses := CallParts.areAddresses_addAll takeAddresses added
      rw [Code.Expr.derefs, Code.Expr.areAddresses_list, List.forall_mem_append]
      exact ⟨areAddresses, by simp [Code.Expr.derefs]⟩

end Call

/-! ## Expressions -/

section Lower

variable {site : Site}

-- An argument is lowered only if a parameter is bound to it, so what is said of arguments is
-- said of every run that they may have.
mutual

theorem Reference.areAddresses_lowerPath :
    ∀ (reference : Reference) {depth : Nat} {state after : LoweringState} {path : Code.Path},
      reference.lowerPath site depth state = .ok (path, after) → AreAddresses path.derefs
  | .named name, depth, state, after, path, run => by
      rw [Reference.lowerPath] at run
      cases run
      simp [Code.Path.derefs]
  | .field record name, depth, state, after, path, run => by
      rw [Reference.lowerPath] at run
      obtain ⟨before, middle, recordRun, run⟩ := Lower.bind_eq_ok run
      cases run
      rw [Code.Path.derefs]
      exact record.areAddresses_lowerPath recordRun
  | .element array subscripts, depth, state, after, path, run => by
      rw [Reference.lowerPath] at run
      obtain ⟨before, middle, arrayRun, run⟩ := Lower.bind_eq_ok run
      obtain ⟨values, last, subscriptsRun, run⟩ := Lower.bind_eq_ok run
      cases run
      simp [Code.Path.derefs, array.areAddresses_lowerPath arrayRun,
        Expr.areAddresses_lowerSubscripts subscripts subscriptsRun]

theorem Expr.areAddresses_lowerSubscripts :
    ∀ (subscripts : List Expr) {depth : Nat} {array : Reference} {index : Nat}
      {state after : LoweringState} {values : List Code.Subscript},
      Expr.lowerSubscripts site depth array index subscripts state = .ok (values, after) →
      AreAddresses (Code.Subscript.derefsList values)
  | [], depth, array, index, state, after, values, run => by
      rw [Expr.lowerSubscripts] at run
      cases run
      simp [Code.Subscript.derefsList]
  | subscript :: rest, depth, array, index, state, after, values, run => by
      rw [Expr.lowerSubscripts] at run
      obtain ⟨dimension, first, -, run⟩ := Lower.bind_eq_ok run
      obtain ⟨value, second, valueRun, run⟩ := Lower.bind_eq_ok run
      obtain ⟨others, third, restRun, run⟩ := Lower.bind_eq_ok run
      cases run
      simp [Code.Subscript.derefsList, subscript.areAddresses_lower valueRun,
        Expr.areAddresses_lowerSubscripts rest restRun]

theorem Variable.areAddresses_lower :
    ∀ (source : Variable) {depth : Nat} {state after : LoweringState} {place : Code.Place},
      source.lower site depth state = .ok (place, after) → AreAddresses (place.derefs false)
  | .direct address, depth, state, after, place, run => by
      rw [Variable.lower] at run
      cases style : site.style with
      | direct =>
          rw [style] at run
          cases run
          intro pointer member
          exact ⟨address, List.mem_singleton.mp member⟩
      | accessor =>
          rw [style] at run
          cases run
          simp [Code.Place.derefs]
  | .symbolic reference, depth, state, after, place, run => by
      rw [Variable.lower] at run
      obtain ⟨entry, first, -, run⟩ := Lower.bind_eq_ok run
      cases style : site.style with
      | direct =>
          rw [style] at run
          obtain ⟨path, second, pathRun, run⟩ := Lower.bind_eq_ok run
          cases run
          rw [Code.Place.derefs]
          exact reference.areAddresses_lowerPath pathRun
      | accessor =>
          rw [style] at run
          dsimp only at run
          split at run
          · obtain ⟨path, second, pathRun, run⟩ := Lower.bind_eq_ok run
            cases run
            rw [Code.Place.derefs]
            exact reference.areAddresses_lowerPath pathRun
          · cases run
            simp [Code.Place.derefs]

/-- The code of an expression takes pointers to places of the hardware alone. -/
theorem Expr.areAddresses_lower :
    ∀ (expr : Expr) {depth : Nat} {state after : LoweringState} {code : Code.Expr},
      expr.lower site depth state = .ok (code, after) → AreAddresses code.derefs
  | .compare op left right, depth, state, after, code, run => by
      obtain ⟨leftType, rightType, left', middle, right', -, -, leftRun, rightRun, compared⟩ :=
        Expr.lowered_compare run
      exact CompareOp.areAddresses_lower (left.areAddresses_lower leftRun)
        (right.areAddresses_lower rightRun) compared
  | .arith op left right, depth, state, after, code, run => by
      obtain ⟨leftType, rightType, left', middle, right', -, -, leftRun, rightRun, rfl⟩ :=
        Expr.lowered_arith run
      exact ArithOp.areAddresses_lower (left.areAddresses_lower leftRun)
        (right.areAddresses_lower rightRun) op leftType rightType
  | .unary op term, depth, state, after, code, run => by
      obtain ⟨type, term', -, termRun, rfl⟩ := Expr.lowered_unary run
      have areAddresses := term.areAddresses_lower termRun
      cases op <;> simpa [UnaryOp.lower, Code.Expr.derefs] using areAddresses
  | .group inner, depth, state, after, code, run => by
      rw [Expr.lower] at run
      exact inner.areAddresses_lower run
  | .const value, depth, state, after, code, run => by
      obtain ⟨text, -, -, rfl⟩ := Expr.lowered_const run
      simp [Code.Expr.derefs]
  | .enumerated value, depth, state, after, code, run => by
      obtain ⟨text, -, -, rfl⟩ := Expr.lowered_enumerated run
      simp [Code.Expr.derefs]
  | .var source, depth, state, after, code, run => by
      obtain ⟨place, placed, rfl⟩ := Expr.lowered_var run
      exact source.areAddresses_lower placed
  | .call function arguments, depth, state, after, code, run => by
      obtain ⟨resolution, -, callRun⟩ := Expr.lowered_call run
      exact CallResolution.areAddresses_lower
        (Argument.takeAddresses_supplies arguments (depth + 1)) callRun

theorem Expr.areAddresses_destination? :
    ∀ (expr : Expr) {depth : Nat} {destination : Destination} {state after : LoweringState}
      {place : Code.Place}, expr.destination? site depth = some destination →
      destination.place state = .ok (place, after) → AreAddresses (place.derefs false)
  | .var source, depth, destination, state, after, place, found, run => by
      rw [Expr.destination?] at found
      cases found
      exact source.areAddresses_lower run
  | .compare .., _, _, _, _, _, found, _ | .arith .., _, _, _, _, _, found, _
  | .unary .., _, _, _, _, _, found, _ | .group _, _, _, _, _, _, found, _
  | .const _, _, _, _, _, _, found, _ | .enumerated _, _, _, _, _, _, found, _
  | .call .., _, _, _, _, _, found, _ => by cases found

theorem Argument.takeAddresses_supplies :
    ∀ (arguments : List Argument) (depth : Nat),
      ∀ supply ∈ Argument.supplies site depth arguments, supply.TakesAddresses
  | [], depth, supply, member => by
      rw [Argument.supplies] at member
      cases member
  | .positional value :: rest, depth, supply, member => by
      rw [Argument.supplies] at member
      rcases List.mem_cons.mp member with rfl | inRest
      · refine ⟨?_, value.areAddresses_destination?⟩
        rintro _ state after code ⟨⟩ run
        exact value.areAddresses_lower run
      · exact Argument.takeAddresses_supplies rest depth supply inRest
  | .named _ value :: rest, depth, supply, member => by
      rw [Argument.supplies] at member
      rcases List.mem_cons.mp member with rfl | inRest
      · refine ⟨?_, value.areAddresses_destination?⟩
        rintro _ state after code ⟨⟩ run
        exact value.areAddresses_lower run
      · exact Argument.takeAddresses_supplies rest depth supply inRest
  | .output _ _ target :: rest, depth, supply, member => by
      rw [Argument.supplies] at member
      rcases List.mem_cons.mp member with rfl | inRest
      · refine ⟨nofun, ?_⟩
        rintro _ state after place ⟨⟩ run
        exact target.areAddresses_lower run
      · exact Argument.takeAddresses_supplies rest depth supply inRest

end

/-! ## Statements -/

theorem InstanceAccess.derefs_member (access : InstanceAccess) (name : String) (byPointer : Bool) :
    (access.member name).derefs byPointer = [] := by
  unfold InstanceAccess.member
  cases access.style with
  | direct => simp [Code.Place.derefs, Code.Path.derefs]
  | accessor => simp [Code.Place.derefs]

section Copies

variable {supplies : List Supply} (takeAddresses : ∀ supply ∈ supplies, supply.TakesAddresses)
  {access : InstanceAccess} {arguments : List Argument} {parameters : List BoundParameter}

include takeAddresses

theorem InstanceAccess.areAddresses_copiesIn :
    ∀ {stores : List Code.Store} {state after : LoweringState},
      access.copiesIn supplies parameters state = .ok (stores, after) →
      AreAddresses (stores.flatMap Code.Store.derefs) := by
  induction parameters with
  | nil =>
      intro stores state after run
      cases run
      simp
  | cons bound rest ih =>
      intro stores state after run
      rw [copiesIn] at run
      cases isActual : bound.actual with
      | none =>
          rw [isActual] at run
          exact ih run
      | some actual =>
          rw [isActual] at run
          cases actual with
          | output => exact ih run
          | input index value =>
              cases isInput : bound.parameter.isInput with
              | false =>
                  simp only [isInput, Bool.false_eq_true, if_false] at run
                  exact ih run
              | true =>
                  simp only [isInput, if_true] at run
                  obtain ⟨code, first, valueRun, run⟩ := Lower.bind_eq_ok run
                  obtain ⟨later, second, restRun, run⟩ := Lower.bind_eq_ok run
                  cases run
                  have areAddresses :=
                    BoundParameter.areAddresses_lowerInput takeAddresses valueRun
                  rw [List.flatMap_cons, Code.areAddresses_append]
                  refine ⟨?_, ih restRun⟩
                  simpa [Code.Store.derefs, derefs_member, Code.Expr.areAddresses_checked] using
                    areAddresses

theorem InstanceAccess.areAddresses_copiesOut :
    ∀ {stores : List Code.Store} {state after : LoweringState},
      access.copiesOut arguments supplies parameters state = .ok (stores, after) →
      AreAddresses (stores.flatMap Code.Store.derefs) := by
  induction parameters with
  | nil =>
      intro stores state after run
      cases run
      simp
  | cons bound rest ih =>
      intro stores state after run
      rw [copiesOut] at run
      cases found : bound.receiver? supplies with
      | none =>
          rw [found] at run
          exact ih run
      | some receiver =>
          rw [found] at run
          obtain ⟨type, first, -, run⟩ := Lower.bind_eq_ok run
          obtain ⟨place, second, placeRun, run⟩ := Lower.bind_eq_ok run
          obtain ⟨later, third, restRun, run⟩ := Lower.bind_eq_ok run
          cases run
          have placeAddresses := BoundParameter.areAddresses_place takeAddresses
            (BoundParameter.supplied_of_receiver? found) placeRun
          have noPointer : AreAddresses (Code.Expr.derefs
              (if Argument.isNegated arguments bound.parameter.name then
                .unary .logicalNot (.load (access.member bound.cName))
              else .load (access.member bound.cName))) := by
            split <;> simp [Code.Expr.derefs, derefs_member]
          rw [List.flatMap_cons, Code.areAddresses_append]
          refine ⟨?_, ih restRun⟩
          rw [Code.Store.derefs, Code.areAddresses_append, Code.Expr.areAddresses_checked]
          exact ⟨placeAddresses, noPointer⟩

end Copies

theorem Site.areAddresses_lowerInvoke {depth : Nat} {block : Ident} {arguments : List Argument}
    {code : Code.Stmt} {state after : LoweringState}
    (run : site.lowerInvoke depth block arguments state = .ok (code, after)) :
    AreAddresses code.derefs := by
  obtain ⟨signature, binding, copiesIn, middle, copiesOut, -, -, copiesInRun, copiesOutRun, rfl⟩ :=
    Site.lowered_invoke run
  have takeAddresses : ∀ supply ∈ Argument.supplies site depth arguments, supply.TakesAddresses :=
    Argument.takeAddresses_supplies arguments depth
  have pointer : (site.instanceAccess block).pointer.derefs = [] := by
    unfold InstanceAccess.pointer
    dsimp only
    split <;> simp [Code.Expr.derefs]
  rw [Code.Stmt.derefs, Code.areAddresses_append, Code.areAddresses_append]
  refine ⟨⟨InstanceAccess.areAddresses_copiesIn takeAddresses copiesInRun, ?_⟩,
    InstanceAccess.areAddresses_copiesOut takeAddresses copiesOutRun⟩
  simp [Code.Expr.derefs, Code.Expr.derefsList, pointer]

theorem Site.areAddresses_lowerStep {depth : Nat} {step : Option Expr} {code : Code.Step}
    {state after : LoweringState} (run : site.lowerStep depth step state = .ok (code, after)) :
    AreAddresses code.derefs := by
  cases step with
  | none =>
      cases run
      simp [Code.Step.derefs]
  | some step =>
      obtain ⟨value, middle, valueRun, run⟩ := Lower.bind_eq_ok run
      have areAddresses := step.areAddresses_lower valueRun
      cases isUnsigned : step.isUnsignedConstant with
      | false | true =>
          rw [isUnsigned] at run
          cases run
          exact areAddresses

theorem ElseIf.areAddresses_lowerList {around : List Breakable} :
    ∀ (elseIfs : List ElseIf) {depth : Nat} {codes : List Code.Branch}
      {state after : LoweringState},
      ElseIf.lowerList site depth around elseIfs state = .ok (codes, after) →
      AreAddresses (codes.flatMap fun branch => branch.condition.derefs)
  | [], depth, codes, state, after, run => by
      rw [ElseIf.lowerList] at run
      cases run
      simp
  | .mk condition body :: elseIfs, depth, codes, state, after, run => by
      obtain ⟨condition', first, body', second, others, conditionRun, -, restRun, rfl⟩ :=
        ElseIf.lowered_cons run
      rw [List.flatMap_cons, Code.areAddresses_append]
      exact ⟨condition.areAddresses_lower conditionRun,
        ElseIf.areAddresses_lowerList elseIfs restRun⟩

/-- A statement goes through no pointers itself but those to places of the hardware. -/
theorem Stmt.areAddresses_of_lowersTo {stmt : Stmt} {code : Code.Stmt}
    (lowers : stmt.LowersTo site code) : AreAddresses code.derefs := by
  obtain ⟨depth, around, before, after, run⟩ := lowers
  cases stmt with
  | assign target value =>
      obtain ⟨type, value', middle, place, -, valueRun, placeRun, rfl⟩ :=
        Stmt.lowered_assign run
      rw [Code.Stmt.derefs, Code.Store.derefs, Code.areAddresses_append,
        Code.Expr.areAddresses_checked]
      exact ⟨target.areAddresses_lower placeRun, value.areAddresses_lower valueRun⟩
  | invoke block arguments =>
      rw [Stmt.lower_invoke] at run
      exact Site.areAddresses_lowerInvoke run
  | ifElse condition body elseIfs otherwise =>
      obtain ⟨condition', first, body', second, elseIfs', third, otherwise', conditionRun, -,
        elseIfsRun, -, rfl⟩ := Stmt.lowered_ifElse run
      rw [Code.Stmt.derefs, Code.areAddresses_append]
      exact ⟨condition.areAddresses_lower conditionRun,
        ElseIf.areAddresses_lowerList elseIfs elseIfsRun⟩
  | select selector groups otherwise =>
      obtain ⟨type, selector', selected, cases', cased, ranges, ranged, otherwise', selectorRun,
        -, -, -, rfl⟩ := Stmt.lowered_select run
      exact selector.areAddresses_lower selectorRun
  | forTo control first last step body =>
      obtain ⟨number, opened, type, first', started, last', ended, step', stepped, place, placed,
        body', -, -, firstRun, lastRun, stepRun, placeRun, -, rfl⟩ := Stmt.lowered_forTo run
      have placeAddresses := Variable.areAddresses_lower _ placeRun
      have firstAddresses := first.areAddresses_lower firstRun
      have lastAddresses := last.areAddresses_lower lastRun
      have stepAddresses := Site.areAddresses_lowerStep stepRun
      unfold Site.countingLoop
      cases site.style with
      | direct =>
          simp [Code.Stmt.derefs, Code.Expr.areAddresses_checked, placeAddresses, firstAddresses,
            lastAddresses, stepAddresses]
      | accessor =>
          have nextAddresses : AreAddresses (step'.next (.load place)).derefs :=
            Code.Step.areAddresses_next stepAddresses placeAddresses
          simp [Code.Stmt.derefs, Code.Expr.areAddresses_checked, placeAddresses, firstAddresses,
            lastAddresses, stepAddresses, nextAddresses]
  | whileDo condition body =>
      obtain ⟨condition', first, number, second, body', conditionRun, -, -, rfl⟩ :=
        Stmt.lowered_whileDo run
      exact condition.areAddresses_lower conditionRun
  | repeatUntil body condition =>
      obtain ⟨number, first, body', second, condition', -, -, conditionRun, rfl⟩ :=
        Stmt.lowered_repeatUntil run
      exact condition.areAddresses_lower conditionRun
  | leaveUnit =>
      rw [Stmt.lower] at run
      cases run
      exact Code.areAddresses_nil
  | leaveLoop =>
      obtain ⟨-, rfl, -⟩ | ⟨loop, -, rfl, -⟩ := Stmt.lowered_leaveLoop run
      · exact Code.areAddresses_nil
      · exact Code.areAddresses_nil
  | pragma directive =>
      cases directive with
      | code text =>
          rw [Stmt.lower] at run
          cases run
          unfold Site.code
          cases site.style with
          | direct => exact Code.areAddresses_nil
          | accessor => exact Code.areAddresses_nil
      | enable | disable =>
          rw [Stmt.lower] at run
          cases run
          exact Code.areAddresses_nil

/-- The statements of a body go through no pointers but those to places of the hardware. -/
theorem Site.areAddresses_of_lowerBody {isOn : Bool} {body : List Stmt} {lowered : LoweredBody}
    (run : site.lowerBody isOn body = .ok lowered) :
    AreAddresses (Code.Stmt.derefsList lowered.body) := by
  rw [Code.Stmt.derefsList, Code.areAddresses_flatMap]
  intro code member
  obtain ⟨stmt, -, lowers⟩ := (Site.stems_of_lowerBody run).1 code member
  exact Stmt.areAddresses_of_lowersTo lowers

end Lower

end StructuredText
