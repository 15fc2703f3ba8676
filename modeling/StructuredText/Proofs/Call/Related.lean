import Mathlib.Data.List.Forall2
import StructuredText.Proofs.Call.Distribution

/-!
# Calls that are bound alike

What is bound to what depends on little: of a parameter on its name and on the way it
passes values, of an argument on what it names and, by position, on the order.  So two
calls that agree in this have bindings that correspond entry for entry, whatever relation
there is between their parameters and between what their arguments give.
-/

set_option autoImplicit false

namespace StructuredText

structure Parameter.Alike (first second : Parameter) : Prop where
  name : first.name = second.name
  direction : first.direction = second.direction
  isExtensible : first.isExtensible = second.isExtensible
  isImplicit : first.isImplicit = second.isImplicit

theorem Parameter.Alike.of_eq {first second : Parameter} (same : first = second) :
    first.Alike second := same ▸ ⟨rfl, rfl, rfl, rfl⟩

theorem Parameter.Alike.isInput {first second : Parameter} (alike : first.Alike second) :
    first.isInput = second.isInput := by
  rw [Parameter.isInput, Parameter.isInput, alike.direction]

theorem Parameter.Alike.isOutput {first second : Parameter} (alike : first.Alike second) :
    first.isOutput = second.isOutput := by
  rw [Parameter.isOutput, Parameter.isOutput, alike.direction]

theorem Parameter.Alike.position? {first second : Parameter} (alike : first.Alike second) :
    first.position? = second.position? := by
  funext name
  rw [Parameter.position?, Parameter.position?, alike.name, alike.isExtensible]

section Related

variable (ofParameter : Parameter → Parameter → Prop) (ofActual : Actual → Actual → Prop)

/-- Bound parameters that correspond: at one position, and to both or to neither something is
given. -/
structure BoundParameter.Related (first second : BoundParameter) : Prop where
  parameter : ofParameter first.parameter second.parameter
  position : first.position = second.position
  actual : Option.Rel ofActual first.actual second.actual

namespace Binding

structure Related (first second : Binding) : Prop where
  parameters : List.Forall₂ (BoundParameter.Related ofParameter ofActual)
    first.parameters second.parameters
  count : first.count = second.count

abbrev PositionalsRelated : List (Nat × Expr) → List (Nat × Expr) → Prop :=
  List.Forall₂ fun first second => ofActual (byPosition first) (byPosition second)

structure Sorted.Related (first second : Sorted) : Prop where
  named : ∀ slot, Option.Rel ofActual (first.named.lookup slot) (second.named.lookup slot)
  grouped : ∀ position,
    Option.Rel ofActual (first.grouped.lookup position) (second.grouped.lookup position)
  highest : highest first.grouped = highest second.grouped
  positional : PositionalsRelated ofActual first.positional second.positional

end Binding

end Related

namespace Binding

variable {ofParameter : Parameter → Parameter → Prop} {ofActual : Actual → Actual → Prop}

theorem group_related {first second : Parameter} (related : ofParameter first second)
    {sorted sorted' : Sorted}
    (grouped : ∀ position, Option.Rel ofActual (sorted.grouped.lookup position)
      (sorted'.grouped.lookup position))
    (sameHighest : highest sorted.grouped = highest sorted'.grouped)
    {positional positional' : List (Nat × Expr)}
    (byPosition : PositionalsRelated ofActual positional positional') :
    List.Forall₂ (BoundParameter.Related ofParameter ofActual)
      (group first sorted.grouped positional) (group second sorted'.grouped positional') := by
  rw [group, group, ← sameHighest]
  refine List.rel_append ?_ ?_
  · rw [List.forall₂_map_left_iff, List.forall₂_map_right_iff, List.forall₂_same]
    exact fun index _ => ⟨related, rfl, grouped (index + 1)⟩
  · obtain ⟨sameLength, related'⟩ := List.forall₂_iff_get.mp byPosition
    rw [List.forall₂_iff_get]
    refine ⟨by rw [List.length_mapIdx, List.length_mapIdx, sameLength], ?_⟩
    intro offset inside inside'
    rw [List.length_mapIdx] at inside inside'
    simp only [List.get_eq_getElem, List.getElem_mapIdx]
    exact ⟨related, rfl, .some (related' offset inside inside')⟩

/-- Spreading sorted arguments that are related over parameters that are alike gives entries
that are related, and what is left over is related too. -/
theorem spread_related (alike : ∀ {first second}, ofParameter first second → first.Alike second)
    {sorted sorted' : Sorted} (related : sorted.Related ofActual sorted')
    {parameters parameters' : List Parameter}
    (areRelated : List.Forall₂ ofParameter parameters parameters') :
    ∀ {slot count : Nat} {positional positional' : List (Nat × Expr)},
      PositionalsRelated ofActual positional positional' →
      List.Forall₂ (BoundParameter.Related ofParameter ofActual)
        (spread sorted slot positional count parameters).1
        (spread sorted' slot positional' count parameters').1 ∧
      (spread sorted slot positional count parameters).2.1 =
        (spread sorted' slot positional' count parameters').2.1 ∧
      PositionalsRelated ofActual (spread sorted slot positional count parameters).2.2
        (spread sorted' slot positional' count parameters').2.2 := by
  induction areRelated with
  | nil => exact fun byPosition => ⟨.nil, rfl, byPosition⟩
  | @cons first second rest rest' isRelated _ ih =>
      intro slot count positional positional' byPosition
      have isAlike := alike isRelated
      -- A parameter that is bound once comes before the rest.
      have step : ∀ {actual actual' : Option Actual} {left left' : List (Nat × Expr)},
          Option.Rel ofActual actual actual' → PositionalsRelated ofActual left left' →
          List.Forall₂ (BoundParameter.Related ofParameter ofActual)
            ({ parameter := first, actual } :: (spread sorted (slot + 1) left count rest).1)
            ({ parameter := second, actual := actual' } ::
              (spread sorted' (slot + 1) left' count rest').1) ∧
          (spread sorted (slot + 1) left count rest).2.1 =
            (spread sorted' (slot + 1) left' count rest').2.1 ∧
          PositionalsRelated ofActual (spread sorted (slot + 1) left count rest).2.2
            (spread sorted' (slot + 1) left' count rest').2.2 := by
        intro actual actual' left left' isGiven isLeft
        obtain ⟨entries, sameCount, leftover⟩ := ih isLeft
        exact ⟨.cons ⟨isRelated, rfl, isGiven⟩ entries, sameCount, leftover⟩
      cases isGroup : first.isExtensible with
      | true =>
          have members := group_related isRelated related.grouped related.highest byPosition
          obtain ⟨entries, sameCount, leftover⟩ :=
            @ih (slot + 1) (group first sorted.grouped positional).length [] [] .nil
          simp only [spread, isGroup, isAlike.isExtensible ▸ isGroup, if_true]
          rw [← members.length_eq]
          exact ⟨List.rel_append members entries, sameCount, leftover⟩
      | false =>
          have named := related.named slot
          simp only [spread, isGroup, isAlike.isExtensible ▸ isGroup, Bool.false_eq_true, if_false]
          cases isNamed : sorted.named.lookup slot with
          | some actual =>
              rw [isNamed] at named
              cases isNamed' : sorted'.named.lookup slot with
              | none => rw [isNamed'] at named; cases named
              | some actual' =>
                  rw [isNamed'] at named
                  exact step named byPosition
          | none =>
              rw [isNamed] at named
              cases isNamed' : sorted'.named.lookup slot with
              | some actual' => rw [isNamed'] at named; cases named
              | none =>
                  dsimp only
                  rw [← isAlike.isImplicit, ← isAlike.isInput]
                  split
                  · cases byPosition with
                    | nil => exact step .none .nil
                    | cons value others => exact step (.some value) others
                  · exact step .none byPosition

/-- Of sorted arguments that are related, both can be bound to parameters that are alike or
neither, and the bindings are related. -/
theorem make_related (alike : ∀ {first second}, ofParameter first second → first.Alike second)
    {parameters parameters' : List Parameter}
    (areRelated : List.Forall₂ ofParameter parameters parameters')
    {arguments arguments' : List Argument} {sorted sorted' : Sorted}
    (isSorted : Sorted.add parameters 0 {} arguments = .ok sorted)
    (isSorted' : Sorted.add parameters' 0 {} arguments' = .ok sorted')
    (related : sorted.Related ofActual sorted') :
    Option.Rel (Related ofParameter ofActual) (make parameters arguments).toOption
      (make parameters' arguments').toOption := by
  obtain ⟨entries, sameCount, leftover⟩ :=
    @spread_related ofParameter ofActual alike sorted sorted' related parameters parameters'
      areRelated 0 0 _ _ related.positional
  rw [make, make, isSorted, isSorted', ok_bind, ok_bind]
  generalize spread sorted 0 sorted.positional 0 parameters = spreads at entries sameCount leftover
  generalize spread sorted' 0 sorted'.positional 0 parameters' = spreads'
    at entries sameCount leftover
  obtain ⟨bound, count, left⟩ := spreads
  obtain ⟨bound', count', left'⟩ := spreads'
  cases leftover with
  | nil => exact .some ⟨entries, sameCount⟩
  | cons first others => exact .none

/-! ## The same call of parameters of other types -/

section Map

variable {change : Parameter → Parameter}
  (alike : ∀ parameter : Parameter, parameter.Alike (change parameter))
  {parameters : List Parameter}

def mapParameters (change : Parameter → Parameter) (binding : Binding) : Binding :=
  { binding with
    parameters := binding.parameters.map fun bound =>
      { bound with parameter := change bound.parameter } }

include alike

theorem Sorted.add_map (index : Nat) (sorted : Sorted) (arguments : List Argument) :
    Sorted.add (parameters.map change) index sorted arguments =
      Sorted.add parameters index sorted arguments := by
  have inputs : inputIndex? (parameters.map change) = inputIndex? parameters := by
    funext name
    simp only [inputIndex?, List.findIdx?_map, Function.comp_def, ← (alike _).isInput,
      ← (alike _).isExtensible, ← (alike _).name]
  have outputs : outputIndex? (parameters.map change) = outputIndex? parameters := by
    funext name
    simp only [outputIndex?, List.findIdx?_map, Function.comp_def, ← (alike _).isOutput,
      ← (alike _).name]
  have positions : ∀ name, (parameters.map change).findSome? (fun parameter =>
      parameter.position? name) = parameters.findSome? fun parameter =>
        parameter.position? name := by
    intro name
    simp only [List.findSome?_map, Function.comp_def, ← (alike _).position?]
  fun_induction Sorted.add parameters index sorted arguments with
  | case1 index sorted => rw [Sorted.add]
  | case2 index sorted value rest ih => rw [Sorted.add, ih]
  | case3 index sorted name value rest slot found ih =>
      simp only [Sorted.add, inputs, found, ih]
  | case4 index sorted name value rest notOwn position isGrouped ih =>
      simp only [Sorted.add, inputs, positions, notOwn, isGrouped, ih]
  | case5 index sorted name value rest notOwn notGrouped =>
      simp only [Sorted.add, inputs, positions, notOwn, notGrouped]
  | case6 index sorted isNegated source target rest slot found ih =>
      simp only [Sorted.add, outputs, found, ih]
  | case7 index sorted isNegated source target rest notFound =>
      simp only [Sorted.add, outputs, notFound]

theorem make_map {arguments : List Argument} {binding : Binding}
    (made : make parameters arguments = .ok binding) :
    make (parameters.map change) arguments = .ok (binding.mapParameters change) := by
  obtain ⟨sorted, isSorted, -⟩ := make_ok made
  have sameGiven : ∀ given : Option Actual, Option.Rel Eq given given := by
    intro given
    cases given with
    | none => exact .none
    | some actual => exact .some rfl
  have related := @make_related (fun first second => second = change first) Eq
    (fun same => same ▸ alike _) parameters (parameters.map change)
    (List.forall₂_map_right_iff.mpr (List.forall₂_same.mpr fun _ _ => rfl)) arguments arguments
    sorted sorted isSorted ((Sorted.add_map alike 0 {} arguments).trans isSorted)
    ⟨fun _ => sameGiven _, fun _ => sameGiven _, rfl, List.forall₂_same.mpr fun _ _ => rfl⟩
  rw [made] at related
  cases made' : make (parameters.map change) arguments with
  | error fault => rw [made'] at related; cases related
  | ok binding' =>
      rw [made'] at related
      cases related with
      | some related =>
          have entries : List.Forall₂ Eq (binding.mapParameters change).parameters
              binding'.parameters := by
            refine List.forall₂_map_left_iff.mpr (related.parameters.imp ?_)
            rintro ⟨parameter, position, actual⟩ ⟨-, -, actual'⟩ ⟨rfl, rfl, sameActual⟩
            cases sameActual with
            | none => rfl
            | some sameActual => rw [sameActual]
          rw [List.forall₂_eq_eq_eq] at entries
          obtain ⟨bound', count'⟩ := binding'
          obtain rfl : (binding.mapParameters change).parameters = bound' := entries
          obtain rfl : binding.count = count' := related.count
          rfl

end Map

end Binding

end StructuredText
