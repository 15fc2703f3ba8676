import StructuredText.Proofs.Call.Binding

/-!
# Where actuals come from

What a binding gives for a parameter is what an argument of the call gives: a value,
by position or under the name of the parameter, or the variable that receives an
output of that name.  Both the sorting of the arguments and the walk over the
parameters keep this.
-/

set_option autoImplicit false

namespace StructuredText

/-- An actual is what an argument gives for a parameter.  The names in the group of an
extensible parameter are not those of the parameter. -/
inductive Actual.IsGiven (arguments : List Argument) (parameter : Parameter) : Actual → Prop where
  | positional {index : Nat} {value : Expr}
      (given : arguments[index]? = some (.positional value))
      (takes : parameter.isExtensible = true ∨ parameter.isInput = true) :
      IsGiven arguments parameter (.input index value)
  | named {index : Nat} {name : Ident} {value : Expr}
      (given : arguments[index]? = some (.named name value))
      (takes : parameter.isExtensible = true ∨
        parameter.isInput = true ∧ (parameter.name == name) = true) :
      IsGiven arguments parameter (.input index value)
  | output {index : Nat} {isNegated : Bool} {source : Ident} {target : Variable}
      (given : arguments[index]? = some (.output isNegated source target))
      (takes : parameter.isOutput = true ∧ (parameter.name == source) = true) :
      IsGiven arguments parameter (.output index target)

namespace Binding

variable {parameters : List Parameter} {arguments : List Argument}

/-- The sorted arguments are arguments of the call, each sorted in under a parameter that
it is given for. -/
structure Sorted.AreGiven (parameters : List Parameter) (arguments : List Argument)
    (sorted : Sorted) : Prop where
  named : ∀ entry ∈ sorted.named, ∃ parameter, parameters[entry.1]? = some parameter ∧
    entry.2.IsGiven arguments parameter
  grouped : ∀ entry ∈ sorted.grouped, ∀ parameter : Parameter, parameter.isExtensible = true →
    entry.2.IsGiven arguments parameter
  positional : ∀ entry ∈ sorted.positional, arguments[entry.1]? = some (.positional entry.2)

theorem Sorted.areGiven_empty : Sorted.AreGiven parameters arguments {} :=
  ⟨by simp, by simp, by simp⟩

theorem parameter_of_inputIndex? {name : Ident} {slot : Nat}
    (found : inputIndex? parameters name = some slot) :
    ∃ parameter, parameters[slot]? = some parameter ∧ parameter.isInput = true ∧
      (parameter.name == name) = true := by
  obtain ⟨inside, takes, -⟩ := List.findIdx?_eq_some_iff_getElem.mp found
  simp only [Bool.and_eq_true] at takes
  exact ⟨_, List.getElem?_eq_getElem inside, takes.1.1, takes.2⟩

theorem parameter_of_outputIndex? {name : Ident} {slot : Nat}
    (found : outputIndex? parameters name = some slot) :
    ∃ parameter, parameters[slot]? = some parameter ∧ parameter.isOutput = true ∧
      (parameter.name == name) = true := by
  obtain ⟨inside, takes, -⟩ := List.findIdx?_eq_some_iff_getElem.mp found
  simp only [Bool.and_eq_true] at takes
  exact ⟨_, List.getElem?_eq_getElem inside, takes.1, takes.2⟩

theorem argument_of_drop {index : Nat} {argument : Argument} {rest : List Argument}
    (position : arguments.drop index = argument :: rest) :
    arguments[index]? = some argument ∧ arguments.drop (index + 1) = rest := by
  constructor
  · rw [← List.head?_drop, position, List.head?_cons]
  · rw [← List.drop_drop, position, List.drop_one, List.tail_cons]

theorem Sorted.AreGiven.add {index : Nat} {sorted done : Sorted} {rest : List Argument}
    (run : Sorted.add parameters index sorted rest = .ok done) :
    sorted.AreGiven parameters arguments → arguments.drop index = rest →
      done.AreGiven parameters arguments := by
  fun_induction Sorted.add parameters index sorted rest with
  | case1 index sorted =>
      intro areGiven _
      cases run
      exact areGiven
  | case2 index sorted value rest ih =>
      intro areGiven position
      obtain ⟨given, later⟩ := argument_of_drop position
      refine ih run ⟨areGiven.named, areGiven.grouped, ?_⟩ later
      intro entry member
      rcases List.mem_append.mp member with old | isThis
      · exact areGiven.positional entry old
      · rw [List.mem_singleton.mp isThis]
        exact given
  | case3 index sorted name value rest slot found ih =>
      intro areGiven position
      obtain ⟨given, later⟩ := argument_of_drop position
      obtain ⟨parameter, isParameter, takes⟩ := parameter_of_inputIndex? found
      refine ih run ⟨?_, areGiven.grouped, areGiven.positional⟩ later
      intro entry member
      rcases List.mem_cons.mp member with rfl | old
      · exact ⟨parameter, isParameter, .named given (.inr takes)⟩
      · exact areGiven.named entry old
  | case4 index sorted name value rest notOwn position' isGrouped ih =>
      intro areGiven position
      obtain ⟨given, later⟩ := argument_of_drop position
      refine ih run ⟨areGiven.named, ?_, areGiven.positional⟩ later
      intro entry member parameter isExtensible
      rcases List.mem_cons.mp member with rfl | old
      · exact .named given (.inl isExtensible)
      · exact areGiven.grouped entry old parameter isExtensible
  | case5 => cases run
  | case6 index sorted isNegated source target rest slot found ih =>
      intro areGiven position
      obtain ⟨given, later⟩ := argument_of_drop position
      obtain ⟨parameter, isParameter, takes⟩ := parameter_of_outputIndex? found
      refine ih run ⟨?_, areGiven.grouped, areGiven.positional⟩ later
      intro entry member
      rcases List.mem_cons.mp member with rfl | old
      · exact ⟨parameter, isParameter, .output given takes⟩
      · exact areGiven.named entry old
  | case7 => cases run

theorem mem_of_lookup {entries : List (Nat × Actual)} {slot : Nat} {actual : Actual}
    (found : entries.lookup slot = some actual) : (slot, actual) ∈ entries := by
  obtain ⟨before, later, rfl, -⟩ := List.lookup_eq_some_iff.mp found
  exact List.mem_append_right _ (List.mem_cons_self ..)

/-- A bound parameter has what an argument gives for it, if anything. -/
def IsGiven (arguments : List Argument) (bound : BoundParameter) : Prop :=
  ∀ actual, bound.actual = some actual → actual.IsGiven arguments bound.parameter

theorem isGiven_of_mem_group {sorted : Sorted} (areGiven : sorted.AreGiven parameters arguments)
    {parameter : Parameter} (isExtensible : parameter.isExtensible = true)
    {positional : List (Nat × Expr)}
    (given : ∀ entry ∈ positional, arguments[entry.1]? = some (.positional entry.2)) :
    ∀ bound ∈ group parameter sorted.grouped positional, IsGiven arguments bound := by
  intro bound member actual isActual
  unfold group at member
  rcases List.mem_append.mp member with byName | byPosition
  · obtain ⟨index, -, rfl⟩ := List.mem_map.mp byName
    exact areGiven.grouped _ (mem_of_lookup isActual) parameter isExtensible
  · obtain ⟨index, inside, rfl⟩ := List.mem_mapIdx.mp byPosition
    cases isActual
    exact .positional (given _ (List.getElem_mem inside)) (.inl isExtensible)

/-- Nothing has to be given for a parameter that is bound to nothing. -/
theorem isGiven_unbound (parameter : Parameter) : IsGiven arguments { parameter } := by
  intro actual isActual
  cases isActual

/-- The walk over the parameters binds each to what is given for it. -/
theorem isGiven_of_mem_spread {sorted : Sorted} (areGiven : sorted.AreGiven parameters arguments)
    {rest : List Parameter} :
    ∀ {slot : Nat} {positional : List (Nat × Expr)} {count : Nat},
      parameters.drop slot = rest →
      (∀ entry ∈ positional, arguments[entry.1]? = some (.positional entry.2)) →
      ∀ bound ∈ (spread sorted slot positional count rest).1, IsGiven arguments bound := by
  induction rest with
  | nil =>
      intro slot positional count _ _ bound member
      cases member
  | cons parameter rest ih =>
      intro slot positional count position given bound member
      have here : parameters[slot]? = some parameter := by
        rw [← List.head?_drop, position, List.head?_cons]
      have later : parameters.drop (slot + 1) = rest := by
        rw [← List.drop_drop, position, List.drop_one, List.tail_cons]
      unfold spread at member
      split at member
      · next isExtensible =>
          rcases List.mem_append.mp member with inGroup | inRest
          · exact isGiven_of_mem_group areGiven isExtensible given bound inGroup
          · exact ih later (by simp) bound inRest
      · split at member
        · next actual named =>
            rcases List.mem_cons.mp member with rfl | inRest
            · intro other isActual
              cases isActual
              obtain ⟨owner, isOwner, isGiven⟩ := areGiven.named _ (mem_of_lookup named)
              rw [here] at isOwner
              cases isOwner
              exact isGiven
            · exact ih later given bound inRest
        · split at member
          · next isOpen =>
              rw [Bool.and_eq_true] at isOpen
              split at member
              · next index value positional =>
                  rcases List.mem_cons.mp member with rfl | inRest
                  · intro other isActual
                    cases isActual
                    exact .positional (given _ (List.mem_cons_self ..)) (.inr isOpen.2)
                  · refine ih later (fun entry isLater => ?_) bound inRest
                    exact given entry (List.mem_cons_of_mem _ isLater)
              · rcases List.mem_cons.mp member with rfl | inRest
                · exact isGiven_unbound parameter
                · exact ih later (by simp) bound inRest
          · rcases List.mem_cons.mp member with rfl | inRest
            · exact isGiven_unbound parameter
            · exact ih later given bound inRest

/-- A binding gives for a parameter what an argument of the call gives for it. -/
theorem isGiven_of_make {binding : Binding} (made : make parameters arguments = .ok binding) :
    ∀ bound ∈ binding.parameters, IsGiven arguments bound := by
  obtain ⟨sorted, isSorted, spreads⟩ := make_ok made
  have areGiven : sorted.AreGiven parameters arguments :=
    Sorted.areGiven_empty.add isSorted List.drop_zero
  intro bound member
  apply isGiven_of_mem_spread areGiven List.drop_zero areGiven.positional
  rw [spreads]
  exact member

end Binding

/-! ## What a bound parameter takes in and gives out -/

namespace BoundParameter

def value? (bound : BoundParameter) : Option Expr :=
  match bound.actual with
  | some (.input _ value) => some value
  | _ => none

/-- The variable that receives what comes out of the parameter: that of an output argument,
and for a parameter that passes both ways also a variable given as its value. -/
def target? (bound : BoundParameter) : Option Variable :=
  match bound.parameter.direction, bound.actual with
  | .output, some (.output _ target) => some target
  | .inOut, some (.output _ target) => some target
  | .inOut, some (.input _ (.var target)) => some target
  | _, _ => none

end BoundParameter

end StructuredText
