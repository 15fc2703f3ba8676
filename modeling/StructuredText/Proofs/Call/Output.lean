import StructuredText.Proofs.Call.Actual

/-!
# Output arguments reach their parameters

The last argument under the name of an output is the one that the output is bound to.  Whether
its value is negated is asked of all outputs of the name together.
-/

set_option autoImplicit false

namespace StructuredText

namespace Argument

def name? : Argument → Option Ident
  | .positional _ => none
  | .named name _ | .output _ name _ => some name

/-- The argument at an index is an output, and no later one is given under its name.  The value
is wanted negated if an output of this name asks for that, be it this one or an earlier one. -/
structure Prevails (arguments : List Argument) (index : Nat) (isNegated : Bool) (source : Ident)
    (target : Variable) : Prop where
  given : ∃ own, arguments[index]? = some (.output own source target)
  last : ∀ later ∈ arguments.drop (index + 1), ∀ name, later.name? = some name →
    (name == source) = false
  asked : isNegated = true ↔
    ∃ name place, .output true name place ∈ arguments ∧ (name == source) = true

variable {arguments : List Argument} {index : Nat} {isNegated : Bool} {source : Ident}
  {target : Variable}

theorem Prevails.isNegated_eq (prevails : Prevails arguments index isNegated source target)
    {name : Ident} (sameName : (name == source) = true) :
    Argument.isNegated arguments name = isNegated := by
  rw [Bool.eq_iff_iff, prevails.asked, Argument.isNegated, List.any_eq_true]
  constructor
  · rintro ⟨argument, isArgument, asks⟩
    cases argument with
    | positional value | named other value => cases asks
    | output other otherName place =>
        simp only [Bool.and_eq_true] at asks
        obtain ⟨rfl, named⟩ := asks
        exact ⟨otherName, place, isArgument, PartialEquivBEq.trans named sameName⟩
  · rintro ⟨otherName, place, isArgument, named⟩
    refine ⟨_, isArgument, ?_⟩
    simp only [Bool.and_eq_true]
    exact ⟨trivial, PartialEquivBEq.trans named (PartialEquivBEq.symm sameName)⟩

end Argument

namespace Binding

variable {parameters : List Parameter}

theorem Sorted.add_append {before rest : List Argument} :
    ∀ {index : Nat} {sorted done : Sorted},
      Sorted.add parameters index sorted (before ++ rest) = .ok done →
      ∃ middle, Sorted.add parameters index sorted before = .ok middle ∧
        Sorted.add parameters (index + before.length) middle rest = .ok done := by
  induction before with
  | nil =>
      intro index sorted done run
      exact ⟨sorted, rfl, run⟩
  | cons argument before ih =>
      intro index sorted done run
      have next : index + 1 + before.length = index + (argument :: before).length := by
        rw [List.length_cons]
        omega
      rw [← next]
      cases argument with
      | positional value =>
          rw [List.cons_append, Sorted.add] at run
          rw [Sorted.add]
          exact ih run
      | named name value =>
          rw [List.cons_append, Sorted.add] at run
          rw [Sorted.add]
          split at run
          · exact ih run
          · split at run
            · exact ih run
            · cases run
      | output isNegated source target =>
          rw [List.cons_append, Sorted.add] at run
          rw [Sorted.add]
          split at run
          · exact ih run
          · cases run

/-- Arguments under other names leave what is sorted in for a parameter. -/
theorem Sorted.lookup_of_add {slot : Nat} {parameter : Parameter}
    (isParameter : parameters[slot]? = some parameter) {rest : List Argument} :
    ∀ {index : Nat} {sorted done : Sorted}, Sorted.add parameters index sorted rest = .ok done →
      (∀ argument ∈ rest, ∀ name, argument.name? = some name → (parameter.name == name) = false) →
      done.named.lookup slot = sorted.named.lookup slot := by
  have apart : ∀ {other : Nat} {name : Ident} {entry : Parameter},
      parameters[other]? = some entry → (entry.name == name) = true →
      (parameter.name == name) = false → (slot == other) = false := by
    intro other name entry isEntry named notNamed
    rw [beq_eq_false_iff_ne]
    rintro rfl
    rw [isParameter] at isEntry
    cases isEntry
    rw [named] at notNamed
    cases notNamed
  induction rest with
  | nil =>
      intro index sorted done run _
      cases run
      rfl
  | cons argument rest ih =>
      intro index sorted done run others
      have further : ∀ {index : Nat} {sorted : Sorted},
          Sorted.add parameters index sorted rest = .ok done →
          done.named.lookup slot = sorted.named.lookup slot := fun run =>
        ih run fun later inRest => others later (List.mem_cons_of_mem _ inRest)
      have notNamed := others argument (List.mem_cons_self ..)
      cases argument with
      | positional value =>
          rw [Sorted.add] at run
          rw [further run]
      | named name value =>
          rw [Sorted.add] at run
          split at run
          · next other found =>
              obtain ⟨entry, isEntry, -, named⟩ := parameter_of_inputIndex? found
              rw [further run, List.lookup_cons, apart isEntry named (notNamed name rfl)]
          · split at run
            · rw [further run]
            · cases run
      | output isNegated source target =>
          rw [Sorted.add] at run
          split at run
          · next other found =>
              obtain ⟨entry, isEntry, -, named⟩ := parameter_of_outputIndex? found
              rw [further run, List.lookup_cons, apart isEntry named (notNamed source rfl)]
          · cases run

/-- A parameter that is not extensible is bound to what is sorted in for it. -/
theorem mem_spread_of_lookup {sorted : Sorted} {parameter : Parameter} {actual : Actual}
    (single : parameter.isExtensible = false) {parameters : List Parameter} :
    ∀ {offset slot count : Nat} {positional : List (Nat × Expr)},
      parameters[offset]? = some parameter →
      sorted.named.lookup (slot + offset) = some actual →
      { parameter, actual := some actual } ∈
        (spread sorted slot positional count parameters).1 := by
  induction parameters with
  | nil =>
      intro offset slot count positional isParameter
      cases isParameter
  | cons first rest ih =>
      intro offset slot count positional isParameter found
      cases offset with
      | zero =>
          cases isParameter
          rw [Nat.add_zero] at found
          unfold spread
          rw [if_neg (by simp [single])]
          simp [found]
      | succ offset =>
          have next : slot + (offset + 1) = slot + 1 + offset := by omega
          rw [next] at found
          have later := fun {count positional} =>
            @ih offset (slot + 1) count positional isParameter found
          unfold spread
          split
          · exact List.mem_append_right _ later
          · split
            · exact List.mem_cons_of_mem _ later
            · split
              · split
                · exact List.mem_cons_of_mem _ later
                · exact List.mem_cons_of_mem _ later
              · exact List.mem_cons_of_mem _ later

theorem extensible_of_groupLast (groupLast : Parameter.GroupLast parameters) :
    ∀ parameter ∈ parameters, parameter.isOutput = true → parameter.isExtensible = false := by
  intro parameter member isOutput
  cases groupLast with
  | plain single => exact single parameter member
  | @grouped declared last single isExtensible isInput =>
      rcases List.mem_append.mp member with isDeclared | isLast
      · exact single parameter isDeclared
      · rw [List.mem_singleton.mp isLast, Parameter.isOutput, isInput] at isOutput
        cases isOutput

/-- The output of a name is bound to the argument that prevails under it. -/
theorem exists_bound_of_prevails {arguments : List Argument} {index : Nat} {isNegated : Bool}
    {source : Ident} {target : Variable} {binding : Binding}
    (groupLast : Parameter.GroupLast parameters)
    (prevails : Argument.Prevails arguments index isNegated source target)
    (made : make parameters arguments = .ok binding) :
    ∃ bound ∈ binding.parameters, (bound.parameter.name == source) = true ∧
      bound.parameter.isOutput = true ∧ bound.actual = some (.output index target) := by
  obtain ⟨done, run, spreads⟩ := make_ok made
  obtain ⟨own, isGiven⟩ := prevails.given
  obtain ⟨inside, given⟩ := List.getElem?_eq_some_iff.mp isGiven
  have split : arguments = arguments.take index ++
      .output own source target :: arguments.drop (index + 1) := by
    rw [← given, List.getElem_cons_drop, List.take_append_drop]
  rw [split] at run
  obtain ⟨before, -, run⟩ := Sorted.add_append run
  rw [List.length_take, Nat.min_eq_left (Nat.le_of_lt inside), Nat.zero_add, Sorted.add] at run
  split at run
  · next slot found =>
      obtain ⟨parameter, isParameter, isOutput, named⟩ := parameter_of_outputIndex? found
      have others : ∀ later ∈ arguments.drop (index + 1), ∀ name, later.name? = some name →
          (parameter.name == name) = false := by
        intro later isLater name isName
        rw [Bool.eq_false_iff]
        intro sameName
        have clash := prevails.last later isLater name isName
        rw [PartialEquivBEq.trans (PartialEquivBEq.symm sameName) named] at clash
        cases clash
      have sorted := Sorted.lookup_of_add isParameter run others
      rw [List.lookup_cons, beq_self_eq_true] at sorted
      have single := extensible_of_groupLast groupLast parameter
        (List.mem_of_getElem? isParameter) isOutput
      have member := @mem_spread_of_lookup done parameter (.output index target) single
        parameters slot 0 0 done.positional isParameter (by rw [Nat.zero_add]; exact sorted)
      rw [spreads] at member
      exact ⟨_, member, named, isOutput, rfl⟩
  · cases run

end Binding

end StructuredText
