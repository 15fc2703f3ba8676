import StructuredText.Call.Binding
import StructuredText.Proofs.Call.Overloads

/-!
# What a binding gives for each parameter

A parameter that is not extensible is bound once, in the order of declaration.  An
extensible parameter, which comes last, is bound once for each position of its group,
and the binding counts the positions.
-/

set_option autoImplicit false

namespace StructuredText

namespace Binding

theorem parameter_of_mem_group {parameter : Parameter} {grouped : List (Nat × Actual)}
    {positional : List (Nat × Expr)} {bound : BoundParameter}
    (member : bound ∈ group parameter grouped positional) : bound.parameter = parameter := by
  unfold group at member
  rcases List.mem_append.mp member with named | byPosition
  · obtain ⟨index, -, rfl⟩ := List.mem_map.mp named
    rfl
  · obtain ⟨index, inside, rfl⟩ := List.mem_mapIdx.mp byPosition
    rfl

theorem parameter_mem_of_spread {sorted : Sorted} {parameters : List Parameter} :
    ∀ {slot : Nat} {positional : List (Nat × Expr)} {count : Nat} {bound : BoundParameter},
      bound ∈ (spread sorted slot positional count parameters).1 →
        bound.parameter ∈ parameters := by
  induction parameters with
  | nil =>
      intro slot positional count bound member
      cases member
  | cons parameter parameters ih =>
      intro slot positional count bound member
      unfold spread at member
      split at member
      · rcases List.mem_append.mp member with inGroup | inRest
        · rw [parameter_of_mem_group inGroup]
          exact List.mem_cons_self ..
        · exact List.mem_cons_of_mem _ (ih inRest)
      · split at member
        · rcases List.mem_cons.mp member with rfl | inRest
          · exact List.mem_cons_self ..
          · exact List.mem_cons_of_mem _ (ih inRest)
        · split at member
          · split at member
            · rcases List.mem_cons.mp member with rfl | inRest
              · exact List.mem_cons_self ..
              · exact List.mem_cons_of_mem _ (ih inRest)
            · rcases List.mem_cons.mp member with rfl | inRest
              · exact List.mem_cons_self ..
              · exact List.mem_cons_of_mem _ (ih inRest)
          · rcases List.mem_cons.mp member with rfl | inRest
            · exact List.mem_cons_self ..
            · exact List.mem_cons_of_mem _ (ih inRest)

theorem make_ok {parameters : List Parameter} {arguments : List Argument} {binding : Binding}
    (made : make parameters arguments = .ok binding) :
    ∃ sorted, Sorted.add parameters 0 {} arguments = .ok sorted ∧
      spread sorted 0 sorted.positional 0 parameters =
        (binding.parameters, binding.count, []) := by
  unfold make at made
  obtain ⟨sorted, isSorted, made⟩ := bind_eq_ok made
  refine ⟨sorted, isSorted, ?_⟩
  split at made
  · cases made
  · next found =>
      cases made
      exact found

theorem parameter_mem_of_make {parameters : List Parameter} {arguments : List Argument}
    {binding : Binding} (made : make parameters arguments = .ok binding) :
    ∀ bound ∈ binding.parameters, bound.parameter ∈ parameters := by
  intro bound member
  obtain ⟨sorted, -, found⟩ := make_ok made
  apply parameter_mem_of_spread
  rw [found]
  exact member

theorem spread_append {sorted : Sorted} {plain : List Parameter} (rest : List Parameter)
    (single : ∀ parameter ∈ plain, parameter.isExtensible = false) :
    ∀ (slot : Nat) (positional : List (Nat × Expr)) (count : Nat), ∃ bound left,
      bound.map BoundParameter.parameter = plain ∧
      (∀ entry ∈ bound, entry.position = none) ∧
      spread sorted slot positional count (plain ++ rest) =
        (bound ++ (spread sorted (slot + plain.length) left count rest).1,
          (spread sorted (slot + plain.length) left count rest).2) := by
  induction plain with
  | nil =>
      intro slot positional count
      exact ⟨[], positional, rfl, by simp, by simp⟩
  | cons parameter plain ih =>
      intro slot positional count
      have isSingle : parameter.isExtensible = false := single parameter (List.mem_cons_self ..)
      have restSingle : ∀ other ∈ plain, other.isExtensible = false := fun other member =>
        single other (List.mem_cons_of_mem _ member)
      -- Whatever the first parameter gets, the others are bound from the next slot on.
      have step : ∀ (actual : Option Actual) (left : List (Nat × Expr)),
          spread sorted slot positional count (parameter :: (plain ++ rest)) =
            ({ parameter, actual } :: (spread sorted (slot + 1) left count (plain ++ rest)).1,
              (spread sorted (slot + 1) left count (plain ++ rest)).2) →
          ∃ bound left', bound.map BoundParameter.parameter = parameter :: plain ∧
            (∀ entry ∈ bound, entry.position = none) ∧
            spread sorted slot positional count (parameter :: (plain ++ rest)) =
              (bound ++ (spread sorted (slot + (plain.length + 1)) left' count rest).1,
                (spread sorted (slot + (plain.length + 1)) left' count rest).2) := by
        intro actual left first
        obtain ⟨bound, left', names, positions, spreads⟩ := ih restSingle (slot + 1) left count
        have sameSlot : slot + 1 + plain.length = slot + (plain.length + 1) := by omega
        rw [sameSlot] at spreads
        refine ⟨{ parameter, actual } :: bound, left', by rw [List.map_cons, names], ?_, ?_⟩
        · intro entry member
          rcases List.mem_cons.mp member with rfl | later
          · rfl
          · exact positions entry later
        · rw [first, spreads]
          rfl
      rw [List.cons_append, List.length_cons]
      cases given : sorted.named.lookup slot with
      | some actual =>
          apply step (some actual) positional
          simp [spread, isSingle, given]
      | none =>
          by_cases isOpen : (!parameter.isImplicit && parameter.isInput) = true
          · cases positional with
            | nil =>
                apply step none []
                simp [spread, isSingle, given]
            | cons value positional =>
                apply step (some (.input value.1 value.2)) positional
                simp only [spread, isSingle, given, isOpen, Bool.false_eq_true, if_false, if_true]
          · apply step none positional
            simp only [spread, isSingle, given, isOpen, Bool.false_eq_true, if_false]

end Binding

/-! ## Extensible parameters come last -/

inductive Parameter.GroupLast : List Parameter → Prop where
  | plain {parameters : List Parameter}
      (single : ∀ parameter ∈ parameters, parameter.isExtensible = false) : GroupLast parameters
  | grouped {parameters : List Parameter} {last : Parameter}
      (single : ∀ parameter ∈ parameters, parameter.isExtensible = false)
      (isExtensible : last.isExtensible = true) (isInput : last.direction = .input) :
      GroupLast (parameters ++ [last])

theorem Standard.single_of_areInputs {inputs : List Parameter}
    (areInputs : ∀ parameter ∈ inputs, ∃ label type, parameter = Parameter.input label type) :
    ∀ parameter ∈ Parameter.implicit ++ inputs, parameter.isExtensible = false := by
  intro parameter member
  rcases List.mem_append.mp member with isImplicit | isInput
  · simp only [Parameter.implicit, List.mem_cons, List.not_mem_nil, or_false] at isImplicit
    rcases isImplicit with rfl | rfl <;> rfl
  · obtain ⟨label, type, rfl⟩ := areInputs parameter isInput
    rfl

theorem Standard.groupLast_of_takesInputs {signature : FunctionSignature}
    (shape : Standard.TakesInputs signature) : Parameter.GroupLast signature.parameters := by
  cases shape with
  | plain name returnType inputs areInputs => exact .plain (single_of_areInputs areInputs)
  | grouped name returnType inputs label type areInputs =>
      rw [FunctionSignature.standard, ← List.append_assoc]
      exact .grouped (single_of_areInputs areInputs) rfl rfl

theorem FunctionDecl.single_of_signature {types : TypeTable} {blocks : List Ident}
    {decl : FunctionDecl} {signature : FunctionSignature}
    (made : decl.signature types blocks = .ok signature) :
    ∀ parameter ∈ signature.parameters, parameter.isExtensible = false := by
  obtain ⟨-, -, -, parametersMade⟩ := FunctionDecl.signature_ok made
  exact fun parameter member => (parameter_of_parametersOf parametersMade parameter member).1

/-- A binding of such parameters binds each one that is not extensible once; the group
comes after these and has as many positions as the binding counts. -/
theorem Binding.split_of_make {parameters : List Parameter} {arguments : List Argument}
    {binding : Binding} (groupLast : Parameter.GroupLast parameters)
    (made : make parameters arguments = .ok binding) :
    ∃ plain members, binding.parameters = plain ++ members ∧
      plain.map BoundParameter.parameter =
        parameters.filter (fun parameter => !parameter.isExtensible) ∧
      (∀ bound ∈ plain, bound.parameter.isExtensible = false ∧ bound.position = none) ∧
      (∀ bound ∈ members, bound.parameter.isExtensible = true ∧
        bound.parameter.direction = .input) ∧
      members.length = binding.count := by
  obtain ⟨sorted, -, found⟩ := make_ok made
  have plainBound : ∀ {plain : List BoundParameter} {declared : List Parameter},
      plain.map BoundParameter.parameter = declared →
      (∀ parameter ∈ declared, parameter.isExtensible = false) →
      (∀ bound ∈ plain, bound.position = none) →
      ∀ bound ∈ plain, bound.parameter.isExtensible = false ∧ bound.position = none := by
    intro plain declared names single positions bound member
    refine ⟨single _ ?_, positions bound member⟩
    rw [← names]
    exact List.mem_map_of_mem member
  cases groupLast with
  | plain single =>
      obtain ⟨plain, left, names, positions, spreads⟩ :=
        spread_append [] single 0 sorted.positional 0
      rw [List.append_nil, found] at spreads
      simp only [spread, List.append_nil, Prod.mk.injEq] at spreads
      refine ⟨plain, [], by rw [spreads.1, List.append_nil], ?_, ?_, by simp, ?_⟩
      · rw [names, List.filter_eq_self.mpr]
        intro parameter member
        rw [single parameter member]
        rfl
      · exact plainBound names single positions
      · exact spreads.2.1.symm
  | @grouped declared last single isExtensible isInput =>
      obtain ⟨plain, left, names, positions, spreads⟩ :=
        spread_append [last] single 0 sorted.positional 0
      rw [found] at spreads
      simp only [spread, isExtensible, if_true, List.append_nil, Prod.mk.injEq] at spreads
      refine ⟨plain, group last sorted.grouped left, spreads.1, ?_, ?_, ?_, spreads.2.1.symm⟩
      · rw [names, List.filter_append, List.filter_eq_self.mpr, List.filter_cons_of_neg,
          List.filter_nil, List.append_nil]
        · simp [isExtensible]
        · intro parameter member
          rw [single parameter member]
          rfl
      · exact plainBound names single positions
      · intro bound member
        rw [parameter_of_mem_group member]
        exact ⟨isExtensible, isInput⟩

/-- Parameters of which none is extensible are bound in order, each once. -/
theorem Binding.single_of_make {parameters : List Parameter} {arguments : List Argument}
    {binding : Binding} (single : ∀ parameter ∈ parameters, parameter.isExtensible = false)
    (made : make parameters arguments = .ok binding) :
    binding.parameters.map BoundParameter.parameter = parameters ∧
      ∀ bound ∈ binding.parameters,
        bound.parameter.isExtensible = false ∧ bound.position = none := by
  obtain ⟨plain, members, split, names, plainSingle, extensible, -⟩ :=
    Binding.split_of_make (.plain single) made
  have noMembers : members = [] := by
    rw [List.eq_nil_iff_forall_not_mem]
    intro bound member
    have isParameter := Binding.parameter_mem_of_make made bound (by simp [split, member])
    have isSingle := single _ isParameter
    rw [(extensible bound member).1] at isSingle
    cases isSingle
  rw [noMembers, List.append_nil] at split
  rw [split, names, List.filter_eq_self.mpr (by simpa using single)]
  exact ⟨rfl, plainSingle⟩

theorem Binding.input_of_extensible {parameters : List Parameter} {arguments : List Argument}
    {binding : Binding} (groupLast : Parameter.GroupLast parameters)
    (made : make parameters arguments = .ok binding) :
    ∀ bound ∈ binding.parameters, bound.parameter.isExtensible = true →
      bound.parameter.direction = .input := by
  obtain ⟨plain, members, split, -, plainSingle, extensible, -⟩ :=
    Binding.split_of_make groupLast made
  intro bound member isExtensible
  rw [split] at member
  rcases List.mem_append.mp member with inPlain | inGroup
  · have isSingle := (plainSingle bound inPlain).1
    rw [isExtensible] at isSingle
    cases isSingle
  · exact (extensible bound inGroup).2

end StructuredText
