import StructuredText.Call.Table
import StructuredText.Proofs.Outcome

/-!
# Where the types of a library come from

A type table that was built without faults knows every declared name, and an
enumeration that a type of the table stands for is one that the library declares.
Both follow from an invariant of the rounds in which the table is built: what is not
declared yet is waiting for its turn or has been reported.
-/

set_option autoImplicit false

namespace StructuredText

/-- If the type stands for an enumeration, the enumeration is one of those declared. -/
def DataType.IsDeclaredIn (decls : List TypeDecl) (type : DataType) : Prop :=
  ∀ name values, type.resolved = .enumeration name values → .enumeration name values ∈ decls

section Origin

variable {decls : List TypeDecl}

theorem DataType.isDeclaredIn_elementary (type : Elementary) :
    (DataType.elementary type).IsDeclaredIn decls := by
  intro name values same
  cases same

theorem DataType.isDeclaredIn_functionBlock (name : Ident) :
    (DataType.functionBlock name).IsDeclaredIn decls := by
  intro name values same
  cases same

theorem DataType.isDeclaredIn_array (name : Ident) (dimensions : List Dimension)
    (element : DataType) : (DataType.array name dimensions element).IsDeclaredIn decls := by
  intro name values same
  cases same

namespace TypeTable

def AllDeclaredIn (decls : List TypeDecl) (types : TypeTable) : Prop :=
  ∀ entry ∈ types.entries, entry.2.IsDeclaredIn decls

theorem allDeclaredIn_elementary : elementary.AllDeclaredIn decls := by
  intro entry member
  obtain ⟨type, -, rfl⟩ := List.mem_map.mp member
  exact DataType.isDeclaredIn_elementary type

variable {types : TypeTable} (declared : types.AllDeclaredIn decls)

include declared

theorem AllDeclaredIn.type? {name : Ident} {type : DataType}
    (found : types.type? name = some type) : type.IsDeclaredIn decls := by
  unfold TypeTable.type? at found
  split at found
  · cases found
    exact DataType.isDeclaredIn_elementary _
  · obtain ⟨entry, member, rfl⟩ := Table.mem_of_get? found
    exact declared entry member

theorem AllDeclaredIn.initializer? {initializer : Initializer} {type : DataType}
    (found : types.initializer? initializer = some type) : type.IsDeclaredIn decls := by
  cases initializer with
  | simple name value => exact declared.type? found
  | string length width value =>
      cases found
      exact DataType.isDeclaredIn_elementary _
  | enumerated name value => exact declared.type? found
  | functionBlock name =>
      cases found
      exact DataType.isDeclaredIn_functionBlock _
  | array spec =>
      cases spec with
      | named name => exact declared.type? found
      | inline shape =>
          obtain ⟨⟨dimensions, element⟩, -, rfl⟩ := Option.map_eq_some_iff.mp found
          exact DataType.isDeclaredIn_array _ _ _

theorem AllDeclaredIn.varDecl {blocks : List Ident} {decl : VarDecl} {type : DataType}
    (found : decl.type types blocks = .ok type) : type.IsDeclaredIn decls := by
  unfold VarDecl.type at found
  split at found
  · split at found
    · next known =>
        cases found
        exact declared.type? known
    · split at found
      · cases found
        exact DataType.isDeclaredIn_functionBlock _
      · cases found
  · split at found
    · cases found
      exact DataType.isDeclaredIn_functionBlock _
    · cases found
  · split at found
    · next known =>
        cases found
        exact declared.initializer? known
    · cases found

theorem AllDeclaredIn.declaration? {decl : TypeDecl} {type : DataType} (member : decl ∈ decls)
    (found : types.declaration? decl = some type) : type.IsDeclaredIn decls := by
  cases decl with
  | synonym name base =>
      obtain ⟨baseType, known, rfl⟩ := Option.map_eq_some_iff.mp found
      intro name values same
      exact declared.type? known name values same
  | subrange name base range =>
      obtain ⟨bounds, -, rfl⟩ := Option.map_eq_some_iff.mp found
      intro name values same
      cases same
  | enumeration name values =>
      cases found
      intro name values same
      cases same
      exact member
  | array name shape =>
      obtain ⟨⟨dimensions, element⟩, -, rfl⟩ := Option.map_eq_some_iff.mp found
      exact DataType.isDeclaredIn_array _ _ _
  | record name fields =>
      obtain ⟨types, -, rfl⟩ := Option.map_eq_some_iff.mp found
      intro name values same
      cases same
  | string name length width =>
      cases found
      intro name values same
      cases same

omit declared

/-! ## The rounds -/

/-- The state of a table under construction, while `turns` still have their turn in
the current round: no declaration is forgotten. -/
structure Progress.Accounts (decls turns : List TypeDecl) (progress : Progress) : Prop where
  declared : progress.types.AllDeclaredIn decls
  turnsKnown : ∀ decl ∈ turns, decl ∈ decls
  waitingKnown : ∀ decl ∈ progress.waiting, decl ∈ decls
  complete : progress.faults = [] → ∀ decl ∈ decls,
    progress.types.contains decl.name = true ∨ decl ∈ progress.waiting ∨ decl ∈ turns

theorem Progress.Accounts.step {progress : Progress} {decl : TypeDecl} {turns : List TypeDecl}
    (accounts : progress.Accounts decls (decl :: turns)) :
    (progress.step decl).Accounts decls turns := by
  have known : decl ∈ decls := accounts.turnsKnown decl (List.mem_cons_self ..)
  have turnsKnown : ∀ other ∈ turns, other ∈ decls := fun other member =>
    accounts.turnsKnown other (List.mem_cons_of_mem _ member)
  unfold Progress.step
  cases found : progress.types.declaration? decl with
  | none =>
      refine ⟨accounts.declared, turnsKnown, ?_, ?_⟩
      · intro other member
        rcases List.mem_append.mp member with waits | isThis
        · exact accounts.waitingKnown other waits
        · rw [List.mem_singleton.mp isThis]
          exact known
      · intro noFaults other member
        rcases accounts.complete noFaults other member with done | waits | turn
        · exact .inl done
        · exact .inr (.inl (List.mem_append_left _ waits))
        · rcases List.mem_cons.mp turn with isThis | later
          · exact .inr (.inl (List.mem_append_right _ (List.mem_singleton.mpr isThis)))
          · exact .inr (.inr later)
  | some type =>
      unfold TypeTable.declare
      by_cases taken : progress.types.contains decl.name = true
      · simp only [taken, if_true]
        refine ⟨accounts.declared, turnsKnown, accounts.waitingKnown, ?_⟩
        intro noFaults
        simp at noFaults
      · simp only [taken, Bool.false_eq_true, if_false]
        refine ⟨?_, turnsKnown, accounts.waitingKnown, ?_⟩
        · intro entry member
          rcases List.mem_append.mp member with old | isNew
          · exact accounts.declared entry old
          · rw [List.mem_singleton.mp isNew]
            exact accounts.declared.declaration? known found
        · intro noFaults other member
          rw [Table.contains_push]
          rcases accounts.complete noFaults other member with done | waits | turn
          · exact .inl (by rw [done]; rfl)
          · exact .inr (.inl waits)
          · rcases List.mem_cons.mp turn with isThis | later
            · subst isThis
              exact .inl (by simp)
            · exact .inr (.inr later)

theorem Progress.Accounts.foldl {turns : List TypeDecl} :
    ∀ {progress : Progress}, progress.Accounts decls turns →
      (turns.foldl Progress.step progress).Accounts decls [] := by
  induction turns with
  | nil => exact fun accounts => accounts
  | cons decl turns ih => exact fun accounts => ih accounts.step

theorem Progress.Accounts.round {progress : Progress} (accounts : progress.Accounts decls []) :
    progress.round.Accounts decls [] := by
  apply Progress.Accounts.foldl
  refine ⟨accounts.declared, accounts.waitingKnown, by simp, ?_⟩
  intro noFaults decl member
  rcases accounts.complete noFaults decl member with done | waits | turn
  · exact .inl done
  · exact .inr (.inr waits)
  · cases turn

theorem Progress.Accounts.rounds {bound : Nat} :
    ∀ {progress : Progress}, progress.Accounts decls [] →
      (Progress.rounds bound progress).Accounts decls [] := by
  induction bound with
  | zero => exact fun accounts => accounts
  | succ bound ih =>
      intro progress accounts
      unfold Progress.rounds
      dsimp only
      split
      · exact accounts.round
      · exact ih accounts.round

/-- A table that was built without faults has all declared names, and all of its types
come from the declarations. -/
theorem build_ok {start types : TypeTable} (startDeclared : start.AllDeclaredIn decls)
    (built : build start decls = .ok types) :
    types.AllDeclaredIn decls ∧ ∀ decl ∈ decls, types.contains decl.name = true := by
  have accounts : (Progress.rounds (decls.length + 1)
      { types := start, waiting := decls }).Accounts decls [] := by
    apply Progress.Accounts.rounds
    exact ⟨startDeclared, by simp, fun _ member => member,
      fun _ decl member => .inr (.inl member)⟩
  unfold build at built
  dsimp only at built
  split at built
  · next noFaults =>
      cases built
      obtain ⟨faultless, noneWaiting⟩ := List.append_eq_nil_iff.mp noFaults
      rw [List.map_eq_nil_iff] at noneWaiting
      refine ⟨accounts.declared, fun decl member => ?_⟩
      rcases accounts.complete faultless decl member with done | waits | turn
      · exact done
      · rw [noneWaiting] at waits
        cases waits
      · cases turn
  · cases built

theorem type?_of_contains {types : TypeTable} {name : Ident} (known : types.contains name = true) :
    ∃ type, types.type? name = some type := by
  unfold type?
  split
  · exact ⟨_, rfl⟩
  · exact Option.isSome_iff_exists.mp known

end TypeTable

end Origin

end StructuredText
