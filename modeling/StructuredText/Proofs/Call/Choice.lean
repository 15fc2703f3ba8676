import StructuredText.Proofs.Analysis.Assignable
import StructuredText.Proofs.Types.Fixpoint
import StructuredText.Tree.Build

/-!
# How the declaration of a call is chosen

A declaration takes a call if the arguments can be bound to its parameters and the types
go together: then, and only then, it has a score.  Of the declarations that take the call,
analysis chooses the first of those with the highest score.
-/

set_option autoImplicit false

namespace StructuredText

/-! ## Scores -/

/-- An argument has a score for just those parameters that it may be stored in. -/
theorem matchScore?_isSome (parameter argument : DataType) :
    (matchScore? parameter argument).isSome = parameter.accepts argument := by
  cases accepts : parameter.accepts argument with
  | true =>
      unfold matchScore?
      dsimp only
      split
      · rfl
      · rw [accepts]
        rfl
  | false =>
      cases found : matchScore? parameter argument with
      | none => rfl
      | some score => rw [accepts_of_matchScore? found] at accepts; cases accepts

variable {types : List (Option DataType)}

namespace BoundParameter

/-- The type of the argument that an entry has goes together with that of the parameter: an
input may be stored in the parameter, the parameter in the destination of an output. -/
def Fits (types : List (Option DataType)) (bound : BoundParameter) : Prop :=
  match bound.actual with
  | none => True
  | some (.input index _) =>
      ∃ type, types[index]? = some (some type) ∧ bound.parameter.type.accepts type = true
  | some (.output index _) =>
      ∃ type, types[index]? = some (some type) ∧ type.accepts bound.parameter.type = true

def points (types : List (Option DataType)) (bound : BoundParameter) : Nat :=
  (bound.score? types).getD 0

theorem score?_isSome_iff (bound : BoundParameter) :
    (bound.score? types).isSome = true ↔ bound.Fits types := by
  rw [Option.isSome_iff_exists, score?, Fits]
  cases bound.actual with
  | none => simp
  | some actual =>
      cases actual with
      | input index value =>
          simp only [Option.bind_eq_some_iff, Option.join_eq_some_iff]
          constructor
          · rintro ⟨score, type, isType, matched⟩
            exact ⟨type, isType, accepts_of_matchScore? matched⟩
          · rintro ⟨type, isType, accepts⟩
            rw [← matchScore?_isSome, Option.isSome_iff_exists] at accepts
            obtain ⟨score, matched⟩ := accepts
            exact ⟨score, type, isType, matched⟩
      | output index target =>
          simp only [Option.bind_eq_some_iff, Option.join_eq_some_iff,
            Option.ite_none_right_eq_some]
          constructor
          · rintro ⟨-, type, isType, accepts, -⟩
            exact ⟨type, isType, accepts⟩
          · rintro ⟨type, isType, accepts⟩
            exact ⟨0, type, isType, accepts, rfl⟩

theorem score?_eq_points {bound : BoundParameter} (fits : bound.Fits types) :
    bound.score? types = some (bound.points types) := by
  obtain ⟨score, scored⟩ := Option.isSome_iff_exists.mp (bound.score?_isSome_iff.mpr fits)
  rw [points, scored, Option.getD_some]

end BoundParameter

namespace Binding

/-- The types of the arguments go together with those of the parameters they are bound to. -/
def Fits (types : List (Option DataType)) (binding : Binding) : Prop :=
  ∀ bound ∈ binding.parameters, bound.Fits types

/-- The score of a binding whose arguments fit: the sum over its entries. -/
def total (types : List (Option DataType)) (binding : Binding) : Nat :=
  (binding.parameters.map (BoundParameter.points types)).sum

/-- A binding has a score if the arguments fit, and then it is the sum. -/
theorem score?_eq_some_iff {binding : Binding} {score : Nat} :
    binding.score? types = some score ↔ binding.Fits types ∧ binding.total types = score := by
  have scored : binding.Fits types → binding.parameters.mapM (BoundParameter.score? types) =
      some (binding.parameters.map (BoundParameter.points types)) := by
    intro fits
    rw [mapM_congr fun bound member => BoundParameter.score?_eq_points (fits bound member)]
    exact List.mapM_pure
  have isTotal : ∀ scores : List Nat, scores.foldl (· + ·) 0 = scores.sum := fun scores =>
    List.sum_eq_foldl.symm
  rw [score?, Option.map_eq_some_iff]
  constructor
  · rintro ⟨scores, allScored, rfl⟩
    have fits : binding.Fits types := fun bound member =>
      bound.score?_isSome_iff.mp (isSome_mapM.mp (Option.isSome_of_eq_some allScored) bound member)
    rw [scored fits, Option.some.injEq] at allScored
    rw [← allScored, isTotal]
    exact ⟨fits, rfl⟩
  · rintro ⟨fits, rfl⟩
    exact ⟨_, scored fits, isTotal _⟩

end Binding

/-! ## The first of the best -/

namespace CallResolution

/-- A candidate is the first of the best: those before it have lower scores, and those after
it have none that are higher. -/
def IsFirstBest (candidates : List Candidate) (best : Candidate) : Prop :=
  ∃ before after, candidates = before ++ best :: after ∧
    (∀ other ∈ before, other.score < best.score) ∧ ∀ other ∈ after, other.score ≤ best.score

theorem IsFirstBest.score_le {candidates : List Candidate} {best other : Candidate}
    (isFirst : IsFirstBest candidates best) (member : other ∈ candidates) :
    other.score ≤ best.score := by
  obtain ⟨before, after, rfl, lower, noneHigher⟩ := isFirst
  rcases List.mem_append.mp member with isBefore | isLater
  · exact Nat.le_of_lt (lower other isBefore)
  · rcases List.mem_cons.mp isLater with rfl | isAfter
    · exact Nat.le_refl _
    · exact noneHigher other isAfter

theorem best?_append (candidates : List Candidate) (last : Candidate) :
    best? (candidates ++ [last]) =
      match best? candidates with
      | none => some last
      | some leader => if leader.score < last.score then some last else some leader := by
  rw [best?, List.foldl_append]
  change (match best? candidates with
    | none => some last
    | some leader => if leader.score < last.score then some last else best? candidates) = _
  cases best? candidates <;> rfl

/-- There is a best candidate unless there is none at all, and it is the first. -/
theorem best?_spec (candidates : List Candidate) :
    match best? candidates with
    | none => candidates = []
    | some best => IsFirstBest candidates best := by
  induction candidates using List.reverseRecOn with
  | nil => rfl
  | append_singleton candidates last ih =>
      rw [best?_append]
      cases found : best? candidates with
      | none =>
          rw [found] at ih
          exact ⟨[], [], by rw [ih], by simp, by simp⟩
      | some leader =>
          rw [found] at ih
          dsimp only
          by_cases higher : leader.score < last.score
          · rw [if_pos higher]
            refine ⟨candidates, [], rfl, fun other member => ?_, by simp⟩
            exact Nat.lt_of_le_of_lt (ih.score_le member) higher
          · rw [if_neg higher]
            obtain ⟨before, after, split, lower, noneHigher⟩ := ih
            refine ⟨before, after ++ [last], by rw [split]; simp, lower, fun other member => ?_⟩
            rcases List.mem_append.mp member with isAfter | isLast
            · exact noneHigher other isAfter
            · rw [List.mem_singleton.mp isLast]
              exact Nat.le_of_not_lt higher

/-! ## The declaration of a call -/

/-- A declaration takes the arguments of a call: they can be bound to its parameters, and
their types fit. -/
def Takes (arguments : List Argument) (types : List (Option DataType))
    (signature : FunctionSignature) (binding : Binding) : Prop :=
  Binding.make signature.parameters arguments = .ok binding ∧ binding.Fits types

def candidate (types : List (Option DataType)) (signature : FunctionSignature)
    (binding : Binding) : Candidate :=
  { score := binding.total types, signature, count := binding.count }

theorem candidate?_eq_some_iff {arguments : List Argument} {signature : FunctionSignature}
    {found : Candidate} :
    candidate? arguments types signature = some found ↔
      ∃ binding, Takes arguments types signature binding ∧
        found = candidate types signature binding := by
  unfold candidate?
  cases made : Binding.make signature.parameters arguments with
  | error fault => simp [Takes, made]
  | ok binding =>
      simp only [Option.map_eq_some_iff, Binding.score?_eq_some_iff, Takes, made]
      constructor
      · rintro ⟨score, ⟨fits, rfl⟩, rfl⟩
        exact ⟨binding, ⟨rfl, fits⟩, rfl⟩
      · rintro ⟨other, ⟨same, fits⟩, rfl⟩
        cases same
        exact ⟨_, ⟨fits, rfl⟩, rfl⟩

/-- A resolution is the first of the best: the arguments fit its declaration and are counted as
there, and of the other declarations that take the call those before it have lower scores and
those after it none that are higher. -/
def IsBest (overloads : List FunctionSignature) (arguments : List Argument)
    (types : List (Option DataType)) (resolution : CallResolution) : Prop :=
  ∃ before after binding, overloads = before ++ resolution.signature :: after ∧
    Takes arguments types resolution.signature binding ∧ resolution.count = binding.count ∧
    (∀ other ∈ before, ∀ otherBinding, Takes arguments types other otherBinding →
      otherBinding.total types < binding.total types) ∧
    ∀ other ∈ after, ∀ otherBinding, Takes arguments types other otherBinding →
      otherBinding.total types ≤ binding.total types

section Resolve

variable {overloads : List FunctionSignature} {arguments : List Argument}

theorem exists_candidate_iff :
    overloads.filterMap (candidate? arguments types) ≠ [] ↔
      ∃ signature ∈ overloads, ∃ binding, Takes arguments types signature binding := by
  constructor
  · intro notEmpty
    obtain ⟨candidate, member⟩ := List.exists_mem_of_ne_nil _ notEmpty
    obtain ⟨signature, isDeclared, isCandidate⟩ := List.mem_filterMap.mp member
    obtain ⟨binding, takes, -⟩ := candidate?_eq_some_iff.mp isCandidate
    exact ⟨signature, isDeclared, binding, takes⟩
  · rintro ⟨signature, isDeclared, binding, takes⟩
    exact List.ne_nil_of_mem (List.mem_filterMap.mpr
      ⟨signature, isDeclared, candidate?_eq_some_iff.mpr ⟨binding, takes, rfl⟩⟩)

theorem resolve_isOk_iff (name : Ident) :
    (∃ resolution, resolve name overloads arguments types = .ok resolution) ↔
      ∃ signature ∈ overloads, ∃ binding, Takes arguments types signature binding := by
  have spec := best?_spec (overloads.filterMap (candidate? arguments types))
  rw [← exists_candidate_iff, resolve]
  cases found : best? (overloads.filterMap (candidate? arguments types)) with
  | none =>
      rw [found] at spec
      simp only [spec, ne_eq, not_true_eq_false, iff_false, not_exists]
      intro resolution
      split
      · nofun
      · split <;> nofun
  | some best =>
      rw [found] at spec
      obtain ⟨before, after, split, -⟩ := spec
      simp [split]

theorem isBest_of_resolve {name : Ident} {resolution : CallResolution}
    (resolved : resolve name overloads arguments types = .ok resolution) :
    resolution.IsBest overloads arguments types := by
  have spec := best?_spec (overloads.filterMap (candidate? arguments types))
  unfold resolve at resolved
  dsimp only at resolved
  cases found : best? (overloads.filterMap (candidate? arguments types)) with
  | none =>
      rw [found] at resolved
      dsimp only at resolved
      split at resolved
      · cases resolved
      · split at resolved <;> cases resolved
  | some best =>
      rw [found] at spec resolved
      cases resolved
      obtain ⟨before, after, split, lower, noneHigher⟩ := spec
      obtain ⟨first, rest, rfl, isBefore, isRest⟩ := List.filterMap_eq_append_iff.mp split
      obtain ⟨skipped, signature, others, rfl, areSkipped, isBest, isAfter⟩ :=
        List.filterMap_eq_cons_iff.mp isRest
      obtain ⟨binding, takes, rfl⟩ := candidate?_eq_some_iff.mp isBest
      refine ⟨first ++ skipped, others, binding, by simp [candidate], takes, rfl, ?_, ?_⟩
      · intro other member otherBinding otherTakes
        have isCandidate := candidate?_eq_some_iff.mpr ⟨otherBinding, otherTakes, rfl⟩
        rcases List.mem_append.mp member with isFirst | isSkipped
        · refine lower (candidate types other otherBinding) ?_
          rw [← isBefore]
          exact List.mem_filterMap.mpr ⟨other, isFirst, isCandidate⟩
        · rw [areSkipped other isSkipped] at isCandidate
          cases isCandidate
      · intro other member otherBinding otherTakes
        refine noneHigher (candidate types other otherBinding) ?_
        rw [← isAfter]
        exact List.mem_filterMap.mpr
          ⟨other, member, candidate?_eq_some_iff.mpr ⟨otherBinding, otherTakes, rfl⟩⟩

end Resolve

/-! ## What a call means -/

section Call

variable {context : Context} {scope : Scope} {name : Ident} {arguments : List Argument}

/-- The type of a call is what the function returns that it means. -/
theorem type?_call : (Expr.call name arguments).type? context scope =
    (of? context scope name arguments).map fun resolution => resolution.signature.returnType := by
  rw [Expr.type?, Expr.judge, of?]
  cases context.functions.overloads? name with
  | none => rfl
  | some overloads =>
      simp only [Option.bind_eq_bind, Option.bind_some]
      split
      · cases resolve name overloads arguments (Argument.judgeList context scope arguments).1 <;>
          rfl
      · rfl

/-- With arguments whose types are known, a call means what the declarations are resolved to. -/
theorem of?_eq_toOption {overloads : List FunctionSignature}
    (declared : context.functions.overloads? name = some overloads)
    (areTyped : ∀ argument ∈ arguments, (argument.type? context scope).isSome = true) :
    of? context scope name arguments =
      (resolve name overloads arguments
        (arguments.map (Argument.type? context scope))).toOption := by
  have allTyped : (arguments.map (Argument.type? context scope)).all Option.isSome = true := by
    rw [List.all_map, List.all_eq_true]
    exact areTyped
  simp only [of?, declared, Option.bind_eq_bind, Option.bind_some, Argument.types_judgeList,
    allTyped, if_true]

theorem isSome_of?_iff {overloads : List FunctionSignature}
    (declared : context.functions.overloads? name = some overloads)
    (areTyped : ∀ argument ∈ arguments, (argument.type? context scope).isSome = true) :
    (of? context scope name arguments).isSome = true ↔
      ∃ signature ∈ overloads, ∃ binding,
        Takes arguments (arguments.map (Argument.type? context scope)) signature binding := by
  rw [of?_eq_toOption declared areTyped, ← resolve_isOk_iff name, Option.isSome_iff_exists]
  exact exists_congr fun resolution =>
    ⟨eq_ok_of_toOption, fun resolved => by rw [resolved]; rfl⟩

theorem isBest_of_of? {overloads : List FunctionSignature}
    (declared : context.functions.overloads? name = some overloads)
    (areTyped : ∀ argument ∈ arguments, (argument.type? context scope).isSome = true)
    {resolution : CallResolution} (found : of? context scope name arguments = some resolution) :
    resolution.IsBest overloads arguments (arguments.map (Argument.type? context scope)) := by
  rw [of?_eq_toOption declared areTyped] at found
  exact isBest_of_resolve (eq_ok_of_toOption found)

/-- With arguments whose types are known, a call of a function means something if a
declaration takes it: the arguments can be bound, inputs may be stored in their parameters and
outputs in their destinations.  What it means is then the first of the declarations with the
highest score, with the number of extensible arguments that are bound there.  An argument has
a score for just those parameters that it may be stored in. -/
theorem of?_isBest {overloads : List FunctionSignature}
    (declared : context.functions.overloads? name = some overloads)
    (areTyped : ∀ argument ∈ arguments, (argument.type? context scope).isSome = true) :
    (∀ parameter argument : DataType,
      (matchScore? parameter argument).isSome = parameter.accepts argument) ∧
    ((of? context scope name arguments).isSome = true ↔
      ∃ signature ∈ overloads, ∃ binding,
        Takes arguments (arguments.map (Argument.type? context scope)) signature binding) ∧
    (∀ resolution, of? context scope name arguments = some resolution →
      resolution.IsBest overloads arguments (arguments.map (Argument.type? context scope))) ∧
    (Expr.call name arguments).type? context scope =
      (of? context scope name arguments).map fun resolution =>
        resolution.signature.returnType :=
  ⟨matchScore?_isSome, isSome_of?_iff declared areTyped,
    fun _ found => isBest_of_of? declared areTyped found, type?_call⟩

end Call

def standardContext : Context := { functions := FunctionTable.standard false }

theorem overloads?_standardContext {name : Ident}
    (isDeclared : ((Standard.functions false).any fun signature => signature.name == name) = true) :
    standardContext.functions.overloads? name =
      some ((Standard.functions false).filter fun signature => signature.name == name) := by
  obtain ⟨signature, member, same⟩ := List.any_eq_true.mp isDeclared
  have inTable : signature ∈ (FunctionTable.standard false).declarationsOf name := by
    rw [FunctionTable.declarationsOf_standard]
    exact List.mem_filter.mpr ⟨member, same⟩
  rw [← FunctionTable.declarationsOf_standard]
  exact FunctionTable.overloads?_of_mem inTable

def addends : List Argument :=
  [.named "IN2" (.ofInt 1), .positional (.const (.integer (SignedToken.ofInt 2) (some .int)))]

theorem of?_isBest_addends :
    ∃ overloads, standardContext.functions.overloads? "ADD" = some overloads ∧
      (∀ argument ∈ addends, (argument.type? standardContext ScopeStack.new).isSome = true) ∧
      ∃ resolution, of? standardContext ScopeStack.new "ADD" addends = some resolution ∧
        resolution.IsBest overloads addends
          (addends.map (Argument.type? standardContext ScopeStack.new)) := by
  have declared := @overloads?_standardContext "ADD" (by decide +kernel)
  have areTyped : ∀ argument ∈ addends,
      (argument.type? standardContext ScopeStack.new).isSome = true := by decide +kernel
  have runs : (of? standardContext ScopeStack.new "ADD" addends).isSome = true := by
    rw [of?_eq_toOption declared areTyped]
    decide +kernel
  obtain ⟨resolution, found⟩ := Option.isSome_iff_exists.mp runs
  exact ⟨_, declared, areTyped, resolution, found,
    (of?_isBest declared areTyped).2.2.1 resolution found⟩

end CallResolution

end StructuredText
