import StructuredText.Proofs.Call.Choice
import StructuredText.Proofs.Call.Conservation
import StructuredText.Proofs.Call.Related

/-!
# Calls with the arguments in another order

The order of the arguments matters only among those by position.  If no two of the others
name the same parameter or the same position of the extensible one, a binding has the same
argument everywhere whatever order they stand in.  A call then means the same in any order,
as long as no other declaration is chosen in which two of the arguments do name the same
position: there the one of them that stands last supersedes the others, and which one that
is depends on the order, and with it the score of the declaration.
-/

set_option autoImplicit false

namespace StructuredText

namespace Argument

def byPosition? : Argument → Option Expr
  | .positional value => some value
  | .named .. | .output .. => none

/-- The same arguments in another order that leaves those by position in theirs. -/
structure Rearranged (arguments arguments' : List Argument) : Prop where
  perm : arguments.Perm arguments'
  byPosition : arguments.filterMap byPosition? = arguments'.filterMap byPosition?

theorem Rearranged.symm {arguments arguments' : List Argument}
    (rearranged : Rearranged arguments arguments') : Rearranged arguments' arguments :=
  ⟨rearranged.perm.symm, rearranged.byPosition.symm⟩

/-- No two arguments name the same parameter or the same position of the extensible one. -/
def Apart (parameters : List Parameter) (arguments : List Argument) : Prop :=
  arguments.Pairwise fun first second =>
    (first.seat? parameters).isSome = true → first.seat? parameters ≠ second.seat? parameters

instance (parameters : List Parameter) (arguments : List Argument) :
    Decidable (Apart parameters arguments) :=
  inferInstanceAs (Decidable (arguments.Pairwise _))

theorem Apart.eq_of_seat? {parameters : List Parameter} {arguments : List Argument}
    (apart : Apart parameters arguments) {first second : Argument} {seat : Binding.Seat}
    (isFirst : first ∈ arguments) (isSecond : second ∈ arguments)
    (names : first.seat? parameters = some seat)
    (alsoNames : second.seat? parameters = some seat) : first = second := by
  by_contra different
  have symmetric : Std.Symm fun first second : Argument =>
      (first.seat? parameters).isSome = true → first.seat? parameters ≠ second.seat? parameters :=
    ⟨fun first second differ named same => differ (same ▸ named) same.symm⟩
  refine apart.forall isFirst isSecond different ?_ (names.trans alsoNames.symm)
  rw [names]
  rfl

end Argument

/-- Actuals of two calls that the same argument gives. -/
inductive Actual.Agrees (arguments arguments' : List Argument) : Actual → Actual → Prop where
  | intro {argument : Argument} {index index' : Nat} (given : arguments[index]? = some argument)
      (given' : arguments'[index']? = some argument) :
      Agrees arguments arguments' (argument.actual index) (argument.actual index')

/-- Entries of two bindings for the same parameter, at the same position of a group: both are
left open, or both have the same argument. -/
inductive BoundParameter.Agrees (arguments arguments' : List Argument) :
    BoundParameter → BoundParameter → Prop where
  | unbound (parameter : Parameter) (position : Option Nat) :
      Agrees arguments arguments' { parameter, position } { parameter, position }
  | bound (parameter : Parameter) (position : Option Nat) {argument : Argument}
      {index index' : Nat} (given : arguments[index]? = some argument)
      (given' : arguments'[index']? = some argument) :
      Agrees arguments arguments' { parameter, position, actual := some (argument.actual index) }
        { parameter, position, actual := some (argument.actual index') }

theorem BoundParameter.agrees_of_related {arguments arguments' : List Argument}
    {bound bound' : BoundParameter}
    (related : bound.Related Eq (Actual.Agrees arguments arguments') bound') :
    bound.Agrees arguments arguments' bound' := by
  obtain ⟨parameter, position, actual⟩ := bound
  obtain ⟨parameter', position', actual'⟩ := bound'
  obtain ⟨rfl, rfl, sameActual⟩ := related
  cases sameActual with
  | none => exact .unbound parameter position
  | some sameArgument =>
      obtain ⟨given, given'⟩ := sameArgument
      exact .bound parameter position given given'

/-- Bindings of two calls that have the same argument everywhere. -/
structure Binding.Agrees (arguments arguments' : List Argument) (binding binding' : Binding) :
    Prop where
  parameters : List.Forall₂ (BoundParameter.Agrees arguments arguments') binding.parameters
    binding'.parameters
  count : binding.count = binding'.count

namespace Binding

variable {parameters : List Parameter} {arguments arguments' : List Argument}

/-! ## What rearranged arguments give -/

theorem argument_of_given? {seat : Seat} {actual : Actual}
    (given : given? parameters arguments.zipIdx seat = some actual) :
    ∃ (argument : Argument) (index : Nat), arguments[index]? = some argument ∧
      argument.seat? parameters = some seat ∧ actual = argument.actual index := by
  obtain ⟨⟨argument, index⟩, isLast, rfl⟩ := Option.map_eq_some_iff.mp given
  have inCall := List.mem_reverse.mp (List.mem_of_find?_eq_some isLast)
  exact ⟨argument, index, List.mem_zipIdx_iff_getElem?.mp inCall,
    by simpa using List.find?_some isLast, rfl⟩

/-- The seats that something is given for do not depend on the order. -/
theorem given?_related {ofActual : Actual → Actual → Prop} (perm : arguments.Perm arguments')
    {seat : Seat}
    (related : ∀ actual actual', given? parameters arguments.zipIdx seat = some actual →
      given? parameters arguments'.zipIdx seat = some actual' → ofActual actual actual') :
    Option.Rel ofActual (given? parameters arguments.zipIdx seat)
      (given? parameters arguments'.zipIdx seat) := by
  have both : (given? parameters arguments.zipIdx seat).isSome =
      (given? parameters arguments'.zipIdx seat).isSome := by
    rw [given?_isSome, given?_isSome, List.zipIdx_map_fst, List.zipIdx_map_fst, perm.any_eq]
  cases given : given? parameters arguments.zipIdx seat with
  | none =>
      cases given' : given? parameters arguments'.zipIdx seat with
      | none => exact .none
      | some actual' => simp [given, given'] at both
  | some actual =>
      cases given' : given? parameters arguments'.zipIdx seat with
      | none => simp [given, given'] at both
      | some actual' => exact .some (related actual actual' given given')

/-- What is given for a seat comes from the same argument, if only one names the seat. -/
theorem given?_agrees (perm : arguments.Perm arguments')
    (apart : Argument.Apart parameters arguments) (seat : Seat) :
    Option.Rel (Actual.Agrees arguments arguments') (given? parameters arguments.zipIdx seat)
      (given? parameters arguments'.zipIdx seat) := by
  refine given?_related perm fun actual actual' given given' => ?_
  obtain ⟨argument, index, stands, names, rfl⟩ := argument_of_given? given
  obtain ⟨argument', index', stands', names', rfl⟩ := argument_of_given? given'
  have same : argument = argument' :=
    apart.eq_of_seat? (List.mem_of_getElem? stands)
      (perm.mem_iff.mpr (List.mem_of_getElem? stands')) names names'
  subst same
  exact .intro stands stands'

theorem namedPositions_zipIdx (parameters : List Parameter) (arguments : List Argument) :
    namedPositions parameters arguments.zipIdx = arguments.filterMap fun argument =>
      match argument.seat? parameters with
      | some (.member position) => some position
      | _ => none := by
  conv => rhs; rw [← List.zipIdx_map_fst 0 arguments]
  rw [List.filterMap_map]
  rfl

theorem highestNamed_of_perm (perm : arguments.Perm arguments') :
    highestNamed parameters arguments.zipIdx = highestNamed parameters arguments'.zipIdx := by
  rw [highestNamed, highestNamed, namedPositions_zipIdx, namedPositions_zipIdx]
  exact (perm.filterMap _).foldl_eq 0

theorem map_snd_positionals (arguments : List Argument) :
    (positionals arguments.zipIdx).map Prod.snd = arguments.filterMap Argument.byPosition? := by
  conv => rhs; rw [← List.zipIdx_map_fst 0 arguments]
  rw [positionals, List.map_filterMap, List.filterMap_map]
  refine List.filterMap_congr fun entry _ => ?_
  obtain ⟨argument, index⟩ := entry
  cases argument <;> rfl

theorem positionals_agree (rearranged : Argument.Rearranged arguments arguments') :
    PositionalsRelated (Actual.Agrees arguments arguments') (positionals arguments.zipIdx)
      (positionals arguments'.zipIdx) := by
  have same : List.Forall₂ (fun first second : Nat × Expr => first.2 = second.2)
      (positionals arguments.zipIdx) (positionals arguments'.zipIdx) := by
    have values := (map_snd_positionals arguments).trans
      (rearranged.byPosition.trans (map_snd_positionals arguments').symm)
    rwa [← List.forall₂_eq_eq_eq, List.forall₂_map_left_iff, List.forall₂_map_right_iff] at values
  obtain ⟨sameLength, sameValues⟩ := List.forall₂_iff_zip.mp same
  refine List.forall₂_iff_zip.mpr ⟨sameLength, fun {first second} inZip => ?_⟩
  obtain ⟨isFirst, isSecond⟩ := List.of_mem_zip inZip
  have stands := argument_of_mem_positionals isFirst
  have stands' := argument_of_mem_positionals isSecond
  rw [← sameValues inZip] at stands'
  rw [byPosition, byPosition, ← sameValues inZip]
  exact .intro stands stands'

/-! ## Bindings of rearranged arguments -/

theorem unknown?_of_perm (parameters : List Parameter) (perm : arguments.Perm arguments') :
    (arguments.findSome? (Argument.unknown? parameters)).isSome =
      (arguments'.findSome? (Argument.unknown? parameters)).isSome := by
  rw [Bool.eq_iff_iff, List.isSome_findSome?, List.isSome_findSome?, perm.any_eq]

/-- Of rearranged arguments both can be bound or neither, and the bindings are related if what
is given is. -/
theorem make_of_rearranged {ofActual : Actual → Actual → Prop}
    (rearranged : Argument.Rearranged arguments arguments')
    (given : ∀ seat, Option.Rel ofActual (given? parameters arguments.zipIdx seat)
      (given? parameters arguments'.zipIdx seat))
    (positional : PositionalsRelated ofActual (positionals arguments.zipIdx)
      (positionals arguments'.zipIdx)) :
    Option.Rel (Related Eq ofActual) (make parameters arguments).toOption
      (make parameters arguments').toOption := by
  have known := unknown?_of_perm parameters rearranged.perm
  have sorting := @Sorted.Represents.add parameters 0 {} arguments [] Sorted.represents_empty
  have sorting' := @Sorted.Represents.add parameters 0 {} arguments' [] Sorted.represents_empty
  cases unknown : arguments.findSome? (Argument.unknown? parameters) with
  | some name =>
      cases unknown' : arguments'.findSome? (Argument.unknown? parameters) with
      | none => simp [unknown, unknown'] at known
      | some name' =>
          rw [unknown] at sorting
          rw [unknown'] at sorting'
          rw [make, make, sorting, sorting']
          exact .none
  | none =>
      cases unknown' : arguments'.findSome? (Argument.unknown? parameters) with
      | some name' => simp [unknown, unknown'] at known
      | none =>
          rw [unknown] at sorting
          rw [unknown'] at sorting'
          obtain ⟨sorted, isSorted, represents⟩ := sorting
          obtain ⟨sorted', isSorted', represents'⟩ := sorting'
          rw [List.nil_append] at represents represents'
          refine make_related Parameter.Alike.of_eq
            (List.forall₂_same.mpr fun _ _ => rfl) isSorted isSorted' ⟨?_, ?_, ?_, ?_⟩
          · intro slot
            rw [represents.named, represents'.named]
            exact given (.single slot)
          · intro position
            rw [represents.grouped, represents'.grouped]
            exact given (.member position)
          · rw [represents.highest, represents'.highest, highestNamed_of_perm rearranged.perm]
          · rw [represents.positional, represents'.positional]
            exact positional

/-- A binding of arguments that are apart has the same argument everywhere after a
rearrangement. -/
theorem make_agrees (rearranged : Argument.Rearranged arguments arguments')
    (apart : Argument.Apart parameters arguments) {binding : Binding}
    (made : make parameters arguments = .ok binding) :
    ∃ binding', make parameters arguments' = .ok binding' ∧
      binding.Agrees arguments arguments' binding' := by
  have related := make_of_rearranged rearranged (given?_agrees rearranged.perm apart)
    (positionals_agree rearranged)
  rw [made] at related
  cases made' : make parameters arguments' with
  | error fault => rw [made'] at related; cases related
  | ok binding' =>
      rw [made'] at related
      cases related with
      | some agree =>
          exact ⟨binding', rfl, agree.parameters.imp fun _ _ => BoundParameter.agrees_of_related,
            agree.count⟩

end Binding

/-! ## What a call means -/

theorem BoundParameter.score?_eq_of_agrees {arguments arguments' : List Argument}
    {bound bound' : BoundParameter} (typeOf : Argument → Option DataType)
    (agree : bound.Agrees arguments arguments' bound') :
    bound.score? (arguments.map typeOf) = bound'.score? (arguments'.map typeOf) := by
  cases agree with
  | unbound parameter position => rfl
  | @bound parameter position argument index index' given given' =>
      cases argument <;>
        simp only [score?, Argument.actual, List.getElem?_map, given, given']

theorem Binding.score?_eq_of_agrees {arguments arguments' : List Argument}
    (typeOf : Argument → Option DataType) {binding binding' : Binding}
    (agree : binding.Agrees arguments arguments' binding') :
    binding.score? (arguments.map typeOf) = binding'.score? (arguments'.map typeOf) := by
  have entries : ∀ {first second : List BoundParameter},
      List.Forall₂ (BoundParameter.Agrees arguments arguments') first second →
      first.mapM (BoundParameter.score? (arguments.map typeOf)) =
        second.mapM (BoundParameter.score? (arguments'.map typeOf)) := by
    intro first second related
    induction related with
    | nil => rfl
    | cons isRelated _ ih =>
        rw [List.mapM_cons, List.mapM_cons, ih, BoundParameter.score?_eq_of_agrees typeOf isRelated]
  rw [Binding.score?, Binding.score?, entries agree.parameters]

/-- Two elements that a list is cut at are one, or stand one before the other. -/
theorem eq_or_mem_of_cuts {α : Type} {before after before' after' : List α} {one other : α}
    (same : before ++ one :: after = before' ++ other :: after') :
    one = other ∨ (one ∈ before' ∧ other ∈ after) ∨ (other ∈ before ∧ one ∈ after') := by
  rcases List.append_eq_append_iff.mp same with ⟨middle, isBefore', rest⟩ | ⟨middle, isBefore, rest⟩
  · cases middle with
    | nil => exact .inl (List.cons.inj rest).1
    | cons head middle =>
        obtain ⟨rfl, rfl⟩ := List.cons.inj rest
        refine .inr (.inl ⟨?_, by simp⟩)
        rw [isBefore']
        simp
  · cases middle with
    | nil => exact .inl (List.cons.inj rest).1.symm
    | cons head middle =>
        obtain ⟨rfl, rfl⟩ := List.cons.inj rest
        refine .inr (.inr ⟨?_, by simp⟩)
        rw [isBefore]
        simp

namespace CallResolution

variable {arguments arguments' : List Argument}
  (rearranged : Argument.Rearranged arguments arguments') (typeOf : Argument → Option DataType)

include rearranged

/-- A declaration takes rearranged arguments that are apart there, with the same score. -/
theorem takes_of_rearranged {signature : FunctionSignature} {binding : Binding}
    (apart : Argument.Apart signature.parameters arguments)
    (takes : Takes arguments (arguments.map typeOf) signature binding) :
    ∃ binding', Takes arguments' (arguments'.map typeOf) signature binding' ∧
      binding'.total (arguments'.map typeOf) = binding.total (arguments.map typeOf) ∧
      binding'.count = binding.count := by
  obtain ⟨made, fits⟩ := takes
  obtain ⟨binding', made', agrees⟩ := Binding.make_agrees rearranged apart made
  have scored := Binding.score?_eq_of_agrees typeOf agrees
  rw [Binding.score?_eq_some_iff.mpr ⟨fits, rfl⟩] at scored
  obtain ⟨fits', sameTotal⟩ := Binding.score?_eq_some_iff.mp scored.symm
  exact ⟨binding', ⟨made', fits'⟩, sameTotal, agrees.count.symm⟩

/-- The first of the best declarations stays the first of the best, unless one becomes it in
which the arguments are not apart: the scores of the two are the same in both orders. -/
theorem IsBest.eq_of_rearranged {overloads : List FunctionSignature}
    {resolution resolution' : CallResolution}
    (best : resolution.IsBest overloads arguments (arguments.map typeOf))
    (best' : resolution'.IsBest overloads arguments' (arguments'.map typeOf))
    (apart : Argument.Apart resolution.signature.parameters arguments)
    (apart' : Argument.Apart resolution'.signature.parameters arguments') :
    resolution'.signature = resolution.signature ∧ resolution'.count = resolution.count := by
  obtain ⟨before, after, binding, split, takes, counted, lower, noneHigher⟩ := best
  obtain ⟨before', after', binding', split', takes', counted', lower', noneHigher'⟩ := best'
  obtain ⟨moved, movedTakes, movedTotal, movedCount⟩ :=
    takes_of_rearranged rearranged typeOf apart takes
  obtain ⟨back, backTakes, backTotal, -⟩ :=
    takes_of_rearranged rearranged.symm typeOf apart' takes'
  rcases eq_or_mem_of_cuts (split.symm.trans split') with
    same | ⟨isBefore', isAfter⟩ | ⟨isBefore, isAfter'⟩
  · have made := movedTakes.1
    rw [same, takes'.1] at made
    refine ⟨same.symm, ?_⟩
    rw [counted, counted', Except.ok.inj made, movedCount]
  · have isLower := lower' _ isBefore' moved movedTakes
    have notHigher := noneHigher _ isAfter back backTakes
    omega
  · have isLower := lower _ isBefore back backTakes
    have notHigher := noneHigher' _ isAfter' moved movedTakes
    omega

/-- A call keeps a meaning if its arguments are rearranged, and it is the same unless the
arguments are not apart in the declaration that is chosen then. -/
theorem of?_of_rearranged {context : Context} {scope : Scope} {name : Ident}
    {resolution : CallResolution}
    (areTyped : ∀ argument ∈ arguments, (argument.type? context scope).isSome = true)
    (meaning : of? context scope name arguments = some resolution)
    (apart : Argument.Apart resolution.signature.parameters arguments) :
    ∃ resolution', of? context scope name arguments' = some resolution' ∧
      (Argument.Apart resolution'.signature.parameters arguments' → resolution' = resolution) := by
  obtain ⟨overloads, declared, -, isOverloaded, -⟩ := of?_eq_some meaning
  have areTyped' : ∀ argument ∈ arguments', (argument.type? context scope).isSome = true :=
    fun argument member => areTyped argument (rearranged.perm.mem_iff.mpr member)
  have best := isBest_of_of? declared areTyped meaning
  have isSome : (of? context scope name arguments').isSome = true := by
    obtain ⟨before, after, binding, split, takes, -⟩ := best
    obtain ⟨moved, movedTakes, -⟩ := takes_of_rearranged rearranged _ apart takes
    rw [isSome_of?_iff declared areTyped']
    refine ⟨resolution.signature, ?_, moved, movedTakes⟩
    rw [split]
    exact List.mem_append_right _ (List.mem_cons_self ..)
  obtain ⟨resolution', meaning'⟩ := Option.isSome_iff_exists.mp isSome
  refine ⟨resolution', meaning', fun apart' => ?_⟩
  obtain ⟨others, declared', -, isOverloaded', -⟩ := of?_eq_some meaning'
  obtain rfl : overloads = others := Option.some.inj (declared.symm.trans declared')
  obtain ⟨sameSignature, sameCount⟩ :=
    best.eq_of_rearranged rearranged _ (isBest_of_of? declared areTyped' meaning') apart apart'
  obtain ⟨signature, overloaded, count⟩ := resolution
  obtain ⟨signature', overloaded', count'⟩ := resolution'
  rw [CallResolution.mk.injEq]
  exact ⟨sameSignature, isOverloaded'.trans isOverloaded.symm, sameCount⟩

end CallResolution

end StructuredText
