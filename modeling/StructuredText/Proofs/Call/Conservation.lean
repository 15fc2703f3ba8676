import Mathlib.Data.List.Fold
import Mathlib.Data.List.MinMax
import Mathlib.Data.List.Nodup
import StructuredText.Proofs.Call.Distribution

/-!
# Which arguments a binding keeps

What the entries of a binding are bound to, taken together, is what the arguments of the
call give, each once.  The arguments that a later one supersedes, because it names the same
parameter or the same position of the extensible one, are the only ones that are lost.
-/

set_option autoImplicit false

namespace StructuredText

/-- The index of the argument that an actual comes from. -/
def Actual.index : Actual → Nat
  | .input index _ | .output index _ => index

@[simp] theorem Argument.index_actual (index : Nat) (argument : Argument) :
    (argument.actual index).index = index := by
  cases argument <;> rfl

namespace Binding

variable {parameters : List Parameter} {arguments : List Argument}
  {call : List (Argument × Nat)}

/-! ## Arguments that stand -/

/-- One of the arguments that follow names the seat that the argument names. -/
def isSuperseded (parameters : List Parameter) (argument : Argument) (later : List Argument) :
    Bool :=
  match argument.seat? parameters with
  | some seat => later.any fun other => other.seat? parameters == some seat
  | none => false

def standing (parameters : List Parameter) : List (Argument × Nat) → List (Argument × Nat)
  | [] => []
  | entry :: rest =>
      if isSuperseded parameters entry.1 (rest.map Prod.fst) then standing parameters rest
      else entry :: standing parameters rest

theorem standing_sublist (call : List (Argument × Nat)) :
    (standing parameters call).Sublist call := by
  induction call with
  | nil => exact .slnil
  | cons entry rest ih =>
      rw [standing]
      split
      · exact ih.cons entry
      · exact ih.cons_cons entry

theorem given?_cons (entry : Argument × Nat) (rest : List (Argument × Nat)) (seat : Seat) :
    given? parameters (entry :: rest) seat =
      (given? parameters rest seat).or
        (if entry.1.seat? parameters = some seat then some (entry.1.actual entry.2) else none) := by
  rw [given?, given?, List.reverse_cons, List.find?_append]
  cases found : rest.reverse.find? fun entry => entry.1.seat? parameters == some seat with
  | some last => rfl
  | none =>
      by_cases names : entry.1.seat? parameters = some seat
      · simp [names]
      · simp [beq_eq_false_iff_ne.mpr names, names]

theorem given?_isSome (call : List (Argument × Nat)) (seat : Seat) :
    (given? parameters call seat).isSome =
      (call.map Prod.fst).any fun argument => argument.seat? parameters == some seat := by
  rw [given?, Option.isSome_map, Bool.eq_iff_iff, List.find?_isSome]
  simp

/-- A function that gives something for one more key gives one more value along keys that
are distinct. -/
theorem filterMap_perm_of_update {Key Value : Type} [DecidableEq Key] {keys : List Key}
    {old new : Key → Option Value} {key : Key} {value : Value} (distinct : keys.Nodup)
    (isKey : key ∈ keys) (absent : old key = none) (present : new key = some value)
    (others : ∀ other, other ≠ key → new other = old other) :
    (keys.filterMap new).Perm (value :: keys.filterMap old) := by
  obtain ⟨before, after, rfl⟩ := List.append_of_mem isKey
  have apart := List.perm_middle.nodup_iff.mp distinct
  rw [List.nodup_cons, List.mem_append, not_or] at apart
  have same : ∀ part : List Key, key ∉ part → part.filterMap new = part.filterMap old :=
    fun part notIn => List.filterMap_congr fun other inPart =>
      others other fun isSame => notIn (isSame ▸ inPart)
  rw [List.filterMap_append, List.filterMap_append, List.filterMap_cons_some present,
    List.filterMap_cons_none absent, same before apart.1.1, same after apart.1.2]
  exact List.perm_middle

/-- Along seats that are distinct, what is given by name is what the arguments give that name
a seat and stand. -/
theorem filterMap_given?_perm {seats : List Seat} (distinct : seats.Nodup) :
    ∀ {call : List (Argument × Nat)},
      (∀ entry ∈ call, ∀ seat, entry.1.seat? parameters = some seat → seat ∈ seats) →
      (seats.filterMap (given? parameters call)).Perm
        (((standing parameters call).filter fun entry => (entry.1.seat? parameters).isSome).map
          fun entry => entry.1.actual entry.2) := by
  intro call
  induction call with
  | nil =>
      intro _
      have nothing : seats.filterMap (given? parameters []) = [] :=
        List.filterMap_eq_nil_iff.mpr fun _ _ => rfl
      rw [nothing]
      exact .nil
  | cons entry rest ih =>
      intro areSeats
      have further := ih fun other inRest => areSeats other (List.mem_cons_of_mem _ inRest)
      cases names : entry.1.seat? parameters with
      | none =>
          have same : given? parameters (entry :: rest) = given? parameters rest := by
            funext seat
            rw [given?_cons, names, if_neg nofun, Option.or_none]
          rw [same, standing, isSuperseded, names]
          simpa [names] using further
      | some seat =>
          have superseded : isSuperseded parameters entry.1 (rest.map Prod.fst) =
              (given? parameters rest seat).isSome := by
            rw [isSuperseded, names, given?_isSome]
          rw [standing, superseded]
          cases given : given? parameters rest seat with
          | some later =>
              have same : given? parameters (entry :: rest) = given? parameters rest := by
                funext other
                rw [given?_cons, names]
                by_cases isSame : seat = other
                · rw [← isSame, given, Option.some_or]
                · rw [if_neg (by simpa using isSame), Option.or_none]
              rw [same]
              exact further
          | none =>
              simp only [Option.isSome_none, Bool.false_eq_true, if_false, List.filter_cons, names,
                Option.isSome_some, if_true, List.map_cons]
              refine (filterMap_perm_of_update distinct
                (areSeats entry (List.mem_cons_self ..) seat names) given ?_ ?_).trans
                (further.cons _)
              · rw [given?_cons, names, given, if_pos rfl, Option.none_or]
              · intro other notSame
                rw [given?_cons, names, if_neg (by simpa using Ne.symm notSame), Option.or_none]

theorem map_standing_positionals :
    ∀ {call : List (Argument × Nat)},
      (∀ entry ∈ call, entry.1.unknown? parameters = none) →
      ((standing parameters call).filter fun entry => !(entry.1.seat? parameters).isSome).map
          (fun entry => entry.1.actual entry.2) = (positionals call).map byPosition := by
  intro call
  induction call with
  | nil =>
      intro _
      rfl
  | cons entry rest ih =>
      intro areKnown
      have further := ih fun other inRest => areKnown other (List.mem_cons_of_mem _ inRest)
      have isKnown := areKnown entry (List.mem_cons_self ..)
      obtain ⟨argument, index⟩ := entry
      rw [standing]
      cases names : argument.seat? parameters with
      | some seat =>
          have notPositional : positionals ((argument, index) :: rest) = positionals rest := by
            cases argument with
            | positional value => cases names
            | named name value | output isNegated source target => rfl
          rw [notPositional, ← further]
          split
          · rfl
          · rw [List.filter_cons_of_neg (by simp [names])]
      | none =>
          have notNamed : argument.name? = none := by
            rw [Argument.unknown?, names] at isKnown
            exact isKnown
          cases argument with
          | positional value =>
              rw [isSuperseded, names, if_neg (by simp), List.filter_cons_of_pos (by simp [names]),
                List.map_cons, further]
              rfl
          | named name value | output isNegated source target => cases notNamed

/-- What the arguments give that stand: those by name and those by position. -/
theorem standing_perm (areKnown : ∀ entry ∈ call, entry.1.unknown? parameters = none) :
    ((standing parameters call).map fun entry => entry.1.actual entry.2).Perm
      ((positionals call).map byPosition ++
        ((standing parameters call).filter fun entry => (entry.1.seat? parameters).isSome).map
          fun entry => entry.1.actual entry.2) := by
  have parts := (List.filter_append_perm (fun entry : Argument × Nat =>
    (entry.1.seat? parameters).isSome) (standing parameters call)).map
      fun entry => entry.1.actual entry.2
  rw [List.map_append, map_standing_positionals areKnown] at parts
  exact parts.symm.trans List.perm_append_comm

/-! ## What the entries are bound to -/

def named? (arguments : List Argument) (bound : BoundParameter) : Option Actual :=
  match positional? arguments bound with
  | some _ => none
  | none => bound.actual

theorem actual_of_positional? {bound : BoundParameter} {entry : Nat × Expr}
    (byPosition : positional? arguments bound = some entry) :
    bound.actual = some (Binding.byPosition entry) := by
  unfold positional? at byPosition
  split at byPosition
  · next index value isActual =>
      split at byPosition
      · cases byPosition
        exact isActual
      · cases byPosition
  · cases byPosition

theorem named?_of_positional? {bound : BoundParameter} {entry : Nat × Expr}
    (byPosition : positional? arguments bound = some entry) : named? arguments bound = none := by
  rw [named?, byPosition]

theorem named?_of_given (parameters : List Parameter) (seat : Seat) {bound : BoundParameter}
    (given : bound.actual = given? parameters arguments.zipIdx seat) :
    named? arguments bound = given? parameters arguments.zipIdx seat := by
  rw [named?, positional?_of_given parameters seat given, given]

theorem filterMap_actual_perm (arguments : List Argument) (entries : List BoundParameter) :
    (entries.filterMap BoundParameter.actual).Perm
      ((entries.filterMap (positional? arguments)).map byPosition ++
        entries.filterMap (named? arguments)) := by
  induction entries with
  | nil => exact .nil
  | cons bound rest ih =>
      cases found : positional? arguments bound with
      | some entry =>
          rw [List.filterMap_cons_some (actual_of_positional? found),
            List.filterMap_cons_some found, List.filterMap_cons_none (named?_of_positional? found)]
          exact ih.cons _
      | none =>
          have isNamed : named? arguments bound = bound.actual := by rw [named?, found]
          rw [List.filterMap_cons_none found]
          cases isActual : bound.actual with
          | none =>
              rw [List.filterMap_cons_none isActual,
                List.filterMap_cons_none (isNamed.trans isActual)]
              exact ih
          | some actual =>
              rw [List.filterMap_cons_some isActual,
                List.filterMap_cons_some (isNamed.trans isActual)]
              exact (ih.cons _).trans List.perm_middle.symm

theorem named?_single {slots : List Nat} {positional : List (Nat × Expr)}
    (stand : ∀ entry ∈ positional, arguments[entry.1]? = some (.positional entry.2))
    (declared : Parameter × Nat) :
    named? arguments (single parameters arguments.zipIdx slots positional declared) =
      given? parameters arguments.zipIdx (.single declared.2) := by
  cases given : given? parameters arguments.zipIdx (.single declared.2) with
  | some actual =>
      rw [named?_of_given parameters (.single declared.2) (by rw [single, given, Option.some_or]),
        given]
  | none =>
      cases taken : (slots.zip positional).lookup declared.2 with
      | none => simp [named?, positional?, single, given, taken]
      | some entry =>
          obtain ⟨before, after, split, -⟩ := List.lookup_eq_some_iff.mp taken
          have inZip : (declared.2, entry) ∈ slots.zip positional := by simp [split]
          apply named?_of_positional?
          exact positional?_byPosition (stand entry (List.of_mem_zip inZip).2)
            (by simp [single, given, taken])

theorem filterMap_named?_members {left : List (Nat × Expr)} (parameter : Parameter)
    (stand : ∀ entry ∈ left, arguments[entry.1]? = some (.positional entry.2)) :
    (members parameters arguments.zipIdx left parameter).filterMap (named? arguments) =
      ((List.range (highestNamed parameters arguments.zipIdx)).map fun offset =>
        Seat.member (offset + 1)).filterMap (given? parameters arguments.zipIdx) := by
  rw [members, List.range_add, List.map_append, List.filterMap_append]
  have behind : ∀ entry ∈ ((List.range left.length).map
      (highestNamed parameters arguments.zipIdx + ·)).map
        (member parameters arguments.zipIdx left parameter), named? arguments entry = none := by
    intro entry inGroup
    obtain ⟨offset, isLater, rfl⟩ := List.mem_map.mp inGroup
    obtain ⟨place, inside, rfl⟩ := List.mem_map.mp isLater
    rw [List.mem_range] at inside
    apply named?_of_positional?
    exact positional?_byPosition (stand _ (List.getElem_mem inside)) (by simp [member, inside])
  rw [List.filterMap_eq_nil_iff.mpr behind, List.append_nil, List.filterMap_map,
    List.filterMap_map]
  refine List.filterMap_congr fun offset inside => ?_
  exact named?_of_given parameters (.member (offset + 1)) (if_pos (List.mem_range.mp inside))

/-! ## Seats -/

/-- The seats that the entries of a binding stand for, the positions of the extensible
parameter up to the highest one that is given by name. -/
def seats (parameters : List Parameter) (call : List (Argument × Nat)) : List Seat :=
  parameters.zipIdx.flatMap fun declared =>
    if declared.1.isExtensible then
      (List.range (highestNamed parameters call)).map fun offset => .member (offset + 1)
    else [.single declared.2]

theorem filterMap_named?_distribution (parameters : List Parameter) (arguments : List Argument) :
    (distribution parameters arguments).parameters.filterMap (named? arguments) =
      (seats parameters arguments.zipIdx).filterMap (given? parameters arguments.zipIdx) := by
  have stand : ∀ entry ∈ positionals arguments.zipIdx,
      arguments[entry.1]? = some (.positional entry.2) := fun _ => argument_of_mem_positionals
  rw [distribution, seats, List.filterMap_flatMap, List.filterMap_flatMap]
  refine List.flatMap_congr fun declared _ => ?_
  split
  · exact filterMap_named?_members declared.1 fun entry inside =>
      stand entry (List.mem_of_mem_drop inside)
  · rw [List.filterMap_cons, named?_single stand declared, List.filterMap_cons]
    rfl

theorem seats_nodup (atMostOne : (parameters.filter Parameter.isExtensible).length ≤ 1) :
    (seats parameters call).Nodup := by
  -- Of two parameters at different places at most one is extensible.
  have apart : parameters.zipIdx.Pairwise fun first second =>
      first.1.isExtensible = true → second.1.isExtensible = true → False := by
    have single : (parameters.filter Parameter.isExtensible).Pairwise fun _ _ => False := by
      cases extensible : parameters.filter Parameter.isExtensible with
      | nil => exact .nil
      | cons first others =>
          rw [extensible, List.length_cons] at atMostOne
          have noOthers : others = [] := List.length_eq_zero_iff.mp (by omega)
          rw [noOthers]
          exact List.pairwise_singleton _ first
    rw [List.pairwise_filter] at single
    have names : (parameters.zipIdx.map Prod.fst).Pairwise fun first second =>
        first.isExtensible = true → second.isExtensible = true → False := by
      rw [List.zipIdx_map_fst]
      exact single
    exact List.pairwise_map.mp names
  have ordered : parameters.zipIdx.Pairwise fun first second => first.2 < second.2 := by
    have slots : (parameters.zipIdx.map Prod.snd).Pairwise (· < ·) := by
      rw [List.zipIdx_map_snd]
      exact List.pairwise_lt_range'
    exact List.pairwise_map.mp slots
  refine List.nodup_flatMap.mpr ⟨fun declared _ => ?_, (apart.and ordered).imp ?_⟩
  · split
    · exact List.Nodup.map (fun first second same => by simpa using same) List.nodup_range
    · exact List.nodup_singleton _
  · rintro first second ⟨notBoth, before⟩ seat inFirst inSecond
    dsimp only at inFirst inSecond
    split at inFirst
    · next isFirst =>
        split at inSecond
        · next isSecond => exact notBoth isFirst isSecond
        · obtain ⟨offset, -, rfl⟩ := List.mem_map.mp inFirst
          simp at inSecond
    · split at inSecond
      · obtain ⟨offset, -, rfl⟩ := List.mem_map.mp inSecond
        simp at inFirst
      · rw [List.mem_singleton] at inFirst inSecond
        rw [inFirst, Seat.single.injEq] at inSecond
        omega

theorem isExtensible_of_position? {parameter : Parameter} {name : Ident} {position : Nat}
    (found : parameter.position? name = some position) :
    parameter.isExtensible = true ∧ 0 < position := by
  unfold Parameter.position? at found
  dsimp only at found
  split at found
  · next isStem =>
      rw [Bool.and_eq_true] at isStem
      split at found
      · obtain ⟨-, inRange⟩ := Option.filter_eq_some_iff.mp found
        exact ⟨isStem.1, (of_decide_eq_true inRange).1⟩
      · cases found
  · cases found

theorem le_highestNamed {entry : Argument × Nat} {position : Nat} (inCall : entry ∈ call)
    (names : entry.1.seat? parameters = some (.member position)) :
    position ≤ highestNamed parameters call := by
  have isNamed : position ∈ namedPositions parameters call :=
    List.mem_filterMap.mpr ⟨entry, inCall, by rw [names]⟩
  rw [highestNamed, List.foldl_eq_foldr]
  exact List.le_max_of_le' 0 isNamed (Nat.le_refl position)

theorem mem_seats
    (areInputs : ∀ parameter ∈ parameters, parameter.isExtensible = true →
      parameter.direction = .input)
    {entry : Argument × Nat} {seat : Seat} (inCall : entry ∈ call)
    (names : entry.1.seat? parameters = some seat) : seat ∈ seats parameters call := by
  have ofSingle : ∀ {slot : Nat} {parameter : Parameter}, parameters[slot]? = some parameter →
      parameter.isExtensible = false → Seat.single slot ∈ seats parameters call := by
    intro slot parameter found isSingle
    refine List.mem_flatMap.mpr ⟨(parameter, slot), List.mem_zipIdx_iff_getElem?.mpr found, ?_⟩
    rw [if_neg (by simp [isSingle])]
    exact List.mem_singleton_self _
  obtain ⟨argument, index⟩ := entry
  cases argument with
  | positional value => cases names
  | named name value =>
      unfold Argument.seat? at names
      dsimp only at names
      split at names
      · next slot found =>
          cases names
          obtain ⟨inside, takes, -⟩ := List.findIdx?_eq_some_iff_getElem.mp found
          simp only [Bool.and_eq_true, Bool.not_eq_true'] at takes
          exact ofSingle (List.getElem?_eq_getElem inside) takes.1.2
      · next notOwn =>
          obtain ⟨position, found, rfl⟩ := Option.map_eq_some_iff.mp names
          have isMember : (Argument.named name value).seat? parameters =
              some (.member position) := by
            rw [Argument.seat?, notOwn, found, Option.map_some]
          obtain ⟨parameter, isParameter, isPosition⟩ := List.exists_of_findSome?_eq_some found
          obtain ⟨isExtensible, positive⟩ := isExtensible_of_position? isPosition
          have inGroup := le_highestNamed inCall isMember
          obtain ⟨slot, inside, isSlot⟩ := List.mem_iff_getElem.mp isParameter
          refine List.mem_flatMap.mpr ⟨(parameter, slot),
            List.mem_zipIdx_iff_getElem?.mpr (List.getElem?_eq_some_iff.mpr ⟨inside, isSlot⟩), ?_⟩
          rw [if_pos isExtensible]
          exact List.mem_map.mpr ⟨position - 1, List.mem_range.mpr (by omega), by congr 1; omega⟩
  | output isNegated source target =>
      obtain ⟨slot, found, rfl⟩ := Option.map_eq_some_iff.mp names
      obtain ⟨parameter, isParameter, isOutput, -⟩ := parameter_of_outputIndex? found
      refine ofSingle isParameter (Bool.eq_false_iff.mpr fun isExtensible => ?_)
      have isInput := areInputs parameter (List.mem_of_getElem? isParameter) isExtensible
      simp [Parameter.isOutput, isInput] at isOutput

/-! ## Bindings -/

/-- The entries that are bound to the argument at an index. -/
def entriesOf (binding : Binding) (index : Nat) : List BoundParameter :=
  binding.parameters.filter fun bound => bound.actual.any fun actual => actual.index == index

theorem map_actual_entriesOf (binding : Binding) (index : Nat) :
    (binding.entriesOf index).map BoundParameter.actual =
      ((binding.parameters.filterMap BoundParameter.actual).filter
        fun actual => actual.index == index).map some := by
  rw [entriesOf]
  induction binding.parameters with
  | nil => rfl
  | cons bound rest ih =>
      cases isActual : bound.actual with
      | none => simp [isActual, ih]
      | some actual =>
          cases same : actual.index == index with
          | true => simp [isActual, same, ih]
          | false => simp [isActual, same, ih]

theorem filter_standing_index :
    ∀ {arguments : List Argument} {start index : Nat} {argument : Argument},
      arguments[index]? = some argument →
      ((standing parameters (arguments.zipIdx start)).map fun entry =>
          entry.1.actual entry.2).filter (fun actual => actual.index == start + index) =
        if isSuperseded parameters argument (arguments.drop (index + 1)) then []
        else [argument.actual (start + index)] := by
  -- Those behind have higher indices.
  have later : ∀ {rest : List Argument} {start other : Nat}, other < start →
      ((standing parameters (rest.zipIdx start)).map fun entry =>
        entry.1.actual entry.2).filter (fun actual => actual.index == other) = [] := by
    intro rest
    induction rest with
    | nil =>
        intro start other _
        rfl
    | cons argument rest ih =>
        intro start other below
        rw [List.zipIdx_cons, standing]
        split
        · exact ih (Nat.lt_succ_of_lt below)
        · rw [List.map_cons, List.filter_cons_of_neg, ih (Nat.lt_succ_of_lt below)]
          simp only [Argument.index_actual, beq_iff_eq]
          omega
  intro arguments
  induction arguments with
  | nil =>
      intro start index argument found
      cases found
  | cons first rest ih =>
      intro start index argument found
      rw [List.zipIdx_cons, standing, List.zipIdx_map_fst]
      cases index with
      | zero =>
          cases found
          rw [Nat.add_zero, Nat.zero_add, List.drop_one, List.tail_cons]
          split
          · exact later (Nat.lt_succ_self start)
          · rw [List.map_cons, List.filter_cons_of_pos (by simp),
              later (Nat.lt_succ_self start)]
      | succ index =>
          have sameIndex : start + (index + 1) = start + 1 + index := by omega
          have further := @ih (start + 1) index argument found
          rw [sameIndex, List.drop_succ_cons, ← further]
          split
          · rfl
          · rw [List.map_cons, List.filter_cons_of_neg]
            simp only [Argument.index_actual, beq_iff_eq]
            omega

/-- What the entries of a binding are bound to is what the arguments give that stand, each
once. -/
theorem actuals_perm {binding : Binding}
    (atMostOne : (parameters.filter Parameter.isExtensible).length ≤ 1)
    (areInputs : ∀ parameter ∈ parameters, parameter.isExtensible = true →
      parameter.direction = .input)
    (made : make parameters arguments = .ok binding) :
    (binding.parameters.filterMap BoundParameter.actual).Perm
      ((standing parameters arguments.zipIdx).map fun entry => entry.1.actual entry.2) := by
  have result := make_eq arguments atMostOne
  rw [made] at result
  split at result
  · cases result
  · cases result
  · next noneUnknown noSurplus =>
      cases result
      rw [List.findSome?_eq_none_iff] at noneUnknown
      have areKnown : ∀ entry ∈ arguments.zipIdx, entry.1.unknown? parameters = none :=
        fun entry inCall => noneUnknown entry.1 (List.fst_mem_of_mem_zipIdx inCall)
      have byName := @filterMap_given?_perm parameters _ (seats_nodup atMostOne) arguments.zipIdx
        fun entry inCall seat => mem_seats areInputs inCall
      rw [← filterMap_named?_distribution] at byName
      refine (filterMap_actual_perm arguments _).trans ?_
      rw [filterMap_distribution atMostOne noSurplus]
      exact (byName.append_left _).trans (standing_perm areKnown).symm

/-- A binding has every argument of the call in one entry, but for the arguments that a later
one supersedes, and these it has in none.  It has nothing else: what its entries are bound to
is what the arguments that stand give, and if no two arguments name the same parameter or the
same position these are all. -/
theorem make_conserves {binding : Binding}
    (atMostOne : (parameters.filter Parameter.isExtensible).length ≤ 1)
    (areInputs : ∀ parameter ∈ parameters, parameter.isExtensible = true →
      parameter.direction = .input)
    (made : make parameters arguments = .ok binding) :
    (∀ index argument, arguments[index]? = some argument →
      (binding.entriesOf index).map BoundParameter.actual =
        if isSuperseded parameters argument (arguments.drop (index + 1)) then []
        else [some (argument.actual index)]) ∧
    ∀ bound ∈ binding.parameters, ∀ actual, bound.actual = some actual →
      ∃ argument, arguments[actual.index]? = some argument ∧
        actual = argument.actual actual.index := by
  have conserved := actuals_perm atMostOne areInputs made
  constructor
  · intro index argument found
    have ofIndex := conserved.filter fun actual => actual.index == index
    have standing := @filter_standing_index parameters arguments 0 index argument found
    rw [Nat.zero_add] at standing
    rw [standing] at ofIndex
    rw [map_actual_entriesOf]
    split at ofIndex
    · next superseded => rw [ofIndex.eq_nil, if_pos superseded, List.map_nil]
    · next stands =>
        rw [List.perm_singleton.mp ofIndex, if_neg stands, List.map_singleton]
  · intro bound inside actual isActual
    have isBound : actual ∈ binding.parameters.filterMap BoundParameter.actual :=
      List.mem_filterMap.mpr ⟨bound, inside, isActual⟩
    obtain ⟨⟨argument, index⟩, stands, rfl⟩ := List.mem_map.mp (conserved.subset isBound)
    have inCall := (standing_sublist _).subset stands
    refine ⟨argument, ?_, ?_⟩
    · rw [Argument.index_actual]
      exact List.mem_zipIdx_iff_getElem?.mp inCall
    · rw [Argument.index_actual]

/-- A call that picks one of several values, with the second of them given twice: its position
is spelled in two ways. -/
def repicking : List Argument :=
  [.named { name := "IN2" } (.const (.boolean true)), .positional (.const (.boolean false)),
    .named { name := "IN02" } (.enumerated { value := { name := "RED" } })]

theorem make_conserves_repicking :
    (pickingParameters.filter Parameter.isExtensible).length ≤ 1 ∧
    (∀ parameter ∈ pickingParameters, parameter.isExtensible = true →
      parameter.direction = .input) ∧
    ∃ binding, make pickingParameters repicking = .ok binding ∧
      (binding.entriesOf 0).map BoundParameter.actual = [] ∧
      (binding.entriesOf 1).map BoundParameter.actual =
        [some (.input 1 (.const (.boolean false)))] ∧
      (binding.entriesOf 2).map BoundParameter.actual =
        [some (.input 2 (.enumerated { value := { name := "RED" } }))] := by
  have atMostOne : (pickingParameters.filter Parameter.isExtensible).length ≤ 1 := by decide
  have areInputs : ∀ parameter ∈ pickingParameters, parameter.isExtensible = true →
      parameter.direction = .input := by decide
  have runs : (make pickingParameters repicking).toOption.isSome = true := by decide +kernel
  obtain ⟨binding, made⟩ := Option.isSome_iff_exists.mp runs
  have made := eq_ok_of_toOption made
  obtain ⟨conserves, -⟩ := make_conserves atMostOne areInputs made
  have first := conserves 0 _ rfl
  have second := conserves 1 _ rfl
  have third := conserves 2 _ rfl
  have isLost : isSuperseded pickingParameters (.named { name := "IN2" } (.const (.boolean true)))
      (repicking.drop 1) = true := by decide +kernel
  have stands : isSuperseded pickingParameters
      (.named { name := "IN02" } (.enumerated { value := { name := "RED" } }))
      (repicking.drop 3) = false := by decide +kernel
  rw [isLost, if_pos rfl] at first
  rw [stands] at third
  exact ⟨atMostOne, areInputs, binding, made, first, second, third⟩

/-- A parameter that passes both ways, and a call that gives a value and an output for it. -/
def limiting : List Parameter := [{ Parameter.input "Limit" .int with direction := .inOut }]

def givenTwice : List Argument :=
  [.named { name := "Limit" } (.const (.boolean true)),
    .output false { name := "Limit" } (.named { name := "top" })]

theorem argument_lost :
    (limiting.filter Parameter.isExtensible).length ≤ 1 ∧
    ∃ binding, make limiting givenTwice = .ok binding ∧
      ∃ index argument, givenTwice[index]? = some argument ∧ binding.entriesOf index = [] := by
  have runs : ((make limiting givenTwice).toOption.map fun binding =>
      (binding.entriesOf 0).isEmpty) = some true := by decide +kernel
  obtain ⟨binding, made, isEmpty⟩ := Option.map_eq_some_iff.mp runs
  exact ⟨by decide, binding, eq_ok_of_toOption made, 0, _, rfl, List.isEmpty_iff.mp isEmpty⟩

end Binding

end StructuredText
