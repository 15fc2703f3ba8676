import StructuredText.Proofs.Analysis.Resolved
import StructuredText.Proofs.Call.Choice
import StructuredText.Proofs.Call.Conservation
import StructuredText.Proofs.Call.Family

/-!
# Calls of overloaded functions with numbers that have no type

A number without a type counts for one declaration only: a whole number for `LINT`, any other
for `LREAL`.  So it takes the widest type of its category where that is among the types of
the operands.  Where it is not, all declarations that take the call have the same score and
the first of them is chosen.
-/

set_option autoImplicit false

namespace StructuredText

/-! ## Numbers without a type and elementary types -/

namespace Elementary

def takesInteger (type : Elementary) : Bool :=
  type.isInteger || type.isReal || type.isBitString

theorem accepts_intLiteral (type : Elementary) :
    (DataType.elementary type).accepts .intLiteral = type.takesInteger := by
  cases type <;> rfl

theorem accepts_realLiteral (type : Elementary) :
    (DataType.elementary type).accepts .realLiteral = type.isReal := by
  cases type <;> rfl

theorem matchScore?_intLiteral {type : Elementary} (takes : type.takesInteger = true) :
    matchScore? (.elementary type) .intLiteral = some (if type = .lint then 1 else 0) := by
  cases type <;> first | rfl | cases takes

theorem matchScore?_realLiteral {type : Elementary} (takes : type.isReal = true) :
    matchScore? (.elementary type) .realLiteral = some (if type = .lreal then 1 else 0) := by
  cases type <;> first | rfl | cases takes

/-- No number without a type receives what comes out of a parameter. -/
theorem literal_not_accepts (type : Elementary) {target : DataType}
    (isLiteral : target.isLiteral = true) : target.accepts (.elementary type) = false := by
  cases target with
  | intLiteral | realLiteral => rfl
  | _ => cases isLiteral

end Elementary

/-! ## Operands -/

variable {types : List (Option DataType)}

namespace BoundParameter

def isGiven (types : List (Option DataType)) (test : DataType → Bool)
    (bound : BoundParameter) : Bool :=
  bound.actual.any fun actual => types[actual.index]?.join.any test

def withType (type : Elementary) (bound : BoundParameter) : BoundParameter :=
  { bound with parameter := bound.parameter.withType type }

def isOperand (types : List (Option DataType)) (test : DataType → Bool)
    (bound : BoundParameter) : Bool :=
  bound.parameter.isOperand && bound.isGiven types test

/-! An entry that has an input of a known type. -/

section Input

variable {parameter : Parameter} {position : Option Nat} {index : Nat} {value : Expr}
  {type : DataType} (typed : types[index]? = some (some type))

include typed

theorem isOperand_input (operand : parameter.isOperand = true) (test : DataType → Bool) :
    BoundParameter.isOperand types test
      { parameter, position, actual := some (.input index value) } = test type := by
  simp [BoundParameter.isOperand, isGiven, Actual.index, typed, operand]

theorem fits_input :
    Fits types { parameter, position, actual := some (.input index value) } ↔
      parameter.type.accepts type = true := by
  simp [Fits, typed]

theorem points_input :
    points types { parameter, position, actual := some (.input index value) } =
      (matchScore? parameter.type type).getD 0 := by
  simp [points, score?, typed]

end Input

/-- What an entry has if its parameter is no operand or the argument is a number without a
type. -/
inductive IsPlain (types : List (Option DataType)) : BoundParameter → Prop where
  | fixed {bound : BoundParameter} (isFixed : bound.parameter.isOperand = false)
      (fits : bound.Fits types) : IsPlain types bound
  | unbound {parameter : Parameter} {position : Option Nat}
      (operand : parameter.isOperand = true) : IsPlain types { parameter, position }
  | integer {parameter : Parameter} {position : Option Nat} {index : Nat} {value : Expr}
      (operand : parameter.isOperand = true)
      (typed : types[index]? = some (some .intLiteral)) :
      IsPlain types { parameter, position, actual := some (.input index value) }
  | real {parameter : Parameter} {position : Option Nat} {index : Nat} {value : Expr}
      (operand : parameter.isOperand = true)
      (typed : types[index]? = some (some .realLiteral)) :
      IsPlain types { parameter, position, actual := some (.input index value) }

theorem isPlain_of_literal {bound : BoundParameter} (fits : bound.Fits types)
    (literal : bound.parameter.isOperand = true →
      (∃ type, bound.parameter.type = .elementary type) ∧
      ∀ actual, bound.actual = some actual →
        ∃ type, types[actual.index]? = some (some type) ∧ type.isLiteral = true) :
    bound.IsPlain types := by
  cases operand : bound.parameter.isOperand with
  | false => exact .fixed operand fits
  | true =>
      obtain ⟨⟨elementary, isElementary⟩, areLiteral⟩ := literal operand
      obtain ⟨parameter, position, actual⟩ := bound
      cases actual with
      | none => exact .unbound operand
      | some actual =>
          obtain ⟨type, typed, isLiteral⟩ := areLiteral actual rfl
          cases actual with
          | input index value =>
              cases type with
              | intLiteral => exact .integer operand typed
              | realLiteral => exact .real operand typed
              | _ => cases isLiteral
          | output index target =>
              obtain ⟨other, otherTyped, accepts⟩ := fits
              rw [Actual.index] at typed
              rw [typed] at otherTyped
              cases otherTyped
              rw [show parameter.type = .elementary elementary from isElementary,
                elementary.literal_not_accepts isLiteral] at accepts
              cases accepts

variable {bound : BoundParameter} {type : Elementary}

/-- An operand counts for the declaration for a type as its number does. -/
theorem fits_withType (isPlain : bound.IsPlain types) :
    (bound.withType type).Fits types ↔
      (bound.isOperand types DataType.isIntLiteral = true → type.takesInteger = true) ∧
      (bound.isOperand types DataType.isRealLiteral = true → type.isReal = true) := by
  cases isPlain with
  | fixed isFixed fits =>
      rw [withType, Parameter.withType_of_fixed isFixed]
      simpa [isOperand, isFixed] using fits
  | unbound operand => simp [withType, Fits, isOperand, isGiven]
  | integer operand typed =>
      rw [withType, Parameter.withType_of_operand operand, fits_input typed,
        isOperand_input typed operand, isOperand_input typed operand,
        Elementary.accepts_intLiteral]
      simp [DataType.isIntLiteral, DataType.isRealLiteral]
  | real operand typed =>
      rw [withType, Parameter.withType_of_operand operand, fits_input typed,
        isOperand_input typed operand, isOperand_input typed operand,
        Elementary.accepts_realLiteral]
      simp [DataType.isIntLiteral, DataType.isRealLiteral]

/-- The points of an entry that do not depend on the type that operands have. -/
def fixedPoints (types : List (Option DataType)) (bound : BoundParameter) : Nat :=
  if bound.parameter.isOperand then 0 else bound.points types

theorem points_withType (isPlain : bound.IsPlain types)
    (fits : (bound.withType type).Fits types) :
    (bound.withType type).points types = bound.fixedPoints types +
      (if bound.isOperand types DataType.isIntLiteral then if type = .lint then 1 else 0 else 0) +
      (if bound.isOperand types DataType.isRealLiteral then
        if type = .lreal then 1 else 0 else 0) := by
  obtain ⟨takesInteger, isReal⟩ := (fits_withType isPlain).mp fits
  cases isPlain with
  | fixed isFixed fits =>
      rw [withType, Parameter.withType_of_fixed isFixed]
      simp [fixedPoints, isOperand, isFixed]
  | unbound operand => simp [withType, points, score?, fixedPoints, operand, isOperand, isGiven]
  | integer operand typed =>
      rw [isOperand_input typed operand] at takesInteger
      rw [withType, Parameter.withType_of_operand operand, points_input typed,
        isOperand_input typed operand, isOperand_input typed operand,
        Elementary.matchScore?_intLiteral (takesInteger rfl)]
      simp [fixedPoints, operand, DataType.isIntLiteral, DataType.isRealLiteral]
  | real operand typed =>
      rw [isOperand_input typed operand] at isReal
      rw [withType, Parameter.withType_of_operand operand, points_input typed,
        isOperand_input typed operand, isOperand_input typed operand,
        Elementary.matchScore?_realLiteral (isReal rfl)]
      simp [fixedPoints, operand, DataType.isIntLiteral, DataType.isRealLiteral]

end BoundParameter

namespace Binding

def operands (types : List (Option DataType)) (test : DataType → Bool) (binding : Binding) : Nat :=
  binding.parameters.countP (BoundParameter.isOperand types test)

def fixedTotal (types : List (Option DataType)) (binding : Binding) : Nat :=
  (binding.parameters.map (BoundParameter.fixedPoints types)).sum

def withType (type : Elementary) (binding : Binding) : Binding :=
  binding.mapParameters (Parameter.withType type)

variable {binding : Binding}

/-- The declaration for a type takes a call with numbers that have no type if these may be
stored in the type. -/
theorem fits_withType (arePlain : ∀ bound ∈ binding.parameters, bound.IsPlain types)
    (type : Elementary) :
    (binding.withType type).Fits types ↔
      (0 < binding.operands types DataType.isIntLiteral → type.takesInteger = true) ∧
      (0 < binding.operands types DataType.isRealLiteral → type.isReal = true) := by
  have entries : (binding.withType type).Fits types ↔
      ∀ bound ∈ binding.parameters, (bound.withType type).Fits types := List.forall_mem_map
  rw [entries, operands, operands, List.countP_pos_iff, List.countP_pos_iff]
  constructor
  · intro fits
    constructor
    · rintro ⟨bound, member, isOperand⟩
      exact ((BoundParameter.fits_withType (arePlain bound member)).mp (fits bound member)).1
        isOperand
    · rintro ⟨bound, member, isOperand⟩
      exact ((BoundParameter.fits_withType (arePlain bound member)).mp (fits bound member)).2
        isOperand
  · rintro ⟨integers, reals⟩ bound member
    rw [BoundParameter.fits_withType (arePlain bound member)]
    exact ⟨fun isOperand => integers ⟨bound, member, isOperand⟩,
      fun isOperand => reals ⟨bound, member, isOperand⟩⟩

/-- Its score: every whole number counts one for `LINT`, and every other for `LREAL`. -/
theorem total_withType (arePlain : ∀ bound ∈ binding.parameters, bound.IsPlain types)
    {type : Elementary} (fits : (binding.withType type).Fits types) :
    (binding.withType type).total types = binding.fixedTotal types +
      (if type = .lint then binding.operands types DataType.isIntLiteral else 0) +
      (if type = .lreal then binding.operands types DataType.isRealLiteral else 0) := by
  have entries : ∀ bound ∈ binding.parameters, (bound.withType type).Fits types :=
    List.forall_mem_map.mp fits
  rw [total, withType, mapParameters, List.map_map, fixedTotal, operands, operands]
  generalize binding.parameters = bounds at arePlain entries
  induction bounds with
  | nil => simp
  | cons bound bounds ih =>
      have first := BoundParameter.points_withType (arePlain bound (List.mem_cons_self ..))
        (entries bound (List.mem_cons_self ..))
      have rest := ih (fun other member => arePlain other (List.mem_cons_of_mem _ member))
        fun other member => entries other (List.mem_cons_of_mem _ member)
      rw [List.map_cons, List.sum_cons, List.map_cons, List.sum_cons, rest, List.countP_cons,
        List.countP_cons]
      change (bound.withType type).points types + _ = _
      rw [first]
      split_ifs <;> omega

end Binding

/-! ## The type that is chosen -/

namespace Elementary

def TakesNumbers (integers reals : Nat) (type : Elementary) : Prop :=
  (0 < integers → type.takesInteger = true) ∧ (0 < reals → type.isReal = true)

def numberScore (integers reals : Nat) (type : Elementary) : Nat :=
  (if type = .lint then integers else 0) + if type = .lreal then reals else 0

structure IsBestFor (integers reals : Nat) (types : List Elementary) (type : Elementary) :
    Prop where
  takes : type.TakesNumbers integers reals
  split : ∃ before after, types = before ++ type :: after ∧
    (∀ other ∈ before, other.TakesNumbers integers reals →
      other.numberScore integers reals < type.numberScore integers reals) ∧
    ∀ other ∈ after, other.TakesNumbers integers reals →
      other.numberScore integers reals ≤ type.numberScore integers reals

variable {integers reals : Nat} {types : List Elementary} {type : Elementary}

theorem IsBestFor.mem (isBest : type.IsBestFor integers reals types) : type ∈ types := by
  obtain ⟨before, after, rfl, -⟩ := isBest.split
  simp

theorem IsBestFor.score_le (isBest : type.IsBestFor integers reals types) {other : Elementary}
    (member : other ∈ types) (takes : other.TakesNumbers integers reals) :
    other.numberScore integers reals ≤ type.numberScore integers reals := by
  obtain ⟨before, after, rfl, lower, noneHigher⟩ := isBest.split
  rcases List.mem_append.mp member with isBefore | isLater
  · exact Nat.le_of_lt (lower other isBefore takes)
  · rcases List.mem_cons.mp isLater with rfl | isAfter
    · exact Nat.le_refl _
    · exact noneHigher other isAfter takes

/-- If no number counts for it, it is the first that takes them all. -/
theorem IsBestFor.first (isBest : type.IsBestFor integers reals types)
    (noScore : type.numberScore integers reals = 0) :
    ∃ before after, types = before ++ type :: after ∧
      ∀ other ∈ before, ¬ other.TakesNumbers integers reals := by
  obtain ⟨before, after, split, lower, -⟩ := isBest.split
  refine ⟨before, after, split, fun other isBefore takes => ?_⟩
  have := lower other isBefore takes
  omega

theorem IsBestFor.eq_lreal (isBest : type.IsBestFor integers reals types)
    (isSet : types ∈ Standard.typeSets) (hasReal : 0 < reals) : type = .lreal := by
  have isReal : type.isReal = true := isBest.takes.2 hasReal
  have widest : .lreal ∈ types := by
    have member := isBest.mem
    simp only [Standard.typeSets, List.mem_cons, List.not_mem_nil, or_false] at isSet
    rcases isSet with rfl | rfl | rfl
    · decide
    · decide
    · cases type <;> first | exact absurd member (by decide) | cases isReal
  have noneHigher := isBest.score_le widest ⟨fun _ => rfl, fun _ => rfl⟩
  cases type with
  | lreal => rfl
  | real =>
      simp only [numberScore, reduceCtorEq, if_false, if_true] at noneHigher
      omega
  | _ => cases isReal

theorem IsBestFor.eq_lint (isBest : type.IsBestFor integers reals types)
    (hasInteger : 0 < integers) (noReal : reals = 0) (widest : .lint ∈ types) : type = .lint := by
  have noneHigher := isBest.score_le widest ⟨fun _ => rfl, fun hasReal => by omega⟩
  by_contra other
  simp only [numberScore, other, noReal, if_true, if_false, reduceCtorEq, ite_self] at noneHigher
  omega

/-- Whole numbers alone take the first of the types of real numbers. -/
theorem IsBestFor.eq_real (isBest : type.IsBestFor integers reals types)
    (isSet : types ∈ Standard.typeSets) (noReal : reals = 0)
    (areReal : ∀ other ∈ types, other.isReal = true) : type = .real := by
  have isPair : types = [.real, .lreal] := by
    simp only [Standard.typeSets, List.mem_cons, List.not_mem_nil, or_false] at isSet
    rcases isSet with rfl | rfl | rfl
    · exact absurd (areReal .sint (by decide)) (by decide)
    · rfl
    · exact absurd (areReal .bool (by decide)) (by decide)
  subst isPair noReal
  have isReal := areReal type isBest.mem
  have noScore : type.numberScore integers 0 = 0 := by
    cases type <;> first | rfl | cases isReal
  obtain ⟨before, after, split, noneBefore⟩ := isBest.first noScore
  cases before with
  | nil => exact (List.cons.inj split).1.symm
  | cons first rest =>
      obtain ⟨rfl, -⟩ := List.cons.inj split
      exact absurd ⟨fun _ => rfl, fun _ => rfl⟩ (noneBefore .real (List.mem_cons_self ..))

/-- Whole numbers take the first of the types of bits that numbers may be stored in. -/
theorem IsBestFor.eq_byte (isBest : type.IsBestFor integers reals types)
    (isSet : types ∈ Standard.typeSets) (hasInteger : 0 < integers)
    (noneNumeric : ∀ other ∈ types, (other.isInteger || other.isReal) = false) : type = .byte := by
  have areBits : types = Elementary.bits := by
    simp only [Standard.typeSets, List.mem_cons, List.not_mem_nil, or_false] at isSet
    rcases isSet with rfl | rfl | rfl
    · exact absurd (noneNumeric .sint (by decide)) (by decide)
    · exact absurd (noneNumeric .real (by decide)) (by decide)
    · rfl
  subst areBits
  have takes := isBest.takes
  have member := isBest.mem
  have noScore : type.numberScore integers reals = 0 := by
    simp only [bits, List.mem_cons, List.not_mem_nil, or_false] at member
    rcases member with rfl | rfl | rfl | rfl | rfl <;> rfl
  obtain ⟨before, after, split, noneBefore⟩ := isBest.first noScore
  have noReal : reals = 0 := by
    by_contra hasReal
    have isReal := takes.2 (Nat.pos_of_ne_zero hasReal)
    simp only [bits, List.mem_cons, List.not_mem_nil, or_false] at member
    rcases member with rfl | rfl | rfl | rfl | rfl <;> cases isReal
  match before, split, noneBefore with
  | [], split, _ =>
      obtain ⟨rfl, -⟩ := List.cons.inj split
      cases takes.1 hasInteger
  | [first], split, _ =>
      obtain ⟨-, split⟩ := List.cons.inj split
      exact (List.cons.inj split).1.symm
  | first :: second :: rest, split, noneBefore =>
      obtain ⟨-, split⟩ := List.cons.inj split
      obtain ⟨rfl, -⟩ := List.cons.inj split
      refine absurd ⟨fun _ => rfl, fun hasReal => ?_⟩ (noneBefore .byte (by simp))
      omega

theorem IsBestFor.eq_head (isBest : type.IsBestFor 0 0 types) : types.head? = some type := by
  obtain ⟨before, after, rfl, noneBefore⟩ := isBest.first (by simp [numberScore])
  cases before with
  | nil => rfl
  | cons first rest =>
      exact absurd ⟨nofun, nofun⟩ (noneBefore first (List.mem_cons_self ..))

end Elementary

/-! ## The declaration that is chosen -/

namespace Binding

/-- What a call gives for the operands are numbers without a type. -/
def LiteralOperands (declarations : List FunctionSignature) (types : List (Option DataType))
    (binding : Binding) : Prop :=
  ∀ bound ∈ binding.parameters, bound.parameter.IsElement declarations →
    ∀ actual, bound.actual = some actual →
      ∃ type, types[actual.index]? = some (some type) ∧ type.isLiteral = true

def HasElement (declarations : List FunctionSignature) (types : List (Option DataType))
    (test : DataType → Bool) (binding : Binding) : Prop :=
  ∃ bound ∈ binding.parameters, bound.parameter.IsElement declarations ∧
    bound.isGiven types test = true

end Binding

section Variants

variable {set : List Elementary} {standards : List FunctionSignature}
  (isSet : set ∈ Standard.typeSets) (vary : Varies set standards)
  {arguments : List Argument} {signature : FunctionSignature} {binding : Binding}
  (isStandard : signature ∈ standards)
  (takes : CallResolution.Takes arguments types signature binding)

include isSet

theorem Standard.exists_two_types : ∃ first ∈ set, ∃ second ∈ set, first ≠ second := by
  simp only [typeSets, List.mem_cons, List.not_mem_nil, or_false] at isSet
  rcases isSet with rfl | rfl | rfl <;> decide

include vary isStandard takes

theorem Binding.isElement_iff {bound : BoundParameter} (member : bound ∈ binding.parameters) :
    bound.parameter.IsElement standards ↔ bound.parameter.isOperand = true := by
  obtain ⟨first, isFirst, second, isSecond, differ⟩ := Standard.exists_two_types isSet
  exact vary.isElement_iff isFirst isSecond differ isStandard
    (Binding.parameter_mem_of_make takes.1 bound member)

theorem Binding.operands_pos_iff {test : DataType → Bool} :
    0 < binding.operands types test ↔ binding.HasElement standards types test := by
  rw [Binding.operands, List.countP_pos_iff]
  refine exists_congr fun bound => and_congr_right fun member => ?_
  rw [BoundParameter.isOperand, Bool.and_eq_true,
    Binding.isElement_iff isSet vary isStandard takes member]

/-- The declaration that the numbers choose among those for several types, from what the
declarations return. -/
structure CallResolution.IsLiteralChoice (standards : List FunctionSignature)
    (types : List (Option DataType)) (binding : Binding) (chosen : FunctionSignature) : Prop where
  declared : chosen ∈ standards
  /-- A number that is not whole takes the widest of the real numbers. -/
  real : binding.HasElement standards types DataType.isRealLiteral →
    chosen.returnType = .elementary .lreal
  /-- Whole numbers take the widest of the whole numbers if the function has it. -/
  integer : ¬ binding.HasElement standards types DataType.isRealLiteral →
    binding.HasElement standards types DataType.isIntLiteral →
    (∃ declaration ∈ standards, declaration.returnType = .elementary .lint) →
    chosen.returnType = .elementary .lint
  /-- Whole numbers for a function of real numbers take the first of these, the narrow one. -/
  onlyReal : ¬ binding.HasElement standards types DataType.isRealLiteral →
    (∀ declaration ∈ standards, declaration.returnType.isReal = true) →
    chosen.returnType = .elementary .real
  /-- Whole numbers for a function of bits take the first of these that has more than one
  bit. -/
  onlyBits : binding.HasElement standards types DataType.isIntLiteral →
    (∀ declaration ∈ standards, declaration.returnType.isNumeric = false) →
    chosen.returnType = .elementary .byte
  noNumber : ¬ binding.HasElement standards types DataType.isIntLiteral →
    ¬ binding.HasElement standards types DataType.isRealLiteral → standards.head? = some chosen

theorem CallResolution.isLiteralChoice_of_isBestFor {declare : Elementary → FunctionSignature}
    (declared : standards = set.map declare)
    (returns : ∀ type, (declare type).returnType = .elementary type) {type : Elementary}
    (isBest : type.IsBestFor (binding.operands types DataType.isIntLiteral)
      (binding.operands types DataType.isRealLiteral) set) :
    IsLiteralChoice standards types binding (declare type) := by
  have countOf : ∀ test, 0 < binding.operands types test ↔
      binding.HasElement standards types test := fun test =>
    Binding.operands_pos_iff isSet vary isStandard takes
  have none : ∀ {test}, ¬ binding.HasElement standards types test →
      binding.operands types test = 0 := by
    intro test noElement
    rw [← countOf] at noElement
    omega
  have member : ∀ {other}, other ∈ set → declare other ∈ standards := fun isType => by
    rw [declared]
    exact List.mem_map_of_mem isType
  refine ⟨member isBest.mem, ?_, ?_, ?_, ?_, ?_⟩
  · intro hasReal
    rw [returns, isBest.eq_lreal isSet ((countOf _).mpr hasReal)]
  · rintro noReal hasInteger ⟨widest, isDeclared, isWidest⟩
    rw [declared] at isDeclared
    obtain ⟨other, isType, rfl⟩ := List.mem_map.mp isDeclared
    rw [returns] at isWidest
    cases isWidest
    rw [returns, isBest.eq_lint ((countOf _).mpr hasInteger) (none noReal) isType]
  · intro noReal areReal
    rw [returns, isBest.eq_real isSet (none noReal)]
    intro other isType
    have isReal := areReal _ (member isType)
    rw [returns] at isReal
    cases other <;> first | rfl | cases isReal
  · intro hasInteger noneNumeric
    rw [returns, isBest.eq_byte isSet ((countOf _).mpr hasInteger)]
    intro other isType
    have notNumeric := noneNumeric _ (member isType)
    rw [returns] at notNumeric
    cases other <;> first | rfl | cases notNumeric
  · intro noInteger noReal
    rw [none noInteger, none noReal] at isBest
    rw [declared, List.head?_map, isBest.eq_head, Option.map_some]

variable (literal : binding.LiteralOperands standards types)

include literal

/-- The declaration for a type takes the call if the numbers may be stored in the type, and its
score is what they count for it. -/
theorem Varies.takes_iff :
    ∃ declare : Elementary → FunctionSignature, standards = set.map declare ∧
      ∀ type, (declare type).returnType = .elementary type ∧
        (∀ other, CallResolution.Takes arguments types (declare type) other ↔
          other = binding.withType type ∧
            type.TakesNumbers (binding.operands types DataType.isIntLiteral)
              (binding.operands types DataType.isRealLiteral)) ∧
        ∀ other, CallResolution.Takes arguments types (declare type) other →
          other.total types = binding.fixedTotal types +
            type.numberScore (binding.operands types DataType.isIntLiteral)
              (binding.operands types DataType.isRealLiteral) := by
  obtain ⟨declare, declared, areVariants⟩ := vary.parameters_eq isStandard
  have arePlain : ∀ bound ∈ binding.parameters, bound.IsPlain types := by
    intro bound member
    refine BoundParameter.isPlain_of_literal (takes.2 bound member) fun isOperand => ⟨?_, ?_⟩
    · obtain ⟨type, -, rfl⟩ := List.mem_map.mp (declared ▸ isStandard)
      have isParameter := Binding.parameter_mem_of_make takes.1 bound member
      rw [(areVariants type).2] at isParameter
      obtain ⟨origin, -, isVariant⟩ := List.mem_map.mp isParameter
      rw [← isVariant, Parameter.isOperand_withType] at isOperand
      rw [← isVariant, Parameter.withType_of_operand isOperand]
      exact ⟨type, rfl⟩
    · exact literal bound member
        ((Binding.isElement_iff isSet vary isStandard takes member).mpr isOperand)
  have made : ∀ type, Binding.make (declare type).parameters arguments =
      .ok (binding.withType type) := by
    intro type
    rw [(areVariants type).2]
    exact Binding.make_map (Parameter.alike_withType type) takes.1
  have takesSo : ∀ type other, CallResolution.Takes arguments types (declare type) other ↔
      other = binding.withType type ∧
        type.TakesNumbers (binding.operands types DataType.isIntLiteral)
          (binding.operands types DataType.isRealLiteral) := by
    intro type other
    rw [CallResolution.Takes, made, Except.ok.injEq, Elementary.TakesNumbers,
      ← Binding.fits_withType arePlain]
    constructor
    · rintro ⟨rfl, fits⟩
      exact ⟨rfl, fits⟩
    · rintro ⟨rfl, fits⟩
      exact ⟨rfl, fits⟩
  refine ⟨declare, declared, fun type => ⟨(areVariants type).1, takesSo type, ?_⟩⟩
  intro other otherTakes
  obtain ⟨rfl, -⟩ := (takesSo type other).mp otherTakes
  rw [Binding.total_withType arePlain otherTakes.2, Elementary.numberScore, Nat.add_assoc]

/-- Of declarations of which those for several types come first, the first of the best is one
of the others that matches better than all of these, or the one that the numbers choose. -/
theorem CallResolution.IsBest.literalChoice {others : List FunctionSignature}
    {resolution : CallResolution}
    (isBest : resolution.IsBest (standards ++ others) arguments types) :
    (resolution.signature ∈ others ∧ ∃ chosen, Takes arguments types resolution.signature chosen ∧
      ∀ standard ∈ standards, ∀ other, Takes arguments types standard other →
        other.total types < chosen.total types) ∨
    IsLiteralChoice standards types binding resolution.signature := by
  obtain ⟨before, after, chosen, split, chosenTakes, -, lower, noneHigher⟩ := isBest
  obtain ⟨declare, declared, areDeclared⟩ :=
    Varies.takes_iff isSet vary isStandard takes literal
  -- The chosen one stands among the others, or among the declarations for several types.
  have place : (∃ rest, before = standards ++ rest) ∨
      ∃ rest, standards = before ++ resolution.signature :: rest ∧ after = rest ++ others := by
    rcases List.append_eq_append_iff.mp split with ⟨rest, isBefore, -⟩ | ⟨rest, isStandards, isRest⟩
    · exact .inl ⟨rest, isBefore⟩
    · cases rest with
      | nil => exact .inl ⟨[], by rw [isStandards, List.append_nil, List.append_nil]⟩
      | cons first rest =>
          obtain ⟨rfl, isAfter⟩ := List.cons.inj isRest
          exact .inr ⟨rest, isStandards, isAfter⟩
  rcases place with ⟨rest, rfl⟩ | ⟨rest, isStandards, rfl⟩
  · refine .inl ⟨?_, chosen, chosenTakes, fun standard member other otherTakes =>
      lower standard (List.mem_append_left _ member) other otherTakes⟩
    rw [List.append_assoc, List.append_cancel_left_eq] at split
    simp [split]
  · right
    rw [declared] at isStandards
    obtain ⟨typesBefore, typesFrom, rfl, rfl, isFrom⟩ := List.map_eq_append_iff.mp isStandards
    obtain ⟨type, typesAfter, rfl, isChosen, rfl⟩ := List.map_eq_cons_iff.mp isFrom
    rw [← isChosen] at chosenTakes ⊢
    refine isLiteralChoice_of_isBestFor isSet vary isStandard takes declared
      (fun type => (areDeclared type).1) ⟨((areDeclared type).2.1 _).mp chosenTakes |>.2,
        typesBefore, typesAfter, rfl, ?_, ?_⟩
    · intro other isBefore otherTakes
      have otherTakes := ((areDeclared other).2.1 _).mpr ⟨rfl, otherTakes⟩
      have less := lower _ (List.mem_map_of_mem isBefore) _ otherTakes
      rw [(areDeclared other).2.2 _ otherTakes, (areDeclared type).2.2 _ chosenTakes] at less
      omega
    · intro other isAfter otherTakes
      have otherTakes := ((areDeclared other).2.1 _).mpr ⟨rfl, otherTakes⟩
      have isLater : declare other ∈ typesAfter.map declare ++ others :=
        List.mem_append_left _ (List.mem_map_of_mem isAfter)
      have notMore := noneHigher _ isLater _ otherTakes
      rw [(areDeclared other).2.2 _ otherTakes, (areDeclared type).2.2 _ chosenTakes] at notMore
      omega

end Variants

namespace CallResolution

/-- A call of an overloaded standard function whose operands are all numbers without a type,
and which some standard declaration takes, means the declaration that the numbers choose,
unless the library declares the function too and that declaration matches better than every
standard one. -/
theorem of?_literalChoice {library : Library} {withConversions : Bool} {context : Context}
    (resolved : Context.resolve library withConversions = .ok context) {scope : Scope}
    {name : Ident} {arguments : List Argument}
    (overloaded : (FunctionTable.standard withConversions).isOverloaded name = true)
    (areTyped : ∀ argument ∈ arguments, (argument.type? context scope).isSome = true)
    {signature : FunctionSignature} {binding : Binding}
    (isStandard : signature ∈ (FunctionTable.standard withConversions).declarationsOf name)
    (takes : Takes arguments (arguments.map (Argument.type? context scope)) signature binding)
    (literal : binding.LiteralOperands
      ((FunctionTable.standard withConversions).declarationsOf name)
      (arguments.map (Argument.type? context scope))) :
    ∃ resolution, of? context scope name arguments = some resolution ∧
      ((∃ decl ∈ library.functions,
          decl.signature context.types context.blocks = .ok resolution.signature) ∧
        (∃ chosen, Takes arguments (arguments.map (Argument.type? context scope))
            resolution.signature chosen ∧
          ∀ standard ∈ (FunctionTable.standard withConversions).declarationsOf name, ∀ other,
            Takes arguments (arguments.map (Argument.type? context scope)) standard other →
              other.total (arguments.map (Argument.type? context scope)) <
                chosen.total (arguments.map (Argument.type? context scope))) ∨
      IsLiteralChoice ((FunctionTable.standard withConversions).declarationsOf name)
        (arguments.map (Argument.type? context scope)) binding resolution.signature) := by
  obtain ⟨set, isSet, vary⟩ := Standard.varies_of_isOverloaded overloaded
  obtain ⟨signatures, signed, declarations⟩ := Context.functions_declared resolved
  have all := declarations name
  rw [← FunctionTable.declarationsOf_standard] at all
  have isDeclared : signature ∈ context.functions.declarationsOf name := by
    rw [all]
    exact List.mem_append_left _ isStandard
  have declared := FunctionTable.overloads?_of_mem isDeclared
  obtain ⟨resolution, meaning⟩ := Option.isSome_iff_exists.mp
    ((isSome_of?_iff declared areTyped).mpr ⟨signature, isDeclared, binding, takes⟩)
  have isBest := isBest_of_of? declared areTyped meaning
  rw [all] at isBest
  refine ⟨resolution, meaning, ?_⟩
  rcases isBest.literalChoice isSet vary isStandard takes literal with ⟨isOther, better⟩ | choice
  · exact .inl ⟨Context.mem_signatures signed (List.mem_filter.mp isOther).1, better⟩
  · exact .inr choice

def largest : List Argument := [.named "IN2" (.ofInt 1), .positional (.ofInt 2)]

theorem type?_of_mem_largest {context : Context} {scope : Scope} :
    ∀ argument ∈ largest, argument.type? context scope = some .intLiteral := by
  simp [largest, Argument.type?, Expr.type?, Expr.ofInt, Expr.judge, Constant.type]

theorem of?_literalChoice_largest :
    ∃ context signature binding resolution, Context.resolve {} = .ok context ∧
      (FunctionTable.standard false).isOverloaded "MAX" = true ∧
      signature ∈ (FunctionTable.standard false).declarationsOf "MAX" ∧
      Binding.make signature.parameters largest = .ok binding ∧
      of? context ScopeStack.new "MAX" largest = some resolution ∧
      IsLiteralChoice ((FunctionTable.standard false).declarationsOf "MAX")
        (largest.map (Argument.type? context ScopeStack.new)) binding resolution.signature := by
  have overloaded : (FunctionTable.standard false).isOverloaded "MAX" = true := by
    rw [FunctionTable.isOverloaded_iff, FunctionTable.declarationsOf_standard]
    decide +kernel
  have runs : (Context.resolve {}).toOption.isSome = true := by decide +kernel
  obtain ⟨context, resolved⟩ := Option.isSome_iff_exists.mp runs
  have resolved := eq_ok_of_toOption resolved
  have types : largest.map (Argument.type? context ScopeStack.new) =
      [some .intLiteral, some .intLiteral] := by
    simp [largest, Argument.type?, Expr.type?, Expr.ofInt, Expr.judge, Constant.type]
  have taken : ((FunctionTable.standard false).declarationsOf "MAX").any (fun signature =>
      (Binding.make signature.parameters largest).toOption.any fun binding =>
        (binding.score? [some .intLiteral, some .intLiteral]).isSome) = true := by
    rw [FunctionTable.declarationsOf_standard]
    decide +kernel
  obtain ⟨signature, isStandard, taken⟩ := List.any_eq_true.mp taken
  obtain ⟨binding, made, scored⟩ := (Option.any_eq_true ..).mp taken
  have made := eq_ok_of_toOption made
  obtain ⟨score, scored⟩ := Option.isSome_iff_exists.mp scored
  have takes : Takes largest (largest.map (Argument.type? context ScopeStack.new)) signature
      binding := by
    rw [types]
    exact ⟨made, (Binding.score?_eq_some_iff.mp scored).1⟩
  have literal : binding.LiteralOperands
      ((FunctionTable.standard false).declarationsOf "MAX")
      (largest.map (Argument.type? context ScopeStack.new)) := by
    intro bound member _ actual isActual
    have typed : ∀ {argument : Argument}, largest[actual.index]? = some argument →
        (largest.map (Argument.type? context ScopeStack.new))[actual.index]? =
          some (some .intLiteral) := by
      intro argument given
      rw [List.getElem?_map, given, Option.map_some,
        type?_of_mem_largest argument (List.mem_of_getElem? given)]
    refine ⟨.intLiteral, ?_, rfl⟩
    cases Binding.isGiven_of_make made bound member actual isActual with
    | positional given | named given | output given => exact typed given
  obtain ⟨resolution, meaning, isOther | choice⟩ :=
    of?_literalChoice resolved overloaded (fun argument member => by
      rw [type?_of_mem_largest argument member]; rfl) isStandard takes literal
  · obtain ⟨⟨decl, isDeclared, -⟩, -⟩ := isOther
    cases isDeclared
  · exact ⟨context, signature, binding, resolution, resolved, overloaded, isStandard, made,
      meaning, choice⟩

/-- What a call of a standard function returns, if it means one that returns an elementary
type. -/
def returned? (name : Ident) (arguments : List Argument) : Option Elementary :=
  (of? standardContext ScopeStack.new name arguments).bind fun resolution =>
    resolution.signature.returnType.elementary?

theorem returned?_eq_toOption {name : Ident} {arguments : List Argument}
    (isDeclared : ((Standard.functions false).any fun signature => signature.name == name) = true)
    (areTyped : ∀ argument ∈ arguments,
      (argument.type? standardContext ScopeStack.new).isSome = true) :
    returned? name arguments =
      (resolve name ((Standard.functions false).filter fun signature => signature.name == name)
        arguments (arguments.map (Argument.type? standardContext ScopeStack.new))).toOption.bind
          fun resolution => resolution.signature.returnType.elementary? := by
  rw [returned?, of?_eq_toOption (overloads?_standardContext isDeclared) areTyped]

/-- Whole numbers take the narrow type of a function of real numbers, and of one of bits. -/
theorem narrow_types : returned? "SQRT" [.positional (.ofInt 4)] = some .real ∧
    returned? "AND" [.positional (.ofInt 1), .positional (.ofInt 2)] = some .byte := by
  constructor
  · rw [returned?_eq_toOption (by decide +kernel) (by decide +kernel)]
    decide +kernel
  · rw [returned?_eq_toOption (by decide +kernel) (by decide +kernel)]
    decide +kernel

end CallResolution

end StructuredText
