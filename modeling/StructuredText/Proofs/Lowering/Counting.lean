import StructuredText.Proofs.Code.Loop
import StructuredText.Proofs.Code.Number
import StructuredText.Proofs.Lowering.Element
import StructuredText.Proofs.Lowering.Origin

/-!
# Rounds of FOR statements

A FOR statement becomes a loop over a named variable or a loop over accessors.  A step that
is written as a number without a sign fixes the direction; any other step is tested for its
sign in each round.  The loop over accessors alone checks the range of its counter at each
step, and a step of zero goes upwards only where it is written as a number.  With these two
exceptions all loops that a statement may become make the same rounds.
-/

set_option autoImplicit false

namespace StructuredText

/-! ## The range check -/

def DataType.bounds? (type : DataType) : Option (Int × Int) :=
  match type.resolved with
  | .subrange _ _ lower upper => some (lower, upper)
  | _ => none

/-- What the range check of a type makes of a value. -/
def DataType.clamp (type : DataType) (value : Int) : Int :=
  match type.bounds? with
  | some (lower, upper) =>
      if value < lower then lower else if upper < value then upper else value
  | none => value

theorem DataType.isSubrange_iff_bounds? (type : DataType) :
    type.isSubrange = type.bounds?.isSome := by
  unfold isSubrange bounds?
  cases type.resolved <;> rfl

theorem DataType.clamp_of_not_isSubrange {type : DataType} (unchecked : type.isSubrange = false)
    (value : Int) : type.clamp value = value := by
  rw [isSubrange_iff_bounds?, Option.isSome_eq_false_iff, Option.isNone_iff_eq_none] at unchecked
  rw [clamp, unchecked]

theorem DataType.clamp_of_bounds {type : DataType} {lower upper : Int}
    (bounds : type.bounds? = some (lower, upper)) (value : Int) :
    type.clamp value = if value < lower then lower else if upper < value then upper else value := by
  rw [clamp, bounds]

theorem DataType.clamp_mem_of_bounds {type : DataType} {lower upper : Int}
    (bounds : type.bounds? = some (lower, upper)) (ordered : lower ≤ upper) (value : Int) :
    lower ≤ type.clamp value ∧ type.clamp value ≤ upper := by
  rw [clamp_of_bounds bounds]
  split
  · omega
  · split <;> omega

/-! ## Loops with values -/

structure CountValues where
  first : Int
  last : Int
  step : Int

namespace CountValues

/-- True if another round begins.  A step that is written as a number goes upwards, also if it
is zero. -/
def goesOn (values : CountValues) (isNumber : Bool) (current : Int) : Bool :=
  if isNumber || 0 < values.step then current ≤ values.last else values.last ≤ current

def next (values : CountValues) (type : DataType) (style : Style) (current : Int) : Int :=
  match style with
  | .direct => current + values.step
  | .accessor => type.clamp (current + values.step)

/-- The values of the counter in the rounds. -/
def rounds (values : CountValues) (type : DataType) (isNumber : Bool) (style : Style) :
    Nat → Option Int :=
  Code.rounds (type.clamp values.first) (values.goesOn isNumber) (values.next type style)

/-- The range check changes the counter in no round, or only where the loop ends anyway. -/
def Unclamped (values : CountValues) (type : DataType) (isNumber : Bool) : Prop :=
  ∀ round value, values.rounds type isNumber .direct round = some value →
    type.clamp (value + values.step) = value + values.step ∨
      values.goesOn isNumber (type.clamp (value + values.step)) = false ∧
        values.goesOn isNumber (value + values.step) = false

variable {values : CountValues} {type : DataType} {isNumber : Bool} {lower upper : Int}

theorem rounds_accessor_eq_direct_iff :
    values.rounds type isNumber .accessor = values.rounds type isNumber .direct ↔
      values.Unclamped type isNumber :=
  Code.rounds_eq_iff_of_next

theorem goesOn_eq_of_pos (isUpward : 0 < values.step) :
    values.goesOn isNumber = values.goesOn true := by
  funext current
  simp [goesOn, isUpward]

theorem goesOn_true (current : Int) :
    values.goesOn true current = decide (current ≤ values.last) :=
  rfl

theorem goesOn_false_of_nonpos (isNot : values.step ≤ 0) (current : Int) :
    values.goesOn false current = decide (values.last ≤ current) := by
  simp [goesOn, Int.not_lt.mpr isNot]

/-- A step of zero that is tested for its sign goes downwards. -/
theorem rounds_of_zero (isZero : values.step = 0) {style : Style} :
    values.rounds type false style = values.rounds type true style ↔
      type.clamp values.first = values.last ∧
        values.next type style (type.clamp values.first) = type.clamp values.first := by
  rw [rounds, rounds, funext (goesOn_false_of_nonpos (Int.le_of_eq isZero)), funext goesOn_true]
  exact Code.rounds_eq_iff_of_opposite

/-- Where the check changes nothing, a loop that stands still at the last value does so in both
styles. -/
theorem Unclamped.fixed (unclamped : values.Unclamped type true) (isZero : values.step = 0)
    (atLast : type.clamp values.first = values.last) (style : Style) :
    values.next type style (type.clamp values.first) = type.clamp values.first := by
  cases style with
  | direct => simp [next, isZero]
  | accessor =>
      have goes : values.goesOn true (type.clamp values.first) = true := by
        rw [goesOn_true, atLast]
        simp
      have reached : values.rounds type true .direct 0 = some (type.clamp values.first) :=
        if_pos goes
      rcases unclamped 0 _ reached with same | ⟨-, ends⟩
      · rw [next, same, isZero, Int.add_zero]
      · rw [isZero, Int.add_zero, goes] at ends
        cases ends

/-- A step written as a number goes on as any other of its value, but for a step of zero. -/
theorem rounds_signed_eq_iff (isUnsigned : 0 ≤ values.step)
    (unclamped : values.Unclamped type true) :
    (∀ style, values.rounds type false style = values.rounds type true .direct) ↔
      (values.step = 0 → type.clamp values.first = values.last) := by
  have styles : ∀ style, values.rounds type true style = values.rounds type true .direct := by
    rintro (_ | _)
    · rfl
    · exact rounds_accessor_eq_direct_iff.mpr unclamped
  rcases Int.lt_or_eq_of_le isUnsigned with isUpward | isZero
  · refine iff_of_true (fun style => ?_) fun isZero => absurd isZero (by omega)
    rw [← styles style, rounds, rounds, goesOn_eq_of_pos isUpward]
  · constructor
    · intro same _
      exact (rounds_of_zero isZero.symm).mp (same .direct) |>.1
    · intro atLast style
      have atLast := atLast isZero.symm
      rw [← styles style, rounds_of_zero isZero.symm]
      exact ⟨atLast, unclamped.fixed isZero.symm atLast style⟩

/-- Without a check the counter is as many steps from the start as there were rounds. -/
theorem eq_of_rounds_direct {round : Nat} {value : Int}
    (reached : values.rounds type isNumber .direct round = some value) :
    value = type.clamp values.first + round * values.step := by
  induction round generalizing value with
  | zero =>
      obtain ⟨-, here⟩ := Option.ite_none_right_eq_some.mp reached
      simpa using here.symm
  | succ round ih =>
      obtain ⟨before, reachedBefore, here⟩ := Option.bind_eq_some_iff.mp reached
      obtain ⟨-, here⟩ := Option.ite_none_right_eq_some.mp here
      rw [← Option.some.inj here, next, ih reachedBefore, Int.natCast_succ, Int.add_mul,
        Int.one_mul, Int.add_assoc]

/-- Where the whole range passes the test and the check changes nothing, the loop is endless and
stays in the range. -/
theorem Unclamped.stays (unclamped : values.Unclamped type isNumber)
    (bounds : type.bounds? = some (lower, upper)) (ordered : lower ≤ upper)
    (passes : ∀ value, lower ≤ value → value ≤ upper → values.goesOn isNumber value = true)
    (round : Nat) :
    ∃ value, values.rounds type isNumber .direct round = some value ∧
      lower ≤ value ∧ value ≤ upper := by
  induction round with
  | zero =>
      have ⟨above, below⟩ := DataType.clamp_mem_of_bounds bounds ordered values.first
      exact ⟨_, if_pos (passes _ above below), above, below⟩
  | succ round ih =>
      obtain ⟨value, reached, -, -⟩ := ih
      have ⟨above, below⟩ := DataType.clamp_mem_of_bounds bounds ordered (value + values.step)
      have goes := passes _ above below
      rcases unclamped round value reached with same | ⟨ends, -⟩
      · rw [same] at above below goes
        refine ⟨_, ?_, above, below⟩
        rw [rounds, Code.rounds]
        exact Option.bind_eq_some_iff.mpr ⟨value, reached, if_pos goes⟩
      · rw [goes] at ends
        cases ends

/-- An endless loop in a range stands still: as many steps as the range has values lead out. -/
theorem Unclamped.step_eq_zero (unclamped : values.Unclamped type isNumber)
    (bounds : type.bounds? = some (lower, upper)) (ordered : lower ≤ upper)
    (passes : ∀ value, lower ≤ value → value ≤ upper → values.goesOn isNumber value = true) :
    values.step = 0 := by
  obtain ⟨value, reached, above, below⟩ :=
    unclamped.stays bounds ordered passes (upper - lower + 1).toNat
  have start := DataType.clamp_mem_of_bounds bounds ordered values.first
  rw [eq_of_rounds_direct reached, Int.toNat_of_nonneg (by omega)] at above below
  rcases Int.lt_trichotomy values.step 0 with isDown | isZero | isUp
  · have : (upper - lower + 1) * values.step ≤ (upper - lower + 1) * (-1) :=
      Int.mul_le_mul_of_nonneg_left (by omega) (by omega)
    omega
  · exact isZero
  · have : (upper - lower + 1) * 1 ≤ (upper - lower + 1) * values.step :=
      Int.mul_le_mul_of_nonneg_left (by omega) (by omega)
    omega

/-- The check changes nothing just if the last value lies before the end of the range that the
loop counts to. -/
theorem unclamped_iff (unsigned : isNumber = true → 0 ≤ values.step)
    (bounds : type.bounds? = some (lower, upper)) (ordered : lower ≤ upper) :
    values.Unclamped type isNumber ↔
      (0 < values.step → values.last < upper) ∧ (values.step < 0 → lower < values.last) := by
  have upwards (isUp : 0 < values.step) (current : Int) :
      values.goesOn isNumber current = decide (current ≤ values.last) := by
    rw [goesOn_eq_of_pos isUp, goesOn_true]
  have downwards (isDown : values.step < 0) (current : Int) :
      values.goesOn isNumber current = decide (values.last ≤ current) := by
    cases isNumber with
    | true => have := unsigned rfl; omega
    | false => exact goesOn_false_of_nonpos (Int.le_of_lt isDown) current
  constructor
  · intro unclamped
    constructor
    · intro isUp
      refine Int.lt_of_not_ge fun beyond => ?_
      have stays := unclamped.step_eq_zero bounds ordered fun value _ below => by
        rw [upwards isUp]
        exact decide_eq_true (Int.le_trans below beyond)
      omega
    · intro isDown
      refine Int.lt_of_not_ge fun beyond => ?_
      have stays := unclamped.step_eq_zero bounds ordered fun value above _ => by
        rw [downwards isDown]
        exact decide_eq_true (Int.le_trans beyond above)
      omega
  · rintro ⟨before, after⟩ round value reached
    have start := DataType.clamp_of_bounds bounds values.first
    have isAt := eq_of_rounds_direct reached
    rw [DataType.clamp_of_bounds bounds]
    rcases Int.lt_trichotomy values.step 0 with isDown | isZero | isUp
    · rw [downwards isDown, downwards isDown]
      have below : round * values.step ≤ 0 :=
        Int.mul_nonpos_of_nonneg_of_nonpos (Int.natCast_nonneg round) (Int.le_of_lt isDown)
      have := after isDown
      simp only [decide_eq_false_iff_not]
      split at start <;> split <;> omega
    · left
      rw [isZero, Int.mul_zero, Int.add_zero] at isAt
      split at start <;> split <;> omega
    · rw [upwards isUp, upwards isUp]
      have above : 0 ≤ round * values.step :=
        Int.mul_nonneg (Int.natCast_nonneg round) (Int.le_of_lt isUp)
      have := before isUp
      simp only [decide_eq_false_iff_not]
      split at start <;> split <;> omega
end CountValues

def Site.inStyle (site : Site) (style : Style) : Site := { site with style }

/-- The loop that a FOR statement becomes in a style, read with values for its bounds and its
step that stay the same while it runs. -/
structure LoweredFor (site : Site) (style : Style) (type : DataType) (control : Ident)
    (first last : Expr) (step : Option Expr) (body : List Stmt) (values : CountValues) where
  typed : site.context.variableType site.scope (.named control) = .ok type
  code : Code.Stmt
  lowers : (Stmt.forTo control first last step body).LowersTo (site.inStyle style) code
  loop : Code.CountingLoop
  isLoop : code.countingLoop? = some loop
  reading : Code.Reading loop.counter
  /-- The value of the counter before the loop. -/
  before : Int
  first_eq : ∀ code, first.LowersTo (site.inStyle style) code →
    reading.value code before = values.first
  last_eq : ∀ code, last.LowersTo (site.inStyle style) code →
    ∀ current, reading.value code current = values.last
  step_eq : ∀ given ∈ step, ∀ code, given.LowersTo (site.inStyle style) code →
    ∀ current, reading.value code current = values.step
  /-- Without a step the loop counts by one. -/
  one : step = none → values.step = 1
  /-- A number without a sign is not negative. -/
  unsigned : step.any Expr.isUnsignedConstant = true → 0 ≤ values.step
  /-- The function of a subrange checks the range. -/
  checks : type.isSubrange = true → ∀ value,
    reading.result ("__CHECK_" ++ type.resolved.cName) value = type.clamp value

namespace LoweredFor

variable {site : Site} {style : Style} {type : DataType} {control : Ident} {first last : Expr}
  {step : Option Expr} {body : List Stmt} {values : CountValues}

/-- The values of the counter in the rounds. -/
def rounds (lowered : LoweredFor site style type control first last step body values) :
    Nat → Option Int :=
  lowered.loop.rounds lowered.reading lowered.before

/-- The code of the statement is written as the loop around a body. -/
def IsWritten (lowered : LoweredFor site style type control first last step body values) : Prop :=
  ∃ inner exit, ∀ depth, lowered.code.print depth =
    lowered.loop.print depth (Code.Stmt.printList (depth + 1) inner) ++ Code.printExit depth exit

end LoweredFor

/-! ## The parts of a loop -/

section Parts

variable {counter : Code.Place} (reading : Code.Reading counter)

theorem Code.Reading.value_checked {type : DataType}
    (checks : type.isSubrange = true → ∀ value,
      reading.result ("__CHECK_" ++ type.resolved.cName) value = type.clamp value)
    (code : Code.Expr) (current : Int) :
    reading.value (code.checked type) current = type.clamp (reading.value code current) := by
  cases isSubrange : type.isSubrange with
  | true => rw [Code.Expr.checked, if_pos isSubrange, reading.value_call, checks isSubrange]
  | false =>
      rw [Code.Expr.checked, isSubrange, DataType.clamp_of_not_isSubrange isSubrange]
      rfl

def Code.Step.amount (current : Int) : Code.Step → Int
  | .one => 1
  | .upward step | .either step => reading.value step current

def Code.Step.isUpward : Code.Step → Bool
  | .one | .upward _ => true
  | .either _ => false

theorem Code.Advance.next_ofStep (step : Code.Step) (current : Int) :
    (Code.Advance.ofStep step).next reading current = current + step.amount reading current := by
  cases step <;> rfl

theorem Code.Reading.value_stepNext (step : Code.Step) (current : Int) :
    reading.value (step.next (.load counter)) current = current + step.amount reading current := by
  cases step <;>
    simp only [Code.Step.next, Code.Step.amount, reading.value_next, reading.value_load,
      reading.value_one, reading.value_paren]

theorem Code.LoopTest.goesOn_ofStep {values : CountValues} {step : Code.Step} {last : Code.Expr}
    {current : Int} (stepEq : step.amount reading current = values.step)
    (lastEq : reading.value last current = values.last) :
    (Code.LoopTest.ofStep last step).goesOn reading current =
      values.goesOn step.isUpward current := by
  cases step with
  | one | upward =>
      rw [Code.LoopTest.ofStep, Code.LoopTest.goesOn, lastEq]
      rfl
  | either step =>
      rw [Code.Step.amount] at stepEq
      rw [Code.LoopTest.ofStep, Code.LoopTest.goesOn, lastEq, stepEq, CountValues.goesOn]
      simp [Code.Step.isUpward]

end Parts

theorem Site.amount_of_lowerStep {site : Site} {depth : Nat} {step : Option Expr}
    {code : Code.Step} {before after : LoweringState} {counter : Code.Place}
    {reading : Code.Reading counter} {amount : Int}
    (run : site.lowerStep depth step before = .ok (code, after)) (one : step = none → amount = 1)
    (stepEq : ∀ given ∈ step, ∀ code, given.LowersTo site code →
      ∀ current, reading.value code current = amount) (current : Int) :
    code.amount reading current = amount := by
  cases step with
  | none =>
      cases run
      exact (one rfl).symm
  | some given =>
      obtain ⟨value, middle, valueRun, run⟩ := Lower.bind_eq_ok run
      cases run
      have worth := stepEq given rfl value ⟨_, _, _, valueRun⟩ current
      split <;> exact worth

/-- The code of a step goes upwards in any case if it is written as a number, or not at all. -/
theorem Site.isUpward_of_lowerStep {site : Site} {depth : Nat} {step : Option Expr}
    {code : Code.Step} {before after : LoweringState}
    (run : site.lowerStep depth step before = .ok (code, after)) :
    code.isUpward = step.all Expr.isUnsignedConstant := by
  cases step with
  | none =>
      cases run
      rfl
  | some given =>
      obtain ⟨value, middle, valueRun, run⟩ := Lower.bind_eq_ok run
      cases run
      cases isNumber : given.isUnsignedConstant <;> simp [Code.Step.isUpward, isNumber]

namespace LoweredFor

variable {site : Site} {style : Style} {type : DataType} {control : Ident} {first last : Expr}
  {step : Option Expr} {body : List Stmt} {values : CountValues}

theorem rounds_eq (lowered : LoweredFor site style type control first last step body values) :
    lowered.rounds = values.rounds type (step.any Expr.isUnsignedConstant) style := by
  obtain ⟨typed, code, ⟨depth, around, state, after, run⟩, loop, isLoop, reading, before, firstEq,
    lastEq, stepEq, one, unsigned, checks⟩ := lowered
  obtain ⟨number, opened, type', first', started, last', ended, step', stepped, place, placed,
    body', -, typed', firstRun, lastRun, stepRun, -, -, rfl⟩ := Stmt.lowered_forTo run
  obtain rfl : type = type' := Except.ok.inj (typed.symm.trans typed')
  have starts := firstEq first' ⟨_, _, _, firstRun⟩
  have ends := lastEq last' ⟨_, _, _, lastRun⟩
  have amount (current : Int) : Code.Step.amount reading current step' = values.step :=
    Site.amount_of_lowerStep stepRun one stepEq current
  have tests : values.goesOn step'.isUpward = values.goesOn (step.any Expr.isUnsignedConstant) := by
    rw [Site.isUpward_of_lowerStep stepRun]
    cases step with
    | none => exact (CountValues.goesOn_eq_of_pos (by rw [one rfl]; decide)).symm
    | some given => rfl
  have goesOn (current : Int) :
      (Code.LoopTest.ofStep last' step').goesOn reading current =
        values.goesOn (step.any Expr.isUnsignedConstant) current := by
    rw [Code.LoopTest.goesOn_ofStep reading (amount current) (ends current), tests]
  cases style with
  | direct =>
      cases isLoop
      rw [rounds, Code.CountingLoop.rounds, reading.value_checked checks, starts]
      simp only [goesOn, Code.Advance.next_ofStep, amount]
      rfl
  | accessor =>
      cases isLoop
      rw [rounds, Code.CountingLoop.rounds, reading.value_checked checks, starts]
      simp only [goesOn, Code.Advance.next, reading.value_checked checks, reading.value_stepNext,
        amount]
      rfl

/-- The loops that are written for a statement over accessors make the same rounds as those over
names, and a step written as a number the same as any other of its value, just if the range
check changes the counter in no round and a step of zero is met at the last value only. -/
theorem agree_iff {other : Expr}
    (loops : ∀ style, LoweredFor site style type control first last step body values)
    (isSigned : other.isUnsignedConstant = false)
    (replaced : step.any Expr.isUnsignedConstant = true → ∀ style,
      LoweredFor site style type control first last (some other) body values) :
    (∀ style, (loops style).IsWritten) ∧
      (∀ isNumber style, (replaced isNumber style).IsWritten) ∧
      (((loops .accessor).rounds = (loops .direct).rounds ∧
          ∀ isNumber style, (replaced isNumber style).rounds = (loops .direct).rounds) ↔
        values.Unclamped type (step.any Expr.isUnsignedConstant) ∧
          (step.any Expr.isUnsignedConstant = true → values.step = 0 →
            type.clamp values.first = values.last)) := by
  refine ⟨fun style => Code.Stmt.print_of_countingLoop? (loops style).isLoop,
    fun isNumber style => Code.Stmt.print_of_countingLoop? (replaced isNumber style).isLoop, ?_⟩
  simp only [rounds_eq, CountValues.rounds_accessor_eq_direct_iff, Option.any_some, isSigned]
  refine and_congr_right fun unclamped => ?_
  cases isNumber : step.any Expr.isUnsignedConstant with
  | false => simp
  | true =>
      rw [isNumber] at unclamped
      simp only [forall_const]
      rw [CountValues.rounds_signed_eq_iff ((loops .direct).unsigned isNumber) unclamped]

end LoweredFor

/-! ## A counter over a range -/

mutual

def Code.Expr.worth (check : Int → Int) (current : Int) : Code.Expr → Int
  | .atom text => (Code.Literal.natural? text.toList).getD 0
  | .paren inner => inner.worth check current
  | .unary .minus term => -term.worth check current
  | .next value step => value.worth check current + step.worth check current
  | .call _ arguments => check (Code.Expr.worthAll check current arguments)
  | .load _ => current
  | _ => 0

def Code.Expr.worthAll (check : Int → Int) (current : Int) : List Code.Expr → Int
  | [] => 0
  | first :: rest => first.worth check current + Code.Expr.worthAll check current rest

end

def Code.Reading.simple (check : Int → Int) (counter : Code.Place) : Code.Reading counter where
  value code current := code.worth check current
  result _ := check
  value_load _ := by rw [Code.Expr.worth]
  value_one _ := by rw [Code.Expr.worth]; decide +kernel
  value_paren _ _ := by rw [Code.Expr.worth]
  value_next _ _ _ := by rw [Code.Expr.worth]
  value_call _ _ _ := by
    rw [Code.Expr.worth, Code.Expr.worthAll, Code.Expr.worthAll, Int.add_zero]

def Expr.IsWorth (expr : Expr) (value : Int) : Prop :=
  ∀ site code, expr.LowersTo site code → ∀ check current, code.worth check current = value

theorem Expr.isWorth_ofInt {value : Int} {text : String} (isNatural : 0 ≤ value)
    (written : Code.Literal.constant (.integer (SignedToken.ofInt value)) = .ok text)
    (read : Code.Literal.natural? text.toList = some value.toNat) :
    (Expr.ofInt value).IsWorth value := by
  rintro site code ⟨depth, before, after, run⟩ check current
  rw [Expr.ofInt, Expr.lower, written] at run
  cases run
  rw [Code.Expr.worth, read, Option.getD_some, Int.toNat_of_nonneg isNatural]

theorem Expr.IsWorth.neg {term : Expr} {value : Int} (isWorth : term.IsWorth value) :
    (Expr.unary .neg term).IsWorth (-value) := by
  rintro site code ⟨depth, before, after, run⟩ check current
  obtain ⟨type, code, -, termRun, rfl⟩ := Expr.lowered_unary run
  rw [UnaryOp.lower, Code.Expr.worth, Code.Expr.worth, isWorth site code ⟨_, _, _, termRun⟩]

def countingStmt (last step : Expr) : Stmt := .forTo "i" (.ofInt 0) last (some step) []

/-- A loop whose numbers are worth the same in every style has these values. -/
theorem LoweredFor.nonempty_of_isWorth {site : Site} {style : Style} {type : DataType}
    {last step : Expr} {values : CountValues}
    (typed : site.context.variableType site.scope (.named "i") = .ok type)
    (lowers : ((countingStmt last step).lower (site.inStyle style) 0 [] {}).isOk = true)
    (firstIs : values.first = 0) (lastIs : last.IsWorth values.last)
    (stepIs : step.IsWorth values.step) (unsigned : 0 ≤ values.step) :
    Nonempty (LoweredFor site style type "i" (.ofInt 0) last (some step) [] values) := by
  cases run : (countingStmt last step).lower (site.inStyle style) 0 [] {} with
  | error fault => rw [run] at lowers; cases lowers
  | ok result =>
      obtain ⟨code, after⟩ := result
      obtain ⟨loop, isLoop⟩ : ∃ loop, code.countingLoop? = some loop := by
        obtain ⟨number, opened, type', first', started, last', ended, step', stepped, place, placed,
          body', -, -, -, -, -, -, -, rfl⟩ := Stmt.lowered_forTo run
        cases style <;> exact ⟨_, rfl⟩
      refine ⟨{
        typed, code, lowers := ⟨_, _, _, _, run⟩, loop, isLoop
        reading := .simple type.clamp loop.counter
        before := 0
        first_eq := fun code lowered => ?_
        last_eq := fun code lowered current => lastIs _ code lowered _ current
        step_eq := ?_
        one := fun isNone => nomatch isNone
        unsigned := fun _ => unsigned
        checks := fun _ _ => rfl }⟩
      · rw [firstIs]
        exact Expr.isWorth_ofInt (by decide) rfl rfl _ code lowered _ 0
      · rintro given isStep code lowered current
        cases isStep
        exact stepIs _ code lowered _ current

def Expr.negatedTwice (expr : Expr) : Expr := .unary .neg (.unary .neg expr)

/-- The last value and the step of three loops: before the end of the range, at its end, and
standing still. -/
def countingValues : List (Int × Int) := [(8, 1), (9, 1), (9, 0)]

def counting : Library where
  elements :=
    [.type (.subrange "Level" .int { start := .ofInt 0, stop := .ofInt 9 }),
      .program
        { name := "Main"
          vars := [VarDecl.simple "i" "Level"]
          body := countingValues.map fun (last, step) => countingStmt (.ofInt last) (.ofInt step) }]

theorem counting_runs : (do
      let site ← counting.site? [counting.elements[0]] counting.elements[1] .accessor "MAIN"
      let type ← (site.context.variableType site.scope (.named "i")).toOption
      let bounds ← type.bounds?
      return bounds == (0, 9) && countingValues.all fun (last, step) =>
        [Expr.ofInt step, (Expr.ofInt step).negatedTwice].all fun step =>
          [.direct, .accessor].all fun style =>
            ((countingStmt (.ofInt last) step).lower (site.inStyle style) 0 [] {}).isOk) =
      some true := by
  decide +kernel

theorem counting_isWorth : ∀ pair ∈ countingValues,
    (Expr.ofInt pair.1).IsWorth pair.1 ∧ (Expr.ofInt pair.2).IsWorth pair.2 ∧ 0 ≤ pair.2 := by
  intro pair member
  simp only [countingValues, List.mem_cons, List.not_mem_nil, or_false] at member
  rcases member with rfl | rfl | rfl <;>
    exact ⟨Expr.isWorth_ofInt (by decide) rfl rfl, Expr.isWorth_ofInt (by decide) rfl rfl,
      by decide⟩

/-- The program is a unit, and each of its loops is read in both styles. -/
theorem counting_lowered :
    ∃ context notes, Context.resolve counting = .ok context ∧
      counting.check context = .ok notes ∧
      ∃ (unit : LoweredUnit context counting) (type : DataType), type.bounds? = some (0, 9) ∧
        ∀ pair ∈ countingValues,
          countingStmt (.ofInt pair.1) (.ofInt pair.2) ∈ unit.element.body ∧
          ∀ step ∈ [Expr.ofInt pair.2, (Expr.ofInt pair.2).negatedTwice], ∀ style,
            Nonempty (LoweredFor unit.site style type "i" (.ofInt 0) (.ofInt pair.1) (some step) []
              ⟨0, pair.1, pair.2⟩) := by
  obtain ⟨site, isSite, found⟩ := Option.bind_eq_some_iff.mp counting_runs
  obtain ⟨context, notes, resolved, checked, unit, isElement, rfl⟩ :=
    Library.unit_of_site? isSite rfl
  obtain ⟨type, typed, found⟩ := Option.bind_eq_some_iff.mp found
  obtain ⟨bounds, hasBounds, found⟩ := Option.bind_eq_some_iff.mp found
  obtain ⟨isRange, runs⟩ := Bool.and_eq_true_iff.mp (Option.some.inj found)
  obtain rfl := eq_of_beq isRange
  refine ⟨context, notes, resolved, checked, unit, type, hasBounds, fun pair member =>
    ⟨isElement ▸ List.mem_map_of_mem member, fun step isStep style => ?_⟩⟩
  obtain ⟨lastIs, stepIs, unsigned⟩ := counting_isWorth pair member
  have styles := List.all_eq_true.mp (List.all_eq_true.mp runs pair member) step isStep
  refine LoweredFor.nonempty_of_isWorth (eq_ok_of_toOption typed)
    (List.all_eq_true.mp styles style (by cases style <;> simp)) rfl lastIs ?_ unsigned
  rcases List.mem_pair.mp isStep with rfl | rfl
  · exact stepIs
  · have twice := stepIs.neg.neg
    rwa [Int.neg_neg] at twice

theorem LoweredFor.agree_iff_before_end :
    ∃ context notes, Context.resolve counting = .ok context ∧
      counting.check context = .ok notes ∧
      ∃ (unit : LoweredUnit context counting) (type : DataType)
        (loops : ∀ style, LoweredFor unit.site style type "i" (.ofInt 0) (.ofInt 8)
          (some (.ofInt 1)) [] ⟨0, 8, 1⟩)
        (replaced : ∀ style, LoweredFor unit.site style type "i" (.ofInt 0) (.ofInt 8)
          (some (Expr.ofInt 1).negatedTwice) [] ⟨0, 8, 1⟩),
        countingStmt (.ofInt 8) (.ofInt 1) ∈ unit.element.body ∧
        (Expr.ofInt 1).isUnsignedConstant = true ∧
        (Expr.ofInt 1).negatedTwice.isUnsignedConstant = false ∧
        (∀ style, (loops style).IsWritten) ∧
        (loops .accessor).rounds = (loops .direct).rounds ∧
        ∀ style, (replaced style).rounds = (loops .direct).rounds := by
  obtain ⟨context, notes, resolved, checked, unit, type, bounds, lowered⟩ := counting_lowered
  obtain ⟨occurs, readable⟩ := lowered (8, 1) (by decide)
  let loops style := (readable (.ofInt 1) (by simp) style).some
  let replaced style := (readable (Expr.ofInt 1).negatedTwice (by simp) style).some
  obtain ⟨written, -, agree⟩ := LoweredFor.agree_iff loops rfl fun _ => replaced
  obtain ⟨styles, replacements⟩ := agree.mpr
    ⟨(CountValues.unclamped_iff (by decide) bounds (by decide)).mpr (by decide),
      fun _ isZero => absurd isZero (by decide)⟩
  exact ⟨context, notes, resolved, checked, unit, type, loops, replaced, occurs, rfl, rfl, written,
    styles, replacements rfl⟩

/-- A counter that goes up to the end of its range is stopped by the range check in one style,
and passes the last value in the other. -/
theorem LoweredFor.rounds_differ :
    ∃ context notes, Context.resolve counting = .ok context ∧
      counting.check context = .ok notes ∧
      ∃ (unit : LoweredUnit context counting) (type : DataType),
        (∃ loops : ∀ style, LoweredFor unit.site style type "i" (.ofInt 0) (.ofInt 9)
            (some (.ofInt 1)) [] ⟨0, 9, 1⟩,
          countingStmt (.ofInt 9) (.ofInt 1) ∈ unit.element.body ∧
          (loops .direct).rounds 10 = none ∧ (loops .accessor).rounds 10 = some 9) ∧
        ∃ (loop : LoweredFor unit.site .direct type "i" (.ofInt 0) (.ofInt 9)
            (some (.ofInt 0)) [] ⟨0, 9, 0⟩)
          (replaced : LoweredFor unit.site .direct type "i" (.ofInt 0) (.ofInt 9)
            (some (Expr.ofInt 0).negatedTwice) [] ⟨0, 9, 0⟩),
          countingStmt (.ofInt 9) (.ofInt 0) ∈ unit.element.body ∧
          loop.rounds 0 = some 0 ∧ replaced.rounds 0 = none := by
  obtain ⟨context, notes, resolved, checked, unit, type, bounds, lowered⟩ := counting_lowered
  obtain ⟨upOccurs, up⟩ := lowered (9, 1) (by decide)
  obtain ⟨stillOccurs, still⟩ := lowered (9, 0) (by decide)
  have clamped := funext (DataType.clamp_of_bounds bounds)
  refine ⟨context, notes, resolved, checked, unit, type,
    ⟨fun style => (up (.ofInt 1) (by simp) style).some, upOccurs, ?_, ?_⟩,
    (still (.ofInt 0) (by simp) .direct).some,
    (still (Expr.ofInt 0).negatedTwice (by simp) .direct).some, stillOccurs, ?_, ?_⟩ <;>
  · rw [LoweredFor.rounds_eq, CountValues.rounds]
    unfold CountValues.next
    simp only [clamped]
    decide

end StructuredText
