import Mathlib.Data.List.DropRight
import Mathlib.Data.Nat.Digits.Lemmas
import Mathlib.Tactic.FieldSimp
import Mathlib.Tactic.Linarith
import Mathlib.Tactic.Positivity
import StructuredText.Code.Literal
import StructuredText.Proofs.Token.Decimal

/-!
# Durations in generated code

The constant of a duration shows its parts: a sign, milliseconds with what is left of them
as a fraction, seconds, minutes, hours and days.  Every part is below the next one, so the
parts are determined by the duration; together they give it exactly, so different durations
have different constants.
-/

set_option autoImplicit false

namespace StructuredText.Code.Literal

/-! ## Digits -/

theorem positional?_behind (value : Nat) (chars : List Char) :
    Text.positional? 10 value chars =
      (Text.positional? 10 0 chars).map (value * 10 ^ chars.length + ·) := by
  induction chars generalizing value with
  | nil => simp [Text.positional?]
  | cons char chars ih =>
      rw [Text.positional?, Text.positional?]
      cases Text.digitValue? 10 char with
      | none => rfl
      | some digit =>
          rw [Option.bind_some, Option.bind_some, ih, ih (0 * 10 + digit), Option.map_map]
          congr 1
          funext rest
          simp only [Function.comp_apply, List.length_cons, pow_succ]
          ring

theorem positional?_zerosBehind (value count : Nat) :
    Text.positional? 10 value (List.replicate count '0') = some (value * 10 ^ count) := by
  have zeros : Text.positional? 10 0 (List.replicate count '0') = some 0 := by
    rw [← List.append_nil (List.replicate count '0'), Text.positional?_zeros (by decide)]
    rfl
  rw [positional?_behind, zeros, List.length_replicate]
  rfl

theorem positional?_toDigits (number : Nat) :
    Text.positional? 10 0 (Nat.toDigits 10 number) = some number := by
  induction number using Nat.strongRecOn with
  | ind number ih =>
      have digit : ∀ value < 10, Text.digitValue? 10 (Nat.digitChar value) = some value := by decide
      rw [Nat.toDigits_eq_if (by decide)]
      split
      next small =>
        rw [Text.positional?, digit number small, Option.bind_some, Text.positional?]
        simp
      next large =>
        rw [Text.positional?_append, ih (number / 10) (by omega), Option.bind_some,
          Text.positional?, digit _ (by omega), Option.bind_some, Text.positional?]
        congr 1
        omega

theorem positional?_padded (places number : Nat) :
    Text.positional? 10 0 (padded places number) = some number := by
  rw [padded, Text.positional?_zeros (by decide)]
  exact positional?_toDigits number

theorem length_padded {places number : Nat} (positive : 0 < places)
    (small : number < 10 ^ places) : (padded places number).length = places := by
  have fits : (Nat.toDigits 10 number).length ≤ places :=
    (Nat.length_toDigits_le_iff (by decide) positive).mpr small
  rw [padded, List.length_append, List.length_replicate]
  omega

def fractionDigits (places fraction : Nat) : List Char :=
  (padded places fraction).rdropWhile (· == '0')

theorem getLast?_fractionDigits (places fraction : Nat) :
    (fractionDigits places fraction).getLast? ≠ some '0' := by
  intro last
  have nonempty : fractionDigits places fraction ≠ [] := by
    intro empty
    rw [empty] at last
    cases last
  have notZero := List.rdropWhile_last_not (· == '0') (padded places fraction) nonempty
  rw [List.getLast?_eq_getLast_of_ne_nil nonempty] at last
  exact notZero (beq_iff_eq.mpr (Option.some.inj last))

/-- The zeros that are left out are what the digits have to be multiplied by. -/
theorem positional?_fractionDigits {places fraction : Nat} (positive : 0 < places)
    (small : fraction < 10 ^ places) :
    ∃ value count, (fractionDigits places fraction).length + count = places ∧
      Text.positional? 10 0 (fractionDigits places fraction) = some value ∧
      value * 10 ^ count = fraction := by
  let ending := (padded places fraction).rtakeWhile (· == '0')
  have split : fractionDigits places fraction ++ ending = padded places fraction :=
    List.rdropWhile_append_rtakeWhile
  have zeros : ending = List.replicate ending.length '0' :=
    List.eq_replicate_of_mem fun char member => by
      simpa using List.mem_rtakeWhile_imp (p := (· == '0')) member
  have whole := positional?_padded places fraction
  rw [← split, Text.positional?_append] at whole
  obtain ⟨value, read, rest⟩ := Option.bind_eq_some_iff.mp whole
  rw [zeros, positional?_zerosBehind] at rest
  refine ⟨value, ending.length, ?_, read, Option.some.inj rest⟩
  rw [← List.length_append, split, length_padded positive small]

/-! ## Decimal numbers -/

/-- A decimal number of a value, as short as it can be: whole digits and, unless there is no
fraction, a point with at most `places` digits, the last of which is not zero. -/
structure IsDecimal (places : Nat) (text : String) (value : ℚ) : Prop where
  form : ∃ (whole : Nat) (fraction : List Char),
    text.toList = Nat.toDigits 10 whole ++ (if fraction = [] then [] else '.' :: fraction) ∧
      (∀ char ∈ fraction, char.isDigit = true) ∧ fraction.length ≤ places ∧
      fraction.getLast? ≠ some '0'
  value : Binary64.rational? text.toList = some value

theorem isDigit_toDigits (number : Nat) : ∀ char ∈ Nat.toDigits 10 number, char.isDigit = true :=
  fun _ member => Nat.isDigit_of_mem_toDigits (by decide) (by decide) member

theorem parts_point {whole fraction : List Char} (wholeDigits : ∀ char ∈ whole, char.isDigit = true)
    (digits : ∀ char ∈ fraction, char.isDigit = true) :
    Binary64.parts (whole ++ '.' :: fraction) = ⟨whole, fraction, []⟩ := by
  rw [Binary64.parts, List.takeWhile_append_of_pos wholeDigits,
    List.dropWhile_append_of_pos wholeDigits]
  have noDigit : Char.isDigit '.' = false := rfl
  simp [Binary64.fractionOf, noDigit, List.takeWhile_eq_self_iff.mpr digits,
    List.dropWhile_eq_nil_iff.mpr digits]

theorem rational?_point {whole value : Nat} {fraction : List Char}
    (read : Text.positional? 10 0 fraction = some value) :
    Binary64.rational? (Nat.toDigits 10 whole ++ '.' :: fraction) =
      some ((whole : ℚ) + value / 10 ^ fraction.length) := by
  have digits := Binary64.isDigit_of_positional? (Nat.le_refl 10) read
  rw [Binary64.rational?_eq_some, parts_point (isDigit_toDigits whole) digits]
  refine ⟨by simp [Binary64.Parts.mantissa, Nat.toDigits_ne_nil],
    whole * 10 ^ fraction.length + value, 0, ?_, rfl, ?_⟩
  · rw [Binary64.Parts.mantissa, Text.positional?_append, positional?_toDigits, Option.bind_some,
      positional?_behind, read, Option.map_some]
  · rw [zero_sub, zpow_neg, zpow_natCast]
    push_cast
    field_simp

theorem toList_toString_nat (number : Nat) : (toString number).toList = Nat.toDigits 10 number :=
  String.toList_ofList

theorem eq_of_toString {number other : Nat} (same : toString number = toString other) :
    number = other := by
  have digits := congrArg String.toList same
  rw [toList_toString_nat, toList_toString_nat] at digits
  have read := positional?_toDigits number
  rw [digits, positional?_toDigits] at read
  exact (Option.some.inj read).symm

theorem toList_decimal {fraction : Nat} (whole places : Nat) (nonzero : fraction ≠ 0) :
    (decimal whole places fraction).toList =
      Nat.toDigits 10 whole ++ '.' :: fractionDigits places fraction := by
  rw [decimal, if_neg nonzero, String.toList_append, String.toList_append, String.toList_ofList,
    toList_toString_nat, String.toList_ofList, List.append_assoc]
  rfl

/-- A number with a fraction is written as a decimal number of its value. -/
theorem isDecimal_decimal (whole : Nat) {places fraction : Nat} (positive : 0 < places)
    (small : fraction < 10 ^ places) :
    IsDecimal places (decimal whole places fraction) (whole + fraction / 10 ^ places) := by
  by_cases none : fraction = 0
  · subst none
    have text : (decimal whole places 0).toList = Nat.toDigits 10 whole := by
      rw [decimal, if_pos rfl, toList_toString_nat]
    refine ⟨⟨whole, [], ?_, List.forall_mem_nil _, Nat.zero_le _, nofun⟩, ?_⟩
    · rw [text, if_pos rfl, List.append_nil]
    · rw [text, Binary64.rational?_of_positional? Nat.toDigits_ne_nil (positional?_toDigits whole)]
      simp
  · obtain ⟨value, count, length, read, scaled⟩ := positional?_fractionDigits positive small
    have text := toList_decimal whole places none
    have nonempty : fractionDigits places fraction ≠ [] := by
      intro empty
      rw [empty] at read
      obtain rfl := Option.some.inj read
      rw [Nat.zero_mul] at scaled
      exact none scaled.symm
    have same : (fraction : ℚ) / 10 ^ places =
        value / 10 ^ (fractionDigits places fraction).length := by
      have product : (fraction : ℚ) = value * 10 ^ count := by exact_mod_cast scaled.symm
      have power : (10 : ℚ) ^ places =
          10 ^ (fractionDigits places fraction).length * 10 ^ count := by
        rw [← pow_add, length]
      rw [product, power]
      field_simp
    refine ⟨⟨whole, fractionDigits places fraction, ?_,
      Binary64.isDigit_of_positional? (Nat.le_refl 10) read, by omega,
      getLast?_fractionDigits places fraction⟩, ?_⟩
    · rw [text, if_neg nonempty]
    · rw [text, rational?_point read, same]

/-! ## Arguments -/

theorem comma_notMem_toString (number : Nat) : ',' ∉ (toString number).toList := by
  rw [toList_toString_nat]
  intro member
  cases isDigit_toDigits number ',' member

theorem IsDecimal.comma_notMem {places : Nat} {text : String} {value : ℚ}
    (isDecimal : IsDecimal places text value) : ',' ∉ text.toList := by
  obtain ⟨whole, fraction, form, digits, -, -⟩ := isDecimal.form
  rw [form]
  intro member
  rcases List.mem_append.mp member with inWhole | behind
  · cases isDigit_toDigits whole ',' inWhole
  · split at behind
    · cases behind
    · rcases List.mem_cons.mp behind with isPoint | inFraction
      · cases isPoint
      · cases digits ',' inFraction

/-- A text up to its first comma, and the text from there on. -/
theorem span_comma {front : List Char} (noComma : ',' ∉ front) (rest : List Char) :
    (front ++ ',' :: rest).span (· != ',') = (front, ',' :: rest) := by
  have passes : ∀ char ∈ front, (char != ',') = true := fun char member =>
    bne_iff_ne.mpr fun isComma => noComma (isComma ▸ member)
  rw [List.span_eq_takeWhile_dropWhile, List.takeWhile_append_of_pos passes,
    List.dropWhile_append_of_pos passes]
  simp

/-- Arguments without a comma in them are told apart by the commas between them. -/
theorem intercalate_comma_injective {texts : List String} :
    ∀ {first second : String} {others : List String}, texts.length = others.length →
      (∀ text ∈ first :: texts, ',' ∉ text.toList) →
      (∀ text ∈ second :: others, ',' ∉ text.toList) →
      ", ".intercalate (first :: texts) = ", ".intercalate (second :: others) →
      first :: texts = second :: others := by
  induction texts with
  | nil =>
      intro first second others length _ _ same
      obtain rfl := List.length_eq_zero_iff.mp length.symm
      rw [String.intercalate_singleton, String.intercalate_singleton] at same
      rw [same]
  | cons next texts ih =>
      intro first second others length noComma noComma' same
      cases others with
      | nil => cases length
      | cons other others =>
          rw [List.forall_mem_cons] at noComma noComma'
          rw [String.intercalate_cons_cons, String.intercalate_cons_cons] at same
          have chars := congrArg String.toList same
          simp only [String.toList_append, List.append_assoc] at chars
          have cut := span_comma noComma.1 (' ' :: (", ".intercalate (next :: texts)).toList)
          have cut' := span_comma noComma'.1 (' ' :: (", ".intercalate (other :: others)).toList)
          have sameSpan := congrArg (List.span (· != ',')) chars
          obtain ⟨sameFirst, sameRest⟩ := Prod.mk.inj (cut.symm.trans (sameSpan.trans cut'))
          rw [String.toList_inj.mp sameFirst]
          have rest := String.toList_inj.mp (List.cons.inj (List.cons.inj sameRest).2).2
          rw [ih (Nat.succ.inj length) noComma.2 noComma'.2 rest]

theorem constructed_injective {name first second : String} {texts others : List String}
    (length : texts.length = others.length) (noComma : ∀ text ∈ first :: texts, ',' ∉ text.toList)
    (noComma' : ∀ text ∈ second :: others, ',' ∉ text.toList)
    (same : constructed name (first :: texts) = constructed name (second :: others)) :
    first :: texts = second :: others := by
  rw [constructed, constructed, String.append_left_inj, String.append_right_inj] at same
  exact intercalate_comma_injective length noComma noComma' same

/-! ## Durations -/

structure DurationFields where
  isNegative : Bool
  milliseconds : ℚ
  seconds : Nat
  minutes : Nat
  hours : Nat
  days : Nat

namespace DurationFields

def total (fields : DurationFields) : ℚ :=
  (if fields.isNegative then -1 else 1) *
    (fields.milliseconds / 1000 + fields.seconds + 60 * fields.minutes + 3600 * fields.hours +
      86400 * fields.days)

/-- Every part is less than one of the next larger parts. -/
structure InRange (fields : DurationFields) : Prop where
  milliseconds : 0 ≤ fields.milliseconds ∧ fields.milliseconds < 1000
  seconds : fields.seconds < 60
  minutes : fields.minutes < 60
  hours : fields.hours < 24

/-- The arguments that show the fields, with a text for the milliseconds. -/
def arguments (fields : DurationFields) (milliseconds : String) : List String :=
  [if fields.isNegative then "-1" else "1", milliseconds, toString fields.seconds,
    toString fields.minutes, toString fields.hours, toString fields.days]

/-- The constant shows the fields: the milliseconds with at most six digits after the point. -/
def ShownIn (fields : DurationFields) (text : String) : Prop :=
  ∃ milliseconds, IsDecimal 6 milliseconds fields.milliseconds ∧
    text = constructed "__time_to_timespec" (fields.arguments milliseconds)

theorem comma_notMem_arguments (fields : DurationFields) {milliseconds : String}
    (isDecimal : IsDecimal 6 milliseconds fields.milliseconds) :
    ∀ text ∈ fields.arguments milliseconds, ',' ∉ text.toList := by
  have sign : ',' ∉ (if fields.isNegative then "-1" else "1").toList := by
    cases fields.isNegative <;> decide
  simp only [arguments, List.forall_mem_cons, List.not_mem_nil, false_implies, implies_true,
    and_true]
  exact ⟨sign, isDecimal.comma_notMem, comma_notMem_toString _, comma_notMem_toString _,
    comma_notMem_toString _, comma_notMem_toString _⟩

theorem ShownIn.unique {fields others : DurationFields} {text : String}
    (shown : fields.ShownIn text) (shown' : others.ShownIn text) : fields = others := by
  obtain ⟨milliseconds, isDecimal, written⟩ := shown
  obtain ⟨milliseconds', isDecimal', written'⟩ := shown'
  have same : fields.arguments milliseconds = others.arguments milliseconds' :=
    constructed_injective rfl (fields.comma_notMem_arguments isDecimal)
      (others.comma_notMem_arguments isDecimal') (written.symm.trans written')
  simp only [arguments, List.cons.injEq, and_true] at same
  obtain ⟨sign, rfl, seconds, minutes, hours, days⟩ := same
  have sameSign : fields.isNegative = others.isNegative := by
    revert sign
    cases fields.isNegative <;> cases others.isNegative <;> decide
  have value := isDecimal.value.symm.trans isDecimal'.value
  cases fields
  cases others
  rw [DurationFields.mk.injEq]
  exact ⟨sameSign, Option.some.inj value, eq_of_toString seconds, eq_of_toString minutes,
    eq_of_toString hours, eq_of_toString days⟩

end DurationFields

def DurationParts.nanoseconds (parts : DurationParts) : Nat :=
  ((((parts.days * 24 + parts.hours) * 60 + parts.minutes) * 60 + parts.seconds) * 1000 +
    parts.milliseconds) * 1000000 + parts.rest

/-- Every part of a duration is less than one of the next larger parts. -/
structure DurationParts.InRange (parts : DurationParts) : Prop where
  hours : parts.hours < 24
  minutes : parts.minutes < 60
  seconds : parts.seconds < 60
  milliseconds : parts.milliseconds < 1000
  rest : parts.rest < 1000000

theorem inRange_ofNanoseconds (nanoseconds : Nat) :
    (DurationParts.ofNanoseconds nanoseconds).InRange := by
  constructor <;> simp only [DurationParts.ofNanoseconds] <;> omega

theorem nanoseconds_ofNanoseconds (nanoseconds : Nat) :
    (DurationParts.ofNanoseconds nanoseconds).nanoseconds = nanoseconds := by
  simp only [DurationParts.ofNanoseconds, DurationParts.nanoseconds]
  omega

theorem ofNanoseconds_nanoseconds {parts : DurationParts} (inRange : parts.InRange) :
    DurationParts.ofNanoseconds parts.nanoseconds = parts := by
  obtain ⟨days, hours, minutes, seconds, milliseconds, rest⟩ := parts
  obtain ⟨hoursSmall, minutesSmall, secondsSmall, millisecondsSmall, restSmall⟩ := inRange
  simp only [DurationParts.ofNanoseconds, DurationParts.nanoseconds, DurationParts.mk.injEq] at *
  refine ⟨?_, ?_, ?_, ?_, ?_, ?_⟩ <;> omega

def fieldsOf (value : Duration) : DurationFields :=
  let parts := DurationParts.ofNanoseconds value.nanoseconds.natAbs
  { isNegative := value.isNegative
    milliseconds := parts.milliseconds + parts.rest / 10 ^ 6
    seconds := parts.seconds
    minutes := parts.minutes
    hours := parts.hours
    days := parts.days }

theorem shownIn_duration (value : Duration) : (fieldsOf value).ShownIn (duration value) :=
  ⟨_, isDecimal_decimal _ (by decide)
    (inRange_ofNanoseconds value.nanoseconds.natAbs).rest, rfl⟩

theorem inRange_fieldsOf (value : Duration) : (fieldsOf value).InRange := by
  have inRange := inRange_ofNanoseconds value.nanoseconds.natAbs
  refine ⟨?_, inRange.seconds, inRange.minutes, inRange.hours⟩
  simp only [fieldsOf]
  generalize DurationParts.ofNanoseconds value.nanoseconds.natAbs = parts at inRange ⊢
  have milliseconds : (parts.milliseconds : ℚ) ≤ 999 := by
    exact_mod_cast Nat.le_of_lt_succ inRange.milliseconds
  have rest : (parts.rest : ℚ) < 1000000 := by exact_mod_cast inRange.rest
  refine ⟨by positivity, ?_⟩
  linarith

theorem total_fieldsOf (value : Duration) :
    (fieldsOf value).total = value.nanoseconds / 1000000000 := by
  have whole := nanoseconds_ofNanoseconds value.nanoseconds.natAbs
  simp only [DurationFields.total, fieldsOf, Duration.isNegative]
  generalize DurationParts.ofNanoseconds value.nanoseconds.natAbs = parts at whole ⊢
  have sum : (value.nanoseconds.natAbs : ℚ) = ((((parts.days * 24 + parts.hours) * 60 +
      parts.minutes) * 60 + parts.seconds) * 1000 + parts.milliseconds) * 1000000 + parts.rest := by
    rw [← whole, DurationParts.nanoseconds]
    push_cast
    rfl
  have magnitude : (value.nanoseconds : ℚ) =
      (if value.nanoseconds < 0 then -1 else 1) * (value.nanoseconds.natAbs : ℚ) := by
    rw [Nat.cast_natAbs]
    split
    next negative => rw [abs_of_neg negative, Int.cast_neg, neg_mul_neg, one_mul]
    next positive => rw [abs_of_nonneg (Int.not_lt.mp positive), one_mul]
  rw [magnitude, sum]
  simp only [decide_eq_true_eq]
  ring

/-! ## Durations of parts -/

theorem checked_eq_some {nanoseconds : Int}
    (fits : (nanoseconds.natAbs : Int) < Duration.limit * Duration.second) :
    Duration.checked nanoseconds = some ⟨nanoseconds⟩ := by
  have inRange : (⟨nanoseconds⟩ : Duration).Fits := by
    have magnitude : (nanoseconds.tdiv 1000000000).natAbs = nanoseconds.natAbs / 1000000000 :=
      Int.natAbs_tdiv nanoseconds 1000000000
    simp only [Duration.Fits, Duration.seconds, Duration.limit, Duration.second] at fits ⊢
    omega
  rw [Duration.checked]
  exact if_pos inRange

/-- Parts without a sign are added up if their sum can be represented. -/
theorem sum?_eq_some {parts : List Int} :
    ∀ {total : Int}, 0 ≤ total → (∀ part ∈ parts, 0 ≤ part) →
      total + parts.sum < Duration.limit * Duration.second →
      Duration.sum? total parts = some (total + parts.sum) := by
  induction parts with
  | nil =>
      intro total _ _ _
      rw [List.sum_nil, Int.add_zero]
      rfl
  | cons part parts ih =>
      intro total nonneg parts_nonneg fits
      rw [List.forall_mem_cons] at parts_nonneg
      rw [List.sum_cons] at fits
      have rest : 0 ≤ parts.sum := List.sum_nonneg parts_nonneg.2
      have first : 0 ≤ part := parts_nonneg.1
      rw [Duration.sum?, checked_eq_some (by omega), checked_eq_some (by omega), List.sum_cons,
        ← Int.add_assoc]
      exact ih (by omega) parts_nonneg.2 (by omega)

def partsOf (days hours minutes seconds milliseconds : Nat) : DurationParts :=
  { days, hours, minutes, seconds, milliseconds, rest := 0 }

theorem ofParts?_eq_some (isNegative : Bool) {days hours minutes seconds milliseconds : Nat}
    (small : milliseconds < 1000)
    (fits : 86400 * days + 3600 * hours + 60 * minutes + seconds < Duration.limit) :
    Duration.ofParts? isNegative days hours minutes seconds milliseconds =
      some ⟨(if isNegative then -1 else 1) *
        (partsOf days hours minutes seconds milliseconds).nanoseconds⟩ := by
  have sum : Duration.sum? 0
      [days * 86400 * Duration.second, hours * 3600 * Duration.second,
        minutes * 60 * Duration.second, seconds * Duration.second, milliseconds * 1000000] =
      some (partsOf days hours minutes seconds milliseconds).nanoseconds := by
    rw [sum?_eq_some (Int.le_refl 0)]
    · congr 1
      simp only [partsOf, DurationParts.nanoseconds, Duration.second, List.sum_cons, List.sum_nil]
      omega
    · simp only [Duration.second, List.forall_mem_cons, List.not_mem_nil, false_implies,
        implies_true, and_true]
      omega
    · simp only [Duration.second, Duration.limit, List.sum_cons, List.sum_nil] at fits ⊢
      omega
  have signed : (if isNegative then
        -((partsOf days hours minutes seconds milliseconds).nanoseconds : Int)
      else (partsOf days hours minutes seconds milliseconds).nanoseconds) =
      (if isNegative then -1 else 1) *
        (partsOf days hours minutes seconds milliseconds).nanoseconds := by
    cases isNegative <;> simp
  rw [Duration.ofParts?, sum]
  refine (congrArg Duration.checked signed).trans (checked_eq_some ?_)
  simp only [partsOf, DurationParts.nanoseconds, Duration.limit, Duration.second] at fits ⊢
  split <;> omega

/-- The constant of a duration of parts in range shows these, with a minus sign if the duration
is negative. -/
theorem duration_of_inRange {value : Duration} {parts : DurationParts} (inRange : parts.InRange)
    (same : value.nanoseconds.natAbs = parts.nanoseconds) :
    duration value = constructed "__time_to_timespec"
      [if value.isNegative then "-1" else "1", decimal parts.milliseconds 6 parts.rest,
        toString parts.seconds, toString parts.minutes, toString parts.hours,
        toString parts.days] := by
  rw [duration, same, ofNanoseconds_nanoseconds inRange]

theorem duration_injective {value other : Duration} (same : duration other = duration value) :
    other = value := by
  have shown := shownIn_duration other
  rw [same] at shown
  have total := total_fieldsOf other
  rw [shown.unique (shownIn_duration value), total_fieldsOf value] at total
  have nanoseconds : (value.nanoseconds : ℚ) = other.nanoseconds := by linarith
  obtain ⟨number⟩ := value
  obtain ⟨number'⟩ := other
  rw [Duration.mk.injEq]
  exact_mod_cast nanoseconds.symm

/-- The constant of a duration shows a sign, which is negative exactly if the duration is, and
parts in range, which together are the duration; so different durations have different
constants.  A duration that is given by whole parts in range, and whose seconds can be
represented, has the constant that shows these parts; zero has no minus sign. -/
theorem duration_exact (value : Duration) :
    (∃ fields : DurationFields, fields.ShownIn (duration value) ∧ fields.InRange ∧
      (fields.isNegative = true ↔ value.nanoseconds < 0) ∧
      fields.total = value.nanoseconds / 1000000000) ∧
    (∀ other, duration other = duration value → other = value) ∧
    ∀ (isNegative : Bool) (days hours minutes seconds milliseconds : Nat),
      hours < 24 → minutes < 60 → seconds < 60 → milliseconds < 1000 →
      86400 * days + 3600 * hours + 60 * minutes + seconds < Duration.limit →
      ∃ made, Duration.ofParts? isNegative days hours minutes seconds milliseconds = some made ∧
        duration made = constructed "__time_to_timespec"
          [if isNegative = true ∧ 0 < days + hours + minutes + seconds + milliseconds then "-1"
            else "1", toString milliseconds, toString seconds, toString minutes, toString hours,
            toString days] := by
  refine ⟨⟨fieldsOf value, shownIn_duration value, inRange_fieldsOf value, decide_eq_true_iff,
    total_fieldsOf value⟩, fun other => duration_injective, ?_⟩
  intro isNegative days hours minutes seconds milliseconds hoursSmall minutesSmall secondsSmall
    millisecondsSmall fits
  have inRange : (partsOf days hours minutes seconds milliseconds).InRange :=
    ⟨hoursSmall, minutesSmall, secondsSmall, millisecondsSmall, Nat.zero_lt_succ _⟩
  refine ⟨_, ofParts?_eq_some isNegative millisecondsSmall fits, ?_⟩
  rw [duration_of_inRange inRange (by cases isNegative <;> simp)]
  have sign : (⟨(if isNegative then -1 else 1) *
        (partsOf days hours minutes seconds milliseconds).nanoseconds⟩ : Duration).isNegative =
      decide (isNegative = true ∧ 0 < days + hours + minutes + seconds + milliseconds) := by
    rw [Duration.isNegative, decide_eq_decide]
    cases isNegative <;> simp [partsOf, DurationParts.nanoseconds] <;> omega
  simp only [sign, decide_eq_true_eq]
  rfl

/-- The longest negative duration that can be represented, and the longest one of whole
milliseconds, by its parts. -/
theorem duration_exact_longest :
    (∃ fields : DurationFields,
      fields.ShownIn (duration ⟨-9223372036854775808999999999⟩) ∧ fields.InRange ∧
      (fields.isNegative = true ↔ (-9223372036854775808999999999 : Int) < 0) ∧
      fields.total = ((-9223372036854775808999999999 : Int) : ℚ) / 1000000000) ∧
    86400 * ((106751991167300 : Nat) : Int) + 3600 * (15 : Nat) + 60 * (30 : Nat) + (7 : Nat) <
      Duration.limit ∧
    ∃ made, Duration.ofParts? true (106751991167300 : Nat) (15 : Nat) (30 : Nat) (7 : Nat)
        (999 : Nat) = some made ∧
      duration made =
        "__time_to_timespec(-1, 999, 7, 30, 15, 106751991167300)" := by
  have exact := duration_exact ⟨-9223372036854775808999999999⟩
  refine ⟨exact.1, by decide, ?_⟩
  obtain ⟨made, isMade, shown⟩ := exact.2.2 true 106751991167300 15 30 7 999 (by decide) (by decide)
    (by decide) (by decide) (by decide)
  exact ⟨made, isMade, shown.trans (by decide +kernel)⟩

end StructuredText.Code.Literal
