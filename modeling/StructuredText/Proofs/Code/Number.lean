import StructuredText.Proofs.Code.Nibble
import StructuredText.Proofs.Token.Decimal
import StructuredText.Proofs.Token.Integer

/-!
# The values of numeric constants

A numeric constant of generated code is read by the rules of C: sixteen is the base after
`0x`, eight after another zero in front of digits alone, and ten otherwise.  A token and
its constant are the same number unless the zeros in front of the token end at a gap or an
exponent mark.  The gap keeps the zeros behind it, which then announce base eight; and a
mantissa of zeros is left out altogether.
-/

set_option autoImplicit false

namespace StructuredText.Code.Literal

/-! ## Constants of generated code -/

def natural? : List Char → Option Nat
  | '0' :: digits => Text.positional? 8 0 digits
  | digits => Text.readNat? 10 digits

/-- The value of an unsigned numeric constant without a suffix. -/
def value? : List Char → Option ℚ
  | '0' :: 'x' :: digits => (Text.readNat? 16 digits).map Nat.cast
  | '0' :: 'X' :: digits => (Text.readNat? 16 digits).map Nat.cast
  | chars =>
      if chars.all Char.isDigit then (natural? chars).map Nat.cast else Binary64.rational? chars

theorem value?_hex (digits : String) :
    value? ("0x" ++ digits).toList = (Text.readNat? 16 digits.toList).map Nat.cast := by
  rw [String.toList_append]
  rfl

theorem value?_of_digits {chars : List Char} (digits : chars.all Char.isDigit = true) :
    value? chars = (natural? chars).map Nat.cast := by
  unfold value?
  split
  next => simp at digits
  next => simp at digits
  next => rw [if_pos digits]

theorem value?_of_rational? {chars : List Char} {value : ℚ}
    (read : Binary64.rational? chars = some value) (others : chars.all Char.isDigit ≠ true) :
    value? chars = some value := by
  unfold value?
  split
  next => cases read
  next => cases read
  next => rw [if_neg others, read]

theorem value?_of_bare {chars : List Char} (bare : (Binary64.parts chars).mantissa = []) :
    value? chars = none := by
  unfold value?
  split
  next => cases bare
  next => cases bare
  next =>
    split
    next digits =>
      cases chars with
      | nil => rfl
      | cons char chars =>
          have isDigit : char.isDigit = true := by simp_all
          simp [Binary64.parts, Binary64.Parts.mantissa, isDigit] at bare
    next => simp [Binary64.rational?, Binary64.Parts.scaled?, bare, Text.readNat?]

theorem map_cast_eq_some_iff {number? : Option Nat} {number : Nat} :
    number?.map (Nat.cast : Nat → ℚ) = some (number : ℚ) ↔ number? = some number := by
  simp

/-- A number whose constant repeats it without some of the zeros in front. -/
theorem value?_toUpper_iff {count : Nat} {chars : List Char} {value : ℚ}
    (read : Binary64.rational? (List.replicate count '0' ++ chars) = some value) :
    value? (chars.map Char.toUpper) = some value ↔
      (Binary64.parts chars).mantissa ≠ [] ∧
        ∀ rest, chars = '0' :: rest → rest.all Char.isDigit = true → value < 8 := by
  by_cases bare : (Binary64.parts chars).mantissa = []
  · have upper : (Binary64.parts (chars.map Char.toUpper)).mantissa = [] := by
      rw [Binary64.parts_toUpper]
      exact bare
    simp [value?_of_bare upper, bare]
  have exact := Binary64.rational?_zeros read bare
  by_cases digits : chars.all Char.isDigit = true
  · have eachDigit := List.all_eq_true.mp digits
    obtain ⟨number, positional, rfl⟩ := Binary64.positional?_of_rational? eachDigit read
    rw [Binary64.map_toUpper_of_isDigit eachDigit, value?_of_digits digits]
    cases chars with
    | nil => exact absurd rfl bare
    | cons char rest =>
        rw [map_cast_eq_some_iff]
        by_cases zero : char = '0'
        · subst zero
          -- the rest is all digits, so that the bound is what decides
          have octal : Text.positional? 8 0 rest = some number ↔ number < 8 :=
            Text.positional?_eq_iff_lt (by decide) (by decide)
              ((Text.positional?_zeros (by decide) 1 rest).symm.trans positional)
          refine octal.trans ⟨fun small => ⟨bare, fun _ _ _ => by exact_mod_cast small⟩, ?_⟩
          rintro ⟨-, bound⟩
          exact_mod_cast bound rest rfl (by simpa using digits)
        · have decimal : natural? (char :: rest) = Text.readNat? 10 (char :: rest) := by
            unfold natural?
            split
            next same => exact absurd (List.cons.inj same).1 zero
            next => rfl
          exact iff_of_true (decimal.trans positional)
            ⟨bare, fun rest' same => absurd (List.cons.inj same).1 zero⟩
  · have upper := (Binary64.rational?_toUpper chars).trans exact
    have others : (chars.map Char.toUpper).all Char.isDigit ≠ true := by
      rwa [List.all_map, Binary64.isDigit_comp_toUpper]
    refine iff_of_true (value?_of_rational? upper others) ⟨bare, fun rest same isDigit => ?_⟩
    rw [same, List.all_cons, isDigit] at digits
    exact absurd rfl digits

/-! ## What is left of a token -/

def zeros (text : String) : List Char := text.toList.takeWhile (· == '0')

def afterZeros (text : String) : List Char := text.toList.dropWhile (· == '0')

def kept (text : String) : List Char := (afterZeros text).filter (· != '_')

def lastZero (text : String) : List Char :=
  if zeros text ≠ [] ∧ (afterZeros text = [] ∨ (afterZeros text).head? = some '.') then ['0']
  else []

theorem zeros_eq (text : String) : zeros text = List.replicate (zeros text).length '0' :=
  List.eq_replicate_of_mem fun char member => by simpa using List.mem_takeWhile_imp member

theorem significant_eq (text : String) :
    IntegerToken.significant text = zeros text ++ kept text := by
  have noGap : (zeros text).filter (· != '_') = zeros text := by
    rw [zeros_eq]
    exact List.filter_replicate_of_pos (by decide)
  rw [kept, ← noGap, ← List.filter_append]
  exact congrArg _ (List.takeWhile_append_dropWhile.symm)

theorem dropZeros_eq (text : String) :
    dropZeros text.toList = lastZero text ++ afterZeros text := by
  unfold lastZero zeros afterZeros
  generalize text.toList = chars
  fun_induction dropZeros chars with
  | case1 rest => simp
  | case2 next rest noPoint ih =>
      rw [ih]
      by_cases zero : next = '0'
      · simp [zero]
      · simp [zero, noPoint]
  | case3 chars short =>
      cases chars with
      | nil => rfl
      | cons char rest =>
          by_cases zero : char = '0'
          · cases rest with
            | nil => simp [zero]
            | cons next rest => exact absurd (zero ▸ rfl) (short next rest)
          · simp [zero]

def repeated (text : String) : List Char := lastZero text ++ kept text

theorem plain_eq (text : String) :
    plain text = String.ofList (Text.capitals (repeated text)) := by
  have noGap : (lastZero text).filter (· != '_') = lastZero text := by
    unfold lastZero
    split <;> rfl
  rw [plain, dropZeros_eq, List.filter_append, noGap, repeated, kept]

theorem significant_eq_repeated (text : String) :
    ∃ count, IntegerToken.significant text = List.replicate count '0' ++ repeated text := by
  rw [significant_eq, zeros_eq, repeated, lastZero]
  split
  next stays =>
    obtain ⟨count, length⟩ := Nat.exists_eq_succ_of_ne_zero (mt List.length_eq_zero_iff.mp stays.1)
    refine ⟨count, ?_⟩
    rw [length, Nat.succ_eq_add_one, List.replicate_succ', List.append_assoc]
  next => exact ⟨_, rfl⟩

/-! ## Tokens whose constants are other numbers -/

/-- Nothing is left of zeros that end in a gap, as in `0_`. -/
def IsLost (text : String) : Prop := afterZeros text ≠ [] ∧ kept text = []

inductive IsSpoilt (text : String) : Prop
  | lost (lost : IsLost text)
  /-- A mantissa of zeros is left out, as in `0e5` and `0_e5`. -/
  | exponent {mark : Char} {rest : List Char} (isMark : mark = 'e' ∨ mark = 'E')
      (left : kept text = mark :: rest)
  /-- The zeros that stand for the whole part are left out, as in `0_.`. -/
  | point {rest : List Char} (gap : (afterZeros text).head? = some '_')
      (left : kept text = '.' :: rest) (noDigit : rest.takeWhile Char.isDigit = [])
  /-- A zero behind the gap announces base eight, as in `0_010`. -/
  | octal {rest : List Char} {number : Nat} (left : kept text = '0' :: rest)
      (read : Text.positional? 10 0 rest = some number) (large : 8 ≤ number)

/-- A token whose last zero stays: nothing follows it but a point. -/
theorem kept_of_stays {text : String}
    (stays : afterZeros text = [] ∨ (afterZeros text).head? = some '.') :
    afterZeros text = [] ∧ kept text = [] ∨
      (afterZeros text).head? = some '.' ∧ ∃ rest, kept text = '.' :: rest := by
  rcases stays with ended | point
  · exact .inl ⟨ended, by rw [kept, ended, List.filter_nil]⟩
  · obtain ⟨rest, start⟩ := List.head?_eq_some_iff.mp point
    exact .inr ⟨point, _, by rw [kept, start]; rfl⟩

theorem not_isSpoilt_of_stays {text : String}
    (stays : afterZeros text = [] ∨ (afterZeros text).head? = some '.') : ¬ IsSpoilt text := by
  have ends := kept_of_stays stays
  rintro (⟨gap, nothing⟩ | ⟨rfl | rfl, left⟩ | ⟨gap, -, -⟩ | ⟨left, -, -⟩) <;> simp_all

/-- Where the zero that stays is followed by digits alone, there are none. -/
theorem eq_zero_of_stays {text : String} {value : ℚ}
    (read : Binary64.rational? (zeros text ++ kept text) = some value)
    (stays : afterZeros text = [] ∨ (afterZeros text).head? = some '.')
    (digits : (kept text).all Char.isDigit = true) : value = 0 := by
  rw [zeros_eq] at read
  rcases kept_of_stays stays with ⟨-, ended⟩ | ⟨-, rest, point⟩
  · rw [ended] at read
    obtain ⟨number, zero, rfl⟩ := Binary64.positional?_of_rational? (List.forall_mem_nil _) read
    obtain rfl : 0 = number := Option.some.inj zero
    rfl
  · rw [point] at digits
    cases digits

theorem positional?_of_kept {text : String} {value : ℚ} {rest : List Char}
    (read : Binary64.rational? (zeros text ++ kept text) = some value)
    (left : kept text = '0' :: rest) (digits : ∀ char ∈ rest, char.isDigit = true) :
    ∃ number : Nat, Text.positional? 10 0 rest = some number ∧ (number : ℚ) = value := by
  rw [zeros_eq, left, ← List.singleton_append, ← List.append_assoc, ← List.replicate_succ'] at read
  exact Binary64.positional?_of_rational? digits read

/-- What is left begins with a point behind a gap only, where no zero stays. -/
theorem gap_of_point {text : String} {rest : List Char}
    (noPoint : (afterZeros text).head? ≠ some '.') (left : kept text = '.' :: rest) :
    (afterZeros text).head? = some '_' := by
  rw [kept] at left
  cases start : afterZeros text with
  | nil => simp [start] at left
  | cons char following =>
      by_cases gap : char = '_'
      · rw [gap, List.head?_cons]
      · rw [start, List.filter_cons_of_pos (by simpa using gap)] at left
        rw [start, List.head?_cons, (List.cons.inj left).1] at noPoint
        exact absurd rfl noPoint

theorem isSpoilt_iff {text : String} {value : ℚ}
    (read : Binary64.rational? (IntegerToken.significant text) = some value) :
    IsSpoilt text ↔
      (Binary64.parts (repeated text)).mantissa = [] ∨
        ∃ rest, repeated text = '0' :: rest ∧ rest.all Char.isDigit = true ∧ 8 ≤ value := by
  rw [significant_eq] at read
  by_cases stays : zeros text ≠ [] ∧ (afterZeros text = [] ∨ (afterZeros text).head? = some '.')
  · rw [repeated, lastZero, if_pos stays, List.singleton_append]
    refine iff_of_false (not_isSpoilt_of_stays stays.2) ?_
    rintro (bare | ⟨rest, same, digits, large⟩)
    · simp [Binary64.parts, Binary64.Parts.mantissa] at bare
    · obtain rfl : kept text = rest := (List.cons.inj same).2
      rw [eq_zero_of_stays read stays.2 digits] at large
      exact absurd (by exact_mod_cast large : 8 ≤ 0) (by decide)
  · rw [repeated, lastZero, if_neg stays, List.nil_append]
    have behind {rest : List Char} (left : kept text = '0' :: rest) :=
      positional?_of_kept read left
    rw [zeros_eq] at read
    obtain ⟨digit, _, exponent, -, power, -⟩ := Binary64.rational?_eq_some.mp read
    rw [Binary64.parts_zeros] at digit power
    rw [Binary64.mantissa_eq_nil_iff power]
    constructor
    · rintro (⟨-, nothing⟩ | ⟨isMark, left⟩ | ⟨-, left, noDigit⟩ | ⟨left, positional, large⟩)
      · exact .inl (.inl nothing)
      · exact .inl (.inr (.inl ⟨_, _, isMark, left⟩))
      · exact .inl (.inr (.inr ⟨_, left, noDigit⟩))
      · have eachDigit := Binary64.isDigit_of_positional? (Nat.le_refl 10) positional
        obtain ⟨number, positional', rfl⟩ := behind left eachDigit
        obtain rfl := Option.some.inj (positional'.symm.trans positional)
        exact .inr ⟨_, left, List.all_eq_true.mpr eachDigit, by exact_mod_cast large⟩
    · -- a token that is read has a digit, in front if what is left has none
      have front (bare : (Binary64.parts (kept text)).mantissa = []) : zeros text ≠ [] := by
        intro none
        rw [Binary64.Parts.mantissa, none] at digit
        exact digit bare
      rintro ((nothing | ⟨mark, rest, isMark, left⟩ | ⟨rest, left, noDigit⟩) |
        ⟨rest, left, digits, large⟩)
      · exact .lost ⟨fun ended => stays ⟨front (by rw [nothing]; rfl), .inl ended⟩, nothing⟩
      · exact .exponent isMark left
      · have noPoint : (afterZeros text).head? ≠ some '.' := fun point =>
          stays ⟨front (left ▸ noDigit), .inr point⟩
        exact .point (gap_of_point noPoint left) left noDigit
      · obtain ⟨number, positional, rfl⟩ := behind left (List.all_eq_true.mp digits)
        exact .octal left positional (by exact_mod_cast large)

theorem plain_value_iff {text : String} {value : ℚ}
    (read : Binary64.rational? (IntegerToken.significant text) = some value) :
    value? (plain text).toList = some value ↔ ¬ IsSpoilt text := by
  obtain ⟨count, zeros⟩ := significant_eq_repeated text
  have ascii : ∀ char ∈ repeated text, char.toNat < 0x80 := fun char member =>
    Binary64.ascii_of_rational? read char (zeros ▸ List.mem_append_right _ member)
  rw [plain_eq, String.toList_ofList, Text.capitals_of_ascii ascii,
    value?_toUpper_iff (zeros ▸ read), isSpoilt_iff read]
  push Not
  rfl

/-! ## Integers -/

def IsSpoiltInteger (token : IntegerToken) : Prop :=
  match token.radix with
  | .decimal => IsSpoilt token.digits
  | .hex => IsLost token.digits
  | .octal | .binary => False

theorem repeated_eq_nil_iff {text : String} (nonempty : IntegerToken.significant text ≠ []) :
    repeated text = [] ↔ IsLost text := by
  rw [repeated, List.append_eq_nil_iff, IsLost, lastZero]
  constructor
  · rintro ⟨leaves, left⟩
    refine ⟨fun ended => ?_, left⟩
    rw [significant_eq, left, List.append_nil] at nonempty
    rw [if_pos ⟨nonempty, .inl ended⟩] at leaves
    cases leaves
  · rintro ⟨gap, left⟩
    refine ⟨if_neg ?_, left⟩
    rintro ⟨-, stays⟩
    rcases kept_of_stays stays with ⟨ended, -⟩ | ⟨-, rest, point⟩
    · exact gap ended
    · rw [left] at point
      cases point

theorem zero_or_one_of_isDigitOf {char : Char} (bit : Text.isDigitOf 2 char = true) :
    char = '0' ∨ char = '1' := by
  induction char using Text.char_cases with
  | ascii code low =>
      revert code
      decide
  | beyond char high =>
      obtain ⟨digit, read⟩ := Option.isSome_iff_exists.mp bit
      have := Text.ascii_of_digitWeight? (Text.digitValue?_eq_some.mp read).1
      omega

theorem integer_value_iff {radix : Radix} {text : String} {token : IntegerToken}
    (accepted : IntegerToken.ofDigits radix text = .ok token) :
    ∃ number : Nat, token.magnitude? = some number ∧
      (value? (integer token).toList = some (number : ℚ) ↔ ¬ IsSpoiltInteger token) := by
  obtain ⟨rfl, nonempty, digits⟩ := IntegerToken.ofDigits_ok accepted
  obtain ⟨number, read⟩ := Text.exists_positional? digits 0
  obtain ⟨count, zeros⟩ := significant_eq_repeated text
  refine ⟨number, (IntegerToken.magnitude?_of_ofDigits accepted).trans read, ?_⟩
  have upper : (plain text).toList = (repeated text).map Char.toUpper := by
    rw [plain_eq, String.toList_ofList, Text.capitals_of_ascii]
    exact fun char member =>
      Text.ascii_of_positional? read char (zeros ▸ List.mem_append_right _ member)
  unfold IsSpoiltInteger integer
  cases radix with
  | decimal => exact plain_value_iff (Binary64.rational?_of_positional? nonempty read)
  | binary =>
      have binary : ∀ char ∈ IntegerToken.significant text, char = '0' ∨ char = '1' :=
        fun char member => zero_or_one_of_isDigitOf (digits char member)
      obtain rfl : bitValue (bits text) = number :=
        Option.some.inj ((positional?_bits binary 0).symm.trans read)
      refine iff_of_true ?_ not_false
      dsimp only
      rw [hexOfBinary_eq, value?_hex, String.toList_ofList, readNat?_hexDigits, Option.map_some]
  | octal =>
      have octal : Text.positional? 8 0 (repeated text) = some number := by
        rwa [zeros, Text.positional?_zeros (by decide)] at read
      have isDigit := Binary64.isDigit_of_positional? (by decide) octal
      refine iff_of_true ?_ not_false
      rw [String.toList_append, upper, Binary64.map_toUpper_of_isDigit isDigit]
      refine (value?_of_digits (List.all_eq_true.mpr ?_)).trans (congrArg _ octal)
      exact List.forall_mem_cons.mpr ⟨rfl, isDigit⟩
  | hex =>
      dsimp only
      rw [value?_hex, upper, Text.readNat?_toUpper, map_cast_eq_some_iff,
        ← repeated_eq_nil_iff nonempty]
      by_cases nothing : repeated text = []
      · exact iff_of_false (by simp [nothing, Text.readNat?]) (not_not_intro nothing)
      · rw [zeros, Text.positional?_zeros (by decide)] at read
        exact iff_of_true ((Text.readNat?_of_ne_nil nothing).trans read) nothing

/-! ## Constants -/

structure Number where
  isNegative : Bool
  type : Option Elementary
  magnitude : ℚ

/-- The number that a constant stands for in its own radix. -/
def number? : Constant → Option Number
  | .integer token type =>
      token.value.magnitude?.map fun magnitude => ⟨token.isNegative, type, magnitude⟩
  | .bitString token type => token.magnitude?.map fun magnitude => ⟨false, type, magnitude⟩
  | .real token =>
      (Binary64.rational? (IntegerToken.significant token.text)).map fun magnitude =>
        ⟨token.isNegative, token.type, magnitude⟩
  | _ => none

/-- The constants of accepted tokens of numbers; a real token may also be a word. -/
inductive IsNumber : Constant → Prop
  | integer {radix : Radix} {text : String} {token : IntegerToken}
      (accepted : IntegerToken.ofDigits radix text = .ok token) (isNegative : Bool)
      (type : Option Elementary) : IsNumber (.integer ⟨token, isNegative⟩ type)
  | bitString {radix : Radix} {text : String} {token : IntegerToken}
      (accepted : IntegerToken.ofDigits radix text = .ok token) (type : Option Elementary) :
      IsNumber (.bitString token type)
  | real {text : String} {type : Option Elementary} {token : RealToken}
      (accepted : RealToken.parse text type = .ok token)
      (decimal : (Binary64.rational? (IntegerToken.significant token.text)).isSome) :
      IsNumber (.real token)

/-- The constants that are not read as their numbers. -/
def IsSpoiltConstant : Constant → Prop
  | .integer token _ => IsSpoiltInteger token.value
  | .bitString token _ => IsSpoiltInteger token
  | .real token => IsSpoilt token.text
  | _ => False

/-- The magnitude of a number is read back from generated code exactly, unless the zeros in
front of its token end at a gap or an exponent mark and were needed. -/
theorem constant_value_iff {value : Constant} (isNumber : IsNumber value) :
    ∃ number body, number? value = some number ∧
      constant value = .ok (typed number.type (sign number.isNegative ++ body)) ∧
      (value? body.toList = some number.magnitude ↔ ¬ IsSpoiltConstant value) := by
  cases isNumber with
  | @integer _ _ token accepted isNegative type =>
      obtain ⟨number, magnitude, value⟩ := integer_value_iff accepted
      exact ⟨⟨isNegative, type, number⟩, integer token, by rw [number?, magnitude]; rfl, rfl, value⟩
  | @bitString _ _ token accepted type =>
      obtain ⟨number, magnitude, value⟩ := integer_value_iff accepted
      refine ⟨⟨false, type, number⟩, integer token, by rw [number?, magnitude]; rfl, ?_, value⟩
      rw [constant, sign, if_neg Bool.false_ne_true, String.empty_append]
  | @real _ _ token _ decimal =>
      obtain ⟨magnitude, exact⟩ := Option.isSome_iff_exists.mp decimal
      exact ⟨⟨token.isNegative, token.type, magnitude⟩, plain token.text,
        by rw [number?, exact]; rfl, rfl, plain_value_iff exact⟩

def gappedTen : IntegerToken := ⟨"0_010", .decimal⟩

theorem constant_value_iff_gapped :
    IntegerToken.ofDigits .decimal "0_010" = .ok gappedTen ∧
      ∃ number body, number? (.integer ⟨gappedTen, true⟩ (some .int)) = some number ∧
        constant (.integer ⟨gappedTen, true⟩ (some .int)) =
          .ok (typed number.type (sign number.isNegative ++ body)) ∧
        value? body.toList ≠ some number.magnitude := by
  have accepted : IntegerToken.ofDigits .decimal "0_010" = .ok gappedTen := by decide +kernel
  have left : kept gappedTen.digits = ['0', '1', '0'] := by decide +kernel
  have spoilt : IsSpoilt gappedTen.digits := .octal left (by decide : _ = some 10) (by decide)
  obtain ⟨number, body, exact, written, value⟩ :=
    constant_value_iff (.integer accepted true (some .int))
  exact ⟨accepted, number, body, exact, written, fun same => value.mp same spoilt⟩

theorem gapped_ten_misread :
    IntegerToken.ofDigits .decimal "0_010" = .ok gappedTen ∧ gappedTen.magnitude? = some 10 ∧
      constant (.integer ⟨gappedTen, false⟩) = .ok "010" ∧ value? "010".toList = some 8 := by
  have written : integer gappedTen = "010" := by decide +kernel
  refine ⟨by decide +kernel, by decide +kernel, ?_, rfl⟩
  rw [constant, typed, signed, sign, if_neg Bool.false_ne_true, String.empty_append, written]

end StructuredText.Code.Literal
