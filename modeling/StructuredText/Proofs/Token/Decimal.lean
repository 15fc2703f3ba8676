import Mathlib.Data.List.TakeWhile
import Mathlib.Algebra.Order.Ring.Rat
import StructuredText.Proofs.Text.Positional
import StructuredText.Token.Binary64

/-!
# Decimal numbers exactly

A decimal number is read in parts: the digits before the point, those after it, and the
exponent.  The parts give its exact value.  Zeros in front lengthen the first part only, and
make no difference as long as a digit is left.
-/

set_option autoImplicit false

namespace StructuredText.Binary64

structure Parts where
  whole : List Char
  fraction : List Char
  /-- What follows the digits. -/
  suffix : List Char

def fractionOf : List Char → List Char × List Char
  | '.' :: rest => (rest.takeWhile Char.isDigit, rest.dropWhile Char.isDigit)
  | rest => ([], rest)

def parts (chars : List Char) : Parts :=
  let (fraction, suffix) := fractionOf (chars.dropWhile Char.isDigit)
  ⟨chars.takeWhile Char.isDigit, fraction, suffix⟩

namespace Parts

def mantissa (parts : Parts) : List Char := parts.whole ++ parts.fraction

/-- The mantissa as a number, and the power of ten that it is taken times. -/
def scaled? (parts : Parts) : Option (Nat × Int) := do
  let digits ← Text.readNat? 10 parts.mantissa
  let exponent ← exponent? parts.suffix
  return (digits, exponent - parts.fraction.length)

end Parts

def rational? (chars : List Char) : Option ℚ :=
  (parts chars).scaled?.map fun (digits, exponent) => digits * 10 ^ exponent

theorem fractionOf_of_no_point {chars : List Char} (noPoint : ∀ rest, chars ≠ '.' :: rest) :
    fractionOf chars = ([], chars) := by
  unfold fractionOf
  split
  next rest => exact absurd rfl (noPoint rest)
  next => rfl

theorem rational?_eq_some {chars : List Char} {value : ℚ} :
    rational? chars = some value ↔
      (parts chars).mantissa ≠ [] ∧ ∃ digits exponent,
        Text.positional? 10 0 (parts chars).mantissa = some digits ∧
        exponent? (parts chars).suffix = some exponent ∧
        (digits : ℚ) * 10 ^ (exponent - (parts chars).fraction.length) = value := by
  rw [rational?, Parts.scaled?]
  cases mantissa : (parts chars).mantissa with
  | nil => simp [Text.readNat?]
  | cons char rest => simp [Text.readNat?, Option.bind_eq_some_iff]

/-! ## Exponents -/

def signed? : List Char → Option Int
  | '-' :: digits => (Text.readNat? 10 digits).map fun value => -(value : Int)
  | '+' :: digits => (Text.readNat? 10 digits).map Int.ofNat
  | digits => (Text.readNat? 10 digits).map Int.ofNat

theorem exponent?_cons (mark : Char) (rest : List Char) :
    exponent? (mark :: rest) = if mark = 'e' ∨ mark = 'E' then signed? rest else none := by
  unfold exponent? signed?
  rfl

/-! ## Digits -/

theorem le_of_isDigit {char : Char} (isDigit : char.isDigit = true) : char.toNat ≤ '9'.toNat := by
  simp only [Char.isDigit, Bool.and_eq_true, decide_eq_true_eq] at isDigit
  exact UInt32.le_iff_toNat_le.mp isDigit.2

theorem isDigit_iff {char : Char} : char.isDigit = true ↔ Text.isDigitOf 10 char = true := by
  induction char using Text.char_cases with
  | ascii code low =>
      revert code
      decide
  | beyond char high =>
      refine iff_of_false (fun isDigit => ?_) (fun isDigit => ?_)
      · exact absurd (Nat.le_trans high (le_of_isDigit isDigit)) (by decide)
      · obtain ⟨digit, read⟩ := Option.isSome_iff_exists.mp isDigit
        have := Text.ascii_of_digitWeight? (Text.digitValue?_eq_some.mp read).1
        omega

theorem isDigit_of_positional? {base value total : Nat} (atMostTen : base ≤ 10) {chars : List Char}
    (read : Text.positional? base value chars = some total) :
    ∀ char ∈ chars, char.isDigit = true := by
  induction chars generalizing value with
  | nil => exact List.forall_mem_nil _
  | cons char chars ih =>
      obtain ⟨digit, weight, small, rest⟩ := Text.positional?_cons.mp read
      refine List.forall_mem_cons.mpr ⟨isDigit_iff.mpr ?_, ih rest⟩
      exact Option.isSome_iff_exists.mpr
        ⟨digit, Text.digitValue?_eq_some.mpr ⟨weight, Nat.lt_of_lt_of_le small atMostTen⟩⟩

theorem parts_of_isDigit {chars : List Char} (digits : ∀ char ∈ chars, char.isDigit = true) :
    parts chars = ⟨chars, [], []⟩ := by
  rw [parts, List.takeWhile_eq_self_iff.mpr digits, List.dropWhile_eq_nil_iff.mpr digits]
  rfl

theorem rational?_of_positional? {chars : List Char} {number : Nat} (nonempty : chars ≠ [])
    (read : Text.positional? 10 0 chars = some number) : rational? chars = some (number : ℚ) := by
  have digits := parts_of_isDigit (isDigit_of_positional? (Nat.le_refl 10) read)
  refine rational?_eq_some.mpr ⟨by simpa [digits, Parts.mantissa] using nonempty, number, 0, ?_⟩
  rw [digits, Parts.mantissa, List.append_nil]
  exact ⟨read, rfl, by simp⟩

/-- The numbers without a digit in the mantissa: an exponent alone, or a point between no
digits. -/
theorem mantissa_eq_nil_iff {chars : List Char} {exponent : Int}
    (power : exponent? (parts chars).suffix = some exponent) :
    (parts chars).mantissa = [] ↔
      chars = [] ∨ (∃ mark rest, (mark = 'e' ∨ mark = 'E') ∧ chars = mark :: rest) ∨
        ∃ rest, chars = '.' :: rest ∧ rest.takeWhile Char.isDigit = [] := by
  constructor
  · intro bare
    cases chars with
    | nil => exact .inl rfl
    | cons char rest =>
        by_cases isDigit : char.isDigit = true
        · simp [parts, Parts.mantissa, isDigit] at bare
        by_cases point : char = '.'
        · subst point
          exact .inr (.inr ⟨rest, rfl, bare⟩)
        have noPoint : ∀ rest', char :: rest ≠ '.' :: rest' := fun rest' same =>
          point (List.cons.inj same).1
        have suffix : (parts (char :: rest)).suffix = char :: rest := by
          simp [parts, isDigit, fractionOf_of_no_point noPoint]
        by_cases isMark : char = 'e' ∨ char = 'E'
        · exact .inr (.inl ⟨char, rest, isMark, rfl⟩)
        · rw [suffix, exponent?_cons, if_neg isMark] at power
          cases power
  · rintro (rfl | ⟨mark, rest, rfl | rfl, rfl⟩ | ⟨rest, rfl, noDigit⟩)
    · rfl
    · rfl
    · rfl
    · exact noDigit

/-! ## Zeros in front -/

theorem isDigit_zeros (count : Nat) : ∀ char ∈ List.replicate count '0', char.isDigit = true := by
  intro char member
  rw [List.eq_of_mem_replicate member]
  rfl

theorem parts_zeros (count : Nat) (chars : List Char) :
    parts (List.replicate count '0' ++ chars) =
      { parts chars with whole := List.replicate count '0' ++ (parts chars).whole } := by
  rw [parts, List.takeWhile_append_of_pos (isDigit_zeros count),
    List.dropWhile_append_of_pos (isDigit_zeros count)]
  rfl

/-- The value of digits alone is that of the digits behind the zeros. -/
theorem positional?_of_rational? {count : Nat} {chars : List Char} {value : ℚ}
    (digits : ∀ char ∈ chars, char.isDigit = true)
    (read : rational? (List.replicate count '0' ++ chars) = some value) :
    ∃ number, Text.positional? 10 0 chars = some number ∧ (number : ℚ) = value := by
  obtain ⟨-, number, exponent, found, power, total⟩ := rational?_eq_some.mp read
  rw [parts_zeros, parts_of_isDigit digits] at found power total
  obtain rfl : 0 = exponent := Option.some.inj power
  rw [Parts.mantissa, List.append_nil, Text.positional?_zeros (by decide)] at found
  exact ⟨number, found, by simpa using total⟩

theorem rational?_zeros {count : Nat} {chars : List Char} {value : ℚ}
    (read : rational? (List.replicate count '0' ++ chars) = some value)
    (digit : (parts chars).mantissa ≠ []) : rational? chars = some value := by
  obtain ⟨-, digits, exponent, number, power, total⟩ := rational?_eq_some.mp read
  rw [parts_zeros] at number power total
  rw [Parts.mantissa, List.append_assoc, Text.positional?_zeros (by decide)] at number
  exact rational?_eq_some.mpr ⟨digit, digits, exponent, number, power, total⟩

/-! ## Capital letters -/

theorem isDigit_comp_toUpper : Char.isDigit ∘ Char.toUpper = Char.isDigit := by
  funext char
  rw [Function.comp_apply, Bool.eq_iff_iff, isDigit_iff, isDigit_iff, Text.isDigitOf,
    Text.digitValue?_toUpper, Text.isDigitOf]

theorem map_toUpper_of_isDigit {chars : List Char} (digits : ∀ char ∈ chars, char.isDigit = true) :
    chars.map Char.toUpper = chars := by
  conv_rhs => rw [← List.map_id chars]
  exact List.map_congr_left fun char member =>
    Text.toUpper_of_not_lower (.inl (Nat.lt_of_le_of_lt (le_of_isDigit (digits char member))
      (by decide)))

theorem exists_of_map_toUpper {chars rest : List Char} {mark : Char}
    (isMark : mark ∈ ['.', '-', '+']) (upper : chars.map Char.toUpper = mark :: rest) :
    ∃ rest', chars = mark :: rest' := by
  obtain ⟨char, rest', rfl, head, -⟩ := List.map_eq_cons_iff.mp upper
  exact ⟨rest', by rw [(Text.toUpper_eq_mark_iff isMark).mp head]⟩

theorem signed?_toUpper (chars : List Char) :
    signed? (chars.map Char.toUpper) = signed? chars := by
  have kept {mark : Char} (isMark : mark ∈ ['.', '-', '+']) : mark.toUpper = mark :=
    (Text.toUpper_eq_mark_iff isMark).mpr rfl
  fun_cases signed? chars with
  | case1 digits => rw [List.map_cons, kept (by decide), signed?, Text.readNat?_toUpper]
  | case2 digits => rw [List.map_cons, kept (by decide), signed?, Text.readNat?_toUpper]
  | case3 digits noMinus noPlus =>
      have noSign {mark : Char} (isMark : mark ∈ ['.', '-', '+'])
          (none : ∀ digits, chars = mark :: digits → False) (digits : List Char) :
          chars.map Char.toUpper ≠ mark :: digits := fun upper =>
        have ⟨rest, same⟩ := exists_of_map_toUpper isMark upper
        none rest same
      rw [signed?, Text.readNat?_toUpper]
      · exact noSign (by decide) noMinus
      · exact noSign (by decide) noPlus

theorem exponent?_toUpper (chars : List Char) :
    exponent? (chars.map Char.toUpper) = exponent? chars := by
  cases chars with
  | nil => rfl
  | cons mark rest =>
      rw [List.map_cons, exponent?_cons, exponent?_cons, signed?_toUpper]
      simp only [Text.toUpper_eq_exponent_iff]

theorem takeWhile_toUpper (chars : List Char) :
    (chars.map Char.toUpper).takeWhile Char.isDigit = chars.takeWhile Char.isDigit := by
  rw [List.takeWhile_map, isDigit_comp_toUpper]
  exact map_toUpper_of_isDigit fun char member => List.mem_takeWhile_imp member

theorem dropWhile_toUpper (chars : List Char) :
    (chars.map Char.toUpper).dropWhile Char.isDigit =
      (chars.dropWhile Char.isDigit).map Char.toUpper := by
  rw [List.dropWhile_map, isDigit_comp_toUpper]

theorem fractionOf_toUpper (chars : List Char) :
    fractionOf (chars.map Char.toUpper) =
      ((fractionOf chars).1, (fractionOf chars).2.map Char.toUpper) := by
  fun_cases fractionOf chars with
  | case1 rest =>
      rw [List.map_cons, (Text.toUpper_eq_mark_iff (by decide)).mpr rfl, fractionOf,
        takeWhile_toUpper, dropWhile_toUpper]
  | case2 rest noPoint =>
      refine fractionOf_of_no_point fun rest upper => ?_
      obtain ⟨rest', same⟩ := exists_of_map_toUpper (by decide) upper
      exact noPoint rest' same

theorem parts_toUpper (chars : List Char) :
    parts (chars.map Char.toUpper) =
      { parts chars with suffix := (parts chars).suffix.map Char.toUpper } := by
  rw [parts, takeWhile_toUpper, dropWhile_toUpper, fractionOf_toUpper]
  rfl

theorem rational?_toUpper (chars : List Char) :
    rational? (chars.map Char.toUpper) = rational? chars := by
  rw [rational?, parts_toUpper, Parts.scaled?, exponent?_toUpper]
  rfl

theorem ascii_of_signed? {chars : List Char} {value : Int} (read : signed? chars = some value) :
    ∀ char ∈ chars, char.toNat < 0x80 := by
  have digits {chars : List Char} {value : Nat} (read : Text.readNat? 10 chars = some value) :
      ∀ char ∈ chars, char.toNat < 0x80 := by
    cases chars with
    | nil => exact List.forall_mem_nil _
    | cons char chars => exact Text.ascii_of_positional? read
  unfold signed? at read
  split at read <;> obtain ⟨magnitude, read, -⟩ := Option.map_eq_some_iff.mp read
  · obtain ⟨digitsValue, read, -⟩ := Option.bind_eq_some_iff.mp read
    exact List.forall_mem_cons.mpr ⟨by decide, digits read⟩
  · exact List.forall_mem_cons.mpr ⟨by decide, digits read⟩
  · exact digits read

theorem ascii_of_exponent? {chars : List Char} {value : Int}
    (read : exponent? chars = some value) : ∀ char ∈ chars, char.toNat < 0x80 := by
  cases chars with
  | nil => exact List.forall_mem_nil _
  | cons mark rest =>
      rw [exponent?_cons] at read
      split at read
      next isMark =>
        refine List.forall_mem_cons.mpr ⟨?_, ascii_of_signed? read⟩
        rcases isMark with rfl | rfl <;> decide
      next => cases read

theorem mem_parts {chars : List Char} {char : Char} (member : char ∈ chars) :
    char = '.' ∨ char.isDigit = true ∨ char ∈ (parts chars).suffix := by
  have inFraction {chars : List Char} (member : char ∈ chars) :
      char = '.' ∨ char.isDigit = true ∨ char ∈ (fractionOf chars).2 := by
    fun_cases fractionOf chars with
    | case1 rest =>
        refine (List.mem_cons.mp member).imp_right fun member => ?_
        rw [← List.takeWhile_append_dropWhile (p := Char.isDigit) (l := rest)] at member
        exact (List.mem_append.mp member).imp_left List.mem_takeWhile_imp
    | case2 => exact .inr (.inr member)
  rw [← List.takeWhile_append_dropWhile (p := Char.isDigit) (l := chars)] at member
  rcases List.mem_append.mp member with inWhole | behind
  · exact .inr (.inl (List.mem_takeWhile_imp inWhole))
  · exact inFraction behind

theorem ascii_of_rational? {chars : List Char} {value : ℚ} (read : rational? chars = some value) :
    ∀ char ∈ chars, char.toNat < 0x80 := by
  obtain ⟨-, -, exponent, -, power, -⟩ := rational?_eq_some.mp read
  intro char member
  rcases mem_parts member with rfl | isDigit | inSuffix
  · decide
  · exact Nat.lt_of_le_of_lt (le_of_isDigit isDigit) (by decide)
  · exact ascii_of_exponent? power char inSuffix

end StructuredText.Binary64
