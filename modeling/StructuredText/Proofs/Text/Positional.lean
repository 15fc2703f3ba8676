import StructuredText.Text.Capital
import StructuredText.Text.Digit

/-!
# Numbers in digits

A run of digits is read from the left, each digit after the value of those before it.  Zeros
in front and the case of letters make no difference to what is read.
-/

set_option autoImplicit false

namespace StructuredText.Text

variable {base : Nat}

theorem positional?_append (first second : List Char) (value : Nat) :
    positional? base value (first ++ second) =
      (positional? base value first).bind fun middle => positional? base middle second := by
  induction first generalizing value with
  | nil => rfl
  | cons char first ih =>
      rw [List.cons_append, positional?, positional?, Option.bind_assoc]
      congr 1
      funext digit
      exact ih _

theorem readNat?_of_ne_nil {chars : List Char} (nonempty : chars ≠ []) :
    readNat? base chars = positional? base 0 chars := by
  cases chars with
  | nil => exact absurd rfl nonempty
  | cons char chars => rfl

theorem digitValue?_eq_some {char : Char} {digit : Nat} :
    digitValue? base char = some digit ↔ digitWeight? char = some digit ∧ digit < base := by
  simp [digitValue?, Option.filter_eq_some_iff]

theorem positional?_cons {char : Char} {chars : List Char} {value total : Nat} :
    positional? base value (char :: chars) = some total ↔
      ∃ digit, digitWeight? char = some digit ∧ digit < base ∧
        positional? base (value * base + digit) chars = some total := by
  simp [positional?, Option.bind_eq_some_iff, digitValue?_eq_some, and_assoc]

theorem exists_positional? {chars : List Char} (digits : ∀ char ∈ chars, isDigitOf base char)
    (value : Nat) : ∃ total, positional? base value chars = some total := by
  induction chars generalizing value with
  | nil => exact ⟨value, rfl⟩
  | cons char chars ih =>
      obtain ⟨isDigit, digits⟩ := List.forall_mem_cons.mp digits
      obtain ⟨digit, read⟩ := Option.isSome_iff_exists.mp isDigit
      obtain ⟨total, found⟩ := ih digits (value * base + digit)
      exact ⟨total, by rw [positional?, read, Option.bind_some, found]⟩

/-! ## Zeros in front -/

theorem positional?_zeros (positive : 0 < base) (count : Nat) (chars : List Char) :
    positional? base 0 (List.replicate count '0' ++ chars) = positional? base 0 chars := by
  have zero : digitValue? base '0' = some 0 := digitValue?_eq_some.mpr ⟨by decide, positive⟩
  induction count with
  | zero => rfl
  | succ count ih =>
      rw [List.replicate_succ, List.cons_append, positional?, zero, Option.bind_some, Nat.zero_mul]
      exact ih

/-! ## Letters -/

/-- What holds of the ASCII characters and of those beyond holds of all. -/
theorem char_cases {motive : Char → Prop} (ascii : ∀ code < 0x80, motive (Char.ofNat code))
    (beyond : ∀ char : Char, 0x80 ≤ char.toNat → motive char) (char : Char) : motive char := by
  rcases Nat.lt_or_ge char.toNat 0x80 with low | high
  · exact Char.ofNat_toNat char ▸ ascii char.toNat low
  · exact beyond char high

theorem toUpper_of_not_lower {char : Char}
    (outside : char.toNat < 'a'.toNat ∨ 'z'.toNat < char.toNat) : char.toUpper = char := by
  unfold Char.toUpper
  rw [dif_neg]
  rintro ⟨first, last⟩
  have first : 'a'.toNat ≤ char.toNat := UInt32.le_iff_toNat_le.mp first
  have last : char.toNat ≤ 'z'.toNat := UInt32.le_iff_toNat_le.mp last
  omega

theorem toUpper_of_not_ascii {char : Char} (beyond : 0x80 ≤ char.toNat) : char.toUpper = char :=
  toUpper_of_not_lower (.inr (Nat.lt_of_lt_of_le (by decide) beyond))

theorem toUpper_eq_mark_iff {char mark : Char} (isMark : mark ∈ ['.', '-', '+']) :
    char.toUpper = mark ↔ char = mark := by
  simp only [List.mem_cons, List.not_mem_nil, or_false] at isMark
  induction char using char_cases with
  | ascii code low =>
      revert code
      rcases isMark with rfl | rfl | rfl <;> decide
  | beyond char high => rw [toUpper_of_not_ascii high]

theorem toUpper_eq_exponent_iff {char : Char} :
    char.toUpper = 'e' ∨ char.toUpper = 'E' ↔ char = 'e' ∨ char = 'E' := by
  induction char using char_cases with
  | ascii code low =>
      revert code
      decide
  | beyond char high => rw [toUpper_of_not_ascii high]

theorem digitWeight?_toUpper (char : Char) : digitWeight? char.toUpper = digitWeight? char := by
  induction char using char_cases with
  | ascii code low =>
      revert code
      decide
  | beyond char high => rw [toUpper_of_not_ascii high]

theorem digitValue?_toUpper (char : Char) :
    digitValue? base char.toUpper = digitValue? base char := by
  rw [digitValue?, digitWeight?_toUpper, digitValue?]

theorem positional?_toUpper (chars : List Char) (value : Nat) :
    positional? base value (chars.map Char.toUpper) = positional? base value chars := by
  induction chars generalizing value with
  | nil => rfl
  | cons char chars ih => simp only [List.map_cons, positional?, digitValue?_toUpper, ih]

theorem readNat?_toUpper (chars : List Char) :
    readNat? base (chars.map Char.toUpper) = readNat? base chars := by
  cases chars with
  | nil => rfl
  | cons char chars => exact positional?_toUpper (char :: chars) 0

theorem ascii_of_digitWeight? {char : Char} {digit : Nat} (read : digitWeight? char = some digit) :
    char.toNat < 0x80 := by
  have below {last : Char} (small : char ≤ last) : char.toNat ≤ last.toNat :=
    UInt32.le_iff_toNat_le.mp small
  unfold digitWeight? at read
  split at read
  next inside => exact Nat.lt_of_le_of_lt (below inside.2) (by decide)
  split at read
  next inside => exact Nat.lt_of_le_of_lt (below inside.2) (by decide)
  split at read
  next inside => exact Nat.lt_of_le_of_lt (below inside.2) (by decide)
  cases read

theorem ascii_of_positional? {chars : List Char} {value total : Nat}
    (read : positional? base value chars = some total) : ∀ char ∈ chars, char.toNat < 0x80 := by
  induction chars generalizing value with
  | nil => exact List.forall_mem_nil _
  | cons char chars ih =>
      obtain ⟨digit, isDigit, -, rest⟩ := positional?_cons.mp read
      exact List.forall_mem_cons.mpr ⟨ascii_of_digitWeight? isDigit, ih rest⟩

theorem capitals_of_ascii {chars : List Char} (ascii : ∀ char ∈ chars, char.toNat < 0x80) :
    capitals chars = chars.map Char.toUpper := by
  induction chars with
  | nil => rfl
  | cons char chars ih =>
      obtain ⟨first, rest⟩ := List.forall_mem_cons.mp ascii
      rw [capitals, List.flatMap_cons, capital_of_ascii first, List.map_cons]
      exact congrArg _ (ih rest)

/-! ## Another base -/

theorem le_of_positional? {chars : List Char} {value total : Nat} (positive : 0 < base)
    (read : positional? base value chars = some total) : value ≤ total := by
  induction chars generalizing value with
  | nil => exact Nat.le_of_eq (Option.some.inj read)
  | cons char chars ih =>
      obtain ⟨digit, -, -, rest⟩ := positional?_cons.mp read
      have scaled : value ≤ value * base := Nat.le_mul_of_pos_right value positive
      have := ih rest
      omega

theorem positional?_lt {small large : Nat} (smaller : small < large) {chars : List Char}
    {first second total total' : Nat} (behind : first < second)
    (read : positional? small first chars = some total)
    (read' : positional? large second chars = some total') : total < total' := by
  induction chars generalizing first second with
  | nil =>
      obtain rfl := Option.some.inj read
      obtain rfl := Option.some.inj read'
      exact behind
  | cons char chars ih =>
      obtain ⟨digit, weight, -, rest⟩ := positional?_cons.mp read
      obtain ⟨digit', weight', -, rest'⟩ := positional?_cons.mp read'
      obtain rfl : digit = digit' := Option.some.inj (weight.symm.trans weight')
      have scaled : first * small < second * large :=
        Nat.mul_lt_mul_of_lt_of_le behind (Nat.le_of_lt smaller) (by omega)
      exact ih (by omega) rest rest'

/-- The same digits are the same number in a smaller base only if the number is below it:
there is one digit then. -/
theorem positional?_eq_iff_lt {small large : Nat} (positive : 0 < small) (smaller : small < large)
    {chars : List Char} {total : Nat} (read : positional? large 0 chars = some total) :
    positional? small 0 chars = some total ↔ total < small := by
  induction chars with
  | nil =>
      obtain rfl := Option.some.inj read
      exact iff_of_true rfl positive
  | cons char chars ih =>
      obtain ⟨digit, weight, -, rest⟩ := positional?_cons.mp read
      rw [Nat.zero_mul, Nat.zero_add] at rest
      rcases Nat.eq_zero_or_pos digit with rfl | nonzero
      · rw [positional?, digitValue?_eq_some.mpr ⟨weight, positive⟩, Option.bind_some, Nat.zero_mul]
        exact ih rest
      have reached : digit ≤ total := le_of_positional? (by omega) rest
      by_cases fits : digit < small
      · rw [positional?, digitValue?_eq_some.mpr ⟨weight, fits⟩, Option.bind_some, Nat.zero_mul,
          Nat.zero_add]
        cases chars with
        | nil => exact iff_of_true rest (by rwa [← Option.some.inj rest])
        | cons next chars =>
            obtain ⟨digit', weight', -, rest'⟩ := positional?_cons.mp rest
            have beyond : small ≤ total := by
              have := le_of_positional? (by omega) rest'
              have : large ≤ digit * large := Nat.le_mul_of_pos_left large nonzero
              omega
            refine iff_of_false (fun same => ?_) (by omega)
            obtain ⟨digit'', weight'', -, same⟩ := positional?_cons.mp same
            obtain rfl : digit' = digit'' := Option.some.inj (weight'.symm.trans weight'')
            have scaled : digit * small < digit * large :=
              Nat.mul_lt_mul_of_pos_left smaller nonzero
            exact absurd (positional?_lt smaller (by omega) same rest') (Nat.lt_irrefl total)
      · refine iff_of_false (fun same => ?_) (by omega)
        obtain ⟨digit', weight', fits', -⟩ := positional?_cons.mp same
        exact fits (Option.some.inj (weight.symm.trans weight') ▸ fits')

end StructuredText.Text
