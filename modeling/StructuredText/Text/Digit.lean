/-!
# Digits

Digits of a radix are the ASCII digits and letters, in either case.  A decimal
digit in the wider sense is any character of the Unicode class of decimal
digits; these come in runs of ten that start at a zero.
-/

set_option autoImplicit false

namespace StructuredText.Text

/-- The value of a character as an ASCII digit or letter, whatever the radix. -/
def digitWeight? (char : Char) : Option Nat :=
  if '0' ≤ char ∧ char ≤ '9' then some (char.toNat - '0'.toNat)
  else if 'a' ≤ char ∧ char ≤ 'z' then some (char.toNat - 'a'.toNat + 10)
  else if 'A' ≤ char ∧ char ≤ 'Z' then some (char.toNat - 'A'.toNat + 10)
  else none

/-- The value of a character as a digit of the radix `base`. -/
def digitValue? (base : Nat) (char : Char) : Option Nat :=
  (digitWeight? char).filter (· < base)

/-- True for a digit of the radix `base`. -/
def isDigitOf (base : Nat) (char : Char) : Bool := (digitValue? base char).isSome

/-- The value of a run of digits after `value`, most significant digit first. -/
def positional? (base : Nat) : Nat → List Char → Option Nat
  | value, [] => some value
  | value, char :: rest =>
      (digitValue? base char).bind fun digit => positional? base (value * base + digit) rest

/-- The value of a non-empty run of digits. -/
def readNat? (base : Nat) : List Char → Option Nat
  | [] => none
  | chars => positional? base 0 chars

/-- The zeros of the runs of Unicode decimal digits. -/
def decimalZeros : List Nat :=
  [0x0030, 0x0660, 0x06F0, 0x07C0, 0x0966, 0x09E6, 0x0A66, 0x0AE6, 0x0B66, 0x0BE6, 0x0C66,
    0x0CE6, 0x0D66, 0x0DE6, 0x0E50, 0x0ED0, 0x0F20, 0x1040, 0x1090, 0x17E0, 0x1810, 0x1946,
    0x19D0, 0x1A80, 0x1A90, 0x1B50, 0x1BB0, 0x1C40, 0x1C50, 0xA620, 0xA8D0, 0xA900, 0xA9D0,
    0xA9F0, 0xAA50, 0xABF0, 0xFF10, 0x104A0, 0x10D30, 0x10D40, 0x11066, 0x110F0, 0x11136,
    0x111D0, 0x112F0, 0x11450, 0x114D0, 0x11650, 0x116C0, 0x116D0, 0x116DA, 0x11730, 0x118E0,
    0x11950, 0x11BF0, 0x11C50, 0x11D50, 0x11DA0, 0x11F50, 0x16130, 0x16A60, 0x16AC0, 0x16B50,
    0x16D70, 0x1CCF0, 0x1D7CE, 0x1D7D8, 0x1D7E2, 0x1D7EC, 0x1D7F6, 0x1E140, 0x1E2F0, 0x1E4F0,
    0x1E5F1, 0x1E950, 0x1FBF0]

/-- True for the decimal digits of every script. -/
def isDecimalDigit (char : Char) : Bool :=
  decimalZeros.any fun first => first ≤ char.toNat && char.toNat < first + 10

/-- The digit character of a value below sixteen, letters in lower case. -/
def hexDigit (value : Nat) : Char :=
  if value < 10 then Char.ofNat ('0'.toNat + value) else Char.ofNat ('a'.toNat + (value - 10))

/-- The last `width` digits of a number in the radix `base`, with leading zeros. -/
def paddedDigits (base : Nat) : (width : Nat) → Nat → List Char
  | 0, _ => []
  | width + 1, value => paddedDigits base width (value / base) ++ [hexDigit (value % base)]

/-- A number written in exactly `width` digits. -/
def padded (base width value : Nat) : String := String.ofList (paddedDigits base width value)

theorem length_paddedDigits (base width value : Nat) :
    (paddedDigits base width value).length = width := by
  induction width generalizing value with
  | zero => rfl
  | succ width ih => simp [paddedDigits, ih]

end StructuredText.Text
