import StructuredText.Text.Digit

/-!
# Decimal numbers as binary64 numbers

A decimal number is rounded to the nearest binary64 number, a tie going to the
neighbour with the even last bit.  The rounding is done in exact arithmetic on
natural numbers.  The bit patterns of the finite numbers of one sign are in the
order of their values, so that a carry out of the significand moves on to the
next exponent by itself, and everything above the largest finite number is
infinite.
-/

set_option autoImplicit false

namespace StructuredText

/-- A binary64 number: a sign and the bits of the magnitude, or no number. -/
inductive Binary64 where
  | notANumber
  | signed (isNegative : Bool) (magnitude : Nat)
deriving DecidableEq, Repr

namespace Binary64

/-- The bits of the infinite magnitude. -/
def infinite : Nat := 2047 * Nat.pow 2 52

/-- The least exponent of the unit in the last place. -/
def leastExponent : Int := -1074

/-- The quotient rounded to nearest, ties to even. -/
def roundQuotient (numerator denominator : Nat) : Nat :=
  let quotient := numerator / denominator
  let twice := 2 * (numerator % denominator)
  if denominator < twice ∨ (twice = denominator ∧ quotient % 2 = 1) then quotient + 1
  else quotient

/-- The exponent of the unit in the last place of the quotient: the significand
has 53 bits unless the exponent is the least. -/
def unitExponent (numerator denominator : Nat) : Int :=
  let estimate : Int := (Nat.log2 numerator : Int) - Nat.log2 denominator - 52
  let reaches : Bool :=
    if 0 ≤ estimate then denominator * Nat.pow 2 (52 + estimate.toNat) ≤ numerator
    else denominator * Nat.pow 2 52 ≤ numerator * Nat.pow 2 (-estimate).toNat
  max (if reaches then estimate else estimate - 1) leastExponent

/-- The bits of the magnitude nearest to a positive quotient. -/
def ofQuotient (numerator denominator : Nat) : Nat :=
  let exponent := unitExponent numerator denominator
  let significand :=
    if 0 ≤ exponent then roundQuotient numerator (denominator * Nat.pow 2 exponent.toNat)
    else roundQuotient (numerator * Nat.pow 2 (-exponent).toNat) denominator
  min ((exponent - leastExponent).toNat * Nat.pow 2 52 + significand) infinite

/-- The bits of the magnitude nearest to `digits` times ten to the `exponent`.
Numbers far outside the range of the format are settled by their size. -/
def ofDecimal (digits : Nat) (exponent : Int) : Nat :=
  let size : Int := (toString digits).length + exponent
  if digits = 0 ∨ size < -330 then 0
  else if 310 < size then infinite
  else if 0 ≤ exponent then ofQuotient (digits * Nat.pow 10 exponent.toNat) 1
  else ofQuotient digits (Nat.pow 10 (-exponent).toNat)

/-- The exponent part of a decimal number: nothing, or `e` and a signed number. -/
def exponent? : List Char → Option Int
  | [] => some 0
  | mark :: rest =>
      if mark = 'e' ∨ mark = 'E' then
        match rest with
        | '-' :: digits => (Text.readNat? 10 digits).map fun value => -(value : Int)
        | '+' :: digits => (Text.readNat? 10 digits).map Int.ofNat
        | digits => (Text.readNat? 10 digits).map Int.ofNat
      else none

/-- An unsigned decimal number: digits around an optional point, at least one of
them, and an optional exponent. -/
def decimal? (chars : List Char) : Option Nat := do
  let whole := chars.takeWhile Char.isDigit
  let rest := chars.dropWhile Char.isDigit
  let (fraction, rest) :=
    match rest with
    | '.' :: rest => (rest.takeWhile Char.isDigit, rest.dropWhile Char.isDigit)
    | _ => ([], rest)
  let digits ← Text.readNat? 10 (whole ++ fraction)
  let exponent ← exponent? rest
  return ofDecimal digits (exponent - fraction.length)

/-- An unsigned number, which may also be one of the words for infinity and for
no number, in any case. -/
def unsigned? (isNegative : Bool) (chars : List Char) : Option Binary64 :=
  match decimal? chars with
  | some magnitude => some (.signed isNegative magnitude)
  | none =>
      let word := (String.ofList chars).toLower
      if word = "inf" ∨ word = "infinity" then some (.signed isNegative infinite)
      else if word = "nan" then some .notANumber
      else none

/-- A number after an optional sign. -/
def parse? : List Char → Option Binary64
  | '-' :: chars => unsigned? true chars
  | '+' :: chars => unsigned? false chars
  | chars => unsigned? false chars

def negate : Binary64 → Binary64
  | .notANumber => .notANumber
  | .signed isNegative magnitude => .signed (!isNegative) magnitude

/-- The sixty-four bits in hexadecimal; there is no one pattern for no number. -/
def display : Binary64 → String
  | .notANumber => "NaN"
  | .signed isNegative magnitude =>
      Text.padded 16 16 ((if isNegative then Nat.pow 2 63 else 0) + magnitude)

end Binary64

end StructuredText
