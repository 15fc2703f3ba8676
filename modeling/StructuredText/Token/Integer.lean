import StructuredText.Text.Digit
import StructuredText.Token.Error

/-!
# Integer tokens

An integer token keeps its digits as written, grouping underscores included,
because generated code repeats the token.  Its value is taken in 128 bits; a
signed token has a value when its magnitude fits 127 bits.
-/

set_option autoImplicit false

namespace StructuredText

/-- The base an integer token is written in. -/
inductive Radix where
  | decimal | binary | octal | hex
deriving DecidableEq, Repr

namespace Radix

def all : List Radix := [decimal, binary, octal, hex]

def base : Radix → Nat
  | decimal => 10
  | binary => 2
  | octal => 8
  | hex => 16

/-- The mark that announces the radix in program text. -/
def mark : Radix → String
  | decimal => ""
  | binary => "2#"
  | octal => "8#"
  | hex => "16#"

/-- The name of the radix in the exchange format. -/
def tag : Radix → String
  | decimal => "Decimal"
  | binary => "Binary"
  | octal => "Octal"
  | hex => "Hex"

end Radix

structure IntegerToken where
  /-- The digits without the mark of the radix. -/
  digits : String
  radix : Radix
deriving DecidableEq, Repr

namespace IntegerToken

/-- The characters of a token without the grouping underscores. -/
def significant (text : String) : List Char := text.toList.filter (· != '_')

/-- A token of the given radix.  Underscores may stand anywhere; everything else
has to be a digit, and there has to be one. -/
def ofDigits (radix : Radix) (text : String) : Except TokenError IntegerToken :=
  let chars := significant text
  if chars.any fun char => !Text.isDigitOf radix.base char then .error .digitNotOfRadix
  else if chars.isEmpty then .error .noDigits
  else .ok { digits := text, radix }

/-- A token whose radix is announced by a mark, decimal without one. -/
def parse (text : String) : Except TokenError IntegerToken :=
  match text.toList with
  | '2' :: '#' :: digits => ofDigits .binary (String.ofList digits)
  | '8' :: '#' :: digits => ofDigits .octal (String.ofList digits)
  | '1' :: '6' :: '#' :: digits => ofDigits .hex (String.ofList digits)
  | _ => ofDigits .decimal text

/-- The value of the digits, which may follow one plus sign. -/
def magnitude? (token : IntegerToken) : Option Nat :=
  match significant token.digits with
  | '+' :: digits => Text.readNat? token.radix.base digits
  | digits => Text.readNat? token.radix.base digits

/-- The value of the token if it is below two to the power 128. -/
def value (token : IntegerToken) : Except TokenError Nat :=
  match token.magnitude?.filter (· < Nat.pow 2 128) with
  | some value => .ok value
  | none => .error .integerOverflow

def display (token : IntegerToken) : String := token.radix.mark ++ token.digits

end IntegerToken

structure SignedToken where
  value : IntegerToken
  isNegative : Bool
deriving DecidableEq, Repr

namespace SignedToken

/-- A decimal token after an optional sign. -/
def parse (text : String) : Except TokenError SignedToken :=
  let (digits, isNegative) :=
    match text.toList with
    | '+' :: digits => (String.ofList digits, false)
    | '-' :: digits => (String.ofList digits, true)
    | _ => (text, false)
  (IntegerToken.ofDigits .decimal digits).map fun value => { value, isNegative }

/-- An unsigned token read as a signed one. -/
def ofUnsigned (value : IntegerToken) : SignedToken := { value, isNegative := false }

/-- The token of a number, in decimal digits. -/
def ofInt (value : Int) : SignedToken :=
  { value := { digits := toString value.natAbs, radix := .decimal }, isNegative := value < 0 }

/-- The value of the token if its magnitude is below two to the power 127. -/
def value? (token : SignedToken) : Option Int :=
  (token.value.value.toOption.filter (· < Nat.pow 2 127)).map fun magnitude =>
    if token.isNegative then -(magnitude : Int) else magnitude

def display (token : SignedToken) : String :=
  (if token.isNegative then "-" else "") ++ token.value.display

end SignedToken

end StructuredText
