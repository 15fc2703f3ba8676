/-!
# Errors in tokens

The ways in which the text of a token can fail to denote anything.
-/

set_option autoImplicit false

namespace StructuredText

inductive TokenError where
  | digitNotOfRadix
  | noDigits
  | integerOverflow
  | notANumber
  | badLocation
  | badSize
  | notAnAddress
  | addressPartTooLarge
deriving DecidableEq, Repr

def TokenError.message : TokenError → String
  | digitNotOfRadix => "Integer contains a character that is not valid for the radix"
  | noDigits => "Integer has no digits"
  | integerOverflow => "Integer overflow"
  | notANumber => "Real literal is not a number"
  | badLocation => "Value must be one of I, Q, M"
  | badSize => "Value must be one of *, X, B, W, D, L, NIL"
  | notAnAddress => "Value not convertible to direct variable"
  | addressPartTooLarge => "Address part is too large"

end StructuredText
