import StructuredText.Elementary
import StructuredText.Token.Binary64
import StructuredText.Token.Integer

/-!
# Real tokens

A real token keeps its text as written, without the sign.
-/

set_option autoImplicit false

namespace StructuredText

structure RealToken where
  text : String
  isNegative : Bool
  type : Option Elementary
deriving DecidableEq, Repr

namespace RealToken

/-- The number that the token denotes, underscores left out. -/
def value (token : RealToken) : Except TokenError Binary64 :=
  match Binary64.parse? (IntegerToken.significant token.text) with
  | none => .error .notANumber
  | some number => .ok (if token.isNegative then number.negate else number)

/-- A token after an optional sign; its text has to denote a number. -/
def parse (text : String) (type : Option Elementary := none) : Except TokenError RealToken :=
  let (body, isNegative) :=
    match text.toList with
    | '-' :: rest => (String.ofList rest, true)
    | '+' :: rest => (String.ofList rest, false)
    | _ => (text, false)
  let token : RealToken := { text := body, isNegative, type }
  token.value.map fun _ => token

end RealToken

end StructuredText
