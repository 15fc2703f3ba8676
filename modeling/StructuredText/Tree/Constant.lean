import StructuredText.Token.Clock
import StructuredText.Token.Real

/-!
# Constants

The literals of the language.  Numbers and bit strings may name the elementary
type they are meant to have.
-/

set_option autoImplicit false

namespace StructuredText

/-- The width of the characters of a string. -/
inductive StringWidth where
  | single | double
deriving DecidableEq, Repr

/-- The elementary string type of a width. -/
def StringWidth.type : StringWidth → Elementary
  | single => .string
  | double => .wstring

/-- The text between the quotes, its `$` escapes still in place. -/
structure CharString where
  value : String
  width : StringWidth := .single
deriving DecidableEq, Repr

inductive Constant where
  | integer (value : SignedToken) (type : Option Elementary := none)
  | real (token : RealToken)
  | boolean (value : Bool)
  | string (value : CharString)
  | duration (value : Duration)
  | timeOfDay (value : TimeOfDay)
  | date (value : Date)
  | dateAndTime (value : DateAndTime)
  | bitString (value : IntegerToken) (type : Option Elementary := none)
deriving DecidableEq, Repr

end StructuredText
