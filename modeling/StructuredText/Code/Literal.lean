import StructuredText.Fault
import StructuredText.Text.Capital
import StructuredText.Text.Digit
import StructuredText.Tree.Constant

/-!
# Constants in generated code

Numbers repeat their tokens without grouping and without leading zeros; binary
tokens become hexadecimal ones.  A constant that names its type is wrapped in the
constructor of the type.  Durations, dates and times become calls with their
parts.
-/

set_option autoImplicit false

namespace StructuredText.Code.Literal

/-! ## Numbers -/

/-- Leaves out the zeros at the front.  A zero at the end or before the decimal
point stays. -/
def dropZeros : List Char → List Char
  | '0' :: next :: rest => if next = '.' then '0' :: next :: rest else dropZeros (next :: rest)
  | chars => chars

/-- A numeric token without leading zeros and underscores, in capital letters. -/
def plain (token : String) : String :=
  String.ofList (Text.capitals ((dropZeros token.toList).filter (· != '_')))

/-- The value of bits, the most significant first. -/
def bitValue (bits : List Bool) : Nat := bits.foldl (fun value bit => 2 * value + bit.toNat) 0

/-- Bits in groups of four; the first group takes what is left over. -/
def nibbles (bits : List Bool) : List (List Bool) :=
  if _ : bits.length ≤ 4 then [bits]
  else nibbles (bits.take (bits.length - 4)) ++ [bits.drop (bits.length - 4)]
termination_by bits.length
decreasing_by simp; omega

/-- The hexadecimal digit of a value below sixteen. -/
def hexDigit (value : Nat) : Char := (Nat.digitChar value).toUpper

/-- The hexadecimal constant of a binary token. -/
def hexOfBinary (digits : String) : String :=
  let bits := (digits.toList.filter (· != '_')).map (· == '1')
  "0x" ++ String.ofList ((nibbles bits).map fun nibble => hexDigit (bitValue nibble))

def integer (token : IntegerToken) : String :=
  match token.radix with
  | .decimal => plain token.digits
  | .binary => hexOfBinary token.digits
  | .octal => "0" ++ plain token.digits
  | .hex => "0x" ++ plain token.digits

def sign (isNegative : Bool) : String := if isNegative then "-" else ""

def signed (token : SignedToken) : String := sign token.isNegative ++ integer token.value

/-- Wraps a value in the constructor of the type it names. -/
def typed (type : Option Elementary) (value : String) : String :=
  match type with
  | some type => "__" ++ type.cName ++ "_LITERAL(" ++ value ++ ")"
  | none => value

/-- A truth value. -/
def boolean (value : Bool) : String :=
  if value then "__BOOL_LITERAL(TRUE)" else "__BOOL_LITERAL(FALSE)"

/-! ## Strings -/

/-- The three octal digits of a byte. -/
def octal (byte : Nat) : List Char :=
  [Nat.digitChar (byte / 64), Nat.digitChar (byte / 8 % 8), Nat.digitChar (byte % 8)]

/-- What the character after `$` stands for, if it needs no second one. -/
def escape? (char : Char) : Option (List Char) :=
  match char with
  | '$' => some ['$']
  | '\'' => some ['\'']
  | 'L' | 'l' | 'N' | 'n' => some ['\\', '0', '1', '2']
  | 'P' | 'p' => some ['\\', 'f']
  | 'R' | 'r' => some ['\\', 'r']
  | 'T' | 't' => some ['\\', 't']
  | _ => none

/-- The fault of an escape that stands for nothing. -/
def badEscape (escape : List Char) : Fault :=
  .internalWith .stringEscapeInvalid {} "escape" (String.ofList ('$' :: escape))

/-- The body of a string with the escapes of generated code, and the number of
characters that it stands for. -/
def escapeBody : List Char → Except Fault (List Char × Nat)
  | [] => .ok ([], 0)
  | '$' :: [] => .error (badEscape [])
  | '$' :: char :: rest =>
      match escape? char with
      | some written => (escapeBody rest).map fun (body, count) => (written ++ body, count + 1)
      | none =>
          match Text.digitValue? 16 char, rest with
          | none, _ => .error (badEscape [char])
          | some _, [] => .error (badEscape [char])
          | some high, next :: rest =>
              match Text.digitValue? 16 next with
              | none => .error (badEscape [char, next])
              | some low =>
                  (escapeBody rest).map fun (body, count) =>
                    ('\\' :: octal (16 * high + low) ++ body, count + 1)
  | char :: rest =>
      let written := if char = '\\' || char = '"' then ['\\', char] else [char]
      (escapeBody rest).map fun (body, count) => (written ++ body, count + 1)

/-- A string constant.  There are none of double-width characters. -/
def string (value : CharString) : Except Fault String :=
  match value.width with
  | .double => .error (.internal .doubleByteStringUnsupported {})
  | .single =>
      (escapeBody value.value.toList).map fun (body, count) =>
        "__STRING_LITERAL(" ++ toString count ++ ",\"" ++ String.ofList body ++ "\")"

/-! ## Times and dates -/

/-- The decimal digits of a number, filled up with zeros to a length. -/
def padded (length value : Nat) : List Char :=
  let digits := Nat.toDigits 10 value
  List.replicate (length - digits.length) '0' ++ digits

/-- A number with a fraction of the given number of places, shown without zeros at
the end and only if it is not zero. -/
def decimal (whole places fraction : Nat) : String :=
  if fraction = 0 then toString whole
  else
    toString whole ++ "." ++
      String.ofList ((padded places fraction).reverse.dropWhile (· == '0')).reverse

/-- A call with its arguments. -/
def constructed (name : String) (arguments : List String) : String :=
  name ++ "(" ++ ", ".intercalate arguments ++ ")"

/-- The parts of a duration, all without sign. -/
structure DurationParts where
  days : Nat
  hours : Nat
  minutes : Nat
  seconds : Nat
  milliseconds : Nat
  /-- The nanoseconds beyond the milliseconds. -/
  rest : Nat

/-- The parts of a number of nanoseconds. -/
def DurationParts.ofNanoseconds (nanoseconds : Nat) : DurationParts :=
  let milliseconds := nanoseconds / 1000000
  { days := milliseconds / 86400000
    hours := milliseconds % 86400000 / 3600000
    minutes := milliseconds % 3600000 / 60000
    seconds := milliseconds % 60000 / 1000
    milliseconds := milliseconds % 1000
    rest := nanoseconds % 1000000 }

def duration (value : Duration) : String :=
  let parts := DurationParts.ofNanoseconds value.nanoseconds.natAbs
  constructed "__time_to_timespec"
    [if value.isNegative then "-1" else "1", decimal parts.milliseconds 6 parts.rest,
      toString parts.seconds, toString parts.minutes, toString parts.hours, toString parts.days]

def timeArguments (time : TimeOfDay) : List String :=
  [decimal time.second 9 time.nanosecond, toString time.minute, toString time.hour]

def dateArguments (date : Date) : List String :=
  [toString date.day, toString date.month, toString date.year]

def timeOfDay (time : TimeOfDay) : String := constructed "__tod_to_timespec" (timeArguments time)

def date (date : Date) : String := constructed "__date_to_timespec" (dateArguments date)

def dateAndTime (value : DateAndTime) : String :=
  constructed "__dt_to_timespec" (timeArguments value.time ++ dateArguments value.date)

/-! ## Constants and initial values -/

def constant : Constant → Except Fault String
  | .integer value type => .ok (typed type (signed value))
  | .real token => .ok (typed token.type (sign token.isNegative ++ plain token.text))
  | .boolean value => .ok (boolean value)
  | .string value => string value
  | .duration value => .ok (duration value)
  | .timeOfDay value => .ok (timeOfDay value)
  | .date value => .ok (date value)
  | .dateAndTime value => .ok (dateAndTime value)
  | .bitString value type => .ok (typed type (integer value))

/-- The value that variables of an elementary type start with. -/
def elementaryInitial : Elementary → Except Fault String
  | .bool => .ok (boolean false)
  | .time => .ok (duration { nanoseconds := 0 })
  | .date => .ok (date { year := 1970, dayOfYear := 1 })
  | .timeOfDay => .ok (timeOfDay ⟨0, 0, 0, 0⟩)
  | .dateAndTime => .ok (dateAndTime ⟨{ year := 1970, dayOfYear := 1 }, ⟨0, 0, 0, 0⟩⟩)
  | .string => string { value := "" }
  | .wstring => .error (.internal .doubleByteStringUnsupported {})
  | _ => .ok "0"

/-- The constant of a value of an enumeration. -/
def enumerated (type : String) (value : Ident) : String := type ++ "__" ++ value.upper

/-- The value that variables of a type start with if the declaration states none. -/
def initial : DataType → Except Fault String
  | .elementary type => elementaryInitial type
  | .intLiteral | .realLiteral => .ok "0"
  | .synonym _ base => initial base
  | .subrange _ _ lower _ => .ok (toString lower)
  | .enumeration name values =>
      match values with
      | value :: _ => .ok (enumerated name.upper value)
      | [] => .error (.internal .typeNotResolved name.span)
  | type => .error (.internalWith .notImplemented {} "type" type.cName)

end StructuredText.Code.Literal
