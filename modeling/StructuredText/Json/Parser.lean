import StructuredText.Json.Basic
import StructuredText.Text.Digit

/-!
# Reading JSON

Strict JSON: blanks are space, tab, line feed and carriage return, nothing but
blanks follows the value, and strings hold no control characters.  The functions
recurse on a bound that starts at twice the length of the text; every round
either uses up a character or enters a value that does.
-/

set_option autoImplicit false

namespace StructuredText.Json

def isBlank (char : Char) : Bool :=
  char == ' ' || char == '\t' || char == '\n' || char == '\r'

def skipBlanks (chars : List Char) : List Char := chars.dropWhile isBlank

/-! ## Strings -/

/-- The character after the backslash of a short escape. -/
def shortEscape? : Char → Option Char
  | '"' => some '"'
  | '\\' => some '\\'
  | '/' => some '/'
  | 'b' => some (Char.ofNat 8)
  | 'f' => some (Char.ofNat 12)
  | 'n' => some '\n'
  | 'r' => some '\r'
  | 't' => some '\t'
  | _ => none

/-- The code units up to the closing quote, last one first, and what follows.
Characters count as one unit; a `\u` escape is a unit of sixteen bits. -/
def units (done : List Nat) : List Char → Option (List Nat × List Char)
  | [] => none
  | '"' :: rest => some (done, rest)
  | '\\' :: 'u' :: a :: b :: c :: d :: rest =>
      match Text.readNat? 16 [a, b, c, d] with
      | some unit => units (unit :: done) rest
      | none => none
  | '\\' :: char :: rest =>
      match shortEscape? char with
      | some char => units (char.toNat :: done) rest
      | none => none
  | char :: rest => if char.toNat < 32 then none else units (char.toNat :: done) rest

def isHighSurrogate (unit : Nat) : Bool := 0xD800 ≤ unit && unit < 0xDC00

def isLowSurrogate (unit : Nat) : Bool := 0xDC00 ≤ unit && unit < 0xE000

/-- The characters of a list of code units; a surrogate needs its partner. -/
def decode? (done : List Char) : List Nat → Option (List Char)
  | [] => some done.reverse
  | high :: rest =>
      if isHighSurrogate high then
        match rest with
        | low :: rest =>
            if isLowSurrogate low then
              decode?
                (Char.ofNat (0x10000 + (high - 0xD800) * 0x400 + (low - 0xDC00)) :: done) rest
            else none
        | [] => none
      else if isLowSurrogate high then none
      else decode? (Char.ofNat high :: done) rest

/-- A string after its opening quote: its text, if it stands for one. -/
def text? (chars : List Char) : Option (Option String × List Char) :=
  (units [] chars).map fun (found, rest) => ((decode? [] found.reverse).map String.ofList, rest)

/-! ## Numbers -/

/-- The whole part of a number: a zero alone, or digits that do not start with one. -/
def wholePart? (chars : List Char) : Option (List Char × List Char) :=
  match chars with
  | '0' :: rest => some (['0'], rest)
  | _ =>
      let digits := chars.takeWhile Char.isDigit
      if digits.isEmpty then none else some (digits, chars.dropWhile Char.isDigit)

/-- A fraction, or nothing. -/
def fractionPart? : List Char → Option (List Char × List Char)
  | '.' :: rest =>
      let digits := rest.takeWhile Char.isDigit
      if digits.isEmpty then none else some ('.' :: digits, rest.dropWhile Char.isDigit)
  | rest => some ([], rest)

/-- The sign of an exponent, or nothing. -/
def splitSign : List Char → List Char × List Char
  | '+' :: rest => (['+'], rest)
  | '-' :: rest => (['-'], rest)
  | rest => ([], rest)

/-- An exponent, or nothing. -/
def exponentPart? : List Char → Option (List Char × List Char)
  | [] => some ([], [])
  | mark :: rest =>
      if mark = 'e' ∨ mark = 'E' then
        let (sign, rest) := splitSign rest
        let digits := rest.takeWhile Char.isDigit
        if digits.isEmpty then none
        else some (mark :: sign ++ digits, rest.dropWhile Char.isDigit)
      else some ([], mark :: rest)

/-- The text of a number without its minus sign. -/
def unsigned? (chars : List Char) : Option (List Char × List Char) := do
  let (whole, rest) ← wholePart? chars
  let (fraction, rest) ← fractionPart? rest
  let (exponent, rest) ← exponentPart? rest
  return (whole ++ fraction ++ exponent, rest)

/-- The text of a number and what follows it. -/
def number? : List Char → Option (List Char × List Char)
  | '-' :: rest => (unsigned? rest).map fun (text, rest) => ('-' :: text, rest)
  | chars => unsigned? chars

/-! ## Values -/

/-- The object of the members, in the order of the text; every key has to stand
for a text. -/
def ofMembers (members : List (Option String × Json)) : Json :=
  match members.reverse.mapM fun (key, value) => key.map fun name => (name, value) with
  | some members => .object members
  | none => .unreadable

mutual

/-- A value and what follows it. -/
def value? : Nat → List Char → Option (Json × List Char)
  | 0, _ => none
  | bound + 1, chars =>
      match skipBlanks chars with
      | [] => none
      | 'n' :: 'u' :: 'l' :: 'l' :: rest => some (.null, rest)
      | 't' :: 'r' :: 'u' :: 'e' :: rest => some (.bool true, rest)
      | 'f' :: 'a' :: 'l' :: 's' :: 'e' :: rest => some (.bool false, rest)
      | '"' :: rest =>
          (text? rest).map fun (text, rest) =>
            (match text with
              | some text => .string text
              | none => .unreadable, rest)
      | '[' :: rest =>
          match skipBlanks rest with
          | ']' :: rest => some (.array [], rest)
          | rest => items? bound [] rest
      | '\x7b' :: rest =>
          match skipBlanks rest with
          | '\x7d' :: rest => some (.object [], rest)
          | rest => members? bound [] rest
      | chars => (number? chars).map fun (text, rest) => (.number (String.ofList text), rest)

/-- The items of an array from the next one on, after those done. -/
def items? : Nat → List Json → List Char → Option (Json × List Char)
  | 0, _, _ => none
  | bound + 1, done, chars =>
      match value? bound chars with
      | none => none
      | some (item, rest) =>
          match skipBlanks rest with
          | ',' :: rest => items? bound (item :: done) rest
          | ']' :: rest => some (.array (item :: done).reverse, rest)
          | _ => none

/-- The members of an object from the next one on, after those done. -/
def members? : Nat → List (Option String × Json) → List Char → Option (Json × List Char)
  | 0, _, _ => none
  | bound + 1, done, chars =>
      match skipBlanks chars with
      | '"' :: rest =>
          match text? rest with
          | none => none
          | some (key, rest) =>
              match skipBlanks rest with
              | ':' :: rest =>
                  match value? bound rest with
                  | none => none
                  | some (value, rest) =>
                      match skipBlanks rest with
                      | ',' :: rest => members? bound ((key, value) :: done) rest
                      | '\x7d' :: rest => some (ofMembers ((key, value) :: done), rest)
                      | _ => none
              | _ => none
      | _ => none

end

/-- The document that a text holds. -/
def parse? (text : String) : Option Json :=
  let chars := text.toList
  match value? (2 * chars.length + 1) chars with
  | some (json, rest) => if (skipBlanks rest).isEmpty then some json else none
  | none => none

end StructuredText.Json
