import StructuredText.Json.Basic
import StructuredText.Text.Digit

/-!
# Writing JSON

Two layouts: the compact one has no blanks, the spread one puts every item and
every member on a line of its own, two spaces deeper than what it belongs to.
Strings escape the quote, the backslash and the control characters only.
-/

set_option autoImplicit false

namespace StructuredText.Json

/-- A character inside a string. -/
def escape (char : Char) : List Char :=
  match char with
  | '"' => ['\\', '"']
  | '\\' => ['\\', '\\']
  | '\n' => ['\\', 'n']
  | '\r' => ['\\', 'r']
  | '\t' => ['\\', 't']
  | char =>
      if char = Char.ofNat 8 then ['\\', 'b']
      else if char = Char.ofNat 12 then ['\\', 'f']
      else if char.toNat < 32 then '\\' :: 'u' :: Text.paddedDigits 16 4 char.toNat
      else [char]

/-- A string with its quotes. -/
def quote (text : String) : List Char := '"' :: (text.toList.flatMap escape ++ ['"'])

/-- The spelling of a value that stands for no text. -/
def unpaired : List Char := ['"', '\\', 'u', 'd', '8', '0', '0', '"']

mutual

/-- The compact layout. -/
def compact : Json → List Char
  | .null => ['n', 'u', 'l', 'l']
  | .bool true => ['t', 'r', 'u', 'e']
  | .bool false => ['f', 'a', 'l', 's', 'e']
  | .number text => text.toList
  | .string text => quote text
  | .array items => '[' :: (compactItems items ++ [']'])
  | .object members => '\x7b' :: (compactMembers members ++ ['\x7d'])
  | .unreadable => unpaired

def compactItems : List Json → List Char
  | [] => []
  | [item] => item.compact
  | item :: items => item.compact ++ ',' :: compactItems items

def compactMembers : List (String × Json) → List Char
  | [] => []
  | [(name, value)] => quote name ++ ':' :: value.compact
  | (name, value) :: members => quote name ++ ':' :: value.compact ++ ',' :: compactMembers members

end

/-- A new line at a depth. -/
def newLine (depth : Nat) : List Char := '\n' :: List.replicate (2 * depth) ' '

mutual

/-- The spread layout of a value at a depth. -/
def spread (depth : Nat) : Json → List Char
  | .array [] => ['[', ']']
  | .array (item :: items) =>
      '[' :: (newLine (depth + 1) ++ spread (depth + 1) item ++ spreadItems (depth + 1) items ++
        newLine depth ++ [']'])
  | .object [] => ['\x7b', '\x7d']
  | .object ((name, value) :: members) =>
      '\x7b' :: (newLine (depth + 1) ++ quote name ++ ':' :: ' ' :: spread (depth + 1) value ++
        spreadMembers (depth + 1) members ++ newLine depth ++ ['\x7d'])
  | .null => ['n', 'u', 'l', 'l']
  | .bool true => ['t', 'r', 'u', 'e']
  | .bool false => ['f', 'a', 'l', 's', 'e']
  | .number text => text.toList
  | .string text => quote text
  | .unreadable => unpaired

/-- The items after the first. -/
def spreadItems (depth : Nat) : List Json → List Char
  | [] => []
  | item :: items => ',' :: newLine depth ++ spread depth item ++ spreadItems depth items

/-- The members after the first. -/
def spreadMembers (depth : Nat) : List (String × Json) → List Char
  | [] => []
  | (name, value) :: members =>
      ',' :: newLine depth ++ quote name ++ ':' :: ' ' :: spread depth value ++
        spreadMembers depth members

end

/-- The text of a document, spread over lines if `pretty`. -/
def render (pretty : Bool) (json : Json) : String :=
  String.ofList (if pretty then json.spread 0 else json.compact)

end StructuredText.Json
