/-!
# JSON documents

A document as it was written: numbers keep their text and objects keep their
members in order, repeated ones included.  A string or a key whose escapes leave
a surrogate without its partner stands for no text; the value it belongs to is
still a value, which may be passed over but not read.
-/

set_option autoImplicit false

namespace StructuredText

inductive Json where
  | null
  | bool (value : Bool)
  | number (text : String)
  | string (text : String)
  | array (items : List Json)
  | object (members : List (String × Json))
  | unreadable

namespace Json

instance : Inhabited Json := ⟨.null⟩

/-- A whole number. -/
def int (value : Int) : Json := .number (toString value)

def nat (value : Nat) : Json := .number (toString value)

/-- The digits of a whole number written without fraction and exponent.  A zero
with a minus sign is not a whole number. -/
def wholeNumber? : List Char → Option Int
  | '-' :: digits =>
      if digits.all Char.isDigit && !digits.isEmpty && digits.any (· != '0') then
        some (-(digits.foldl (fun value digit => value * 10 + (digit.toNat - 48)) 0 : Nat))
      else none
  | digits =>
      if digits.all Char.isDigit && !digits.isEmpty then
        some (digits.foldl (fun value digit => value * 10 + (digit.toNat - 48)) 0 : Nat)
      else none

/-- The value of a whole number. -/
def int? : Json → Option Int
  | .number text => wholeNumber? text.toList
  | _ => none

def bool? : Json → Option Bool
  | .bool value => some value
  | _ => none

def string? : Json → Option String
  | .string text => some text
  | _ => none

def array? : Json → Option (List Json)
  | .array items => some items
  | _ => none

/-- The last member of a name, for documents in which names are not repeated. -/
def member? (json : Json) (name : String) : Option Json :=
  match json with
  | .object members => members.reverse.lookup name
  | _ => none

end Json

end StructuredText
