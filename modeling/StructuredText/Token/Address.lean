import StructuredText.Elementary
import StructuredText.Text.Digit
import StructuredText.Token.Error

/-!
# Direct addresses

A direct address such as `%IX0.3` names a place of the hardware: an area, a size
and a list of numbers.  The form `%I*` leaves the place open.
-/

set_option autoImplicit false

namespace StructuredText

/-- The area of an address: inputs, outputs or memory. -/
inductive Area where
  | input | output | memory
deriving DecidableEq, Repr

namespace Area

def letter : Area → Char
  | input => 'I'
  | output => 'Q'
  | memory => 'M'

def all : List Area := [input, output, memory]

/-- The area that a letter stands for. -/
def ofLetter (letter : Option Char) : Except TokenError Area :=
  match all.find? fun area => some area.letter == letter with
  | some area => .ok area
  | none => .error .badLocation

end Area

/-- The size of an address.  One without a letter is a single bit. -/
inductive AddressSize where
  | unspecified | none | bit | byte | word | doubleWord | longWord
deriving DecidableEq, Repr

namespace AddressSize

def all : List AddressSize := [unspecified, none, bit, byte, word, doubleWord, longWord]

def letter : AddressSize → Option Char
  | unspecified => some '*'
  | none => Option.none
  | bit => some 'X'
  | byte => some 'B'
  | word => some 'W'
  | doubleWord => some 'D'
  | longWord => some 'L'

/-- The name of the size in the exchange format. -/
def tag : AddressSize → String
  | unspecified => "Unspecified"
  | none => "Nil"
  | bit => "X"
  | byte => "B"
  | word => "W"
  | doubleWord => "D"
  | longWord => "L"

/-- The size that a letter, or the lack of one, stands for. -/
def ofLetter (letter : Option Char) : Except TokenError AddressSize :=
  match all.find? fun size => size.letter == letter with
  | some size => .ok size
  | Option.none => .error .badSize

/-- The type of a variable of this size. -/
def type : AddressSize → Elementary
  | unspecified | none | bit => .bool
  | byte => .byte
  | word => .word
  | doubleWord => .dword
  | longWord => .lword

/-- The letters of the sizes that stand before numbers. -/
def isMark (char : Char) : Bool := ['X', 'B', 'W', 'D', 'L'].contains char

end AddressSize

structure Address where
  area : Area
  size : AddressSize
  parts : List Nat
deriving DecidableEq, Repr

namespace Address

/-- Cuts a text at every point. -/
def splitAtPoints : List Char → List (List Char)
  | [] => [[]]
  | char :: rest =>
      if char = '.' then [] :: splitAtPoints rest
      else
        match splitAtPoints rest with
        | [] => [[char]]
        | part :: parts => (char :: part) :: parts

/-- One number of an address: ASCII digits for a value below two to the power 32. -/
def part (digits : List Char) : Except TokenError Nat :=
  match (Text.readNat? 10 digits).filter (· < Nat.pow 2 32) with
  | some value => .ok value
  | none => .error .addressPartTooLarge

/-- The numbers of an address.  The form admits the decimal digits of every
script; only ASCII digits have a value here. -/
def parts? (text : List Char) : Option (List (List Char)) :=
  let parts := splitAtPoints text
  if parts.all fun digits => !digits.isEmpty && digits.all Text.isDecimalDigit then some parts
  else none

/-- The size mark at the front of a text and what follows it. -/
def splitMark : List Char → Option Char × List Char
  | [] => (none, [])
  | char :: rest => if AddressSize.isMark char then (some char, rest) else (none, char :: rest)

/-- Reads an address such as `%QW12`, `%M3`, `%IX0.7` or `%I*`. -/
def parse (text : String) : Except TokenError Address :=
  match text.toList with
  | '%' :: letter :: rest =>
      match Area.ofLetter (some letter) with
      | .error _ => .error .notAnAddress
      | .ok area =>
          if rest = ['*'] then .ok { area, size := .unspecified, parts := [] }
          else
            let (mark, numbers) := splitMark rest
            match parts? numbers with
            | none => .error .notAnAddress
            | some digits => do
                let size ← AddressSize.ofLetter mark
                let parts ← digits.mapM part
                return { area, size, parts }
  | _ => .error .notAnAddress

/-- The address as it is written in programs. -/
def display (address : Address) : String :=
  "%" ++ address.area.letter.toString ++ (address.size.letter.map Char.toString).getD "" ++
    ".".intercalate (address.parts.map toString)

end Address

end StructuredText
