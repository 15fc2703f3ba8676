import StructuredText.Ident

/-!
# Elementary data types

The twenty-one types that need no declaration.  Each has one name in generated
code, one name in the exchange format, and the spellings it is written with in
programs: two of them have a long and a short spelling.
-/

set_option autoImplicit false

namespace StructuredText

inductive Elementary where
  | bool | sint | int | dint | lint | usint | uint | udint | ulint | real | lreal
  | time | date | timeOfDay | dateAndTime | string | byte | word | dword | lword | wstring
deriving DecidableEq, Repr

namespace Elementary

def all : List Elementary :=
  [bool, sint, int, dint, lint, usint, uint, udint, ulint, real, lreal, time, date, timeOfDay,
    dateAndTime, string, byte, word, dword, lword, wstring]

/-- The name of the type in generated code. -/
def cName : Elementary → String
  | bool => "BOOL"
  | sint => "SINT"
  | int => "INT"
  | dint => "DINT"
  | lint => "LINT"
  | usint => "USINT"
  | uint => "UINT"
  | udint => "UDINT"
  | ulint => "ULINT"
  | real => "REAL"
  | lreal => "LREAL"
  | time => "TIME"
  | date => "DATE"
  | timeOfDay => "TOD"
  | dateAndTime => "DT"
  | string => "STRING"
  | byte => "BYTE"
  | word => "WORD"
  | dword => "DWORD"
  | lword => "LWORD"
  | wstring => "WSTRING"

/-- The name of the type in the exchange format. -/
def tag : Elementary → String
  | timeOfDay => "TimeOfDay"
  | dateAndTime => "DateAndTime"
  | type => type.cName

/-- The spellings of the types in programs, in lower case. -/
def spellings : List (String × Elementary) :=
  [("bool", bool), ("sint", sint), ("int", int), ("dint", dint), ("lint", lint),
    ("usint", usint), ("uint", uint), ("udint", udint), ("ulint", ulint), ("real", real),
    ("lreal", lreal), ("time", time), ("date", date), ("time_of_day", timeOfDay),
    ("tod", timeOfDay), ("date_and_time", dateAndTime), ("dt", dateAndTime),
    ("string", string), ("byte", byte), ("word", word), ("dword", dword), ("lword", lword),
    ("wstring", wstring)]

/-- The elementary type that an identifier names, in any case. -/
def ofIdent? (ident : Ident) : Option Elementary := spellings.lookup ident.key

/-- The type under its exchange name. -/
def ofTag? (text : String) : Option Elementary := all.find? fun type => type.tag == text

/-- The type as an identifier. -/
def ident (type : Elementary) : Ident := { name := type.cName }

def isBitString : Elementary → Bool
  | byte | word | dword | lword => true
  | _ => false

def isInteger : Elementary → Bool
  | sint | int | dint | lint | usint | uint | udint | ulint => true
  | _ => false

def isReal : Elementary → Bool
  | real | lreal => true
  | _ => false

def isDate : Elementary → Bool
  | date | timeOfDay | dateAndTime => true
  | _ => false

def isString : Elementary → Bool
  | string | wstring => true
  | _ => false

/-- The types that arithmetic is declared on, in the order of declaration. -/
def numeric : List Elementary :=
  [sint, int, dint, lint, usint, uint, udint, ulint, real, lreal]

/-- The types that bitwise logic is declared on, in the order of declaration. -/
def bits : List Elementary := [bool, byte, word, dword, lword]

theorem mem_all (type : Elementary) : type ∈ all := by
  cases type <;> decide

theorem ofTag?_tag (type : Elementary) : ofTag? type.tag = some type := by
  cases type <;> decide

theorem ofIdent?_ident (type : Elementary) : ofIdent? type.ident = some type := by
  cases type <;> decide +kernel

end Elementary

end StructuredText
