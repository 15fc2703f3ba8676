import StructuredText.Exchange.Reader
import StructuredText.Tree.Declaration

/-!
# Tokens, constants and addresses in the exchange format
-/

set_option autoImplicit false

namespace StructuredText

instance : Tagged Radix := ⟨Radix.all, Radix.tag⟩

instance : Tagged Elementary := ⟨Elementary.all, Elementary.tag⟩

instance : Tagged AddressSize := ⟨AddressSize.all, AddressSize.tag⟩

instance : Tagged Area := ⟨Area.all, fun area => area.letter.toString⟩

instance : Tagged Bool := ⟨[true, false], fun value => if value then "True" else "False"⟩

instance : Tagged StringWidth :=
  ⟨[.single, .double], fun
    | .single => "String"
    | .double => "WString"⟩

namespace Ident

def toJson (ident : Ident) : Json := .string ident.name

def read : Reader Ident := fun _ json => json.string?.map fun name => { name }

/-- The name of a type is a record of its own. -/
def typeToJson (ident : Ident) : Json := .object [("name", ident.toJson)]

def readType : Reader Ident := Reader.record ["name"] fun depth fields => do
  let [name] := fields | none
  Reader.required Ident.read depth name

end Ident

namespace IntegerToken

def toJson (token : IntegerToken) : Json :=
  .object [("digits", .string token.digits), ("radix", Tagged.toJson token.radix)]

def read : Reader IntegerToken := Reader.record ["digits", "radix"] fun depth fields => do
  let [digits, radix] := fields | none
  let digits ← Reader.required Reader.string depth digits
  let radix ← Reader.required Reader.tagged depth radix
  return { digits, radix }

end IntegerToken

namespace SignedToken

def toJson (token : SignedToken) : Json :=
  .object [("value", token.value.toJson), ("is_neg", .bool token.isNegative)]

def read : Reader SignedToken := Reader.record ["value", "is_neg"] fun depth fields => do
  let [value, isNegative] := fields | none
  let value ← Reader.required IntegerToken.read depth value
  let isNegative ← Reader.required Reader.bool depth isNegative
  return { value, isNegative }

end SignedToken

namespace RealToken

def toJson (token : RealToken) : Json :=
  .object
    [("text", .string token.text), ("is_neg", .bool token.isNegative),
      ("data_type", Json.ofOption Tagged.toJson token.type)]

def read : Reader RealToken := Reader.record ["text", "is_neg", "data_type"] fun depth fields => do
  let [text, isNegative, type] := fields | none
  let text ← Reader.required Reader.string depth text
  let isNegative ← Reader.required Reader.bool depth isNegative
  let type ← Reader.optional Reader.tagged depth type
  return { text, isNegative, type }

end RealToken

namespace CharString

def toJson (literal : CharString) : Json :=
  .object [("value", .string literal.value), ("width", Tagged.toJson literal.width)]

def read : Reader CharString := Reader.record ["value", "width"] fun depth fields => do
  let [value, width] := fields | none
  let value ← Reader.required Reader.string depth value
  let width ← Reader.required Reader.tagged depth width
  return { value, width }

end CharString

/-! ## Durations, dates and times are arrays of numbers -/

/-- Reads an array of exactly as many numbers as there are ranges. -/
def Reader.numbers (ranges : List (Int × Int)) : Reader (List Int)
  | 0, _ => none
  | depth + 1, json => do
      let items ← json.array?
      if items.length = ranges.length then
        (items.zip ranges).mapM fun (item, low, high) => Reader.int low high depth item
      else none

namespace Duration

def toJson (duration : Duration) : Json := .array [.int duration.seconds, .int duration.rest]

def read : Reader Duration := fun depth json => do
  let [seconds, rest] ←
    Reader.numbers [(-Duration.limit, Duration.limit - 1), (-999999999, 999999999)] depth json
      | none
  return ofSeconds seconds rest

end Duration

namespace TimeOfDay

def parts (time : TimeOfDay) : List Json :=
  [.nat time.hour, .nat time.minute, .nat time.second, .nat time.nanosecond]

def toJson (time : TimeOfDay) : Json := .array time.parts

/-- The ranges of the numbers of a time of day. -/
def ranges : List (Int × Int) := [(0, 23), (0, 59), (0, 59), (0, 999999999)]

def read : Reader TimeOfDay := fun depth json => do
  let [hour, minute, second, nanosecond] ← Reader.numbers ranges depth json | none
  ofParts? hour minute second nanosecond

end TimeOfDay

namespace Date

def parts (date : Date) : List Json := [.int date.year, .nat date.dayOfYear]

def toJson (date : Date) : Json := .array date.parts

/-- The ranges of the numbers of a date; how many days there are depends on the year. -/
def ranges : List (Int × Int) := [(-9999, 9999), (1, 366)]

def read : Reader Date := fun depth json => do
  let [year, dayOfYear] ← Reader.numbers ranges depth json | none
  ofParts? year dayOfYear

end Date

namespace DateAndTime

def toJson (value : DateAndTime) : Json := .array (value.date.parts ++ value.time.parts)

def read : Reader DateAndTime := fun depth json => do
  let [year, dayOfYear, hour, minute, second, nanosecond] ←
    Reader.numbers (Date.ranges ++ TimeOfDay.ranges) depth json | none
  let date ← Date.ofParts? year dayOfYear
  let time ← TimeOfDay.ofParts? hour minute second nanosecond
  return { date, time }

end DateAndTime

namespace Constant

def toJson : Constant → Json
  | .integer value type =>
      .choice "IntegerLiteral"
        (.object [("value", value.toJson), ("data_type", Json.ofOption Tagged.toJson type)])
  | .real token => .choice "RealLiteral" token.toJson
  | .boolean value => .choice "Boolean" (.object [("value", Tagged.toJson value)])
  | .string value => .choice "CharacterString" value.toJson
  | .duration value => .choice "Duration" (.object [("interval", value.toJson)])
  | .timeOfDay value => .choice "TimeOfDay" (.object [("value", value.toJson)])
  | .date value => .choice "Date" (.object [("value", value.toJson)])
  | .dateAndTime value => .choice "DateAndTime" (.object [("value", value.toJson)])
  | .bitString value type =>
      .choice "BitStringLiteral"
        (.object [("value", value.toJson), ("data_type", Json.ofOption Tagged.toJson type)])

/-- Reads a record with one field. -/
def readOnly {α : Type} (name : String) (read : Reader α) : Reader α :=
  Reader.record [name] fun depth fields => do
    let [value] := fields | none
    Reader.required read depth value

/-- Reads a value that may name its type. -/
def readTyped {α : Type} (read : Reader α) : Reader (α × Option Elementary) :=
  Reader.record ["value", "data_type"] fun depth fields => do
    let [value, type] := fields | none
    let value ← Reader.required read depth value
    let type ← Reader.optional Reader.tagged depth type
    return (value, type)

def read : Reader Constant := Reader.choice fun depth tag content =>
  match tag with
  | "IntegerLiteral" =>
      (readTyped SignedToken.read depth content).map fun (value, type) => .integer value type
  | "RealLiteral" => (RealToken.read depth content).map .real
  | "Boolean" => (readOnly "value" Reader.tagged depth content).map .boolean
  | "CharacterString" => (CharString.read depth content).map .string
  | "Duration" => (readOnly "interval" Duration.read depth content).map .duration
  | "TimeOfDay" => (readOnly "value" TimeOfDay.read depth content).map .timeOfDay
  | "Date" => (readOnly "value" Date.read depth content).map .date
  | "DateAndTime" => (readOnly "value" DateAndTime.read depth content).map .dateAndTime
  | "BitStringLiteral" =>
      (readTyped IntegerToken.read depth content).map fun (value, type) => .bitString value type
  | _ => none

end Constant

namespace Address

def toJson (address : Address) : Json :=
  .object
    [("location", Tagged.toJson address.area), ("size", Tagged.toJson address.size),
      ("address", .array (address.parts.map .nat))]

def read : Reader Address := Reader.record ["location", "size", "address"] fun depth fields => do
  let [area, size, parts] := fields | none
  let area ← Reader.required Reader.tagged depth area
  let size ← Reader.required Reader.tagged depth size
  let parts ← Reader.required (Reader.list (Reader.int 0 4294967295)) depth parts
  return { area, size, parts := parts.map Int.toNat }

end Address

end StructuredText
