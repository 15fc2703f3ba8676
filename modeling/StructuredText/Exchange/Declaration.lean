import StructuredText.Exchange.Token

/-!
# Declarations in the exchange format
-/

set_option autoImplicit false

namespace StructuredText

namespace Range

def toJson (range : Range) : Json :=
  .object [("start", range.start.toJson), ("end", range.stop.toJson)]

def read : Reader Range := Reader.record ["start", "end"] fun depth fields => do
  let [start, stop] := fields | none
  let start ← Reader.required SignedToken.read depth start
  let stop ← Reader.required SignedToken.read depth stop
  return { start, stop }

end Range

namespace ArrayShape

def toJson (shape : ArrayShape) : Json :=
  .object
    [("ranges", .array (shape.ranges.map Range.toJson)), ("type_name", shape.element.typeToJson)]

def read : Reader ArrayShape := Reader.record ["ranges", "type_name"] fun depth fields => do
  let [ranges, element] := fields | none
  let ranges ← Reader.required (Reader.list Range.read) depth ranges
  let element ← Reader.required Ident.readType depth element
  return { ranges, element }

end ArrayShape

namespace ArraySpec

def toJson : ArraySpec → Json
  | .named type => .choice "Type" type.typeToJson
  | .inline shape => .choice "Subranges" shape.toJson

def read : Reader ArraySpec := Reader.choice fun depth tag content =>
  match tag with
  | "Type" => (Ident.readType depth content).map .named
  | "Subranges" => (ArrayShape.read depth content).map .inline
  | _ => none

end ArraySpec

namespace EnumValue

def toJson (value : EnumValue) : Json :=
  .object
    [("type_name", Json.ofOption Ident.typeToJson value.type), ("value", value.value.toJson)]

def read : Reader EnumValue := Reader.record ["type_name", "value"] fun depth fields => do
  let [type, value] := fields | none
  let type ← Reader.optional Ident.readType depth type
  let value ← Reader.required Ident.read depth value
  return { type, value }

end EnumValue

namespace Initializer

def toJson : Initializer → Json
  | .simple type value =>
      .choice "Simple"
        (.object
          [("type_name", type.typeToJson), ("initial_value", Json.ofOption Constant.toJson value)])
  | .string length width value =>
      .choice "String"
        (.object
          [("length", Json.ofOption IntegerToken.toJson length), ("width", Tagged.toJson width),
            ("initial_value", Json.ofOption CharString.toJson value)])
  | .enumerated type value =>
      .choice "EnumeratedType"
        (.object
          [("type_name", type.typeToJson),
            ("initial_value", Json.ofOption EnumValue.toJson value)])
  | .functionBlock type =>
      .choice "FunctionBlock" (.object [("type_name", type.typeToJson)])
  | .array spec => .choice "Array" (.object [("spec", spec.toJson)])

/-- Reads a type with an optional value. -/
def readTypeAndValue {α : Type} (read : Reader α) : Reader (Ident × Option α) :=
  Reader.record ["type_name", "initial_value"] fun depth fields => do
    let [type, value] := fields | none
    let type ← Reader.required Ident.readType depth type
    let value ← Reader.optional read depth value
    return (type, value)

def readString : Reader Initializer :=
  Reader.record ["length", "width", "initial_value"] fun depth fields => do
    let [length, width, value] := fields | none
    let length ← Reader.optional IntegerToken.read depth length
    let width ← Reader.required Reader.tagged depth width
    let value ← Reader.optional CharString.read depth value
    return .string length width value

def read : Reader Initializer := Reader.choice fun depth tag content =>
  match tag with
  | "Simple" =>
      (readTypeAndValue Constant.read depth content).map fun (type, value) => .simple type value
  | "String" => readString depth content
  | "EnumeratedType" =>
      (readTypeAndValue EnumValue.read depth content).map fun (type, value) =>
        .enumerated type value
  | "FunctionBlock" =>
      (Constant.readOnly "type_name" Ident.readType depth content).map .functionBlock
  | "Array" => (Constant.readOnly "spec" ArraySpec.read depth content).map .array
  | _ => none

end Initializer

namespace FieldDecl

def toJson (field : FieldDecl) : Json :=
  .object [("name", field.name.toJson), ("init", field.initializer.toJson)]

def read : Reader FieldDecl := Reader.record ["name", "init"] fun depth fields => do
  let [name, initializer] := fields | none
  let name ← Reader.required Ident.read depth name
  let initializer ← Reader.required Initializer.read depth initializer
  return { name, initializer }

end FieldDecl

namespace TypeDecl

def toJson : TypeDecl → Json
  | .synonym name base =>
      .choice "Simple"
        (.object [("type_name", name.typeToJson), ("base_type", base.typeToJson)])
  | .subrange name base range =>
      .choice "Subrange"
        (.object
          [("type_name", name.typeToJson), ("base_type", Tagged.toJson base),
            ("subrange", range.toJson)])
  | .enumeration name values =>
      .choice "Enumeration"
        (.object
          [("type_name", name.typeToJson), ("values", .array (values.map Ident.toJson))])
  | .array name shape =>
      .choice "Array" (.object [("type_name", name.typeToJson), ("spec", shape.toJson)])
  | .record name fields =>
      .choice "Structure"
        (.object
          [("type_name", name.typeToJson), ("elements", .array (fields.map FieldDecl.toJson))])
  | .string name length width =>
      .choice "String"
        (.object
          [("type_name", name.typeToJson), ("length", length.toJson),
            ("width", Tagged.toJson width)])

/-- Reads the name of a declared type with one thing more. -/
def readNamed {α : Type} (field : String) (read : Reader α) : Reader (Ident × α) :=
  Reader.record ["type_name", field] fun depth fields => do
    let [name, content] := fields | none
    let name ← Reader.required Ident.readType depth name
    let content ← Reader.required read depth content
    return (name, content)

def readSubrange : Reader TypeDecl :=
  Reader.record ["type_name", "base_type", "subrange"] fun depth fields => do
    let [name, base, range] := fields | none
    let name ← Reader.required Ident.readType depth name
    let base ← Reader.required Reader.tagged depth base
    let range ← Reader.required Range.read depth range
    return .subrange name base range

def readString : Reader TypeDecl :=
  Reader.record ["type_name", "length", "width"] fun depth fields => do
    let [name, length, width] := fields | none
    let name ← Reader.required Ident.readType depth name
    let length ← Reader.required IntegerToken.read depth length
    let width ← Reader.required Reader.tagged depth width
    return .string name length width

def read : Reader TypeDecl := Reader.choice fun depth tag content =>
  match tag with
  | "Simple" =>
      (readNamed "base_type" Ident.readType depth content).map fun (name, base) =>
        .synonym name base
  | "Subrange" => readSubrange depth content
  | "Enumeration" =>
      (readNamed "values" (Reader.list Ident.read) depth content).map fun (name, values) =>
        .enumeration name values
  | "Array" =>
      (readNamed "spec" ArrayShape.read depth content).map fun (name, shape) => .array name shape
  | "Structure" =>
      (readNamed "elements" (Reader.list FieldDecl.read) depth content).map fun (name, fields) =>
        .record name fields
  | "String" => readString depth content
  | _ => none

end TypeDecl

instance : Tagged VarKind :=
  ⟨[.var, .temp, .input, .output, .inOut, .external, .global], fun
    | .var => "Var"
    | .temp => "VarTemp"
    | .input => "Input"
    | .output => "Output"
    | .inOut => "InOut"
    | .external => "External"
    | .global => "Global"⟩

instance : Tagged Qualifier :=
  ⟨[.unspecified, .constant, .retain, .nonRetain], fun
    | .unspecified => "Unspecified"
    | .constant => "Constant"
    | .retain => "Retain"
    | .nonRetain => "NonRetain"⟩

namespace VarName

def toJson : VarName → Json
  | .symbol name => .choice "Symbol" name.toJson
  | .located name address =>
      .choice "Direct"
        (.object
          [("name", Json.ofOption Ident.toJson name), ("address_assignment", address.toJson)])

def readLocated : Reader VarName :=
  Reader.record ["name", "address_assignment"] fun depth fields => do
    let [name, address] := fields | none
    let name ← Reader.optional Ident.read depth name
    let address ← Reader.required Address.read depth address
    return .located name address

def read : Reader VarName := Reader.choice fun depth tag content =>
  match tag with
  | "Symbol" => (Ident.read depth content).map .symbol
  | "Direct" => readLocated depth content
  | _ => none

end VarName

namespace VarDecl

def toJson (decl : VarDecl) : Json :=
  .object
    [("identifier", decl.name.toJson), ("var_type", Tagged.toJson decl.kind),
      ("qualifier", Tagged.toJson decl.qualifier), ("initializer", decl.initializer.toJson)]

def read : Reader VarDecl :=
  Reader.record ["identifier", "var_type", "qualifier", "initializer"] fun depth fields => do
    let [name, kind, qualifier, initializer] := fields | none
    let name ← Reader.required VarName.read depth name
    let kind ← Reader.required Reader.tagged depth kind
    let qualifier ← Reader.required Reader.tagged depth qualifier
    let initializer ← Reader.required Initializer.read depth initializer
    return { name, kind, qualifier, initializer }

end VarDecl

end StructuredText
