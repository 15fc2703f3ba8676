import StructuredText.Call.Signature
import StructuredText.Token.Address

/-!
# Names in generated code
-/

set_option autoImplicit false

namespace StructuredText

/-- The parameters whose types tell one declaration of a function from another: an
extensible parameter counts once, external references do not count. -/
def FunctionSignature.distinguishing (signature : FunctionSignature) : List Parameter :=
  let explicit := signature.explicit.filter fun parameter => parameter.direction != .external
  let (before, group) := explicit.span fun parameter => !parameter.isExtensible
  before ++ group.take 1 ++ (group.drop 1).filter fun parameter => !parameter.isExtensible

/-- What follows the name of a function with several declarations: the type of the
result and those of the parameters. -/
def FunctionSignature.overloadSuffix (signature : FunctionSignature) : String :=
  "__".intercalate
    (signature.returnType.cName ::
      signature.distinguishing.map fun parameter => parameter.type.cName)

/-- The name of a function in generated code. -/
def FunctionSignature.cName (signature : FunctionSignature) (isOverloaded : Bool) : String :=
  if isOverloaded then signature.name.upper ++ "__" ++ signature.overloadSuffix
  else signature.name.upper

/-- The size of an address as it shows in a name. -/
def AddressSize.nameMark : AddressSize → String
  | unspecified | none => ""
  | bit => "X"
  | byte => "B"
  | word => "W"
  | doubleWord => "D"
  | longWord => "L"

/-- The name of a place of the hardware, such as `__IX0_3` for `%IX0.3`. -/
def Address.cName (address : Address) : String :=
  "__" ++ address.area.letter.toString ++ address.size.nameMark ++
    "_".intercalate (address.parts.map toString)

end StructuredText
