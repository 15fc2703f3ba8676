import StructuredText.Call.Signature

/-!
# Standard functions and function blocks

Only the signatures are given here; the support layer of the generated code
implements them.
-/

set_option autoImplicit false

namespace StructuredText.Standard

/-- One declaration for each type, whose single parameter is extensible. -/
def extensible (name : String) (types : List Elementary) : List FunctionSignature :=
  types.map fun type =>
    .standard { name } (.elementary type) [Parameter.extensible "IN" type]

/-- One declaration for each type, with one parameter. -/
def unary (name : String) (types : List Elementary) : List FunctionSignature :=
  types.map fun type => .standard { name } (.elementary type) [Parameter.input "IN" type]

/-- The functions that select one of several values of a type. -/
def selection (type : Elementary) : List FunctionSignature :=
  [.standard { name := "SEL" } (.elementary type)
      [.input "G" .bool, .input "IN0" type, .input "IN1" type],
    .standard { name := "LIMIT" } (.elementary type)
      [.input "MN" type, .input "IN" type, .input "MX" type],
    .standard { name := "MUX" } (.elementary type) [.input "K" .int, .extensible "IN" type]]

/-- The types between which conversions exist. -/
def convertible : List Elementary := Elementary.numeric ++ Elementary.bits

/-- A conversion from each type to each other type. -/
def conversions : List FunctionSignature :=
  convertible.flatMap fun source =>
    (convertible.filter fun target => target ≠ source).map fun target =>
      .standard { name := source.cName ++ "_TO_" ++ target.cName } (.elementary target)
        [.input "IN" source]

/-- The standard functions, with or without the conversions. -/
def functions (withConversions : Bool) : List FunctionSignature :=
  let reals : List Elementary := [.real, .lreal]
  extensible "ADD" Elementary.numeric ++ extensible "MUL" Elementary.numeric ++
    unary "ABS" Elementary.numeric ++ unary "SQRT" reals ++
    (reals.map fun type =>
      .standard { name := "EXPT" } (.elementary type) [.input "IN1" type, .input "IN2" type]) ++
    extensible "AND" Elementary.bits ++ extensible "OR" Elementary.bits ++
    extensible "XOR" Elementary.bits ++ extensible "MAX" Elementary.numeric ++
    extensible "MIN" Elementary.numeric ++ Elementary.numeric.flatMap selection ++
    if withConversions then conversions else []

def timer (name : String) : BlockSignature :=
  .standard { name } [.input "IN" .bool, .input "PT" .time, .output "Q" .bool, .output "ET" .time]

def edge (name : String) : BlockSignature :=
  .standard { name } [.input "CLK" .bool, .output "Q" .bool]

/-- A counter with the names of its counting and its resetting input. -/
def counter (name count reset : String) : BlockSignature :=
  .standard { name }
    [.input count .bool, .input reset .bool, .input "PV" .int, .output "Q" .bool,
      .output "CV" .int]

/-- A latch with the names of its setting and its resetting input. -/
def latch (name set reset : String) : BlockSignature :=
  .standard { name } [.input set .bool, .input reset .bool, .output "Q1" .bool]

/-- The standard function blocks. -/
def blocks : List BlockSignature :=
  [timer "TON", timer "TOF", timer "TP", counter "CTU" "CU" "R", counter "CTD" "CD" "LD",
    edge "R_TRIG", edge "F_TRIG", latch "SR" "S1" "R", latch "RS" "S" "R1"]

/-- True for the names of the standard function blocks. -/
def isBlock (name : Ident) : Bool := blocks.any fun block => block.name == name

end StructuredText.Standard
