import StructuredText.Exchange.Declaration
import StructuredText.Tree.Expr

/-!
# Expressions in the exchange format

Readers of recursive parts recurse on the depth that is left.
-/

set_option autoImplicit false

namespace StructuredText

instance : Tagged CompareOp :=
  ⟨[.or, .xor, .and, .eq, .ne, .lt, .gt, .le, .ge], fun
    | .or => "Or"
    | .xor => "Xor"
    | .and => "And"
    | .eq => "Eq"
    | .ne => "Ne"
    | .lt => "Lt"
    | .gt => "Gt"
    | .le => "LtEq"
    | .ge => "GtEq"⟩

instance : Tagged ArithOp :=
  ⟨[.add, .sub, .mul, .div, .mod, .pow], fun
    | .add => "Add"
    | .sub => "Sub"
    | .mul => "Mul"
    | .div => "Div"
    | .mod => "Mod"
    | .pow => "Pow"⟩

instance : Tagged UnaryOp :=
  ⟨[.neg, .not], fun
    | .neg => "Neg"
    | .not => "Not"⟩

/-! ## Writing -/

mutual

def Reference.toJson : Reference → Json
  | .named name => .choice "Named" (.object [("name", name.toJson)])
  | .element array subscripts =>
      .choice "Array"
        (.object
          [("subscripted_variable", array.toJson),
            ("subscripts", .array (Expr.toJsonList subscripts))])
  | .field record name =>
      .choice "Structured" (.object [("record", record.toJson), ("field", name.toJson)])

def Variable.toJson : Variable → Json
  | .direct address => .choice "Direct" address.toJson
  | .symbolic reference => .choice "Symbolic" reference.toJson

def Expr.toJson : Expr → Json
  | .compare op left right =>
      .choice "Compare"
        (.object [("op", Tagged.toJson op), ("left", left.toJson), ("right", right.toJson)])
  | .arith op left right =>
      .choice "BinaryOp"
        (.object [("op", Tagged.toJson op), ("left", left.toJson), ("right", right.toJson)])
  | .unary op term =>
      .choice "UnaryOp" (.object [("op", Tagged.toJson op), ("term", term.toJson)])
  | .group inner => .choice "Expression" inner.toJson
  | .const value => .choice "Const" value.toJson
  | .enumerated value => .choice "EnumeratedValue" value.toJson
  | .var source => .choice "Variable" source.toJson
  | .call function arguments =>
      .choice "Function"
        (.object
          [("name", function.toJson), ("param_assignment", .array (Argument.toJsonList arguments))])

def Expr.toJsonList : List Expr → List Json
  | [] => []
  | expr :: exprs => expr.toJson :: Expr.toJsonList exprs

def Argument.toJson : Argument → Json
  | .positional value => .choice "PositionalInput" (.object [("expr", value.toJson)])
  | .named name value =>
      .choice "NamedInput" (.object [("name", name.toJson), ("expr", value.toJson)])
  | .output isNegated source target =>
      .choice "Output"
        (.object
          [("not", .bool isNegated), ("src", source.toJson), ("tgt", target.toJson)])

def Argument.toJsonList : List Argument → List Json
  | [] => []
  | argument :: arguments => argument.toJson :: Argument.toJsonList arguments

end

/-! ## Reading -/

mutual

def Reference.read : Reader Reference
  | 0, _ => none
  | depth + 1, json =>
      match json.content? with
      | some ("Named", content) => (Constant.readOnly "name" Ident.read depth content).map .named
      | some ("Array", content) => Reference.readElement depth content
      | some ("Structured", content) => Reference.readField depth content
      | _ => none

def Reference.readElement : Reader Reference
  | 0, _ => none
  | depth + 1, json => do
      let [array, subscripts] ← json.fields? ["subscripted_variable", "subscripts"] | none
      let array ← Reference.read depth (← array)
      let subscripts ← Expr.readList depth (← subscripts)
      return .element array subscripts

def Reference.readField : Reader Reference
  | 0, _ => none
  | depth + 1, json => do
      let [record, name] ← json.fields? ["record", "field"] | none
      let record ← Reference.read depth (← record)
      let name ← Reader.required Ident.read depth name
      return .field record name

def Variable.read : Reader Variable
  | 0, _ => none
  | depth + 1, json =>
      match json.content? with
      | some ("Direct", content) => (Address.read depth content).map .direct
      | some ("Symbolic", content) => (Reference.read depth content).map .symbolic
      | _ => none

def Expr.read : Reader Expr
  | 0, _ => none
  | depth + 1, json =>
      match json.content? with
      | some ("Compare", content) => Expr.readCompare depth content
      | some ("BinaryOp", content) => Expr.readArith depth content
      | some ("UnaryOp", content) => Expr.readUnary depth content
      | some ("Expression", content) => (Expr.read depth content).map .group
      | some ("Const", content) => (Constant.read depth content).map .const
      | some ("EnumeratedValue", content) => (EnumValue.read depth content).map .enumerated
      | some ("Variable", content) => (Variable.read depth content).map .var
      | some ("Function", content) => Expr.readCall depth content
      | _ => none

def Expr.readCompare : Reader Expr
  | 0, _ => none
  | depth + 1, json => do
      let [op, left, right] ← json.fields? ["op", "left", "right"] | none
      let op ← Reader.required Reader.tagged depth op
      let left ← Expr.read depth (← left)
      let right ← Expr.read depth (← right)
      return .compare op left right

def Expr.readArith : Reader Expr
  | 0, _ => none
  | depth + 1, json => do
      let [op, left, right] ← json.fields? ["op", "left", "right"] | none
      let op ← Reader.required Reader.tagged depth op
      let left ← Expr.read depth (← left)
      let right ← Expr.read depth (← right)
      return .arith op left right

def Expr.readUnary : Reader Expr
  | 0, _ => none
  | depth + 1, json => do
      let [op, term] ← json.fields? ["op", "term"] | none
      let op ← Reader.required Reader.tagged depth op
      let term ← Expr.read depth (← term)
      return .unary op term

def Expr.readCall : Reader Expr
  | 0, _ => none
  | depth + 1, json => do
      let [function, arguments] ← json.fields? ["name", "param_assignment"] | none
      let function ← Reader.required Ident.read depth function
      let arguments ← Argument.readList depth (← arguments)
      return .call function arguments

def Expr.readList : Reader (List Expr)
  | 0, _ => none
  | depth + 1, json => json.array?.bind fun items => items.mapM (Expr.read depth)

def Argument.read : Reader Argument
  | 0, _ => none
  | depth + 1, json =>
      match json.content? with
      | some ("PositionalInput", content) => Argument.readPositional depth content
      | some ("NamedInput", content) => Argument.readNamed depth content
      | some ("Output", content) => Argument.readOutput depth content
      | _ => none

def Argument.readPositional : Reader Argument
  | 0, _ => none
  | depth + 1, json => do
      let [value] ← json.fields? ["expr"] | none
      let value ← Expr.read depth (← value)
      return .positional value

def Argument.readNamed : Reader Argument
  | 0, _ => none
  | depth + 1, json => do
      let [name, value] ← json.fields? ["name", "expr"] | none
      let name ← Reader.required Ident.read depth name
      let value ← Expr.read depth (← value)
      return .named name value

def Argument.readOutput : Reader Argument
  | 0, _ => none
  | depth + 1, json => do
      let [isNegated, source, target] ← json.fields? ["not", "src", "tgt"] | none
      let isNegated ← Reader.required Reader.bool depth isNegated
      let source ← Reader.required Ident.read depth source
      let target ← Variable.read depth (← target)
      return .output isNegated source target

def Argument.readList : Reader (List Argument)
  | 0, _ => none
  | depth + 1, json => json.array?.bind fun items => items.mapM (Argument.read depth)

end

end StructuredText
