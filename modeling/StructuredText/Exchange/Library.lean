import StructuredText.Exchange.Expr
import StructuredText.Json.Parser
import StructuredText.Json.Printer
import StructuredText.Tree.Library

/-!
# Statements and libraries in the exchange format
-/

set_option autoImplicit false

namespace StructuredText

namespace Pragma

def toJson : Pragma → Json
  | .code text => .choice "Code" (.string text)
  | .enable => .string "EnableCodeGeneration"
  | .disable => .string "DisableCodeGeneration"

def read : Reader Pragma := fun depth json =>
  match Reader.unit depth json with
  | some "EnableCodeGeneration" => some .enable
  | some "DisableCodeGeneration" => some .disable
  | _ =>
      Reader.choice (fun depth tag content =>
        match tag with
        | "Code" => (Reader.string depth content).map .code
        | _ => none) depth json

end Pragma

namespace CaseLabel

def toJson : CaseLabel → Json
  | .range bounds => .choice "Subrange" bounds.toJson
  | .integer value => .choice "SignedInteger" value.toJson
  | .enumerated value => .choice "EnumeratedValue" value.toJson

def read : Reader CaseLabel := Reader.choice fun depth tag content =>
  match tag with
  | "Subrange" => (Range.read depth content).map .range
  | "SignedInteger" => (SignedToken.read depth content).map .integer
  | "EnumeratedValue" => (EnumValue.read depth content).map .enumerated
  | _ => none

end CaseLabel

/-! ## Writing -/

mutual

def Stmt.toJson : Stmt → Json
  | .assign target value =>
      .choice "Assignment" (.object [("target", target.toJson), ("value", value.toJson)])
  | .invoke block arguments =>
      .choice "FbCall"
        (.object
          [("var_name", block.toJson), ("params", .array (Argument.toJsonList arguments))])
  | .ifElse condition body elseIfs otherwise =>
      .choice "If"
        (.object
          [("expr", condition.toJson), ("body", .array (Stmt.toJsonList body)),
            ("else_ifs", .array (ElseIf.toJsonList elseIfs)),
            ("else_body", .array (Stmt.toJsonList otherwise))])
  | .select selector groups otherwise =>
      .choice "Case"
        (.object
          [("selector", selector.toJson),
            ("statement_groups", .array (CaseGroup.toJsonList groups)),
            ("else_body", .array (Stmt.toJsonList otherwise))])
  | .forTo control first last step body =>
      .choice "For"
        (.object
          [("control", control.toJson), ("from", first.toJson), ("to", last.toJson),
            ("step", Json.ofOption Expr.toJson step), ("body", .array (Stmt.toJsonList body))])
  | .whileDo condition body =>
      .choice "While"
        (.object [("condition", condition.toJson), ("body", .array (Stmt.toJsonList body))])
  | .repeatUntil body condition =>
      .choice "Repeat"
        (.object [("until", condition.toJson), ("body", .array (Stmt.toJsonList body))])
  | .leaveUnit => .string "Return"
  | .leaveLoop => .string "Exit"
  | .pragma directive => .choice "Pragma" directive.toJson

def Stmt.toJsonList : List Stmt → List Json
  | [] => []
  | stmt :: stmts => stmt.toJson :: Stmt.toJsonList stmts

def ElseIf.toJsonList : List ElseIf → List Json
  | [] => []
  | .mk condition body :: elseIfs =>
      .object [("expr", condition.toJson), ("body", .array (Stmt.toJsonList body))] ::
        ElseIf.toJsonList elseIfs

def CaseGroup.toJsonList : List CaseGroup → List Json
  | [] => []
  | .mk labels body :: groups =>
      .object
          [("selectors", .array (labels.map CaseLabel.toJson)),
            ("statements", .array (Stmt.toJsonList body))] ::
        CaseGroup.toJsonList groups

end

/-! ## Reading -/

mutual

def Stmt.read : Reader Stmt
  | depth, json =>
      match Reader.unit depth json, depth with
      | some "Return", _ => some .leaveUnit
      | some "Exit", _ => some .leaveLoop
      | _, 0 => none
      | _, depth + 1 =>
          match json.content? with
          | some ("Assignment", content) => Stmt.readAssign depth content
          | some ("FbCall", content) => Stmt.readInvoke depth content
          | some ("If", content) => Stmt.readIf depth content
          | some ("Case", content) => Stmt.readSelect depth content
          | some ("For", content) => Stmt.readFor depth content
          | some ("While", content) => Stmt.readWhile depth content
          | some ("Repeat", content) => Stmt.readRepeat depth content
          | some ("Pragma", content) => (Pragma.read depth content).map .pragma
          | _ => none

def Stmt.readAssign : Reader Stmt
  | 0, _ => none
  | depth + 1, json => do
      let [target, value] ← json.fields? ["target", "value"] | none
      let target ← Reader.required Variable.read depth target
      let value ← Reader.required Expr.read depth value
      return .assign target value

def Stmt.readInvoke : Reader Stmt
  | 0, _ => none
  | depth + 1, json => do
      let [block, arguments] ← json.fields? ["var_name", "params"] | none
      let block ← Reader.required Ident.read depth block
      let arguments ← Reader.required Argument.readList depth arguments
      return .invoke block arguments

def Stmt.readIf : Reader Stmt
  | 0, _ => none
  | depth + 1, json => do
      let [condition, body, elseIfs, otherwise] ←
        json.fields? ["expr", "body", "else_ifs", "else_body"] | none
      let condition ← Reader.required Expr.read depth condition
      let body ← Stmt.readList depth (← body)
      let elseIfs ← ElseIf.readList depth (← elseIfs)
      let otherwise ← Stmt.readList depth (← otherwise)
      return .ifElse condition body elseIfs otherwise

def Stmt.readSelect : Reader Stmt
  | 0, _ => none
  | depth + 1, json => do
      let [selector, groups, otherwise] ←
        json.fields? ["selector", "statement_groups", "else_body"] | none
      let selector ← Reader.required Expr.read depth selector
      let groups ← CaseGroup.readList depth (← groups)
      let otherwise ← Stmt.readList depth (← otherwise)
      return .select selector groups otherwise

def Stmt.readFor : Reader Stmt
  | 0, _ => none
  | depth + 1, json => do
      let [control, first, last, step, body] ←
        json.fields? ["control", "from", "to", "step", "body"] | none
      let control ← Reader.required Ident.read depth control
      let first ← Reader.required Expr.read depth first
      let last ← Reader.required Expr.read depth last
      let step ← Reader.optional Expr.read depth step
      let body ← Stmt.readList depth (← body)
      return .forTo control first last step body

def Stmt.readWhile : Reader Stmt
  | 0, _ => none
  | depth + 1, json => do
      let [condition, body] ← json.fields? ["condition", "body"] | none
      let condition ← Reader.required Expr.read depth condition
      let body ← Stmt.readList depth (← body)
      return .whileDo condition body

def Stmt.readRepeat : Reader Stmt
  | 0, _ => none
  | depth + 1, json => do
      let [condition, body] ← json.fields? ["until", "body"] | none
      let condition ← Reader.required Expr.read depth condition
      let body ← Stmt.readList depth (← body)
      return .repeatUntil body condition

def Stmt.readList : Reader (List Stmt)
  | 0, _ => none
  | depth + 1, json => json.array?.bind fun items => items.mapM (Stmt.read depth)

def ElseIf.read : Reader ElseIf
  | 0, _ => none
  | depth + 1, json => do
      let [condition, body] ← json.fields? ["expr", "body"] | none
      let condition ← Reader.required Expr.read depth condition
      let body ← Stmt.readList depth (← body)
      return .mk condition body

def ElseIf.readList : Reader (List ElseIf)
  | 0, _ => none
  | depth + 1, json => json.array?.bind fun items => items.mapM (ElseIf.read depth)

def CaseGroup.read : Reader CaseGroup
  | 0, _ => none
  | depth + 1, json => do
      let [labels, body] ← json.fields? ["selectors", "statements"] | none
      let labels ← Reader.required (Reader.list CaseLabel.read) depth labels
      let body ← Stmt.readList depth (← body)
      return .mk labels body

def CaseGroup.readList : Reader (List CaseGroup)
  | 0, _ => none
  | depth + 1, json => json.array?.bind fun items => items.mapM (CaseGroup.read depth)

end

/-! ## Units and libraries -/

namespace FunctionDecl

def toJson (decl : FunctionDecl) : Json :=
  .object
    [("name", decl.name.toJson), ("return_type", decl.returnType.typeToJson),
      ("variables", .array (decl.vars.map VarDecl.toJson)),
      ("body", .array (Stmt.toJsonList decl.body))]

def read : Reader FunctionDecl :=
  Reader.record ["name", "return_type", "variables", "body"] fun depth fields => do
    let [name, returnType, vars, body] := fields | none
    let name ← Reader.required Ident.read depth name
    let returnType ← Reader.required Ident.readType depth returnType
    let vars ← Reader.required (Reader.list VarDecl.read) depth vars
    let body ← Reader.required Stmt.readList depth body
    return { name, returnType, vars, body }

end FunctionDecl

namespace FunctionBlockDecl

def toJson (decl : FunctionBlockDecl) : Json :=
  .object
    [("name", decl.name.typeToJson), ("variables", .array (decl.vars.map VarDecl.toJson)),
      ("body", .array (Stmt.toJsonList decl.body))]

def read : Reader FunctionBlockDecl :=
  Reader.record ["name", "variables", "body"] fun depth fields => do
    let [name, vars, body] := fields | none
    let name ← Reader.required Ident.readType depth name
    let vars ← Reader.required (Reader.list VarDecl.read) depth vars
    let body ← Reader.required Stmt.readList depth body
    return { name, vars, body }

end FunctionBlockDecl

namespace ProgramDecl

def toJson (decl : ProgramDecl) : Json :=
  .object
    [("name", decl.name.toJson), ("variables", .array (decl.vars.map VarDecl.toJson)),
      ("body", .array (Stmt.toJsonList decl.body))]

def read : Reader ProgramDecl :=
  Reader.record ["name", "variables", "body"] fun depth fields => do
    let [name, vars, body] := fields | none
    let name ← Reader.required Ident.read depth name
    let vars ← Reader.required (Reader.list VarDecl.read) depth vars
    let body ← Reader.required Stmt.readList depth body
    return { name, vars, body }

end ProgramDecl

namespace Element

def toJson : Element → Json
  | .type decl => .choice "DataTypeDeclaration" decl.toJson
  | .function decl => .choice "FunctionDeclaration" decl.toJson
  | .functionBlock decl => .choice "FunctionBlockDeclaration" decl.toJson
  | .program decl => .choice "ProgramDeclaration" decl.toJson
  | .pragma directive => .choice "Pragma" directive.toJson

def read : Reader Element := Reader.choice fun depth tag content =>
  match tag with
  | "DataTypeDeclaration" => (TypeDecl.read depth content).map .type
  | "FunctionDeclaration" => (FunctionDecl.read depth content).map .function
  | "FunctionBlockDeclaration" => (FunctionBlockDecl.read depth content).map .functionBlock
  | "ProgramDeclaration" => (ProgramDecl.read depth content).map .program
  | "Pragma" => (Pragma.read depth content).map .pragma
  | _ => none

end Element

namespace Library

def toJson (library : Library) : Json :=
  .object [("elements", .array (library.elements.map Element.toJson))]

def read : Reader Library := Reader.record ["elements"] fun depth fields => do
  let [elements] := fields | none
  let elements ← Reader.required (Reader.list Element.read) depth elements
  return { elements }

/-- The library that a text in the exchange format holds. -/
def ofText? (text : String) : Option Library := (Json.parse? text).bind (read Json.maxDepth)

/-- The text of a library in the exchange format. -/
def toText (library : Library) (pretty : Bool) : String := library.toJson.render pretty

end Library

end StructuredText
