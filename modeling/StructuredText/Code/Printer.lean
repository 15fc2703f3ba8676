import StructuredText.Code.Layout
import StructuredText.Code.Tree

/-!
# The text of generated code

Every construct has one text.  Lines inside an expression are laid out one level
deeper than the statement that the expression stands in.
-/

set_option autoImplicit false

namespace StructuredText.Code

def BinaryOp.symbol : BinaryOp → String
  | add => "+"
  | sub => "-"
  | mul => "*"
  | div => "/"
  | rem => "%"
  | eq => "=="
  | ne => "!="
  | lt => "<"
  | gt => ">"
  | le => "<="
  | ge => ">="
  | logicalAnd => "&&"
  | logicalOr => "||"
  | bitAnd => "&"
  | bitOr => "|"
  | bitXor => "^"

def UnaryOp.symbol : UnaryOp → String
  | minus => "-"
  | logicalNot => "!"
  | complement => "~"
  | address => "&"

def Family.suffix : Family → String
  | own => "VAR"
  | located => "LOCATED"
  | external => "EXTERNAL"
  | externalBlock => "EXTERNAL_FB"

/-- The accessor that gives a value, or a pointer to it. -/
def Family.getter (family : Family) (byPointer : Bool) : String :=
  "__GET_" ++ family.suffix ++ if byPointer then "_BY_REF" else ""

/-- The accessor that stores a value. -/
def Family.setter (family : Family) : String := "__SET_" ++ family.suffix

/-! ## Expressions -/

mutual

/-- The text of an expression in a statement at a depth. -/
def Expr.print (depth : Nat) : Expr → List Piece
  | .atom text => [.text text]
  | .paren inner => .text "(" :: (inner.print depth ++ [.text ")"])
  | .unary op term => .text op.symbol :: term.print depth
  | .binary op left right =>
      .text "(" :: (left.print depth ++ .text (" " ++ op.symbol ++ " ") :: right.print depth ++
        [.text ")"])
  | .choose condition yes no =>
      .text "(" :: (condition.print depth ++ .text "?" :: yes.print depth ++
        .text ":" :: no.print depth ++ [.text ")"])
  | .next value step => value.print depth ++ .text " + " :: step.print depth
  | .cast type value => .text ("(" ++ type ++ ")") :: value.print depth
  | .call function arguments =>
      .text (function ++ "(") :: (Expr.printList depth [.text ", "] arguments ++ [.text ")"])
  | .callLines function arguments =>
      .text (function ++ "(") ::
        (Expr.printList (depth + 1) [.text ",\n", .margin (depth + 1)] arguments ++ [.text ")"])
  | .load place => place.print depth false
  | .pointer place => place.print depth true

def Expr.printList (depth : Nat) (separator : List Piece) : List Expr → List Piece
  | [] => []
  | [last] => last.print depth
  | first :: second :: rest =>
      first.print depth ++ separator ++ Expr.printList depth separator (second :: rest)

/-- The text that gives the value of a place, or a pointer to it. -/
def Place.print (depth : Nat) (byPointer : Bool) : Place → List Piece
  | .pin name => [.text (if byPointer then name else "*(" ++ name ++ ")")]
  | .named root path =>
      if byPointer then .text ("&(" ++ root) :: (path.print depth ++ [.text ")"])
      else .text root :: path.print depth
  | .member family handle root =>
      [.text (family.getter byPointer ++ "(" ++ handle ++ root ++ ")")]
  | .part family handle root path =>
      .text (family.getter byPointer ++ "(" ++ handle ++ root ++ ",") ::
        (path.print depth ++ [.text ")"])

def Path.print (depth : Nat) : Path → List Piece
  | .here => []
  | .field record name => record.print depth ++ [.text ("." ++ name)]
  | .cell array subscripts =>
      array.print depth ++ .text ".table" :: Subscript.printList depth subscripts

def Subscript.printList (depth : Nat) : List Subscript → List Piece
  | [] => []
  | .mk value lower :: rest =>
      .text "[(" :: (value.print depth ++ .text (") - (" ++ toString lower ++ ")]") ::
        Subscript.printList depth rest)

end

/-- The text of a store. -/
def Store.print (depth : Nat) (store : Store) : List Piece :=
  let value := store.value.print depth
  match store.place with
  | .member family handle root =>
      .text (family.setter ++ "(" ++ handle ++ "," ++ root ++ ",") :: (value ++ [.text ")"])
  | .part family handle root path =>
      .text (family.setter ++ "(" ++ handle ++ "," ++ root ++ ",") ::
        (value ++ .text "," :: path.print depth ++ [.text ")"])
  | .pin _ | .named .. => store.place.print depth false ++ .text " = " :: value

/-! ## Statements -/

/-- The test that keeps a counting loop going. -/
def Step.printTest (depth : Nat) (control : Place) (last : Expr) : Step → List Piece
  | .one | .upward _ => control.print depth false ++ .text " <= " :: last.print depth
  | .either step =>
      .text "((" :: (step.print depth ++ .text ") > 0)? (" :: control.print depth false ++
        .text " <= (" :: last.print depth ++ .text ")) : (" :: control.print depth false ++
        .text " >= (" :: last.print depth ++ [.text "))"])

/-- How a named control variable goes on. -/
def Step.printAdvance (depth : Nat) (control : Place) : Step → List Piece
  | .one => control.print depth false ++ [.text "++"]
  | .upward step => control.print depth false ++ .text " += " :: step.print depth
  | .either step => control.print depth false ++ .text " += (" :: step.print depth ++ [.text ")"]

/-- The label that a selection inside a loop jumps to. -/
def printExit (depth : Nat) : Option Nat → List Piece
  | some loop => Piece.textLine depth ("__exit_" ++ toString loop ++ ":;")
  | none => []

/-- The test whether the selector lies in a range. -/
def rangeTest (bounds : String × String) : String :=
  "__case_expression >= " ++ bounds.1 ++ " && __case_expression <= " ++ bounds.2

/-- The test whether the selector lies in one of several ranges. -/
def rangeTests : List (String × String) → String
  | [bounds] => rangeTest bounds
  | ranges => " || ".intercalate (ranges.map fun bounds => "(" ++ rangeTest bounds ++ ")")

mutual

/-- The text of a statement at a depth, its margin and its end included. -/
def Stmt.print (depth : Nat) : Stmt → List Piece
  | .store store => .margin depth :: (store.print depth ++ [.text ";\n"])
  | .invoke before run after =>
      .margin depth ::
        (Piece.separate [.text ";\n", .margin depth]
          (before.map (Store.print depth) ++ run.print depth :: after.map (Store.print depth)) ++
          [.text ";\n"])
  | .ifElse condition body elseIfs otherwise =>
      .margin depth :: .text "if (" :: (condition.print depth ++ .text ") \x7b\n" ::
        (Stmt.printList (depth + 1) body ++ Branch.printList depth elseIfs ++
          (match otherwise with
            | [] => []
            | _ => .margin depth :: .text "\x7d else \x7b\n" ::
                Stmt.printList (depth + 1) otherwise) ++
          [.margin depth, .text "\x7d", .text ";\n"]))
  | .select type selector cases ranges otherwise =>
      [.margin depth, .text "\x7b\n", .margin (depth + 1),
        .text (type ++ " __case_expression = ")] ++ selector.print depth ++
      [.text ";\n", .margin (depth + 1), .text "switch (__case_expression) \x7b\n"] ++
      Case.printList (depth + 2) cases ++ Piece.textLine (depth + 2) "default:" ++
      RangeCase.printList (depth + 3) true ranges ++
      (match ranges, otherwise with
        | [], _ => Stmt.printList (depth + 3) otherwise
        | _, [] => []
        | _, _ =>
            Piece.textLine (depth + 3) "else \x7b" ++ Stmt.printList (depth + 4) otherwise ++
              Piece.textLine (depth + 3) "\x7d") ++
      Piece.textLine (depth + 3) "break;" ++ Piece.textLine (depth + 1) "\x7d" ++
      [.margin depth, .text "\x7d", .text ";\n"]
  | .forLoop control first last step body exit =>
      .margin depth :: .text "for(" :: (Store.print depth ⟨control, first⟩ ++ .text "; " ::
        step.printTest depth control last ++ .text "; " :: step.printAdvance depth control ++
        .text ") \x7b\n" :: Stmt.printList (depth + 1) body ++
        [.margin depth, .text "\x7d", .text ";\n"] ++ printExit depth exit)
  | .countLoop control first last step next body exit =>
      .margin depth :: (Store.print depth ⟨control, first⟩ ++
        [.text ";\n", .margin depth, .text "while ("] ++ step.printTest depth control last ++
        .text ") \x7b\n" :: Stmt.printList (depth + 1) body ++
        .margin (depth + 1) :: Store.print depth ⟨control, next⟩ ++
        [.text ";\n", .margin depth, .text "\x7d", .text ";\n"] ++ printExit depth exit)
  | .whileLoop condition body exit =>
      .margin depth :: .text "while (" :: (condition.print depth ++ .text ") \x7b\n" ::
        Stmt.printList (depth + 1) body ++ [.margin depth, .text "\x7d", .text ";\n"] ++
        printExit depth exit)
  | .untilLoop body condition exit =>
      .margin depth :: .text "do \x7b\n" :: (Stmt.printList (depth + 1) body ++
        [.margin depth, .text "\x7d while (!("] ++ condition.print depth ++
        [.text "))", .text ";\n"] ++ printExit depth exit)
  | .leaveUnit => Piece.textLine depth "goto __end;"
  | .leaveLoop => Piece.textLine depth "break;"
  | .jumpOut loop => Piece.textLine depth ("goto __exit_" ++ toString loop ++ ";")
  | .code text => [.text text, .text "\n"]
  | .accessorCode text =>
      Piece.textLine depth "#define GetFbVar(var,...) __GET_VAR(data__->var,__VA_ARGS__)" ++
      Piece.textLine depth
        "#define SetFbVar(var,val,...) __SET_VAR(data__->,var,val,__VA_ARGS__)" ++
      [.text (text ++ "\n")] ++ Piece.textLine depth "#undef GetFbVar" ++
      Piece.textLine depth "#undef SetFbVar"
  | .switch on => [.switch on]

def Stmt.printList (depth : Nat) : List Stmt → List Piece
  | [] => []
  | stmt :: stmts => stmt.print depth ++ Stmt.printList depth stmts

def Branch.printList (depth : Nat) : List Branch → List Piece
  | [] => []
  | .mk condition body :: branches =>
      .margin depth :: .text "\x7d else if (" :: (condition.print depth ++ .text ") \x7b\n" ::
        (Stmt.printList (depth + 1) body ++ Branch.printList depth branches))

def Case.printList (depth : Nat) : List Case → List Piece
  | [] => []
  | .mk labels body :: cases =>
      labels.flatMap (fun label => Piece.textLine depth ("case " ++ label ++ ":")) ++
        Stmt.printList (depth + 1) body ++ Piece.textLine (depth + 1) "break;" ++
        Case.printList depth cases

/-- The chain of tests for ranges; the first has no `else`. -/
def RangeCase.printList (depth : Nat) (isFirst : Bool) : List RangeCase → List Piece
  | [] => []
  | .mk ranges body :: rest =>
      Piece.textLine depth
        ((if isFirst then "if (" else "else if (") ++ rangeTests ranges ++ ") \x7b") ++
      Stmt.printList (depth + 1) body ++ Piece.textLine depth "\x7d" ++
      RangeCase.printList depth false rest

end

/-! ## Type declarations -/

def TypeDecl.print : TypeDecl → List Piece
  | .string name length =>
      [.text ("__DECLARE_STRING_TYPE(" ++ name ++ "," ++ toString length ++ ")\n")]
  | .derived name base => [.text ("__DECLARE_DERIVED_TYPE(" ++ name ++ "," ++ base ++ ")\n")]
  | .subrange name base lower upper =>
      [.text ("__DECLARE_DERIVED_TYPE(" ++ name ++ "," ++ base ++ ")\n"),
        .text ("static inline " ++ base ++ " __CHECK_" ++ name ++ "(" ++ base ++
          " value) \x7b\n")] ++
      Piece.textLine 1 ("if (value < " ++ toString lower ++ ")") ++
      Piece.textLine 2 ("return " ++ toString lower ++ ";") ++
      Piece.textLine 1 ("if (value > " ++ toString upper ++ ")") ++
      Piece.textLine 2 ("return " ++ toString upper ++ ";") ++
      Piece.textLine 1 "return value;" ++ [.text "\x7d\n"]
  | .enumeration name values =>
      .text ("__DECLARE_ENUMERATED_TYPE(" ++ name ++ ",\n") ::
        (Piece.separate [.text ",\n"]
          (values.map fun value => [.margin 1, .text (name ++ "__" ++ value)]) ++ [.text "\n)\n"])
  | .array name element lengths =>
      [.text ("__DECLARE_ARRAY_TYPE(" ++ name ++ "," ++ element ++ "," ++
        String.join (lengths.map fun length => "[" ++ toString length ++ "]") ++ ")\n")]
  | .record name fields =>
      .text ("__DECLARE_STRUCT_TYPE(" ++ name ++ ",\n") ::
        (fields.flatMap (fun field => Piece.textLine 1 (field.2 ++ " " ++ field.1 ++ ";")) ++
          [.text ")\n"])

/-! ## Functions -/

def Formal.print (formal : Formal) : String :=
  formal.type ++ (if formal.byPointer then " *__" else " ") ++ formal.name

def Local.print : Local → String
  | .copied type name => type ++ " " ++ name ++ " = *__" ++ name ++ ";"
  | .cleared type name => type ++ " " ++ name ++ " = \x7b0\x7d;"
  | .initialized type name value => type ++ " " ++ name ++ " = " ++ value ++ ";"

/-- The copy of an output to where its pointer points, if it points somewhere. -/
def Formal.printCopyBack (formal : Formal) : List Piece :=
  if formal.byPointer then
    Piece.textLine 1 ("if (__" ++ formal.name ++ " != NULL) \x7b") ++
      Piece.textLine 2 ("*__" ++ formal.name ++ " = " ++ formal.name ++ ";") ++
      Piece.textLine 1 "\x7d"
  else []

/-- The comment that names a unit. -/
def unitComment (layout : Layout) (kind name : String) : List Piece :=
  if layout.comments then [.text ("// " ++ kind ++ " " ++ name ++ "\n")] else []

def FunctionDef.print (layout : Layout) (definition : FunctionDef) : List Piece :=
  unitComment layout "FUNCTION" definition.unit ++
  [Piece.text (definition.returnType ++ " " ++ definition.name ++ "(" ++
    ", ".intercalate (definition.formals.map Formal.print) ++ ")\n\x7b\n")] ++
  Piece.textLine 1 "BOOL ENO = __BOOL_LITERAL(TRUE);" ++
  definition.locals.flatMap (fun entry => Piece.textLine 1 entry.print) ++
  Piece.textLine 1
    (definition.returnType ++ " " ++ definition.unit ++ " = " ++ definition.resultValue ++ ";\n") ++
  Piece.textLine 1 "// Control execution" ++ Piece.textLine 1 "if (!EN) \x7b" ++
  Piece.textLine 2 "if (__ENO != NULL) \x7b" ++
  Piece.textLine 3 "*__ENO = __BOOL_LITERAL(FALSE);" ++ Piece.textLine 2 "\x7d" ++
  Piece.textLine 2 ("return " ++ definition.unit ++ ";") ++ Piece.textLine 1 "\x7d\n" ++
  Stmt.printList 1 definition.body ++ [Piece.text "\n__end:\n"] ++
  definition.formals.flatMap Formal.printCopyBack ++
  Piece.textLine 1 ("return " ++ definition.unit ++ ";") ++ [Piece.text "\x7d\n\n"]

/-! ## Function blocks and programs -/

/-- The line that declares a variable in the structure of a unit. -/
def Member.declaration : Member → String
  | .located type name _ _ _ => "__DECLARE_LOCATED(" ++ type ++ "," ++ name ++ ")"
  | .external type name _ => "__DECLARE_EXTERNAL(" ++ type ++ "," ++ name ++ ")"
  | .block type name _ => type ++ " " ++ name ++ ";"
  | .compound type name | .plain type name _ _ => "__DECLARE_VAR(" ++ type ++ "," ++ name ++ ")"

/-- The lines that initialize a variable. -/
def Member.initialization : Member → List String
  | .located type name location retain value =>
      ("__INIT_LOCATED(" ++ type ++ "," ++ location ++ ",data__->" ++ name ++ "," ++ retain ++
        ")") ::
        (value.map fun value =>
          "__INIT_LOCATED_VALUE(data__->" ++ name ++ "," ++ value ++ ")").toList
  | .external type name retain =>
      ["__INIT_EXTERNAL(" ++ type ++ "," ++ name ++ ",data__->" ++ name ++ "," ++ retain ++ ")"]
  | .block type name retain => [type ++ "_init__(&data__->" ++ name ++ "," ++ retain ++ ");"]
  | .compound _ _ => []
  | .plain _ name value retain =>
      ["__INIT_VAR(data__->" ++ name ++ "," ++ value ++ "," ++ retain ++ ")"]

def Helper.print (helper : Helper) : List Piece :=
  let formals := helper.formals.map Formal.print ++ [helper.unit ++ " *data__"]
  [Piece.text ("static inline " ++ helper.returnType ++ " " ++ helper.name ++ "(" ++
    ", ".intercalate formals ++ ") \x7b\n")] ++
  helper.temporaries.flatMap (fun (type, name, value) =>
    [Piece.margin 1, .text (type ++ " " ++ name ++ " = ")] ++ value.print helper.depth ++
      [Piece.text ";\n"]) ++
  [Piece.margin 1, .text (helper.returnType ++ " __res = ")] ++
  (Expr.call helper.callee helper.arguments).print helper.depth ++ [Piece.text ";\n"] ++
  helper.stores.flatMap (fun store =>
    Piece.margin 1 :: (store.print helper.depth ++ [Piece.text ";\n"])) ++
  Piece.textLine 1 "return __res;" ++ [Piece.text "\x7d\n\n"]

/-- The keyword of a kind of unit. -/
def UnitKind.keyword : UnitKind → String
  | functionBlock => "FUNCTION_BLOCK"
  | program => "PROGRAM"

/-- The name of a kind of unit in the comments of its structure. -/
def UnitKind.shortName : UnitKind → String
  | functionBlock => "FB"
  | program => "PROGRAM"

/-- The lines at the start of a function block that heed its implicit input. -/
def UnitKind.prologue : UnitKind → List Piece
  | functionBlock =>
      Piece.textLine 1 "// Control execution" ++
      Piece.textLine 1 "if (!__GET_VAR(data__->EN)) \x7b" ++
      Piece.textLine 2 "__SET_VAR(data__->,ENO,__BOOL_LITERAL(FALSE));" ++
      Piece.textLine 2 "return;" ++ Piece.textLine 1 "\x7d" ++ Piece.textLine 1 "else \x7b" ++
      Piece.textLine 2 "__SET_VAR(data__->,ENO,__BOOL_LITERAL(TRUE));" ++ Piece.textLine 1 "\x7d"
  | program => []

def UnitDef.print (layout : Layout) (definition : UnitDef) : List Piece :=
  let name := definition.name
  let declare (slots : List Slot) : List Piece :=
    slots.flatMap fun slot => Piece.textLine 1 slot.member.declaration
  unitComment layout definition.kind.keyword name ++ [Piece.text "typedef struct \x7b\n"] ++
  Piece.textLine 1
    ("// " ++ definition.kind.shortName ++ " Interface - IN, OUT, IN_OUT variables") ++
  declare (definition.slots.filter fun slot => slot.isInterface) ++ [Piece.text "\n"] ++
  Piece.textLine 1
    ("// " ++ definition.kind.shortName ++
      " private variables - TEMP, private and located variables") ++
  declare (definition.slots.filter fun slot => !slot.isInterface) ++
  [Piece.text ("\n\x7d " ++ name ++ ";\n\n"),
    .text ("void " ++ name ++ "_init__(" ++ name ++ " *data__, BOOL retain) \x7b\n")] ++
  definition.slots.flatMap (fun slot =>
    slot.member.initialization.flatMap (Piece.textLine 1)) ++ [Piece.text "\x7d\n\n"] ++
  definition.helpers.flatMap Helper.print ++
  [Piece.text ("// Code part\nvoid " ++ name ++ "_body__(" ++ name ++ " *data__) \x7b\n")] ++
  definition.kind.prologue ++ Stmt.printList 1 definition.body ++
  [Piece.text "\n__end:\n"] ++ Piece.textLine 1 "return;" ++
  [Piece.text ("\x7d // " ++ name ++ "_body__()\n\n")]

def Element.print (layout : Layout) : Element → List Piece
  | .function definition => definition.print layout
  | .unit definition => definition.print layout
  | .code text => [.text text, .text "\n"]
  | .switch on => [.switch on]

def File.print (layout : Layout) (file : File) : List Piece :=
  [Piece.text "// Generated from IEC 61131-3 structured text\n",
    .text "#include \"iec_std_lib.h\"\n\n"] ++
  file.types.flatMap TypeDecl.print ++ [Piece.text "\n"] ++
  file.elements.flatMap (Element.print layout)

/-- The text of a file. -/
def File.render (layout : Layout) (file : File) : String :=
  Piece.renderAll layout.width (file.print layout)

end StructuredText.Code
