import Mathlib
import StructuredText.Compile

/-!
# Identifiers in one case

A tree is folded by writing all of its identifiers in upper case.  Two trees are equal up
to the case of their identifiers if they fold to the same tree.  A folded identifier has
the key, the generated name and the place of the identifier.
-/

set_option autoImplicit false

namespace StructuredText

/-! ## Text -/

theorem toList_toUpper (text : String) : text.toUpper.toList = text.toList.map Char.toUpper :=
  String.toList_map

theorem toLower_toUpper (text : String) : text.toUpper.toLower = text.toLower := by
  apply String.toList_inj.mp
  simp [String.toLower, String.toUpper, Function.comp_def]

theorem toUpper_toLower (text : String) : text.toLower.toUpper = text.toUpper := by
  apply String.toList_inj.mp
  simp [String.toLower, String.toUpper, Function.comp_def]

theorem toUpper_toUpper (text : String) : text.toUpper.toUpper = text.toUpper := by
  apply String.toList_inj.mp
  simp [String.toUpper, Function.comp_def]

theorem toUpper_append (first second : String) :
    (first ++ second).toUpper = first.toUpper ++ second.toUpper := by
  apply String.toList_inj.mp
  simp [toList_toUpper]

theorem toUpper_intercalate (separator : String) (parts : List String) :
    (separator.intercalate parts).toUpper =
      separator.toUpper.intercalate (parts.map String.toUpper) := by
  apply String.toList_inj.mp
  rw [toList_toUpper, String.toList_intercalate, String.toList_intercalate, List.map_map]
  induction parts with
  | nil => rfl
  | cons first rest ih =>
      cases rest with
      | nil => simp [List.intercalate, toList_toUpper]
      | cons second rest =>
          simp only [List.map_cons, List.intercalate_cons_cons, List.map_append,
            Function.comp_apply, toList_toUpper] at ih ⊢
          rw [ih]

theorem toUpper_toString (number : Nat) : (toString number).toUpper = toString number := by
  apply String.toList_inj.mp
  rw [toList_toUpper]
  refine (List.map_congr_left fun char member => ?_).trans (List.map_id _)
  have isDigit : char.isDigit = true :=
    Nat.isDigit_of_mem_toDigits (by decide) (by decide)
      (show char ∈ Nat.toDigits 10 number from Nat.toList_repr ▸ member)
  have notLetter : ¬(97 ≤ char.val ∧ char.val ≤ 122) := by
    simp only [Char.isDigit, Bool.and_eq_true, decide_eq_true_eq] at isDigit
    grind
  exact dif_neg notLetter

/-! ## Identifiers -/

namespace Ident

def folded (ident : Ident) : Ident := { ident with name := ident.upper }

@[simp] theorem span_folded (ident : Ident) : ident.folded.span = ident.span := rfl

@[simp] theorem key_folded (ident : Ident) : ident.folded.key = ident.key :=
  toLower_toUpper ident.name

@[simp] theorem upper_folded (ident : Ident) : ident.folded.upper = ident.upper :=
  toUpper_toUpper ident.name

@[simp] theorem folded_beq (left right : Ident) : (left.folded == right) = (left == right) := by
  rw [Bool.eq_iff_iff, beq_iff, beq_iff, key_folded]

@[simp] theorem beq_folded (left right : Ident) : (left == right.folded) = (left == right) := by
  rw [Bool.eq_iff_iff, beq_iff, beq_iff, key_folded]

@[simp] theorem contains_folded (idents : List Ident) (name : Ident) :
    (idents.map folded).contains name.folded = idents.contains name := by
  induction idents with
  | nil => rfl
  | cons first idents ih => simp [ih]

@[simp] theorem count_folded (idents : List Ident) (name : Ident) :
    (idents.map folded).count name.folded = idents.count name := by
  simp [List.count, List.countP_map, Function.comp_def]

/-- Identifiers are equal just if they have one name in generated code. -/
theorem beq_iff_upper {left right : Ident} : (left == right) = true ↔ left.upper = right.upper := by
  rw [beq_iff]
  constructor
  · intro same
    rw [upper, upper, ← toUpper_toLower left.name, ← toUpper_toLower right.name]
    exact congrArg String.toUpper same
  · intro same
    rw [key, key, ← toLower_toUpper left.name, ← toLower_toUpper right.name]
    exact congrArg String.toLower same

theorem folded_of_upper {ident : Ident} (isUpper : ident.name.toUpper = ident.name) :
    ident.folded = ident := by
  rw [folded, upper, isUpper]

end Ident

theorem Elementary.cName_toUpper (type : Elementary) : type.cName.toUpper = type.cName := by
  cases type <;> decide +kernel

@[simp] theorem Elementary.ofIdent?_folded (ident : Ident) :
    Elementary.ofIdent? ident.folded = Elementary.ofIdent? ident := by
  rw [Elementary.ofIdent?, Elementary.ofIdent?, Ident.key_folded]

@[simp] theorem Standard.isBlock_folded (name : Ident) :
    Standard.isBlock name.folded = Standard.isBlock name := by
  simp [Standard.isBlock]

/-! ## Declarations -/

def ArrayShape.folded (shape : ArrayShape) : ArrayShape :=
  { shape with element := shape.element.folded }

def ArraySpec.folded : ArraySpec → ArraySpec
  | named type => named type.folded
  | inline shape => inline shape.folded

def EnumValue.folded (value : EnumValue) : EnumValue :=
  { type := value.type.map Ident.folded, value := value.value.folded }

def Initializer.folded : Initializer → Initializer
  | simple type value => simple type.folded value
  | string length width value => string length width value
  | enumerated type value => enumerated type.folded (value.map EnumValue.folded)
  | functionBlock type => functionBlock type.folded
  | array spec => array spec.folded

def FieldDecl.folded (field : FieldDecl) : FieldDecl :=
  { name := field.name.folded, initializer := field.initializer.folded }

def TypeDecl.folded : TypeDecl → TypeDecl
  | synonym name base => synonym name.folded base.folded
  | subrange name base range => subrange name.folded base range
  | enumeration name values => enumeration name.folded (values.map Ident.folded)
  | array name shape => array name.folded shape.folded
  | record name fields => record name.folded (fields.map FieldDecl.folded)
  | string name length width => string name.folded length width

def VarName.folded : VarName → VarName
  | symbol name => symbol name.folded
  | located name address => located (name.map Ident.folded) address

def VarDecl.folded (decl : VarDecl) : VarDecl :=
  { decl with name := decl.name.folded, initializer := decl.initializer.folded }

section VarDecl

variable (decl : VarDecl)

@[simp] theorem VarDecl.name_folded : decl.folded.name = decl.name.folded := rfl

@[simp] theorem VarDecl.kind_folded : decl.folded.kind = decl.kind := rfl

@[simp] theorem VarDecl.qualifier_folded : decl.folded.qualifier = decl.qualifier := rfl

@[simp] theorem VarDecl.initializer_folded :
    decl.folded.initializer = decl.initializer.folded := rfl

end VarDecl

@[simp] theorem TypeDecl.name_folded (decl : TypeDecl) : decl.folded.name = decl.name.folded := by
  cases decl <;> rfl

@[simp] theorem VarName.ident?_folded (name : VarName) :
    name.folded.ident? = name.ident?.map Ident.folded := by
  cases name <;> rfl

@[simp] theorem VarName.address?_folded (name : VarName) :
    name.folded.address? = name.address? := by
  cases name <;> rfl

/-! ## Expressions -/

mutual

def Reference.folded : Reference → Reference
  | .named name => .named name.folded
  | .element array subscripts => .element array.folded (Expr.foldedList subscripts)
  | .field record name => .field record.folded name.folded

def Variable.folded : Variable → Variable
  | .direct address => .direct address
  | .symbolic reference => .symbolic reference.folded

def Expr.folded : Expr → Expr
  | .compare op left right => .compare op left.folded right.folded
  | .arith op left right => .arith op left.folded right.folded
  | .unary op term => .unary op term.folded
  | .group inner => .group inner.folded
  | .const value => .const value
  | .enumerated value => .enumerated value.folded
  | .var source => .var source.folded
  | .call function arguments => .call function.folded (Argument.foldedList arguments)

def Expr.foldedList : List Expr → List Expr
  | [] => []
  | expr :: exprs => expr.folded :: Expr.foldedList exprs

def Argument.folded : Argument → Argument
  | .positional value => .positional value.folded
  | .named name value => .named name.folded value.folded
  | .output isNegated source target => .output isNegated source.folded target.folded

def Argument.foldedList : List Argument → List Argument
  | [] => []
  | argument :: arguments => argument.folded :: Argument.foldedList arguments

end

@[simp] theorem Expr.length_foldedList (exprs : List Expr) :
    (Expr.foldedList exprs).length = exprs.length := by
  induction exprs with
  | nil => simp [Expr.foldedList]
  | cons expr exprs ih => simp [Expr.foldedList, ih]

@[simp] theorem Reference.root_folded (reference : Reference) :
    reference.folded.root = reference.root.folded := by
  induction reference using Reference.root.induct with
  | case1 name => simp [Reference.folded, Reference.root]
  | case2 array subscripts ih | case3 record name ih =>
      simp [Reference.folded, Reference.root, ih]

@[simp] theorem Reference.span_folded (reference : Reference) :
    reference.folded.span = reference.span := by
  simp [Reference.span]

@[simp] theorem Variable.span_folded (source : Variable) : source.folded.span = source.span := by
  cases source <;> simp [Variable.folded, Variable.span]

@[simp] theorem Variable.folded_named (name : Ident) :
    (Variable.named name).folded = Variable.named name.folded := by
  simp [Variable.named, Variable.folded, Reference.folded]

@[simp] theorem Expr.span_folded : ∀ expr : Expr, expr.folded.span = expr.span
  | .var source => by simp [Expr.folded, Expr.span]
  | .call function arguments => by simp [Expr.folded, Expr.span]
  | .group inner => by simp [Expr.folded, Expr.span, Expr.span_folded inner]
  | .compare op left right => by simp [Expr.folded, Expr.span, Expr.span_folded left]
  | .arith op left right => by simp [Expr.folded, Expr.span, Expr.span_folded left]
  | .unary op term => by simp [Expr.folded, Expr.span, Expr.span_folded term]
  | .const value => by simp [Expr.folded]
  | .enumerated value => by simp [Expr.folded, Expr.span]

@[simp] theorem Expr.isUnsignedConstant_folded : ∀ expr : Expr,
    expr.folded.isUnsignedConstant = expr.isUnsignedConstant
  | .group inner => by
      simp [Expr.folded, Expr.isUnsignedConstant, Expr.isUnsignedConstant_folded inner]
  | .const value => by simp [Expr.folded]
  | .compare .. | .arith .. | .unary .. | .enumerated _ | .var _ | .call .. => by
      simp [Expr.folded, Expr.isUnsignedConstant]

@[simp] theorem Reference.display_folded (reference : Reference) :
    reference.folded.display = reference.display.toUpper := by
  induction reference using Reference.root.induct with
  | case1 name => simp [Reference.folded, Reference.display, Ident.folded, Ident.upper]
  | case2 array subscripts ih =>
      have blanks : ((Expr.foldedList subscripts).map fun _ => "_") =
          subscripts.map fun _ => "_" := by
        rw [List.map_const', List.map_const', Expr.length_foldedList]
      have upper : ∀ text ∈ ["[", ",", "_", "]"], text.toUpper = text := by decide +kernel
      simp only [List.forall_mem_cons] at upper
      simp [Reference.folded, Reference.display, ih, blanks, toUpper_append, toUpper_intercalate,
        upper]
  | case3 record name ih =>
      have point : ".".toUpper = "." := by decide +kernel
      simp [Reference.folded, Reference.display, ih, toUpper_append, point, Ident.folded,
        Ident.upper]

theorem Address.display_toUpper (address : Address) :
    address.display.toUpper = address.display := by
  have upper : ∀ text ∈ ["%", "."], text.toUpper = text := by decide +kernel
  simp only [List.forall_mem_cons] at upper
  have area : address.area.letter.toString.toUpper = address.area.letter.toString := by
    cases address.area <;> decide +kernel
  have size : ((address.size.letter.map Char.toString).getD "").toUpper =
      (address.size.letter.map Char.toString).getD "" := by
    cases address.size <;> decide +kernel
  have parts : (address.parts.map toString).map String.toUpper = address.parts.map toString := by
    rw [List.map_map]
    exact List.map_congr_left fun part _ => toUpper_toString part
  simp only [Address.display, toUpper_append, toUpper_intercalate, upper, area, size, parts]

/-! ## Statements and libraries -/

def CaseLabel.folded : CaseLabel → CaseLabel
  | range bounds => range bounds
  | integer value => integer value
  | enumerated value => enumerated value.folded

mutual

def Stmt.folded : Stmt → Stmt
  | .assign target value => .assign target.folded value.folded
  | .invoke block arguments => .invoke block.folded (Argument.foldedList arguments)
  | .ifElse condition body elseIfs otherwise =>
      .ifElse condition.folded (Stmt.foldedList body) (ElseIf.foldedList elseIfs)
        (Stmt.foldedList otherwise)
  | .select selector groups otherwise =>
      .select selector.folded (CaseGroup.foldedList groups) (Stmt.foldedList otherwise)
  | .forTo control first last step body =>
      .forTo control.folded first.folded last.folded (step.map Expr.folded) (Stmt.foldedList body)
  | .whileDo condition body => .whileDo condition.folded (Stmt.foldedList body)
  | .repeatUntil body condition => .repeatUntil (Stmt.foldedList body) condition.folded
  | .leaveUnit => .leaveUnit
  | .leaveLoop => .leaveLoop
  | .pragma directive => .pragma directive

def Stmt.foldedList : List Stmt → List Stmt
  | [] => []
  | stmt :: stmts => stmt.folded :: Stmt.foldedList stmts

def ElseIf.foldedList : List ElseIf → List ElseIf
  | [] => []
  | .mk condition body :: elseIfs =>
      .mk condition.folded (Stmt.foldedList body) :: ElseIf.foldedList elseIfs

def CaseGroup.foldedList : List CaseGroup → List CaseGroup
  | [] => []
  | .mk labels body :: groups =>
      .mk (labels.map CaseLabel.folded) (Stmt.foldedList body) :: CaseGroup.foldedList groups

end

def FunctionDecl.folded (decl : FunctionDecl) : FunctionDecl :=
  { name := decl.name.folded
    returnType := decl.returnType.folded
    vars := decl.vars.map VarDecl.folded
    body := Stmt.foldedList decl.body }

def FunctionBlockDecl.folded (decl : FunctionBlockDecl) : FunctionBlockDecl :=
  { name := decl.name.folded
    vars := decl.vars.map VarDecl.folded
    body := Stmt.foldedList decl.body }

def ProgramDecl.folded (decl : ProgramDecl) : ProgramDecl :=
  { name := decl.name.folded
    vars := decl.vars.map VarDecl.folded
    body := Stmt.foldedList decl.body }

@[simp] theorem FunctionDecl.name_folded (decl : FunctionDecl) :
    decl.folded.name = decl.name.folded := rfl

@[simp] theorem FunctionBlockDecl.name_folded (decl : FunctionBlockDecl) :
    decl.folded.name = decl.name.folded := rfl

def Element.folded : Element → Element
  | type decl => type decl.folded
  | function decl => function decl.folded
  | functionBlock decl => functionBlock decl.folded
  | program decl => program decl.folded
  | pragma directive => pragma directive

def Library.folded (library : Library) : Library :=
  { elements := library.elements.map Element.folded }

@[simp] theorem Element.vars_folded (element : Element) :
    element.folded.vars = element.vars.map VarDecl.folded := by
  cases element <;> rfl

@[simp] theorem Library.typeDecls_folded (library : Library) :
    library.folded.typeDecls = library.typeDecls.map TypeDecl.folded := by
  unfold Library.typeDecls Library.folded
  rw [List.filterMap_map, List.map_filterMap]
  congr 1
  funext element
  cases element <;> rfl

@[simp] theorem Library.functionBlocks_folded (library : Library) :
    library.folded.functionBlocks = library.functionBlocks.map FunctionBlockDecl.folded := by
  unfold Library.functionBlocks Library.folded
  rw [List.filterMap_map, List.map_filterMap]
  congr 1
  funext element
  cases element <;> rfl

end StructuredText
