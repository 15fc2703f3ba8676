import StructuredText.Code.Printer

/-!
# What is written of generated code

Only a statement that switches the output prints a switch.  So where no statement
switches the output off, all of the text is written.
-/

set_option autoImplicit false

namespace StructuredText.Code

/-! ## Statements inside statements -/

mutual

/-- A statement and the statements inside it, in the order of their text. -/
def Stmt.all : Stmt → List Stmt
  | .ifElse condition body elseIfs otherwise =>
      .ifElse condition body elseIfs otherwise ::
        (Stmt.allList body ++ Branch.allList elseIfs ++ Stmt.allList otherwise)
  | .select type selector cases ranges otherwise =>
      .select type selector cases ranges otherwise ::
        (Case.allList cases ++ RangeCase.allList ranges ++ Stmt.allList otherwise)
  | .forLoop control first last step body exit =>
      .forLoop control first last step body exit :: Stmt.allList body
  | .countLoop control first last step next body exit =>
      .countLoop control first last step next body exit :: Stmt.allList body
  | .whileLoop condition body exit => .whileLoop condition body exit :: Stmt.allList body
  | .untilLoop body condition exit => .untilLoop body condition exit :: Stmt.allList body
  | stmt => [stmt]

def Stmt.allList : List Stmt → List Stmt
  | [] => []
  | stmt :: stmts => stmt.all ++ Stmt.allList stmts

def Branch.allList : List Branch → List Stmt
  | [] => []
  | .mk _ body :: branches => Stmt.allList body ++ Branch.allList branches

def Case.allList : List Case → List Stmt
  | [] => []
  | .mk _ body :: cases => Stmt.allList body ++ Case.allList cases

def RangeCase.allList : List RangeCase → List Stmt
  | [] => []
  | .mk _ body :: cases => Stmt.allList body ++ RangeCase.allList cases

end

/-! ## Pieces -/

namespace Piece

def isSwitch : Piece → Bool
  | .switch _ => true
  | .text _ | .margin _ => false

theorem switch_not_mem_textLine (on : Bool) (depth : Nat) (content : String) :
    .switch on ∉ textLine depth content := by
  simp [textLine]

theorem switch_not_mem_separate {on : Bool} {separator : List Piece}
    (plain : .switch on ∉ separator) {parts : List (List Piece)}
    (partsPlain : ∀ part ∈ parts, .switch on ∉ part) : .switch on ∉ separate separator parts := by
  fun_induction separate separator parts with
  | case1 => exact List.not_mem_nil
  | case2 last => exact partsPlain last (List.mem_singleton.mpr rfl)
  | case3 first rest _ ih =>
      have restPlain : ∀ part ∈ rest, .switch on ∉ part :=
        fun part member => partsPlain part (List.mem_cons_of_mem _ member)
      simp [plain, ih restPlain, partsPlain first (List.mem_cons_self ..)]

theorem visible_true {pieces : List Piece} (neverOff : .switch false ∉ pieces) :
    visible true pieces = pieces.filter fun piece => !piece.isSwitch := by
  induction pieces with
  | nil => rfl
  | cons piece pieces ih =>
      rw [List.mem_cons, not_or] at neverOff
      cases piece with
      | text content => simp [visible, isSwitch, ih neverOff.2]
      | margin depth => simp [visible, isSwitch, ih neverOff.2]
      | switch on =>
          cases on with
          | true => simp [visible, isSwitch, ih neverOff.2]
          | false => exact absurd rfl neverOff.1

end Piece

/-! ## Expressions -/

mutual

theorem Expr.switch_not_mem_print (on : Bool) :
    ∀ (expr : Expr) (depth : Nat), .switch on ∉ expr.print depth
  | .atom text, depth => by simp [Expr.print]
  | .paren inner, depth => by simp [Expr.print, Expr.switch_not_mem_print on inner]
  | .unary op term, depth => by simp [Expr.print, Expr.switch_not_mem_print on term]
  | .binary op left right, depth => by
      simp [Expr.print, Expr.switch_not_mem_print on left, Expr.switch_not_mem_print on right]
  | .choose condition yes no, depth => by
      simp [Expr.print, Expr.switch_not_mem_print on condition, Expr.switch_not_mem_print on yes,
        Expr.switch_not_mem_print on no]
  | .next value step, depth => by
      simp [Expr.print, Expr.switch_not_mem_print on value, Expr.switch_not_mem_print on step]
  | .cast type value, depth => by simp [Expr.print, Expr.switch_not_mem_print on value]
  | .call function arguments, depth => by
      simp [Expr.print, Expr.switch_not_mem_printList on arguments depth [.text ", "]]
  | .callLines function arguments, depth => by
      simp [Expr.print,
        Expr.switch_not_mem_printList on arguments (depth + 1) [.text ",\n", .margin (depth + 1)]]
  | .load place, depth => by simp [Expr.print, Place.switch_not_mem_print on place]
  | .pointer place, depth => by simp [Expr.print, Place.switch_not_mem_print on place]

theorem Expr.switch_not_mem_printList (on : Bool) :
    ∀ (exprs : List Expr) (depth : Nat) (separator : List Piece), .switch on ∉ separator →
      .switch on ∉ Expr.printList depth separator exprs
  | [], depth, separator, plain => by simp [Expr.printList]
  | [last], depth, separator, plain => by
      simp [Expr.printList, Expr.switch_not_mem_print on last]
  | first :: second :: rest, depth, separator, plain => by
      simp [Expr.printList, plain, Expr.switch_not_mem_print on first,
        Expr.switch_not_mem_printList on (second :: rest) depth separator plain]

theorem Place.switch_not_mem_print (on : Bool) :
    ∀ (place : Place) (depth : Nat) (byPointer : Bool), .switch on ∉ place.print depth byPointer
  | .pin name, depth, byPointer => by simp [Place.print]
  | .named root path, depth, byPointer => by
      cases byPointer <;> simp [Place.print, Path.switch_not_mem_print on path]
  | .member family handle root, depth, byPointer => by simp [Place.print]
  | .part family handle root path, depth, byPointer => by
      simp [Place.print, Path.switch_not_mem_print on path]

theorem Path.switch_not_mem_print (on : Bool) :
    ∀ (path : Path) (depth : Nat), .switch on ∉ path.print depth
  | .here, depth => by simp [Path.print]
  | .field record name, depth => by simp [Path.print, Path.switch_not_mem_print on record]
  | .cell array subscripts, depth => by
      simp [Path.print, Path.switch_not_mem_print on array,
        Subscript.switch_not_mem_printList on subscripts]

theorem Subscript.switch_not_mem_printList (on : Bool) :
    ∀ (subscripts : List Subscript) (depth : Nat),
      .switch on ∉ Subscript.printList depth subscripts
  | [], depth => by simp [Subscript.printList]
  | .mk value lower :: rest, depth => by
      simp [Subscript.printList, Expr.switch_not_mem_print on value,
        Subscript.switch_not_mem_printList on rest]

end

attribute [simp] Expr.switch_not_mem_print Place.switch_not_mem_print Path.switch_not_mem_print
  Piece.switch_not_mem_textLine

/-! ## Statements -/

@[simp] theorem Store.switch_not_mem_print (on : Bool) (store : Store) (depth : Nat) :
    .switch on ∉ store.print depth := by
  unfold Store.print
  split <;> simp

@[simp] theorem Step.switch_not_mem_printTest (on : Bool) (step : Step) (depth : Nat)
    (control : Place) (last : Expr) : .switch on ∉ step.printTest depth control last := by
  cases step <;> simp [Step.printTest]

@[simp] theorem Step.switch_not_mem_printAdvance (on : Bool) (step : Step) (depth : Nat)
    (control : Place) : .switch on ∉ step.printAdvance depth control := by
  cases step <;> simp [Step.printAdvance]

@[simp] theorem switch_not_mem_printExit (on : Bool) (depth : Nat) (exit : Option Nat) :
    .switch on ∉ printExit depth exit := by
  cases exit <;> simp [printExit]

mutual

theorem Stmt.switch_not_mem_print {on : Bool} :
    ∀ (stmt : Stmt) (depth : Nat), .switch on ∉ stmt.all → .switch on ∉ stmt.print depth
  | .store store, depth, _ => by simp [Stmt.print]
  | .invoke before run after, depth, _ => by
      have separated : .switch on ∉ Piece.separate [.text ";\n", .margin depth]
          (before.map (Store.print depth) ++ run.print depth :: after.map (Store.print depth)) := by
        apply Piece.switch_not_mem_separate (by simp)
        intro part member
        simp only [List.mem_append, List.mem_map, List.mem_cons] at member
        rcases member with ⟨store, -, rfl⟩ | rfl | ⟨store, -, rfl⟩ <;> simp
      simp [Stmt.print, separated]
  | .ifElse condition body elseIfs otherwise, depth, noSwitch => by
      simp only [Stmt.all, List.mem_cons, List.mem_append, not_or] at noSwitch
      obtain ⟨-, ⟨inBody, inElseIfs⟩, inOtherwise⟩ := noSwitch
      have printed := Stmt.switch_not_mem_printList otherwise (depth + 1) inOtherwise
      unfold Stmt.print
      split
      · simp [Stmt.switch_not_mem_printList body (depth + 1) inBody,
          Branch.switch_not_mem_printList elseIfs depth inElseIfs]
      · simp [Stmt.switch_not_mem_printList body (depth + 1) inBody,
          Branch.switch_not_mem_printList elseIfs depth inElseIfs, printed]
  | .select type selector cases ranges otherwise, depth, noSwitch => by
      simp only [Stmt.all, List.mem_cons, List.mem_append, not_or] at noSwitch
      obtain ⟨-, ⟨inCases, inRanges⟩, inOtherwise⟩ := noSwitch
      have printed := fun depth => Stmt.switch_not_mem_printList otherwise depth inOtherwise
      unfold Stmt.print
      split
      · simp [Case.switch_not_mem_printList cases (depth + 2) inCases, printed,
          RangeCase.printList]
      · simp [Case.switch_not_mem_printList cases (depth + 2) inCases,
          RangeCase.switch_not_mem_printList ranges (depth + 3) true inRanges]
      · simp [Case.switch_not_mem_printList cases (depth + 2) inCases, printed,
          RangeCase.switch_not_mem_printList ranges (depth + 3) true inRanges]
  | .forLoop control first last step body exit, depth, noSwitch => by
      simp only [Stmt.all, List.mem_cons, not_or] at noSwitch
      simp [Stmt.print, Stmt.switch_not_mem_printList body (depth + 1) noSwitch.2]
  | .countLoop control first last step next body exit, depth, noSwitch => by
      simp only [Stmt.all, List.mem_cons, not_or] at noSwitch
      simp [Stmt.print, Stmt.switch_not_mem_printList body (depth + 1) noSwitch.2]
  | .whileLoop condition body exit, depth, noSwitch => by
      simp only [Stmt.all, List.mem_cons, not_or] at noSwitch
      simp [Stmt.print, Stmt.switch_not_mem_printList body (depth + 1) noSwitch.2]
  | .untilLoop body condition exit, depth, noSwitch => by
      simp only [Stmt.all, List.mem_cons, not_or] at noSwitch
      simp [Stmt.print, Stmt.switch_not_mem_printList body (depth + 1) noSwitch.2]
  | .leaveUnit, depth, _ => by simp [Stmt.print]
  | .leaveLoop, depth, _ => by simp [Stmt.print]
  | .jumpOut loop, depth, _ => by simp [Stmt.print]
  | .code text, depth, _ => by simp [Stmt.print]
  | .accessorCode text, depth, _ => by simp [Stmt.print]
  | .switch other, depth, noSwitch => by
      simp only [Stmt.all, List.mem_singleton] at noSwitch
      simp only [Stmt.print, List.mem_singleton, Piece.switch.injEq]
      intro same
      exact noSwitch (by rw [same])

theorem Stmt.switch_not_mem_printList {on : Bool} :
    ∀ (stmts : List Stmt) (depth : Nat), .switch on ∉ Stmt.allList stmts →
      .switch on ∉ Stmt.printList depth stmts
  | [], depth, _ => by simp [Stmt.printList]
  | stmt :: stmts, depth, noSwitch => by
      simp only [Stmt.allList, List.mem_append, not_or] at noSwitch
      simp [Stmt.printList, Stmt.switch_not_mem_print stmt depth noSwitch.1,
        Stmt.switch_not_mem_printList stmts depth noSwitch.2]

theorem Branch.switch_not_mem_printList {on : Bool} :
    ∀ (branches : List Branch) (depth : Nat), .switch on ∉ Branch.allList branches →
      .switch on ∉ Branch.printList depth branches
  | [], depth, _ => by simp [Branch.printList]
  | .mk condition body :: branches, depth, noSwitch => by
      simp only [Branch.allList, List.mem_append, not_or] at noSwitch
      simp [Branch.printList, Stmt.switch_not_mem_printList body (depth + 1) noSwitch.1,
        Branch.switch_not_mem_printList branches depth noSwitch.2]

theorem Case.switch_not_mem_printList {on : Bool} :
    ∀ (cases : List Case) (depth : Nat), .switch on ∉ Case.allList cases →
      .switch on ∉ Case.printList depth cases
  | [], depth, _ => by simp [Case.printList]
  | .mk labels body :: cases, depth, noSwitch => by
      simp only [Case.allList, List.mem_append, not_or] at noSwitch
      simp [Case.printList, Stmt.switch_not_mem_printList body (depth + 1) noSwitch.1,
        Case.switch_not_mem_printList cases depth noSwitch.2]

theorem RangeCase.switch_not_mem_printList {on : Bool} :
    ∀ (cases : List RangeCase) (depth : Nat) (isFirst : Bool),
      .switch on ∉ RangeCase.allList cases →
        .switch on ∉ RangeCase.printList depth isFirst cases
  | [], depth, isFirst, _ => by simp [RangeCase.printList]
  | .mk ranges body :: cases, depth, isFirst, noSwitch => by
      simp only [RangeCase.allList, List.mem_append, not_or] at noSwitch
      simp [RangeCase.printList, Stmt.switch_not_mem_printList body (depth + 1) noSwitch.1,
        RangeCase.switch_not_mem_printList cases depth false noSwitch.2]

end

/-- Statements that never switch the output off are written as a whole, from where the
output is on. -/
theorem Stmt.visible_printList {stmts : List Stmt} (neverOff : .switch false ∉ Stmt.allList stmts)
    (depth : Nat) :
    Piece.visible true (Stmt.printList depth stmts) =
      (Stmt.printList depth stmts).filter fun piece => !piece.isSwitch :=
  Piece.visible_true (Stmt.switch_not_mem_printList stmts depth neverOff)

/-! ## Files -/

theorem Piece.visible_append {first second : List Piece} (plain : ∀ on, .switch on ∉ first) :
    visible true (first ++ second) = first ++ visible true second := by
  induction first with
  | nil => rfl
  | cons piece first ih =>
      have rest : ∀ on, .switch on ∉ first := fun on member =>
        plain on (List.mem_cons_of_mem _ member)
      cases piece with
      | text content => simp only [List.cons_append, visible, ih rest]
      | margin depth => simp only [List.cons_append, visible, ih rest]
      | switch on => exact absurd (List.mem_cons_self ..) (plain on)

theorem Piece.visible_of_plain {pieces : List Piece} (plain : ∀ on, .switch on ∉ pieces) :
    visible true pieces = pieces := by
  have alone : visible true (pieces ++ []) = pieces ++ visible true [] := visible_append plain
  rwa [List.append_nil, visible, List.append_nil] at alone

theorem Piece.renderAll_append (width : Nat) {first second : List Piece}
    (plain : ∀ on, .switch on ∉ first) :
    renderAll width (first ++ second) = renderAll width first ++ renderAll width second := by
  rw [renderAll, visible_append plain, List.map_append, String.join_append, renderAll,
    visible_of_plain plain, renderAll]

theorem TypeDecl.switch_not_mem_print (on : Bool) (decl : TypeDecl) :
    .switch on ∉ decl.print := by
  cases decl with
  | string | derived | subrange | array => simp [TypeDecl.print]
  | record name fields => simp [TypeDecl.print]
  | enumeration name values =>
      have separated : .switch on ∉ Piece.separate [.text ",\n"]
          (values.map fun value => [.margin 1, .text (name ++ "__" ++ value)]) := by
        apply Piece.switch_not_mem_separate (by simp)
        intro part member
        obtain ⟨value, -, rfl⟩ := List.mem_map.mp member
        simp
      simp [TypeDecl.print, separated]

/-- The text of the declaration of a type. -/
def TypeDecl.render (width : Nat) (decl : TypeDecl) : String :=
  Piece.renderAll width decl.print

theorem TypeDecl.renderAll_print (width : Nat) (decls : List TypeDecl) :
    Piece.renderAll width (decls.flatMap TypeDecl.print) =
      String.join (decls.map (TypeDecl.render width)) := by
  induction decls with
  | nil => rfl
  | cons decl decls ih =>
      have plain : ∀ on, .switch on ∉ decl.print := fun on => decl.switch_not_mem_print on
      rw [List.flatMap_cons, Piece.renderAll_append width plain, ih, List.map_cons,
        String.join_cons, TypeDecl.render]

theorem TypeDecl.render_eq_join (width : Nat) (decl : TypeDecl) :
    decl.render width = String.join (decl.print.map (Piece.render width)) := by
  have plain : ∀ on, .switch on ∉ decl.print := fun on => decl.switch_not_mem_print on
  rw [render, Piece.renderAll, Piece.visible_of_plain plain]

theorem TypeDecl.render_array (width : Nat) (name element : String) (lengths : List Int) :
    (TypeDecl.array name element lengths).render width =
      "__DECLARE_ARRAY_TYPE(" ++ name ++ "," ++ element ++ "," ++
        String.join (lengths.map fun length => "[" ++ toString length ++ "]") ++ ")\n" := by
  simp [render_eq_join, print, Piece.render]

theorem TypeDecl.render_record (width : Nat) (name : String) (fields : List (String × String)) :
    (TypeDecl.record name fields).render width =
      "__DECLARE_STRUCT_TYPE(" ++ name ++ ",\n" ++
        String.join (fields.map fun field =>
          String.ofList (List.replicate width ' ') ++ field.2 ++ " " ++ field.1 ++ ";\n") ++
        ")\n" := by
  have lines : String.join ((fields.flatMap fun field =>
      Piece.textLine 1 (field.2 ++ " " ++ field.1 ++ ";")).map (Piece.render width)) =
      String.join (fields.map fun field =>
        String.ofList (List.replicate width ' ') ++ field.2 ++ " " ++ field.1 ++ ";\n") := by
    induction fields with
    | nil => rfl
    | cons field fields ih =>
        rw [List.flatMap_cons, List.map_append, String.join_append, ih]
        simp [Piece.textLine, Piece.render, String.append_assoc]
  rw [render_eq_join, print, List.map_cons, List.map_append, String.join_cons,
    String.join_append, lines]
  simp [Piece.render, String.append_assoc]

def TypeDecl.opening : TypeDecl → String
  | .string .. => "__DECLARE_STRING_TYPE("
  | .derived .. | .subrange .. => "__DECLARE_DERIVED_TYPE("
  | .enumeration .. => "__DECLARE_ENUMERATED_TYPE("
  | .array .. => "__DECLARE_ARRAY_TYPE("
  | .record .. => "__DECLARE_STRUCT_TYPE("

theorem TypeDecl.startsWith_opening (width : Nat) (decl : TypeDecl) :
    (decl.render width).startsWith decl.opening = true := by
  rw [String.startsWith_string_iff, render_eq_join]
  cases decl <;> simp [print, opening, Piece.render]

theorem TypeDecl.eq_array_of_startsWith {width : Nat} {decl : TypeDecl}
    (starts : (decl.render width).startsWith "__DECLARE_ARRAY_TYPE(" = true) :
    ∃ name element lengths, decl = .array name element lengths := by
  have opens := decl.startsWith_opening width
  rw [String.startsWith_string_iff] at starts opens
  -- Of two beginnings of one text, the shorter is the beginning of the longer.
  have both := List.prefix_or_prefix_of_prefix starts opens
  cases decl with
  | array name element lengths => exact ⟨name, element, lengths, rfl⟩
  | string | derived | subrange | enumeration | record =>
      rw [opening] at both
      exact absurd both (by decide)

/-- The text of a file is that of its types, one after another, and then that of its elements. -/
theorem File.render_eq (layout : Layout) (file : File) :
    file.render layout =
      "// Generated from IEC 61131-3 structured text\n#include \"iec_std_lib.h\"\n\n" ++
        String.join (file.types.map (TypeDecl.render layout.width)) ++ "\n" ++
        Piece.renderAll layout.width (file.elements.flatMap (Element.print layout)) := by
  have heading : ∀ on, .switch on ∉ [Piece.text "// Generated from IEC 61131-3 structured text\n",
      .text "#include \"iec_std_lib.h\"\n\n"] := by
    simp
  have types : ∀ on, .switch on ∉ file.types.flatMap TypeDecl.print := by
    simp [TypeDecl.switch_not_mem_print]
  have blank : ∀ on, Piece.switch on ∉ [Piece.text "\n"] := by simp
  rw [File.render, File.print, List.append_assoc, List.append_assoc,
    Piece.renderAll_append _ heading, Piece.renderAll_append _ types,
    Piece.renderAll_append _ blank, TypeDecl.renderAll_print, String.append_assoc,
    String.append_assoc]
  rfl

end StructuredText.Code
