import StructuredText.Compile
import StructuredText.Proofs.Code.Visible

/-!
# Indentation is layout

Margins and switches of the output stand only at the start of a line, in whatever is
printed: each construct is printed as whole lines, and inside an expression a margin
follows the end of a line.  So the width of the margins changes the white space at the
start of the lines and nothing else, wherever the output is switched off and on.
-/

set_option autoImplicit false

namespace StructuredText.Code

/-! ## Lines of text -/

def lines (text : String) : List (List Char) := text.toList.splitOn '\n'

/-- A line without the spaces at its start. -/
def unindented (line : List Char) : List Char := line.dropWhile (· == ' ')

/-- Characters without the spaces at the start of each line; `isFresh` tells whether the
first of them starts a line. -/
def outline : (isFresh : Bool) → List Char → List Char
  | _, [] => []
  | isFresh, char :: rest =>
      if char = '\n' then char :: outline true rest
      else if isFresh ∧ char = ' ' then outline true rest
      else char :: outline false rest

def freshAfter : (isFresh : Bool) → List Char → Bool
  | isFresh, [] => isFresh
  | isFresh, char :: rest => freshAfter (char = '\n' || (isFresh && char = ' ')) rest

theorem outline_append (isFresh : Bool) (first second : List Char) :
    outline isFresh (first ++ second) =
      outline isFresh first ++ outline (freshAfter isFresh first) second := by
  induction first generalizing isFresh with
  | nil => rfl
  | cons char rest ih =>
      by_cases isBreak : char = '\n'
      · simp [outline, freshAfter, isBreak, ih]
      · by_cases isMargin : isFresh ∧ char = ' '
        · simp [outline, freshAfter, isMargin, ih]
        · have stale : (isFresh && decide (char = ' ')) = false := by simpa using isMargin
          simp [outline, freshAfter, isBreak, isMargin, stale, ih]

theorem outline_margin (width : Nat) (rest : List Char) :
    outline true (List.replicate width ' ' ++ rest) = outline true rest := by
  induction width with
  | zero => rfl
  | succ width ih => simp [List.replicate_succ, outline, ih]

theorem splitOn_break (chars : List Char) :
    ('\n' :: chars).splitOn '\n' = [] :: chars.splitOn '\n' := by
  simp [List.splitOn, List.splitOnP_cons_eq_if_modifyHead]

theorem splitOn_char {char : Char} (notBreak : char ≠ '\n') {chars first : List Char}
    {rest : List (List Char)} (split : chars.splitOn '\n' = first :: rest) :
    (char :: chars).splitOn '\n' = (char :: first) :: rest := by
  rw [List.splitOn] at split
  simp [List.splitOn, List.splitOnP_cons_eq_if_modifyHead, notBreak, split]

/-- The lines of an outline are the lines without the spaces at their start, except that
the first one keeps them if it does not start a line. -/
theorem splitOn_outline (isFresh : Bool) (chars : List Char) :
    ∃ first rest, chars.splitOn '\n' = first :: rest ∧
      (outline isFresh chars).splitOn '\n' =
        (if isFresh then unindented first else first) :: rest.map unindented := by
  induction chars generalizing isFresh with
  | nil => exact ⟨[], [], rfl, by cases isFresh <;> rfl⟩
  | cons char chars ih =>
      by_cases isBreak : char = '\n'
      · obtain ⟨first, rest, split, outlined⟩ := ih true
        subst isBreak
        refine ⟨[], first :: rest, by rw [splitOn_break, split], ?_⟩
        cases isFresh <;> simp [outline, splitOn_break, outlined, unindented]
      · by_cases isMargin : isFresh ∧ char = ' '
        · obtain ⟨first, rest, split, outlined⟩ := ih true
          refine ⟨char :: first, rest, splitOn_char isBreak split, ?_⟩
          simpa [outline, isMargin, unindented] using outlined
        · obtain ⟨first, rest, split, outlined⟩ := ih false
          refine ⟨char :: first, rest, splitOn_char isBreak split, ?_⟩
          have kept : (if isFresh then unindented (char :: first) else char :: first) =
              char :: first := by
            cases isFresh with
            | false => rfl
            | true =>
                have notSpace : char ≠ ' ' := fun space => isMargin ⟨rfl, space⟩
                simp [unindented, notSpace]
          rw [kept, outline, if_neg isBreak, if_neg isMargin]
          exact splitOn_char isBreak outlined

/-- Texts with the same outline have the same lines, up to the spaces at their start. -/
theorem map_unindented_lines {first second : String}
    (same : outline true first.toList = outline true second.toList) :
    (lines first).map unindented = (lines second).map unindented := by
  have outlined (text : String) :
      (lines text).map unindented = (outline true text.toList).splitOn '\n' := by
    obtain ⟨first, rest, split, outlined⟩ := splitOn_outline true text.toList
    rw [lines, split, outlined, List.map_cons, if_pos rfl]
  rw [outlined, outlined, same]

def endsLine (text : String) : Bool := text.toList.getLast? == some '\n'

@[simp] theorem endsLine_append (first : String) {second : String} (ends : endsLine second) :
    endsLine (first ++ second) := by
  have last : second.toList.getLast? = some '\n' := by simpa [endsLine] using ends
  simp [endsLine, last]

theorem freshAfter_of_getLast? (isFresh : Bool) {chars : List Char}
    (last : chars.getLast? = some '\n') : freshAfter isFresh chars := by
  induction chars generalizing isFresh with
  | nil => cases last
  | cons char chars ih =>
      cases chars with
      | nil =>
          obtain rfl : char = '\n' := by simpa using last
          rfl
      | cons next chars => exact ih _ (by rwa [List.getLast?_cons_cons] at last)

/-! ## Margins at the start of lines -/

namespace Piece

/-- True if pieces are sure to end at the start of a line, given whether they start there. -/
@[simp] def endsFresh : (isFresh : Bool) → List Piece → Bool
  | isFresh, [] => isFresh
  | _, .text content :: rest => endsFresh (endsLine content) rest
  | isFresh, .margin _ :: rest | isFresh, .switch _ :: rest => endsFresh isFresh rest

@[simp] def Tidy : (isFresh : Bool) → List Piece → Prop
  | _, [] => True
  | _, .text content :: rest => Tidy (endsLine content) rest
  | isFresh, .margin _ :: rest | isFresh, .switch _ :: rest => isFresh ∧ Tidy isFresh rest

@[simp] theorem endsFresh_append (isFresh : Bool) (first second : List Piece) :
    endsFresh isFresh (first ++ second) = endsFresh (endsFresh isFresh first) second := by
  fun_induction endsFresh isFresh first with
  | case1 => rfl
  | case2 _ _ _ ih | case3 _ _ _ ih | case4 _ _ _ ih => exact ih

@[simp] theorem tidy_append (isFresh : Bool) (first second : List Piece) :
    Tidy isFresh (first ++ second) ↔
      Tidy isFresh first ∧ Tidy (endsFresh isFresh first) second := by
  fun_induction Tidy isFresh first with
  | case1 => simp [endsFresh]
  | case2 _ _ _ ih => exact ih
  | case3 _ _ _ ih | case4 _ _ _ ih => simp [Tidy, endsFresh, ih, and_assoc]

/-- What is written of tidy pieces is tidy; where the output is off, what was written before
ended at the start of a line. -/
theorem tidy_visible {isFresh : Bool} {pieces : List Piece} (tidy : Tidy isFresh pieces)
    (on : Bool) : Tidy (isFresh || !on) (visible on pieces) := by
  fun_induction Tidy isFresh pieces generalizing on with
  | case1 => cases on <;> trivial
  | case2 _ content rest ih =>
      cases on with
      | true => simpa [visible, Tidy] using ih tidy true
      | false => simpa [visible] using ih tidy false
  | case3 isFresh depth rest ih =>
      cases on with
      | true => simpa [visible, Tidy, tidy.1] using ih tidy.2 true
      | false => simpa [visible] using ih tidy.2 false
  | case4 isFresh turned rest ih => simpa [visible, tidy.1] using ih tidy.2 turned

/-- The width of the margins does not show in the outline of tidy pieces. -/
theorem outline_render {isFresh : Bool} {pieces : List Piece} (tidy : Tidy isFresh pieces)
    {start : Bool} (fresh : isFresh → start) (width width' : Nat) :
    outline start (pieces.flatMap fun piece => (piece.render width).toList) =
      outline start (pieces.flatMap fun piece => (piece.render width').toList) := by
  fun_induction Tidy isFresh pieces generalizing start with
  | case1 => rfl
  | case2 _ content rest ih =>
      have ended : endsLine content → freshAfter start content.toList :=
        fun ends => freshAfter_of_getLast? start (by simpa [endsLine] using ends)
      rw [List.flatMap_cons, List.flatMap_cons, outline_append, outline_append]
      exact congrArg _ (ih tidy ended)
  | case3 isFresh depth rest ih =>
      obtain rfl : start = true := fresh tidy.1
      rw [List.flatMap_cons, List.flatMap_cons, render, render, String.toList_ofList,
        String.toList_ofList, outline_margin, outline_margin]
      exact ih tidy.2 fresh
  | case4 isFresh turned rest ih =>
      rw [List.flatMap_cons, List.flatMap_cons, render, render, String.toList_empty,
        List.nil_append, List.nil_append]
      exact ih tidy.2 fresh

def WholeLines (pieces : List Piece) : Prop := Tidy true pieces ∧ endsFresh true pieces

@[simp] theorem wholeLines_nil : WholeLines [] := ⟨trivial, rfl⟩

@[simp] theorem wholeLines_append {first : List Piece} (whole : WholeLines first)
    (second : List Piece) : WholeLines (first ++ second) ↔ WholeLines second := by
  simp [WholeLines, whole.1, whole.2]

@[simp] theorem wholeLines_cons {content : String} (ends : endsLine content)
    (rest : List Piece) : WholeLines (.text content :: rest) ↔ WholeLines rest := by
  simp [WholeLines, Tidy, endsFresh, ends]

@[simp] theorem wholeLines_textLine (depth : Nat) (content : String) :
    WholeLines (textLine depth content) := by
  have ends : endsLine (content ++ "\n") := endsLine_append content rfl
  simp [WholeLines, textLine, Tidy, endsFresh, ends]

@[simp] theorem wholeLines_margin (margin : Nat) {content : String} (ends : endsLine content)
    (rest : List Piece) :
    WholeLines (.margin margin :: .text content :: rest) ↔ WholeLines rest := by
  simp [WholeLines, Tidy, endsFresh, ends]

@[simp] theorem wholeLines_twoTexts (margin : Nat) (before : String) {after : String}
    (ends : endsLine after) (rest : List Piece) :
    WholeLines (.margin margin :: .text before :: .text after :: rest) ↔ WholeLines rest := by
  simp [WholeLines, Tidy, endsFresh, ends]

section Inner

-- what stands inside of a line, such as an expression, with the text at the end of the line
variable {inner : List Piece} (tidy : ∀ isFresh, Tidy isFresh inner) {after : String}
  (ends : endsLine after) (rest : List Piece)

include tidy ends

@[simp] theorem wholeLines_inner (margin : Nat) :
    WholeLines (.margin margin :: (inner ++ .text after :: rest)) ↔ WholeLines rest := by
  simp [WholeLines, Tidy, endsFresh, tidy, ends]

@[simp] theorem wholeLines_textInner (margin : Nat) (before : String) :
    WholeLines (.margin margin :: .text before :: (inner ++ .text after :: rest)) ↔
      WholeLines rest := by
  simp [WholeLines, Tidy, endsFresh, tidy, ends]

end Inner

@[simp] theorem wholeLines_flatMap {α : Type} {print : α → List Piece} {items : List α}
    (each : ∀ item ∈ items, WholeLines (print item)) : WholeLines (items.flatMap print) := by
  induction items with
  | nil => exact wholeLines_nil
  | cons item items ih =>
      rw [List.flatMap_cons, wholeLines_append (each item (List.mem_cons_self ..))]
      exact ih fun other member => each other (List.mem_cons_of_mem _ member)

theorem tidy_separate {separator : List Piece} {isFresh : Bool}
    (between : ∀ before, Tidy before separator ∧ endsFresh before separator = isFresh)
    {parts : List (List Piece)} (each : ∀ part ∈ parts, Tidy isFresh part) :
    Tidy isFresh (separate separator parts) := by
  fun_induction separate separator parts with
  | case1 => trivial
  | case2 last => exact each last (List.mem_singleton.mpr rfl)
  | case3 first rest _ ih =>
      have restTidy := ih fun part member => each part (List.mem_cons_of_mem _ member)
      simp [each first (List.mem_cons_self ..), between, restTidy]

end Piece

/-! ## Expressions -/

mutual

theorem Expr.tidy_print : ∀ (expr : Expr) (depth : Nat) (isFresh : Bool),
    Piece.Tidy isFresh (expr.print depth)
  | .atom text, depth, isFresh => by simp [Expr.print, Piece.Tidy]
  | .paren inner, depth, isFresh => by simp [Expr.print, Piece.Tidy, Expr.tidy_print inner]
  | .unary op term, depth, isFresh => by simp [Expr.print, Piece.Tidy, Expr.tidy_print term]
  | .binary op left right, depth, isFresh => by
      simp [Expr.print, Piece.Tidy, Expr.tidy_print left, Expr.tidy_print right]
  | .choose condition yes no, depth, isFresh => by
      simp [Expr.print, Piece.Tidy, Expr.tidy_print condition, Expr.tidy_print yes,
        Expr.tidy_print no]
  | .next value step, depth, isFresh => by
      simp [Expr.print, Piece.Tidy, Expr.tidy_print value, Expr.tidy_print step]
  | .cast type value, depth, isFresh => by simp [Expr.print, Piece.Tidy, Expr.tidy_print value]
  | .call function arguments, depth, isFresh => by
      have plain : ∀ before, Piece.Tidy before [.text ", "] := fun _ => trivial
      simp [Expr.print, Piece.Tidy, Expr.tidy_printList arguments depth plain]
  | .callLines function arguments, depth, isFresh => by
      have broken : ∀ before, Piece.Tidy before [.text ",\n", .margin (depth + 1)] :=
        fun _ => ⟨rfl, trivial⟩
      simp [Expr.print, Piece.Tidy, Expr.tidy_printList arguments (depth + 1) broken]
  | .load place, depth, isFresh => by simp [Expr.print, Place.tidy_print place]
  | .pointer place, depth, isFresh => by simp [Expr.print, Place.tidy_print place]

theorem Expr.tidy_printList : ∀ (exprs : List Expr) (depth : Nat) {separator : List Piece},
    (∀ before, Piece.Tidy before separator) → ∀ isFresh : Bool,
      Piece.Tidy isFresh (Expr.printList depth separator exprs)
  | [], depth, separator, between, isFresh => by simp [Expr.printList, Piece.Tidy]
  | [last], depth, separator, between, isFresh => by
      simp [Expr.printList, Expr.tidy_print last]
  | first :: second :: rest, depth, separator, between, isFresh => by
      simp [Expr.printList, between, Expr.tidy_print first,
        Expr.tidy_printList (second :: rest) depth between]

theorem Place.tidy_print : ∀ (place : Place) (depth : Nat) (byPointer isFresh : Bool),
    Piece.Tidy isFresh (place.print depth byPointer)
  | .pin name, depth, byPointer, isFresh => by simp [Place.print, Piece.Tidy]
  | .named root path, depth, byPointer, isFresh => by
      cases byPointer <;> simp [Place.print, Piece.Tidy, Path.tidy_print path]
  | .member family handle root, depth, byPointer, isFresh => by simp [Place.print, Piece.Tidy]
  | .part family handle root path, depth, byPointer, isFresh => by
      simp [Place.print, Piece.Tidy, Path.tidy_print path]

theorem Path.tidy_print : ∀ (path : Path) (depth : Nat) (isFresh : Bool),
    Piece.Tidy isFresh (path.print depth)
  | .here, depth, isFresh => by simp [Path.print, Piece.Tidy]
  | .field record name, depth, isFresh => by
      simp [Path.print, Piece.Tidy, Path.tidy_print record]
  | .cell array subscripts, depth, isFresh => by
      simp [Path.print, Piece.Tidy, Path.tidy_print array, Subscript.tidy_printList subscripts]

theorem Subscript.tidy_printList : ∀ (subscripts : List Subscript) (depth : Nat)
    (isFresh : Bool), Piece.Tidy isFresh (Subscript.printList depth subscripts)
  | [], depth, isFresh => by simp [Subscript.printList, Piece.Tidy]
  | .mk value lower :: rest, depth, isFresh => by
      simp [Subscript.printList, Piece.Tidy, Expr.tidy_print value,
        Subscript.tidy_printList rest]

end

attribute [simp] Expr.tidy_print Place.tidy_print Path.tidy_print

@[simp] theorem Store.tidy_print (store : Store) (depth : Nat) (isFresh : Bool) :
    Piece.Tidy isFresh (store.print depth) := by
  unfold Store.print
  split <;> simp [Piece.Tidy]

@[simp] theorem Step.tidy_printTest (step : Step) (depth : Nat) (control : Place) (last : Expr)
    (isFresh : Bool) : Piece.Tidy isFresh (step.printTest depth control last) := by
  cases step <;> simp [Step.printTest, Piece.Tidy]

@[simp] theorem Step.tidy_printAdvance (step : Step) (depth : Nat) (control : Place)
    (isFresh : Bool) : Piece.Tidy isFresh (step.printAdvance depth control) := by
  cases step <;> simp [Step.printAdvance, Piece.Tidy]

/-! ## Statements -/

open Piece (WholeLines Tidy endsFresh)

@[simp] theorem wholeLines_printExit (depth : Nat) (exit : Option Nat) :
    WholeLines (printExit depth exit) := by
  cases exit with
  | none => exact Piece.wholeLines_nil
  | some loop => exact Piece.wholeLines_textLine depth _

mutual

theorem Stmt.wholeLines_print : ∀ (stmt : Stmt) (depth : Nat), WholeLines (stmt.print depth)
  | .store store, depth => by simp +decide [Stmt.print]
  | .invoke before run after, depth => by
      have between : ∀ before, Tidy before [.text ";\n", .margin depth] ∧
          endsFresh before [.text ";\n", .margin depth] = true :=
        fun _ => ⟨⟨rfl, trivial⟩, rfl⟩
      have separated : Tidy true (Piece.separate [.text ";\n", .margin depth]
          (before.map (Store.print depth) ++ run.print depth ::
            after.map (Store.print depth))) := by
        refine Piece.tidy_separate between fun part member => ?_
        rw [List.mem_append, List.mem_cons, List.mem_map, List.mem_map] at member
        obtain ⟨store, -, rfl⟩ | rfl | ⟨store, -, rfl⟩ := member <;> simp
      simp [WholeLines, Stmt.print, Tidy, endsFresh, endsLine, separated]
  | .ifElse condition body elseIfs otherwise, depth => by
      have inBody := Stmt.wholeLines_printList body (depth + 1)
      have inBranches := Branch.wholeLines_printList elseIfs depth
      have inOtherwise := Stmt.wholeLines_printList otherwise (depth + 1)
      unfold Stmt.print
      split <;> simp +decide [inBody, inBranches, inOtherwise]
  | .select type selector cases ranges otherwise, depth => by
      have inCases := Case.wholeLines_printList cases (depth + 2)
      have inRanges := RangeCase.wholeLines_printList ranges (depth + 3) true
      have inOtherwise := fun depth => Stmt.wholeLines_printList otherwise depth
      unfold Stmt.print
      split <;> simp +decide [inCases, inRanges, inOtherwise]
  | .forLoop control first last step body exit, depth => by
      have inBody := Stmt.wholeLines_printList body (depth + 1)
      have inExit := wholeLines_printExit depth exit
      -- the heading is one line of several parts
      simp [WholeLines, Stmt.print, Tidy, endsFresh, endsLine, inBody.1, inBody.2, inExit.1,
        inExit.2]
  | .countLoop control first last step next body exit, depth => by
      simp +decide [Stmt.print, Stmt.wholeLines_printList body (depth + 1)]
  | .whileLoop condition body exit, depth => by
      simp +decide [Stmt.print, Stmt.wholeLines_printList body (depth + 1)]
  | .untilLoop body condition exit, depth => by
      have inBody := Stmt.wholeLines_printList body (depth + 1)
      have inExit := wholeLines_printExit depth exit
      simp [WholeLines, Stmt.print, Tidy, endsFresh, endsLine, inBody.1, inBody.2, inExit.1,
        inExit.2]
  | .leaveUnit, depth => Piece.wholeLines_textLine depth _
  | .leaveLoop, depth => Piece.wholeLines_textLine depth _
  | .jumpOut loop, depth => Piece.wholeLines_textLine depth _
  | .code text, depth => by simp [WholeLines, Stmt.print, Tidy, endsFresh, endsLine]
  | .accessorCode text, depth => by simp +decide [Stmt.print]
  | .switch on, depth => by simp [WholeLines, Stmt.print, Tidy, endsFresh]

theorem Stmt.wholeLines_printList : ∀ (stmts : List Stmt) (depth : Nat),
    WholeLines (Stmt.printList depth stmts)
  | [], depth => by simp [Stmt.printList]
  | stmt :: stmts, depth => by
      simp [Stmt.printList, Stmt.wholeLines_print stmt depth,
        Stmt.wholeLines_printList stmts depth]

theorem Branch.wholeLines_printList : ∀ (branches : List Branch) (depth : Nat),
    WholeLines (Branch.printList depth branches)
  | [], depth => by simp [Branch.printList]
  | .mk condition body :: branches, depth => by
      simp +decide [Branch.printList, Stmt.wholeLines_printList body (depth + 1),
        Branch.wholeLines_printList branches depth]

theorem Case.wholeLines_printList : ∀ (cases : List Case) (depth : Nat),
    WholeLines (Case.printList depth cases)
  | [], depth => by simp [Case.printList]
  | .mk labels body :: cases, depth => by
      simp [Case.printList, Stmt.wholeLines_printList body (depth + 1),
        Case.wholeLines_printList cases depth]

theorem RangeCase.wholeLines_printList : ∀ (cases : List RangeCase) (depth : Nat)
    (isFirst : Bool), WholeLines (RangeCase.printList depth isFirst cases)
  | [], depth, isFirst => by simp [RangeCase.printList]
  | .mk ranges body :: cases, depth, isFirst => by
      simp [RangeCase.printList, Stmt.wholeLines_printList body (depth + 1),
        RangeCase.wholeLines_printList cases depth false]

end

attribute [simp] Stmt.wholeLines_printList

/-! ## Declarations and definitions -/

@[simp] theorem TypeDecl.wholeLines_print (decl : TypeDecl) : WholeLines decl.print := by
  cases decl with
  | enumeration name values =>
      have separated : Tidy true (Piece.separate [.text ",\n"]
          (values.map fun value => [.margin 1, .text (name ++ "__" ++ value)])) := by
        have between : ∀ before, Tidy before [.text ",\n"] ∧
            endsFresh before [.text ",\n"] = true := fun _ => ⟨trivial, rfl⟩
        refine Piece.tidy_separate between fun part member => ?_
        obtain ⟨value, -, rfl⟩ := List.mem_map.mp member
        exact ⟨rfl, trivial⟩
      rw [TypeDecl.print, Piece.wholeLines_cons (endsLine_append _ rfl)]
      simp [WholeLines, Tidy, endsFresh, endsLine, separated]
  | string | derived | subrange | array | record => simp +decide [TypeDecl.print]

@[simp] theorem Formal.wholeLines_printCopyBack (formal : Formal) :
    WholeLines formal.printCopyBack := by
  unfold Formal.printCopyBack
  split <;> simp

@[simp] theorem wholeLines_unitComment (layout : Layout) (kind name : String) :
    WholeLines (unitComment layout kind name) := by
  unfold unitComment
  split <;> simp +decide

@[simp] theorem FunctionDef.wholeLines_print (layout : Layout) (definition : FunctionDef) :
    WholeLines (definition.print layout) := by
  simp +decide [FunctionDef.print]

@[simp] theorem Helper.wholeLines_print (helper : Helper) : WholeLines helper.print := by
  have assigned (before : String) (value : Expr) : WholeLines
      (.margin 1 :: .text before :: (value.print helper.depth ++ [.text ";\n"])) := by
    simp +decide
  have stored (store : Store) :
      WholeLines (.margin 1 :: (store.print helper.depth ++ [.text ";\n"])) := by
    simp +decide
  simp +decide [Helper.print, assigned, stored]

@[simp] theorem UnitKind.wholeLines_prologue (kind : UnitKind) : WholeLines kind.prologue := by
  cases kind <;> simp [UnitKind.prologue]

@[simp] theorem Slot.wholeLines_initialization (slot : Slot) :
    WholeLines (slot.member.initialization.flatMap (Piece.textLine 1)) :=
  Piece.wholeLines_flatMap fun _ _ => Piece.wholeLines_textLine 1 _

@[simp] theorem UnitDef.wholeLines_print (layout : Layout) (definition : UnitDef) :
    WholeLines (definition.print layout) := by
  simp +decide [UnitDef.print]

theorem Element.wholeLines_print (layout : Layout) (element : Element) :
    WholeLines (element.print layout) := by
  cases element with
  | function definition => exact definition.wholeLines_print layout
  | unit definition => exact definition.wholeLines_print layout
  | code text => simp [WholeLines, Element.print, Tidy, endsFresh, endsLine]
  | switch on => simp [WholeLines, Element.print, Tidy, endsFresh]

theorem File.wholeLines_print (layout : Layout) (file : File) :
    WholeLines (file.print layout) := by
  simp +decide [File.print, Element.wholeLines_print]

/-- Texts of a file with margins of two widths have the same lines, up to the spaces at their
start. -/
theorem File.map_unindented_lines_render (file : File) (comments : Bool) (width width' : Nat) :
    (lines (file.render ⟨width, comments⟩)).map unindented =
      (lines (file.render ⟨width', comments⟩)).map unindented := by
  have printed : file.print ⟨width, comments⟩ = file.print ⟨width', comments⟩ := rfl
  have tidy := Piece.tidy_visible (file.wholeLines_print ⟨width', comments⟩).1 true
  apply map_unindented_lines
  simp only [File.render, Piece.renderAll, printed, String.toList_join, List.flatMap_map]
  exact Piece.outline_render tidy (fun fresh => fresh) width width'

end StructuredText.Code

namespace StructuredText

/-- The width of the margins is layout: it decides neither whether a library compiles nor
which faults are reported, and the texts have the same lines up to the spaces at their
start. -/
theorem Library.compile_width (library : Library) (withConversions comments : Bool)
    (width width' : Nat) :
    match library.compile withConversions ⟨width, comments⟩,
      library.compile withConversions ⟨width', comments⟩ with
    | .ok text, .ok text' =>
        (Code.lines text).length = (Code.lines text').length ∧
          (Code.lines text).map Code.unindented = (Code.lines text').map Code.unindented
    | .error faults, .error faults' => faults = faults'
    | _, _ => False := by
  unfold Library.compile Library.generate
  cases Context.resolve library withConversions with
  | error faults => rfl
  | ok context =>
      simp only [bind, Except.bind]
      cases library.check context with
      | error faults => rfl
      | ok checked =>
          cases library.lower context with
          | error fault => rfl
          | ok file =>
              have same := file.map_unindented_lines_render comments width width'
              exact ⟨by simpa using congrArg List.length same, same⟩

end StructuredText
