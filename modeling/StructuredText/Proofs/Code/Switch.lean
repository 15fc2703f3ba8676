import StructuredText.Code.Printer

/-!
# How a selection runs

A selection is written as a switch over the single values, whose default part tests the
ranges one after the other.  Its lines are run as they are written: the switch goes to the
label of the value, or else to the default, and from there on until it is left.  What runs
is the body of the first case with the value among its labels; without such a case, the
body of the first test that holds; without such a test, what stands after the tests.
-/

set_option autoImplicit false

namespace StructuredText.Code

def Case.labels : Case → List String
  | .mk labels _ => labels

def Case.body : Case → List Stmt
  | .mk _ body => body

def RangeCase.ranges : RangeCase → List (String × String)
  | .mk ranges _ => ranges

def RangeCase.body : RangeCase → List Stmt
  | .mk _ body => body

/-! ## The lines of a switch -/

/-- A part of a switch as it is written. -/
inductive SwitchLine where
  | label (constant : String)
  | default
  | block (body : List Stmt)
  /-- Tests of ranges, each with its body, and what is done where none of them holds. -/
  | tests (cases : List RangeCase) (otherwise : List Stmt)
  | leave

namespace SwitchLine

def print (depth : Nat) : SwitchLine → List Piece
  | label constant => Piece.textLine depth ("case " ++ constant ++ ":")
  | default => Piece.textLine depth "default:"
  | block body => Stmt.printList (depth + 1) body
  | tests cases otherwise =>
      RangeCase.printList (depth + 1) true cases ++
        (match otherwise with
          | [] => []
          | _ => Piece.textLine (depth + 1) "else \x7b" ++
              Stmt.printList (depth + 2) otherwise ++ Piece.textLine (depth + 1) "\x7d")
  | leave => Piece.textLine (depth + 1) "break;"

def ofCase (case : Case) : List SwitchLine :=
  case.labels.map label ++ [block case.body, leave]

def ofSelection (cases : List Case) (ranges : List RangeCase) (otherwise : List Stmt) :
    List SwitchLine :=
  cases.flatMap ofCase ++ default ::
    (match ranges with
      | [] => [block otherwise, leave]
      | _ => [tests ranges otherwise, leave])

def label? : SwitchLine → Option String
  | label constant => some constant
  | default | block _ | tests .. | leave => none

def ranges : SwitchLine → List (String × String)
  | tests cases _ => cases.flatMap RangeCase.ranges
  | label _ | default | block _ | leave => []

theorem label?_ofCases (cases : List Case) :
    (cases.flatMap ofCase).filterMap label? = cases.flatMap Case.labels := by
  induction cases with
  | nil => rfl
  | cons case cases ih =>
      rw [List.flatMap_cons, List.filterMap_append, ih, List.flatMap_cons]
      simp [ofCase, label?, List.filterMap_map, Function.comp_def]

theorem label?_ofSelection (cases : List Case) (ranges : List RangeCase) (otherwise : List Stmt) :
    (ofSelection cases ranges otherwise).filterMap label? = cases.flatMap Case.labels := by
  unfold ofSelection
  rw [List.filterMap_append, label?_ofCases]
  cases ranges <;> simp [label?]

theorem ranges_ofSelection (cases : List Case) (tested : List RangeCase) (otherwise : List Stmt) :
    (ofSelection cases tested otherwise).flatMap ranges = tested.flatMap RangeCase.ranges := by
  have noTests : (cases.flatMap ofCase).flatMap ranges = [] := by
    induction cases with
    | nil => rfl
    | cons case cases ih => simp [ofCase, ranges, ih, List.flatMap_map]
  unfold ofSelection
  rw [List.flatMap_append, noTests]
  cases tested <;> simp [ranges]

theorem print_ofCases (depth : Nat) (cases : List Case) :
    (cases.flatMap ofCase).flatMap (print depth) = Case.printList depth cases := by
  induction cases with
  | nil => simp [Case.printList]
  | cons case cases ih =>
      cases case with
      | mk labels body =>
          rw [Case.printList, List.flatMap_cons, List.flatMap_append, ih]
          simp [ofCase, Case.labels, Case.body, print, List.flatMap_map]

end SwitchLine

theorem Stmt.print_select (depth : Nat) (type : String) (selector : Expr) (cases : List Case)
    (ranges : List RangeCase) (otherwise : List Stmt) :
    (Stmt.select type selector cases ranges otherwise).print depth =
      [Piece.margin depth, .text "\x7b\n", .margin (depth + 1),
        .text (type ++ " __case_expression = ")] ++ selector.print depth ++
      [Piece.text ";\n", .margin (depth + 1), .text "switch (__case_expression) \x7b\n"] ++
      (SwitchLine.ofSelection cases ranges otherwise).flatMap (SwitchLine.print (depth + 2)) ++
      Piece.textLine (depth + 1) "\x7d" ++ [Piece.margin depth, .text "\x7d", .text ";\n"] := by
  unfold SwitchLine.ofSelection
  rw [List.flatMap_append, SwitchLine.print_ofCases]
  cases ranges with
  | nil => simp [Stmt.print, RangeCase.printList, SwitchLine.print]
  | cons range ranges =>
      cases otherwise with
      | nil => simp [Stmt.print, SwitchLine.print]
      | cons stmt stmts => simp [Stmt.print, SwitchLine.print]

/-! ## Running a switch -/

section Run

-- the value of a constant where it is compared with the selector, and the selector
variable (reading : String → Int) (value : Int)

def Case.isFor (case : Case) : Bool := case.labels.any fun label => reading label = value

def RangeCase.isFor (case : RangeCase) : Bool :=
  case.ranges.any fun bounds => reading bounds.1 ≤ value ∧ value ≤ reading bounds.2

/-- What a chain of tests runs: the body of the first test that holds. -/
def RangeCase.run : List RangeCase → List Stmt → List Stmt
  | [], otherwise => otherwise
  | case :: rest, otherwise =>
      if case.isFor reading value then case.body else RangeCase.run rest otherwise

namespace SwitchLine

def afterLabel? : List SwitchLine → Option (List SwitchLine)
  | [] => none
  | label constant :: rest => if reading constant = value then some rest else afterLabel? rest
  | _ :: rest => afterLabel? rest

def afterDefault? : List SwitchLine → Option (List SwitchLine)
  | [] => none
  | default :: rest => some rest
  | _ :: rest => afterDefault? rest

def runOn : List SwitchLine → List Stmt
  | [] => []
  | leave :: _ => []
  | label _ :: rest | default :: rest => runOn rest
  | block body :: rest => body ++ runOn rest
  | tests cases otherwise :: rest => RangeCase.run reading value cases otherwise ++ runOn rest

def run (lines : List SwitchLine) : List Stmt :=
  match afterLabel? reading value lines with
  | some rest => runOn reading value rest
  | none => ((afterDefault? lines).map (runOn reading value)).getD []

theorem runOn_labels (labels : List String) (body : List Stmt) (rest : List SwitchLine) :
    runOn reading value (labels.map label ++ block body :: leave :: rest) = body := by
  induction labels with
  | nil => simp [runOn]
  | cons first labels ih => exact ih

theorem runOn_afterLabel?_ofCase (case : Case) (rest : List SwitchLine) :
    (afterLabel? reading value (ofCase case ++ rest)).map (runOn reading value) =
      if case.isFor reading value then some case.body
      else (afterLabel? reading value rest).map (runOn reading value) := by
  cases case with
  | mk labels body =>
      simp only [ofCase, Case.isFor, Case.labels, Case.body]
      induction labels with
      | nil => rfl
      | cons first labels ih =>
          by_cases isFirst : reading first = value
          · have ran := runOn_labels reading value labels body rest
            simpa [afterLabel?, isFirst] using ran
          · simpa [afterLabel?, isFirst] using ih

theorem runOn_afterLabel?_ofCases (cases : List Case) (rest : List SwitchLine) :
    (afterLabel? reading value (cases.flatMap ofCase ++ rest)).map (runOn reading value) =
      ((cases.find? (Case.isFor reading value)).map Case.body).or
        ((afterLabel? reading value rest).map (runOn reading value)) := by
  induction cases with
  | nil => rfl
  | cons case cases ih =>
      rw [List.flatMap_cons, List.append_assoc, runOn_afterLabel?_ofCase, ih, List.find?_cons]
      cases case.isFor reading value <;> rfl

theorem afterDefault?_ofCases (cases : List Case) (rest : List SwitchLine) :
    afterDefault? (cases.flatMap ofCase ++ default :: rest) = some rest := by
  induction cases with
  | nil => rfl
  | cons case cases ih =>
      cases case with
      | mk labels body =>
          rw [List.flatMap_cons, List.append_assoc, ofCase]
          simp only [Case.labels]
          induction labels with
          | nil => exact ih
          | cons first labels inner => exact inner

/-- A selection runs the case for the value; if there is none, it goes through the tests. -/
theorem run_ofSelection (cases : List Case) (ranges : List RangeCase) (otherwise : List Stmt) :
    run reading value (ofSelection cases ranges otherwise) =
      ((cases.find? (Case.isFor reading value)).map Case.body).getD
        (RangeCase.run reading value ranges otherwise) := by
  obtain ⟨last, lines, noLabel, ran⟩ : ∃ last, ofSelection cases ranges otherwise =
      cases.flatMap ofCase ++ default :: last ∧ afterLabel? reading value (default :: last) = none ∧
        runOn reading value last = RangeCase.run reading value ranges otherwise := by
    cases ranges with
    | nil => exact ⟨_, rfl, rfl, by simp [runOn, RangeCase.run]⟩
    | cons range ranges => exact ⟨_, rfl, rfl, by simp [runOn]⟩
  have labelled := runOn_afterLabel?_ofCases reading value cases (default :: last)
  rw [noLabel, Option.map_none, Option.or_none] at labelled
  rw [lines, run, ← labelled]
  cases afterLabel? reading value (cases.flatMap ofCase ++ default :: last) with
  | some rest => rfl
  | none => simp [afterDefault?_ofCases, ran]

end SwitchLine

end Run

end StructuredText.Code
