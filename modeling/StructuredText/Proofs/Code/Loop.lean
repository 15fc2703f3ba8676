import StructuredText.Code.Printer

/-!
# How a counting loop runs

A counting loop over a variable with a name is written as a `for`; one over a variable behind
accessors as a store ahead of a `while`, whose last statement stores the next value.  Either
way the counter gets its first value, is tested before each round and goes on after it.  The
values that it has in the rounds are a finite or an endless sequence.
-/

set_option autoImplicit false

namespace StructuredText.Code

/-! ## The parts of a loop as they are written -/

inductive LoopTest where
  /-- The counter has not passed the last value. -/
  | upTo (last : Expr)
  /-- It has not passed the last value in the direction of the step. -/
  | towards (step last : Expr)

inductive Advance where
  | increment
  | add (step : Expr)
  | addBracketed (step : Expr)
  | store (next : Expr)

structure CountingLoop where
  counter : Place
  first : Expr
  test : LoopTest
  advance : Advance

namespace LoopTest

def ofStep (last : Expr) : Step → LoopTest
  | .one | .upward _ => .upTo last
  | .either step => .towards step last

def print (depth : Nat) (counter : Place) : LoopTest → List Piece
  | upTo last => counter.print depth false ++ .text " <= " :: last.print depth
  | towards step last =>
      .text "((" :: (step.print depth ++ .text ") > 0)? (" :: counter.print depth false ++
        .text " <= (" :: last.print depth ++ .text ")) : (" :: counter.print depth false ++
        .text " >= (" :: last.print depth ++ [.text "))"])

theorem print_ofStep (depth : Nat) (counter : Place) (last : Expr) (step : Step) :
    (ofStep last step).print depth counter = step.printTest depth counter last := by
  cases step <;> rfl

end LoopTest

namespace Advance

def ofStep : Step → Advance
  | .one => .increment
  | .upward step => .add step
  | .either step => .addBracketed step

def print (depth : Nat) (counter : Place) : Advance → List Piece
  | increment => counter.print depth false ++ [.text "++"]
  | add step => counter.print depth false ++ .text " += " :: step.print depth
  | addBracketed step =>
      counter.print depth false ++ .text " += (" :: step.print depth ++ [.text ")"]
  | store next => Store.print depth ⟨counter, next⟩

theorem print_ofStep (depth : Nat) (counter : Place) (step : Step) :
    (ofStep step).print depth counter = step.printAdvance depth counter := by
  cases step <;> rfl

end Advance

def Stmt.countingLoop? : Stmt → Option CountingLoop
  | .forLoop counter first last step _ _ =>
      some ⟨counter, first, .ofStep last step, .ofStep step⟩
  | .countLoop counter first last step next _ _ =>
      some ⟨counter, first, .ofStep last step, .store next⟩
  | _ => none

/-- A loop as it is written around its body: one that stores its next value has its start ahead
and its next value at the end, any other has all its parts in the head. -/
def CountingLoop.print (depth : Nat) (body : List Piece) (loop : CountingLoop) : List Piece :=
  let start := Store.print depth ⟨loop.counter, loop.first⟩
  let test := loop.test.print depth loop.counter
  let advance := loop.advance.print depth loop.counter
  match loop.advance with
  | .store _ =>
      [Piece.margin depth] ++ start ++ [Piece.text ";\n", .margin depth, .text "while ("] ++
        test ++ [Piece.text ") \x7b\n"] ++ body ++ [Piece.margin (depth + 1)] ++ advance ++
        [Piece.text ";\n", .margin depth, .text "\x7d", .text ";\n"]
  | .increment | .add _ | .addBracketed _ =>
      [Piece.margin depth, .text "for("] ++ start ++ [Piece.text "; "] ++ test ++
        [Piece.text "; "] ++ advance ++ [Piece.text ") \x7b\n"] ++ body ++
        [Piece.margin depth, .text "\x7d", .text ";\n"]

theorem Stmt.print_forLoop (depth : Nat) (counter : Place) (first last : Expr) (step : Step)
    (body : List Stmt) (exit : Option Nat) :
    (Stmt.forLoop counter first last step body exit).print depth =
      CountingLoop.print depth (Stmt.printList (depth + 1) body)
        ⟨counter, first, .ofStep last step, .ofStep step⟩ ++ printExit depth exit := by
  rw [Stmt.print, CountingLoop.print, LoopTest.print_ofStep, Advance.print_ofStep]
  cases step <;> simp [Advance.ofStep]

theorem Stmt.print_countLoop (depth : Nat) (counter : Place) (first last : Expr) (step : Step)
    (next : Expr) (body : List Stmt) (exit : Option Nat) :
    (Stmt.countLoop counter first last step next body exit).print depth =
      CountingLoop.print depth (Stmt.printList (depth + 1) body)
        ⟨counter, first, .ofStep last step, .store next⟩ ++ printExit depth exit := by
  rw [Stmt.print, CountingLoop.print, LoopTest.print_ofStep, Advance.print]
  simp

/-- A statement with the parts of a loop is written as the loop, with the label for those who
leave it behind. -/
theorem Stmt.print_of_countingLoop? {code : Stmt} {loop : CountingLoop}
    (isLoop : code.countingLoop? = some loop) :
    ∃ body exit, ∀ depth, code.print depth =
      loop.print depth (Stmt.printList (depth + 1) body) ++ printExit depth exit := by
  cases code with
  | forLoop counter first last step body exit =>
      cases isLoop
      exact ⟨body, exit, fun depth => Stmt.print_forLoop ..⟩
  | countLoop counter first last step next body exit =>
      cases isLoop
      exact ⟨body, exit, fun depth => Stmt.print_countLoop ..⟩
  | _ => cases isLoop

/-! ## Rounds -/

/-- The value of a counter in the round of a number, if the loop gets there. -/
def rounds (start : Int) (goesOn : Int → Bool) (next : Int → Int) : Nat → Option Int
  | 0 => if goesOn start then some start else none
  | round + 1 =>
      (rounds start goesOn next round).bind fun value =>
        if goesOn (next value) then some (next value) else none

section Rounds

variable {start : Int} {goesOn : Int → Bool} {next next' : Int → Int}

/-- Two ways to go on make the same rounds just if from each round they go on alike: to the
same value, or both to an end. -/
theorem rounds_eq_iff_of_next :
    rounds start goesOn next' = rounds start goesOn next ↔
      ∀ round value, rounds start goesOn next round = some value →
        next' value = next value ∨ goesOn (next' value) = false ∧ goesOn (next value) = false := by
  constructor
  · intro same round value reached
    have following := congrFun same (round + 1)
    rw [rounds, rounds, same, reached, Option.bind_some, Option.bind_some] at following
    cases goes : goesOn (next value) <;> cases goes' : goesOn (next' value) <;>
      simp_all
  · intro alike
    funext round
    induction round with
    | zero => rfl
    | succ round ih =>
        rw [rounds, rounds, ih]
        refine Option.bind_congr fun value reached => ?_
        rcases alike round value reached with same | ⟨ends', ends⟩
        · rw [same]
        · simp only [ends', ends, Bool.false_eq_true, if_false]

/-- A loop that stands still goes on for ever or not at all. -/
theorem rounds_of_fixed (stays : next start = start) (round : Nat) :
    rounds start goesOn next round = if goesOn start then some start else none := by
  induction round with
  | zero => rfl
  | succ round ih =>
      rw [rounds, ih]
      split
      next goes => rw [Option.bind_some, stays, if_pos goes]
      next => rfl

/-- Only the last value passes the tests of both directions or neither. -/
theorem eq_of_opposite {value last : Int}
    (same : (if last ≤ value then some value else none) =
      if value ≤ last then some value else none) : value = last := by
  rcases Int.lt_trichotomy value last with below | atLast | above
  · rw [if_neg (by omega), if_pos (by omega)] at same
    cases same
  · exact atLast
  · rw [if_pos (by omega), if_neg (by omega)] at same
    cases same

/-- Tests in opposite directions make the same rounds just if the loop stands still at the last
value. -/
theorem rounds_eq_iff_of_opposite {last : Int} :
    rounds start (fun value => last ≤ value) next = rounds start (fun value => value ≤ last) next ↔
      start = last ∧ next start = start := by
  constructor
  · intro same
    have first := congrFun same 0
    have second := congrFun same 1
    simp only [rounds, decide_eq_true_eq] at first second
    obtain rfl := eq_of_opposite first
    simp only [Int.le_refl, if_true, Option.bind_some] at second
    exact ⟨rfl, eq_of_opposite second⟩
  · rintro ⟨rfl, stays⟩
    funext round
    rw [rounds_of_fixed stays, rounds_of_fixed stays]

end Rounds

/-! ## Reading a loop -/

/-- What expressions are worth while a counter has a value. -/
structure Reading (counter : Place) where
  value : Expr → Int → Int
  /-- What a function of one argument gives. -/
  result : String → Int → Int
  value_load : ∀ current, value (.load counter) current = current
  value_one : ∀ current, value (.atom "1") current = 1
  value_paren : ∀ inner current, value (.paren inner) current = value inner current
  value_next : ∀ first second current,
    value (.next first second) current = value first current + value second current
  value_call : ∀ function argument current,
    value (.call function [argument]) current = result function (value argument current)

section Reading

variable {counter : Place} (reading : Reading counter)

def LoopTest.goesOn (current : Int) : LoopTest → Bool
  | .upTo last => current ≤ reading.value last current
  | .towards step last =>
      if 0 < reading.value step current then current ≤ reading.value last current
      else reading.value last current ≤ current

/-- The value of the counter after a round. -/
def Advance.next (current : Int) : Advance → Int
  | .increment => current + 1
  | .add step | .addBracketed step => current + reading.value step current
  | .store next => reading.value next current

end Reading

/-- The values of the counter in the rounds of a loop, given the value that it has before. -/
def CountingLoop.rounds (loop : CountingLoop) (reading : Reading loop.counter) (before : Int) :
    Nat → Option Int :=
  Code.rounds (reading.value loop.first before) (fun current => loop.test.goesOn reading current)
    (fun current => loop.advance.next reading current)

end StructuredText.Code
