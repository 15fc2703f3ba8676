import StructuredText.Analysis.Check
import StructuredText.Code.Literal
import StructuredText.Code.Name
import StructuredText.Code.Tree

/-!
# The state of lowering

What lowering the body of a unit keeps track of.  Calls and loops are numbered
through the unit; a loop whose number has been jumped to gets a label.
-/

set_option autoImplicit false

namespace StructuredText

/-- How the body of a unit reaches its variables: by name, or through accessors. -/
inductive Style where
  | direct | accessor
deriving DecidableEq, Repr

/-- The unit that is lowered. -/
structure Site where
  context : Context
  scope : Scope
  style : Style
  /-- The name of the unit in generated code. -/
  unit : String

/-- A construct that a `break` leaves. -/
inductive Breakable where
  | loop (number : Nat)
  | selection
deriving DecidableEq, Repr

/-- The loop that has to be left by a jump, because a selection lies between:
a `break` would leave the selection only.  The innermost construct comes first. -/
def Breakable.jumpTarget? : (inSelection : Bool) → List Breakable → Option Nat
  | _, [] => none
  | _, .selection :: rest => jumpTarget? true rest
  | inSelection, .loop number :: _ => if inSelection then some number else none

structure LoweringState where
  /-- The calls through helpers so far. -/
  calls : Nat := 0
  /-- The loops so far. -/
  loops : Nat := 0
  /-- The loops that are left by a jump. -/
  jumped : List Nat := []
  helpers : List Code.Helper := []
  /-- Whether the output is switched on. -/
  isOn : Bool := true

abbrev Lower := StateT LoweringState (Except Fault)

namespace Lower

/-- The number of the next call through a helper. -/
def nextCall : Lower Nat := do
  let state ← get
  set { state with calls := state.calls + 1 }
  return state.calls + 1

/-- The number of the next loop. -/
def nextLoop : Lower Nat := do
  let state ← get
  set { state with loops := state.loops + 1 }
  return state.loops + 1

/-- Notes that a loop is left by a jump. -/
def jump (loop : Nat) : Lower Unit :=
  modify fun state => { state with jumped := loop :: state.jumped }

/-- The number of a loop if it has been jumped out of. -/
def exit? (loop : Nat) : Lower (Option Nat) := do
  return if (← get).jumped.contains loop then some loop else none

/-- Adds a helper, unless the output is switched off. -/
def addHelper (helper : Code.Helper) : Lower Unit :=
  modify fun state =>
    if state.isOn then { state with helpers := state.helpers ++ [helper] } else state

def switch (on : Bool) : Lower Unit := modify fun state => { state with isOn := on }

/-- A result that may be missing. -/
def need {α : Type} (fault : Fault) : Option α → Lower α
  | some value => pure value
  | none => throw fault

end Lower

end StructuredText
