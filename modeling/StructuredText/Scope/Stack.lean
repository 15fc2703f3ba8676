import StructuredText.Fault
import StructuredText.Table

/-!
# Nested scopes

A stack of tables.  There is always one, the outermost, which cannot be left.
Names are looked up from the innermost scope outward.
-/

set_option autoImplicit false

namespace StructuredText

structure ScopeStack (α : Type) where
  current : Table α := {}
  /-- The scopes around the current one, the nearest first. -/
  enclosing : List (Table α) := []

namespace ScopeStack

variable {α : Type}

/-- The outermost scope alone, without names. -/
def new : ScopeStack α := {}

/-- The number of scopes. -/
def depth (stack : ScopeStack α) : Nat := stack.enclosing.length + 1

/-- Enters a scope. -/
def push (stack : ScopeStack α) : ScopeStack α :=
  { current := {}, enclosing := stack.current :: stack.enclosing }

/-- Leaves the current scope and forgets its names. -/
def pop (stack : ScopeStack α) : Except Fault (ScopeStack α) :=
  match stack.enclosing with
  | [] => .error (.internal .scopeUnderflow {})
  | current :: enclosing => .ok { current, enclosing }

/-- The value of a name in the current scope. -/
def lookupCurrent (stack : ScopeStack α) (name : Ident) : Option α := stack.current.get? name

/-- The value of a name in the innermost scope that has it. -/
def lookup (stack : ScopeStack α) (name : Ident) : Option α :=
  (stack.current :: stack.enclosing).findSome? fun table => table.get? name

/-- Gives a name a value in the current scope, whether or not it has one there. -/
def bind (stack : ScopeStack α) (name : Ident) (value : α) : ScopeStack α :=
  { stack with current := stack.current.insert name value }

/-- Gives a name a value in the current scope unless it has one there. -/
def tryBind (stack : ScopeStack α) (name : Ident) (value : α) : ScopeStack α :=
  if stack.current.contains name then stack
  else { stack with current := stack.current.push name value }

theorem depth_pos (stack : ScopeStack α) : 0 < stack.depth := Nat.succ_pos _

theorem pop_push (stack : ScopeStack α) : stack.push.pop = .ok stack := rfl

theorem lookup_push (stack : ScopeStack α) (name : Ident) :
    stack.push.lookup name = stack.lookup name := rfl

end ScopeStack

end StructuredText
