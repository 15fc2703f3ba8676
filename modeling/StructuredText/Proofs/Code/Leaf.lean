import StructuredText.Proofs.Code.Pointer

/-!
# The leaves of generated code

Expressions end in constants and names.  A call through a helper can be told from the others
by its last argument, the handle of the instance that the helper stores to; what it runs is
a leaf too, so the leaves of a body tell which helpers it needs.
-/

set_option autoImplicit false

namespace StructuredText.Code

inductive Leaf where
  /-- A constant or a name. -/
  | atom (text : String)
  /-- The name of a helper that is called. -/
  | helper (name : String)
deriving DecidableEq

def Expr.isHandle : Expr → Bool
  | .atom text => text == "data__"
  | _ => false

/-- The helper that a call runs: a call through a helper passes the handle on at the end. -/
def Leaf.ofCall (function : String) (arguments : List Expr) : List Leaf :=
  if arguments.getLast?.any Expr.isHandle then [.helper function] else []

/-! ## Expressions -/

mutual

def Expr.leaves : Expr → List Leaf
  | .atom text => [.atom text]
  | .paren inner => inner.leaves
  | .unary _ term => term.leaves
  | .binary _ left right => left.leaves ++ right.leaves
  | .choose condition yes no => condition.leaves ++ yes.leaves ++ no.leaves
  | .next value step => value.leaves ++ step.leaves
  | .cast _ value => value.leaves
  | .call _ arguments => Expr.leavesList arguments
  | .callLines function arguments => Leaf.ofCall function arguments ++ Expr.leavesList arguments
  | .load place => place.leaves
  | .pointer place => place.leaves

def Expr.leavesList : List Expr → List Leaf
  | [] => []
  | expr :: exprs => expr.leaves ++ Expr.leavesList exprs

def Place.leaves : Place → List Leaf
  | .pin _ => []
  | .named _ path => path.leaves
  | .member .. => []
  | .part _ _ _ path => path.leaves

def Path.leaves : Path → List Leaf
  | .here => []
  | .field record _ => record.leaves
  | .cell array subscripts => array.leaves ++ Subscript.leavesList subscripts

def Subscript.leavesList : List Subscript → List Leaf
  | [] => []
  | .mk value _ :: rest => value.leaves ++ Subscript.leavesList rest

end

theorem Expr.leavesList_eq (exprs : List Expr) :
    Expr.leavesList exprs = exprs.flatMap Expr.leaves := by
  induction exprs with
  | nil => rw [Expr.leavesList, List.flatMap_nil]
  | cons expr exprs ih => rw [Expr.leavesList, List.flatMap_cons, ih]

theorem Leaf.ofCall_of_noHandle {function : String} {arguments : List Expr}
    (noHandle : ∀ argument ∈ arguments, argument.isHandle = false) :
    Leaf.ofCall function arguments = [] := by
  rw [Leaf.ofCall, if_neg]
  rw [Option.any_eq_true]
  rintro ⟨argument, isLast, isHandle⟩
  rw [noHandle argument (List.mem_of_getLast? isLast)] at isHandle
  cases isHandle

theorem Leaf.ofCall_of_handle (function : String) (arguments : List Expr) :
    Leaf.ofCall function (arguments ++ [.atom "data__"]) = [.helper function] := by
  rw [Leaf.ofCall, List.getLast?_append, List.getLast?_singleton]
  rfl

/-! ## Statements -/

def Store.leaves (store : Store) : List Leaf := store.place.leaves ++ store.value.leaves

def Step.leaves : Step → List Leaf
  | .one => []
  | .upward step => step.leaves
  | .either step => step.leaves

def Case.leaves : Case → List Leaf
  | .mk labels _ => labels.map .atom

def RangeCase.leaves : RangeCase → List Leaf
  | .mk ranges _ => ranges.flatMap fun range => [.atom range.1, .atom range.2]

/-- The leaves of a statement itself, apart from those of the statements in it.  Text of the
program is left to the program. -/
def Stmt.leaves : Stmt → List Leaf
  | .store kept => kept.leaves
  | .invoke before run after =>
      before.flatMap Store.leaves ++ run.leaves ++ after.flatMap Store.leaves
  | .ifElse test _ elseIfs _ => test.leaves ++ elseIfs.flatMap fun branch => branch.condition.leaves
  | .select _ selector cases ranges _ =>
      selector.leaves ++ cases.flatMap Case.leaves ++ ranges.flatMap RangeCase.leaves
  | .forLoop control first last step _ _ =>
      control.leaves ++ first.leaves ++ last.leaves ++ step.leaves
  | .countLoop control first last step next _ _ =>
      control.leaves ++ first.leaves ++ last.leaves ++ step.leaves ++ next.leaves
  | .whileLoop test _ _ => test.leaves
  | .untilLoop _ test _ => test.leaves
  | .leaveUnit | .leaveLoop | .jumpOut _ | .code _ | .accessorCode _ | .switch _ => []

def Stmt.leavesList (stmts : List Stmt) : List Leaf := (Stmt.allList stmts).flatMap Stmt.leaves

def Branch.leavesList (branches : List Branch) : List Leaf :=
  (branches.flatMap fun branch => branch.condition.leaves) ++
    (Branch.allList branches).flatMap Stmt.leaves

def Case.leavesList (cases : List Case) : List Leaf :=
  cases.flatMap Case.leaves ++ (Case.allList cases).flatMap Stmt.leaves

def RangeCase.leavesList (ranges : List RangeCase) : List Leaf :=
  ranges.flatMap RangeCase.leaves ++ (RangeCase.allList ranges).flatMap Stmt.leaves

/-! ## Helpers -/

namespace Helper

def names (helper : Helper) : List String :=
  helper.formals.map Formal.name ++ helper.temporaries.map fun (_, name, _) => name

def leaves (helper : Helper) : List Leaf :=
  (helper.temporaries.flatMap fun (_, _, initial) => initial.leaves) ++
    Expr.leavesList helper.arguments ++ helper.stores.flatMap Store.leaves

/-- What the name of a helper starts with: the unit and the function that it is for. -/
def stem (helper : Helper) : String := "__" ++ helper.unit ++ "_" ++ helper.callee

/-- The name of the helper ends in the number. -/
def HasNumber (helper : Helper) (number : Nat) : Prop :=
  helper.name = helper.stem ++ toString number

def Apart (first second : Helper) : Prop :=
  ∀ number other, first.HasNumber number → second.HasNumber other → number ≠ other

end Helper

theorem toString_injective {number other : Nat} (same : toString number = toString other) :
    number = other := by
  have digits : Nat.toDigits 10 number = Nat.toDigits 10 other :=
    String.ofList_injective same
  have read := congrArg (fun chars => Nat.ofDigitChars 10 chars 0) digits
  simpa only [Nat.ofDigitChars_ten_toDigits] using read

theorem Helper.HasNumber.unique {helper : Helper} {number other : Nat}
    (hasNumber : helper.HasNumber number) (hasOther : helper.HasNumber other) :
    number = other := by
  rw [HasNumber, hasOther, String.append_right_inj] at hasNumber
  exact (toString_injective hasNumber).symm

/-! ## Known leaves -/

section Known

variable {allowed : String → Prop} {on : Prop} {helpers : List Helper}

/-- A constant or a name that is allowed, or a helper that is there, if the output is on. -/
def Leaf.IsKnown (allowed : String → Prop) (on : Prop) (helpers : List Helper) : Leaf → Prop
  | .atom text => allowed text
  | .helper name => on → name ∈ helpers.map Helper.name

theorem Leaf.IsKnown.mono {leaf : Leaf} {more : List Helper}
    (isKnown : leaf.IsKnown allowed on helpers) (grows : helpers ⊆ more) :
    leaf.IsKnown allowed on more := by
  cases leaf with
  | atom text => exact isKnown
  | helper name => exact fun isOn => List.map_subset _ grows (isKnown isOn)

/-- What a helper is made of is known ahead of it, apart from the names that it binds. -/
def Helper.IsSound (allowed : String → Prop) (on : Prop) (earlier : List Helper)
    (helper : Helper) : Prop :=
  ∀ leaf ∈ helper.leaves,
    leaf.IsKnown allowed on earlier ∨ ∃ name ∈ helper.names, leaf = .atom name

/-- Every helper of a list is made of what is known where it stands, after earlier ones. -/
def Helper.AreSound (allowed : String → Prop) (on : Prop) (earlier : List Helper) :
    List Helper → Prop
  | [] => True
  | helper :: later =>
      helper.IsSound allowed on earlier ∧ AreSound allowed on (earlier ++ [helper]) later

theorem Helper.areSound_append {first second : List Helper} :
    ∀ {earlier : List Helper}, AreSound allowed on earlier (first ++ second) ↔
      AreSound allowed on earlier first ∧ AreSound allowed on (earlier ++ first) second := by
  induction first with
  | nil => simp [AreSound]
  | cons helper first ih =>
      intro earlier
      rw [List.cons_append, AreSound, AreSound, ih, and_assoc, List.append_assoc,
        List.singleton_append]

end Known

end StructuredText.Code
