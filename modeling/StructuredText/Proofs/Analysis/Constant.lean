import StructuredText.Proofs.Analysis.Assignable
import StructuredText.Tree.Build

/-!
# What writes constants

A statement writes the target of an assignment, the counter of a loop, and the variables
that receive what comes out of a call or of an invocation; the calls stand anywhere in
its expressions.  Analysis asks of an assignment that its target is no constant, and of
the other writes it does not.
-/

set_option autoImplicit false

namespace StructuredText

/-! ## Writes -/

/-- What writes a variable.  A parameter of a function or of a function block writes the
variable that receives its value. -/
inductive Writer where
  | assignment
  | counter
  | call (direction : Direction)
  | invocation (direction : Direction)
deriving DecidableEq, Repr

structure Write where
  writer : Writer
  target : Variable

def Binding.writes (writer : Direction → Writer) (binding : Binding) : List Write :=
  binding.parameters.filterMap fun bound =>
    bound.target?.map fun target => { writer := writer bound.parameter.direction, target }

section Writes

variable (context : Context) (scope : Scope)

def Expr.writes : Expr → List Write
  | .call function arguments =>
      match CallResolution.of? context scope function arguments with
      | none => []
      | some resolution =>
          match Binding.make resolution.signature.parameters arguments with
          | .ok binding => binding.writes .call
          | .error _ => []
  | _ => []

def Stmt.ownWrites : Stmt → List Write
  | .assign target _ => [{ writer := .assignment, target }]
  | .forTo control _ _ _ _ => [{ writer := .counter, target := .named control }]
  | .invoke block arguments =>
      match instanceType scope block with
      | .error _ => []
      | .ok type =>
          match context.functions.block? type with
          | none => []
          | some signature =>
              match Binding.make signature.parameters arguments with
              | .ok binding => binding.writes .invocation
              | .error _ => []
  | _ => []

def Stmt.writes (stmt : Stmt) : List Write :=
  stmt.ownWrites context scope ++ stmt.parts.flatMap fun part => part.writes context scope

end Writes

def Variable.isConstant (scope : Scope) : Variable → Bool
  | .direct _ => false
  | .symbolic reference => (scope.entryFor? reference).any VariableEntry.isConstant

/-- What writes constants in a statement of a scope. -/
def Stmt.constantWriters (context : Context) (scope : Scope) (stmt : Stmt) : List Writer :=
  ((stmt.writes context scope).filter fun write => write.target.isConstant scope).map Write.writer

/-- What writes constants in an element, however deep the statement is nested. -/
def Element.constantWriters (context : Context) (element : Element) : List Writer :=
  (Stmt.allList element.body).flatMap
    (Stmt.constantWriters context (element.innerScope context ScopeStack.new))

def Library.constantWriters (library : Library) (context : Context) : List Writer :=
  library.elements.flatMap (Element.constantWriters context)

/-! ## Assignments -/

section Accepted

variable {context : Context} {scope : Scope}

theorem Binding.writer_of_mem_writes {writer : Direction → Writer} {binding : Binding}
    {write : Write} (member : write ∈ binding.writes writer) :
    ∃ direction, write.writer = writer direction := by
  obtain ⟨bound, -, isWrite⟩ := List.mem_filterMap.mp member
  obtain ⟨target, -, rfl⟩ := Option.map_eq_some_iff.mp isWrite
  exact ⟨_, rfl⟩

theorem Expr.writer_of_mem_writes {expr : Expr} {write : Write}
    (member : write ∈ expr.writes context scope) : ∃ direction, write.writer = .call direction := by
  unfold Expr.writes at member
  split at member
  · split at member
    · cases member
    · split at member
      · exact Binding.writer_of_mem_writes member
      · cases member
  · cases member

theorem Stmt.eq_assign_of_mem_writes {stmt : Stmt} {write : Write}
    (member : write ∈ stmt.writes context scope) (assigns : write.writer = .assignment) :
    ∃ value, stmt = .assign write.target value := by
  rcases List.mem_append.mp member with isOwn | ofPart
  · cases stmt with
    | assign target value =>
        rw [ownWrites, List.mem_singleton] at isOwn
        subst isOwn
        exact ⟨value, rfl⟩
    | forTo control first last step body =>
        rw [ownWrites, List.mem_singleton] at isOwn
        subst isOwn
        cases assigns
    | invoke block arguments =>
        rw [ownWrites] at isOwn
        split at isOwn
        · cases isOwn
        · split at isOwn
          · cases isOwn
          · split at isOwn
            · obtain ⟨direction, other⟩ := Binding.writer_of_mem_writes isOwn
              rw [assigns] at other
              cases other
            · cases isOwn
    | ifElse | select | whileDo | repeatUntil | leaveUnit | leaveLoop | pragma => cases isOwn
  · obtain ⟨part, -, inPart⟩ := List.mem_flatMap.mp ofPart
    obtain ⟨direction, other⟩ := Expr.writer_of_mem_writes inPart
    rw [assigns] at other
    cases other

theorem Stmt.assignment_not_mem_constantWriters {stmt : Stmt}
    (accepted : stmt.Accepted context scope) :
    Writer.assignment ∉ stmt.constantWriters context scope := by
  intro member
  obtain ⟨write, isWrite, assigns⟩ := List.mem_map.mp member
  obtain ⟨inStmt, isConstant⟩ := List.mem_filter.mp isWrite
  obtain ⟨value, rfl⟩ := Stmt.eq_assign_of_mem_writes inStmt assigns
  cases isTarget : write.target with
  | direct address =>
      rw [isTarget] at isConstant
      cases isConstant
  | symbolic reference =>
      rw [isTarget] at accepted isConstant
      obtain ⟨entry, found, constant⟩ := (Option.any_eq_true _ _).mp isConstant
      have notConstant := Stmt.not_constant_of_accepted_assign accepted found
      rw [constant] at notConstant
      cases notConstant

end Accepted

/-- Of all that writes constants in an accepted library, nothing is an assignment. -/
theorem Library.constants_not_assigned {library : Library} {context : Context}
    {notes : List Note} (checked : library.check context = .ok notes) :
    Writer.assignment ∉ library.constantWriters context := by
  intro member
  obtain ⟨element, isElement, inElement⟩ := List.mem_flatMap.mp member
  obtain ⟨stmt, occurs, inStmt⟩ := List.mem_flatMap.mp inElement
  have accepted := (Library.accepted_of_check checked element isElement).body
  have stmtAccepted := Stmt.accepted_allList accepted stmt occurs
  exact Stmt.assignment_not_mem_constantWriters stmtAccepted inStmt

/-- A program with a constant: a loop counts with it, and it is given to an output and to a
parameter that passes both ways, of a function and of a function block. -/
def retuning : Library where
  elements :=
    [.function
        { name := "Split", returnType := "INT"
          vars :=
            [{ VarDecl.simple "Rest" "INT" with kind := .output },
              { VarDecl.simple "Total" "INT" with kind := .inOut }]
          body := [.copy "Split" "Total", .copy "Rest" "Split"] },
      .functionBlock
        { name := "Gauge"
          vars :=
            [{ VarDecl.simple "Level" "INT" with kind := .output },
              { VarDecl.simple "Limit" "INT" with kind := .inOut }]
          body := [.copy "Level" "Limit"] },
      .program
        { name := "Main"
          vars :=
            [{ VarDecl.simple "top" "INT" with qualifier := .constant },
              VarDecl.simple "share" "INT", VarDecl.instanceOf "gauge" "Gauge"]
          body :=
            [.forTo "top" (.ofInt 1) (.ofInt 3) none
              [.assign (.named "share")
                  (.call "Split"
                    [.output false "Rest" (.named "top"), .named "Total" (.named "top")]),
                .invoke "gauge"
                  [.output false "Level" (.named "top"), .named "Limit" (.named "top")]]] }]

theorem retuning_writers : retuning.accepted?.map retuning.constantWriters =
    some [.counter, .call .output, .call .inOut, .invocation .output, .invocation .inOut] := by
  rw [Library.accepted?, Context.resolve, FunctionTable.standard_eq_grouped]
  decide +kernel

theorem Library.constants_not_assigned_retuning :
    ∃ context notes, retuning.check context = .ok notes ∧
      Writer.assignment ∉ retuning.constantWriters context := by
  obtain ⟨context, accepted, -⟩ := Option.map_eq_some_iff.mp retuning_writers
  obtain ⟨-, notes, checked⟩ := Library.of_accepted? accepted
  exact ⟨context, notes, checked, Library.constants_not_assigned checked⟩

theorem Library.constants_written :
    ∃ context notes, Context.resolve retuning = .ok context ∧
      retuning.check context = .ok notes ∧
      retuning.constantWriters context =
        [.counter, .call .output, .call .inOut, .invocation .output, .invocation .inOut] := by
  obtain ⟨context, accepted, writers⟩ := Option.map_eq_some_iff.mp retuning_writers
  obtain ⟨resolved, notes, checked⟩ := Library.of_accepted? accepted
  exact ⟨context, notes, resolved, checked, writers⟩

end StructuredText
