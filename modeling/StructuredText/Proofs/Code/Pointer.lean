import StructuredText.Proofs.Code.Visible

/-!
# Pointers in the definition of a function

A parameter of a function that passes values out is a pointer.  The definition goes
through it at the start, where a variable takes over what it points to, in the block that
heeds the implicit input, and at the end, where the variables are copied back.  The
statements of the body go through pointers too: those to places of the hardware.  So a
definition is laid out as clauses that tell which pointers they go through, and whether
there is a test ahead that the pointer points somewhere.
-/

set_option autoImplicit false

namespace StructuredText.Code

/-! ## Pointers in statements -/

mutual

def Expr.derefs : Expr → List String
  | .atom _ => []
  | .paren inner => inner.derefs
  | .unary _ term => term.derefs
  | .binary _ left right => left.derefs ++ right.derefs
  | .choose condition yes no => condition.derefs ++ yes.derefs ++ no.derefs
  | .next value step => value.derefs ++ step.derefs
  | .cast _ value => value.derefs
  | .call _ arguments => Expr.derefsList arguments
  | .callLines _ arguments => Expr.derefsList arguments
  | .load place => place.derefs false
  | .pointer place => place.derefs true

def Expr.derefsList : List Expr → List String
  | [] => []
  | expr :: exprs => expr.derefs ++ Expr.derefsList exprs

/-- The pointers on the way to the value of a place, or to a pointer to it. -/
def Place.derefs (byPointer : Bool) : Place → List String
  | .pin name => if byPointer then [] else [name]
  | .named _ path => path.derefs
  | .member .. => []
  | .part _ _ _ path => path.derefs

def Path.derefs : Path → List String
  | .here => []
  | .field record _ => record.derefs
  | .cell array subscripts => array.derefs ++ Subscript.derefsList subscripts

def Subscript.derefsList : List Subscript → List String
  | [] => []
  | .mk value _ :: rest => value.derefs ++ Subscript.derefsList rest

end

def Store.derefs (store : Store) : List String := store.place.derefs false ++ store.value.derefs

def Step.derefs : Step → List String
  | .one => []
  | .upward step => step.derefs
  | .either step => step.derefs

def Branch.condition : Branch → Expr
  | .mk condition _ => condition

/-- The pointers that a statement goes through itself, apart from the statements in it.  Text
of the program is left to the program. -/
def Stmt.derefs : Stmt → List String
  | .store kept => kept.derefs
  | .invoke before run after =>
      before.flatMap Store.derefs ++ run.derefs ++ after.flatMap Store.derefs
  | .ifElse condition _ elseIfs _ =>
      condition.derefs ++ elseIfs.flatMap fun branch => branch.condition.derefs
  | .select _ selector _ _ _ => selector.derefs
  | .forLoop control first last step _ _ =>
      control.derefs false ++ first.derefs ++ last.derefs ++ step.derefs
  | .countLoop control first last step next _ _ =>
      control.derefs false ++ first.derefs ++ last.derefs ++ step.derefs ++ next.derefs
  | .whileLoop condition _ _ => condition.derefs
  | .untilLoop _ condition _ => condition.derefs
  | .leaveUnit | .leaveLoop | .jumpOut _ | .code _ | .accessorCode _ | .switch _ => []

def Stmt.derefsList (stmts : List Stmt) : List String := (Stmt.allList stmts).flatMap Stmt.derefs

/-! ## Clauses -/

def pointerOf (name : String) : String := "__" ++ name

inductive Access where
  /-- Where a variable starts. -/
  | start (pointer : String)
  /-- In a statement of the program. -/
  | body (pointer : String)
  /-- Behind the test that a pointer points somewhere. -/
  | tested (test pointer : String)
deriving DecidableEq

def Access.pointer : Access → String
  | start pointer | body pointer | tested _ pointer => pointer

def Access.isGuarded : Access → Bool
  | start _ | body _ => false
  | tested test pointer => test == pointer

/-- A part of the definition of a function. -/
inductive Clause where
  /-- Text without a pointer in it. -/
  | plain (pieces : List Piece)
  /-- The declaration of a variable that starts with what a pointer points to. -/
  | copied (type name pointer : String)
  | body (stmts : List Stmt)
  /-- A store through a pointer if a pointer points somewhere. -/
  | tested (depth : Nat) (test pointer value : String)

namespace Clause

def print : Clause → List Piece
  | plain pieces => pieces
  | copied type name pointer =>
      Piece.textLine 1 (type ++ " " ++ name ++ " = *" ++ pointer ++ ";")
  | body stmts => Stmt.printList 1 stmts
  | tested depth test pointer value =>
      Piece.textLine depth ("if (" ++ test ++ " != NULL) \x7b") ++
        Piece.textLine (depth + 1) ("*" ++ pointer ++ " = " ++ value ++ ";") ++
        Piece.textLine depth "\x7d"

def accesses : Clause → List Access
  | plain _ => []
  | copied _ _ pointer => [.start pointer]
  | body stmts => (Stmt.derefsList stmts).map .body
  | tested _ test pointer _ => [.tested test pointer]

@[simp] theorem accesses_plain (pieces : List Piece) : (plain pieces).accesses = [] := rfl

@[simp] theorem accesses_body (stmts : List Stmt) :
    (body stmts).accesses = (Stmt.derefsList stmts).map .body := rfl

@[simp] theorem accesses_tested (depth : Nat) (test pointer value : String) :
    (tested depth test pointer value).accesses = [.tested test pointer] := rfl

end Clause

def Local.clause : Local → Clause
  | .copied type name => .copied type name (pointerOf name)
  | .cleared type name => .plain (Piece.textLine 1 (Local.cleared type name).print)
  | .initialized type name value =>
      .plain (Piece.textLine 1 (Local.initialized type name value).print)

def Clause.copyBack (name : String) : Clause := .tested 1 (pointerOf name) (pointerOf name) name

namespace FunctionDef

/-- The clauses of a definition in the order of its text. -/
def clauses (definition : FunctionDef) : List Clause :=
  Clause.plain
      ([Piece.text (definition.returnType ++ " " ++ definition.name ++ "(" ++
        ", ".intercalate (definition.formals.map Formal.print) ++ ")\n\x7b\n")] ++
        Piece.textLine 1 "BOOL ENO = __BOOL_LITERAL(TRUE);") ::
    definition.locals.map Local.clause ++
  [Clause.plain
      (Piece.textLine 1
          (definition.returnType ++ " " ++ definition.unit ++ " = " ++ definition.resultValue ++
            ";\n") ++
        Piece.textLine 1 "// Control execution" ++ Piece.textLine 1 "if (!EN) \x7b"),
    .tested 2 (pointerOf "ENO") (pointerOf "ENO") "__BOOL_LITERAL(FALSE)",
    .plain
      (Piece.textLine 2 ("return " ++ definition.unit ++ ";") ++ Piece.textLine 1 "\x7d\n"),
    .body definition.body, .plain [Piece.text "\n__end:\n"]] ++
  (definition.formals.filter Formal.byPointer).map (fun formal => .copyBack formal.name) ++
  [Clause.plain
    (Piece.textLine 1 ("return " ++ definition.unit ++ ";") ++ [Piece.text "\x7d\n\n"])]

def accesses (definition : FunctionDef) : List Access :=
  definition.clauses.flatMap Clause.accesses

end FunctionDef

/-! ## The text of the clauses -/

theorem append_pointerOf (text name : String) : text ++ pointerOf name = text ++ "__" ++ name := by
  rw [pointerOf, String.append_assoc]

theorem Local.print_clause (entry : Local) :
    entry.clause.print = Piece.textLine 1 entry.print := by
  cases entry with
  | copied type name =>
      have star : type ++ " " ++ name ++ " = *" ++ "__" = type ++ " " ++ name ++ " = *__" := by
        rw [String.append_assoc]
        rfl
      rw [Local.clause, Clause.print, append_pointerOf, star]
      rfl
  | cleared type name => rfl
  | initialized type name value => rfl

theorem Formal.print_copyBack {formal : Formal} (byPointer : formal.byPointer = true) :
    (Clause.copyBack formal.name).print = formal.printCopyBack := by
  rw [Clause.copyBack, Clause.print, append_pointerOf, append_pointerOf, Formal.printCopyBack,
    if_pos byPointer]
  rfl

theorem Local.flatMap_print_clause (locals : List Local) :
    (locals.map Local.clause).flatMap Clause.print =
      locals.flatMap fun entry => Piece.textLine 1 entry.print := by
  rw [List.flatMap_map]
  simp only [Local.print_clause]

theorem Formal.flatMap_print_copyBack (formals : List Formal) :
    ((formals.filter Formal.byPointer).map fun formal => Clause.copyBack formal.name).flatMap
        Clause.print =
      formals.flatMap Formal.printCopyBack := by
  induction formals with
  | nil => rfl
  | cons formal formals ih =>
      rw [List.flatMap_cons, ← ih]
      cases byPointer : formal.byPointer with
      | false =>
          rw [List.filter_cons_of_neg (by simp [byPointer]), Formal.printCopyBack, byPointer]
          rfl
      | true =>
          rw [List.filter_cons_of_pos byPointer, List.map_cons, List.flatMap_cons,
            Formal.print_copyBack byPointer]

/-- The text of a definition is that of its clauses, behind the comment that names it. -/
theorem FunctionDef.print_eq_clauses (layout : Layout) (definition : FunctionDef) :
    definition.print layout =
      unitComment layout "FUNCTION" definition.unit ++
        definition.clauses.flatMap Clause.print := by
  simp only [FunctionDef.print, FunctionDef.clauses, List.flatMap_append, List.flatMap_cons,
    List.flatMap_nil, Local.flatMap_print_clause, Formal.flatMap_print_copyBack, Clause.print,
    List.append_assoc, List.append_nil, List.cons_append, List.nil_append]
  rfl

/-! ## Where a definition goes through pointers -/

theorem Local.accesses_clause (entry : Local) {access : Access}
    (member : access ∈ entry.clause.accesses) :
    ∃ type name, entry = .copied type name ∧ access = .start (pointerOf name) := by
  cases entry with
  | copied type name => exact ⟨type, name, rfl, List.mem_singleton.mp member⟩
  | cleared type name => cases member
  | initialized type name value => cases member

/-- The text around the locals, the control block, the body and the copies back has no
pointer in it. -/
theorem FunctionDef.accesses_eq (definition : FunctionDef) :
    definition.accesses =
      definition.locals.flatMap (fun entry => entry.clause.accesses) ++
        Access.tested (pointerOf "ENO") (pointerOf "ENO") ::
          ((Stmt.derefsList definition.body).map .body ++
            (definition.formals.filter Formal.byPointer).map fun formal =>
              .tested (pointerOf formal.name) (pointerOf formal.name)) := by
  have copiesBack : ((definition.formals.filter Formal.byPointer).map fun formal =>
      Clause.copyBack formal.name).flatMap Clause.accesses =
        (definition.formals.filter Formal.byPointer).map fun formal =>
          .tested (pointerOf formal.name) (pointerOf formal.name) := by
    rw [List.flatMap_map, List.map_eq_flatMap]
    rfl
  simp [accesses, clauses, copiesBack, List.flatMap_map]

/-- A definition goes through a pointer that has not been tested only where a variable starts
and in the statements of the program. -/
theorem FunctionDef.mem_accesses {definition : FunctionDef} {access : Access}
    (member : access ∈ definition.accesses) :
    access.isGuarded = true ∨
      (∃ type name, .copied type name ∈ definition.locals ∧ access = .start (pointerOf name)) ∨
      ∃ pointer ∈ Stmt.derefsList definition.body, access = .body pointer := by
  rw [accesses_eq] at member
  rcases List.mem_append.mp member with atStart | member
  · obtain ⟨entry, isLocal, isAccess⟩ := List.mem_flatMap.mp atStart
    obtain ⟨type, name, rfl, isStart⟩ := entry.accesses_clause isAccess
    exact .inr (.inl ⟨type, name, isLocal, isStart⟩)
  rcases List.mem_cons.mp member with rfl | member
  · exact .inl (beq_self_eq_true _)
  rcases List.mem_append.mp member with inBody | copiedBack
  · obtain ⟨pointer, isDeref, rfl⟩ := List.mem_map.mp inBody
    exact .inr (.inr ⟨pointer, isDeref, rfl⟩)
  · obtain ⟨formal, -, rfl⟩ := List.mem_map.mp copiedBack
    exact .inl (beq_self_eq_true _)

end StructuredText.Code
