import StructuredText.Compile
import StructuredText.Proofs.Lowering.Origin

/-!
# Where the output stays on

Only a directive of the program switches the output off.  So all of the code of
statements without such a directive is written, from where the output is on.
-/

set_option autoImplicit false

namespace StructuredText

theorem Site.Stems.switch_not_mem {site : Site} {stmts : List Stmt} {before after : LoweringState}
    {codes : List Code.Stmt} (stems : Site.Stems site stmts before after codes)
    (neverOff : .pragma .disable ∉ stmts) : .switch false ∉ codes := by
  intro isOff
  obtain ⟨stmt, isStmt, lowers⟩ := stems.code _ isOff
  cases Stmt.emits_of_lowersTo lowers with
  | disable => exact neverOff isStmt

theorem Site.Stems.switchOn_not_mem {site : Site} {stmts : List Stmt}
    {before after : LoweringState} {codes : List Code.Stmt}
    (stems : Site.Stems site stmts before after codes) (neverOn : .pragma .enable ∉ stmts) :
    .switch true ∉ codes := by
  intro isOn
  obtain ⟨stmt, isStmt, lowers⟩ := stems.code _ isOn
  cases Stmt.emits_of_lowersTo lowers with
  | enable => exact neverOn isStmt

theorem Stmt.switch_not_mem_of_lower {site : Site} (stmt : Stmt) {depth : Nat}
    {around : List Breakable} {state after : LoweringState} {code : Code.Stmt}
    (run : stmt.lower site depth around state = .ok (code, after))
    (neverOff : .pragma .disable ∉ stmt.all) : .switch false ∉ code.all :=
  (Stmt.stems_of_lower stmt (List.Subset.refl _) run).switch_not_mem neverOff

/-- The body of a unit without a directive that switches the output off. -/
theorem Site.visible_of_lowerBody {site : Site} {isOn : Bool} {body : List Stmt}
    {lowered : LoweredBody} (neverOff : .pragma .disable ∉ Stmt.allList body)
    (run : site.lowerBody isOn body = .ok lowered) :
    Code.Piece.visible true (Code.Stmt.printList 1 lowered.body) =
      (Code.Stmt.printList 1 lowered.body).filter fun piece => !piece.isSwitch := by
  obtain ⟨⟨code, after⟩, bodyRun, run⟩ := bind_eq_ok run
  cases run
  have stems := Stmt.stems_of_lowerList body (List.Subset.refl _) bodyRun
  exact Code.Stmt.visible_printList (stems.switch_not_mem neverOff) 1

/-- The pieces of the text that are written for a library, in a context without standard
functions. -/
def Library.written? (library : Library) : Option (List Code.Piece) := do
  let types ← (TypeTable.build TypeTable.elementary library.typeDecls).toOption
  let functions ← (FunctionTable.build {} types library).toOption
  let context := Context.make types functions library
  let _ ← (library.check context).toOption
  let file ← (library.lower context).toOption
  return Code.Piece.visible true (file.print {})

end StructuredText
