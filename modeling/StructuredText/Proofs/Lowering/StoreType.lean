import StructuredText.Proofs.Analysis.Assignable
import StructuredText.Proofs.Lowering.RangeCheck

/-!
# Types of what is stored

What the code of an accepted library stores has a type that the destination accepts, be it
assigned, copied into a function block or out of it, or given out by a call; and every
call passes in what its parameters accept.  The counter of a loop is the exception:
analysis asks that it counts whole numbers, and compares it with no other type.
-/

set_option autoImplicit false

namespace StructuredText

section Accepted

variable {context : Context} {library : Library} {withConversions : Bool}
  (resolved : Context.resolve library withConversions = .ok context) {site : Site}
  (inContext : site.context = context) {body : List Stmt}
  (accepted : Stmt.ListAccepted context site.scope body) {transfer : Transfer}

include resolved accepted

/-- Every call in an accepted body has a meaning, and what it gives for the parameters of the
function can be stored, by value and through pointers alike. -/
theorem Site.calls_assignable (storable : site.scope.IsStorable) {function : Ident}
    {arguments : List Argument} (occurs : .call function arguments ∈ Stmt.partsList body) :
    ∃ resolution binding,
      CallResolution.of? context site.scope function arguments = some resolution ∧
        Binding.make resolution.signature.parameters arguments = .ok binding ∧
        ∀ bound ∈ binding.parameters, bound.Assignable context site.scope := by
  obtain ⟨resolution, meaning⟩ :=
    (Stmt.accepted_partsList accepted _ occurs).resolution
  obtain ⟨-, -, -, -, binding, made, -⟩ := CallResolution.of?_eq_some meaning
  exact ⟨resolution, binding, meaning, made,
    CallResolution.assignable resolved storable meaning made⟩

include inContext

/-- What an accepted invocation gives for the parameters of the function block can be stored,
as lowering finds them. -/
theorem Site.assignable_of_invoke (storable : site.scope.IsStorable) {block : Ident}
    {arguments : List Argument} {signature : BlockSignature} {binding : Binding}
    (occurs : .invoke block arguments ∈ Stmt.allList body)
    (found : site.blockSignature? block = some signature)
    (made : Binding.make signature.parameters arguments = .ok binding) :
    ∀ bound ∈ binding.parameters, bound.Assignable context site.scope := by
  have invokeAccepted := Stmt.accepted_allList accepted _ occurs
  unfold Site.blockSignature? at found
  split at found
  · next type isInstance =>
      rw [inContext] at found
      exact Stmt.assignable_of_accepted_invoke resolved storable invokeAccepted isInstance
        found made
  · cases found

/-- What the statements of an accepted body transfer, other than to counters, has a type that
the destination accepts. -/
theorem Site.Transfers.accepts (storable : site.scope.IsStorable)
    (transfers : site.Transfers body transfer) :
    ∃ type, transfer.source = some type ∧ transfer.target.accepts type = true := by
  cases transfers with
  | assign occurs typed placed valued =>
      obtain ⟨targetType, valueType, targetTyped, valueTyped, accepts⟩ :=
        Stmt.accepts_of_accepted_assign (Stmt.accepted_allList accepted _ occurs)
      rw [inContext, targetTyped] at typed
      cases typed
      rw [inContext]
      exact ⟨valueType, valueTyped, accepts⟩
  | copyIn occurs found made isBound isValue valued =>
      have assignable :=
        Site.assignable_of_invoke resolved inContext accepted storable occurs found made
      rw [inContext]
      exact (assignable _ isBound).value _ isValue
  | copyOut occurs found made isBound isTarget typed placed =>
      have assignable :=
        Site.assignable_of_invoke resolved inContext accepted storable occurs found made
      obtain ⟨type, targetTyped, accepts⟩ := (assignable _ isBound).target _ isTarget
      rw [inContext, targetTyped] at typed
      cases typed
      exact ⟨_, rfl, accepts⟩
  | result occurs meaning made isBound isTarget typed placed =>
      rw [inContext] at meaning
      have assignable := CallResolution.assignable resolved storable meaning made
      obtain ⟨type, targetTyped, accepts⟩ := (assignable _ isBound).target _ isTarget
      rw [inContext, targetTyped] at typed
      cases typed
      exact ⟨_, rfl, accepts⟩

omit resolved

theorem Site.Counts.isInteger (counts : site.Counts body transfer) :
    transfer.target.isInteger = true := by
  subst inContext
  cases counts with
  | start occurs typed =>
      exact Stmt.isInteger_of_accepted_forTo (Stmt.accepted_allList accepted _ occurs) typed
  | advance isAccessor occurs typed =>
      exact Stmt.isInteger_of_accepted_forTo (Stmt.accepted_allList accepted _ occurs) typed

theorem Site.Steps.isInteger (steps : site.Steps body transfer) :
    transfer.target.isInteger = true := by
  subst inContext
  obtain ⟨isDirect, occurs, typed, placed, steps⟩ := steps
  exact Stmt.isInteger_of_accepted_forTo (Stmt.accepted_allList accepted _ occurs) typed

end Accepted

theorem LoweredUnit.accepted {context : Context} {library : Library} {withConversions : Bool}
    {notes : List Note} (userCode : library.IsUserCode)
    (resolved : Context.resolve library withConversions = .ok context)
    (checked : library.check context = .ok notes) (unit : LoweredUnit context library) :
    unit.site.scope.IsStorable ∧
      Stmt.ListAccepted context unit.site.scope unit.element.body := by
  have isElement : unit.element ∈ library.elements := by
    rw [unit.position]
    exact List.mem_append_right _ (List.mem_cons_self ..)
  have accepted := Library.accepted_of_check checked unit.element isElement
  have rebuilt := Element.rebuiltScope_of_accepted userCode resolved unit.position accepted
  rw [unit.inScope] at rebuilt
  rw [Except.ok.inj rebuilt]
  exact ⟨Element.isStorable_innerScope resolved unit.element, accepted.body⟩

/-- Every store in the bodies and helpers of an accepted library is a transfer that the body
of its unit asks for, and what is stored has a type that the destination accepts, unless
the store is to the counter of a loop: the counter is a whole number, whatever is stored
to it.  And every call in a body, wherever it stands, passes its parameters values that
they accept, and variables that accept the parameters. -/
theorem Library.stores_assignable {context : Context} {library : Library}
    {withConversions : Bool} {notes : List Note} {file : Code.File}
    (resolved : Context.resolve library withConversions = .ok context)
    (checked : library.check context = .ok notes) (lowered : library.lower context = .ok file) :
    (∀ code ∈ file.elements, ∀ store ∈ code.stores,
      ∃ (unit : LoweredUnit context library) (transfer : Transfer), unit.Gives code ∧
        (store = transfer.store ∧
            (unit.site.Transfers unit.element.body transfer ∧
                (∃ type, transfer.source = some type ∧ transfer.target.accepts type = true) ∨
              unit.site.Counts unit.element.body transfer ∧ transfer.target.isInteger = true) ∨
          store = transfer.uncheckedStore ∧ unit.site.Steps unit.element.body transfer ∧
            transfer.target.isInteger = true)) ∧
      ∀ (unit : LoweredUnit context library) (function : Ident) (arguments : List Argument),
        .call function arguments ∈ Stmt.partsList unit.element.body →
        ∃ resolution binding,
          CallResolution.of? context unit.site.scope function arguments = some resolution ∧
            Binding.make resolution.signature.parameters arguments = .ok binding ∧
            ∀ bound ∈ binding.parameters, bound.Assignable context unit.site.scope := by
  have userCode := Library.isUserCode_of_lower resolved lowered
  constructor
  · intro code isElement store member
    obtain ⟨unit, gives, asks⟩ :=
      Library.asks_of_lower resolved lowered code isElement store member
    obtain ⟨storable, accepted⟩ := unit.accepted userCode resolved checked
    cases asks with
    | @checked transfer isAsked =>
        refine ⟨unit, transfer, gives, .inl ⟨rfl, isAsked.imp ?_ ?_⟩⟩
        · intro transfers
          exact ⟨transfers, transfers.accepts resolved unit.inContext accepted storable⟩
        · intro counts
          exact ⟨counts, counts.isInteger unit.inContext accepted⟩
    | @unchecked transfer steps =>
        exact ⟨unit, transfer, gives,
          .inr ⟨rfl, steps, steps.isInteger unit.inContext accepted⟩⟩
  · intro unit function arguments occurs
    obtain ⟨storable, accepted⟩ := unit.accepted userCode resolved checked
    exact Site.calls_assignable resolved accepted storable occurs

theorem Library.stores_assignable_levels :
    ∃ context notes file, Context.resolve levels false = .ok context ∧
      levels.check context = .ok notes ∧ levels.lower context = .ok file ∧
      ∀ code ∈ file.elements, ∀ store ∈ code.stores,
        ∃ (unit : LoweredUnit context levels) (transfer : Transfer), unit.Gives code ∧
          (store = transfer.store ∧
              (unit.site.Transfers unit.element.body transfer ∧
                  (∃ type, transfer.source = some type ∧ transfer.target.accepts type = true) ∨
                unit.site.Counts unit.element.body transfer ∧
                  transfer.target.isInteger = true) ∨
            store = transfer.uncheckedStore ∧ unit.site.Steps unit.element.body transfer ∧
              transfer.target.isInteger = true) := by
  obtain ⟨text, compiled⟩ := exists_ok_of_isOk levels_compiles
  obtain ⟨context, notes, file, resolved, checked, lowered, -⟩ := Library.compile_ok compiled
  have typed := Library.stores_assignable resolved checked lowered
  exact ⟨context, notes, file, resolved, checked, lowered, typed.1⟩

def miscounting : Library where
  elements :=
    [.program
        { name := "Main"
          vars := [VarDecl.simple "i" "INT"]
          body := [.forTo "i" (.const (.boolean true)) (.ofInt 3) none []] }]

def miscountScope (context : Context) : Scope :=
  Element.innerScope context ScopeStack.new miscounting.elements[0]

def miscountStart : List Code.Piece :=
  [.text "__SET_VAR(data__->,I,", .text "__BOOL_LITERAL(TRUE)", .text ")"]

theorem miscounting_types : (miscounting.accepted?.bind fun context => do
    let target ← (context.variableType (miscountScope context) (.named "i")).toOption
    let source ← (Expr.const (.boolean true)).type? context (miscountScope context)
    let file ← (miscounting.lower context).toOption
    let stores := file.elements.flatMap Code.Element.stores
    return (target.accepts source, (stores.map (Code.Store.print 0)).contains miscountStart)) =
      some (false, true) := by
  decide +kernel

/-- The code of an accepted library may store to a counter what the type of the counter does
not accept. -/
theorem Library.counter_takes_truth :
    ∃ context notes file target source, Context.resolve miscounting = .ok context ∧
      miscounting.check context = .ok notes ∧ miscounting.lower context = .ok file ∧
      context.variableType (miscountScope context) (.named "i") = .ok target ∧
      (Expr.const (.boolean true)).type? context (miscountScope context) = some source ∧
      target.accepts source = false ∧
      ∃ store ∈ file.elements.flatMap Code.Element.stores, store.print 0 = miscountStart := by
  obtain ⟨context, accepted, found⟩ := Option.bind_eq_some_iff.mp miscounting_types
  obtain ⟨resolved, notes, checked⟩ := Library.of_accepted? accepted
  obtain ⟨target, isTarget, found⟩ := Option.bind_eq_some_iff.mp found
  obtain ⟨source, isSource, found⟩ := Option.bind_eq_some_iff.mp found
  obtain ⟨file, isFile, found⟩ := Option.bind_eq_some_iff.mp found
  simp only [Option.pure_def, Option.some.injEq, Prod.mk.injEq, List.contains_eq_mem,
    decide_eq_true_eq, List.mem_map] at found
  exact ⟨context, notes, file, target, source, resolved, checked, eq_ok_of_toOption isFile,
    eq_ok_of_toOption isTarget, isSource, found.1, found.2⟩

end StructuredText
