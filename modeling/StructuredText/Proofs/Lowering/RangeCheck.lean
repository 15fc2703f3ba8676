import StructuredText.Proofs.Lowering.Element
import StructuredText.Proofs.Lowering.Passing
import StructuredText.Tree.Build

/-!
# Range checks

What the body of a unit stores into a subrange, also through other names of its type, it
takes through the check of that subrange first, with two exceptions.  Both are in units whose
variables have names: the step of a loop counts on without a check, and a call passes a
pointer to the variable of an output, through which the function stores what it likes.
-/

set_option autoImplicit false

namespace StructuredText

/-- A value is checked just if it goes to a subrange, by the check of its name. -/
theorem Code.Expr.checked_of_subrange {type : DataType} {name : Ident} {base : Elementary}
    {lower upper : Int} (isSubrange : type.resolved = .subrange name base lower upper)
    (value : Code.Expr) : value.checked type = .call ("__CHECK_" ++ name.upper) [value] := by
  unfold checked DataType.isSubrange
  rw [isSubrange]
  rfl

theorem Code.Expr.checked_of_not_subrange {type : DataType} (isNone : type.isSubrange = false)
    (value : Code.Expr) : value.checked type = value := by
  unfold checked
  rw [isNone]
  rfl

section Unit

variable {context : Context} {library : Library} {withConversions : Bool}
  (resolved : Context.resolve library withConversions = .ok context)

include resolved

/-- Everything that the code of a unit stores, the body of the unit asks for. -/
theorem LoweredUnit.asks_of_gives {unit : LoweredUnit context library} {code : Code.Element}
    (gives : unit.Gives code) : ∀ store ∈ code.stores, unit.site.Asks unit.element.body store := by
  obtain ⟨inBody, inHelpers⟩ := Site.asks_of_lowerBody resolved unit.inContext unit.run
  intro store member
  cases gives with
  | function isDirect body =>
      rw [Code.Element.stores, body] at member
      exact inBody store member
  | unit isAccessor helpers body =>
      rw [Code.Element.stores, helpers, body] at member
      rcases List.mem_append.mp member with ofHelper | ofBody
      · obtain ⟨helper, isHelper, inHelper⟩ := List.mem_flatMap.mp ofHelper
        exact inHelpers helper isHelper store inHelper
      · exact inBody store ofBody

/-- Every store in the code of a library is in that of a unit whose body asks for it. -/
theorem Library.asks_of_lower {file : Code.File} (lowered : library.lower context = .ok file) :
    ∀ code ∈ file.elements, ∀ store ∈ code.stores, ∃ unit : LoweredUnit context library,
      unit.Gives code ∧ unit.site.Asks unit.element.body store := by
  intro code isElement store member
  rcases Library.isOfUnit_of_lower lowered code isElement with
    ⟨unit, gives⟩ | ⟨text, rfl⟩ | ⟨on, rfl⟩
  · exact ⟨unit, gives, LoweredUnit.asks_of_gives resolved gives store member⟩
  · cases member
  · cases member

end Unit

/-- Every store in the bodies and helpers of a compiled library is a transfer that the body of
its unit asks for: an assignment, a copy into or out of a function block, an output of a
call, or a value for the counter of a loop.  If the type of what is stored to is a
subrange, the value that is stored is that of the transfer after the check of the
subrange, and else it is the value itself; the step of a loop over a named variable stores
the value itself in any case.  A call takes its outputs through pointers to their variables,
or leaves the stores to a helper. -/
theorem Library.stores_range_checked {library : Library} {withConversions : Bool}
    {layout : Code.Layout} {text : String}
    (compiled : library.compile withConversions layout = .ok text) :
    ∃ context notes file, Context.resolve library withConversions = .ok context ∧
      library.check context = .ok notes ∧ library.lower context = .ok file ∧
      text = file.render layout ∧
      (∀ code ∈ file.elements, ∀ store ∈ code.stores,
        ∃ (unit : LoweredUnit context library) (transfer : Transfer), unit.Gives code ∧
          store.place = transfer.place ∧
          ((unit.site.Transfers unit.element.body transfer ∨
              unit.site.Counts unit.element.body transfer) ∧
            (∀ name base lower upper, transfer.target.resolved = .subrange name base lower upper →
              store.value = .call ("__CHECK_" ++ name.upper) [transfer.value]) ∧
            (transfer.target.isSubrange = false → store.value = transfer.value) ∨
          unit.site.Steps unit.element.body transfer ∧ store.value = transfer.value)) ∧
      ∀ call : LoweredCall context, ∃ binding,
        Binding.make call.resolution.signature.parameters call.arguments = .ok binding ∧
          call.code.PassesOut call.site call.arguments binding call.callee
            (CallSlot.ofBound call.resolution.count false binding.parameters) call.after := by
  obtain ⟨context, notes, file, resolved, checked, lowered, rendered⟩ :=
    Library.compile_ok compiled
  refine ⟨context, notes, file, resolved, checked, lowered, rendered, ?_,
    LoweredCall.passesOut resolved⟩
  intro code isElement store member
  obtain ⟨unit, gives, asks⟩ := Library.asks_of_lower resolved lowered code isElement store member
  cases asks with
  | @checked transfer isAsked =>
      refine ⟨unit, transfer, gives, rfl, .inl ⟨isAsked, ?_, ?_⟩⟩
      · intro name base lower upper isSubrange
        exact Code.Expr.checked_of_subrange isSubrange transfer.value
      · intro isNone
        exact Code.Expr.checked_of_not_subrange isNone transfer.value
  | @unchecked transfer steps => exact ⟨unit, transfer, gives, rfl, .inr ⟨steps, rfl⟩⟩

def splitting : FunctionDecl where
  name := "Split"
  returnType := "INT"
  vars :=
    [{ VarDecl.simple "Whole" "INT" with kind := .input },
      { VarDecl.simple "Rest" "INT" with kind := .output }]
  body := [.copy "Rest" "Whole"]

def levelling : Expr :=
  .call "Split" [.named "Whole" (.ofInt 99), .output false "Rest" (.named "low")]

/-- A program that stores to a subrange by an assignment, by the output of a call, by an
invocation and by a loop. -/
def levels : Library where
  elements :=
    [.type (.subrange "Level" .int { start := .ofInt 0, stop := .ofInt 9 }),
      .type (.synonym "Depth" "Level"), .function splitting,
      .functionBlock
        { name := "Gauge"
          vars := [{ VarDecl.simple "Low" "Depth" with kind := .inOut }]
          body := [.assign (.named "Low") (.ofInt 99)] },
      .program
        { name := "Main"
          vars :=
            [VarDecl.simple "low" "Depth", VarDecl.simple "all" "INT",
              VarDecl.instanceOf "gauge" "Gauge"]
          body :=
            [.assign (.named "all") levelling, .copy "low" "all",
              .invokeNamed "gauge" [("Low", "low")],
              .forTo "low" (.named "all") (.ofInt 9) none []] }]

theorem levels_compiles : (levels.compile false {}).isOk = true := by
  rw [Library.compile, Context.resolve, FunctionTable.standard_eq_grouped]
  decide +kernel

theorem Library.stores_range_checked_levels :
    ∃ text context file, levels.compile false {} = .ok text ∧
      levels.lower context = .ok file ∧ text = file.render {} ∧
      ∀ code ∈ file.elements, ∀ store ∈ code.stores,
        ∃ (unit : LoweredUnit context levels) (transfer : Transfer), unit.Gives code ∧
          store.place = transfer.place ∧
          ((∀ name base lower upper, transfer.target.resolved = .subrange name base lower upper →
              store.value = .call ("__CHECK_" ++ name.upper) [transfer.value]) ∨
            unit.site.Steps unit.element.body transfer) := by
  obtain ⟨text, compiled⟩ := exists_ok_of_isOk levels_compiles
  obtain ⟨context, notes, file, -, -, lowered, rendered, allChecked, -⟩ :=
    Library.stores_range_checked compiled
  refine ⟨text, context, file, compiled, lowered, rendered, ?_⟩
  intro code isElement store member
  obtain ⟨unit, transfer, gives, place, stored⟩ := allChecked code isElement store member
  exact ⟨unit, transfer, gives, place, stored.imp (fun isAsked => isAsked.2.1) And.left⟩

def leaking : Library where
  elements :=
    [.type (.subrange "Level" .int { start := .ofInt 0, stop := .ofInt 9 }),
      .function splitting,
      .function
        { name := "Fill", returnType := "INT", vars := [VarDecl.simple "low" "Level"]
          body :=
            [.assign (.named "Fill") levelling,
              .forTo "low" (.ofInt 0) (.ofInt 9) none []] }]

theorem leaking_written : (leaking.accepted?.bind fun context => do
    let file ← (leaking.lower context).toOption
    let pieces := Code.Piece.visible true (file.print {})
    return pieces.contains (.text "LEVEL LOW = 0;\n") && pieces.contains (.text "&(LOW") &&
      pieces.contains (.text "*__REST = REST;\n") && pieces.contains (.text "++") &&
      pieces.count (.text "__CHECK_LEVEL(") == 1) = some true := by
  rw [Library.accepted?, Context.resolve, FunctionTable.standard_eq_grouped]
  decide +kernel

/-- The called function writes to a subrange through a pointer, the loop counts on with it, and
the one check is that of the first value of the loop. -/
theorem Library.subrange_unchecked :
    ∃ context notes file pieces, Context.resolve leaking = .ok context ∧
      leaking.check context = .ok notes ∧ leaking.lower context = .ok file ∧
      pieces = Code.Piece.visible true (file.print {}) ∧
      .text "LEVEL LOW = 0;\n" ∈ pieces ∧ .text "&(LOW" ∈ pieces ∧
      .text "*__REST = REST;\n" ∈ pieces ∧ .text "++" ∈ pieces ∧
      pieces.count (.text "__CHECK_LEVEL(") = 1 := by
  obtain ⟨context, accepted, found⟩ := Option.bind_eq_some_iff.mp leaking_written
  obtain ⟨resolved, notes, checked⟩ := Library.of_accepted? accepted
  obtain ⟨file, isFile, found⟩ := Option.bind_eq_some_iff.mp found
  simp only [Option.pure_def, Option.some.injEq, Bool.and_eq_true, List.contains_eq_mem,
    decide_eq_true_eq, beq_iff_eq] at found
  obtain ⟨⟨⟨⟨isLevel, isPointer⟩, isWritten⟩, isStep⟩, once⟩ := found
  exact ⟨context, notes, file, _, resolved, checked, eq_ok_of_toOption isFile, rfl, isLevel,
    isPointer, isWritten, isStep, once⟩

end StructuredText
