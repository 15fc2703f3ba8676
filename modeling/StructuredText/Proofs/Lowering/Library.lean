import StructuredText.Proofs.Analysis.Resolved
import StructuredText.Proofs.Lowering.Body
import StructuredText.Proofs.Scope.Unit
import StructuredText.Tree.Build

/-!
# What stops the generation of code

A library that was resolved and checked has generated code, or it meets one of the
limits of generated code.  In particular nothing that lowering looks up is missing.
-/

set_option autoImplicit false

namespace StructuredText

variable {context : Context} {decls : List TypeDecl}

/-! ## Declarations of variables -/

namespace VarDecl

theorem statedValue_failsOnly (decl : VarDecl) (type : DataType) :
    FailsOnly (Fault.IsLimit decls) (decl.statedValue type) := by
  unfold statedValue
  split
  · exact failsOnly_map (Code.Literal.constant_failsOnly _)
  · exact failsOnly_map (Code.Literal.string_failsOnly _)
  · exact failsOnly_ok _
  · exact failsOnly_ok _

theorem initialValue_failsOnly (decl : VarDecl) {type : DataType}
    (declared : type.IsDeclaredIn decls) :
    FailsOnly (Fault.IsLimit decls) (decl.initialValue type) := by
  refine failsOnly_bind (statedValue_failsOnly decl type) fun stated _ => ?_
  cases stated with
  | some value => exact failsOnly_ok _
  | none => exact Code.Literal.initial_failsOnly declared

variable (typesDeclared : context.types.AllDeclaredIn decls)

include typesDeclared

theorem lowerLocal_failsOnly {decl : VarDecl}
    (typed : ∀ name, decl.name.ident? = some name → ∃ type, context.typeOf decl = .ok type) :
    FailsOnly (Fault.IsLimit decls) (decl.lowerLocal context) := by
  unfold lowerLocal
  split
  · exact failsOnly_ok _
  · next name named =>
      obtain ⟨type, hasType⟩ := typed name named
      have declared : type.IsDeclaredIn decls := typesDeclared.varDecl hasType
      rw [hasType, ok_bind]
      cases decl.kind with
      | input | external | global | inOut => exact failsOnly_ok _
      | output | var | temp =>
          dsimp only
          split
          · exact failsOnly_ok _
          · refine failsOnly_bind (initialValue_failsOnly decl declared) fun _ _ => ?_
            exact failsOnly_ok _

theorem lowerLocals_failsOnly {vars : List VarDecl}
    (typed : ∀ decl ∈ vars, ∀ name, decl.name.ident? = some name →
      ∃ type, context.typeOf decl = .ok type) :
    FailsOnly (Fault.IsLimit decls) (lowerLocals context vars) := by
  induction vars with
  | nil => exact failsOnly_ok _
  | cons decl vars ih =>
      rw [lowerLocals]
      refine failsOnly_bind ?_ fun entry _ => failsOnly_bind (ih ?_) fun _ _ => failsOnly_ok _
      · exact lowerLocal_failsOnly typesDeclared (typed decl (List.mem_cons_self ..))
      · exact fun other member => typed other (List.mem_cons_of_mem _ member)

theorem lowerMember_failsOnly {decl : VarDecl} {type : DataType}
    (typed : context.typeOf decl = .ok type) (name : String) :
    FailsOnly (Fault.IsLimit decls) (decl.lowerMember context name) := by
  have declared : type.IsDeclaredIn decls := typesDeclared.varDecl typed
  unfold lowerMember
  rw [typed, ok_bind]
  dsimp only
  split
  · exact failsOnly_bind (statedValue_failsOnly decl type) fun _ _ => failsOnly_ok _
  · exact failsOnly_ok _
  · split
    · exact failsOnly_ok _
    · split
      · exact failsOnly_ok _
      · exact failsOnly_bind (initialValue_failsOnly decl declared) fun _ _ => failsOnly_ok _

theorem lowerSlots_failsOnly {vars : List VarDecl}
    (typed : ∀ decl ∈ vars, ∀ name, decl.name.ident? = some name →
      ∃ type, context.typeOf decl = .ok type) :
    FailsOnly (Fault.IsLimit decls) (lowerSlots context vars) := by
  induction vars with
  | nil => exact failsOnly_ok _
  | cons decl vars ih =>
      have rest := ih fun other member => typed other (List.mem_cons_of_mem _ member)
      rw [lowerSlots]
      split
      · exact rest
      · next name named =>
          obtain ⟨type, hasType⟩ := typed decl (List.mem_cons_self ..) name named
          refine failsOnly_bind (lowerMember_failsOnly typesDeclared hasType _) fun member _ => ?_
          exact failsOnly_bind rest fun _ _ => failsOnly_ok _

end VarDecl

/-! ## Units -/

theorem Parameter.formal_failsOnly (parameter : Parameter) :
    FailsOnly (Fault.IsLimit decls) parameter.formal := by
  unfold Parameter.formal
  split
  · exact failsOnly_ok _
  · exact failsOnly_ok _
  · exact failsOnly_ok _
  · exact failsOnly_error (.notImplemented _)

section Unit

variable (typesDeclared : context.types.AllDeclaredIn decls)
  (parametersDeclared : context.ParametersDeclaredIn decls)

include typesDeclared parametersDeclared

theorem FunctionDecl.lower_failsOnly {isOn : Bool} {decl : FunctionDecl}
    {signature : FunctionSignature}
    (made : decl.signature context.types context.blocks = .ok signature)
    (accepted : Element.Accepted context (.function decl)) :
    FailsOnly (Fault.IsLimit decls) (decl.lower context isOn signature) := by
  obtain ⟨-, -, typed, -⟩ := FunctionDecl.signature_ok made
  unfold FunctionDecl.lower
  rw [FunctionDecl.unitScope_of_accepted typed accepted, ok_bind]
  refine failsOnly_bind ?_ fun formals _ => ?_
  · exact failsOnly_mapM fun parameter _ => Parameter.formal_failsOnly parameter
  refine failsOnly_bind ?_ fun locals _ => ?_
  · apply VarDecl.lowerLocals_failsOnly typesDeclared
    exact Scope.typeOf_of_declare accepted.declarations
  refine failsOnly_bind ?_ fun resultValue _ => ?_
  · exact Code.Literal.initial_failsOnly (typesDeclared.type? typed)
  refine failsOnly_bind ?_ fun lowered _ => failsOnly_ok _
  exact Site.lowerBody_failsOnly parametersDeclared accepted.body

theorem lowerUnit_failsOnly {isOn : Bool} {kind : Code.UnitKind} {outer scope : Scope}
    {implicit : List Code.Slot} {name : Ident} {vars : List VarDecl} {body : List Stmt}
    (made : unitScope context outer vars = .ok scope)
    (typed : ∀ decl ∈ vars, ∀ name, decl.name.ident? = some name →
      ∃ type, context.typeOf decl = .ok type)
    (accepted : Stmt.ListAccepted context scope body) :
    FailsOnly (Fault.IsLimit decls)
      (lowerUnit context isOn kind outer implicit name vars body) := by
  unfold lowerUnit
  rw [made, ok_bind]
  refine failsOnly_bind (VarDecl.lowerSlots_failsOnly typesDeclared typed) fun slots _ => ?_
  refine failsOnly_bind ?_ fun lowered _ => failsOnly_ok _
  exact Site.lowerBody_failsOnly parametersDeclared accepted

theorem FunctionBlockDecl.lower_failsOnly {isOn : Bool} {decl : FunctionBlockDecl}
    (accepted : Element.Accepted context (.functionBlock decl)) :
    FailsOnly (Fault.IsLimit decls) (decl.lower context isOn) :=
  lowerUnit_failsOnly typesDeclared parametersDeclared
    (FunctionBlockDecl.unitScope_of_accepted accepted)
    (Scope.typeOf_of_declare accepted.declarations) accepted.body

theorem ProgramDecl.lower_failsOnly {isOn : Bool} {decl : ProgramDecl}
    (accepted : Element.Accepted context (.program decl)) :
    FailsOnly (Fault.IsLimit decls) (decl.lower context isOn) :=
  lowerUnit_failsOnly typesDeclared parametersDeclared
    (ProgramDecl.unitScope_of_accepted accepted)
    (Scope.typeOf_of_declare accepted.declarations) accepted.body

end Unit

/-! ## Types -/

theorem DeclaredTypes.addDecl_failsOnly {declared : DeclaredTypes} {decl : TypeDecl}
    (member : decl ∈ decls) (known : ∃ type, context.types.type? decl.name = some type) :
    FailsOnly (Fault.IsLimit decls) (declared.addDecl context decl) := by
  obtain ⟨type, found⟩ := known
  unfold DeclaredTypes.addDecl
  rw [found]
  dsimp only
  split
  · next missing => cases missing
  · next length width _ =>
      split
      · exact failsOnly_ok _
      · next noValue => exact failsOnly_error (.noLength member noValue)
  · exact failsOnly_ok _
  · exact failsOnly_ok _
  · exact failsOnly_ok _
  · exact failsOnly_ok _
  · exact failsOnly_ok _
  · exact failsOnly_error (.unsupported (by decide : Problem.unexpectedNode ∈ _))

theorem DeclaredTypes.addDecls_failsOnly {rest : List TypeDecl} :
    ∀ {declared : DeclaredTypes}, (∀ decl ∈ rest, decl ∈ decls) →
      (∀ decl ∈ rest, ∃ type, context.types.type? decl.name = some type) →
        FailsOnly (Fault.IsLimit decls) (DeclaredTypes.addDecls context declared rest) := by
  induction rest with
  | nil => exact fun _ _ => failsOnly_ok _
  | cons decl rest ih =>
      intro declared members known
      rw [DeclaredTypes.addDecls]
      refine failsOnly_bind ?_ fun next _ => ih ?_ ?_
      · exact DeclaredTypes.addDecl_failsOnly (members decl (List.mem_cons_self ..))
          (known decl (List.mem_cons_self ..))
      · exact fun other member => members other (List.mem_cons_of_mem _ member)
      · exact fun other member => known other (List.mem_cons_of_mem _ member)

/-! ## Libraries -/

section Library

variable {library : Library} {withConversions : Bool}
  (resolved : Context.resolve library withConversions = .ok context)

include resolved

theorem Library.lowerTypes_failsOnly :
    FailsOnly (Fault.IsLimit library.typeDecls) (library.lowerTypes context) := by
  obtain ⟨-, known⟩ := Context.types_declared resolved
  refine failsOnly_bind ?_ fun _ _ => failsOnly_ok _
  exact DeclaredTypes.addDecls_failsOnly (fun _ member => member) known

/-- The elements from a position on, where `before` are the functions before it. -/
theorem Context.lowerElements_failsOnly (userCode : library.IsUserCode)
    {elements : List Element} :
    ∀ (before : List FunctionDecl) (isOn : Bool),
      library.functions = before ++ Library.functions { elements } →
        (∀ element ∈ elements, element.Accepted context) →
          FailsOnly (Fault.IsLimit library.typeDecls)
            (context.lowerElements (before.map FunctionDecl.name).reverse isOn elements) := by
  obtain ⟨typesDeclared, -⟩ := Context.types_declared resolved
  have parametersDeclared : context.ParametersDeclaredIn library.typeDecls :=
    fun name signature member => Context.parameters_declared resolved member
  induction elements with
  | nil =>
      intro before isOn _ _
      rw [Context.lowerElements]
      exact failsOnly_ok _
  | cons element elements ih =>
      intro before isOn position accepted
      have first := accepted element (List.mem_cons_self ..)
      have rest : ∀ other ∈ elements, other.Accepted context :=
        fun other member => accepted other (List.mem_cons_of_mem _ member)
      cases element with
      | type decl =>
          rw [Context.lowerElements]
          exact ih before _ position rest
      | function decl =>
          -- The earlier declarations of the name are counted by both passes.
          obtain ⟨signature, made, -, found⟩ :=
            Context.declaredSignature?_of_resolve resolved userCode position
          have nextPosition :
              library.functions = (before ++ [decl]) ++ Library.functions { elements } := by
            rw [List.append_assoc]
            exact position
          have restFails := fun isOn => ih (before ++ [decl]) isOn nextPosition rest
          rw [List.map_append, List.reverse_append] at restFails
          rw [Context.lowerElements, List.count_reverse, found]
          refine failsOnly_bind ?_ fun lowered _ => ?_
          · exact FunctionDecl.lower_failsOnly typesDeclared parametersDeclared made first
          · exact failsOnly_bind (restFails lowered.2) fun _ _ => failsOnly_ok _
      | functionBlock decl =>
          rw [Context.lowerElements]
          split
          · exact ih before _ position rest
          · refine failsOnly_bind ?_ fun lowered _ => ?_
            · exact FunctionBlockDecl.lower_failsOnly typesDeclared parametersDeclared first
            · exact failsOnly_bind (ih before _ position rest) fun _ _ => failsOnly_ok _
      | program decl =>
          rw [Context.lowerElements]
          refine failsOnly_bind ?_ fun lowered _ => ?_
          · exact ProgramDecl.lower_failsOnly typesDeclared parametersDeclared first
          · exact failsOnly_bind (ih before _ position rest) fun _ _ => failsOnly_ok _
      | pragma directive =>
          cases directive with
          | code text | enable | disable =>
              rw [Context.lowerElements]
              exact failsOnly_bind (ih before _ position rest) fun _ _ => failsOnly_ok _

theorem Library.lower_failsOnly (userCode : library.IsUserCode) {notes : List Note}
    (checked : library.check context = .ok notes) :
    FailsOnly (Fault.IsLimit library.typeDecls) (library.lower context) := by
  refine failsOnly_bind (Library.lowerTypes_failsOnly resolved) fun types _ => ?_
  refine failsOnly_bind ?_ fun elements _ => failsOnly_ok _
  exact Context.lowerElements_failsOnly resolved userCode [] true rfl
    (Library.accepted_of_check checked)

/-- Generation of code for a checked library gives a text, or stops at a limit: never at a
problem of the program, and never because something is not found. -/
theorem Library.generate_of_check (userCode : library.IsUserCode) {notes : List Note}
    (checked : library.check context = .ok notes) (layout : Code.Layout) :
    (∃ text, library.generate context layout = .ok text) ∨
      ∃ fault, library.generate context layout = .error [fault] ∧
        Fault.IsLimit library.typeDecls fault ∧ fault.problem.isInternal = true ∧
        fault.problem ∉ [.callNotResolved, .arrayDimensionUnresolved, .scopeUnderflow] := by
  unfold Library.generate
  rw [checked, ok_bind]
  rcases (Library.lower_failsOnly resolved userCode checked).cases with
    ⟨file, lowered⟩ | ⟨fault, failed, isLimit⟩
  · rw [lowered]
    exact .inl ⟨file.render layout, rfl⟩
  · rw [failed]
    exact .inr ⟨fault, rfl, isLimit, isLimit.problem_of_limit⟩

end Library

def levelLog : Library where
  elements :=
    [.type (.enumeration "Mode" []),
      .function
        { name := "Same", returnType := "INT"
          vars := [{ VarDecl.simple "X" "INT" with kind := .input }]
          body := [.copy "Same" "X"] },
      .program
        { name := "Main"
          vars :=
            [VarDecl.simple "ready" "BOOL", VarDecl.simple "state" "Mode",
              VarDecl.simple "level" "INT",
              VarDecl.array "log" [{ start := .ofInt 0, stop := .ofInt 3 }] "INT"]
          body :=
            [.whileDo (.named "ready")
              [.assign (.elementOf "log" [.named "level"]) (.named "level")]] }]

theorem levelLog_isUserCode : levelLog.IsUserCode := by
  intro decl member
  rw [List.mem_singleton.mp member]
  rfl

theorem levelLog_isAccepted : levelLog.isAccepted false = true := by
  decide +kernel

theorem Library.generate_levelLog :
    levelLog.IsUserCode ∧ ∃ context notes, Context.resolve levelLog = .ok context ∧
      levelLog.check context = .ok notes ∧
      ((∃ text, levelLog.generate context {} = .ok text) ∨
        ∃ fault, levelLog.generate context {} = .error [fault] ∧
          Fault.IsLimit levelLog.typeDecls fault ∧ fault.problem.isInternal = true ∧
          fault.problem ∉ [.callNotResolved, .arrayDimensionUnresolved, .scopeUnderflow]) := by
  obtain ⟨context, notes, resolved, checked⟩ := Library.exists_of_isAccepted levelLog_isAccepted
  exact ⟨levelLog_isUserCode, context, notes, resolved, checked,
    Library.generate_of_check resolved levelLog_isUserCode checked {}⟩

end StructuredText
