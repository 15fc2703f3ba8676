import StructuredText.Proofs.Call.Rearrangement
import StructuredText.Proofs.Lowering.Supply
import StructuredText.Proofs.Scope.Unit
import StructuredText.Tree.Build

/-!
# Code of calls with the arguments in another order

Lowering takes the arguments of a call from the binding, in the order of the parameters,
and each from what its argument supplies.  So the code, the helper and the numbers that
are given out are the same for rearranged arguments.
-/

set_option autoImplicit false

namespace StructuredText

variable {arguments arguments' : List Argument}

theorem Argument.isNegated_of_perm (perm : arguments.Perm arguments') :
    Argument.isNegated arguments = Argument.isNegated arguments' := by
  funext name
  exact perm.any_eq

/-! ## Entries with the same argument -/

namespace BoundParameter

variable {bound bound' : BoundParameter}

theorem Agrees.parameter_eq (agree : bound.Agrees arguments arguments' bound') :
    bound.parameter = bound'.parameter := by
  cases agree <;> rfl

theorem Agrees.cName_eq (agree : bound.Agrees arguments arguments' bound') :
    bound.cName = bound'.cName := by
  cases agree <;> rfl

theorem Agrees.hasDestination_eq (agree : bound.Agrees arguments arguments' bound') :
    bound.hasDestination = bound'.hasDestination := by
  cases agree with
  | unbound parameter position => rfl
  | @bound parameter position argument index index' given given' => cases argument <;> rfl

variable (supply : Argument → Supply)

theorem Agrees.supply?_eq (agree : bound.Agrees arguments arguments' bound') :
    bound.supply? (arguments.map supply) = bound'.supply? (arguments'.map supply) := by
  cases agree with
  | unbound parameter position => rfl
  | @bound parameter position argument index index' given given' =>
      cases argument <;>
        simp only [supply?, Argument.actual, List.getElem?_map, given, given']

theorem Agrees.lowerInput_eq (agree : bound.Agrees arguments arguments' bound') :
    bound.lowerInput (arguments.map supply) = bound'.lowerInput (arguments'.map supply) := by
  have supplied := agree.supply?_eq supply
  cases agree with
  | unbound parameter position => rfl
  | bound parameter position given given' => rw [lowerInput, lowerInput, supplied]

theorem Agrees.lowerDestination_eq (agree : bound.Agrees arguments arguments' bound') :
    bound.lowerDestination (arguments.map supply) =
      bound'.lowerDestination (arguments'.map supply) := by
  have supplied := agree.supply?_eq supply
  cases agree with
  | unbound parameter position => rfl
  | bound parameter position given given' => rw [lowerDestination, lowerDestination, supplied]

theorem Agrees.receiver?_eq (agree : bound.Agrees arguments arguments' bound') :
    bound.receiver? (arguments.map supply) = bound'.receiver? (arguments'.map supply) := by
  have supplied := agree.supply?_eq supply
  cases agree with
  | unbound parameter position => rfl
  | @bound parameter position argument index index' given given' =>
      rw [receiver?, receiver?, supplied]
      cases argument <;> cases parameter.direction <;> rfl

end BoundParameter

theorem Binding.Agrees.hasDestination_eq {binding binding' : Binding}
    (agree : binding.Agrees arguments arguments' binding') :
    binding.hasDestination = binding'.hasDestination := by
  have entries := agree.parameters
  rw [Binding.hasDestination, Binding.hasDestination]
  generalize binding.parameters = first at entries ⊢
  generalize binding'.parameters = second at entries ⊢
  induction entries with
  | nil => rfl
  | cons agrees _ ih => rw [List.any_cons, List.any_cons, ih, agrees.hasDestination_eq]

/-! ## Calls of functions -/

namespace CallParts

variable (supply : Argument → Supply)

theorem addDestination_eq_of_agrees (perm : arguments.Perm arguments')
    {bound bound' : BoundParameter} (agree : bound.Agrees arguments arguments' bound')
    (parts : CallParts) (destination : Destination) :
    parts.addDestination arguments bound destination =
      parts.addDestination arguments' bound' destination := by
  rw [addDestination, addDestination, agree.parameter_eq, agree.cName_eq,
    Argument.isNegated_of_perm perm]

theorem add_eq_of_agrees (perm : arguments.Perm arguments') {bound bound' : BoundParameter}
    (agree : bound.Agrees arguments arguments' bound') (parts : CallParts) (isIndirect : Bool) :
    parts.add isIndirect arguments (arguments.map supply) bound =
      parts.add isIndirect arguments' (arguments'.map supply) bound' := by
  simp only [add, agree.parameter_eq, agree.cName_eq, agree.lowerInput_eq supply,
    agree.lowerDestination_eq supply, addDestination_eq_of_agrees perm agree]

theorem addAll_eq_of_agrees (perm : arguments.Perm arguments') (isIndirect : Bool) (count : Nat)
    {entries entries' : List BoundParameter}
    (agree : List.Forall₂ (BoundParameter.Agrees arguments arguments') entries entries') :
    ∀ (isCounted : Bool) (parts : CallParts),
      addAll isIndirect count arguments (arguments.map supply) isCounted parts entries =
        addAll isIndirect count arguments' (arguments'.map supply) isCounted parts entries' := by
  induction agree with
  | nil => exact fun _ _ => rfl
  | cons agrees _ ih =>
      intro isCounted parts
      simp only [addAll, agrees.parameter_eq, add_eq_of_agrees supply perm agrees, ih]

end CallParts

/-- The code of a call whose arguments are bound to its declaration alike. -/
theorem CallResolution.lower_eq_of_agrees (perm : arguments.Perm arguments') {site : Site}
    {depth : Nat} {resolution : CallResolution} {function : Ident} {binding binding' : Binding}
    (supply : Argument → Supply)
    (made : Binding.make resolution.signature.parameters arguments = .ok binding)
    (made' : Binding.make resolution.signature.parameters arguments' = .ok binding')
    (agree : binding.Agrees arguments arguments' binding') :
    resolution.lower site depth function arguments (arguments.map supply) =
      resolution.lower site depth function arguments' (arguments'.map supply) := by
  simp only [lower, made, made', Lower.lift_ok_bind, agree.hasDestination_eq,
    CallParts.addAll_eq_of_agrees supply perm _ _ agree.parameters]

/-! ## Invocations of function blocks -/

namespace InstanceAccess

variable (supply : Argument → Supply) (access : InstanceAccess)
  {entries entries' : List BoundParameter}

theorem copiesIn_eq_of_agrees
    (agree : List.Forall₂ (BoundParameter.Agrees arguments arguments') entries entries') :
    access.copiesIn (arguments.map supply) entries =
      access.copiesIn (arguments'.map supply) entries' := by
  induction agree with
  | nil => rfl
  | @cons bound bound' rest rest' agrees _ ih =>
      have sameInput := agrees.lowerInput_eq supply
      cases agrees with
      | unbound parameter position => exact ih
      | @bound parameter position argument index index' given given' =>
          cases argument with
          | positional value | named name value =>
              simp only [copiesIn, Argument.actual, BoundParameter.cName] at sameInput ⊢
              rw [sameInput, ih]
          | output isNegated source target => exact ih

theorem copiesOut_eq_of_agrees (perm : arguments.Perm arguments')
    (agree : List.Forall₂ (BoundParameter.Agrees arguments arguments') entries entries') :
    access.copiesOut arguments (arguments.map supply) entries =
      access.copiesOut arguments' (arguments'.map supply) entries' := by
  induction agree with
  | nil => rfl
  | cons agrees _ ih =>
      simp only [copiesOut, agrees.receiver?_eq supply, agrees.parameter_eq, agrees.cName_eq,
        Argument.isNegated_of_perm perm, ih]

end InstanceAccess

/-! ## Acceptance -/

section Accepted

variable {context : Context} {scope : Scope}

theorem Argument.listAccepted_iff :
    Argument.ListAccepted context scope arguments ↔
      ∀ argument ∈ arguments, argument.Accepted context scope := by
  induction arguments with
  | nil => simp [Argument.ListAccepted, Argument.judgeList]
  | cons argument rest ih => rw [Argument.listAccepted_cons, ih, List.forall_mem_cons]

theorem Argument.ListAccepted.of_perm (perm : arguments.Perm arguments')
    (accepted : Argument.ListAccepted context scope arguments) :
    Argument.ListAccepted context scope arguments' := by
  rw [Argument.listAccepted_iff] at accepted ⊢
  exact fun argument member => accepted argument (perm.mem_iff.mpr member)

theorem Expr.accepted_of_resolution {name : Ident} {resolution : CallResolution}
    (areAccepted : Argument.ListAccepted context scope arguments)
    (meaning : CallResolution.of? context scope name arguments = some resolution) :
    Expr.Accepted context scope (.call name arguments) := by
  obtain ⟨overloads, declared, isResolved⟩ := CallResolution.resolve_of_of? meaning
  rw [Expr.Accepted, Expr.judge]
  simp only [declared, areAccepted.types, if_true, isResolved, Findings.faults_under]
  exact areAccepted

/-- An invocation is accepted if its arguments are and have a score. -/
theorem Stmt.accepted_invoke_of_score? {block type : Ident} {signature : BlockSignature}
    {binding : Binding} (areAccepted : Argument.ListAccepted context scope arguments)
    (isInstance : instanceType scope block = .ok type)
    (declared : context.functions.block? type = some signature)
    (made : Binding.make signature.parameters arguments = .ok binding)
    (scored : (binding.score? (Argument.judgeList context scope arguments).1).isSome = true) :
    Stmt.Accepted context scope (.invoke block arguments) := by
  have noFaults : invocationFaults block type signature arguments
      (Argument.judgeList context scope arguments).1 = [] := by
    simp [invocationFaults, made, Option.isNone_eq_false_iff.mpr scored]
  rw [Stmt.Accepted, Stmt.judge, judgeInvoke]
  dsimp only
  rw [isInstance]
  dsimp only
  rw [declared]
  refine ⟨_, rfl, ?_⟩
  simp only [Findings.faults_under, Findings.faults_append, Findings.faults_ofFaults, noFaults,
    List.append_nil]
  exact areAccepted

/-- Arguments without faults that are bound without a fault have a score. -/
theorem score?_of_invocationFaults {block type : Ident} {signature : BlockSignature}
    {types : List (Option DataType)} (allTyped : types.all Option.isSome = true)
    (noFaults : invocationFaults block type signature arguments types = []) :
    ∃ binding, Binding.make signature.parameters arguments = .ok binding ∧
      (binding.score? types).isSome = true := by
  cases made : Binding.make signature.parameters arguments with
  | error fault => simp [invocationFaults, made] at noFaults
  | ok binding =>
      refine ⟨binding, rfl, ?_⟩
      simpa [invocationFaults, made, allTyped, Option.isSome_iff_ne_none] using noFaults

end Accepted

/-! ## Calls as a whole -/

section Calls

variable {site : Site} (rearranged : Argument.Rearranged arguments arguments')

include rearranged

theorem Expr.lower_of_rearranged {name : Ident} {resolution : CallResolution}
    (meaning : CallResolution.of? site.context site.scope name arguments = some resolution)
    (meaning' : CallResolution.of? site.context site.scope name arguments' = some resolution)
    (apart : Argument.Apart resolution.signature.parameters arguments) (depth : Nat) :
    (Expr.call name arguments').lower site depth = (Expr.call name arguments).lower site depth := by
  obtain ⟨overloads, declared, isDeclared, -, binding, made, -⟩ :=
    CallResolution.of?_eq_some meaning
  obtain ⟨binding', made', agree⟩ := Binding.make_agrees rearranged apart made
  rw [Expr.lower, Expr.lower, meaning, meaning', Lower.need_some_bind, Lower.need_some_bind,
    Argument.supplies_eq_map, Argument.supplies_eq_map]
  exact (CallResolution.lower_eq_of_agrees rearranged.perm _ made made' agree).symm

theorem Expr.call_of_rearranged {name : Ident} {resolution : CallResolution}
    (accepted : Expr.Accepted site.context site.scope (.call name arguments))
    (meaning : CallResolution.of? site.context site.scope name arguments = some resolution)
    (apart : Argument.Apart resolution.signature.parameters arguments) :
    Expr.Accepted site.context site.scope (.call name arguments') ∧
      ∃ resolution',
        CallResolution.of? site.context site.scope name arguments' = some resolution' ∧
        (Argument.Apart resolution'.signature.parameters arguments' →
          resolution' = resolution ∧
            ∀ depth, (Expr.call name arguments').lower site depth =
              (Expr.call name arguments).lower site depth) := by
  obtain ⟨areAccepted, -⟩ := Expr.accepted_call accepted
  have areTyped : ∀ argument ∈ arguments,
      (argument.type? site.context site.scope).isSome = true := by
    have allTyped := areAccepted.types
    rw [Argument.types_judgeList, List.all_map, List.all_eq_true] at allTyped
    exact allTyped
  obtain ⟨resolution', meaning', same⟩ :=
    CallResolution.of?_of_rearranged rearranged areTyped meaning apart
  refine ⟨Expr.accepted_of_resolution (areAccepted.of_perm rearranged.perm) meaning',
    resolution', meaning', fun apart' => ?_⟩
  obtain rfl := same apart'
  exact ⟨rfl, Expr.lower_of_rearranged rearranged meaning meaning' apart⟩

theorem Stmt.invoke_of_rearranged {block : Ident} {signature : BlockSignature}
    (accepted : Stmt.Accepted site.context site.scope (.invoke block arguments))
    (isInstance : site.blockSignature? block = some signature)
    (apart : Argument.Apart signature.parameters arguments) :
    Stmt.Accepted site.context site.scope (.invoke block arguments') ∧
      ∀ depth around, (Stmt.invoke block arguments').lower site depth around =
        (Stmt.invoke block arguments).lower site depth around := by
  obtain ⟨areAccepted, type, declaration, ofType, declared, noFaults⟩ :=
    Stmt.faultless_invoke accepted
  have same : declaration = signature := by
    rw [Site.blockSignature?, ofType] at isInstance
    exact Option.some.inj (declared.symm.trans isInstance)
  subst same
  obtain ⟨binding, made, scored⟩ := score?_of_invocationFaults areAccepted.types noFaults
  obtain ⟨binding', made', agree⟩ := Binding.make_agrees rearranged apart made
  constructor
  · refine Stmt.accepted_invoke_of_score? (areAccepted.of_perm rearranged.perm) ofType declared
      made' ?_
    rw [Argument.types_judgeList] at scored ⊢
    rw [← Binding.score?_eq_of_agrees _ agree]
    exact scored
  · intro depth around
    rw [Stmt.lower_invoke, Stmt.lower_invoke]
    simp only [Site.lowerInvoke, isInstance, Lower.need_some_bind, made, made',
      Lower.lift_ok_bind, Argument.supplies_eq_map,
      InstanceAccess.copiesIn_eq_of_agrees _ _ agree.parameters,
      InstanceAccess.copiesOut_eq_of_agrees _ _ rearranged.perm agree.parameters]

end Calls

/-- Arguments may be rearranged if those by position keep their order and no two others name
the same parameter or position.  They are bound alike; an accepted invocation is accepted and
its code is the same from every state of lowering, with the helpers and the numbers that
lowering leaves behind.  So it is with an accepted call, but if another declaration is chosen
for the new order, in which two of the arguments name the same parameter or position. -/
theorem Argument.Rearranged.same_code {site : Site}
    (rearranged : Argument.Rearranged arguments arguments') :
    (∀ parameters binding, Argument.Apart parameters arguments →
      Binding.make parameters arguments = .ok binding →
        ∃ binding', Binding.make parameters arguments' = .ok binding' ∧
          binding.Agrees arguments arguments' binding') ∧
    (∀ name resolution, Expr.Accepted site.context site.scope (.call name arguments) →
      CallResolution.of? site.context site.scope name arguments = some resolution →
      Argument.Apart resolution.signature.parameters arguments →
        Expr.Accepted site.context site.scope (.call name arguments') ∧
        ∃ resolution',
          CallResolution.of? site.context site.scope name arguments' = some resolution' ∧
          (Argument.Apart resolution'.signature.parameters arguments' →
            resolution' = resolution ∧
              ∀ depth, (Expr.call name arguments').lower site depth =
                (Expr.call name arguments).lower site depth)) ∧
    ∀ block signature, Stmt.Accepted site.context site.scope (.invoke block arguments) →
      site.blockSignature? block = some signature →
      Argument.Apart signature.parameters arguments →
        Stmt.Accepted site.context site.scope (.invoke block arguments') ∧
        ∀ depth around, (Stmt.invoke block arguments').lower site depth around =
          (Stmt.invoke block arguments).lower site depth around :=
  ⟨fun _ _ apart made => Binding.make_agrees rearranged apart made,
    fun _ _ accepted meaning apart => Expr.call_of_rearranged rearranged accepted meaning apart,
    fun _ _ accepted isInstance apart =>
      Stmt.invoke_of_rearranged rearranged accepted isInstance apart⟩

def division : List Argument :=
  [.positional (.call "Divide" [.positional (.named "x"), .named "By" (.ofInt 2),
      .output false "Rest" (.named "rest")]),
    .named "By" (.ofInt 3), .output true "Rest" (.named "rest")]

def limitation : List Argument :=
  [.output false "Limit" (.named "x"), .named "Level" (.named "rest")]

def dividing : Library where
  elements :=
    [.function
        { name := "Divide", returnType := "INT"
          vars :=
            [{ VarDecl.simple "Whole" "INT" with kind := .input },
              { VarDecl.simple "By" "INT" with kind := .input },
              { VarDecl.simple "Rest" "INT" with kind := .output }]
          body := [.copy "Divide" "Whole"] },
      .functionBlock
        { name := "Gauge"
          vars :=
            [{ VarDecl.simple "Level" "INT" with kind := .input },
              { VarDecl.simple "Limit" "INT" with kind := .inOut }]
          body := [.copy "Limit" "Level"] },
      .program
        { name := "Main"
          vars :=
            [VarDecl.simple "x" "INT", VarDecl.simple "rest" "INT",
              VarDecl.instanceOf "gauge" "Gauge"]
          body := [.assign (.named "x") (.call "Divide" division), .invoke "gauge" limitation] }]

def divideSite (context : Context) : Site :=
  { context, scope := Element.innerScope context ScopeStack.new dividing.elements[2]
    style := .accessor, unit := "MAIN" }

theorem dividing_apart : (dividing.accepted?.bind fun context => do
    let scope := (divideSite context).scope
    let resolution ← CallResolution.of? context scope "Divide" division
    let resolution' ← CallResolution.of? context scope "Divide" division.reverse
    let signature ← (divideSite context).blockSignature? "gauge"
    return decide (Argument.Apart resolution.signature.parameters division) &&
      decide (Argument.Apart resolution'.signature.parameters division.reverse) &&
      decide (Argument.Apart signature.parameters limitation)) = some true := by
  rw [Library.accepted?, Context.resolve, FunctionTable.standard_eq_grouped]
  decide +kernel

theorem Argument.Rearranged.same_code_dividing :
    Argument.Rearranged division division.reverse ∧
    Argument.Rearranged limitation limitation.reverse ∧
    ∃ context, Context.resolve dividing = .ok context ∧
      (∀ depth, (Expr.call "Divide" division.reverse).lower (divideSite context) depth =
        (Expr.call "Divide" division).lower (divideSite context) depth) ∧
      ∀ depth around,
        (Stmt.invoke "gauge" limitation.reverse).lower (divideSite context) depth around =
          (Stmt.invoke "gauge" limitation).lower (divideSite context) depth around := by
  have inCall : Argument.Rearranged division division.reverse :=
    ⟨(List.reverse_perm division).symm, rfl⟩
  have inInvocation : Argument.Rearranged limitation limitation.reverse :=
    ⟨(List.reverse_perm limitation).symm, rfl⟩
  obtain ⟨context, isAccepted, found⟩ := Option.bind_eq_some_iff.mp dividing_apart
  obtain ⟨resolved, notes, checked⟩ := Library.of_accepted? isAccepted
  obtain ⟨resolution, meaning, found⟩ := Option.bind_eq_some_iff.mp found
  obtain ⟨resolution', meaning', found⟩ := Option.bind_eq_some_iff.mp found
  obtain ⟨signature, isInstance, found⟩ := Option.bind_eq_some_iff.mp found
  simp only [Option.pure_def, Option.some.injEq, Bool.and_eq_true, decide_eq_true_eq] at found
  obtain ⟨⟨callApart, callApart'⟩, invocationApart⟩ := found
  have accepted : Element.Accepted context dividing.elements[2] :=
    Library.accepted_of_check checked _ (List.getElem_mem _)
  have assigns := Stmt.accepted_allList accepted.body _ (List.mem_cons_self ..)
  have invokes := Stmt.accepted_allList accepted.body _
    (List.mem_cons_of_mem _ (List.mem_cons_self ..))
  obtain ⟨-, sameCall, -⟩ := @Argument.Rearranged.same_code _ _ (divideSite context) inCall
  obtain ⟨-, -, sameInvocation⟩ :=
    @Argument.Rearranged.same_code _ _ (divideSite context) inInvocation
  obtain ⟨-, other, otherMeaning, same⟩ :=
    sameCall "Divide" resolution (Stmt.accepted_assign assigns).2 meaning callApart
  obtain rfl : other = resolution' := Option.some.inj (otherMeaning.symm.trans meaning')
  exact ⟨inCall, inInvocation, context, resolved, (same callApart').2,
    (sameInvocation "gauge" signature invokes isInstance invocationApart).2⟩

def addition : List Argument := [.named "IN1" (.named "a"), .named "IN01" (.ofInt 1)]

/-- A program with an addition of its own, for whose parameters it names two values. -/
def adding : Library where
  elements :=
    [.function
        { name := "ADD", returnType := "INT"
          vars :=
            [{ VarDecl.simple "IN1" "INT" with kind := .input },
              { VarDecl.simple "IN01" "INT" with kind := .input }]
          body := [.copy "ADD" "IN1"] },
      .program
        { name := "Main"
          vars := [VarDecl.simple "a" "INT", VarDecl.simple "x" "INT"]
          body := [.assign (.named "x") (.call "ADD" addition)] }]

def addScope (context : Context) : Scope :=
  Element.innerScope context ScopeStack.new adding.elements[1]

theorem adding_chooses : (adding.accepted?.bind fun context => do
    let resolution ← CallResolution.of? context (addScope context) "ADD" addition
    let resolution' ← CallResolution.of? context (addScope context) "ADD" addition.reverse
    let binding ← (Binding.make resolution'.signature.parameters addition.reverse).toOption
    return (decide (Argument.Apart resolution.signature.parameters addition),
      resolution.signature.cName resolution.isOverloaded,
      resolution'.signature.cName resolution'.isOverloaded,
      binding.parameters.countP fun bound => bound.actual.isSome)) =
    some (true, "ADD__INT__INT__INT", "ADD__INT__INT", 1) := by
  rw [Library.accepted?, Context.resolve, FunctionTable.standard_eq_grouped]
  decide +kernel

/-- An accepted call whose two arguments name different parameters may mean another function if
they change places, and the function receives one of the two only. -/
theorem Argument.Rearranged.other_function :
    Argument.Rearranged addition addition.reverse ∧
    ∃ context resolution resolution' binding, Context.resolve adding = .ok context ∧
      Expr.Accepted context (addScope context) (.call "ADD" addition) ∧
      CallResolution.of? context (addScope context) "ADD" addition = some resolution ∧
      Argument.Apart resolution.signature.parameters addition ∧
      CallResolution.of? context (addScope context) "ADD" addition.reverse = some resolution' ∧
      resolution.signature.cName resolution.isOverloaded = "ADD__INT__INT__INT" ∧
      resolution'.signature.cName resolution'.isOverloaded = "ADD__INT__INT" ∧
      Binding.make resolution'.signature.parameters addition.reverse = .ok binding ∧
      (binding.parameters.countP fun bound => bound.actual.isSome) = 1 := by
  refine ⟨⟨(List.reverse_perm addition).symm, rfl⟩, ?_⟩
  obtain ⟨context, isAccepted, found⟩ := Option.bind_eq_some_iff.mp adding_chooses
  obtain ⟨resolved, notes, checked⟩ := Library.of_accepted? isAccepted
  obtain ⟨resolution, meaning, found⟩ := Option.bind_eq_some_iff.mp found
  obtain ⟨resolution', meaning', found⟩ := Option.bind_eq_some_iff.mp found
  obtain ⟨binding, made, found⟩ := Option.bind_eq_some_iff.mp found
  simp only [Option.pure_def, Option.some.injEq, Prod.mk.injEq, decide_eq_true_eq] at found
  obtain ⟨apart, name, name', once⟩ := found
  have accepted : Element.Accepted context adding.elements[1] :=
    Library.accepted_of_check checked _ (List.getElem_mem _)
  have assigns := Stmt.accepted_allList accepted.body _ (List.mem_cons_self ..)
  exact ⟨context, resolution, resolution', binding, resolved, (Stmt.accepted_assign assigns).2,
    meaning, apart, meaning', name, name', eq_ok_of_toOption made, once⟩

end StructuredText
