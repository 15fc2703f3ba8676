import StructuredText.Analysis.Check
import StructuredText.Proofs.Outcome

/-!
# What acceptance says about the parts

A part of a tree is accepted if analysis finds no fault in it.  Everything inside
an accepted part is accepted, every accepted expression has a type, every accepted
reference leads to a declared place, and every accepted call has one meaning.
-/

set_option autoImplicit false

namespace StructuredText

section Accepted

variable (context : Context) (scope : Scope)

/-- A variable without faults, in its subscripts included. -/
def Variable.Accepted (source : Variable) : Prop :=
  (source.judge context scope).findings.faults = []

def Expr.Accepted (expr : Expr) : Prop := (expr.judge context scope).findings.faults = []

/-- An argument whose value or destination has no faults. -/
def Argument.Accepted : Argument → Prop
  | .positional value | .named _ value => value.Accepted context scope
  | .output _ _ target => target.Accepted context scope

def Argument.ListAccepted (arguments : List Argument) : Prop :=
  (Argument.judgeList context scope arguments).2.faults = []

def Expr.SubscriptsAccepted (subscripts : List Expr) : Prop :=
  (Expr.judgeSubscripts context scope subscripts).faults = []

/-- Statements that can be judged and have no faults. -/
def Stmt.Accepted (stmt : Stmt) : Prop :=
  ∃ findings, stmt.judge context scope = .ok findings ∧ findings.faults = []

def Stmt.ListAccepted (stmts : List Stmt) : Prop :=
  ∃ findings, Stmt.judgeList context scope stmts = .ok findings ∧ findings.faults = []

def ElseIf.ListAccepted (elseIfs : List ElseIf) : Prop :=
  ∃ findings, ElseIf.judgeList context scope elseIfs = .ok findings ∧ findings.faults = []

def CaseGroup.ListAccepted (groups : List CaseGroup) : Prop :=
  ∃ findings, CaseGroup.judgeList context scope groups = .ok findings ∧ findings.faults = []

end Accepted

variable {context : Context} {scope : Scope}

/-! ## References -/

-- Most of what follows unfolds these two; their equations are made here, once for all.
attribute [local simp] Expr.judge Stmt.judge in
/-- The type that analysis records for a variable is that of its declaration, followed
along the reference. -/
theorem Variable.judge_type (source : Variable) :
    (source.judge context scope).type = (context.variableType scope source).toOption := by
  cases source with
  | direct address => rw [Variable.judge]; rfl
  | symbolic reference =>
      rw [Variable.judge, Context.variableType]
      cases context.referenceType scope reference <;> rfl

theorem Variable.accepted_symbolic {reference : Reference}
    (accepted : Variable.Accepted context scope (.symbolic reference)) :
    (reference.judge context scope).faults = [] ∧
      ∃ type, context.referenceType scope reference = .ok type := by
  rw [Variable.Accepted, Variable.judge] at accepted
  cases found : context.referenceType scope reference with
  | ok type =>
      rw [found] at accepted
      exact ⟨accepted, type, rfl⟩
  | error fault =>
      rw [found] at accepted
      simp at accepted

theorem Variable.Accepted.type {source : Variable} (accepted : source.Accepted context scope) :
    ∃ type, context.variableType scope source = .ok type := by
  cases source with
  | direct address => exact ⟨_, rfl⟩
  | symbolic reference => exact (Variable.accepted_symbolic accepted).2

theorem Context.entry_of_referenceType {reference : Reference} {type : DataType}
    (typed : context.referenceType scope reference = .ok type) :
    ∃ entry, scope.entryFor? reference = some entry := by
  induction reference using Reference.root.induct generalizing type with
  | case1 name =>
      rw [Context.referenceType] at typed
      cases found : scope.lookup name with
      | none => rw [found] at typed; cases typed
      | some entry => exact ⟨entry, found⟩
  | case2 array subscripts ih =>
      rw [Context.referenceType] at typed
      obtain ⟨arrayType, arrayTyped, -⟩ := bind_eq_ok typed
      exact ih arrayTyped
  | case3 record name ih =>
      rw [Context.referenceType] at typed
      obtain ⟨recordType, recordTyped, -⟩ := bind_eq_ok typed
      exact ih recordTyped

theorem Context.referenceType_record {record : Reference} {name : Ident} {type : DataType}
    (typed : context.referenceType scope (.field record name) = .ok type) :
    ∃ recordType, context.referenceType scope record = .ok recordType := by
  rw [Context.referenceType] at typed
  obtain ⟨recordType, recordTyped, -⟩ := bind_eq_ok typed
  exact ⟨recordType, recordTyped⟩

/-- What is subscripted is an array with as many dimensions as there are subscripts. -/
theorem Context.referenceType_array {array : Reference} {subscripts : List Expr} {type : DataType}
    (typed : context.referenceType scope (.element array subscripts) = .ok type) :
    ∃ arrayType name dimensions element,
      context.referenceType scope array = .ok arrayType ∧
        arrayType.resolved = .array name dimensions element ∧
        dimensions.length = subscripts.length := by
  rw [Context.referenceType] at typed
  obtain ⟨arrayType, arrayTyped, typed⟩ := bind_eq_ok typed
  split at typed
  · next name dimensions element resolved =>
      split at typed
      · next sameLength => exact ⟨_, _, _, _, arrayTyped, resolved, sameLength⟩
      · cases typed
  · cases typed

/-- Every subscript of a reference that has a type has a dimension. -/
theorem Context.dimension_of_referenceType {array : Reference} {subscripts : List Expr}
    {type : DataType} (typed : context.referenceType scope (.element array subscripts) = .ok type)
    {index : Nat} (inside : index < subscripts.length) :
    ∃ dimension, context.dimension scope array index = .ok dimension := by
  obtain ⟨arrayType, name, dimensions, element, arrayTyped, resolved, sameLength⟩ :=
    Context.referenceType_array typed
  have found : dimensions[index]? = some dimensions[index] :=
    List.getElem?_eq_getElem (sameLength ▸ inside)
  refine ⟨dimensions[index], ?_⟩
  simp only [Context.dimension, arrayTyped, Except.map, resolved, found]

/-! ## Expressions -/

theorem Expr.accepted_compare {op : CompareOp} {left right : Expr}
    (accepted : Expr.Accepted context scope (.compare op left right)) :
    left.Accepted context scope ∧ right.Accepted context scope := by
  rw [Expr.Accepted, Expr.judge] at accepted
  simp only [Expr.Accepted]
  split at accepted <;> simp_all

theorem Expr.accepted_arith {op : ArithOp} {left right : Expr}
    (accepted : Expr.Accepted context scope (.arith op left right)) :
    left.Accepted context scope ∧ right.Accepted context scope := by
  rw [Expr.Accepted, Expr.judge] at accepted
  simp only [Expr.Accepted]
  split at accepted <;> simp_all

theorem Expr.accepted_unary {op : UnaryOp} {term : Expr}
    (accepted : Expr.Accepted context scope (.unary op term)) :
    term.Accepted context scope := by
  rw [Expr.Accepted, Expr.judge] at accepted
  simp only [Expr.Accepted]
  split at accepted
  · split at accepted <;> simp_all
  · simp_all

theorem Expr.accepted_group {inner : Expr}
    (accepted : Expr.Accepted context scope (.group inner)) : inner.Accepted context scope := by
  rw [Expr.Accepted, Expr.judge] at accepted
  exact accepted

theorem Expr.accepted_var {source : Variable}
    (accepted : Expr.Accepted context scope (.var source)) : source.Accepted context scope := by
  rw [Expr.Accepted, Expr.judge] at accepted
  exact accepted

theorem Context.enumeration_of_accepted {value : EnumValue}
    (accepted : (context.judgeEnum value).findings.faults = []) :
    ∃ type, context.enumeration? value = some type := by
  rw [Context.judgeEnum] at accepted
  cases found : context.enumeration? value with
  | some type => exact ⟨type, rfl⟩
  | none => rw [found] at accepted; cases accepted

theorem Expr.accepted_enumerated {value : EnumValue}
    (accepted : Expr.Accepted context scope (.enumerated value)) :
    ∃ type, context.enumeration? value = some type := by
  rw [Expr.Accepted, Expr.judge] at accepted
  exact Context.enumeration_of_accepted accepted

/-- The arguments of an accepted call are accepted, and one of the declarations of the
function takes them if they all have types. -/
theorem Expr.accepted_call {name : Ident} {arguments : List Argument}
    (accepted : Expr.Accepted context scope (.call name arguments)) :
    Argument.ListAccepted context scope arguments ∧
      ∃ overloads, context.functions.overloads? name = some overloads ∧
        ((Argument.judgeList context scope arguments).1.all Option.isSome = true →
          ∃ resolution,
            CallResolution.resolve name overloads arguments
              (Argument.judgeList context scope arguments).1 = .ok resolution) := by
  rw [Expr.Accepted, Expr.judge] at accepted
  rw [Argument.ListAccepted]
  cases found : context.functions.overloads? name with
  | none => simp [found] at accepted
  | some overloads =>
      simp only [found] at accepted
      split at accepted
      · next allTyped =>
          cases resolved : CallResolution.resolve name overloads arguments
              (Argument.judgeList context scope arguments).1 with
          | ok resolution =>
              simp only [resolved] at accepted
              exact ⟨accepted, overloads, rfl, fun _ => ⟨resolution, resolved⟩⟩
          | error fault => simp [resolved] at accepted
      · next notTyped => exact ⟨accepted, overloads, rfl, fun typed => absurd typed notTyped⟩

theorem Argument.listAccepted_cons {argument : Argument} {arguments : List Argument} :
    Argument.ListAccepted context scope (argument :: arguments) ↔
      argument.Accepted context scope ∧ Argument.ListAccepted context scope arguments := by
  cases argument <;>
    simp [Argument.ListAccepted, Argument.judgeList, Argument.Accepted, Expr.Accepted,
      Variable.Accepted]

theorem Expr.accepted_subscripts_cons {subscript : Expr} {subscripts : List Expr}
    (accepted : Expr.SubscriptsAccepted context scope (subscript :: subscripts)) :
    subscript.Accepted context scope ∧ Expr.SubscriptsAccepted context scope subscripts := by
  rw [Expr.SubscriptsAccepted, Expr.judgeSubscripts] at accepted
  simp only [Findings.faults_append, List.append_eq_nil_iff] at accepted
  exact ⟨accepted.1.1, accepted.2⟩

theorem CompareOp.type?_isSome {op : CompareOp} {left right : DataType}
    (compatible : (op.type? left right).2 = true) : (op.type? left right).1.isSome = true := by
  unfold CompareOp.type? at compatible ⊢
  dsimp only at compatible ⊢
  split at compatible
  · split at compatible
    · simp_all
    · cases compatible
  · simp_all

mutual

theorem Expr.Accepted.type : ∀ {expr : Expr}, expr.Accepted context scope →
    ∃ type, expr.type? context scope = some type
  | .compare op left right, accepted => by
      obtain ⟨leftAccepted, rightAccepted⟩ := Expr.accepted_compare accepted
      obtain ⟨leftType, leftTyped⟩ := Expr.Accepted.type leftAccepted
      obtain ⟨rightType, rightTyped⟩ := Expr.Accepted.type rightAccepted
      rw [Expr.type?] at leftTyped rightTyped
      rw [Expr.Accepted, Expr.judge, leftTyped, rightTyped] at accepted
      rw [Expr.type?, Expr.judge, leftTyped, rightTyped]
      cases compatible : (op.type? leftType rightType).2 with
      | true => exact Option.isSome_iff_exists.mp (CompareOp.type?_isSome compatible)
      | false => simp [compatible] at accepted
  | .arith op left right, accepted => by
      obtain ⟨leftAccepted, rightAccepted⟩ := Expr.accepted_arith accepted
      obtain ⟨leftType, leftTyped⟩ := Expr.Accepted.type leftAccepted
      obtain ⟨rightType, rightTyped⟩ := Expr.Accepted.type rightAccepted
      rw [Expr.type?] at leftTyped rightTyped
      rw [Expr.Accepted, Expr.judge, leftTyped, rightTyped] at accepted
      rw [Expr.type?, Expr.judge, leftTyped, rightTyped]
      cases typed : op.type? leftType rightType with
      | some type => exact ⟨type, typed⟩
      | none => simp [typed] at accepted
  | .unary op term, accepted => by
      obtain ⟨type, typed⟩ := Expr.Accepted.type (Expr.accepted_unary accepted)
      rw [Expr.type?] at typed
      rw [Expr.Accepted, Expr.judge, typed] at accepted
      rw [Expr.type?, Expr.judge, typed]
      dsimp only at accepted ⊢
      split at accepted
      · next accepts => exact ⟨type, by rw [if_pos accepts]⟩
      · simp at accepted
  | .group inner, accepted => by
      obtain ⟨type, typed⟩ := Expr.Accepted.type (Expr.accepted_group accepted)
      rw [Expr.type?] at typed
      exact ⟨type, by rw [Expr.type?, Expr.judge]; exact typed⟩
  | .const value, _ => ⟨value.type, by rw [Expr.type?, Expr.judge]⟩
  | .enumerated value, accepted => by
      obtain ⟨type, found⟩ := Expr.accepted_enumerated accepted
      exact ⟨type, by rw [Expr.type?, Expr.judge, Context.judgeEnum, found]⟩
  | .var source, accepted => by
      obtain ⟨type, typed⟩ := (Expr.accepted_var accepted).type
      refine ⟨type, ?_⟩
      rw [Expr.type?, Expr.judge]
      show (source.judge context scope).type = some type
      rw [Variable.judge_type, typed]
      rfl
  | .call name arguments, accepted => by
      obtain ⟨argumentsAccepted, overloads, found, resolves⟩ := Expr.accepted_call accepted
      have allTyped := Argument.ListAccepted.types argumentsAccepted
      obtain ⟨resolution, resolved⟩ := resolves allTyped
      refine ⟨resolution.signature.returnType, ?_⟩
      rw [Expr.type?, Expr.judge]
      simp only [found, allTyped, if_true, resolved]

theorem Argument.ListAccepted.types : ∀ {arguments : List Argument},
    Argument.ListAccepted context scope arguments →
      (Argument.judgeList context scope arguments).1.all Option.isSome = true
  | [], _ => by rw [Argument.judgeList]; rfl
  | .positional value :: arguments, accepted => by
      obtain ⟨valueAccepted, restAccepted⟩ := Argument.listAccepted_cons.mp accepted
      obtain ⟨type, typed⟩ := Expr.Accepted.type valueAccepted
      rw [Expr.type?] at typed
      rw [Argument.judgeList, List.all_cons, typed, Argument.ListAccepted.types restAccepted]
      rfl
  | .named name value :: arguments, accepted => by
      obtain ⟨valueAccepted, restAccepted⟩ := Argument.listAccepted_cons.mp accepted
      obtain ⟨type, typed⟩ := Expr.Accepted.type valueAccepted
      rw [Expr.type?] at typed
      rw [Argument.judgeList, List.all_cons, typed, Argument.ListAccepted.types restAccepted]
      rfl
  | .output isNegated source target :: arguments, accepted => by
      obtain ⟨targetAccepted, restAccepted⟩ := Argument.listAccepted_cons.mp accepted
      obtain ⟨type, typed⟩ := Variable.Accepted.type targetAccepted
      rw [Argument.judgeList, List.all_cons, Variable.judge_type, typed,
        Argument.ListAccepted.types restAccepted]
      rfl

end

theorem Expr.Accepted.resolution {name : Ident} {arguments : List Argument}
    (accepted : Expr.Accepted context scope (.call name arguments)) :
    ∃ resolution, CallResolution.of? context scope name arguments = some resolution := by
  obtain ⟨argumentsAccepted, overloads, found, resolves⟩ := Expr.accepted_call accepted
  have allTyped := argumentsAccepted.types
  obtain ⟨resolution, resolved⟩ := resolves allTyped
  refine ⟨resolution, ?_⟩
  simp only [CallResolution.of?, found, Option.bind_eq_bind, Option.bind_some, allTyped, if_true,
    resolved, Except.toOption]

/-! ## Calls -/

namespace CallResolution

/-- A fold that keeps its leader or takes the next candidate ends with one of them. -/
theorem mem_of_foldl {step : Option Candidate → Candidate → Option Candidate}
    (keepsOrTakes : ∀ leader candidate,
      step leader candidate = leader ∨ step leader candidate = some candidate)
    {candidates : List Candidate} {best : Candidate} : ∀ {leader : Option Candidate},
      candidates.foldl step leader = some best → leader = some best ∨ best ∈ candidates := by
  induction candidates with
  | nil => exact fun found => .inl found
  | cons candidate candidates ih =>
      intro leader found
      rcases ih found with isLeader | later
      · rcases keepsOrTakes leader candidate with kept | taken
        · exact .inl (kept ▸ isLeader)
        · rw [taken] at isLeader
          cases isLeader
          exact .inr (List.mem_cons_self ..)
      · exact .inr (List.mem_cons_of_mem _ later)

theorem mem_of_best? {candidates : List Candidate} {best : Candidate}
    (found : best? candidates = some best) : best ∈ candidates := by
  refine (mem_of_foldl ?_ found).resolve_left nofun
  intro leader candidate
  cases leader with
  | none => exact .inr rfl
  | some leader =>
      dsimp only
      split
      · exact .inr rfl
      · exact .inl rfl

/-- What a call means is that of the candidates which matches best. -/
theorem candidate_of_resolve {name : Ident} {overloads : List FunctionSignature}
    {arguments : List Argument} {types : List (Option DataType)} {resolution : CallResolution}
    (resolved : resolve name overloads arguments types = .ok resolution) :
    resolution.signature ∈ overloads ∧
      resolution.isOverloaded = decide (1 < overloads.length) ∧
      ∃ binding, Binding.make resolution.signature.parameters arguments = .ok binding ∧
        resolution.count = binding.count ∧ (binding.score? types).isSome = true := by
  unfold resolve at resolved
  dsimp only at resolved
  cases found : best? (overloads.filterMap (candidate? arguments types)) with
  | none =>
      rw [found] at resolved
      dsimp only at resolved
      split at resolved
      · cases resolved
      · split at resolved <;> cases resolved
  | some best =>
      rw [found] at resolved
      cases resolved
      obtain ⟨signature, member, isCandidate⟩ := List.mem_filterMap.mp (mem_of_best? found)
      unfold candidate? at isCandidate
      cases bound : Binding.make signature.parameters arguments with
      | error fault => rw [bound] at isCandidate; cases isCandidate
      | ok binding =>
          rw [bound] at isCandidate
          obtain ⟨score, scored, rfl⟩ := Option.map_eq_some_iff.mp isCandidate
          exact ⟨member, rfl, binding, bound, rfl, Option.isSome_of_eq_some scored⟩

/-- What a call means is a declaration of the function that the arguments can be bound
to, with the number of extensible arguments of that binding. -/
theorem resolve_ok {name : Ident} {overloads : List FunctionSignature} {arguments : List Argument}
    {types : List (Option DataType)} {resolution : CallResolution}
    (resolved : resolve name overloads arguments types = .ok resolution) :
    resolution.signature ∈ overloads ∧
      resolution.isOverloaded = decide (1 < overloads.length) ∧
      ∃ binding, Binding.make resolution.signature.parameters arguments = .ok binding ∧
        resolution.count = binding.count := by
  obtain ⟨member, overloaded, binding, bound, counted, -⟩ := candidate_of_resolve resolved
  exact ⟨member, overloaded, binding, bound, counted⟩

theorem resolve_of_of? {name : Ident} {arguments : List Argument} {resolution : CallResolution}
    (found : of? context scope name arguments = some resolution) :
    ∃ overloads, context.functions.overloads? name = some overloads ∧
      resolve name overloads arguments (Argument.judgeList context scope arguments).1 =
        .ok resolution := by
  unfold of? at found
  obtain ⟨overloads, declared, found⟩ := Option.bind_eq_some_iff.mp found
  dsimp only at found
  split at found
  · cases resolved : resolve name overloads arguments
        (Argument.judgeList context scope arguments).1 with
    | error fault => rw [resolved] at found; cases found
    | ok other =>
        rw [resolved] at found
        cases found
        exact ⟨overloads, declared, resolved⟩
  · cases found

theorem of?_eq_some {name : Ident} {arguments : List Argument} {resolution : CallResolution}
    (found : of? context scope name arguments = some resolution) :
    ∃ overloads, context.functions.overloads? name = some overloads ∧
      resolution.signature ∈ overloads ∧
      resolution.isOverloaded = decide (1 < overloads.length) ∧
      ∃ binding, Binding.make resolution.signature.parameters arguments = .ok binding ∧
        resolution.count = binding.count := by
  obtain ⟨overloads, declared, resolved⟩ := resolve_of_of? found
  exact ⟨overloads, declared, resolve_ok resolved⟩

end CallResolution

/-! ## Statements -/

theorem Expr.accepted_of_condition {condition : Expr}
    (accepted : (condition.judgeCondition context scope).faults = []) :
    condition.Accepted context scope := by
  rw [Expr.judgeCondition] at accepted
  rw [Expr.Accepted]
  split at accepted
  · split at accepted <;> simp_all
  · exact accepted

theorem Stmt.faultless_assign {target : Variable} {value : Expr}
    (accepted : Stmt.Accepted context scope (.assign target value)) :
    (target.Accepted context scope ∧ value.Accepted context scope) ∧
      assignmentFaults scope target (target.judge context scope).type
        (value.judge context scope).type = [] := by
  obtain ⟨findings, judged, noFaults⟩ := accepted
  rw [Stmt.judge] at judged
  cases judged
  simp only [judgeAssign, Findings.faults_append, Findings.faults_ofFaults,
    List.append_eq_nil_iff] at noFaults
  exact noFaults

theorem Stmt.accepted_assign {target : Variable} {value : Expr}
    (accepted : Stmt.Accepted context scope (.assign target value)) :
    target.Accepted context scope ∧ value.Accepted context scope :=
  (Stmt.faultless_assign accepted).1

/-- The instance of an accepted invocation is of a declared function block that takes the
arguments. -/
theorem Stmt.faultless_invoke {block : Ident} {arguments : List Argument}
    (accepted : Stmt.Accepted context scope (.invoke block arguments)) :
    Argument.ListAccepted context scope arguments ∧
      ∃ type signature, instanceType scope block = .ok type ∧
        context.functions.block? type = some signature ∧
        invocationFaults block type signature arguments
          (Argument.judgeList context scope arguments).1 = [] := by
  obtain ⟨findings, judged, noFaults⟩ := accepted
  rw [Stmt.judge, judgeInvoke] at judged
  dsimp only at judged
  cases found : instanceType scope block with
  | error fault =>
      rw [found] at judged
      cases judged
      simp at noFaults
  | ok type =>
      rw [found] at judged
      dsimp only at judged
      cases declared : context.functions.block? type with
      | none => rw [declared] at judged; cases judged
      | some signature =>
          rw [declared] at judged
          cases judged
          simp only [Findings.faults_under, Findings.faults_append, Findings.faults_ofFaults,
            List.append_eq_nil_iff] at noFaults
          exact ⟨noFaults.1, type, signature, rfl, declared, noFaults.2⟩

/-- The instance of an accepted invocation is of a declared function block, and the
arguments can be bound to its parameters. -/
theorem Stmt.accepted_invoke {block : Ident} {arguments : List Argument}
    (accepted : Stmt.Accepted context scope (.invoke block arguments)) :
    Argument.ListAccepted context scope arguments ∧
      ∃ type signature binding, instanceType scope block = .ok type ∧
        context.functions.block? type = some signature ∧
        Binding.make signature.parameters arguments = .ok binding := by
  obtain ⟨argumentsAccepted, type, signature, isInstance, declared, noFaults⟩ :=
    Stmt.faultless_invoke accepted
  refine ⟨argumentsAccepted, type, signature, ?_⟩
  cases bound : Binding.make signature.parameters arguments with
  | error fault => simp [invocationFaults, bound] at noFaults
  | ok binding => exact ⟨binding, isInstance, declared, rfl⟩

theorem Stmt.accepted_ifElse {condition : Expr} {body otherwise : List Stmt}
    {elseIfs : List ElseIf}
    (accepted : Stmt.Accepted context scope (.ifElse condition body elseIfs otherwise)) :
    condition.Accepted context scope ∧ Stmt.ListAccepted context scope body ∧
      ElseIf.ListAccepted context scope elseIfs ∧
      Stmt.ListAccepted context scope otherwise := by
  obtain ⟨findings, judged, noFaults⟩ := accepted
  rw [Stmt.judge] at judged
  obtain ⟨first, firstJudged, judged⟩ := bind_eq_ok judged
  obtain ⟨second, secondJudged, judged⟩ := bind_eq_ok judged
  obtain ⟨third, thirdJudged, judged⟩ := bind_eq_ok judged
  cases judged
  simp only [Findings.faults_append, List.append_eq_nil_iff] at noFaults
  obtain ⟨⟨⟨conditionClean, firstClean⟩, secondClean⟩, thirdClean⟩ := noFaults
  exact ⟨Expr.accepted_of_condition conditionClean, ⟨first, firstJudged, firstClean⟩,
    ⟨second, secondJudged, secondClean⟩, ⟨third, thirdJudged, thirdClean⟩⟩

theorem Stmt.accepted_select {selector : Expr} {groups : List CaseGroup} {otherwise : List Stmt}
    (accepted : Stmt.Accepted context scope (.select selector groups otherwise)) :
    selector.Accepted context scope ∧ CaseGroup.ListAccepted context scope groups ∧
      Stmt.ListAccepted context scope otherwise := by
  obtain ⟨findings, judged, noFaults⟩ := accepted
  rw [Stmt.judge] at judged
  obtain ⟨first, firstJudged, judged⟩ := bind_eq_ok judged
  obtain ⟨second, secondJudged, judged⟩ := bind_eq_ok judged
  cases judged
  simp only [Findings.faults_append, List.append_eq_nil_iff] at noFaults
  obtain ⟨⟨selectorClean, firstClean⟩, secondClean⟩ := noFaults
  exact ⟨selectorClean, ⟨first, firstJudged, firstClean⟩, ⟨second, secondJudged, secondClean⟩⟩

theorem Stmt.faultless_forTo {control : Ident} {first last : Expr} {step : Option Expr}
    {body : List Stmt}
    (accepted : Stmt.Accepted context scope (.forTo control first last step body)) :
    controlFaults scope control = [] ∧ first.Accepted context scope ∧
      last.Accepted context scope ∧ (∀ value ∈ step, value.Accepted context scope) ∧
      Stmt.ListAccepted context scope body := by
  obtain ⟨findings, judged, noFaults⟩ := accepted
  rw [Stmt.judge] at judged
  obtain ⟨inner, bodyJudged, judged⟩ := bind_eq_ok judged
  cases judged
  simp only [judgeControl, Findings.faults_append, Findings.faults_ofFaults,
    List.append_eq_nil_iff] at noFaults
  obtain ⟨⟨⟨⟨controlClean, firstClean⟩, lastClean⟩, stepClean⟩, bodyClean⟩ := noFaults
  refine ⟨controlClean, firstClean, lastClean, ?_, inner, bodyJudged, bodyClean⟩
  intro value given
  cases given
  exact stepClean

theorem Stmt.accepted_forTo {control : Ident} {first last : Expr} {step : Option Expr}
    {body : List Stmt}
    (accepted : Stmt.Accepted context scope (.forTo control first last step body)) :
    (∃ entry, scope.lookup control = some entry) ∧ first.Accepted context scope ∧
      last.Accepted context scope ∧ (∀ value ∈ step, value.Accepted context scope) ∧
      Stmt.ListAccepted context scope body := by
  obtain ⟨controlClean, partsAccepted⟩ := Stmt.faultless_forTo accepted
  refine ⟨?_, partsAccepted⟩
  cases found : scope.lookup control with
  | none => simp [controlFaults, found] at controlClean
  | some entry => exact ⟨entry, rfl⟩

theorem Stmt.accepted_whileDo {condition : Expr} {body : List Stmt}
    (accepted : Stmt.Accepted context scope (.whileDo condition body)) :
    condition.Accepted context scope ∧ Stmt.ListAccepted context scope body := by
  obtain ⟨findings, judged, noFaults⟩ := accepted
  rw [Stmt.judge] at judged
  obtain ⟨inner, bodyJudged, judged⟩ := bind_eq_ok judged
  cases judged
  simp only [Findings.faults_append, List.append_eq_nil_iff] at noFaults
  exact ⟨Expr.accepted_of_condition noFaults.1, inner, bodyJudged, noFaults.2⟩

theorem Stmt.accepted_repeatUntil {condition : Expr} {body : List Stmt}
    (accepted : Stmt.Accepted context scope (.repeatUntil body condition)) :
    condition.Accepted context scope ∧ Stmt.ListAccepted context scope body := by
  obtain ⟨findings, judged, noFaults⟩ := accepted
  rw [Stmt.judge] at judged
  obtain ⟨inner, bodyJudged, judged⟩ := bind_eq_ok judged
  cases judged
  simp only [Findings.faults_append, List.append_eq_nil_iff] at noFaults
  exact ⟨Expr.accepted_of_condition noFaults.2, inner, bodyJudged, noFaults.1⟩

theorem Stmt.listAccepted_cons {stmt : Stmt} {stmts : List Stmt}
    (accepted : Stmt.ListAccepted context scope (stmt :: stmts)) :
    stmt.Accepted context scope ∧ Stmt.ListAccepted context scope stmts := by
  obtain ⟨findings, judged, noFaults⟩ := accepted
  rw [Stmt.judgeList] at judged
  obtain ⟨first, firstJudged, judged⟩ := bind_eq_ok judged
  obtain ⟨rest, restJudged, judged⟩ := bind_eq_ok judged
  cases judged
  simp only [Findings.faults_append, List.append_eq_nil_iff] at noFaults
  exact ⟨⟨first, firstJudged, noFaults.1⟩, ⟨rest, restJudged, noFaults.2⟩⟩

theorem ElseIf.listAccepted_cons {condition : Expr} {body : List Stmt} {elseIfs : List ElseIf}
    (accepted : ElseIf.ListAccepted context scope (.mk condition body :: elseIfs)) :
    condition.Accepted context scope ∧ Stmt.ListAccepted context scope body ∧
      ElseIf.ListAccepted context scope elseIfs := by
  obtain ⟨findings, judged, noFaults⟩ := accepted
  rw [ElseIf.judgeList] at judged
  obtain ⟨inner, bodyJudged, judged⟩ := bind_eq_ok judged
  obtain ⟨rest, restJudged, judged⟩ := bind_eq_ok judged
  cases judged
  simp only [Findings.faults_append, List.append_eq_nil_iff] at noFaults
  obtain ⟨⟨conditionClean, bodyClean⟩, restClean⟩ := noFaults
  exact ⟨Expr.accepted_of_condition conditionClean, ⟨inner, bodyJudged, bodyClean⟩,
    ⟨rest, restJudged, restClean⟩⟩

theorem CaseLabel.enumeration_of_accepted {labels : List CaseLabel}
    (accepted : (CaseLabel.judgeList context labels).faults = []) {value : EnumValue}
    (member : .enumerated value ∈ labels) : ∃ type, context.enumeration? value = some type := by
  induction labels with
  | nil => cases member
  | cons label labels ih =>
      rw [CaseLabel.judgeList, Findings.faults_append, List.append_eq_nil_iff] at accepted
      rcases List.mem_cons.mp member with isFirst | inRest
      · subst isFirst
        exact Context.enumeration_of_accepted accepted.1
      · exact ih accepted.2 inRest

theorem CaseGroup.listAccepted_cons {labels : List CaseLabel} {body : List Stmt}
    {groups : List CaseGroup}
    (accepted : CaseGroup.ListAccepted context scope (.mk labels body :: groups)) :
    (CaseLabel.judgeList context labels).faults = [] ∧ Stmt.ListAccepted context scope body ∧
      CaseGroup.ListAccepted context scope groups := by
  obtain ⟨findings, judged, noFaults⟩ := accepted
  rw [CaseGroup.judgeList] at judged
  obtain ⟨inner, bodyJudged, judged⟩ := bind_eq_ok judged
  obtain ⟨rest, restJudged, judged⟩ := bind_eq_ok judged
  cases judged
  simp only [Findings.faults_append, List.append_eq_nil_iff] at noFaults
  obtain ⟨⟨labelsClean, bodyClean⟩, restClean⟩ := noFaults
  exact ⟨labelsClean, ⟨inner, bodyJudged, bodyClean⟩, ⟨rest, restJudged, restClean⟩⟩

end StructuredText
