import StructuredText.Proofs.Analysis.Resolved
import StructuredText.Proofs.Scope.Unit
import StructuredText.Proofs.Types.Fixpoint
import StructuredText.Tree.Build

/-!
# One run reports every fault

In a context that was resolved, every function block that a variable can be an instance
of has a signature, so a library can always be judged to its end.  What is reported is
then the sum of what its parts report: the faults of the elements in order, and in each
unit the faults of its declarations followed by those of its statements, each judged in
the scope of the unit alone.  None of them is a fault of the compiler.
-/

set_option autoImplicit false

namespace StructuredText

/-! ## Scopes in which all variables have a property -/

namespace ScopeStack

variable {α : Type}

def All (holds : α → Prop) (stack : ScopeStack α) : Prop :=
  ∀ table ∈ stack.current :: stack.enclosing, ∀ entry ∈ table.entries, holds entry.2

variable {holds : α → Prop} {stack : ScopeStack α}

theorem all_new : All holds (new : ScopeStack α) := by
  intro table member entry inside
  rw [List.mem_singleton.mp member] at inside
  cases inside

theorem All.push (all : All holds stack) : All holds stack.push := by
  intro table member entry inside
  rcases List.mem_cons.mp member with rfl | outer
  · cases inside
  · exact all table outer entry inside

/-- What holds of the entries of the current scope before and after holds of the stack. -/
theorem All.withCurrent (all : All holds stack) {current : Table α}
    (inCurrent : ∀ entry ∈ current.entries, holds entry.2) :
    All holds { stack with current } := by
  intro table member entry inside
  rcases List.mem_cons.mp member with rfl | outer
  · exact inCurrent entry inside
  · exact all table (List.mem_cons_of_mem _ outer) entry inside

theorem All.current (all : All holds stack) : ∀ entry ∈ stack.current.entries, holds entry.2 :=
  all stack.current (List.mem_cons_self ..)

theorem holds_of_mem_push {table : Table α} {name : Ident} {value : α}
    (all : ∀ entry ∈ table.entries, holds entry.2) (isSo : holds value) :
    ∀ entry ∈ (table.push name value).entries, holds entry.2 := by
  intro entry member
  rcases List.mem_append.mp member with old | added
  · exact all entry old
  · rw [List.mem_singleton.mp added]
    exact isSo

theorem All.bind (all : All holds stack) (name : Ident) {value : α} (isSo : holds value) :
    All holds (stack.bind name value) := by
  refine all.withCurrent ?_
  unfold Table.insert
  split
  · intro entry member
    obtain ⟨old, isOld, rfl⟩ := List.mem_map.mp member
    split
    · exact isSo
    · exact all.current old isOld
  · exact holds_of_mem_push all.current isSo

theorem All.tryBind (all : All holds stack) (name : Ident) {value : α} (isSo : holds value) :
    All holds (stack.tryBind name value) := by
  unfold ScopeStack.tryBind
  split
  · exact all
  · exact all.withCurrent (holds_of_mem_push all.current isSo)

theorem All.lookup (all : All holds stack) {name : Ident} {value : α}
    (found : stack.lookup name = some value) : holds value := by
  obtain ⟨table, member, inTable⟩ := List.exists_of_findSome?_eq_some found
  obtain ⟨entry, isEntry, rfl⟩ := Table.mem_of_get? inTable
  exact all table member entry isEntry

end ScopeStack

/-! ## Function blocks that variables are instances of -/

namespace TypeTable

variable {decls : List TypeDecl} {types : TypeTable}

theorem origin_of_build (built : build elementary decls = .ok types) {name : Ident}
    {type : DataType} (found : types.type? name = some type) :
    (∃ base, type = .elementary base) ∨
      ∃ decl ∈ decls, types.declaration? decl = some type := by
  unfold type? at found
  split at found
  · cases found
    exact .inl ⟨_, rfl⟩
  · obtain ⟨accepted, ledger⟩ := ledger_of_build built
    obtain ⟨entry, member, rfl⟩ := Table.mem_of_get? found
    rw [ledger.entries] at member
    rcases List.mem_append.mp member with isElementary | isAccepted
    · obtain ⟨base, -, rfl⟩ := List.mem_map.mp isElementary
      exact .inl ⟨base, rfl⟩
    · obtain ⟨pair, isPair, rfl⟩ := List.mem_map.mp isAccepted
      refine .inr ⟨pair.1, ledger.split.mem_iff.mpr ?_, ledger.meaning pair isPair⟩
      exact List.mem_append_left _ (List.mem_map_of_mem isPair)

theorem resolved_ne_functionBlock (built : build elementary decls = .ok types)
    (type : DataType) :
    ∀ name, types.type? name = some type → ∀ block, type.resolved ≠ .functionBlock block := by
  induction type using DataType.resolved.induct with
  | case1 synonymName base ih =>
      intro name found block
      rw [DataType.resolved]
      obtain ⟨_, isElementary⟩ | ⟨decl, -, meaning⟩ := origin_of_build built found
      · cases isElementary
      cases decl with
      | synonym declName baseName =>
          obtain ⟨baseType, baseFound, same⟩ := Option.map_eq_some_iff.mp meaning
          cases same
          exact ih baseName baseFound block
      | string =>
          cases meaning
          exact DataType.noConfusion
      | enumeration => cases meaning
      | subrange | array | record =>
          obtain ⟨_, -, same⟩ := Option.map_eq_some_iff.mp meaning
          cases same
  | case2 type notSynonym =>
      intro name found block
      rw [DataType.resolved]
      · rintro rfl
        obtain ⟨_, isElementary⟩ | ⟨decl, -, meaning⟩ := origin_of_build built found
        · cases isElementary
        cases decl with
        | enumeration | string => cases meaning
        | synonym | subrange | array | record =>
            obtain ⟨_, -, same⟩ := Option.map_eq_some_iff.mp meaning
            cases same
      · exact notSynonym

end TypeTable

namespace FunctionTable

/-- What an element leaves in the table of function blocks, if the table is still without
faults afterwards. -/
theorem Progress.blocks_step {types : TypeTable} {blocks : List Ident} {progress : Progress}
    {element : Element} (faultless : (progress.step types blocks element).faults = []) :
    progress.faults = [] ∧
      (∀ name, progress.table.blocks.contains name = true →
        (progress.step types blocks element).table.blocks.contains name = true) ∧
      ∀ decl, element = .functionBlock decl →
        (progress.step types blocks element).table.blocks.contains decl.name = true := by
  cases element with
  | type decl | program decl | pragma decl =>
      exact ⟨faultless, fun _ known => known, fun _ same => by cases same⟩
  | function decl =>
      rw [Progress.step] at faultless ⊢
      cases signed : decl.signature types blocks with
      | error faults =>
          rw [signed] at faultless
          have noFaults := (List.append_eq_nil_iff.mp faultless).2
          exact absurd noFaults (FunctionDecl.signature_error_ne_nil signed)
      | ok signature =>
          rw [signed] at faultless
          exact ⟨faultless, fun _ known => known, fun _ same => by cases same⟩
  | functionBlock decl =>
      rw [Progress.step] at faultless ⊢
      cases signed : decl.signature types blocks with
      | error faults =>
          rw [signed] at faultless
          have noFaults := (List.append_eq_nil_iff.mp faultless).2
          exact absurd noFaults (FunctionBlockDecl.signature_error_ne_nil signed)
      | ok signature =>
          rw [signed, ok_bind] at faultless
          rw [ok_bind]
          have sameName : signature.name = decl.name := by
            obtain ⟨_, -, rfl⟩ := map_eq_ok signed
            rfl
          cases free : progress.table.block? signature.name with
          | some first => simp [addBlock, free, Progress.take] at faultless
          | none =>
              simp only [addBlock, free, Progress.take] at faultless ⊢
              refine ⟨faultless, fun name known => ?_, fun _ same => ?_⟩
              · rw [Table.contains_push, known]
                rfl
              · cases same
                rw [Table.contains_push, sameName]
                simp

theorem Progress.blocks_foldl {types : TypeTable} {blocks : List Ident} {elements : List Element} :
    ∀ {progress : Progress}, (elements.foldl (step types blocks) progress).faults = [] →
      progress.faults = [] ∧
        (∀ name, progress.table.blocks.contains name = true →
          (elements.foldl (step types blocks) progress).table.blocks.contains name = true) ∧
        ∀ decl ∈ Library.functionBlocks { elements },
          (elements.foldl (step types blocks) progress).table.blocks.contains decl.name = true := by
  induction elements with
  | nil =>
      exact fun faultless => ⟨faultless, fun _ known => known, by simp [Library.functionBlocks]⟩
  | cons element elements ih =>
      intro progress faultless
      rw [List.foldl_cons] at faultless ⊢
      obtain ⟨midway, keeps, adds⟩ := ih faultless
      obtain ⟨clean, keepsFirst, addsFirst⟩ := Progress.blocks_step midway
      refine ⟨clean, fun name known => keeps name (keepsFirst name known), ?_⟩
      intro decl member
      obtain ⟨source, isSource, isBlock⟩ := List.mem_filterMap.mp member
      rcases List.mem_cons.mp isSource with rfl | later
      · cases source with
        | functionBlock own =>
            cases isBlock
            exact keeps _ (addsFirst decl rfl)
        | type | function | program | pragma => cases isBlock
      · exact adds decl (List.mem_filterMap.mpr ⟨source, later, isBlock⟩)

/-- Every name of a function block has a signature in a table without faults. -/
theorem blocks_of_build {withConversions : Bool} {types : TypeTable} {library : Library}
    {table : FunctionTable} (built : build (standard withConversions) types library = .ok table)
    {name : Ident} (isBlock : (blockNames library).contains name = true) :
    (table.block? name).isSome = true := by
  unfold build at built
  dsimp only at built
  split at built
  · next faultless =>
      cases built
      obtain ⟨-, keeps, adds⟩ := Progress.blocks_foldl faultless
      obtain ⟨block, member, same⟩ := List.contains_iff_exists_mem_beq.mp isBlock
      rw [block?, ← Table.get?_congr _ (BEq.symm same)]
      rcases List.mem_append.mp member with declared | isStandard
      · obtain ⟨decl, isDecl, rfl⟩ := List.mem_map.mp declared
        exact adds decl isDecl
      · obtain ⟨signature, isSignature, rfl⟩ := List.mem_map.mp isStandard
        refine keeps _ (Table.contains_iff.mpr ⟨(signature.name, signature), ?_, ReflBEq.rfl⟩)
        exact List.mem_map.mpr ⟨signature, isSignature, rfl⟩
  · cases built

end FunctionTable

/-- A type that is a function block with a signature, if it is a function block. -/
def DataType.HasSignature (context : Context) (type : DataType) : Prop :=
  ∀ block, type.resolved = .functionBlock block → (context.functions.block? block).isSome = true

theorem DataType.hasSignature_elementary (context : Context) (type : Elementary) :
    (DataType.elementary type).HasSignature context := by
  intro block isBlock
  cases isBlock

section Everywhere

variable {context : Context} {holds : DataType → Prop}

/-- What holds of the types of the variables in scope and of those that are declared holds of
the types of all variables afterwards. -/
theorem Scope.all_declare {vars : List VarDecl}
    (varsSo : ∀ decl ∈ vars, ∀ type, context.typeOf decl = .ok type → holds type) :
    ∀ {scope : Scope}, ScopeStack.All (fun (entry : VariableEntry) => holds entry.type) scope →
      ScopeStack.All (fun (entry : VariableEntry) => holds entry.type)
        (Scope.declare context scope vars).1 := by
  induction vars with
  | nil => exact fun all => all
  | cons decl vars ih =>
      intro scope all
      obtain ⟨declSo, restSo⟩ := List.forall_mem_cons.mp varsSo
      rw [Scope.declare]
      refine ih restSo ?_
      unfold Scope.declareOne
      split
      · exact all
      · split
        · exact all
        · next type typed =>
            split
            · exact all
            · exact ScopeStack.All.tryBind all _ (declSo type typed)

/-- The scope of an element has its variables, the implicit ones and the result. -/
theorem Element.all_innerScope {element : Element} {scope : Scope}
    (boolSo : holds (.elementary .bool))
    (resultSo : ∀ name type, context.types.type? name = some type → holds type)
    (varsSo : ∀ decl ∈ element.vars, ∀ type, context.typeOf decl = .ok type → holds type)
    (all : ScopeStack.All (fun (entry : VariableEntry) => holds entry.type) scope) :
    ScopeStack.All (fun (entry : VariableEntry) => holds entry.type)
      (element.innerScope context scope) := by
  have implicit : ScopeStack.All (fun (entry : VariableEntry) => holds entry.type)
      (Scope.declareImplicit scope.push) :=
    ScopeStack.All.bind (ScopeStack.All.bind (ScopeStack.All.push all) _ boolSo) _ boolSo
  refine Scope.all_declare varsSo (ScopeStack.All.push ?_)
  cases element with
  | function decl =>
      show ScopeStack.All (fun (entry : VariableEntry) => holds entry.type)
        (decl.outerScope context scope)
      unfold FunctionDecl.outerScope
      split
      · next type found => exact ScopeStack.All.bind implicit _ (resultSo _ type found)
      · exact implicit
  | functionBlock decl => exact implicit
  | type | program | pragma => exact all

end Everywhere

/-- A scope whose variables are instances of function blocks with signatures only. -/
def Scope.HasSignatures (context : Context) (scope : Scope) : Prop :=
  ScopeStack.All (fun (entry : VariableEntry) => entry.type.HasSignature context) scope

section Resolved

variable {context : Context} {library : Library} {withConversions : Bool}
  (resolved : Context.resolve library withConversions = .ok context)

include resolved

theorem Context.hasSignature_type? {name : Ident} {type : DataType}
    (found : context.types.type? name = some type) : type.HasSignature context := by
  obtain ⟨built, -, -⟩ := Context.resolve_ok resolved
  intro block isBlock
  exact absurd isBlock (TypeTable.resolved_ne_functionBlock built type name found block)

theorem Context.hasSignature_block {name : Ident} (isBlock : context.blocks.contains name = true) :
    (DataType.functionBlock name).HasSignature context := by
  obtain ⟨-, built, blocks⟩ := Context.resolve_ok resolved
  intro block same
  cases same
  rw [blocks] at isBlock
  exact FunctionTable.blocks_of_build built isBlock

theorem Context.hasSignature_typeOf {decl : VarDecl} {type : DataType}
    (typed : context.typeOf decl = .ok type) : type.HasSignature context := by
  unfold Context.typeOf VarDecl.type at typed
  cases initial : decl.initializer with
  | simple name value =>
      simp only [initial] at typed
      cases found : context.types.type? name with
      | some known =>
          rw [found] at typed
          cases typed
          exact Context.hasSignature_type? resolved found
      | none =>
          simp only [found] at typed
          split at typed
          · next isBlock =>
              cases typed
              exact Context.hasSignature_block resolved isBlock
          · cases typed
  | functionBlock name =>
      simp only [initial] at typed
      split at typed
      · next isBlock =>
          cases typed
          exact Context.hasSignature_block resolved isBlock
      · cases typed
  | string length width value =>
      simp only [initial, TypeTable.initializer?] at typed
      cases typed
      exact DataType.hasSignature_elementary context _
  | enumerated name value =>
      simp only [initial, TypeTable.initializer?] at typed
      split at typed
      · next found =>
          cases typed
          exact Context.hasSignature_type? resolved found
      · cases typed
  | array spec =>
      simp only [initial, TypeTable.initializer?] at typed
      split at typed
      · next found =>
          cases typed
          cases spec with
          | named name => exact Context.hasSignature_type? resolved found
          | inline shape =>
              obtain ⟨_, -, rfl⟩ := Option.map_eq_some_iff.mp found
              intro block isBlock
              cases isBlock
      · cases typed

theorem Element.hasSignatures_innerScope {scope : Scope} (all : scope.HasSignatures context)
    (element : Element) : (element.innerScope context scope).HasSignatures context :=
  Element.all_innerScope (DataType.hasSignature_elementary context .bool)
    (fun _ _ => Context.hasSignature_type? resolved)
    (fun _ _ _ => Context.hasSignature_typeOf resolved) all

end Resolved

/-! ## Faults of the program -/

def Fault.IsOfProgram (fault : Fault) : Prop := fault.problem.isInternal = false

def Findings.AreOfProgram (findings : Findings) : Prop :=
  ∀ fault ∈ findings.faults, fault.IsOfProgram

namespace Findings

variable {first second : Findings}

theorem areOfProgram_empty : AreOfProgram {} := fun _ member => by cases member

theorem AreOfProgram.append (firstSo : first.AreOfProgram) (secondSo : second.AreOfProgram) :
    (first ++ second).AreOfProgram := by
  intro fault member
  rcases List.mem_append.mp member with inFirst | inSecond
  · exact firstSo fault inFirst
  · exact secondSo fault inSecond

theorem areOfProgram_one {fault : Fault} (isSo : fault.IsOfProgram) :
    AreOfProgram (.ofFaults [fault]) := by
  intro other member
  rw [List.mem_singleton.mp member]
  exact isSo

theorem areOfProgram_ite {condition : Prop} [Decidable condition] {fault : Fault}
    (isSo : fault.IsOfProgram) :
    AreOfProgram (.ofFaults (if condition then [] else [fault])) := by
  split
  · exact areOfProgram_empty
  · exact areOfProgram_one isSo

end Findings

open Findings

namespace Binding

theorem sorted_failsOnly (parameters : List Parameter) (arguments : List Argument) :
    ∀ index sorted, FailsOnly Fault.IsOfProgram (Sorted.add parameters index sorted arguments) := by
  intro index sorted
  fun_induction Sorted.add parameters index sorted arguments with
  | case1 => exact failsOnly_ok _
  | case2 _ _ _ _ ih => exact ih
  | case3 _ _ _ _ _ _ _ ih => exact ih
  | case4 _ _ _ _ _ _ _ _ ih => exact ih
  | case5 => exact failsOnly_error rfl
  | case6 _ _ _ _ _ _ _ _ ih => exact ih
  | case7 => exact failsOnly_error rfl

theorem make_failsOnly (parameters : List Parameter) (arguments : List Argument) :
    FailsOnly Fault.IsOfProgram (make parameters arguments) := by
  refine failsOnly_bind (sorted_failsOnly parameters arguments 0 {}) fun sorted _ => ?_
  split
  · exact failsOnly_error rfl
  · exact failsOnly_ok _

end Binding

theorem CallResolution.resolve_failsOnly (name : Ident) (overloads : List FunctionSignature)
    (arguments : List Argument) (types : List (Option DataType)) :
    FailsOnly Fault.IsOfProgram (resolve name overloads arguments types) := by
  unfold resolve
  dsimp only
  split
  · exact failsOnly_ok _
  · split
    · exact failsOnly_error rfl
    · split
      · next fault found =>
          refine failsOnly_error ?_
          obtain ⟨signature, -, failed⟩ := List.exists_of_findSome?_eq_some found
          split at failed
          · next cause bindingFailed =>
              cases failed
              exact Binding.make_failsOnly _ _ fault bindingFailed
          · cases failed
      · exact failsOnly_error rfl

section Judge

variable {context : Context} {scope : Scope}

theorem Context.referenceType_failsOnly (reference : Reference) :
    FailsOnly Fault.IsOfProgram (context.referenceType scope reference) := by
  induction reference using Reference.root.induct with
  | case1 name =>
      rw [Context.referenceType]
      split
      · exact failsOnly_ok _
      · exact failsOnly_error rfl
  | case2 array subscripts ih =>
      rw [Context.referenceType]
      refine failsOnly_bind ih fun type _ => ?_
      split
      · split
        · exact failsOnly_ok _
        · exact failsOnly_error rfl
      · exact failsOnly_error rfl
  | case3 record name ih =>
      rw [Context.referenceType]
      refine failsOnly_bind ih fun type _ => ?_
      split
      · exact failsOnly_ok _
      · exact failsOnly_error rfl

theorem Context.areOfProgram_judgeEnum (value : EnumValue) :
    (context.judgeEnum value).findings.AreOfProgram := by
  unfold Context.judgeEnum
  split
  · exact areOfProgram_empty
  · exact areOfProgram_one rfl

mutual

theorem Reference.areOfProgram_judge :
    ∀ reference : Reference, (reference.judge context scope).AreOfProgram
  | .named _ => by
      rw [Reference.judge]
      exact areOfProgram_empty
  | .field record _ => by
      rw [Reference.judge]
      exact record.areOfProgram_judge
  | .element array subscripts => by
      rw [Reference.judge]
      exact array.areOfProgram_judge.append (Expr.areOfProgram_judgeSubscripts subscripts)

theorem Expr.areOfProgram_judgeSubscripts :
    ∀ subscripts : List Expr, (Expr.judgeSubscripts context scope subscripts).AreOfProgram
  | [] => by
      rw [Expr.judgeSubscripts]
      exact areOfProgram_empty
  | subscript :: subscripts => by
      rw [Expr.judgeSubscripts]
      refine (subscript.areOfProgram_judge.append ?_).append
        (Expr.areOfProgram_judgeSubscripts subscripts)
      unfold subscriptFaults
      split
      · exact areOfProgram_ite rfl
      · exact areOfProgram_empty

theorem Variable.areOfProgram_judge :
    ∀ source : Variable, (source.judge context scope).findings.AreOfProgram
  | .direct _ => by
      rw [Variable.judge]
      exact areOfProgram_empty
  | .symbolic reference => by
      rw [Variable.judge]
      split
      · exact reference.areOfProgram_judge
      · next fault failed =>
          exact reference.areOfProgram_judge.append
            (areOfProgram_one (Context.referenceType_failsOnly reference fault failed))

theorem Expr.areOfProgram_judge :
    ∀ expr : Expr, (expr.judge context scope).findings.AreOfProgram
  | .compare op left right => by
      rw [Expr.judge]
      have inner := left.areOfProgram_judge.append right.areOfProgram_judge
      split
      · exact inner.append (areOfProgram_ite rfl)
      · exact inner
  | .arith op left right => by
      rw [Expr.judge]
      have inner := left.areOfProgram_judge.append right.areOfProgram_judge
      split
      · exact inner.append (areOfProgram_ite rfl)
      · exact inner
  | .unary op term => by
      rw [Expr.judge]
      split
      · split
        · exact term.areOfProgram_judge
        · exact term.areOfProgram_judge.append (areOfProgram_one rfl)
      · exact term.areOfProgram_judge
  | .group inner => by
      rw [Expr.judge]
      exact inner.areOfProgram_judge
  | .const value => by
      rw [Expr.judge]
      exact areOfProgram_empty
  | .enumerated value => by
      rw [Expr.judge]
      exact Context.areOfProgram_judgeEnum value
  | .var source => by
      rw [Expr.judge]
      exact source.areOfProgram_judge
  | .call name arguments => by
      rw [Expr.judge]
      have inner := Argument.areOfProgram_judgeList arguments
      dsimp only
      split
      · exact inner.append (areOfProgram_one rfl)
      · next overloads _ =>
          split
          · split
            · exact inner
            · next fault failed =>
                exact inner.append (areOfProgram_one
                  (CallResolution.resolve_failsOnly name overloads arguments _ fault failed))
          · exact inner

theorem Argument.areOfProgram_judgeList : ∀ arguments : List Argument,
    (Argument.judgeList context scope arguments).2.AreOfProgram
  | [] => by
      rw [Argument.judgeList]
      exact areOfProgram_empty
  | .positional value :: rest => by
      rw [Argument.judgeList]
      exact value.areOfProgram_judge.append (Argument.areOfProgram_judgeList rest)
  | .named _ value :: rest => by
      rw [Argument.judgeList]
      exact value.areOfProgram_judge.append (Argument.areOfProgram_judgeList rest)
  | .output _ _ target :: rest => by
      rw [Argument.judgeList]
      exact target.areOfProgram_judge.append (Argument.areOfProgram_judgeList rest)

end

theorem Expr.areOfProgram_judgeCondition (condition : Expr) :
    (condition.judgeCondition context scope).AreOfProgram := by
  unfold Expr.judgeCondition
  dsimp only
  split
  · split
    · exact condition.areOfProgram_judge
    · exact condition.areOfProgram_judge.append (areOfProgram_one rfl)
  · exact condition.areOfProgram_judge

theorem CaseLabel.areOfProgram_judgeList (labels : List CaseLabel) :
    (CaseLabel.judgeList context labels).AreOfProgram := by
  induction labels with
  | nil => exact areOfProgram_empty
  | cons label labels ih =>
      refine AreOfProgram.append ?_ ih
      cases label with
      | enumerated value => exact Context.areOfProgram_judgeEnum value
      | range | integer => exact areOfProgram_empty

theorem areOfProgram_judgeAssign (target : Variable) (value : Expr) :
    (judgeAssign context scope target value).AreOfProgram := by
  refine (target.areOfProgram_judge.append value.areOfProgram_judge).append ?_
  intro fault member
  rcases List.mem_append.mp member with constant | mismatch
  · split at constant
    · split at constant
      · split at constant
        · rw [List.mem_singleton.mp constant]
          rfl
        · cases constant
      · cases constant
    · cases constant
  · split at mismatch
    · split at mismatch
      · cases mismatch
      · rw [List.mem_singleton.mp mismatch]
        rfl
    · cases mismatch

theorem areOfProgram_judgeControl (control : Ident) (first last : Expr) (step : Option Expr) :
    (judgeControl context scope control first last step).AreOfProgram := by
  unfold judgeControl
  have counter : AreOfProgram (.ofFaults (controlFaults scope control)) := by
    unfold controlFaults
    split
    · exact areOfProgram_ite rfl
    · exact areOfProgram_one rfl
  refine ((counter.append first.areOfProgram_judge).append last.areOfProgram_judge).append ?_
  split
  · exact Expr.areOfProgram_judge _
  · exact areOfProgram_empty

theorem instanceType_failsOnly (block : Ident) :
    FailsOnly Fault.IsOfProgram (instanceType scope block) := by
  unfold instanceType
  split
  · split
    · exact failsOnly_ok _
    · exact failsOnly_error rfl
  · exact failsOnly_error rfl

theorem signature_of_instanceType (signatures : scope.HasSignatures context)
    {block name : Ident} (isInstance : instanceType scope block = .ok name) :
    ∃ signature, context.functions.block? name = some signature := by
  unfold instanceType at isInstance
  split at isInstance
  · next type found =>
      obtain ⟨entry, isEntry, rfl⟩ := Option.map_eq_some_iff.mp found
      split at isInstance
      · next isBlock =>
          cases isInstance
          exact Option.isSome_iff_exists.mp (signatures.lookup isEntry _ isBlock)
      · cases isInstance
  · cases isInstance

/-- An invocation can be judged where every function block in scope has a signature. -/
theorem judgeInvoke_ok (signatures : scope.HasSignatures context) (block : Ident)
    (arguments : List Argument) :
    ∃ findings, judgeInvoke context scope block arguments = .ok findings ∧
      findings.AreOfProgram := by
  have inner : (Argument.judgeList context scope arguments).2.AreOfProgram :=
    Argument.areOfProgram_judgeList arguments
  unfold judgeInvoke
  dsimp only
  cases isInstance : instanceType scope block with
  | error fault =>
      have ofProgram := instanceType_failsOnly block fault isInstance
      exact ⟨_, rfl, inner.append (areOfProgram_one ofProgram)⟩
  | ok name =>
      obtain ⟨signature, found⟩ := signature_of_instanceType signatures isInstance
      simp only [found]
      refine ⟨_, rfl, inner.append ?_⟩
      unfold invocationFaults
      split
      · next fault failed =>
          exact areOfProgram_one (Binding.make_failsOnly _ _ fault failed)
      · split
        · exact areOfProgram_one rfl
        · exact areOfProgram_empty

/-! ## Statements -/

mutual

theorem Stmt.judge_isOk (signatures : scope.HasSignatures context) : ∀ stmt : Stmt,
    ∃ findings, stmt.judge context scope = .ok findings ∧ findings.AreOfProgram
  | .assign target value => by
      rw [Stmt.judge]
      exact ⟨_, rfl, areOfProgram_judgeAssign target value⟩
  | .invoke block arguments => by
      rw [Stmt.judge]
      exact judgeInvoke_ok signatures block arguments
  | .ifElse condition body elseIfs otherwise => by
      obtain ⟨inBody, bodyJudged, bodySo⟩ := Stmt.judgeList_isOk signatures body
      obtain ⟨inElseIfs, elseIfsJudged, elseIfsSo⟩ := ElseIf.judgeList_isOk signatures elseIfs
      obtain ⟨inOtherwise, otherwiseJudged, otherwiseSo⟩ := Stmt.judgeList_isOk signatures otherwise
      rw [Stmt.judge, bodyJudged, ok_bind, elseIfsJudged, ok_bind, otherwiseJudged, ok_bind]
      exact ⟨_, rfl,
        ((condition.areOfProgram_judgeCondition.append bodySo).append elseIfsSo).append otherwiseSo⟩
  | .select selector groups otherwise => by
      obtain ⟨inGroups, groupsJudged, groupsSo⟩ := CaseGroup.judgeList_isOk signatures groups
      obtain ⟨inOtherwise, otherwiseJudged, otherwiseSo⟩ := Stmt.judgeList_isOk signatures otherwise
      rw [Stmt.judge, groupsJudged, ok_bind, otherwiseJudged, ok_bind]
      exact ⟨_, rfl, (selector.areOfProgram_judge.append groupsSo).append otherwiseSo⟩
  | .forTo control first last step body => by
      obtain ⟨inBody, bodyJudged, bodySo⟩ := Stmt.judgeList_isOk signatures body
      rw [Stmt.judge, bodyJudged, ok_bind]
      exact ⟨_, rfl, (areOfProgram_judgeControl control first last step).append bodySo⟩
  | .whileDo condition body => by
      obtain ⟨inBody, bodyJudged, bodySo⟩ := Stmt.judgeList_isOk signatures body
      rw [Stmt.judge, bodyJudged, ok_bind]
      exact ⟨_, rfl, condition.areOfProgram_judgeCondition.append bodySo⟩
  | .repeatUntil body condition => by
      obtain ⟨inBody, bodyJudged, bodySo⟩ := Stmt.judgeList_isOk signatures body
      rw [Stmt.judge, bodyJudged, ok_bind]
      exact ⟨_, rfl, bodySo.append condition.areOfProgram_judgeCondition⟩
  | .leaveUnit | .leaveLoop | .pragma _ => by
      rw [Stmt.judge]
      exact ⟨_, rfl, areOfProgram_empty⟩

theorem Stmt.judgeList_isOk (signatures : scope.HasSignatures context) : ∀ stmts : List Stmt,
    ∃ findings, Stmt.judgeList context scope stmts = .ok findings ∧ findings.AreOfProgram
  | [] => by
      rw [Stmt.judgeList]
      exact ⟨_, rfl, areOfProgram_empty⟩
  | stmt :: stmts => by
      obtain ⟨inFirst, firstJudged, firstSo⟩ := stmt.judge_isOk signatures
      obtain ⟨inRest, restJudged, restSo⟩ := Stmt.judgeList_isOk signatures stmts
      rw [Stmt.judgeList, firstJudged, ok_bind, restJudged, ok_bind]
      exact ⟨_, rfl, firstSo.append restSo⟩

theorem ElseIf.judgeList_isOk (signatures : scope.HasSignatures context) : ∀ elseIfs : List ElseIf,
    ∃ findings, ElseIf.judgeList context scope elseIfs = .ok findings ∧ findings.AreOfProgram
  | [] => by
      rw [ElseIf.judgeList]
      exact ⟨_, rfl, areOfProgram_empty⟩
  | .mk condition body :: elseIfs => by
      obtain ⟨inBody, bodyJudged, bodySo⟩ := Stmt.judgeList_isOk signatures body
      obtain ⟨inRest, restJudged, restSo⟩ := ElseIf.judgeList_isOk signatures elseIfs
      rw [ElseIf.judgeList, bodyJudged, ok_bind, restJudged, ok_bind]
      exact ⟨_, rfl, (condition.areOfProgram_judgeCondition.append bodySo).append restSo⟩

theorem CaseGroup.judgeList_isOk (signatures : scope.HasSignatures context) :
    ∀ groups : List CaseGroup, ∃ findings,
      CaseGroup.judgeList context scope groups = .ok findings ∧ findings.AreOfProgram
  | [] => by
      rw [CaseGroup.judgeList]
      exact ⟨_, rfl, areOfProgram_empty⟩
  | .mk labels body :: groups => by
      obtain ⟨inBody, bodyJudged, bodySo⟩ := Stmt.judgeList_isOk signatures body
      obtain ⟨inRest, restJudged, restSo⟩ := CaseGroup.judgeList_isOk signatures groups
      rw [CaseGroup.judgeList, bodyJudged, ok_bind, restJudged, ok_bind]
      exact ⟨_, rfl, ((CaseLabel.areOfProgram_judgeList labels).append bodySo).append restSo⟩

end

end Judge

/-! ## Parts of a library -/

section Parts

variable (context : Context) (scope : Scope)

/-- What a statement reports if it is judged alone in a scope. -/
def Stmt.faults (stmt : Stmt) : List Fault :=
  match stmt.judge context scope with
  | .ok findings => findings.faults
  | .error fault => [fault]

theorem judgeUnit_eq (vars : List VarDecl) (body : List Stmt) :
    judgeUnit context scope vars body =
      (Stmt.judgeList context (Scope.declare context scope.push vars).1 body).map fun inside =>
        (.ofFaults (Scope.declare context scope.push vars).2 ++ inside, scope) := by
  unfold judgeUnit
  dsimp only
  rw [Scope.pop_declare]
  cases Stmt.judgeList context (Scope.declare context scope.push vars).1 body <;> rfl

theorem Element.judge_eq (element : Element) :
    element.judge context scope =
      (Stmt.judgeList context (element.innerScope context scope) element.body).map fun inside =>
        (.ofFaults (element.declarationFaults context scope) ++ inside, scope) := by
  cases element with
  | function decl =>
      rw [Element.judge, judgeUnit_eq]
      show _ = (Stmt.judgeList context
        (Scope.declare context (decl.outerScope context scope).push decl.vars).1 decl.body).map _
      cases Stmt.judgeList context
          (Scope.declare context (decl.outerScope context scope).push decl.vars).1 decl.body with
      | error fault => rfl
      | ok inside =>
          simp only [Except.map, ok_bind, FunctionDecl.pop_outerScope]
          rfl
  | functionBlock decl =>
      rw [Element.judge, judgeUnit_eq]
      show _ = (Stmt.judgeList context
        (Scope.declare context (Scope.declareImplicit scope.push).push decl.vars).1
          decl.body).map _
      cases Stmt.judgeList context
          (Scope.declare context (Scope.declareImplicit scope.push).push decl.vars).1 decl.body with
      | error fault => rfl
      | ok inside => rfl
  | program decl => exact judgeUnit_eq context scope decl.vars decl.body
  | type decl | pragma directive =>
      rw [Element.body, Stmt.judgeList]
      rfl

variable {context scope}

theorem Stmt.faults_judgeList (signatures : scope.HasSignatures context) (stmts : List Stmt) :
    ∃ findings, Stmt.judgeList context scope stmts = .ok findings ∧ findings.AreOfProgram ∧
      findings.faults = stmts.flatMap (Stmt.faults context scope) := by
  induction stmts with
  | nil =>
      rw [Stmt.judgeList]
      exact ⟨_, rfl, areOfProgram_empty, rfl⟩
  | cons stmt stmts ih =>
      obtain ⟨inFirst, firstJudged, firstSo⟩ := stmt.judge_isOk signatures
      obtain ⟨inRest, restJudged, restSo, restFaults⟩ := ih
      rw [Stmt.judgeList, firstJudged, ok_bind, restJudged, ok_bind]
      refine ⟨_, rfl, firstSo.append restSo, ?_⟩
      rw [List.flatMap_cons, Stmt.faults, firstJudged, Findings.faults_append, restFaults]

theorem VarDecl.type_failsOnly {types : TypeTable} {blocks : List Ident} (decl : VarDecl) :
    FailsOnly Fault.IsOfProgram (decl.type types blocks) := by
  unfold VarDecl.type
  split
  · split
    · exact failsOnly_ok _
    · split
      · exact failsOnly_ok _
      · exact failsOnly_error rfl
  · split
    · exact failsOnly_ok _
    · exact failsOnly_error rfl
  · split
    · exact failsOnly_ok _
    · exact failsOnly_error rfl

theorem Scope.areOfProgram_declare (vars : List VarDecl) :
    ∀ scope : Scope, AreOfProgram (.ofFaults (Scope.declare context scope vars).2) := by
  induction vars with
  | nil =>
      intro scope fault member
      cases member
  | cons decl vars ih =>
      intro scope fault member
      rw [Findings.faults_ofFaults, Scope.declare] at member
      rcases List.mem_append.mp member with first | later
      · rw [Option.mem_toList] at first
        unfold Scope.declareOne at first
        split at first
        · cases first
        · split at first
          · next cause failed =>
              cases first
              exact VarDecl.type_failsOnly decl _ failed
          · split at first
            · cases first
              rfl
            · cases first
      · exact ih _ fault later

end Parts

/-- The faults of the declarations of an element, then those of its statements, each
judged alone in the scope of the element. -/
def Element.faults (context : Context) (element : Element) : List Fault :=
  element.declarationFaults context ScopeStack.new ++
    element.body.flatMap (Stmt.faults context (element.innerScope context ScopeStack.new))

section Library

variable {context : Context} {library : Library} {withConversions : Bool}
  (resolved : Context.resolve library withConversions = .ok context)

include resolved

theorem Element.judge_isOk (element : Element) :
    ∃ findings, element.judge context ScopeStack.new = .ok (findings, ScopeStack.new) ∧
      findings.AreOfProgram ∧ findings.faults = element.faults context := by
  have signatures : (element.innerScope context ScopeStack.new).HasSignatures context :=
    Element.hasSignatures_innerScope resolved ScopeStack.all_new element
  obtain ⟨inside, judged, insideSo, insideFaults⟩ :=
    Stmt.faults_judgeList signatures element.body
  rw [Element.judge_eq, judged]
  have declarationsSo :
      AreOfProgram (.ofFaults (element.declarationFaults context ScopeStack.new)) :=
    Scope.areOfProgram_declare element.vars _
  refine ⟨_, rfl, declarationsSo.append insideSo, ?_⟩
  rw [Findings.faults_append, Findings.faults_ofFaults, insideFaults, Element.faults]

/-- The scope is as it was after each element, so every element is judged on its own. -/
theorem Element.judgeList_isOk (elements : List Element) :
    ∃ findings,
      Element.judgeList context ScopeStack.new elements = .ok (findings, ScopeStack.new) ∧
        findings.AreOfProgram ∧ findings.faults = elements.flatMap (Element.faults context) := by
  induction elements with
  | nil => exact ⟨_, rfl, areOfProgram_empty, rfl⟩
  | cons element elements ih =>
      obtain ⟨inFirst, firstJudged, firstSo, firstFaults⟩ := Element.judge_isOk resolved element
      obtain ⟨inRest, restJudged, restSo, restFaults⟩ := ih
      refine ⟨inFirst ++ inRest, ?_, firstSo.append restSo, ?_⟩
      · rw [Element.judgeList, firstJudged, ok_bind]
        dsimp only
        rw [restJudged, ok_bind]
        rfl
      · rw [List.flatMap_cons, Findings.faults_append, firstFaults, restFaults]

/-- A library, this one or another, that is judged in a resolved context is judged to its
end and reports what its elements report. -/
theorem Library.reported_check (elements : List Element) :
    (∀ fault ∈ reported (Library.check { elements } context), fault.IsOfProgram) ∧
      reported (Library.check { elements } context) =
        elements.flatMap (Element.faults context) ∧
      ((Library.check { elements } context).isOk = true ↔
        elements.flatMap (Element.faults context) = []) := by
  obtain ⟨findings, judged, ofProgram, faults⟩ := Element.judgeList_isOk resolved elements
  rw [← faults]
  unfold Library.check
  rw [judged]
  dsimp only
  split
  · next clean => simp [clean, reported, Except.isOk, Except.toBool]
  · next notClean => exact ⟨ofProgram, rfl, iff_of_false Bool.false_ne_true notClean⟩

/-- One run over a library reports every fault, and the parts of the library do not
disturb each other. -/
theorem Library.check_by_parts :
    (∀ fault ∈ reported (library.check context), fault.problem.isInternal = false) ∧
    ((library.check context).isOk = true ↔
      ∀ element ∈ library.elements,
        (Library.check { elements := [element] } context).isOk = true) ∧
    reported (library.check context) =
      library.elements.flatMap
        (fun element => reported (Library.check { elements := [element] } context)) ∧
    ∀ element ∈ library.elements,
      reported (Library.check { elements := [element] } context) =
        element.declarationFaults context ScopeStack.new ++
          element.body.flatMap
            (Stmt.faults context (element.innerScope context ScopeStack.new)) := by
  obtain ⟨ofProgram, whole, isOk⟩ := Library.reported_check resolved library.elements
  have alone : ∀ element : Element,
      reported (Library.check { elements := [element] } context) = element.faults context := by
    intro element
    simpa using (Library.reported_check resolved [element]).2.1
  have aloneOk : ∀ element : Element,
      (Library.check { elements := [element] } context).isOk = true ↔
        element.faults context = [] := by
    intro element
    simpa using (Library.reported_check resolved [element]).2.2
  refine ⟨ofProgram, ?_, ?_, fun element _ => alone element⟩
  · simp only [aloneOk]
    exact isOk.trans List.flatMap_eq_nil_iff
  · simp only [alone]
    exact whole

end Library

/-- A library with faults in the declarations and the statements of its units, one of
which uses a variable of the other. -/
def mixedUp : Library where
  elements :=
    [.functionBlock
        { name := "Latch"
          vars := [VarDecl.simple "held" "BOOL"]
          body := [.copy "held" "missing", .copy "held" "EN"] },
      .program
        { name := "Main"
          vars := [VarDecl.instanceOf "latch" "Latch", VarDecl.simple "latch" "INT"]
          body := [.copy "level" "held", .invoke "latch" [.positional (.named "held")]] }]

theorem Library.check_by_parts_mixedUp :
    ∃ context, Context.resolve mixedUp = .ok context ∧
      (reported (mixedUp.check context)).map Fault.problem =
        [.variableUndefined, .duplicateDeclaration, .variableUndefined, .variableUndefined,
          .variableUndefined, .parameterCount] ∧
      (∀ fault ∈ reported (mixedUp.check context), fault.problem.isInternal = false) ∧
      reported (mixedUp.check context) =
        mixedUp.elements.flatMap
          (fun element => reported (Library.check { elements := [element] } context)) := by
  have problems : (Context.resolve mixedUp).toOption.map
        (fun context => (reported (mixedUp.check context)).map Fault.problem) =
      some [.variableUndefined, .duplicateDeclaration, .variableUndefined, .variableUndefined,
        .variableUndefined, .parameterCount] := by
    decide +kernel
  cases resolved : Context.resolve mixedUp with
  | error faults =>
      rw [resolved] at problems
      cases problems
  | ok context =>
      rw [resolved] at problems
      obtain ⟨ofProgram, -, parts, -⟩ := Library.check_by_parts resolved
      exact ⟨context, rfl, Option.some.inj problems, ofProgram, parts⟩

end StructuredText
