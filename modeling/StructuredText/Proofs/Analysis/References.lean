import StructuredText.Proofs.Analysis.Resolved
import StructuredText.Proofs.Scope.Unit
import StructuredText.Tree.Build

/-!
# What variables refer to

Analysis notes a type for every variable that occurs in a body, and lowering finds the
type again.  Both follow the reference from the same declaration, because lowering
makes the scope of the unit as analysis had it.
-/

set_option autoImplicit false

namespace StructuredText

/-! ## Occurrences of variables -/

mutual

def Reference.occurrences : Reference → List Variable
  | .named _ => []
  | .field record _ => record.occurrences
  | .element array subscripts => array.occurrences ++ Expr.occurrencesList subscripts

def Variable.occurrences : Variable → List Variable
  | .direct address => [.direct address]
  | .symbolic reference => .symbolic reference :: reference.occurrences

def Expr.occurrences : Expr → List Variable
  | .compare _ left right => left.occurrences ++ right.occurrences
  | .arith _ left right => left.occurrences ++ right.occurrences
  | .unary _ term => term.occurrences
  | .group inner => inner.occurrences
  | .const _ | .enumerated _ => []
  | .var source => source.occurrences
  | .call _ arguments => Argument.occurrencesList arguments

def Expr.occurrencesList : List Expr → List Variable
  | [] => []
  | expr :: exprs => expr.occurrences ++ Expr.occurrencesList exprs

def Argument.occurrencesList : List Argument → List Variable
  | [] => []
  | .positional value :: rest => value.occurrences ++ Argument.occurrencesList rest
  | .named _ value :: rest => value.occurrences ++ Argument.occurrencesList rest
  | .output _ _ target :: rest => target.occurrences ++ Argument.occurrencesList rest

end

mutual

def Stmt.occurrences : Stmt → List Variable
  | .assign target value => target.occurrences ++ value.occurrences
  | .invoke _ arguments => Argument.occurrencesList arguments
  | .ifElse condition body elseIfs otherwise =>
      condition.occurrences ++ Stmt.occurrencesList body ++ ElseIf.occurrencesList elseIfs ++
        Stmt.occurrencesList otherwise
  | .select selector groups otherwise =>
      selector.occurrences ++ CaseGroup.occurrencesList groups ++ Stmt.occurrencesList otherwise
  | .forTo _ first last step body =>
      first.occurrences ++ last.occurrences ++ (step.map Expr.occurrences).getD [] ++
        Stmt.occurrencesList body
  | .whileDo condition body => condition.occurrences ++ Stmt.occurrencesList body
  | .repeatUntil body condition => Stmt.occurrencesList body ++ condition.occurrences
  | .leaveUnit | .leaveLoop | .pragma _ => []

def Stmt.occurrencesList : List Stmt → List Variable
  | [] => []
  | stmt :: stmts => stmt.occurrences ++ Stmt.occurrencesList stmts

def ElseIf.occurrencesList : List ElseIf → List Variable
  | [] => []
  | .mk condition body :: elseIfs =>
      condition.occurrences ++ Stmt.occurrencesList body ++ ElseIf.occurrencesList elseIfs

def CaseGroup.occurrencesList : List CaseGroup → List Variable
  | [] => []
  | .mk _ body :: groups => Stmt.occurrencesList body ++ CaseGroup.occurrencesList groups

end

/-! ## What analysis records -/

def Note.classified? : Note → Option (String × Option DataType)
  | .variable text type => some (text, type)
  | .expr _ | .enumerated .. | .call .. | .block .. => none

/-- What is recorded for variables, in the order of the walk. -/
def Findings.recorded (findings : Findings) : List (String × Option DataType) :=
  findings.notes.filterMap Note.classified?

namespace Findings

@[simp] theorem recorded_empty : ({} : Findings).recorded = [] := rfl

@[simp] theorem recorded_append (first second : Findings) :
    (first ++ second).recorded = first.recorded ++ second.recorded :=
  List.filterMap_append

@[simp] theorem recorded_ofFaults (faults : List Fault) : (ofFaults faults).recorded = [] := rfl

@[simp] theorem recorded_under (note : Note) (findings : Findings) :
    (findings.under note).recorded = note.classified?.toList ++ findings.recorded := by
  cases note <;> rfl

end Findings

/-- What the types of variables are in a scope. -/
def Context.classify (context : Context) (scope : Scope) (sources : List Variable) :
    List (String × Option DataType) :=
  sources.map fun source => (source.display, (context.variableType scope source).toOption)

section Classify

variable {context : Context} {scope : Scope}

@[simp] theorem Context.classify_nil : context.classify scope [] = [] := rfl

@[simp] theorem Context.classify_cons (source : Variable) (sources : List Variable) :
    context.classify scope (source :: sources) =
      (source.display, (context.variableType scope source).toOption) ::
        context.classify scope sources := rfl

@[simp] theorem Context.classify_append (first second : List Variable) :
    context.classify scope (first ++ second) =
      context.classify scope first ++ context.classify scope second :=
  List.map_append

theorem Context.recorded_judgeEnum (value : EnumValue) :
    (context.judgeEnum value).findings.recorded = [] := by
  unfold Context.judgeEnum
  split <;> rfl

mutual

theorem Reference.recorded_judge : ∀ reference : Reference,
    (reference.judge context scope).recorded = context.classify scope reference.occurrences
  | .named name => by simp [Reference.judge, Reference.occurrences]
  | .field record name => by
      rw [Reference.judge, Reference.occurrences]
      exact Reference.recorded_judge record
  | .element array subscripts => by
      simp [Reference.judge, Reference.occurrences, Reference.recorded_judge array,
        Expr.recorded_judgeSubscripts subscripts]

theorem Expr.recorded_judgeSubscripts : ∀ subscripts : List Expr,
    (Expr.judgeSubscripts context scope subscripts).recorded =
      context.classify scope (Expr.occurrencesList subscripts)
  | [] => by simp [Expr.judgeSubscripts, Expr.occurrencesList]
  | subscript :: subscripts => by
      simp [Expr.judgeSubscripts, Expr.occurrencesList, Expr.recorded_judge subscript,
        Expr.recorded_judgeSubscripts subscripts]

theorem Variable.recorded_judge : ∀ source : Variable,
    (source.judge context scope).findings.recorded =
      context.classify scope source.occurrences
  | .direct address => by
      rw [Variable.judge, Variable.occurrences]
      rfl
  | .symbolic reference => by
      have inner := Reference.recorded_judge reference
      rw [Variable.judge, Variable.occurrences, Context.classify_cons, ← inner,
        Context.variableType]
      cases context.referenceType scope reference with
      | ok type => simp [Note.classified?, Variable.display, Except.toOption]
      | error fault => simp [Note.classified?, Variable.display, Except.toOption]

theorem Expr.recorded_judge : ∀ expr : Expr,
    (expr.judge context scope).findings.recorded = context.classify scope expr.occurrences
  | .compare op left right => by
      have leftRecorded := Expr.recorded_judge left
      have rightRecorded := Expr.recorded_judge right
      rw [Expr.judge, Expr.occurrences, Context.classify_append, ← leftRecorded, ← rightRecorded]
      dsimp only
      split <;> simp [Note.classified?]
  | .arith op left right => by
      have leftRecorded := Expr.recorded_judge left
      have rightRecorded := Expr.recorded_judge right
      rw [Expr.judge, Expr.occurrences, Context.classify_append, ← leftRecorded, ← rightRecorded]
      dsimp only
      split <;> simp [Note.classified?]
  | .unary op term => by
      have termRecorded := Expr.recorded_judge term
      rw [Expr.judge, Expr.occurrences, ← termRecorded]
      split
      · split <;> simp [Note.classified?]
      · simp [Note.classified?]
  | .group inner => by
      rw [Expr.judge, Expr.occurrences, ← Expr.recorded_judge inner]
      simp [Note.classified?]
  | .const value => by
      rw [Expr.judge, Expr.occurrences]
      rfl
  | .enumerated value => by
      rw [Expr.judge, Expr.occurrences]
      simp [Note.classified?, Context.recorded_judgeEnum]
  | .var source => by
      rw [Expr.judge, Expr.occurrences, ← Variable.recorded_judge source]
      simp [Note.classified?]
  | .call name arguments => by
      have argumentsRecorded := Argument.recorded_judgeList arguments
      rw [Expr.judge, Expr.occurrences, ← argumentsRecorded]
      dsimp only
      split
      · simp [Note.classified?]
      · split
        · split <;> simp [Note.classified?]
        · simp [Note.classified?]

theorem Argument.recorded_judgeList : ∀ arguments : List Argument,
    (Argument.judgeList context scope arguments).2.recorded =
      context.classify scope (Argument.occurrencesList arguments)
  | [] => by simp [Argument.judgeList, Argument.occurrencesList]
  | .positional value :: rest => by
      simp [Argument.judgeList, Argument.occurrencesList, Expr.recorded_judge value,
        Argument.recorded_judgeList rest]
  | .named name value :: rest => by
      simp [Argument.judgeList, Argument.occurrencesList, Expr.recorded_judge value,
        Argument.recorded_judgeList rest]
  | .output isNegated source target :: rest => by
      simp [Argument.judgeList, Argument.occurrencesList, Variable.recorded_judge target,
        Argument.recorded_judgeList rest]

end

theorem Expr.recorded_judgeCondition (condition : Expr) :
    (condition.judgeCondition context scope).recorded =
      context.classify scope condition.occurrences := by
  rw [Expr.judgeCondition, ← Expr.recorded_judge condition]
  split
  · split <;> simp
  · rfl

theorem CaseLabel.recorded_judgeList (labels : List CaseLabel) :
    (CaseLabel.judgeList context labels).recorded = [] := by
  induction labels with
  | nil => rfl
  | cons label labels ih =>
      rw [CaseLabel.judgeList, Findings.recorded_append, ih]
      cases label with
      | enumerated value => simp [CaseLabel.judge, Context.recorded_judgeEnum]
      | range bounds | integer value => rfl

theorem recorded_judgeControl (control : Ident) (first last : Expr) (step : Option Expr) :
    (judgeControl context scope control first last step).recorded =
      context.classify scope
        (first.occurrences ++ last.occurrences ++ (step.map Expr.occurrences).getD []) := by
  cases step <;> simp [judgeControl, Expr.recorded_judge]

theorem recorded_judgeInvoke {block : Ident} {arguments : List Argument} {findings : Findings}
    (judged : judgeInvoke context scope block arguments = .ok findings) :
    findings.recorded = context.classify scope (Argument.occurrencesList arguments) := by
  rw [← Argument.recorded_judgeList arguments]
  unfold judgeInvoke at judged
  dsimp only at judged
  split at judged
  · cases judged
    simp [Note.classified?]
  · split at judged
    · cases judged
    · cases judged
      simp [Note.classified?]

mutual

theorem Stmt.recorded_judge : ∀ {stmt : Stmt} {findings : Findings},
    stmt.judge context scope = .ok findings →
      findings.recorded = context.classify scope stmt.occurrences
  | .assign target value, findings, judged => by
      rw [Stmt.judge] at judged
      cases judged
      simp [judgeAssign, Stmt.occurrences, Variable.recorded_judge, Expr.recorded_judge]
  | .invoke block arguments, findings, judged => by
      rw [Stmt.judge] at judged
      rw [Stmt.occurrences]
      exact recorded_judgeInvoke judged
  | .ifElse condition body elseIfs otherwise, findings, judged => by
      rw [Stmt.judge] at judged
      obtain ⟨first, firstJudged, judged⟩ := bind_eq_ok judged
      obtain ⟨second, secondJudged, judged⟩ := bind_eq_ok judged
      obtain ⟨third, thirdJudged, judged⟩ := bind_eq_ok judged
      cases judged
      simp [Stmt.occurrences, Expr.recorded_judgeCondition, Stmt.recorded_judgeList firstJudged,
        ElseIf.recorded_judgeList secondJudged, Stmt.recorded_judgeList thirdJudged]
  | .select selector groups otherwise, findings, judged => by
      rw [Stmt.judge] at judged
      obtain ⟨first, firstJudged, judged⟩ := bind_eq_ok judged
      obtain ⟨second, secondJudged, judged⟩ := bind_eq_ok judged
      cases judged
      simp [Stmt.occurrences, Expr.recorded_judge, CaseGroup.recorded_judgeList firstJudged,
        Stmt.recorded_judgeList secondJudged]
  | .forTo control first last step body, findings, judged => by
      rw [Stmt.judge] at judged
      obtain ⟨inner, bodyJudged, judged⟩ := bind_eq_ok judged
      cases judged
      simp [Stmt.occurrences, recorded_judgeControl, Stmt.recorded_judgeList bodyJudged]
  | .whileDo condition body, findings, judged => by
      rw [Stmt.judge] at judged
      obtain ⟨inner, bodyJudged, judged⟩ := bind_eq_ok judged
      cases judged
      simp [Stmt.occurrences, Expr.recorded_judgeCondition, Stmt.recorded_judgeList bodyJudged]
  | .repeatUntil body condition, findings, judged => by
      rw [Stmt.judge] at judged
      obtain ⟨inner, bodyJudged, judged⟩ := bind_eq_ok judged
      cases judged
      simp [Stmt.occurrences, Expr.recorded_judgeCondition, Stmt.recorded_judgeList bodyJudged]
  | .leaveUnit, findings, judged => by
      rw [Stmt.judge] at judged
      cases judged
      simp [Stmt.occurrences]
  | .leaveLoop, findings, judged => by
      rw [Stmt.judge] at judged
      cases judged
      simp [Stmt.occurrences]
  | .pragma directive, findings, judged => by
      rw [Stmt.judge] at judged
      cases judged
      simp [Stmt.occurrences]

/-- What is recorded in statements is what their variables are in the scope. -/
theorem Stmt.recorded_judgeList : ∀ {stmts : List Stmt} {findings : Findings},
    Stmt.judgeList context scope stmts = .ok findings →
      findings.recorded = context.classify scope (Stmt.occurrencesList stmts)
  | [], findings, judged => by
      rw [Stmt.judgeList] at judged
      cases judged
      simp [Stmt.occurrencesList]
  | stmt :: stmts, findings, judged => by
      rw [Stmt.judgeList] at judged
      obtain ⟨first, firstJudged, judged⟩ := bind_eq_ok judged
      obtain ⟨rest, restJudged, judged⟩ := bind_eq_ok judged
      cases judged
      simp [Stmt.occurrencesList, Stmt.recorded_judge firstJudged,
        Stmt.recorded_judgeList restJudged]

theorem ElseIf.recorded_judgeList : ∀ {elseIfs : List ElseIf} {findings : Findings},
    ElseIf.judgeList context scope elseIfs = .ok findings →
      findings.recorded = context.classify scope (ElseIf.occurrencesList elseIfs)
  | [], findings, judged => by
      rw [ElseIf.judgeList] at judged
      cases judged
      simp [ElseIf.occurrencesList]
  | .mk condition body :: elseIfs, findings, judged => by
      rw [ElseIf.judgeList] at judged
      obtain ⟨inner, bodyJudged, judged⟩ := bind_eq_ok judged
      obtain ⟨rest, restJudged, judged⟩ := bind_eq_ok judged
      cases judged
      simp [ElseIf.occurrencesList, Expr.recorded_judgeCondition,
        Stmt.recorded_judgeList bodyJudged, ElseIf.recorded_judgeList restJudged]

theorem CaseGroup.recorded_judgeList : ∀ {groups : List CaseGroup} {findings : Findings},
    CaseGroup.judgeList context scope groups = .ok findings →
      findings.recorded = context.classify scope (CaseGroup.occurrencesList groups)
  | [], findings, judged => by
      rw [CaseGroup.judgeList] at judged
      cases judged
      simp [CaseGroup.occurrencesList]
  | .mk labels body :: groups, findings, judged => by
      rw [CaseGroup.judgeList] at judged
      obtain ⟨inner, bodyJudged, judged⟩ := bind_eq_ok judged
      obtain ⟨rest, restJudged, judged⟩ := bind_eq_ok judged
      cases judged
      simp [CaseGroup.occurrencesList, CaseLabel.recorded_judgeList,
        Stmt.recorded_judgeList bodyJudged, CaseGroup.recorded_judgeList restJudged]

end

/-! ## Occurrences in accepted bodies -/

mutual

theorem Reference.accepted_occurrences : ∀ {reference : Reference},
    (reference.judge context scope).faults = [] →
      ∀ source ∈ reference.occurrences, source.Accepted context scope
  | .named name, _, source, member => by
      rw [Reference.occurrences] at member
      cases member
  | .field record name, clean, source, member => by
      rw [Reference.judge] at clean
      rw [Reference.occurrences] at member
      exact Reference.accepted_occurrences clean source member
  | .element array subscripts, clean, source, member => by
      rw [Reference.judge, Findings.faults_append, List.append_eq_nil_iff] at clean
      rw [Reference.occurrences] at member
      rcases List.mem_append.mp member with inArray | inSubscripts
      · exact Reference.accepted_occurrences clean.1 source inArray
      · exact Expr.accepted_occurrencesList clean.2 source inSubscripts

theorem Expr.accepted_occurrencesList : ∀ {subscripts : List Expr},
    Expr.SubscriptsAccepted context scope subscripts →
      ∀ source ∈ Expr.occurrencesList subscripts, source.Accepted context scope
  | [], _, source, member => by
      rw [Expr.occurrencesList] at member
      cases member
  | subscript :: subscripts, accepted, source, member => by
      obtain ⟨firstAccepted, restAccepted⟩ := Expr.accepted_subscripts_cons accepted
      rw [Expr.occurrencesList] at member
      rcases List.mem_append.mp member with inFirst | inRest
      · exact Expr.accepted_occurrences firstAccepted source inFirst
      · exact Expr.accepted_occurrencesList restAccepted source inRest

theorem Variable.accepted_occurrences : ∀ {whole : Variable}, whole.Accepted context scope →
    ∀ source ∈ whole.occurrences, source.Accepted context scope
  | .direct address, accepted, source, member => by
      rw [Variable.occurrences] at member
      rw [List.mem_singleton.mp member]
      exact accepted
  | .symbolic reference, accepted, source, member => by
      rw [Variable.occurrences] at member
      rcases List.mem_cons.mp member with isWhole | inSubscripts
      · rw [isWhole]
        exact accepted
      · obtain ⟨clean, -⟩ := Variable.accepted_symbolic accepted
        exact Reference.accepted_occurrences clean source inSubscripts

theorem Expr.accepted_occurrences : ∀ {expr : Expr}, expr.Accepted context scope →
    ∀ source ∈ expr.occurrences, source.Accepted context scope
  | .compare op left right, accepted, source, member => by
      obtain ⟨leftAccepted, rightAccepted⟩ := Expr.accepted_compare accepted
      rw [Expr.occurrences] at member
      rcases List.mem_append.mp member with inLeft | inRight
      · exact Expr.accepted_occurrences leftAccepted source inLeft
      · exact Expr.accepted_occurrences rightAccepted source inRight
  | .arith op left right, accepted, source, member => by
      obtain ⟨leftAccepted, rightAccepted⟩ := Expr.accepted_arith accepted
      rw [Expr.occurrences] at member
      rcases List.mem_append.mp member with inLeft | inRight
      · exact Expr.accepted_occurrences leftAccepted source inLeft
      · exact Expr.accepted_occurrences rightAccepted source inRight
  | .unary op term, accepted, source, member => by
      rw [Expr.occurrences] at member
      exact Expr.accepted_occurrences (Expr.accepted_unary accepted) source member
  | .group inner, accepted, source, member => by
      rw [Expr.occurrences] at member
      exact Expr.accepted_occurrences (Expr.accepted_group accepted) source member
  | .const value, _, source, member => by
      rw [Expr.occurrences] at member
      cases member
  | .enumerated value, _, source, member => by
      rw [Expr.occurrences] at member
      cases member
  | .var whole, accepted, source, member => by
      rw [Expr.occurrences] at member
      exact Variable.accepted_occurrences (Expr.accepted_var accepted) source member
  | .call name arguments, accepted, source, member => by
      rw [Expr.occurrences] at member
      exact Argument.accepted_occurrencesList (Expr.accepted_call accepted).1 source member

theorem Argument.accepted_occurrencesList : ∀ {arguments : List Argument},
    Argument.ListAccepted context scope arguments →
      ∀ source ∈ Argument.occurrencesList arguments, source.Accepted context scope
  | [], _, source, member => by
      rw [Argument.occurrencesList] at member
      cases member
  | .positional value :: rest, accepted, source, member => by
      obtain ⟨valueAccepted, restAccepted⟩ := Argument.listAccepted_cons.mp accepted
      rw [Argument.occurrencesList] at member
      rcases List.mem_append.mp member with inValue | inRest
      · exact Expr.accepted_occurrences valueAccepted source inValue
      · exact Argument.accepted_occurrencesList restAccepted source inRest
  | .named name value :: rest, accepted, source, member => by
      obtain ⟨valueAccepted, restAccepted⟩ := Argument.listAccepted_cons.mp accepted
      rw [Argument.occurrencesList] at member
      rcases List.mem_append.mp member with inValue | inRest
      · exact Expr.accepted_occurrences valueAccepted source inValue
      · exact Argument.accepted_occurrencesList restAccepted source inRest
  | .output isNegated name target :: rest, accepted, source, member => by
      obtain ⟨targetAccepted, restAccepted⟩ := Argument.listAccepted_cons.mp accepted
      rw [Argument.occurrencesList] at member
      rcases List.mem_append.mp member with inTarget | inRest
      · exact Variable.accepted_occurrences targetAccepted source inTarget
      · exact Argument.accepted_occurrencesList restAccepted source inRest

end

mutual

theorem Stmt.accepted_occurrences : ∀ {stmt : Stmt}, stmt.Accepted context scope →
    ∀ source ∈ stmt.occurrences, source.Accepted context scope
  | .assign target value, accepted, source, member => by
      obtain ⟨targetAccepted, valueAccepted⟩ := Stmt.accepted_assign accepted
      rw [Stmt.occurrences] at member
      rcases List.mem_append.mp member with inTarget | inValue
      · exact Variable.accepted_occurrences targetAccepted source inTarget
      · exact Expr.accepted_occurrences valueAccepted source inValue
  | .invoke block arguments, accepted, source, member => by
      rw [Stmt.occurrences] at member
      exact Argument.accepted_occurrencesList (Stmt.accepted_invoke accepted).1 source member
  | .ifElse condition body elseIfs otherwise, accepted, source, member => by
      obtain ⟨conditionAccepted, bodyAccepted, elseIfsAccepted, otherwiseAccepted⟩ :=
        Stmt.accepted_ifElse accepted
      rw [Stmt.occurrences] at member
      simp only [List.mem_append] at member
      rcases member with ((inCondition | inBody) | inElseIfs) | inOtherwise
      · exact Expr.accepted_occurrences conditionAccepted source inCondition
      · exact Stmt.accepted_occurrencesList bodyAccepted source inBody
      · exact ElseIf.accepted_occurrencesList elseIfsAccepted source inElseIfs
      · exact Stmt.accepted_occurrencesList otherwiseAccepted source inOtherwise
  | .select selector groups otherwise, accepted, source, member => by
      obtain ⟨selectorAccepted, groupsAccepted, otherwiseAccepted⟩ :=
        Stmt.accepted_select accepted
      rw [Stmt.occurrences] at member
      simp only [List.mem_append] at member
      rcases member with (inSelector | inGroups) | inOtherwise
      · exact Expr.accepted_occurrences selectorAccepted source inSelector
      · exact CaseGroup.accepted_occurrencesList groupsAccepted source inGroups
      · exact Stmt.accepted_occurrencesList otherwiseAccepted source inOtherwise
  | .forTo control first last step body, accepted, source, member => by
      obtain ⟨-, firstAccepted, lastAccepted, stepAccepted, bodyAccepted⟩ :=
        Stmt.accepted_forTo accepted
      rw [Stmt.occurrences] at member
      simp only [List.mem_append] at member
      rcases member with ((inFirst | inLast) | inStep) | inBody
      · exact Expr.accepted_occurrences firstAccepted source inFirst
      · exact Expr.accepted_occurrences lastAccepted source inLast
      · cases step with
        | none => cases inStep
        | some value => exact Expr.accepted_occurrences (stepAccepted value rfl) source inStep
      · exact Stmt.accepted_occurrencesList bodyAccepted source inBody
  | .whileDo condition body, accepted, source, member => by
      obtain ⟨conditionAccepted, bodyAccepted⟩ := Stmt.accepted_whileDo accepted
      rw [Stmt.occurrences] at member
      rcases List.mem_append.mp member with inCondition | inBody
      · exact Expr.accepted_occurrences conditionAccepted source inCondition
      · exact Stmt.accepted_occurrencesList bodyAccepted source inBody
  | .repeatUntil body condition, accepted, source, member => by
      obtain ⟨conditionAccepted, bodyAccepted⟩ := Stmt.accepted_repeatUntil accepted
      rw [Stmt.occurrences] at member
      rcases List.mem_append.mp member with inBody | inCondition
      · exact Stmt.accepted_occurrencesList bodyAccepted source inBody
      · exact Expr.accepted_occurrences conditionAccepted source inCondition
  | .leaveUnit, _, source, member => by
      rw [Stmt.occurrences] at member
      cases member
  | .leaveLoop, _, source, member => by
      rw [Stmt.occurrences] at member
      cases member
  | .pragma directive, _, source, member => by
      rw [Stmt.occurrences] at member
      cases member

theorem Stmt.accepted_occurrencesList : ∀ {stmts : List Stmt},
    Stmt.ListAccepted context scope stmts →
      ∀ source ∈ Stmt.occurrencesList stmts, source.Accepted context scope
  | [], _, source, member => by
      rw [Stmt.occurrencesList] at member
      cases member
  | stmt :: stmts, accepted, source, member => by
      obtain ⟨firstAccepted, restAccepted⟩ := Stmt.listAccepted_cons accepted
      rw [Stmt.occurrencesList] at member
      rcases List.mem_append.mp member with inFirst | inRest
      · exact Stmt.accepted_occurrences firstAccepted source inFirst
      · exact Stmt.accepted_occurrencesList restAccepted source inRest

theorem ElseIf.accepted_occurrencesList : ∀ {elseIfs : List ElseIf},
    ElseIf.ListAccepted context scope elseIfs →
      ∀ source ∈ ElseIf.occurrencesList elseIfs, source.Accepted context scope
  | [], _, source, member => by
      rw [ElseIf.occurrencesList] at member
      cases member
  | .mk condition body :: elseIfs, accepted, source, member => by
      obtain ⟨conditionAccepted, bodyAccepted, restAccepted⟩ := ElseIf.listAccepted_cons accepted
      rw [ElseIf.occurrencesList] at member
      simp only [List.mem_append] at member
      rcases member with (inCondition | inBody) | inRest
      · exact Expr.accepted_occurrences conditionAccepted source inCondition
      · exact Stmt.accepted_occurrencesList bodyAccepted source inBody
      · exact ElseIf.accepted_occurrencesList restAccepted source inRest

theorem CaseGroup.accepted_occurrencesList : ∀ {groups : List CaseGroup},
    CaseGroup.ListAccepted context scope groups →
      ∀ source ∈ CaseGroup.occurrencesList groups, source.Accepted context scope
  | [], _, source, member => by
      rw [CaseGroup.occurrencesList] at member
      cases member
  | .mk labels body :: groups, accepted, source, member => by
      obtain ⟨-, bodyAccepted, restAccepted⟩ := CaseGroup.listAccepted_cons accepted
      rw [CaseGroup.occurrencesList] at member
      rcases List.mem_append.mp member with inBody | inRest
      · exact Stmt.accepted_occurrencesList bodyAccepted source inBody
      · exact CaseGroup.accepted_occurrencesList restAccepted source inRest

end

end Classify

/-! ## The scope of lowering -/

/-- The scope that lowering makes for an element after the functions declared `earlier`. -/
def Element.rebuiltScope (context : Context) (earlier : List FunctionDecl) :
    Element → Except Fault Scope
  | .function decl =>
      match context.declaredSignature? decl.name
          ((earlier.map FunctionDecl.name).count decl.name) with
      | none => .error (.internal .callNotResolved decl.name.span)
      | some signature =>
          unitScope context (functionOuterScope decl.name signature.returnType) decl.vars
  | .functionBlock decl => unitScope context blockOuterScope decl.vars
  | .program decl => unitScope context ScopeStack.new decl.vars
  | .type _ | .pragma _ => unitScope context ScopeStack.new []

theorem Library.functions_split {library : Library} {before later : List Element}
    {element : Element} (position : library.elements = before ++ element :: later) :
    library.functions = Library.functions { elements := before } ++
      Library.functions { elements := element :: later } := by
  unfold Library.functions
  rw [position, List.filterMap_append]

section Library

variable {context : Context} {library : Library} {withConversions : Bool}
  (userCode : library.IsUserCode)
  (resolved : Context.resolve library withConversions = .ok context)
  {before later : List Element} {element : Element}
  (position : library.elements = before ++ element :: later)

include userCode resolved position

theorem Element.rebuiltScope_of_accepted (accepted : element.Accepted context) :
    element.rebuiltScope context (Library.functions { elements := before }) =
      .ok (element.innerScope context ScopeStack.new) := by
  cases element with
  | function decl =>
      obtain ⟨signature, made, -, found⟩ :=
        Context.declaredSignature?_of_resolve resolved userCode (Library.functions_split position)
      obtain ⟨-, -, typed, -⟩ := FunctionDecl.signature_ok made
      rw [Element.rebuiltScope, found]
      exact FunctionDecl.unitScope_of_accepted typed accepted
  | functionBlock decl => exact FunctionBlockDecl.unitScope_of_accepted accepted
  | program decl => exact ProgramDecl.unitScope_of_accepted accepted
  | type decl | pragma directive => rfl

/-- At any element, what analysis records for the variables that occur is what they are in
the scope that lowering makes, and both find the same declarations. -/
theorem Library.references_agree {notes : List Note}
    (checked : library.check context = .ok notes) :
    ∃ earlier left found rest rebuilt,
      Element.judgeList context ScopeStack.new before = .ok (earlier, left) ∧
        element.judge context left = .ok (found, left) ∧
        Stmt.judgeList context (element.innerScope context left) element.body = .ok found ∧
        notes = earlier.notes ++ (found.notes ++ rest) ∧
        element.rebuiltScope context (Library.functions { elements := before }) = .ok rebuilt ∧
        found.recorded = context.classify rebuilt (Stmt.occurrencesList element.body) ∧
        (∀ source ∈ Stmt.occurrencesList element.body,
          ∃ type, context.variableType rebuilt source = .ok type) ∧
        ∀ reference, .symbolic reference ∈ Stmt.occurrencesList element.body →
          ∃ entry, (element.innerScope context left).entryFor? reference = some entry ∧
            rebuilt.entryFor? reference = some entry := by
  have accepted : element.Accepted context := by
    apply Library.accepted_of_check checked
    rw [position]
    exact List.mem_append_right _ (List.mem_cons_self ..)
  have rebuilt := Element.rebuiltScope_of_accepted userCode resolved position accepted
  obtain ⟨findings, after, judged, -, rfl⟩ := Library.check_ok checked
  rw [position] at judged
  obtain ⟨earlier, found, last, earlierJudged, elementJudged, -, -, notes⟩ :=
    Element.judgeList_split judged
  obtain ⟨-, inside, bodyJudged, same⟩ := Element.judge_ok elementJudged
  have sameFindings : found = inside := by
    rw [same, accepted.declarations]
    rfl
  subst sameFindings
  have occurrencesAccepted := Stmt.accepted_occurrencesList accepted.body
  refine ⟨earlier, ScopeStack.new, found, last.notes,
    element.innerScope context ScopeStack.new, earlierJudged, elementJudged, bodyJudged,
    notes, rebuilt, Stmt.recorded_judgeList bodyJudged, ?_, ?_⟩
  · intro source member
    exact (occurrencesAccepted source member).type
  · intro reference member
    obtain ⟨-, type, typed⟩ := Variable.accepted_symbolic (occurrencesAccepted _ member)
    obtain ⟨entry, isEntry⟩ := Context.entry_of_referenceType typed
    exact ⟨entry, isEntry, isEntry⟩

end Library

/-- A function with two declarations, each of which has a result of another type under the
name of the function. -/
def pickers : Library where
  elements :=
    [.function
        { name := "Pick", returnType := "INT"
          vars :=
            [{ VarDecl.simple "X" "INT" with kind := .input },
              VarDecl.array "log" [{ start := .ofInt 0, stop := .ofInt 3 }] "INT"]
          body :=
            [.assign (.elementOf "log" [.var (.elementOf "log" [.named "X"])]) (.named "X"),
              .copy "Pick" "X"] },
      .function
        { name := "Pick", returnType := "BOOL"
          vars := [{ VarDecl.simple "X" "BOOL" with kind := .input }]
          body := [.copy "Pick" "X"] }]

theorem pickers_isUserCode : pickers.IsUserCode := by
  intro decl member
  simp only [pickers, Library.functions, List.filterMap_cons, List.filterMap_nil,
    List.mem_cons, List.not_mem_nil, or_false] at member
  rcases member with rfl | rfl <;> rfl

theorem pickers_isAccepted : pickers.isAccepted false = true := by
  decide +kernel

theorem Library.references_agree_pickers :
    pickers.IsUserCode ∧ ∃ context notes, Context.resolve pickers = .ok context ∧
      pickers.check context = .ok notes ∧
      ∃ earlier left found rest rebuilt,
        Element.judgeList context ScopeStack.new (pickers.elements.take 1) = .ok (earlier, left) ∧
          Element.judge context left pickers.elements[1] = .ok (found, left) ∧
          Stmt.judgeList context (Element.innerScope context left pickers.elements[1])
            (Element.body pickers.elements[1]) = .ok found ∧
          notes = earlier.notes ++ (found.notes ++ rest) ∧
          Element.rebuiltScope context (Library.functions { elements := pickers.elements.take 1 })
            pickers.elements[1] = .ok rebuilt ∧
          found.recorded =
            context.classify rebuilt (Stmt.occurrencesList (Element.body pickers.elements[1])) ∧
          (∀ source ∈ Stmt.occurrencesList (Element.body pickers.elements[1]),
            ∃ type, context.variableType rebuilt source = .ok type) ∧
          ∀ reference, .symbolic reference ∈
              Stmt.occurrencesList (Element.body pickers.elements[1]) →
            ∃ entry, (Element.innerScope context left pickers.elements[1]).entryFor? reference =
                some entry ∧
              rebuilt.entryFor? reference = some entry := by
  obtain ⟨context, notes, resolved, checked⟩ := Library.exists_of_isAccepted pickers_isAccepted
  exact ⟨pickers_isUserCode, context, notes, resolved, checked,
    Library.references_agree pickers_isUserCode resolved rfl checked⟩

end StructuredText
