import StructuredText.Lowering.Unit
import StructuredText.Proofs.Analysis.Accepted
import StructuredText.Proofs.Scope.History

/-!
# The scope of a unit

Analysis takes one stack of scopes through the whole library and leaves every scope
that it enters.  So each element is met in the outermost scope, and the scope that a
unit has in analysis can be made again from the unit alone.
-/

set_option autoImplicit false

namespace StructuredText

namespace Scope

variable {context : Context}

/-! ## Declarations -/

theorem enclosing_declareOne (scope : Scope) (decl : VarDecl) :
    (declareOne context scope decl).1.enclosing = scope.enclosing := by
  unfold declareOne
  split
  · rfl
  · split
    · rfl
    · split
      · rfl
      · exact ScopeStack.enclosing_tryBind ..

theorem enclosing_declare {vars : List VarDecl} :
    ∀ {scope : Scope}, (declare context scope vars).1.enclosing = scope.enclosing := by
  induction vars with
  | nil => exact rfl
  | cons decl vars ih =>
      intro scope
      rw [declare]
      exact ih.trans (enclosing_declareOne scope decl)

theorem pop_declare (scope : Scope) (vars : List VarDecl) :
    (declare context scope.push vars).1.pop = .ok scope := by
  unfold ScopeStack.pop
  rw [enclosing_declare]
  rfl

theorem typeOf_of_declare {vars : List VarDecl} :
    ∀ {scope : Scope}, (declare context scope vars).2 = [] →
      ∀ decl ∈ vars, ∀ name, decl.name.ident? = some name →
        ∃ type, context.typeOf decl = .ok type := by
  induction vars with
  | nil =>
      intro scope _ decl member
      cases member
  | cons first vars ih =>
      intro scope clean decl member name named
      rw [declare] at clean
      obtain ⟨firstClean, restClean⟩ := List.append_eq_nil_iff.mp clean
      rcases List.mem_cons.mp member with isFirst | inRest
      · subst isFirst
        cases typed : context.typeOf decl with
        | ok type => exact ⟨type, rfl⟩
        | error fault => simp [declareOne, named, typed] at firstClean
      · exact ih restClean decl inRest name named

theorem unitScope_of_declare {outer : Scope} {vars : List VarDecl}
    (clean : (declare context outer.push vars).2 = []) :
    unitScope context outer vars = .ok (declare context outer.push vars).1 := by
  unfold unitScope
  cases made : declare context outer.push vars with
  | mk scope faults =>
      rw [made] at clean
      dsimp only at clean
      subst clean
      rfl

end Scope

/-! ## Units in analysis -/

def Element.body : Element → List Stmt
  | function decl => decl.body
  | functionBlock decl => decl.body
  | program decl => decl.body
  | type _ | pragma _ => []

section Element

variable (context : Context) (scope : Scope)

def Element.outerScope : Element → Scope
  | function decl => decl.outerScope context scope
  | functionBlock _ => Scope.declareImplicit scope.push
  | type _ | program _ | pragma _ => scope

/-- The scope in which the statements of an element are judged. -/
def Element.innerScope (element : Element) : Scope :=
  (Scope.declare context (element.outerScope context scope).push element.vars).1

/-- The faults in the declarations of an element. -/
def Element.declarationFaults (element : Element) : List Fault :=
  (Scope.declare context (element.outerScope context scope).push element.vars).2

end Element

variable {context : Context} {scope : Scope}

theorem judgeUnit_ok {vars : List VarDecl} {body : List Stmt} {findings : Findings}
    {after : Scope} (judged : judgeUnit context scope vars body = .ok (findings, after)) :
    after = scope ∧ ∃ inside,
      Stmt.judgeList context (Scope.declare context scope.push vars).1 body = .ok inside ∧
        findings = .ofFaults (Scope.declare context scope.push vars).2 ++ inside := by
  unfold judgeUnit at judged
  dsimp only at judged
  obtain ⟨inside, bodyJudged, judged⟩ := bind_eq_ok judged
  rw [Scope.pop_declare] at judged
  cases judged
  exact ⟨rfl, inside, bodyJudged, rfl⟩

theorem FunctionDecl.pop_outerScope (decl : FunctionDecl) :
    (decl.outerScope context scope).pop = .ok scope := by
  unfold FunctionDecl.outerScope
  split <;> rfl

/-- Judging an element comes down to its declarations and its statements, and leaves the
scope as it was. -/
theorem Element.judge_ok {element : Element} {findings : Findings} {after : Scope}
    (judged : element.judge context scope = .ok (findings, after)) :
    after = scope ∧ ∃ inside,
      Stmt.judgeList context (element.innerScope context scope) element.body = .ok inside ∧
        findings = .ofFaults (element.declarationFaults context scope) ++ inside := by
  cases element with
  | function decl =>
      obtain ⟨⟨unitFindings, outer⟩, unitJudged, judged⟩ := bind_eq_ok judged
      obtain ⟨rfl, inside, bodyJudged, rfl⟩ := judgeUnit_ok unitJudged
      dsimp only at judged
      rw [FunctionDecl.pop_outerScope] at judged
      cases judged
      exact ⟨rfl, inside, bodyJudged, rfl⟩
  | functionBlock decl =>
      obtain ⟨⟨unitFindings, outer⟩, unitJudged, judged⟩ := bind_eq_ok judged
      obtain ⟨rfl, inside, bodyJudged, rfl⟩ := judgeUnit_ok unitJudged
      cases judged
      exact ⟨rfl, inside, bodyJudged, rfl⟩
  | program decl => exact judgeUnit_ok judged
  | type decl | pragma directive =>
      cases judged
      exact ⟨rfl, {}, by rw [Element.body, Stmt.judgeList], rfl⟩

theorem Element.judgeList_split {before : List Element} {element : Element}
    {later : List Element} {findings : Findings} {after : Scope} :
    Element.judgeList context scope (before ++ element :: later) = .ok (findings, after) →
      ∃ first middle last,
        Element.judgeList context scope before = .ok (first, scope) ∧
          element.judge context scope = .ok (middle, scope) ∧
          Element.judgeList context scope later = .ok (last, after) ∧
          findings.faults = first.faults ++ (middle.faults ++ last.faults) ∧
          findings.notes = first.notes ++ (middle.notes ++ last.notes) := by
  induction before generalizing findings with
  | nil =>
      intro judged
      rw [List.nil_append, Element.judgeList] at judged
      obtain ⟨⟨middle, unchanged⟩, elementJudged, judged⟩ := bind_eq_ok judged
      obtain ⟨⟨last, final⟩, laterJudged, judged⟩ := bind_eq_ok judged
      cases judged
      obtain ⟨rfl, -⟩ := Element.judge_ok elementJudged
      exact ⟨{}, middle, last, rfl, elementJudged, laterJudged, rfl, rfl⟩
  | cons head before ih =>
      intro judged
      rw [List.cons_append, Element.judgeList] at judged
      obtain ⟨⟨headFindings, unchanged⟩, headJudged, judged⟩ := bind_eq_ok judged
      obtain ⟨⟨rest, final⟩, restJudged, judged⟩ := bind_eq_ok judged
      cases judged
      obtain ⟨rfl, -⟩ := Element.judge_ok headJudged
      obtain ⟨first, middle, last, firstJudged, middleJudged, lastJudged, faults, notes⟩ :=
        ih restJudged
      refine ⟨headFindings ++ first, middle, last, ?_, middleJudged, lastJudged, ?_, ?_⟩
      · rw [Element.judgeList, headJudged]
        show (Element.judgeList context unchanged before >>= _) = _
        rw [firstJudged]
        rfl
      · rw [Findings.faults_append, Findings.faults_append, faults, List.append_assoc]
      · rw [Findings.notes_append, Findings.notes_append, notes, List.append_assoc]

/-! ## Accepted units -/

/-- An element whose declarations and statements have no faults where it stands. -/
structure Element.Accepted (context : Context) (element : Element) : Prop where
  declarations : element.declarationFaults context ScopeStack.new = []
  body : Stmt.ListAccepted context (element.innerScope context ScopeStack.new) element.body

theorem Library.check_ok {library : Library} {notes : List Note}
    (checked : library.check context = .ok notes) :
    ∃ findings after, Element.judgeList context ScopeStack.new library.elements =
        .ok (findings, after) ∧ findings.faults = [] ∧ findings.notes = notes := by
  unfold Library.check at checked
  split at checked
  · cases checked
  · next findings after judged =>
      split at checked
      · next clean =>
          cases checked
          exact ⟨findings, after, judged, clean, rfl⟩
      · cases checked

theorem Library.accepted_of_check {library : Library} {notes : List Note}
    (checked : library.check context = .ok notes) :
    ∀ element ∈ library.elements, element.Accepted context := by
  intro element member
  obtain ⟨findings, after, judged, clean, -⟩ := Library.check_ok checked
  obtain ⟨before, later, position⟩ := List.append_of_mem member
  rw [position] at judged
  obtain ⟨first, middle, last, -, elementJudged, -, faults, -⟩ :=
    Element.judgeList_split judged
  rw [clean] at faults
  have middleClean : middle.faults = [] := by simp_all
  obtain ⟨-, inside, bodyJudged, rfl⟩ := Element.judge_ok elementJudged
  rw [Findings.faults_append, Findings.faults_ofFaults, List.append_eq_nil_iff] at middleClean
  exact ⟨middleClean.1, inside, bodyJudged, middleClean.2⟩

/-- The context of a library without standard conversions, if analysis accepts the library
in it. -/
def Library.accepted? (library : Library) : Option Context := do
  let context ← (Context.resolve library).toOption
  let _ ← (library.check context).toOption
  return context

theorem Library.of_accepted? {library : Library} (found : library.accepted? = some context) :
    Context.resolve library = .ok context ∧ ∃ notes, library.check context = .ok notes := by
  obtain ⟨candidate, isContext, found⟩ := Option.bind_eq_some_iff.mp found
  obtain ⟨notes, isNotes, found⟩ := Option.bind_eq_some_iff.mp found
  cases found
  exact ⟨eq_ok_of_toOption isContext, notes, eq_ok_of_toOption isNotes⟩

/-! ## Units in lowering -/

/-- The scope of a function, made again from the type in its signature. -/
theorem FunctionDecl.unitScope_of_accepted {decl : FunctionDecl} {returnType : DataType}
    (typed : context.types.type? decl.returnType = some returnType)
    (accepted : Element.Accepted context (.function decl)) :
    unitScope context (functionOuterScope decl.name returnType) decl.vars =
      .ok (Element.innerScope context ScopeStack.new (.function decl)) := by
  have sameOuter : functionOuterScope decl.name returnType =
      Element.outerScope context ScopeStack.new (.function decl) := by
    rw [Element.outerScope, FunctionDecl.outerScope, typed]
    rfl
  rw [sameOuter]
  exact Scope.unitScope_of_declare accepted.declarations

theorem FunctionBlockDecl.unitScope_of_accepted {decl : FunctionBlockDecl}
    (accepted : Element.Accepted context (.functionBlock decl)) :
    unitScope context blockOuterScope decl.vars =
      .ok (Element.innerScope context ScopeStack.new (.functionBlock decl)) :=
  Scope.unitScope_of_declare accepted.declarations

theorem ProgramDecl.unitScope_of_accepted {decl : ProgramDecl}
    (accepted : Element.Accepted context (.program decl)) :
    unitScope context ScopeStack.new decl.vars =
      .ok (Element.innerScope context ScopeStack.new (.program decl)) :=
  Scope.unitScope_of_declare accepted.declarations

end StructuredText
