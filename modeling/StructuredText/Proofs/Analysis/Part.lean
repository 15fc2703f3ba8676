import StructuredText.Proofs.Analysis.Accepted
import StructuredText.Proofs.Tree.Inside

/-!
# Acceptance of the parts of a body

Whatever is in an accepted expression is accepted, and so is every statement in accepted
statements, however deep it is nested.
-/

set_option autoImplicit false

namespace StructuredText

section Accepted

variable {context : Context} {scope : Scope}

mutual

theorem Reference.accepted_parts : ∀ {reference : Reference},
    (reference.judge context scope).faults = [] →
      ∀ part ∈ reference.parts, part.Accepted context scope
  | .named name, _, part, member => by
      rw [Reference.parts] at member
      cases member
  | .field record name, accepted, part, member => by
      rw [Reference.judge] at accepted
      rw [Reference.parts] at member
      exact Reference.accepted_parts accepted part member
  | .element array subscripts, accepted, part, member => by
      rw [Reference.judge, Findings.faults_append, List.append_eq_nil_iff] at accepted
      rw [Reference.parts] at member
      rcases List.mem_append.mp member with inArray | inSubscripts
      · exact Reference.accepted_parts accepted.1 part inArray
      · exact Expr.accepted_partsList accepted.2 part inSubscripts

theorem Variable.accepted_parts : ∀ {source : Variable}, source.Accepted context scope →
    ∀ part ∈ source.parts, part.Accepted context scope
  | .direct address, _, part, member => by
      rw [Variable.parts] at member
      cases member
  | .symbolic reference, accepted, part, member => by
      rw [Variable.parts] at member
      exact Reference.accepted_parts (Variable.accepted_symbolic accepted).1 part member

theorem Expr.accepted_parts : ∀ {expr : Expr}, expr.Accepted context scope →
    ∀ part ∈ expr.parts, part.Accepted context scope
  | .compare op left right, accepted, part, member => by
      obtain ⟨leftAccepted, rightAccepted⟩ := Expr.accepted_compare accepted
      rw [Expr.parts, List.mem_cons, List.mem_append] at member
      rcases member with rfl | inLeft | inRight
      · exact accepted
      · exact Expr.accepted_parts leftAccepted part inLeft
      · exact Expr.accepted_parts rightAccepted part inRight
  | .arith op left right, accepted, part, member => by
      obtain ⟨leftAccepted, rightAccepted⟩ := Expr.accepted_arith accepted
      rw [Expr.parts, List.mem_cons, List.mem_append] at member
      rcases member with rfl | inLeft | inRight
      · exact accepted
      · exact Expr.accepted_parts leftAccepted part inLeft
      · exact Expr.accepted_parts rightAccepted part inRight
  | .unary op term, accepted, part, member => by
      rw [Expr.parts, List.mem_cons] at member
      rcases member with rfl | inTerm
      · exact accepted
      · exact Expr.accepted_parts (Expr.accepted_unary accepted) part inTerm
  | .group inner, accepted, part, member => by
      rw [Expr.parts, List.mem_cons] at member
      rcases member with rfl | inside
      · exact accepted
      · exact Expr.accepted_parts (Expr.accepted_group accepted) part inside
  | .const value, accepted, part, member => by
      rw [Expr.parts, List.mem_singleton] at member
      exact member ▸ accepted
  | .enumerated value, accepted, part, member => by
      rw [Expr.parts, List.mem_singleton] at member
      exact member ▸ accepted
  | .var source, accepted, part, member => by
      rw [Expr.parts, List.mem_cons] at member
      rcases member with rfl | inSource
      · exact accepted
      · exact Variable.accepted_parts (Expr.accepted_var accepted) part inSource
  | .call function arguments, accepted, part, member => by
      rw [Expr.parts, List.mem_cons] at member
      rcases member with rfl | inArguments
      · exact accepted
      · exact Argument.accepted_partsList (Expr.accepted_call accepted).1 part inArguments

theorem Expr.accepted_partsList : ∀ {subscripts : List Expr},
    Expr.SubscriptsAccepted context scope subscripts →
      ∀ part ∈ Expr.partsList subscripts, part.Accepted context scope
  | [], _, part, member => by
      rw [Expr.partsList] at member
      cases member
  | subscript :: subscripts, accepted, part, member => by
      obtain ⟨firstAccepted, restAccepted⟩ := Expr.accepted_subscripts_cons accepted
      rw [Expr.partsList] at member
      rcases List.mem_append.mp member with inFirst | inRest
      · exact Expr.accepted_parts firstAccepted part inFirst
      · exact Expr.accepted_partsList restAccepted part inRest

theorem Argument.accepted_partsList : ∀ {arguments : List Argument},
    Argument.ListAccepted context scope arguments →
      ∀ part ∈ Argument.partsList arguments, part.Accepted context scope
  | [], _, part, member => by
      rw [Argument.partsList] at member
      cases member
  | .positional value :: rest, accepted, part, member => by
      obtain ⟨valueAccepted, restAccepted⟩ := Argument.listAccepted_cons.mp accepted
      rw [Argument.partsList] at member
      rcases List.mem_append.mp member with inValue | inRest
      · exact Expr.accepted_parts valueAccepted part inValue
      · exact Argument.accepted_partsList restAccepted part inRest
  | .named name value :: rest, accepted, part, member => by
      obtain ⟨valueAccepted, restAccepted⟩ := Argument.listAccepted_cons.mp accepted
      rw [Argument.partsList] at member
      rcases List.mem_append.mp member with inValue | inRest
      · exact Expr.accepted_parts valueAccepted part inValue
      · exact Argument.accepted_partsList restAccepted part inRest
  | .output isNegated name target :: rest, accepted, part, member => by
      obtain ⟨targetAccepted, restAccepted⟩ := Argument.listAccepted_cons.mp accepted
      rw [Argument.partsList] at member
      rcases List.mem_append.mp member with inTarget | inRest
      · exact Variable.accepted_parts targetAccepted part inTarget
      · exact Argument.accepted_partsList restAccepted part inRest

end

theorem ElseIf.accepted_conditions : ∀ {elseIfs : List ElseIf},
    ElseIf.ListAccepted context scope elseIfs →
      ∀ elseIf ∈ elseIfs, elseIf.condition.Accepted context scope
  | .mk condition body :: elseIfs, accepted, elseIf, member => by
      obtain ⟨conditionAccepted, -, restAccepted⟩ := ElseIf.listAccepted_cons accepted
      rcases List.mem_cons.mp member with rfl | inRest
      · exact conditionAccepted
      · exact ElseIf.accepted_conditions restAccepted elseIf inRest

theorem Stmt.accepted_parts {stmt : Stmt} (accepted : stmt.Accepted context scope) :
    ∀ part ∈ stmt.parts, part.Accepted context scope := by
  intro part member
  cases stmt with
  | assign target value =>
      obtain ⟨targetAccepted, valueAccepted⟩ := Stmt.accepted_assign accepted
      rcases List.mem_append.mp member with inTarget | inValue
      · exact Variable.accepted_parts targetAccepted part inTarget
      · exact Expr.accepted_parts valueAccepted part inValue
  | invoke block arguments =>
      exact Argument.accepted_partsList (Stmt.accepted_invoke accepted).1 part member
  | ifElse condition body elseIfs otherwise =>
      obtain ⟨conditionAccepted, -, elseIfsAccepted, -⟩ := Stmt.accepted_ifElse accepted
      rcases List.mem_append.mp member with inCondition | inElseIfs
      · exact Expr.accepted_parts conditionAccepted part inCondition
      · obtain ⟨elseIf, isElseIf, inElseIf⟩ := List.mem_flatMap.mp inElseIfs
        have elseIfAccepted := ElseIf.accepted_conditions elseIfsAccepted elseIf isElseIf
        exact Expr.accepted_parts elseIfAccepted part inElseIf
  | select selector groups otherwise =>
      exact Expr.accepted_parts (Stmt.accepted_select accepted).1 part member
  | forTo control first last step body =>
      obtain ⟨-, firstAccepted, lastAccepted, stepAccepted, -⟩ := Stmt.accepted_forTo accepted
      simp only [Stmt.parts, List.mem_append] at member
      rcases member with (inFirst | inLast) | inStep
      · exact Expr.accepted_parts firstAccepted part inFirst
      · exact Expr.accepted_parts lastAccepted part inLast
      · cases step with
        | none => cases inStep
        | some value => exact Expr.accepted_parts (stepAccepted value rfl) part inStep
  | whileDo condition body =>
      exact Expr.accepted_parts (Stmt.accepted_whileDo accepted).1 part member
  | repeatUntil body condition =>
      exact Expr.accepted_parts (Stmt.accepted_repeatUntil accepted).1 part member
  | leaveUnit | leaveLoop | pragma => cases member

mutual

theorem Stmt.accepted_all : ∀ {stmt : Stmt}, stmt.Accepted context scope →
    ∀ inner ∈ stmt.all, inner.Accepted context scope
  | .ifElse condition body elseIfs otherwise, accepted, inner, member => by
      obtain ⟨-, bodyAccepted, elseIfsAccepted, otherwiseAccepted⟩ :=
        Stmt.accepted_ifElse accepted
      rw [Stmt.all, List.mem_cons, List.mem_append, List.mem_append] at member
      rcases member with rfl | (inBody | inElseIfs) | inOtherwise
      · exact accepted
      · exact Stmt.accepted_allList bodyAccepted inner inBody
      · exact ElseIf.accepted_allList elseIfsAccepted inner inElseIfs
      · exact Stmt.accepted_allList otherwiseAccepted inner inOtherwise
  | .select selector groups otherwise, accepted, inner, member => by
      obtain ⟨-, groupsAccepted, otherwiseAccepted⟩ := Stmt.accepted_select accepted
      rw [Stmt.all, List.mem_cons, List.mem_append] at member
      rcases member with rfl | inGroups | inOtherwise
      · exact accepted
      · exact CaseGroup.accepted_allList groupsAccepted inner inGroups
      · exact Stmt.accepted_allList otherwiseAccepted inner inOtherwise
  | .forTo control first last step body, accepted, inner, member => by
      obtain ⟨-, -, -, -, bodyAccepted⟩ := Stmt.accepted_forTo accepted
      rw [Stmt.all, List.mem_cons] at member
      rcases member with rfl | inBody
      · exact accepted
      · exact Stmt.accepted_allList bodyAccepted inner inBody
  | .whileDo condition body, accepted, inner, member => by
      rw [Stmt.all, List.mem_cons] at member
      rcases member with rfl | inBody
      · exact accepted
      · exact Stmt.accepted_allList (Stmt.accepted_whileDo accepted).2 inner inBody
  | .repeatUntil body condition, accepted, inner, member => by
      rw [Stmt.all, List.mem_cons] at member
      rcases member with rfl | inBody
      · exact accepted
      · exact Stmt.accepted_allList (Stmt.accepted_repeatUntil accepted).2 inner inBody
  | .assign .., accepted, inner, member => by
      simp only [Stmt.all, List.mem_singleton] at member
      exact member ▸ accepted
  | .invoke .., accepted, inner, member => by
      simp only [Stmt.all, List.mem_singleton] at member
      exact member ▸ accepted
  | .leaveUnit, accepted, inner, member => by
      simp only [Stmt.all, List.mem_singleton] at member
      exact member ▸ accepted
  | .leaveLoop, accepted, inner, member => by
      simp only [Stmt.all, List.mem_singleton] at member
      exact member ▸ accepted
  | .pragma .., accepted, inner, member => by
      simp only [Stmt.all, List.mem_singleton] at member
      exact member ▸ accepted

theorem Stmt.accepted_allList : ∀ {stmts : List Stmt}, Stmt.ListAccepted context scope stmts →
    ∀ inner ∈ Stmt.allList stmts, inner.Accepted context scope
  | [], _, inner, member => by
      rw [Stmt.allList] at member
      cases member
  | stmt :: stmts, accepted, inner, member => by
      obtain ⟨firstAccepted, restAccepted⟩ := Stmt.listAccepted_cons accepted
      rw [Stmt.allList] at member
      rcases List.mem_append.mp member with inFirst | inRest
      · exact Stmt.accepted_all firstAccepted inner inFirst
      · exact Stmt.accepted_allList restAccepted inner inRest

theorem ElseIf.accepted_allList : ∀ {elseIfs : List ElseIf},
    ElseIf.ListAccepted context scope elseIfs →
      ∀ inner ∈ ElseIf.allList elseIfs, inner.Accepted context scope
  | [], _, inner, member => by
      rw [ElseIf.allList] at member
      cases member
  | .mk condition body :: elseIfs, accepted, inner, member => by
      obtain ⟨-, bodyAccepted, restAccepted⟩ := ElseIf.listAccepted_cons accepted
      rw [ElseIf.allList] at member
      rcases List.mem_append.mp member with inBody | inRest
      · exact Stmt.accepted_allList bodyAccepted inner inBody
      · exact ElseIf.accepted_allList restAccepted inner inRest

theorem CaseGroup.accepted_allList : ∀ {groups : List CaseGroup},
    CaseGroup.ListAccepted context scope groups →
      ∀ inner ∈ CaseGroup.allList groups, inner.Accepted context scope
  | [], _, inner, member => by
      rw [CaseGroup.allList] at member
      cases member
  | .mk labels body :: groups, accepted, inner, member => by
      obtain ⟨-, bodyAccepted, restAccepted⟩ := CaseGroup.listAccepted_cons accepted
      rw [CaseGroup.allList] at member
      rcases List.mem_append.mp member with inBody | inRest
      · exact Stmt.accepted_allList bodyAccepted inner inBody
      · exact CaseGroup.accepted_allList restAccepted inner inRest

end

theorem Stmt.accepted_partsList {stmts : List Stmt}
    (accepted : Stmt.ListAccepted context scope stmts) :
    ∀ part ∈ Stmt.partsList stmts, part.Accepted context scope := by
  intro part member
  obtain ⟨stmt, occurs, inside⟩ := List.mem_flatMap.mp member
  exact Stmt.accepted_parts (Stmt.accepted_allList accepted stmt occurs) part inside

end Accepted

end StructuredText
