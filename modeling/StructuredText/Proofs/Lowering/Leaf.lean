import StructuredText.Proofs.Lowering.Growth
import StructuredText.Proofs.Lowering.Origin

/-!
# The leaves of a lowered body

Wherever an expression stands in a body, its constants and names are allowed ones, and the
helpers that it calls have been added when it is lowered.  The induction is over the
expressions and statements of the source, and what allows the constants is read off them.
-/

set_option autoImplicit false

namespace StructuredText

open Code (Helper)

def InstanceAccess.handle (access : InstanceAccess) : String :=
  match access.style with
  | .direct => access.name
  | .accessor => selfHandle ++ access.name

theorem InstanceAccess.leaves_pointer (access : InstanceAccess) :
    access.pointer.leaves = [.atom access.handle] := by
  unfold InstanceAccess.pointer
  dsimp only
  split <;> simp only [Code.Expr.leaves] <;> rfl

structure Site.AllowsStmts (site : Site) (stmts : List Stmt) (allowed : String → Prop) : Prop
    extends site.AllowsExprs (stmts.flatMap Stmt.parts) allowed where
  single : ∀ {selector : Expr} {groups : List CaseGroup} {otherwise body : List Stmt}
    {labels : List CaseLabel} {texts : List String}, .select selector groups otherwise ∈ stmts →
    .mk labels body ∈ groups → CaseLabel.lowerSingles site labels = .ok texts →
    ∀ text ∈ texts, allowed text
  range : ∀ {selector : Expr} {groups : List CaseGroup} {otherwise body : List Stmt}
    {labels : List CaseLabel}, .select selector groups otherwise ∈ stmts →
    .mk labels body ∈ groups → ∀ bounds ∈ CaseLabel.lowerRanges labels,
    allowed bounds.1 ∧ allowed bounds.2
  handle : ∀ {block : Ident} {arguments : List Argument}, .invoke block arguments ∈ stmts →
    allowed (site.instanceAccess block).handle

/-! ## Expressions -/

section Lower

variable {site : Site} {allowed : String → Prop} {on : Prop} {exprs : List Expr}

theorem Site.AllowsExprs.fixed_or {leaves : List Code.Leaf} {leaf : Code.Leaf}
    (allows : site.AllowsExprs exprs allowed)
    (origin : leaf ∈ leaves ∨ ∃ text ∈ Code.Leaf.fixed, leaf = .atom text) :
    leaf ∈ leaves ∨ leaf.IsAllowed allowed := by
  refine origin.imp_right ?_
  rintro ⟨text, isFixed, rfl⟩
  exact ⟨text, rfl, allows.fixed text isFixed⟩

mutual

theorem Reference.yields_lowerPath (allows : site.AllowsExprs exprs allowed) :
    ∀ (reference : Reference) {depth : Nat} {state after : LoweringState} {path : Code.Path},
      reference.parts ⊆ exprs → reference.lowerPath site depth state = .ok (path, after) →
      site.Yields allowed on state after path.leaves
  | .named name, depth, state, after, path, _, run => by
      rw [Reference.lowerPath] at run
      cases run
      exact .refl _ (List.forall_mem_nil _)
  | .field record name, depth, state, after, path, inside, run => by
      rw [Reference.parts] at inside
      rw [Reference.lowerPath] at run
      obtain ⟨before, middle, recordRun, run⟩ := Lower.bind_eq_ok run
      cases run
      rw [Code.Path.leaves]
      exact record.yields_lowerPath allows inside recordRun
  | .element array subscripts, depth, state, after, path, inside, run => by
      rw [Reference.parts, List.append_subset] at inside
      rw [Reference.lowerPath] at run
      obtain ⟨before, middle, arrayRun, run⟩ := Lower.bind_eq_ok run
      obtain ⟨values, last, subscriptsRun, run⟩ := Lower.bind_eq_ok run
      cases run
      rw [Code.Path.leaves]
      exact (array.yields_lowerPath allows inside.1 arrayRun).append
        (Expr.yields_lowerSubscripts allows subscripts inside.2 subscriptsRun)

theorem Expr.yields_lowerSubscripts (allows : site.AllowsExprs exprs allowed) :
    ∀ (subscripts : List Expr) {depth : Nat} {array : Reference} {index : Nat}
      {state after : LoweringState} {values : List Code.Subscript},
      Expr.partsList subscripts ⊆ exprs →
      Expr.lowerSubscripts site depth array index subscripts state = .ok (values, after) →
      site.Yields allowed on state after (Code.Subscript.leavesList values)
  | [], depth, array, index, state, after, values, _, run => by
      rw [Expr.lowerSubscripts] at run
      cases run
      exact .refl _ (List.forall_mem_nil _)
  | subscript :: rest, depth, array, index, state, after, values, inside, run => by
      rw [Expr.partsList, List.append_subset] at inside
      rw [Expr.lowerSubscripts] at run
      obtain ⟨dimension, first, dimensionRun, run⟩ := Lower.bind_eq_ok run
      obtain ⟨value, second, valueRun, run⟩ := Lower.bind_eq_ok run
      obtain ⟨others, third, restRun, run⟩ := Lower.bind_eq_ok run
      cases run
      obtain rfl := Lower.state_of_lift dimensionRun
      rw [Code.Subscript.leavesList]
      exact (subscript.yields_lower allows inside.1 valueRun).append
        (Expr.yields_lowerSubscripts allows rest inside.2 restRun)

theorem Variable.yields_lower (allows : site.AllowsExprs exprs allowed) :
    ∀ (source : Variable) {depth : Nat} {state after : LoweringState} {place : Code.Place},
      source.parts ⊆ exprs → source.lower site depth state = .ok (place, after) →
      site.Yields allowed on state after place.leaves
  | .direct address, depth, state, after, place, _, run => by
      rw [Variable.lower] at run
      cases style : site.style with
      | direct | accessor =>
          rw [style] at run
          cases run
          exact .refl _ (List.forall_mem_nil _)
  | .symbolic reference, depth, state, after, place, inside, run => by
      rw [Variable.parts] at inside
      rw [Variable.lower] at run
      obtain ⟨entry, first, found, run⟩ := Lower.bind_eq_ok run
      cases style : site.style with
      | direct =>
          rw [style] at run
          obtain ⟨path, second, pathRun, run⟩ := Lower.bind_eq_ok run
          cases run
          obtain rfl := Lower.state_of_need found
          rw [Code.Place.leaves]
          exact reference.yields_lowerPath allows inside pathRun
      | accessor =>
          rw [style] at run
          dsimp only at run
          split at run
          · obtain ⟨path, second, pathRun, run⟩ := Lower.bind_eq_ok run
            cases run
            obtain rfl := Lower.state_of_need found
            rw [Code.Place.leaves]
            exact reference.yields_lowerPath allows inside pathRun
          · cases run
            obtain rfl := Lower.state_of_need found
            exact .refl _ (List.forall_mem_nil _)

/-- The leaves of an expression are known, and the helpers that it adds are in order. -/
theorem Expr.yields_lower (allows : site.AllowsExprs exprs allowed) :
    ∀ (expr : Expr) {depth : Nat} {state after : LoweringState} {code : Code.Expr},
      expr.parts ⊆ exprs → expr.lower site depth state = .ok (code, after) →
      site.Yields allowed on state after code.leaves
  | .compare op left right, depth, state, after, code, inside, run => by
      rw [Expr.parts, List.cons_subset, List.append_subset] at inside
      obtain ⟨-, leftInside, rightInside⟩ := inside
      obtain ⟨leftType, rightType, left', middle, right', -, -, leftRun, rightRun, compared⟩ :=
        Expr.lowered_compare run
      have operands := (left.yields_lower allows leftInside leftRun).append
        (right.yields_lower allows rightInside rightRun)
      exact operands.of_mem fun leaf member =>
        allows.fixed_or (CompareOp.leaves_lower compared leaf member)
  | .arith op left right, depth, state, after, code, inside, run => by
      rw [Expr.parts, List.cons_subset, List.append_subset] at inside
      obtain ⟨-, leftInside, rightInside⟩ := inside
      obtain ⟨leftType, rightType, left', middle, right', -, -, leftRun, rightRun, rfl⟩ :=
        Expr.lowered_arith run
      have operands := (left.yields_lower allows leftInside leftRun).append
        (right.yields_lower allows rightInside rightRun)
      exact operands.of_mem fun leaf member =>
        allows.fixed_or (ArithOp.leaves_lower op leftType rightType leaf member)
  | .unary op term, depth, state, after, code, inside, run => by
      rw [Expr.parts, List.cons_subset] at inside
      obtain ⟨type, term', -, termRun, rfl⟩ := Expr.lowered_unary run
      rw [UnaryOp.leaves_lower]
      exact term.yields_lower allows inside.2 termRun
  | .group inner, depth, state, after, code, inside, run => by
      rw [Expr.parts, List.cons_subset] at inside
      rw [Expr.lower] at run
      exact inner.yields_lower allows inside.2 run
  | .const value, depth, state, after, code, inside, run => by
      obtain ⟨text, written, rfl, rfl⟩ := Expr.lowered_const run
      exact .atom (allows.constant (inside (List.mem_singleton_self _)) written) _
  | .enumerated value, depth, state, after, code, inside, run => by
      obtain ⟨text, written, rfl, rfl⟩ := Expr.lowered_enumerated run
      exact .atom (allows.enumerated (inside (List.mem_singleton_self _)) written) _
  | .var source, depth, state, after, code, inside, run => by
      rw [Expr.parts, List.cons_subset] at inside
      obtain ⟨place, placed, rfl⟩ := Expr.lowered_var run
      rw [Code.Expr.leaves]
      exact source.yields_lower allows inside.2 placed
  | .call function arguments, depth, state, after, code, inside, run => by
      rw [Expr.parts, List.cons_subset] at inside
      obtain ⟨resolution, meaning, callRun⟩ := Expr.lowered_call run
      exact CallResolution.yields_lower
        (Argument.yields_supplies allows arguments (depth + 1) inside.2) allows.fixed allows.count
        (fun parameter isParameter text => allows.initial inside.1 meaning isParameter) callRun

theorem Expr.yields_destination? (allows : site.AllowsExprs exprs allowed) :
    ∀ (expr : Expr) {depth : Nat} {destination : Destination} {state after : LoweringState}
      {place : Code.Place}, expr.parts ⊆ exprs → expr.destination? site depth = some destination →
      destination.place state = .ok (place, after) →
      site.Yields allowed on state after place.leaves
  | .var source, depth, destination, state, after, place, inside, found, run => by
      rw [Expr.parts, List.cons_subset] at inside
      rw [Expr.destination?] at found
      cases found
      exact source.yields_lower allows inside.2 run
  | .compare .., _, _, _, _, _, _, found, _ | .arith .., _, _, _, _, _, _, found, _
  | .unary .., _, _, _, _, _, _, found, _ | .group _, _, _, _, _, _, _, found, _
  | .const _, _, _, _, _, _, _, found, _ | .enumerated _, _, _, _, _, _, _, found, _
  | .call .., _, _, _, _, _, _, found, _ => by cases found

theorem Argument.yields_supplies (allows : site.AllowsExprs exprs allowed) :
    ∀ (arguments : List Argument) (depth : Nat), Argument.partsList arguments ⊆ exprs →
      ∀ supply ∈ Argument.supplies site depth arguments, supply.Yields site allowed on
  | [], depth, _, supply, member => by
      rw [Argument.supplies] at member
      cases member
  | .positional value :: rest, depth, inside, supply, member => by
      rw [Argument.partsList, List.append_subset] at inside
      rw [Argument.supplies] at member
      rcases List.mem_cons.mp member with rfl | inRest
      · refine ⟨?_, value.yields_destination? allows inside.1⟩
        rintro _ state after code ⟨⟩ run
        exact value.yields_lower allows inside.1 run
      · exact Argument.yields_supplies allows rest depth inside.2 supply inRest
  | .named _ value :: rest, depth, inside, supply, member => by
      rw [Argument.partsList, List.append_subset] at inside
      rw [Argument.supplies] at member
      rcases List.mem_cons.mp member with rfl | inRest
      · refine ⟨?_, value.yields_destination? allows inside.1⟩
        rintro _ state after code ⟨⟩ run
        exact value.yields_lower allows inside.1 run
      · exact Argument.yields_supplies allows rest depth inside.2 supply inRest
  | .output _ _ target :: rest, depth, inside, supply, member => by
      rw [Argument.partsList, List.append_subset] at inside
      rw [Argument.supplies] at member
      rcases List.mem_cons.mp member with rfl | inRest
      · refine ⟨fun isValue => absurd isValue (Option.some_ne_none _).symm, ?_⟩
        rintro _ state after place ⟨⟩ run
        exact target.yields_lower allows inside.1 run
      · exact Argument.yields_supplies allows rest depth inside.2 supply inRest

end

/-! ## Statements -/

theorem InstanceAccess.leaves_member (access : InstanceAccess) (name : String) :
    (access.member name).leaves = [] := by
  unfold InstanceAccess.member
  cases access.style with
  | direct => simp [Code.Place.leaves, Code.Path.leaves]
  | accessor => simp [Code.Place.leaves]

section Copies

variable {supplies : List Supply} (yield : ∀ supply ∈ supplies, supply.Yields site allowed on)
  {access : InstanceAccess} {arguments : List Argument} {parameters : List BoundParameter}

include yield

theorem InstanceAccess.yields_copiesIn :
    ∀ {stores : List Code.Store} {state after : LoweringState},
      access.copiesIn supplies parameters state = .ok (stores, after) →
      site.Yields allowed on state after (stores.flatMap Code.Store.leaves) := by
  induction parameters with
  | nil =>
      intro stores state after run
      cases run
      exact .refl _ (List.forall_mem_nil _)
  | cons bound rest ih =>
      intro stores state after run
      rw [copiesIn] at run
      cases isActual : bound.actual with
      | none =>
          rw [isActual] at run
          exact ih run
      | some actual =>
          rw [isActual] at run
          cases actual with
          | output => exact ih run
          | input index value =>
              cases isInput : bound.parameter.isInput with
              | false =>
                  simp only [isInput, Bool.false_eq_true, if_false] at run
                  exact ih run
              | true =>
                  simp only [isInput, if_true] at run
                  obtain ⟨code, first, valueRun, run⟩ := Lower.bind_eq_ok run
                  obtain ⟨later, second, restRun, run⟩ := Lower.bind_eq_ok run
                  cases run
                  have isGiven : bound.actual = none → ∀ text,
                      bound.parameter.defaultValue = .ok text → allowed text := by
                    intro isOpen
                    rw [isActual] at isOpen
                    cases isOpen
                  have valued := BoundParameter.yields_lowerInput yield isGiven valueRun
                  rw [List.flatMap_cons, Code.Store.leaves, leaves_member, List.nil_append,
                    Code.Expr.leaves_checked]
                  exact valued.append (ih restRun)

theorem InstanceAccess.yields_copiesOut :
    ∀ {stores : List Code.Store} {state after : LoweringState},
      access.copiesOut arguments supplies parameters state = .ok (stores, after) →
      site.Yields allowed on state after (stores.flatMap Code.Store.leaves) := by
  induction parameters with
  | nil =>
      intro stores state after run
      cases run
      exact .refl _ (List.forall_mem_nil _)
  | cons bound rest ih =>
      intro stores state after run
      rw [copiesOut] at run
      cases found : bound.receiver? supplies with
      | none =>
          rw [found] at run
          exact ih run
      | some receiver =>
          rw [found] at run
          obtain ⟨type, first, typed, run⟩ := Lower.bind_eq_ok run
          obtain ⟨place, second, placeRun, run⟩ := Lower.bind_eq_ok run
          obtain ⟨later, third, restRun, run⟩ := Lower.bind_eq_ok run
          cases run
          obtain rfl := Lower.state_of_lift typed
          have placed := BoundParameter.yields_place yield
            (BoundParameter.supplied_of_receiver? found) placeRun
          have noLeaves : Code.Expr.leaves
              (if Argument.isNegated arguments bound.parameter.name then
                .unary .logicalNot (.load (access.member bound.cName))
              else .load (access.member bound.cName)) = [] := by
            split <;> simp [Code.Expr.leaves, leaves_member]
          rw [List.flatMap_cons, Code.Store.leaves, Code.Expr.leaves_checked, noLeaves,
            List.append_nil]
          exact placed.append (ih restRun)

end Copies

theorem Site.yields_lowerInvoke {depth : Nat} {block : Ident} {arguments : List Argument}
    {code : Code.Stmt} {state after : LoweringState} (allows : site.AllowsExprs exprs allowed)
    (inside : Argument.partsList arguments ⊆ exprs)
    (handle : allowed (site.instanceAccess block).handle)
    (run : site.lowerInvoke depth block arguments state = .ok (code, after)) :
    site.Yields allowed on state after (code.all.flatMap Code.Stmt.leaves) := by
  obtain ⟨signature, binding, copiesIn, middle, copiesOut, -, -, copiesInRun, copiesOutRun, rfl⟩ :=
    Site.lowered_invoke run
  have yield : ∀ supply ∈ Argument.supplies site depth arguments,
      supply.Yields site allowed on := Argument.yields_supplies allows arguments depth inside
  have copied := (InstanceAccess.yields_copiesIn yield copiesInRun).append
    (InstanceAccess.yields_copiesOut yield copiesOutRun)
  refine copied.of_mem fun leaf member => ?_
  simp only [Code.Stmt.all, List.flatMap_singleton, Code.Stmt.leaves, Code.Expr.leaves,
    Code.Expr.leavesList, InstanceAccess.leaves_pointer, List.append_nil, List.mem_append,
    List.mem_singleton] at member ⊢
  rcases member with (isIn | isHandle) | isOut
  · exact .inl (.inl isIn)
  · exact .inr ⟨_, isHandle, handle⟩
  · exact .inl (.inr isOut)

theorem Site.yields_lowerStep {depth : Nat} {step : Option Expr} {code : Code.Step}
    {state after : LoweringState} (allows : site.AllowsExprs exprs allowed)
    (inside : (step.map Expr.parts).getD [] ⊆ exprs)
    (run : site.lowerStep depth step state = .ok (code, after)) :
    site.Yields allowed on state after code.leaves := by
  cases step with
  | none =>
      cases run
      exact .refl _ (List.forall_mem_nil _)
  | some step =>
      obtain ⟨value, middle, valueRun, run⟩ := Lower.bind_eq_ok run
      have yields : site.Yields allowed on state middle value.leaves :=
        step.yields_lower allows inside valueRun
      cases isUnsigned : step.isUnsignedConstant with
      | false | true =>
          rw [isUnsigned] at run
          cases run
          exact yields

theorem Lower.yields_nextLoop {number : Nat} {before after : LoweringState}
    (run : Lower.nextLoop before = .ok (number, after)) :
    site.Yields allowed on before after [] := by
  cases run
  exact .of_eq rfl rfl fun _ isOn => isOn

variable {stmts : List Stmt}

/-- All that a step of lowering gives has known leaves, whatever is around it. -/
def Site.YieldsFrom {α : Type} (site : Site) (allowed : String → Prop) (on : Prop)
    (step : Nat → List Breakable → Lower α) (leaves : α → List Code.Leaf) : Prop :=
  ∀ ⦃depth around before after codes⦄, step depth around before = .ok (codes, after) →
    site.Yields allowed on before after (leaves codes)

/-! ### One lemma for each form of statement -/

section Forms

variable {depth : Nat} {around : List Breakable} {before after : LoweringState}
  {code : Code.Stmt} {test : Expr} {body otherwise : List Stmt}
  (allows : site.AllowsStmts stmts allowed)

include allows

theorem Stmt.yields_assign {target : Variable} {value : Expr}
    (isStmt : .assign target value ∈ stmts)
    (run : (Stmt.assign target value).lower site depth around before = .ok (code, after)) :
    site.Yields allowed on before after (code.all.flatMap Code.Stmt.leaves) := by
  have parts := Stmt.parts_subset isStmt
  rw [Stmt.parts, List.append_subset] at parts
  obtain ⟨type, value', middle, place, -, valueRun, placeRun, rfl⟩ := Stmt.lowered_assign run
  have valued : site.Yields allowed on before middle value'.leaves :=
    value.yields_lower allows.toAllowsExprs parts.2 valueRun
  refine (valued.append (target.yields_lower allows.toAllowsExprs parts.1 placeRun)).subset ?_
  simp only [Code.Stmt.all, List.flatMap_singleton, Code.Stmt.leaves, Code.Store.leaves,
    Code.Expr.leaves_checked]
  grind

theorem Stmt.yields_ifElse {elseIfs : List ElseIf}
    (isStmt : .ifElse test body elseIfs otherwise ∈ stmts)
    (inBody : site.YieldsFrom allowed on (Stmt.lowerList site · · body) Code.Stmt.leavesList)
    (inElseIfs : site.YieldsFrom allowed on (ElseIf.lowerList site · · elseIfs)
      Code.Branch.leavesList)
    (inOtherwise : site.YieldsFrom allowed on (Stmt.lowerList site · · otherwise)
      Code.Stmt.leavesList)
    (run : (Stmt.ifElse test body elseIfs otherwise).lower site depth around before =
      .ok (code, after)) :
    site.Yields allowed on before after (code.all.flatMap Code.Stmt.leaves) := by
  have parts := Stmt.parts_subset isStmt
  rw [Stmt.parts, List.append_subset] at parts
  obtain ⟨test', first, body', second, elseIfs', third, otherwise', testRun, bodyRun,
    elseIfsRun, otherwiseRun, rfl⟩ := Stmt.lowered_ifElse run
  have tested : site.Yields allowed on before first test'.leaves :=
    test.yields_lower allows.toAllowsExprs parts.1 testRun
  have branches := (inBody bodyRun).append (inElseIfs elseIfsRun)
  refine (tested.append (branches.append (inOtherwise otherwiseRun))).subset ?_
  simp only [Code.Stmt.all, List.flatMap_cons, List.flatMap_append, Code.Stmt.leaves,
    Code.Stmt.leavesList, Code.Branch.leavesList]
  grind

-- A group with labels of both kinds is lowered twice, so its calls have two helpers.
theorem Stmt.yields_select {selector : Expr} {groups : List CaseGroup}
    (isStmt : .select selector groups otherwise ∈ stmts)
    (inCases : site.YieldsFrom allowed on (CaseGroup.lowerCases site · · groups)
      Code.Case.leavesList)
    (inRanges : site.YieldsFrom allowed on (CaseGroup.lowerRanges site · · groups)
      Code.RangeCase.leavesList)
    (inOtherwise : site.YieldsFrom allowed on (Stmt.lowerList site · · otherwise)
      Code.Stmt.leavesList)
    (run : (Stmt.select selector groups otherwise).lower site depth around before =
      .ok (code, after)) :
    site.Yields allowed on before after (code.all.flatMap Code.Stmt.leaves) := by
  obtain ⟨type, selector', selected, cases', cased, ranges, ranged, otherwise', selectorRun,
    casesRun, rangesRun, otherwiseRun, rfl⟩ := Stmt.lowered_select run
  have chosen : site.Yields allowed on before selected selector'.leaves :=
    selector.yields_lower allows.toAllowsExprs (Stmt.parts_subset isStmt) selectorRun
  have groups := (inCases casesRun).append (inRanges rangesRun)
  refine (chosen.append (groups.append (inOtherwise otherwiseRun))).subset ?_
  simp only [Code.Stmt.all, List.flatMap_cons, List.flatMap_append, Code.Stmt.leaves,
    Code.Stmt.leavesList, Code.Case.leavesList, Code.RangeCase.leavesList]
  grind

theorem Stmt.yields_forTo {control : Ident} {first last : Expr} {step : Option Expr}
    (isStmt : .forTo control first last step body ∈ stmts)
    (inBody : site.YieldsFrom allowed on (Stmt.lowerList site · · body) Code.Stmt.leavesList)
    (run : (Stmt.forTo control first last step body).lower site depth around before =
      .ok (code, after)) :
    site.Yields allowed on before after (code.all.flatMap Code.Stmt.leaves) := by
  have parts := Stmt.parts_subset isStmt
  rw [Stmt.parts, List.append_subset, List.append_subset] at parts
  obtain ⟨⟨firstInside, lastInside⟩, stepInside⟩ := parts
  obtain ⟨number, opened, type, first', started, last', ended, step', stepped, place, placed,
    body', numberRun, -, firstRun, lastRun, stepRun, placeRun, bodyRun, rfl⟩ :=
    Stmt.lowered_forTo run
  have opens : site.Yields allowed on before opened [] := Lower.yields_nextLoop numberRun
  have starts := opens.append (first.yields_lower allows.toAllowsExprs firstInside firstRun)
  have bounds := starts.append (last.yields_lower allows.toAllowsExprs lastInside lastRun)
  have stepped := bounds.append (Site.yields_lowerStep allows.toAllowsExprs stepInside stepRun)
  have placed := stepped.append
    (Variable.yields_lower allows.toAllowsExprs _ (List.nil_subset _) placeRun)
  have whole := placed.append (inBody bodyRun)
  unfold Site.countingLoop
  cases style : site.style with
  | direct =>
      refine whole.subset ?_
      simp only [Code.Stmt.all, List.flatMap_cons, Code.Stmt.leaves, Code.Expr.leaves_checked,
        Code.Stmt.leavesList]
      grind
  | accessor =>
      refine whole.of_mem fun leaf member => allows.fixed_or ?_
      simp only [Code.Stmt.all, List.flatMap_cons, Code.Stmt.leaves, Code.Expr.leaves_checked,
        List.mem_append] at member
      simp only [Code.Stmt.leavesList]
      have next := Code.Step.leaves_next step' (.load place) leaf
      simp only [Code.Expr.leaves, List.mem_append] at next
      grind

theorem Stmt.yields_whileDo (isStmt : .whileDo test body ∈ stmts)
    (inBody : site.YieldsFrom allowed on (Stmt.lowerList site · · body) Code.Stmt.leavesList)
    (run : (Stmt.whileDo test body).lower site depth around before = .ok (code, after)) :
    site.Yields allowed on before after (code.all.flatMap Code.Stmt.leaves) := by
  obtain ⟨test', first, number, second, body', testRun, numberRun, bodyRun, rfl⟩ :=
    Stmt.lowered_whileDo run
  have tested : site.Yields allowed on before first test'.leaves :=
    test.yields_lower allows.toAllowsExprs (Stmt.parts_subset isStmt) testRun
  have opens := tested.append (Lower.yields_nextLoop numberRun)
  refine (opens.append (inBody bodyRun)).subset ?_
  simp only [Code.Stmt.all, List.flatMap_cons, Code.Stmt.leaves, Code.Stmt.leavesList]
  grind

theorem Stmt.yields_repeatUntil (isStmt : .repeatUntil body test ∈ stmts)
    (inBody : site.YieldsFrom allowed on (Stmt.lowerList site · · body) Code.Stmt.leavesList)
    (run : (Stmt.repeatUntil body test).lower site depth around before = .ok (code, after)) :
    site.Yields allowed on before after (code.all.flatMap Code.Stmt.leaves) := by
  obtain ⟨number, opened, body', done, test', numberRun, bodyRun, testRun, rfl⟩ :=
    Stmt.lowered_repeatUntil run
  have opens : site.Yields allowed on before opened [] := Lower.yields_nextLoop numberRun
  have tested : site.Yields allowed on done after test'.leaves :=
    test.yields_lower allows.toAllowsExprs (Stmt.parts_subset isStmt) testRun
  refine ((opens.append (inBody bodyRun)).append tested).subset ?_
  simp only [Code.Stmt.all, List.flatMap_cons, Code.Stmt.leaves, Code.Stmt.leavesList]
  grind

omit allows

theorem Stmt.yields_leaveLoop
    (run : Stmt.leaveLoop.lower site depth around before = .ok (code, after)) :
    site.Yields allowed on before after (code.all.flatMap Code.Stmt.leaves) := by
  obtain ⟨-, rfl, rfl⟩ | ⟨loop, -, rfl, rfl⟩ := Stmt.lowered_leaveLoop run
  · exact .refl _ (List.forall_mem_nil _)
  · exact .of_eq rfl rfl fun _ isOn => isOn

theorem Stmt.yields_pragma {directive : Pragma} (neverOff : on → directive ≠ .disable)
    (run : (Stmt.pragma directive).lower site depth around before = .ok (code, after)) :
    site.Yields allowed on before after (code.all.flatMap Code.Stmt.leaves) := by
  cases directive with
  | code text =>
      rw [Stmt.lower] at run
      cases run
      unfold Site.code
      cases site.style <;> exact .refl _ (List.forall_mem_nil _)
  | enable =>
      rw [Stmt.lower] at run
      cases run
      exact .of_eq rfl rfl fun _ _ => rfl
  | disable =>
      rw [Stmt.lower] at run
      cases run
      exact .of_eq rfl rfl fun isOn => absurd rfl (neverOff isOn)

end Forms

mutual

/-- The leaves of a statement and of the statements in it are known. -/
theorem Stmt.yields_lower (allows : site.AllowsStmts stmts allowed)
    (neverOff : on → .pragma .disable ∉ stmts) :
    ∀ stmt : Stmt, stmt.all ⊆ stmts →
      site.YieldsFrom allowed on (stmt.lower site) fun code => code.all.flatMap Code.Stmt.leaves
  | .assign target value, inside => fun _ _ _ _ _ run =>
      Stmt.yields_assign allows (inside (Stmt.self_mem_all _)) run
  | .invoke block arguments, inside => by
      have isStmt := inside (Stmt.self_mem_all _)
      intro _ _ _ _ _ run
      simp only [Stmt.lower_invoke] at run
      exact Site.yields_lowerInvoke allows.toAllowsExprs (Stmt.parts_subset isStmt)
        (allows.handle isStmt) run
  | .ifElse test body elseIfs otherwise, inside => by
      have isStmt := inside (Stmt.self_mem_all _)
      have parts := Stmt.parts_subset isStmt
      rw [Stmt.parts, List.append_subset] at parts
      rw [Stmt.all, List.cons_subset, List.append_subset, List.append_subset] at inside
      obtain ⟨-, ⟨bodyInside, elseIfsInside⟩, otherwiseInside⟩ := inside
      intro _ _ _ _ _ run
      exact Stmt.yields_ifElse allows isStmt
        (Stmt.yields_lowerList allows neverOff body bodyInside)
        (ElseIf.yields_lowerList allows neverOff elseIfs elseIfsInside parts.2)
        (Stmt.yields_lowerList allows neverOff otherwise otherwiseInside) run
  | .select selector groups otherwise, inside => by
      have isStmt := inside (Stmt.self_mem_all _)
      rw [Stmt.all, List.cons_subset, List.append_subset] at inside
      obtain ⟨-, groupsInside, otherwiseInside⟩ := inside
      intro _ _ _ _ _ run
      exact Stmt.yields_select allows isStmt
        (CaseGroup.yields_lowerCases allows neverOff groups groupsInside
          fun member => allows.single isStmt member)
        (CaseGroup.yields_lowerRanges allows neverOff groups groupsInside
          fun member => allows.range isStmt member)
        (Stmt.yields_lowerList allows neverOff otherwise otherwiseInside) run
  | .forTo control first last step body, inside => by
      have isStmt := inside (Stmt.self_mem_all _)
      rw [Stmt.all, List.cons_subset] at inside
      intro _ _ _ _ _ run
      exact Stmt.yields_forTo allows isStmt
        (Stmt.yields_lowerList allows neverOff body inside.2) run
  | .whileDo test body, inside => by
      have isStmt := inside (Stmt.self_mem_all _)
      rw [Stmt.all, List.cons_subset] at inside
      intro _ _ _ _ _ run
      exact Stmt.yields_whileDo allows isStmt (Stmt.yields_lowerList allows neverOff body inside.2)
        run
  | .repeatUntil body test, inside => by
      have isStmt := inside (Stmt.self_mem_all _)
      rw [Stmt.all, List.cons_subset] at inside
      intro _ _ _ _ _ run
      exact Stmt.yields_repeatUntil allows isStmt
        (Stmt.yields_lowerList allows neverOff body inside.2) run
  | .leaveUnit, _ => by
      intro _ _ _ _ _ run
      simp only [Stmt.lower] at run
      cases run
      exact .refl _ (List.forall_mem_nil _)
  | .leaveLoop, _ => fun _ _ _ _ _ run => Stmt.yields_leaveLoop run
  | .pragma directive, inside => by
      intro _ _ _ _ _ run
      refine Stmt.yields_pragma (fun isOn isDisable => neverOff isOn ?_) run
      exact isDisable ▸ inside (Stmt.self_mem_all _)

theorem Stmt.yields_lowerList (allows : site.AllowsStmts stmts allowed)
    (neverOff : on → .pragma .disable ∉ stmts) :
    ∀ body : List Stmt, Stmt.allList body ⊆ stmts →
      site.YieldsFrom allowed on (Stmt.lowerList site · · body) Code.Stmt.leavesList
  | [], _ => by
      intro depth around before after codes run
      simp only [Stmt.lowerList] at run
      cases run
      exact .refl _ (List.forall_mem_nil _)
  | stmt :: rest, inside => by
      rw [Stmt.allList, List.append_subset] at inside
      intro depth around before after codes run
      obtain ⟨first, middle, others, firstRun, restRun, rfl⟩ := Stmt.lowered_cons run
      have inFirst := Stmt.yields_lower allows neverOff stmt inside.1 firstRun
      have inRest := Stmt.yields_lowerList allows neverOff rest inside.2 restRun
      rw [Code.Stmt.leavesList, Code.Stmt.allList, List.flatMap_append]
      exact inFirst.append inRest

theorem ElseIf.yields_lowerList (allows : site.AllowsStmts stmts allowed)
    (neverOff : on → .pragma .disable ∉ stmts) :
    ∀ elseIfs : List ElseIf, ElseIf.allList elseIfs ⊆ stmts →
      (elseIfs.flatMap fun elseIf => elseIf.condition.parts) ⊆ stmts.flatMap Stmt.parts →
      site.YieldsFrom allowed on (ElseIf.lowerList site · · elseIfs) Code.Branch.leavesList
  | [], _, _ => by
      intro depth around before after branches run
      simp only [ElseIf.lowerList] at run
      cases run
      exact .refl _ (List.forall_mem_nil _)
  | .mk test body :: rest, inside, parts => by
      rw [ElseIf.allList, List.append_subset] at inside
      rw [List.flatMap_cons, List.append_subset] at parts
      intro depth around before after branches run
      obtain ⟨test', first, body', second, others, testRun, bodyRun, restRun, rfl⟩ :=
        ElseIf.lowered_cons run
      have tested : site.Yields allowed on before first test'.leaves :=
        test.yields_lower allows.toAllowsExprs parts.1 testRun
      have inBody := Stmt.yields_lowerList allows neverOff body inside.1 bodyRun
      have inRest := ElseIf.yields_lowerList allows neverOff rest inside.2 parts.2 restRun
      refine ((tested.append inBody).append inRest).subset ?_
      simp only [Code.Branch.leavesList, Code.Branch.allList, List.flatMap_cons,
        List.flatMap_append, Code.Branch.condition, Code.Stmt.leavesList]
      grind

theorem CaseGroup.yields_lowerCases (allows : site.AllowsStmts stmts allowed)
    (neverOff : on → .pragma .disable ∉ stmts) :
    ∀ groups : List CaseGroup, CaseGroup.allList groups ⊆ stmts →
      (∀ {labels : List CaseLabel} {body : List Stmt} {texts : List String},
        .mk labels body ∈ groups → CaseLabel.lowerSingles site labels = .ok texts →
        ∀ text ∈ texts, allowed text) →
      site.YieldsFrom allowed on (CaseGroup.lowerCases site · · groups) Code.Case.leavesList
  | [], _, _ => by
      intro depth around before after codes run
      simp only [CaseGroup.lowerCases] at run
      cases run
      exact .refl _ (List.forall_mem_nil _)
  | .mk labels body :: rest, inside, single => by
      rw [CaseGroup.allList, List.append_subset] at inside
      intro depth around before after codes run
      obtain ⟨singles, singlesRun, lowered⟩ := CaseGroup.loweredCases_cons run
      have texts := single (List.mem_cons_self ..) singlesRun
      have single : ∀ {labels : List CaseLabel} {body : List Stmt} {texts : List String},
          .mk labels body ∈ rest → CaseLabel.lowerSingles site labels = .ok texts →
          ∀ text ∈ texts, allowed text :=
        fun member => single (List.mem_cons_of_mem _ member)
      obtain ⟨-, restRun⟩ | ⟨-, body', middle, others, bodyRun, restRun, rfl⟩ := lowered
      · exact CaseGroup.yields_lowerCases allows neverOff rest inside.2 single restRun
      · have inBody := Stmt.yields_lowerList allows neverOff body inside.1 bodyRun
        have inRest := CaseGroup.yields_lowerCases allows neverOff rest inside.2 single restRun
        refine (inBody.append inRest).of_mem fun leaf member => ?_
        simp only [Code.Case.leavesList, Code.Stmt.leavesList, Code.Case.allList,
          List.flatMap_cons, List.flatMap_append, Code.Case.leaves, List.mem_append,
          List.mem_map] at member ⊢
        rcases member with (⟨text, isLabel, rfl⟩ | inLabels) | inStmts | inOthers
        · exact .inr ⟨text, rfl, texts text isLabel⟩
        · exact .inl (.inr (.inl inLabels))
        · exact .inl (.inl inStmts)
        · exact .inl (.inr (.inr inOthers))

theorem CaseGroup.yields_lowerRanges (allows : site.AllowsStmts stmts allowed)
    (neverOff : on → .pragma .disable ∉ stmts) :
    ∀ groups : List CaseGroup, CaseGroup.allList groups ⊆ stmts →
      (∀ {labels : List CaseLabel} {body : List Stmt}, .mk labels body ∈ groups →
        ∀ bounds ∈ CaseLabel.lowerRanges labels, allowed bounds.1 ∧ allowed bounds.2) →
      site.YieldsFrom allowed on (CaseGroup.lowerRanges site · · groups)
        Code.RangeCase.leavesList
  | [], _, _ => by
      intro depth around before after codes run
      simp only [CaseGroup.lowerRanges] at run
      cases run
      exact .refl _ (List.forall_mem_nil _)
  | .mk labels body :: rest, inside, range => by
      rw [CaseGroup.allList, List.append_subset] at inside
      intro depth around before after codes run
      have bounds := range (List.mem_cons_self ..)
      have range : ∀ {labels : List CaseLabel} {body : List Stmt}, .mk labels body ∈ rest →
          ∀ bounds ∈ CaseLabel.lowerRanges labels, allowed bounds.1 ∧ allowed bounds.2 :=
        fun member => range (List.mem_cons_of_mem _ member)
      obtain ⟨-, restRun⟩ | ⟨-, body', middle, others, bodyRun, restRun, rfl⟩ :=
        CaseGroup.loweredRanges_cons run
      · exact CaseGroup.yields_lowerRanges allows neverOff rest inside.2 range restRun
      · have inBody := Stmt.yields_lowerList allows neverOff body inside.1 bodyRun
        have inRest := CaseGroup.yields_lowerRanges allows neverOff rest inside.2 range restRun
        refine (inBody.append inRest).of_mem fun leaf member => ?_
        rw [Code.RangeCase.leavesList, List.flatMap_cons, Code.RangeCase.leaves,
          Code.RangeCase.allList, List.flatMap_append] at member
        simp only [Code.Stmt.leavesList, Code.RangeCase.leavesList, List.mem_append] at member ⊢
        rcases member with (inRanges | inLabels) | inStmts | inOthers
        · obtain ⟨limits, isRange, isBound⟩ := List.mem_flatMap.mp inRanges
          obtain ⟨low, high⟩ := bounds limits isRange
          rcases List.mem_pair.mp isBound with rfl | rfl
          · exact .inr ⟨_, rfl, low⟩
          · exact .inr ⟨_, rfl, high⟩
        · exact .inl (.inr (.inl inLabels))
        · exact .inl (.inl inStmts)
        · exact .inl (.inr (.inr inOthers))

end

end Lower

/-- A lowered body in order: no two of its helpers have one number, each helper is made of what
is known ahead of it, and what the body is made of is known. -/
structure LoweredBody.InOrder (site : Site) (allowed : String → Prop) (on : Prop)
    (lowered : LoweredBody) : Prop where
  isOn : on → lowered.isOn = true
  apart : lowered.helpers.Pairwise Helper.Apart
  isAccessor : ∀ helper ∈ lowered.helpers, site.style = .accessor
  numbered : ∀ helper ∈ lowered.helpers,
    helper.unit = site.unit ∧ ∃ number, helper.HasNumber number
  sound : Helper.AreSound allowed on [] lowered.helpers
  known : ∀ leaf ∈ Code.Stmt.leavesList lowered.body, leaf.IsKnown allowed on lowered.helpers

theorem Site.inOrder_of_lowerBody {site : Site} {allowed : String → Prop} {on : Prop}
    {isOn : Bool} {body : List Stmt} {lowered : LoweredBody}
    (allows : site.AllowsStmts (Stmt.allList body) allowed)
    (neverOff : on → .pragma .disable ∉ Stmt.allList body) (started : on → isOn = true)
    (run : site.lowerBody isOn body = .ok lowered) : lowered.InOrder site allowed on := by
  obtain ⟨⟨code, after⟩, bodyRun, run⟩ := bind_eq_ok run
  cases run
  have grows := Stmt.yields_lowerList allows neverOff body (List.Subset.refl _) bodyRun started
  obtain ⟨added, helpers, apart, numbered, sound⟩ := grows.added
  obtain rfl : after.helpers = added := helpers
  refine ⟨grows.isOn, apart, fun helper member => (numbered helper member).isAccessor, ?_, sound,
    grows.known⟩
  intro helper member
  obtain ⟨number, -, -, hasNumber⟩ := (numbered helper member).number
  exact ⟨(numbered helper member).unit, number, hasNumber⟩

end StructuredText
