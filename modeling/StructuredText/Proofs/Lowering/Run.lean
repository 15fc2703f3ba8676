import StructuredText.Lowering.Unit
import StructuredText.Proofs.Outcome

/-!
# Runs of lowering, taken apart

Calls, expressions, invocations and statements are lowered part after part.  The lemmas here
take a successful run apart, one kind of expression or statement at a time: into the runs over
the parts, in their order, and the code that is made of what these give.
-/

set_option autoImplicit false

namespace StructuredText

variable {site : Site} {depth : Nat} {before after : LoweringState}

/-! ## Calls -/

/-- The helper of a call that is put together from parts. -/
def CallParts.helper (parts : CallParts) (site : Site) (depth number : Nat)
    (resolution : CallResolution) : Code.Helper :=
  let callee := resolution.signature.cName resolution.isOverloaded
  { unit := site.unit, name := "__" ++ site.unit ++ "_" ++ callee ++ toString number
    returnType := resolution.signature.returnType.cName, formals := parts.formals, callee
    temporaries := parts.temporaries, arguments := parts.passed, stores := parts.stores
    depth := depth + 1 }

namespace CallResolution

variable {resolution : CallResolution} {function : Ident} {arguments : List Argument}
  {supplies : List Supply} {code : Code.Expr}

/-- The code of a call is put together from the parts of what is bound, with a helper between
just if the call takes values out of the function on behalf of a unit with accessors. -/
inductive Lowered (site : Site) (depth : Nat) (resolution : CallResolution)
    (arguments : List Argument) (supplies : List Supply) (binding : Binding)
    (before : LoweringState) : Code.Expr → LoweringState → Prop where
  | direct {parts : CallParts} {after : LoweringState}
      (isPlain : site.style = .accessor → binding.hasDestination = false)
      (added : CallParts.addAll false resolution.count arguments supplies false {}
        binding.parameters before = .ok (parts, after)) :
      Lowered site depth resolution arguments supplies binding before
        (.callLines (resolution.signature.cName resolution.isOverloaded) parts.arguments) after
  | throughHelper {number : Nat} {parts : CallParts} {counted put after : LoweringState}
      (isAccessor : site.style = .accessor)
      (numbered : Lower.nextCall before = .ok (number, counted))
      (added : CallParts.addAll true resolution.count arguments supplies false {}
        binding.parameters counted = .ok (parts, put))
      (helped : Lower.addHelper (parts.helper site depth number resolution) put =
        .ok ((), after)) :
      Lowered site depth resolution arguments supplies binding before
        (.callLines (parts.helper site depth number resolution).name
          (parts.arguments ++ [.atom "data__"])) after

theorem lowered_of_lower
    (run : resolution.lower site depth function arguments supplies before = .ok (code, after)) :
    (resolution.signature.hasExtensible = true → resolution.count ≠ 0) ∧
      ∃ binding, Binding.make resolution.signature.parameters arguments = .ok binding ∧
        Lowered site depth resolution arguments supplies binding before code after := by
  unfold lower at run
  dsimp only at run
  split at run
  · cases run
  · next counted =>
      constructor
      · intro extensible isZero
        rw [extensible, isZero] at counted
        exact counted rfl
      obtain ⟨binding, bound, made, run⟩ := Lower.bind_eq_ok run
      rw [Lower.state_of_lift made] at run
      refine ⟨binding, Lower.lift_eq_ok made, ?_⟩
      split at run
      · next isHelped =>
          obtain ⟨number, first, numbered, run⟩ := Lower.bind_eq_ok run
          obtain ⟨parts, second, added, run⟩ := Lower.bind_eq_ok run
          obtain ⟨done, third, helped, run⟩ := Lower.bind_eq_ok run
          cases run
          rw [Bool.and_eq_true, decide_eq_true_eq] at isHelped
          exact .throughHelper isHelped.1 numbered added helped
      · next isPlain =>
          obtain ⟨parts, first, added, run⟩ := Lower.bind_eq_ok run
          cases run
          refine .direct (fun isAccessor => ?_) added
          simpa [isAccessor] using isPlain

end CallResolution

/-! ## Expressions -/

theorem Site.typeOf_ok {expr : Expr} {type : DataType}
    (run : site.typeOf expr before = .ok (type, after)) :
    expr.type? site.context site.scope = some type ∧ after = before :=
  ⟨Lower.need_eq_ok run, Lower.state_of_need run⟩

namespace Expr

variable {code : Code.Expr}

theorem lowered_compare {op : CompareOp} {left right : Expr}
    (run : (Expr.compare op left right).lower site depth before = .ok (code, after)) :
    ∃ leftType rightType left' middle right',
      left.type? site.context site.scope = some leftType ∧
      right.type? site.context site.scope = some rightType ∧
      left.lower site depth before = .ok (left', middle) ∧
      right.lower site depth middle = .ok (right', after) ∧
      op.lower leftType rightType left' right' = .ok code := by
  rw [Expr.lower] at run
  obtain ⟨leftType, first, leftTyped, run⟩ := Lower.bind_eq_ok run
  obtain ⟨rightType, second, rightTyped, run⟩ := Lower.bind_eq_ok run
  obtain ⟨left', middle, leftRun, run⟩ := Lower.bind_eq_ok run
  obtain ⟨right', last, rightRun, compared⟩ := Lower.bind_eq_ok run
  obtain ⟨isLeft, rfl⟩ := Site.typeOf_ok leftTyped
  obtain ⟨isRight, rfl⟩ := Site.typeOf_ok rightTyped
  obtain rfl := Lower.state_of_lift compared
  exact ⟨leftType, rightType, left', middle, right', isLeft, isRight, leftRun, rightRun,
    Lower.lift_eq_ok compared⟩

theorem lowered_arith {op : ArithOp} {left right : Expr}
    (run : (Expr.arith op left right).lower site depth before = .ok (code, after)) :
    ∃ leftType rightType left' middle right',
      left.type? site.context site.scope = some leftType ∧
      right.type? site.context site.scope = some rightType ∧
      left.lower site (op.operandDepth depth) before = .ok (left', middle) ∧
      right.lower site (op.operandDepth depth) middle = .ok (right', after) ∧
      code = op.lower leftType rightType left' right' := by
  rw [Expr.lower] at run
  obtain ⟨leftType, first, leftTyped, run⟩ := Lower.bind_eq_ok run
  obtain ⟨rightType, second, rightTyped, run⟩ := Lower.bind_eq_ok run
  obtain ⟨left', middle, leftRun, run⟩ := Lower.bind_eq_ok run
  obtain ⟨right', last, rightRun, run⟩ := Lower.bind_eq_ok run
  cases run
  obtain ⟨isLeft, rfl⟩ := Site.typeOf_ok leftTyped
  obtain ⟨isRight, rfl⟩ := Site.typeOf_ok rightTyped
  exact ⟨leftType, rightType, left', middle, right', isLeft, isRight, leftRun, rightRun, rfl⟩

theorem lowered_unary {op : UnaryOp} {term : Expr}
    (run : (Expr.unary op term).lower site depth before = .ok (code, after)) :
    ∃ type term', term.type? site.context site.scope = some type ∧
      term.lower site depth before = .ok (term', after) ∧ code = op.lower type term' := by
  rw [Expr.lower] at run
  obtain ⟨type, first, typed, run⟩ := Lower.bind_eq_ok run
  obtain ⟨term', last, termRun, run⟩ := Lower.bind_eq_ok run
  cases run
  obtain ⟨isType, rfl⟩ := Site.typeOf_ok typed
  exact ⟨type, term', isType, termRun, rfl⟩

theorem lowered_const {value : Constant}
    (run : (Expr.const value).lower site depth before = .ok (code, after)) :
    ∃ text, Code.Literal.constant value = .ok text ∧ after = before ∧ code = .atom text := by
  rw [Expr.lower] at run
  obtain ⟨text, last, textRun, run⟩ := Lower.bind_eq_ok run
  cases run
  exact ⟨text, Lower.lift_eq_ok textRun, Lower.state_of_lift textRun, rfl⟩

theorem lowered_enumerated {value : EnumValue}
    (run : (Expr.enumerated value).lower site depth before = .ok (code, after)) :
    ∃ text, site.enumerated value = .ok text ∧ after = before ∧ code = .atom text := by
  rw [Expr.lower] at run
  obtain ⟨text, last, textRun, run⟩ := Lower.bind_eq_ok run
  cases run
  exact ⟨text, Lower.lift_eq_ok textRun, Lower.state_of_lift textRun, rfl⟩

theorem lowered_var {source : Variable}
    (run : (Expr.var source).lower site depth before = .ok (code, after)) :
    ∃ place, source.lower site depth before = .ok (place, after) ∧ code = .load place := by
  rw [Expr.lower] at run
  obtain ⟨place, last, placeRun, run⟩ := Lower.bind_eq_ok run
  cases run
  exact ⟨place, placeRun, rfl⟩

theorem lowered_call {function : Ident} {arguments : List Argument}
    (run : (Expr.call function arguments).lower site depth before = .ok (code, after)) :
    ∃ resolution,
      CallResolution.of? site.context site.scope function arguments = some resolution ∧
      resolution.lower site depth function arguments
        (Argument.supplies site (depth + 1) arguments) before = .ok (code, after) := by
  rw [Expr.lower] at run
  obtain ⟨resolution, first, found, callRun⟩ := Lower.bind_eq_ok run
  obtain rfl := Lower.state_of_need found
  exact ⟨resolution, Lower.need_eq_ok found, callRun⟩

end Expr

/-! ## Statements -/

variable {around : List Breakable}

theorem Site.lowered_invoke {block : Ident} {arguments : List Argument} {code : Code.Stmt}
    (run : site.lowerInvoke depth block arguments before = .ok (code, after)) :
    ∃ signature binding copiesIn middle copiesOut,
      site.blockSignature? block = some signature ∧
      Binding.make signature.parameters arguments = .ok binding ∧
      (site.instanceAccess block).copiesIn (Argument.supplies site depth arguments)
        binding.parameters before = .ok (copiesIn, middle) ∧
      (site.instanceAccess block).copiesOut arguments (Argument.supplies site depth arguments)
        binding.parameters middle = .ok (copiesOut, after) ∧
      code = .invoke copiesIn
        (.call (signature.name.upper ++ "_body__") [(site.instanceAccess block).pointer])
        copiesOut := by
  rw [Site.lowerInvoke] at run
  obtain ⟨signature, first, found, run⟩ := Lower.bind_eq_ok run
  obtain ⟨binding, second, made, run⟩ := Lower.bind_eq_ok run
  obtain ⟨copiesIn, third, copiesInRun, run⟩ := Lower.bind_eq_ok run
  obtain ⟨copiesOut, last, copiesOutRun, run⟩ := Lower.bind_eq_ok run
  cases run
  obtain rfl := Lower.state_of_need found
  obtain rfl := Lower.state_of_lift made
  exact ⟨signature, binding, copiesIn, third, copiesOut, Lower.need_eq_ok found,
    Lower.lift_eq_ok made, copiesInRun, copiesOutRun, rfl⟩

namespace Stmt

variable {code : Code.Stmt}

theorem lowered_assign {target : Variable} {value : Expr}
    (run : (assign target value).lower site depth around before = .ok (code, after)) :
    ∃ type value' middle place, site.context.variableType site.scope target = .ok type ∧
      value.lower site depth before = .ok (value', middle) ∧
      target.lower site depth middle = .ok (place, after) ∧
      code = .store ⟨place, value'.checked type⟩ := by
  rw [Stmt.lower] at run
  obtain ⟨type, first, typeRun, run⟩ := Lower.bind_eq_ok run
  obtain ⟨value', second, valueRun, run⟩ := Lower.bind_eq_ok run
  obtain ⟨place, third, placeRun, run⟩ := Lower.bind_eq_ok run
  cases run
  obtain rfl := Lower.state_of_lift typeRun
  exact ⟨type, value', second, place, Lower.lift_eq_ok typeRun, valueRun, placeRun, rfl⟩

theorem lowered_ifElse {test : Expr} {body otherwise : List Stmt} {elseIfs : List ElseIf}
    (run : (ifElse test body elseIfs otherwise).lower site depth around before =
      .ok (code, after)) :
    ∃ test' tested body' opened elseIfs' chained otherwise',
      test.lower site depth before = .ok (test', tested) ∧
      Stmt.lowerList site (depth + 1) around body tested = .ok (body', opened) ∧
      ElseIf.lowerList site depth around elseIfs opened = .ok (elseIfs', chained) ∧
      Stmt.lowerList site (depth + 1) around otherwise chained = .ok (otherwise', after) ∧
      code = .ifElse test' body' elseIfs' otherwise' := by
  rw [Stmt.lower] at run
  obtain ⟨test', tested, testRun, run⟩ := Lower.bind_eq_ok run
  obtain ⟨body', opened, bodyRun, run⟩ := Lower.bind_eq_ok run
  obtain ⟨elseIfs', chained, elseIfsRun, run⟩ := Lower.bind_eq_ok run
  obtain ⟨otherwise', last, otherwiseRun, run⟩ := Lower.bind_eq_ok run
  cases run
  exact ⟨test', tested, body', opened, elseIfs', chained, otherwise', testRun, bodyRun,
    elseIfsRun, otherwiseRun, rfl⟩

theorem lowered_select {selector : Expr} {groups : List CaseGroup} {otherwise : List Stmt}
    (run : (select selector groups otherwise).lower site depth around before =
      .ok (code, after)) :
    ∃ type selector' selected cases' cased ranges ranged otherwise',
      selector.lower site depth before = .ok (selector', selected) ∧
      CaseGroup.lowerCases site (depth + 3) (.selection :: around) groups selected =
        .ok (cases', cased) ∧
      CaseGroup.lowerRanges site (depth + 4) (.selection :: around) groups cased =
        .ok (ranges, ranged) ∧
      Stmt.lowerList site (if ranges.isEmpty then depth + 3 else depth + 4)
        (.selection :: around) otherwise ranged = .ok (otherwise', after) ∧
      code = .select type selector' cases' ranges otherwise' := by
  rw [Stmt.lower] at run
  obtain ⟨type, first, typeRun, run⟩ := Lower.bind_eq_ok run
  obtain ⟨selector', selected, selectorRun, run⟩ := Lower.bind_eq_ok run
  obtain ⟨cases', cased, casesRun, run⟩ := Lower.bind_eq_ok run
  obtain ⟨ranges, ranged, rangesRun, run⟩ := Lower.bind_eq_ok run
  obtain ⟨otherwise', last, otherwiseRun, run⟩ := Lower.bind_eq_ok run
  cases run
  obtain rfl := Lower.state_of_need typeRun
  exact ⟨type.cName, selector', selected, cases', cased, ranges, ranged, otherwise',
    selectorRun, casesRun, rangesRun, otherwiseRun, rfl⟩

theorem lowered_forTo {control : Ident} {first last : Expr} {step : Option Expr}
    {body : List Stmt}
    (run : (forTo control first last step body).lower site depth around before =
      .ok (code, after)) :
    ∃ number opened type first' started last' ended step' stepped place placed body',
      Lower.nextLoop before = .ok (number, opened) ∧
      site.context.variableType site.scope (.named control) = .ok type ∧
      first.lower site depth opened = .ok (first', started) ∧
      last.lower site depth started = .ok (last', ended) ∧
      site.lowerStep depth step ended = .ok (step', stepped) ∧
      (Variable.named control).lower site depth stepped = .ok (place, placed) ∧
      Stmt.lowerList site (depth + 1) (.loop number :: around) body placed =
        .ok (body', after) ∧
      code = site.countingLoop type place first' last' step' body'
        (if after.jumped.contains number then some number else none) := by
  rw [Stmt.lower] at run
  obtain ⟨number, opened, numberRun, run⟩ := Lower.bind_eq_ok run
  obtain ⟨type, typed, typeRun, run⟩ := Lower.bind_eq_ok run
  obtain ⟨first', started, firstRun, run⟩ := Lower.bind_eq_ok run
  obtain ⟨last', ended, lastRun, run⟩ := Lower.bind_eq_ok run
  obtain ⟨step', stepped, stepRun, run⟩ := Lower.bind_eq_ok run
  obtain ⟨place, placed, placeRun, run⟩ := Lower.bind_eq_ok run
  obtain ⟨body', done, bodyRun, run⟩ := Lower.bind_eq_ok run
  cases run
  obtain rfl := Lower.state_of_lift typeRun
  exact ⟨number, _, type, first', started, last', ended, step', stepped, place, placed, body',
    numberRun, Lower.lift_eq_ok typeRun, firstRun, lastRun, stepRun, placeRun, bodyRun, rfl⟩

theorem lowered_whileDo {test : Expr} {body : List Stmt}
    (run : (whileDo test body).lower site depth around before = .ok (code, after)) :
    ∃ test' tested number opened body', test.lower site depth before = .ok (test', tested) ∧
      Lower.nextLoop tested = .ok (number, opened) ∧
      Stmt.lowerList site (depth + 1) (.loop number :: around) body opened =
        .ok (body', after) ∧
      code = .whileLoop test' body'
        (if after.jumped.contains number then some number else none) := by
  rw [Stmt.lower] at run
  obtain ⟨test', tested, testRun, run⟩ := Lower.bind_eq_ok run
  obtain ⟨number, opened, numberRun, run⟩ := Lower.bind_eq_ok run
  obtain ⟨body', done, bodyRun, run⟩ := Lower.bind_eq_ok run
  cases run
  exact ⟨test', tested, number, opened, body', testRun, numberRun, bodyRun, rfl⟩

theorem lowered_repeatUntil {test : Expr} {body : List Stmt}
    (run : (repeatUntil body test).lower site depth around before = .ok (code, after)) :
    ∃ number opened body' done test', Lower.nextLoop before = .ok (number, opened) ∧
      Stmt.lowerList site (depth + 1) (.loop number :: around) body opened =
        .ok (body', done) ∧
      test.lower site depth done = .ok (test', after) ∧
      code = .untilLoop body' test'
        (if after.jumped.contains number then some number else none) := by
  rw [Stmt.lower] at run
  obtain ⟨number, opened, numberRun, run⟩ := Lower.bind_eq_ok run
  obtain ⟨body', done, bodyRun, run⟩ := Lower.bind_eq_ok run
  obtain ⟨test', tested, testRun, run⟩ := Lower.bind_eq_ok run
  cases run
  exact ⟨number, opened, body', done, test', numberRun, bodyRun, testRun, rfl⟩

/-- A loop is left by a break or, from within a selection, by a jump that is noted. -/
theorem lowered_leaveLoop
    (run : leaveLoop.lower site depth around before = .ok (code, after)) :
    (Breakable.jumpTarget? false around = none ∧ code = .leaveLoop ∧ after = before) ∨
      ∃ loop, Breakable.jumpTarget? false around = some loop ∧ code = .jumpOut loop ∧
        after = { before with jumped := loop :: before.jumped } := by
  rw [Stmt.lower] at run
  cases target : Breakable.jumpTarget? false around with
  | none =>
      rw [target] at run
      cases run
      exact .inl ⟨rfl, rfl, rfl⟩
  | some loop =>
      rw [target] at run
      cases run
      exact .inr ⟨loop, rfl, rfl, rfl⟩

theorem lowered_cons {stmt : Stmt} {rest : List Stmt} {codes : List Code.Stmt}
    (run : Stmt.lowerList site depth around (stmt :: rest) before = .ok (codes, after)) :
    ∃ code middle others, stmt.lower site depth around before = .ok (code, middle) ∧
      Stmt.lowerList site depth around rest middle = .ok (others, after) ∧
      codes = code :: others := by
  rw [Stmt.lowerList] at run
  obtain ⟨code, middle, stmtRun, run⟩ := Lower.bind_eq_ok run
  obtain ⟨others, last, restRun, run⟩ := Lower.bind_eq_ok run
  cases run
  exact ⟨code, middle, others, stmtRun, restRun, rfl⟩

end Stmt

theorem ElseIf.lowered_cons {test : Expr} {body : List Stmt} {rest : List ElseIf}
    {branches : List Code.Branch}
    (run : ElseIf.lowerList site depth around (.mk test body :: rest) before =
      .ok (branches, after)) :
    ∃ test' tested body' middle others, test.lower site depth before = .ok (test', tested) ∧
      Stmt.lowerList site (depth + 1) around body tested = .ok (body', middle) ∧
      ElseIf.lowerList site depth around rest middle = .ok (others, after) ∧
      branches = .mk test' body' :: others := by
  rw [ElseIf.lowerList] at run
  obtain ⟨test', tested, testRun, run⟩ := Lower.bind_eq_ok run
  obtain ⟨body', middle, bodyRun, run⟩ := Lower.bind_eq_ok run
  obtain ⟨others, last, restRun, run⟩ := Lower.bind_eq_ok run
  cases run
  exact ⟨test', tested, body', middle, others, testRun, bodyRun, restRun, rfl⟩

/-- A group gives a case just if it has single values among its labels. -/
theorem CaseGroup.loweredCases_cons {labels : List CaseLabel} {body : List Stmt}
    {rest : List CaseGroup} {cases : List Code.Case}
    (run : CaseGroup.lowerCases site depth around (.mk labels body :: rest) before =
      .ok (cases, after)) :
    ∃ singles, CaseLabel.lowerSingles site labels = .ok singles ∧
      (singles = [] ∧ CaseGroup.lowerCases site depth around rest before = .ok (cases, after) ∨
        singles ≠ [] ∧ ∃ body' middle others,
          Stmt.lowerList site depth around body before = .ok (body', middle) ∧
          CaseGroup.lowerCases site depth around rest middle = .ok (others, after) ∧
          cases = .mk singles body' :: others) := by
  rw [CaseGroup.lowerCases] at run
  obtain ⟨singles, first, singlesRun, run⟩ := Lower.bind_eq_ok run
  obtain rfl := Lower.state_of_lift singlesRun
  refine ⟨singles, Lower.lift_eq_ok singlesRun, ?_⟩
  cases singles with
  | nil => exact .inl ⟨rfl, run⟩
  | cons single singles =>
      obtain ⟨body', middle, bodyRun, run⟩ := Lower.bind_eq_ok run
      obtain ⟨others, last, restRun, run⟩ := Lower.bind_eq_ok run
      cases run
      exact .inr ⟨List.cons_ne_nil _ _, body', middle, others, bodyRun, restRun, rfl⟩

/-- A group gives a case with bounds just if it has ranges among its labels. -/
theorem CaseGroup.loweredRanges_cons {labels : List CaseLabel} {body : List Stmt}
    {rest : List CaseGroup} {cases : List Code.RangeCase}
    (run : CaseGroup.lowerRanges site depth around (.mk labels body :: rest) before =
      .ok (cases, after)) :
    CaseLabel.lowerRanges labels = [] ∧
        CaseGroup.lowerRanges site depth around rest before = .ok (cases, after) ∨
      CaseLabel.lowerRanges labels ≠ [] ∧ ∃ body' middle others,
        Stmt.lowerList site depth around body before = .ok (body', middle) ∧
        CaseGroup.lowerRanges site depth around rest middle = .ok (others, after) ∧
        cases = .mk (CaseLabel.lowerRanges labels) body' :: others := by
  rw [CaseGroup.lowerRanges] at run
  cases ranges : CaseLabel.lowerRanges labels with
  | nil =>
      rw [ranges] at run
      exact .inl ⟨rfl, run⟩
  | cons range more =>
      rw [ranges] at run
      obtain ⟨body', middle, bodyRun, run⟩ := Lower.bind_eq_ok run
      obtain ⟨others, last, restRun, run⟩ := Lower.bind_eq_ok run
      cases run
      exact .inr ⟨List.cons_ne_nil _ _, body', middle, others, bodyRun, restRun, rfl⟩

end StructuredText
