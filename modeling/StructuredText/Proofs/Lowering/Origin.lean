import StructuredText.Proofs.Code.Visible
import StructuredText.Proofs.Lowering.Frame
import StructuredText.Proofs.Lowering.Supply

/-!
# Where the code of a body comes from

Each statement in the code of a body is what one of the statements of the body is lowered
to, however deep the two are nested, and each helper is added by a call that stands in
the body.  So what holds of the code of single statements and of the helpers of single
calls holds of all the code of a body.
-/

set_option autoImplicit false

namespace StructuredText

/-! ## Helpers -/

namespace LoweringState

def HelpedBy (site : Site) (exprs : List Expr) (before after : LoweringState) : Prop :=
  ∀ helper ∈ after.helpers, helper ∈ before.helpers ∨ ∃ expr ∈ exprs, expr.Adds site helper

variable {site : Site} {exprs : List Expr} {first second third : LoweringState}

theorem HelpedBy.of_eq (same : second.helpers = first.helpers) :
    first.HelpedBy site exprs second := by
  intro helper member
  exact .inl (same ▸ member)

theorem HelpedBy.trans (early : first.HelpedBy site exprs second)
    (late : second.HelpedBy site exprs third) : first.HelpedBy site exprs third := by
  intro helper member
  rcases late helper member with inSecond | isAdded
  · exact early helper inSecond
  · exact .inr isAdded

theorem allowsCalls_helpedBy (site : Site) (exprs : List Expr) :
    AllowsCalls site exprs (HelpedBy site exprs) where
  refl _ := .of_eq rfl
  trans := HelpedBy.trans
  counted _ := .of_eq rfl
  helped state _ expr member helper adds := by
    intro other isHelper
    rcases List.mem_append.mp isHelper with isOld | isNew
    · exact .inl isOld
    · exact .inr ⟨expr, member, List.mem_singleton.mp isNew ▸ adds⟩

end LoweringState

theorem Expr.helpedBy_of_lower {site : Site} {exprs : List Expr} {expr : Expr} {depth : Nat}
    {before after : LoweringState} {code : Code.Expr} (inside : expr.parts ⊆ exprs)
    (run : expr.lower site depth before = .ok (code, after)) : before.HelpedBy site exprs after :=
  Expr.lower_moves (LoweringState.allowsCalls_helpedBy site exprs) expr depth inside
    before code after run

theorem Variable.helpedBy_of_lower {site : Site} {exprs : List Expr} {source : Variable}
    {depth : Nat} {before after : LoweringState} {place : Code.Place}
    (inside : source.parts ⊆ exprs)
    (run : source.lower site depth before = .ok (place, after)) :
    before.HelpedBy site exprs after :=
  Variable.lower_moves (LoweringState.allowsCalls_helpedBy site exprs) source depth inside
    before place after run

theorem Lower.helpedBy_of_nextLoop {site : Site} {exprs : List Expr} {number : Nat}
    {before after : LoweringState} (run : Lower.nextLoop before = .ok (number, after)) :
    before.HelpedBy site exprs after := by
  cases run
  exact .of_eq rfl

/-! ## Single statements -/

/-- The code that a statement is lowered to at a site: at some depth, inside some loops and
selections, and from some state. -/
def Stmt.LowersTo (site : Site) (stmt : Stmt) (code : Code.Stmt) : Prop :=
  ∃ depth around before after, stmt.lower site depth around before = .ok (code, after)

def Site.StepsBy (site : Site) (step : Option Expr) (code : Code.Step) : Prop :=
  ∃ depth before after, site.lowerStep depth step before = .ok (code, after)

/-- What a statement becomes, apart from the statements in it and from what it tests. -/
inductive Stmt.Emits (site : Site) : Stmt → Code.Stmt → Prop where
  | store {target : Variable} {value : Expr} {type : DataType} {place : Code.Place}
      {code : Code.Expr} (typed : site.context.variableType site.scope target = .ok type)
      (placed : target.LowersTo site place) (valued : value.LowersTo site code) :
      Emits site (.assign target value) (.store ⟨place, code.checked type⟩)
  | invoke {block : Ident} {arguments : List Argument} {before after : List Code.Store}
      {body : Code.Expr} {depth : Nat} {state last : LoweringState}
      (run : site.lowerInvoke depth block arguments state =
        .ok (.invoke before body after, last)) :
      Emits site (.invoke block arguments) (.invoke before body after)
  | ifElse {test test' body body' elseIfs elseIfs' otherwise otherwise'} :
      Emits site (.ifElse test body elseIfs otherwise) (.ifElse test' body' elseIfs' otherwise')
  | select {selector groups otherwise type selector' cases ranges otherwise'} :
      Emits site (.select selector groups otherwise)
        (.select type selector' cases ranges otherwise')
  | forLoop {control : Ident} {first last : Expr} {step : Option Expr} {body : List Stmt}
      {type : DataType} {place : Code.Place} {first' last' : Code.Expr} {step' : Code.Step}
      {body' : List Code.Stmt} {exit : Option Nat} (isDirect : site.style = .direct)
      (typed : site.context.variableType site.scope (.named control) = .ok type)
      (placed : (Variable.named control).LowersTo site place)
      (starts : first.LowersTo site first') (steps : site.StepsBy step step') :
      Emits site (.forTo control first last step body)
        (.forLoop place (first'.checked type) last' step' body' exit)
  | countLoop {control : Ident} {first last : Expr} {step : Option Expr} {body : List Stmt}
      {type : DataType} {place : Code.Place} {first' last' : Code.Expr} {step' : Code.Step}
      {body' : List Code.Stmt} {exit : Option Nat} (isAccessor : site.style = .accessor)
      (typed : site.context.variableType site.scope (.named control) = .ok type)
      (placed : (Variable.named control).LowersTo site place)
      (starts : first.LowersTo site first') (steps : site.StepsBy step step') :
      Emits site (.forTo control first last step body)
        (.countLoop place (first'.checked type) last' step'
          ((step'.next (.load place)).checked type) body' exit)
  | whileLoop {test body test' body' exit} :
      Emits site (.whileDo test body) (.whileLoop test' body' exit)
  | untilLoop {body test body' test' exit} :
      Emits site (.repeatUntil body test) (.untilLoop body' test' exit)
  | leaveUnit : Emits site .leaveUnit .leaveUnit
  | leaveLoop : Emits site .leaveLoop .leaveLoop
  | jumpOut {loop : Nat} : Emits site .leaveLoop (.jumpOut loop)
  | code {text : String} : Emits site (.pragma (.code text)) (.code text)
  | accessorCode {text : String} : Emits site (.pragma (.code text)) (.accessorCode text)
  | enable : Emits site (.pragma .enable) (.switch true)
  | disable : Emits site (.pragma .disable) (.switch false)

theorem Stmt.emits_of_lowersTo {site : Site} {stmt : Stmt} {code : Code.Stmt}
    (lowers : stmt.LowersTo site code) : stmt.Emits site code := by
  obtain ⟨depth, around, before, after, run⟩ := lowers
  cases stmt with
  | assign target value =>
      obtain ⟨type, value', middle, place, typed, valueRun, placeRun, rfl⟩ :=
        Stmt.lowered_assign run
      exact .store typed ⟨_, _, _, placeRun⟩ ⟨_, _, _, valueRun⟩
  | invoke block arguments =>
      rw [Stmt.lower_invoke] at run
      obtain ⟨signature, binding, copiesIn, middle, copiesOut, -, -, -, -, rfl⟩ :=
        Site.lowered_invoke run
      exact .invoke run
  | ifElse test body elseIfs otherwise =>
      obtain ⟨test', first, body', second, elseIfs', third, otherwise', -, -, -, -, rfl⟩ :=
        Stmt.lowered_ifElse run
      exact .ifElse
  | select selector groups otherwise =>
      obtain ⟨type, selector', selected, cases', cased, ranges, ranged, otherwise', -, -, -, -,
        rfl⟩ := Stmt.lowered_select run
      exact .select
  | forTo control first last step body =>
      obtain ⟨number, opened, type, first', started, last', ended, step', stepped, place, placed,
        body', -, typed, firstRun, -, stepRun, placeRun, -, rfl⟩ := Stmt.lowered_forTo run
      unfold Site.countingLoop
      cases style : site.style with
      | direct =>
          exact .forLoop style typed ⟨_, _, _, placeRun⟩ ⟨_, _, _, firstRun⟩ ⟨_, _, _, stepRun⟩
      | accessor =>
          exact .countLoop style typed ⟨_, _, _, placeRun⟩ ⟨_, _, _, firstRun⟩
            ⟨_, _, _, stepRun⟩
  | whileDo test body =>
      obtain ⟨test', first, number, second, body', -, -, -, rfl⟩ := Stmt.lowered_whileDo run
      exact .whileLoop
  | repeatUntil body test =>
      obtain ⟨number, opened, body', done, test', -, -, -, rfl⟩ := Stmt.lowered_repeatUntil run
      exact .untilLoop
  | leaveUnit =>
      rw [Stmt.lower] at run
      cases run
      exact .leaveUnit
  | leaveLoop =>
      obtain ⟨-, rfl, -⟩ | ⟨loop, -, rfl, -⟩ := Stmt.lowered_leaveLoop run
      · exact .leaveLoop
      · exact .jumpOut
  | pragma directive =>
      cases directive with
      | code text =>
          rw [Stmt.lower] at run
          cases run
          unfold Site.code
          cases site.style with
          | direct => exact .code
          | accessor => exact .accessorCode
      | enable =>
          rw [Stmt.lower] at run
          cases run
          exact .enable
      | disable =>
          rw [Stmt.lower] at run
          cases run
          exact .disable

/-! ## All statements -/

/-- The parts of code come from statements: each statement of the code is what one of them
is lowered to, and each new helper is added in an expression of one of them. -/
structure Site.Stems (site : Site) (stmts : List Stmt) (before after : LoweringState)
    (codes : List Code.Stmt) : Prop where
  helpers : before.HelpedBy site (stmts.flatMap Stmt.parts) after
  code : ∀ code ∈ codes, ∃ stmt ∈ stmts, stmt.LowersTo site code

namespace Site.Stems

variable {site : Site} {stmts : List Stmt} {before middle after : LoweringState}
  {codes others : List Code.Stmt}

theorem nil (helped : before.HelpedBy site (stmts.flatMap Stmt.parts) after) :
    Stems site stmts before after [] :=
  ⟨helped, fun _ member => absurd member List.not_mem_nil⟩

theorem append (early : Stems site stmts before middle codes)
    (late : Stems site stmts middle after others) :
    Stems site stmts before after (codes ++ others) := by
  refine ⟨early.helpers.trans late.helpers, ?_⟩
  intro code member
  rcases List.mem_append.mp member with inFirst | inSecond
  · exact early.code code inFirst
  · exact late.code code inSecond

theorem behind (stems : Stems site stmts middle after codes)
    (helped : before.HelpedBy site (stmts.flatMap Stmt.parts) middle) :
    Stems site stmts before after codes :=
  ⟨helped.trans stems.helpers, stems.code⟩

theorem ahead (stems : Stems site stmts before middle codes)
    (helped : middle.HelpedBy site (stmts.flatMap Stmt.parts) after) :
    Stems site stmts before after codes :=
  ⟨stems.helpers.trans helped, stems.code⟩

theorem cons {stmt : Stmt} {code : Code.Stmt} (isStmt : stmt ∈ stmts)
    (lowers : stmt.LowersTo site code) (stems : Stems site stmts before after codes) :
    Stems site stmts before after (code :: codes) := by
  refine ⟨stems.helpers, ?_⟩
  intro other member
  rcases List.mem_cons.mp member with rfl | inRest
  · exact ⟨stmt, isStmt, lowers⟩
  · exact stems.code other inRest

theorem single {stmt : Stmt} {code : Code.Stmt} (isStmt : stmt ∈ stmts)
    (lowers : stmt.LowersTo site code)
    (helped : before.HelpedBy site (stmts.flatMap Stmt.parts) after) (alone : code.all = [code]) :
    Stems site stmts before after code.all := by
  rw [alone]
  exact cons isStmt lowers (nil helped)

end Site.Stems

theorem Stmt.self_mem_all (stmt : Stmt) : stmt ∈ stmt.all := by
  cases stmt <;> simp [Stmt.all]

theorem Stmt.parts_subset {stmt : Stmt} {stmts : List Stmt} (member : stmt ∈ stmts) :
    stmt.parts ⊆ stmts.flatMap Stmt.parts :=
  fun _ isPart => List.mem_flatMap.mpr ⟨stmt, member, isPart⟩

section Lower

variable {site : Site} {stmts : List Stmt}

/-- All that a step of lowering gives stems from the statements, whatever is around it. -/
def Site.StemsFrom {α : Type} (site : Site) (stmts : List Stmt)
    (step : Nat → List Breakable → Lower α) (all : α → List Code.Stmt) : Prop :=
  ∀ ⦃depth around before after codes⦄, step depth around before = .ok (codes, after) →
    Site.Stems site stmts before after (all codes)

/-! ### One lemma for each form of statement

The statement itself is known to be among the statements, and its parts to stem from them. -/

section Forms

variable {depth : Nat} {around : List Breakable} {before after : LoweringState}
  {code : Code.Stmt} {test : Expr} {body otherwise : List Stmt}

theorem Stmt.stems_assign {target : Variable} {value : Expr}
    (isStmt : .assign target value ∈ stmts)
    (run : (Stmt.assign target value).lower site depth around before = .ok (code, after)) :
    Site.Stems site stmts before after code.all := by
  have lowers : Stmt.LowersTo site _ code := ⟨depth, around, before, after, run⟩
  have parts := Stmt.parts_subset isStmt
  rw [Stmt.parts, List.append_subset] at parts
  obtain ⟨type, value', middle, place, -, valueRun, placeRun, rfl⟩ := Stmt.lowered_assign run
  have valued := Expr.helpedBy_of_lower parts.2 valueRun
  have placed := Variable.helpedBy_of_lower parts.1 placeRun
  exact .single isStmt lowers (valued.trans placed) (by simp [Code.Stmt.all])

theorem Stmt.stems_invoke {block : Ident} {arguments : List Argument}
    (isStmt : .invoke block arguments ∈ stmts)
    (run : (Stmt.invoke block arguments).lower site depth around before = .ok (code, after)) :
    Site.Stems site stmts before after code.all := by
  have lowers : Stmt.LowersTo site _ code := ⟨depth, around, before, after, run⟩
  rw [Stmt.lower_invoke] at run
  have helped := Site.lowerInvoke_moves (LoweringState.allowsCalls_helpedBy site _) depth
    block arguments (Stmt.parts_subset isStmt) before code after run
  obtain ⟨signature, binding, copiesIn, middle, copiesOut, -, -, -, -, rfl⟩ :=
    Site.lowered_invoke run
  exact .single isStmt lowers helped (by simp [Code.Stmt.all])

theorem Stmt.stems_ifElse {elseIfs : List ElseIf}
    (isStmt : .ifElse test body elseIfs otherwise ∈ stmts)
    (inBody : site.StemsFrom stmts (Stmt.lowerList site · · body) Code.Stmt.allList)
    (inElseIfs : site.StemsFrom stmts (ElseIf.lowerList site · · elseIfs) Code.Branch.allList)
    (inOtherwise : site.StemsFrom stmts (Stmt.lowerList site · · otherwise) Code.Stmt.allList)
    (run : (Stmt.ifElse test body elseIfs otherwise).lower site depth around before =
      .ok (code, after)) :
    Site.Stems site stmts before after code.all := by
  have lowers : Stmt.LowersTo site _ code := ⟨depth, around, before, after, run⟩
  have parts := Stmt.parts_subset isStmt
  rw [Stmt.parts, List.append_subset] at parts
  obtain ⟨test', first, body', second, elseIfs', third, otherwise', testRun, bodyRun,
    elseIfsRun, otherwiseRun, rfl⟩ := Stmt.lowered_ifElse run
  have tested := Expr.helpedBy_of_lower parts.1 testRun
  have stems := ((inBody bodyRun).append (inElseIfs elseIfsRun)).append
    (inOtherwise otherwiseRun)
  rw [Code.Stmt.all]
  exact .cons isStmt lowers (stems.behind tested)

theorem Stmt.stems_select {selector : Expr} {groups : List CaseGroup}
    (isStmt : .select selector groups otherwise ∈ stmts)
    (inCases : site.StemsFrom stmts (CaseGroup.lowerCases site · · groups) Code.Case.allList)
    (inRanges : site.StemsFrom stmts (CaseGroup.lowerRanges site · · groups)
      Code.RangeCase.allList)
    (inOtherwise : site.StemsFrom stmts (Stmt.lowerList site · · otherwise) Code.Stmt.allList)
    (run : (Stmt.select selector groups otherwise).lower site depth around before =
      .ok (code, after)) :
    Site.Stems site stmts before after code.all := by
  have lowers : Stmt.LowersTo site _ code := ⟨depth, around, before, after, run⟩
  obtain ⟨type, selector', selected, cases', cased, ranges, ranged, otherwise', selectorRun,
    casesRun, rangesRun, otherwiseRun, rfl⟩ := Stmt.lowered_select run
  have selected := Expr.helpedBy_of_lower (Stmt.parts_subset isStmt) selectorRun
  have stems := ((inCases casesRun).append (inRanges rangesRun)).append
    (inOtherwise otherwiseRun)
  rw [Code.Stmt.all]
  exact .cons isStmt lowers (stems.behind selected)

theorem Stmt.stems_forTo {control : Ident} {first last : Expr} {step : Option Expr}
    (isStmt : .forTo control first last step body ∈ stmts)
    (inBody : site.StemsFrom stmts (Stmt.lowerList site · · body) Code.Stmt.allList)
    (run : (Stmt.forTo control first last step body).lower site depth around before =
      .ok (code, after)) :
    Site.Stems site stmts before after code.all := by
  have lowers : Stmt.LowersTo site _ code := ⟨depth, around, before, after, run⟩
  have parts := Stmt.parts_subset isStmt
  rw [Stmt.parts, List.append_subset, List.append_subset] at parts
  obtain ⟨⟨firstInside, lastInside⟩, stepInside⟩ := parts
  obtain ⟨number, opened, type, first', started, last', ended, step', stepped, place, placed,
    body', numberRun, -, firstRun, lastRun, stepRun, placeRun, bodyRun, rfl⟩ :=
    Stmt.lowered_forTo run
  have bounds := (Expr.helpedBy_of_lower firstInside firstRun).trans
    (Expr.helpedBy_of_lower lastInside lastRun)
  have opens := (Lower.helpedBy_of_nextLoop numberRun).trans bounds
  have stepped := Site.lowerStep_moves (LoweringState.allowsCalls_helpedBy site _) depth step
    stepInside _ _ _ stepRun
  have placed := stepped.trans (Variable.helpedBy_of_lower (List.nil_subset _) placeRun)
  have inLoop := (inBody bodyRun).behind (opens.trans placed)
  unfold Site.countingLoop at lowers ⊢
  cases style : site.style with
  | direct | accessor =>
      simp only [style] at lowers ⊢
      rw [Code.Stmt.all]
      exact .cons isStmt lowers inLoop

theorem Stmt.stems_whileDo (isStmt : .whileDo test body ∈ stmts)
    (inBody : site.StemsFrom stmts (Stmt.lowerList site · · body) Code.Stmt.allList)
    (run : (Stmt.whileDo test body).lower site depth around before = .ok (code, after)) :
    Site.Stems site stmts before after code.all := by
  have lowers : Stmt.LowersTo site _ code := ⟨depth, around, before, after, run⟩
  obtain ⟨test', first, number, second, body', testRun, numberRun, bodyRun, rfl⟩ :=
    Stmt.lowered_whileDo run
  have tested := Expr.helpedBy_of_lower (Stmt.parts_subset isStmt) testRun
  have opens := tested.trans (Lower.helpedBy_of_nextLoop numberRun)
  rw [Code.Stmt.all]
  exact .cons isStmt lowers ((inBody bodyRun).behind opens)

theorem Stmt.stems_repeatUntil (isStmt : .repeatUntil body test ∈ stmts)
    (inBody : site.StemsFrom stmts (Stmt.lowerList site · · body) Code.Stmt.allList)
    (run : (Stmt.repeatUntil body test).lower site depth around before = .ok (code, after)) :
    Site.Stems site stmts before after code.all := by
  have lowers : Stmt.LowersTo site _ code := ⟨depth, around, before, after, run⟩
  obtain ⟨number, opened, body', done, test', numberRun, bodyRun, testRun, rfl⟩ :=
    Stmt.lowered_repeatUntil run
  have opens := (inBody bodyRun).behind (Lower.helpedBy_of_nextLoop numberRun)
  have tested := Expr.helpedBy_of_lower (Stmt.parts_subset isStmt) testRun
  rw [Code.Stmt.all]
  exact .cons isStmt lowers (opens.ahead tested)

theorem Stmt.stems_leaveUnit (isStmt : .leaveUnit ∈ stmts)
    (run : Stmt.leaveUnit.lower site depth around before = .ok (code, after)) :
    Site.Stems site stmts before after code.all := by
  have lowers : Stmt.LowersTo site _ code := ⟨depth, around, before, after, run⟩
  rw [Stmt.lower] at run
  cases run
  exact .single isStmt lowers (.of_eq rfl) (by simp [Code.Stmt.all])

theorem Stmt.stems_leaveLoop (isStmt : .leaveLoop ∈ stmts)
    (run : Stmt.leaveLoop.lower site depth around before = .ok (code, after)) :
    Site.Stems site stmts before after code.all := by
  have lowers : Stmt.LowersTo site _ code := ⟨depth, around, before, after, run⟩
  obtain ⟨-, rfl, rfl⟩ | ⟨loop, -, rfl, rfl⟩ := Stmt.lowered_leaveLoop run
  · exact .single isStmt lowers (.of_eq rfl) (by simp [Code.Stmt.all])
  · exact .single isStmt lowers (.of_eq rfl) (by simp [Code.Stmt.all])

theorem Stmt.stems_pragma {directive : Pragma} (isStmt : .pragma directive ∈ stmts)
    (run : (Stmt.pragma directive).lower site depth around before = .ok (code, after)) :
    Site.Stems site stmts before after code.all := by
  have lowers : Stmt.LowersTo site _ code := ⟨depth, around, before, after, run⟩
  cases directive with
  | code text =>
      rw [Stmt.lower] at run
      cases run
      refine .single isStmt lowers (.of_eq rfl) ?_
      unfold Site.code
      cases site.style <;> simp [Code.Stmt.all]
  | enable | disable =>
      rw [Stmt.lower] at run
      cases run
      exact .single isStmt lowers (.of_eq rfl) (by simp [Code.Stmt.all])

end Forms

mutual

theorem Stmt.stems_of_lower :
    ∀ stmt : Stmt, stmt.all ⊆ stmts → site.StemsFrom stmts (stmt.lower site) Code.Stmt.all
  | .assign target value, inside => fun _ _ _ _ _ run =>
      Stmt.stems_assign (inside (Stmt.self_mem_all _)) run
  | .invoke block arguments, inside => fun _ _ _ _ _ run =>
      Stmt.stems_invoke (inside (Stmt.self_mem_all _)) run
  | .ifElse test body elseIfs otherwise, inside => by
      have isStmt := inside (Stmt.self_mem_all _)
      have parts := Stmt.parts_subset isStmt
      rw [Stmt.parts, List.append_subset] at parts
      rw [Stmt.all, List.cons_subset, List.append_subset, List.append_subset] at inside
      obtain ⟨-, ⟨bodyInside, elseIfsInside⟩, otherwiseInside⟩ := inside
      intro _ _ _ _ _ run
      exact Stmt.stems_ifElse isStmt (Stmt.stems_of_lowerList body bodyInside)
        (ElseIf.stems_of_lowerList elseIfs elseIfsInside parts.2)
        (Stmt.stems_of_lowerList otherwise otherwiseInside) run
  | .select selector groups otherwise, inside => by
      have isStmt := inside (Stmt.self_mem_all _)
      rw [Stmt.all, List.cons_subset, List.append_subset] at inside
      obtain ⟨-, groupsInside, otherwiseInside⟩ := inside
      intro _ _ _ _ _ run
      exact Stmt.stems_select isStmt (CaseGroup.stems_of_lowerCases groups groupsInside)
        (CaseGroup.stems_of_lowerRanges groups groupsInside)
        (Stmt.stems_of_lowerList otherwise otherwiseInside) run
  | .forTo control first last step body, inside => by
      have isStmt := inside (Stmt.self_mem_all _)
      rw [Stmt.all, List.cons_subset] at inside
      intro _ _ _ _ _ run
      exact Stmt.stems_forTo isStmt (Stmt.stems_of_lowerList body inside.2) run
  | .whileDo test body, inside => by
      have isStmt := inside (Stmt.self_mem_all _)
      rw [Stmt.all, List.cons_subset] at inside
      intro _ _ _ _ _ run
      exact Stmt.stems_whileDo isStmt (Stmt.stems_of_lowerList body inside.2) run
  | .repeatUntil body test, inside => by
      have isStmt := inside (Stmt.self_mem_all _)
      rw [Stmt.all, List.cons_subset] at inside
      intro _ _ _ _ _ run
      exact Stmt.stems_repeatUntil isStmt (Stmt.stems_of_lowerList body inside.2) run
  | .leaveUnit, inside => fun _ _ _ _ _ run =>
      Stmt.stems_leaveUnit (inside (Stmt.self_mem_all _)) run
  | .leaveLoop, inside => fun _ _ _ _ _ run =>
      Stmt.stems_leaveLoop (inside (Stmt.self_mem_all _)) run
  | .pragma directive, inside => fun _ _ _ _ _ run =>
      Stmt.stems_pragma (inside (Stmt.self_mem_all _)) run

theorem Stmt.stems_of_lowerList :
    ∀ body : List Stmt, Stmt.allList body ⊆ stmts →
      site.StemsFrom stmts (Stmt.lowerList site · · body) Code.Stmt.allList
  | [], _ => by
      intro depth around before after codes run
      simp only [Stmt.lowerList] at run
      cases run
      rw [Code.Stmt.allList]
      exact .nil (.of_eq rfl)
  | stmt :: rest, inside => by
      rw [Stmt.allList, List.append_subset] at inside
      intro depth around before after codes run
      obtain ⟨first, middle, others, firstRun, restRun, rfl⟩ := Stmt.lowered_cons run
      have inFirst := Stmt.stems_of_lower stmt inside.1 firstRun
      have inRest := Stmt.stems_of_lowerList rest inside.2 restRun
      rw [Code.Stmt.allList]
      exact inFirst.append inRest

theorem ElseIf.stems_of_lowerList :
    ∀ elseIfs : List ElseIf, ElseIf.allList elseIfs ⊆ stmts →
      (elseIfs.flatMap fun elseIf => elseIf.condition.parts) ⊆ stmts.flatMap Stmt.parts →
      site.StemsFrom stmts (ElseIf.lowerList site · · elseIfs) Code.Branch.allList
  | [], _, _ => by
      intro depth around before after branches run
      simp only [ElseIf.lowerList] at run
      cases run
      rw [Code.Branch.allList]
      exact .nil (.of_eq rfl)
  | .mk test body :: rest, inside, parts => by
      rw [ElseIf.allList, List.append_subset] at inside
      rw [List.flatMap_cons, List.append_subset] at parts
      intro depth around before after branches run
      obtain ⟨test', first, body', second, others, testRun, bodyRun, restRun, rfl⟩ :=
        ElseIf.lowered_cons run
      have tested := Expr.helpedBy_of_lower parts.1 testRun
      have inBody := Stmt.stems_of_lowerList body inside.1 bodyRun
      have inRest := ElseIf.stems_of_lowerList rest inside.2 parts.2 restRun
      rw [Code.Branch.allList]
      exact (inBody.append inRest).behind tested

theorem CaseGroup.stems_of_lowerCases :
    ∀ groups : List CaseGroup, CaseGroup.allList groups ⊆ stmts →
      site.StemsFrom stmts (CaseGroup.lowerCases site · · groups) Code.Case.allList
  | [], _ => by
      intro depth around before after codes run
      simp only [CaseGroup.lowerCases] at run
      cases run
      rw [Code.Case.allList]
      exact .nil (.of_eq rfl)
  | .mk labels body :: rest, inside => by
      rw [CaseGroup.allList, List.append_subset] at inside
      intro depth around before after codes run
      obtain ⟨singles, -, ⟨-, restRun⟩ | ⟨-, body', middle, others, bodyRun, restRun, rfl⟩⟩ :=
        CaseGroup.loweredCases_cons run
      · exact CaseGroup.stems_of_lowerCases rest inside.2 restRun
      · have inBody := Stmt.stems_of_lowerList body inside.1 bodyRun
        have inRest := CaseGroup.stems_of_lowerCases rest inside.2 restRun
        rw [Code.Case.allList]
        exact inBody.append inRest

theorem CaseGroup.stems_of_lowerRanges :
    ∀ groups : List CaseGroup, CaseGroup.allList groups ⊆ stmts →
      site.StemsFrom stmts (CaseGroup.lowerRanges site · · groups) Code.RangeCase.allList
  | [], _ => by
      intro depth around before after codes run
      simp only [CaseGroup.lowerRanges] at run
      cases run
      rw [Code.RangeCase.allList]
      exact .nil (.of_eq rfl)
  | .mk labels body :: rest, inside => by
      rw [CaseGroup.allList, List.append_subset] at inside
      intro depth around before after codes run
      obtain ⟨-, restRun⟩ | ⟨-, body', middle, others, bodyRun, restRun, rfl⟩ :=
        CaseGroup.loweredRanges_cons run
      · exact CaseGroup.stems_of_lowerRanges rest inside.2 restRun
      · have inBody := Stmt.stems_of_lowerList body inside.1 bodyRun
        have inRest := CaseGroup.stems_of_lowerRanges rest inside.2 restRun
        rw [Code.RangeCase.allList]
        exact inBody.append inRest

end

/-- Whatever a statement in the code of a body is, and whatever helper is added for the body,
a single statement or a single call of the body accounts for it. -/
theorem Site.stems_of_lowerBody {isOn : Bool} {body : List Stmt} {lowered : LoweredBody}
    (run : site.lowerBody isOn body = .ok lowered) :
    (∀ code ∈ Code.Stmt.allList lowered.body,
      ∃ stmt ∈ Stmt.allList body, stmt.LowersTo site code) ∧
      ∀ helper ∈ lowered.helpers, ∃ expr ∈ Stmt.partsList body, expr.Adds site helper := by
  obtain ⟨⟨code, after⟩, bodyRun, run⟩ := bind_eq_ok run
  cases run
  have stems := Stmt.stems_of_lowerList body (List.Subset.refl _) bodyRun
  refine ⟨stems.code, ?_⟩
  intro helper member
  exact (stems.helpers helper member).resolve_left List.not_mem_nil

end Lower

end StructuredText
