import Mathlib.Data.List.Nodup
import StructuredText.Proofs.Lowering.Frame
import StructuredText.Proofs.Lowering.Output
import StructuredText.Tree.Build

/-!
# Leaving loops

A statement that leaves a loop leaves the innermost one around it: by a `break` where no
selection lies between, and else by a jump to the label of the loop.  The label stands
right after the loop.  Loops are numbered through the unit, so no label stands twice, and
a loop has a label only if there is a jump to it.
-/

set_option autoImplicit false

namespace StructuredText

namespace Code

def Stmt.jump? : Stmt → Option Nat
  | .jumpOut loop => some loop
  | _ => none

/-- The number in the label after a loop. -/
def Stmt.exit? : Stmt → Option Nat
  | .forLoop _ _ _ _ _ exit | .countLoop _ _ _ _ _ _ exit | .whileLoop _ _ exit
  | .untilLoop _ _ exit => exit
  | _ => none

def Stmt.withoutExit : Stmt → Stmt
  | .forLoop control first last step body _ => .forLoop control first last step body none
  | .countLoop control first last step next body _ =>
      .countLoop control first last step next body none
  | .whileLoop condition body _ => .whileLoop condition body none
  | .untilLoop body condition _ => .untilLoop body condition none
  | stmt => stmt

/-- The loops that statements jump out of, one for each jump. -/
def jumps (stmts : List Stmt) : List Nat := (Stmt.allList stmts).filterMap Stmt.jump?

/-- The numbers of the labels in statements, one for each label. -/
def labels (stmts : List Stmt) : List Nat := (Stmt.allList stmts).filterMap Stmt.exit?

/-- The label of a loop, which it has if its body jumps out of it. -/
def exitOf (number : Nat) (body : List Stmt) : Option Nat :=
  if number ∈ jumps body then some number else none

theorem mem_exitOf {number other : Nat} {body : List Stmt} :
    other ∈ (exitOf number body).toList ↔ other = number ∧ number ∈ jumps body := by
  unfold exitOf
  by_cases isJumped : number ∈ jumps body <;> simp [isJumped]

/-- The label of a loop stands right after the text of the loop. -/
theorem Stmt.print_exit (stmt : Stmt) (depth : Nat) :
    stmt.print depth = stmt.withoutExit.print depth ++ printExit depth stmt.exit? := by
  cases stmt with
  | forLoop | countLoop | whileLoop | untilLoop =>
      simp [Stmt.print, Stmt.withoutExit, Stmt.exit?, printExit]
  | _ => simp [Stmt.withoutExit, Stmt.exit?, printExit]

end Code

/-! ## What becomes of statements that leave loops -/

def CaseLabel.isRange : CaseLabel → Bool
  | .range _ => true
  | .integer _ | .enumerated _ => false

/-- The code that leaves the innermost loop, given the loops and selections around. -/
inductive Breakable.LeftBy : List Breakable → Code.Stmt → Prop where
  /-- The innermost loop is the innermost construct that a `break` leaves. -/
  | break (number : Nat) (outer : List Breakable) : LeftBy (.loop number :: outer) .leaveLoop
  /-- Selections lie between. -/
  | jump (between number : Nat) (outer : List Breakable) :
      LeftBy (List.replicate (between + 1) .selection ++ .loop number :: outer) (.jumpOut number)
  /-- There is no loop to leave. -/
  | stray (selections : Nat) : LeftBy (List.replicate selections .selection) .leaveLoop

mutual

/-- The code that a statement becomes inside loops and selections, as far as leaving
loops is concerned. -/
def Stmt.Becomes (around : List Breakable) : Stmt → Code.Stmt → Prop
  | .assign .., .store _ | .invoke .., .invoke .. | .leaveUnit, .leaveUnit => True
  | .ifElse _ body elseIfs otherwise, .ifElse _ body' elseIfs' otherwise' =>
      Stmt.ListBecomes around body body' ∧ ElseIf.ListBecomes around elseIfs elseIfs' ∧
        Stmt.ListBecomes around otherwise otherwise'
  | .select _ groups otherwise, .select _ _ cases ranges otherwise' =>
      CaseGroup.CasesBecome (.selection :: around) groups cases ∧
        CaseGroup.RangesBecome (.selection :: around) groups ranges ∧
        Stmt.ListBecomes (.selection :: around) otherwise otherwise'
  | .forTo _ _ _ _ body, .forLoop _ _ _ _ body' exit
  | .forTo _ _ _ _ body, .countLoop _ _ _ _ _ body' exit
  | .whileDo _ body, .whileLoop _ body' exit
  | .repeatUntil body _, .untilLoop body' _ exit =>
      ∃ number, Stmt.ListBecomes (.loop number :: around) body body' ∧
        exit = Code.exitOf number body'
  | .leaveLoop, code => Breakable.LeftBy around code
  | .pragma (.code text), code => code = .code text ∨ code = .accessorCode text
  | .pragma .enable, code => code = .switch true
  | .pragma .disable, code => code = .switch false
  | _, _ => False

def Stmt.ListBecomes (around : List Breakable) : List Stmt → List Code.Stmt → Prop
  | [], codes => codes = []
  | stmt :: stmts, codes =>
      ∃ first rest, codes = first :: rest ∧ Stmt.Becomes around stmt first ∧
        Stmt.ListBecomes around stmts rest

def ElseIf.ListBecomes (around : List Breakable) : List ElseIf → List Code.Branch → Prop
  | [], branches => branches = []
  | .mk _ body :: elseIfs, branches =>
      ∃ test body' rest, branches = .mk test body' :: rest ∧
        Stmt.ListBecomes around body body' ∧ ElseIf.ListBecomes around elseIfs rest

/-- Only groups with labels other than ranges become cases. -/
def CaseGroup.CasesBecome (around : List Breakable) : List CaseGroup → List Code.Case → Prop
  | [], cases => cases = []
  | .mk labels body :: groups, cases =>
      if labels.all CaseLabel.isRange then CaseGroup.CasesBecome around groups cases
      else
        ∃ singles body' rest, cases = .mk singles body' :: rest ∧
          Stmt.ListBecomes around body body' ∧ CaseGroup.CasesBecome around groups rest

/-- Only groups with ranges among their labels become tests of ranges. -/
def CaseGroup.RangesBecome (around : List Breakable) :
    List CaseGroup → List Code.RangeCase → Prop
  | [], cases => cases = []
  | .mk labels body :: groups, cases =>
      if labels.any CaseLabel.isRange then
        ∃ ranges body' rest, cases = .mk ranges body' :: rest ∧
          Stmt.ListBecomes around body body' ∧ CaseGroup.RangesBecome around groups rest
      else CaseGroup.RangesBecome around groups cases

end

/-! ## Numbers of loops and labels -/

namespace LoweringState

structure SameLoops (before after : LoweringState) : Prop where
  loops : after.loops = before.loops
  jumped : after.jumped = before.jumped

theorem SameLoops.refl (state : LoweringState) : state.SameLoops state := ⟨rfl, rfl⟩

theorem SameLoops.trans {first second third : LoweringState} (early : first.SameLoops second)
    (late : second.SameLoops third) : first.SameLoops third :=
  ⟨late.loops.trans early.loops, late.jumped.trans early.jumped⟩

theorem allowsCalls_sameLoops (site : Site) (exprs : List Expr) :
    AllowsCalls site exprs SameLoops where
  refl := SameLoops.refl
  trans := SameLoops.trans
  counted _ := ⟨rfl, rfl⟩
  helped _ _ _ _ _ _ := ⟨rfl, rfl⟩

/-- The loops around have been numbered, and so have those that have been jumped to. -/
structure Numbers (state : LoweringState) (around : List Breakable) : Prop where
  around : ∀ number, .loop number ∈ around → number ≤ state.loops
  jumped : ∀ number ∈ state.jumped, number ≤ state.loops

/-- What lowering adds to the state, given the statements that it makes: the jumps are
noted, and the labels are those of new loops.  A jump goes to a new loop or to one around,
and every label has a jump to it. -/
structure Adds (before after : LoweringState) (around : List Breakable)
    (made : List Code.Stmt) : Prop where
  loops : before.loops ≤ after.loops
  jumped : ∀ number, number ∈ after.jumped ↔
    number ∈ made.filterMap Code.Stmt.jump? ∨ number ∈ before.jumped
  fresh : ∀ number ∈ made.filterMap Code.Stmt.exit?,
    before.loops < number ∧ number ≤ after.loops
  nodup : (made.filterMap Code.Stmt.exit?).Nodup
  target : ∀ number ∈ made.filterMap Code.Stmt.jump?,
    number ∈ made.filterMap Code.Stmt.exit? ∨ .loop number ∈ around
  used : ∀ number ∈ made.filterMap Code.Stmt.exit?, number ∈ made.filterMap Code.Stmt.jump?

variable {first second third : LoweringState} {around : List Breakable}
  {made more : List Code.Stmt}

theorem SameLoops.numbers (same : first.SameLoops second) (numbers : first.Numbers around) :
    second.Numbers around := by
  refine ⟨?_, ?_⟩
  · rw [same.loops]
    exact numbers.around
  · rw [same.loops, same.jumped]
    exact numbers.jumped

theorem SameLoops.adds (same : first.SameLoops second) : first.Adds second around [] := by
  refine ⟨Nat.le_of_eq same.loops.symm, fun number => ?_, ?_, ?_, ?_, ?_⟩
  · rw [same.jumped]
    simp
  all_goals simp

theorem Adds.numbers (adds : first.Adds second around made) (numbers : first.Numbers around) :
    second.Numbers around := by
  have early : ∀ number, .loop number ∈ around → number ≤ second.loops :=
    fun number member => Nat.le_trans (numbers.around number member) adds.loops
  refine ⟨early, fun number member => ?_⟩
  rcases (adds.jumped number).mp member with isNew | isOld
  · rcases adds.target number isNew with isLabel | isAround
    · exact (adds.fresh number isLabel).2
    · exact early number isAround
  · exact Nat.le_trans (numbers.jumped number isOld) adds.loops

theorem Adds.append (early : first.Adds second around made)
    (late : second.Adds third around more) : first.Adds third around (made ++ more) := by
  refine ⟨Nat.le_trans early.loops late.loops, fun number => ?_, fun number member => ?_, ?_,
    fun number member => ?_, fun number member => ?_⟩
  · rw [late.jumped, early.jumped, List.filterMap_append, List.mem_append, ← or_assoc,
      or_comm (a := number ∈ more.filterMap _)]
  · rw [List.filterMap_append, List.mem_append] at member
    rcases member with isEarly | isLate
    · obtain ⟨above, below⟩ := early.fresh number isEarly
      exact ⟨above, Nat.le_trans below late.loops⟩
    · obtain ⟨above, below⟩ := late.fresh number isLate
      exact ⟨Nat.lt_of_le_of_lt early.loops above, below⟩
  · rw [List.filterMap_append, List.nodup_append]
    refine ⟨early.nodup, late.nodup, fun number isEarly other isLate same => ?_⟩
    -- the labels of the first part have lower numbers than those of the second
    have below := (early.fresh number isEarly).2
    have above := (late.fresh other isLate).1
    omega
  · rw [List.filterMap_append, List.mem_append] at member ⊢
    rcases member with isEarly | isLate
    · exact (early.target number isEarly).imp_left .inl
    · exact (late.target number isLate).imp_left .inr
  · rw [List.filterMap_append, List.mem_append] at member ⊢
    exact member.imp (early.used number) (late.used number)

theorem Adds.after (late : second.Adds third around made) (same : first.SameLoops second) :
    first.Adds third around made :=
  same.adds.append late

theorem Adds.before (early : first.Adds second around made) (same : second.SameLoops third) :
    first.Adds third around made := by
  have nothing : second.Adds third around [] := same.adds
  have both := early.append nothing
  rwa [List.append_nil] at both

theorem Adds.plain {stmt : Code.Stmt} (adds : first.Adds second around made)
    (noJump : stmt.jump? = none) (noLabel : stmt.exit? = none) :
    first.Adds second around (stmt :: made) := by
  have sameJumps : (stmt :: made).filterMap Code.Stmt.jump? = made.filterMap Code.Stmt.jump? :=
    List.filterMap_cons_none noJump
  have sameLabels : (stmt :: made).filterMap Code.Stmt.exit? = made.filterMap Code.Stmt.exit? :=
    List.filterMap_cons_none noLabel
  refine ⟨adds.loops, ?_, ?_, ?_, ?_, ?_⟩ <;> simp only [sameJumps, sameLabels]
  exacts [adds.jumped, adds.fresh, adds.nodup, adds.target, adds.used]

theorem Adds.selection (adds : first.Adds second (.selection :: around) made) :
    first.Adds second around made := by
  refine ⟨adds.loops, adds.jumped, adds.fresh, adds.nodup, fun number member => ?_, adds.used⟩
  simpa using adds.target number member

theorem Numbers.selection (numbers : first.Numbers around) :
    first.Numbers (.selection :: around) := by
  refine ⟨fun number member => numbers.around number ?_, numbers.jumped⟩
  simpa using member

/-- The next loop has got its number. -/
structure Opens (before after : LoweringState) (number : Nat) : Prop where
  next : number = before.loops + 1
  loops : after.loops = number
  jumped : after.jumped = before.jumped

theorem Opens.before {number : Nat} (opens : first.Opens second number)
    (same : second.SameLoops third) : first.Opens third number :=
  ⟨opens.next, same.loops.trans opens.loops, same.jumped.trans opens.jumped⟩

theorem Opens.after {number : Nat} (opens : second.Opens third number)
    (same : first.SameLoops second) : first.Opens third number :=
  ⟨by rw [opens.next, same.loops], opens.loops, opens.jumped.trans same.jumped⟩

theorem Opens.numbers {number : Nat} (opens : first.Opens second number)
    (numbers : first.Numbers around) : second.Numbers (.loop number :: around) := by
  have later : ∀ other, other ≤ first.loops → other ≤ second.loops := by
    intro other low
    rw [opens.loops, opens.next]
    omega
  refine ⟨fun other member => ?_, fun other member => ?_⟩
  · rcases List.mem_cons.mp member with isNew | isOld
    · cases isNew
      exact Nat.le_of_eq opens.loops.symm
    · exact later other (numbers.around other isOld)
  · rw [opens.jumped] at member
    exact later other (numbers.jumped other member)

/-- A loop has been jumped to if its body jumps to it. -/
theorem Adds.exit {number : Nat} {body : List Code.Stmt} (numbers : first.Numbers around)
    (opens : first.Opens second number)
    (adds : second.Adds third (.loop number :: around) (Code.Stmt.allList body)) :
    (if third.jumped.contains number then some number else none) = Code.exitOf number body := by
  have isNew : number ∉ first.jumped := by
    intro member
    have low := numbers.jumped number member
    have high := opens.next
    omega
  have sameJumps : third.jumped.contains number = true ↔ number ∈ Code.jumps body := by
    rw [List.contains_iff_mem, adds.jumped, opens.jumped]
    exact or_iff_left isNew
  simp only [Code.exitOf, sameJumps]

theorem Adds.loop {number : Nat} {body : List Code.Stmt} {loop : Code.Stmt}
    (opens : first.Opens second number)
    (adds : second.Adds third (.loop number :: around) (Code.Stmt.allList body))
    (noJump : loop.jump? = none) (label : loop.exit? = Code.exitOf number body) :
    first.Adds third around (loop :: Code.Stmt.allList body) := by
  have opened : first.loops < number := by
    rw [opens.next]
    omega
  have inside : number ≤ third.loops := by
    rw [← opens.loops]
    exact adds.loops
  have inBody : (loop :: Code.Stmt.allList body).filterMap Code.Stmt.jump? = Code.jumps body :=
    List.filterMap_cons_none noJump
  have bodyFresh : ∀ other ∈ Code.labels body, number < other ∧ other ≤ third.loops := by
    rw [← opens.loops]
    exact adds.fresh
  have earlier : first.loops ≤ third.loops := Nat.le_trans (Nat.le_of_lt opened) inside
  have jumped : ∀ other, other ∈ third.jumped ↔
      other ∈ Code.jumps body ∨ other ∈ first.jumped := by
    rw [← opens.jumped]
    exact adds.jumped
  have withLabel : (loop :: Code.Stmt.allList body).filterMap Code.Stmt.exit? =
      (Code.exitOf number body).toList ++ Code.labels body := by
    rw [List.filterMap_cons, label]
    cases Code.exitOf number body <;> rfl
  refine ⟨earlier, ?_, ?_, ?_, ?_, ?_⟩ <;>
    simp only [inBody, withLabel, List.mem_append, Code.mem_exitOf]
  · exact jumped
  · rintro other (⟨rfl, -⟩ | isLabel)
    · exact ⟨opened, inside⟩
    · exact ⟨Nat.lt_trans opened (bodyFresh other isLabel).1, (bodyFresh other isLabel).2⟩
  · refine List.nodup_append.mpr ⟨?_, adds.nodup, fun other isOwn inner isLabel same => ?_⟩
    · cases Code.exitOf number body <;> simp
    · -- the labels in the body have higher numbers than the loop
      have above := (bodyFresh inner isLabel).1
      have own := (Code.mem_exitOf.mp isOwn).1
      omega
  · intro other isJump
    rcases adds.target other isJump with isLabel | isAround
    · exact .inl (.inr isLabel)
    · rcases List.mem_cons.mp isAround with isThis | isOuter
      · cases isThis
        exact .inl (.inl ⟨rfl, isJump⟩)
      · exact .inr isOuter
  · rintro other (⟨rfl, isJumped⟩ | isLabel)
    · exact isJumped
    · exact adds.used other isLabel

end LoweringState

theorem Lower.opens_of_nextLoop {state after : LoweringState} {number : Nat}
    (run : Lower.nextLoop state = .ok (number, after)) : state.Opens after number := by
  cases run
  exact ⟨rfl, rfl, rfl⟩

/-! ## Leaving the innermost loop -/

namespace Breakable

/-- Around a statement there are selections and then a loop, or selections alone. -/
theorem innermost (around : List Breakable) :
    ∃ between, around = List.replicate between .selection ∨
      ∃ number outer, around = List.replicate between .selection ++ .loop number :: outer := by
  induction around with
  | nil => exact ⟨0, .inl rfl⟩
  | cons construct around ih =>
      cases construct with
      | loop number => exact ⟨0, .inr ⟨number, around, rfl⟩⟩
      | selection =>
          obtain ⟨between, rfl | ⟨number, outer, rfl⟩⟩ := ih
          · exact ⟨between + 1, .inl rfl⟩
          · exact ⟨between + 1, .inr ⟨number, outer, rfl⟩⟩

theorem jumpTarget?_selections (inSelection : Bool) (between : Nat) :
    jumpTarget? inSelection (List.replicate between .selection) = none := by
  induction between generalizing inSelection with
  | zero => rfl
  | succ between ih => exact ih true

theorem jumpTarget?_loop (inSelection : Bool) (between number : Nat) (outer : List Breakable) :
    jumpTarget? inSelection (List.replicate between .selection ++ .loop number :: outer) =
      if inSelection || between != 0 then some number else none := by
  induction between generalizing inSelection with
  | zero => cases inSelection <;> rfl
  | succ between ih =>
      have inner := ih true
      simpa [List.replicate_succ, jumpTarget?] using inner

theorem leftBy_of_jumpTarget? (around : List Breakable) :
    (∀ number, jumpTarget? false around = some number →
      LeftBy around (.jumpOut number) ∧ .loop number ∈ around) ∧
    (jumpTarget? false around = none → LeftBy around .leaveLoop) := by
  obtain ⟨between, rfl | ⟨number, outer, rfl⟩⟩ := innermost around
  · rw [jumpTarget?_selections]
    exact ⟨nofun, fun _ => .stray between⟩
  · rw [jumpTarget?_loop]
    cases between with
    | zero => exact ⟨nofun, fun _ => .break number outer⟩
    | succ between =>
        refine ⟨fun other found => ?_, nofun⟩
        cases found
        refine ⟨.jump between number outer, List.mem_append_right _ (List.mem_cons_self ..)⟩

end Breakable

theorem LoweringState.adds_jump {state : LoweringState} {around : List Breakable} {loop : Nat}
    (isAround : .loop loop ∈ around) :
    state.Adds { state with jumped := loop :: state.jumped } around [.jumpOut loop] := by
  have jumps : [Code.Stmt.jumpOut loop].filterMap Code.Stmt.jump? = [loop] := rfl
  have noLabels : [Code.Stmt.jumpOut loop].filterMap Code.Stmt.exit? = [] := rfl
  refine ⟨Nat.le_refl _, ?_, ?_, ?_, ?_, ?_⟩ <;> simp only [jumps, noLabels, List.mem_singleton]
  · exact fun number => List.mem_cons
  · exact fun number member => absurd member List.not_mem_nil
  · exact List.nodup_nil
  · rintro number rfl
    exact .inr isAround
  · exact fun number member => absurd member List.not_mem_nil

/-! ## Labels of groups -/

namespace CaseLabel

theorem isEmpty_lowerSingles {site : Site} {labels : List CaseLabel} :
    ∀ {singles : List String}, lowerSingles site labels = .ok singles →
      singles.isEmpty = labels.all isRange := by
  induction labels with
  | nil =>
      intro singles run
      cases run
      rfl
  | cons label labels ih =>
      intro singles run
      cases label with
      | range bounds => exact ih run
      | integer value =>
          obtain ⟨rest, -, run⟩ := bind_eq_ok run
          cases run
          rfl
      | enumerated value =>
          obtain ⟨text, -, run⟩ := bind_eq_ok run
          obtain ⟨rest, -, run⟩ := bind_eq_ok run
          cases run
          rfl

theorem isEmpty_lowerRanges (labels : List CaseLabel) :
    (lowerRanges labels).isEmpty = !labels.any isRange := by
  induction labels with
  | nil => rfl
  | cons label labels ih =>
      cases label with
      | range bounds => simp [lowerRanges, isRange]
      | integer | enumerated => simpa [lowerRanges, isRange] using ih

end CaseLabel

/-! ## Lowering -/

section Lower

variable {site : Site}

theorem Expr.sameLoops {expr : Expr} {depth : Nat} {state after : LoweringState}
    {code : Code.Expr} (run : expr.lower site depth state = .ok (code, after)) :
    state.SameLoops after :=
  Expr.lower_moves (LoweringState.allowsCalls_sameLoops site expr.parts) expr depth
    (List.Subset.refl _) state code after run

theorem Variable.sameLoops {source : Variable} {depth : Nat} {state after : LoweringState}
    {place : Code.Place} (run : source.lower site depth state = .ok (place, after)) :
    state.SameLoops after :=
  Variable.lower_moves (LoweringState.allowsCalls_sameLoops site source.parts) source depth
    (List.Subset.refl _) state place after run

/-- Wherever the loops around have their numbers, a step of lowering makes what the source is to
become, and adds its jumps and labels to the state. -/
def Lower.Makes {α : Type} (step : Nat → List Breakable → Lower α)
    (becomes : List Breakable → α → Prop) (all : α → List Code.Stmt) : Prop :=
  ∀ ⦃depth around state after codes⦄, state.Numbers around →
    step depth around state = .ok (codes, after) →
    becomes around codes ∧ state.Adds after around (all codes)

/-! ### One lemma for each form of statement -/

section Forms

variable {depth : Nat} {around : List Breakable} {state after : LoweringState}
  {code : Code.Stmt} {test : Expr} {body otherwise : List Stmt}

theorem Stmt.becomes_assign {target : Variable} {value : Expr}
    (run : (Stmt.assign target value).lower site depth around state = .ok (code, after)) :
    (Stmt.assign target value).Becomes around code ∧ state.Adds after around code.all := by
  obtain ⟨type, value', middle, place, -, valueRun, placeRun, rfl⟩ := Stmt.lowered_assign run
  have same := (Expr.sameLoops valueRun).trans (Variable.sameLoops placeRun)
  refine ⟨by simp [Stmt.Becomes], ?_⟩
  exact same.adds.plain rfl rfl

theorem Stmt.becomes_invoke {block : Ident} {arguments : List Argument}
    (run : (Stmt.invoke block arguments).lower site depth around state = .ok (code, after)) :
    (Stmt.invoke block arguments).Becomes around code ∧ state.Adds after around code.all := by
  rw [Stmt.lower_invoke] at run
  have same := Site.lowerInvoke_moves
    (LoweringState.allowsCalls_sameLoops site (Argument.partsList arguments)) depth block
    arguments (List.Subset.refl _) state code after run
  obtain ⟨signature, binding, copiesIn, middle, copiesOut, -, -, -, -, rfl⟩ :=
    Site.lowered_invoke run
  refine ⟨by simp [Stmt.Becomes], ?_⟩
  exact same.adds.plain rfl rfl

theorem Stmt.becomes_leaveUnit
    (run : Stmt.leaveUnit.lower site depth around state = .ok (code, after)) :
    Stmt.leaveUnit.Becomes around code ∧ state.Adds after around code.all := by
  rw [Stmt.lower] at run
  cases run
  refine ⟨by simp [Stmt.Becomes], ?_⟩
  exact (LoweringState.SameLoops.refl state).adds.plain rfl rfl

theorem Stmt.becomes_leaveLoop
    (run : Stmt.leaveLoop.lower site depth around state = .ok (code, after)) :
    Stmt.leaveLoop.Becomes around code ∧ state.Adds after around code.all := by
  obtain ⟨jumping, breaking⟩ := Breakable.leftBy_of_jumpTarget? around
  obtain ⟨target, rfl, rfl⟩ | ⟨loop, target, rfl, rfl⟩ := Stmt.lowered_leaveLoop run
  · exact ⟨breaking target, (LoweringState.SameLoops.refl _).adds.plain rfl rfl⟩
  · obtain ⟨leaves, isAround⟩ := jumping loop target
    exact ⟨leaves, LoweringState.adds_jump isAround⟩

theorem Stmt.becomes_pragma {directive : Pragma}
    (run : (Stmt.pragma directive).lower site depth around state = .ok (code, after)) :
    (Stmt.pragma directive).Becomes around code ∧ state.Adds after around code.all := by
  cases directive with
  | code text =>
      rw [Stmt.lower] at run
      cases run
      have same := LoweringState.SameLoops.refl state
      unfold Site.code
      cases site.style with
      | direct => exact ⟨.inl rfl, same.adds.plain rfl rfl⟩
      | accessor => exact ⟨.inr rfl, same.adds.plain rfl rfl⟩
  | enable | disable =>
      rw [Stmt.lower] at run
      cases run
      have same (on : Bool) : state.SameLoops { state with isOn := on } := ⟨rfl, rfl⟩
      exact ⟨rfl, (same _).adds.plain rfl rfl⟩

variable (numbers : state.Numbers around)

include numbers

theorem Stmt.becomes_ifElse {elseIfs : List ElseIf}
    (bodyMade : Lower.Makes (Stmt.lowerList site · · body) (Stmt.ListBecomes · body)
      Code.Stmt.allList)
    (elseIfsMade : Lower.Makes (ElseIf.lowerList site · · elseIfs) (ElseIf.ListBecomes · elseIfs)
      Code.Branch.allList)
    (otherwiseMade : Lower.Makes (Stmt.lowerList site · · otherwise)
      (Stmt.ListBecomes · otherwise) Code.Stmt.allList)
    (run : (Stmt.ifElse test body elseIfs otherwise).lower site depth around state =
      .ok (code, after)) :
    (Stmt.ifElse test body elseIfs otherwise).Becomes around code ∧
      state.Adds after around code.all := by
  obtain ⟨test', first, body', second, elseIfs', third, otherwise', testRun, bodyRun,
    elseIfsRun, otherwiseRun, rfl⟩ := Stmt.lowered_ifElse run
  have same := Expr.sameLoops testRun
  have numbers₁ := same.numbers numbers
  obtain ⟨inBody, bodyAdds⟩ := bodyMade numbers₁ bodyRun
  have numbers₂ := bodyAdds.numbers numbers₁
  obtain ⟨inElseIfs, elseIfsAdd⟩ := elseIfsMade numbers₂ elseIfsRun
  have numbers₃ := elseIfsAdd.numbers numbers₂
  obtain ⟨inOtherwise, otherwiseAdds⟩ := otherwiseMade numbers₃ otherwiseRun
  refine ⟨⟨inBody, inElseIfs, inOtherwise⟩, ?_⟩
  rw [Code.Stmt.all]
  exact (((bodyAdds.append elseIfsAdd).append otherwiseAdds).after same).plain rfl rfl

theorem Stmt.becomes_select {selector : Expr} {groups : List CaseGroup}
    (casesMade : Lower.Makes (CaseGroup.lowerCases site · · groups)
      (CaseGroup.CasesBecome · groups) Code.Case.allList)
    (rangesMade : Lower.Makes (CaseGroup.lowerRanges site · · groups)
      (CaseGroup.RangesBecome · groups) Code.RangeCase.allList)
    (otherwiseMade : Lower.Makes (Stmt.lowerList site · · otherwise)
      (Stmt.ListBecomes · otherwise) Code.Stmt.allList)
    (run : (Stmt.select selector groups otherwise).lower site depth around state =
      .ok (code, after)) :
    (Stmt.select selector groups otherwise).Becomes around code ∧
      state.Adds after around code.all := by
  obtain ⟨type, selector', selected, cases', cased, ranges, ranged, otherwise', selectorRun,
    casesRun, rangesRun, otherwiseRun, rfl⟩ := Stmt.lowered_select run
  have same := Expr.sameLoops selectorRun
  have numbers₁ := (same.numbers numbers).selection
  obtain ⟨inCases, casesAdd⟩ := casesMade numbers₁ casesRun
  have numbers₂ := casesAdd.numbers numbers₁
  obtain ⟨inRanges, rangesAdd⟩ := rangesMade numbers₂ rangesRun
  have numbers₃ := rangesAdd.numbers numbers₂
  obtain ⟨inOtherwise, otherwiseAdds⟩ := otherwiseMade numbers₃ otherwiseRun
  refine ⟨⟨inCases, inRanges, inOtherwise⟩, ?_⟩
  rw [Code.Stmt.all]
  have allAdd := ((casesAdd.append rangesAdd).append otherwiseAdds).selection
  exact (allAdd.after same).plain rfl rfl

theorem Stmt.becomes_forTo {control : Ident} {first last : Expr} {step : Option Expr}
    (bodyMade : Lower.Makes (Stmt.lowerList site · · body) (Stmt.ListBecomes · body)
      Code.Stmt.allList)
    (run : (Stmt.forTo control first last step body).lower site depth around state =
      .ok (code, after)) :
    (Stmt.forTo control first last step body).Becomes around code ∧
      state.Adds after around code.all := by
  obtain ⟨number, opened, type, first', started, last', ended, step', stepped, place, placed,
    body', numberRun, -, firstRun, lastRun, stepRun, placeRun, bodyRun, rfl⟩ :=
    Stmt.lowered_forTo run
  have bounds := (Expr.sameLoops firstRun).trans (Expr.sameLoops lastRun)
  have stepping := (Site.lowerStep_moves (LoweringState.allowsCalls_sameLoops site _) depth
    step (List.Subset.refl _) _ _ _ stepRun).trans (Variable.sameLoops placeRun)
  have opens := (Lower.opens_of_nextLoop numberRun).before (bounds.trans stepping)
  obtain ⟨inBody, adds⟩ := bodyMade (opens.numbers numbers) bodyRun
  have exit := adds.exit numbers opens
  unfold Site.countingLoop
  cases site.style with
  | direct | accessor =>
      refine ⟨⟨number, inBody, exit⟩, ?_⟩
      exact adds.loop opens rfl exit

theorem Stmt.becomes_whileDo
    (bodyMade : Lower.Makes (Stmt.lowerList site · · body) (Stmt.ListBecomes · body)
      Code.Stmt.allList)
    (run : (Stmt.whileDo test body).lower site depth around state = .ok (code, after)) :
    (Stmt.whileDo test body).Becomes around code ∧ state.Adds after around code.all := by
  obtain ⟨test', first, number, second, body', testRun, numberRun, bodyRun, rfl⟩ :=
    Stmt.lowered_whileDo run
  have opens := (Lower.opens_of_nextLoop numberRun).after (Expr.sameLoops testRun)
  obtain ⟨inBody, adds⟩ := bodyMade (opens.numbers numbers) bodyRun
  have exit := adds.exit numbers opens
  refine ⟨⟨number, inBody, exit⟩, ?_⟩
  exact adds.loop opens rfl exit

theorem Stmt.becomes_repeatUntil
    (bodyMade : Lower.Makes (Stmt.lowerList site · · body) (Stmt.ListBecomes · body)
      Code.Stmt.allList)
    (run : (Stmt.repeatUntil body test).lower site depth around state = .ok (code, after)) :
    (Stmt.repeatUntil body test).Becomes around code ∧ state.Adds after around code.all := by
  obtain ⟨number, first, body', second, test', numberRun, bodyRun, testRun, rfl⟩ :=
    Stmt.lowered_repeatUntil run
  have opens := Lower.opens_of_nextLoop numberRun
  obtain ⟨inBody, bodyAdds⟩ := bodyMade (opens.numbers numbers) bodyRun
  have adds := bodyAdds.before (Expr.sameLoops testRun)
  have exit := adds.exit numbers opens
  refine ⟨⟨number, inBody, exit⟩, ?_⟩
  exact adds.loop opens rfl exit

end Forms

mutual

/-- What becomes of a statement, and what it adds to the state. -/
theorem Stmt.becomes_of_lower :
    ∀ stmt : Stmt, Lower.Makes (stmt.lower site) (Stmt.Becomes · stmt) Code.Stmt.all
  | .assign .. => fun _ _ _ _ _ _ run => Stmt.becomes_assign run
  | .invoke .. => fun _ _ _ _ _ _ run => Stmt.becomes_invoke run
  | .ifElse _ body elseIfs otherwise => fun _ _ _ _ _ numbers run =>
      Stmt.becomes_ifElse numbers (Stmt.becomes_of_lowerList body)
        (ElseIf.becomes_of_lowerList elseIfs) (Stmt.becomes_of_lowerList otherwise) run
  | .select _ groups otherwise => fun _ _ _ _ _ numbers run =>
      Stmt.becomes_select numbers (CaseGroup.becomes_of_lowerCases groups)
        (CaseGroup.becomes_of_lowerRanges groups) (Stmt.becomes_of_lowerList otherwise) run
  | .forTo _ _ _ _ body => fun _ _ _ _ _ numbers run =>
      Stmt.becomes_forTo numbers (Stmt.becomes_of_lowerList body) run
  | .whileDo _ body => fun _ _ _ _ _ numbers run =>
      Stmt.becomes_whileDo numbers (Stmt.becomes_of_lowerList body) run
  | .repeatUntil body _ => fun _ _ _ _ _ numbers run =>
      Stmt.becomes_repeatUntil numbers (Stmt.becomes_of_lowerList body) run
  | .leaveUnit => fun _ _ _ _ _ _ run => Stmt.becomes_leaveUnit run
  | .leaveLoop => fun _ _ _ _ _ _ run => Stmt.becomes_leaveLoop run
  | .pragma _ => fun _ _ _ _ _ _ run => Stmt.becomes_pragma run

theorem Stmt.becomes_of_lowerList :
    ∀ stmts : List Stmt, Lower.Makes (Stmt.lowerList site · · stmts) (Stmt.ListBecomes · stmts)
      Code.Stmt.allList
  | [] => by
      intro depth around state after codes numbers run
      simp only [Stmt.lowerList] at run
      cases run
      exact ⟨rfl, (LoweringState.SameLoops.refl state).adds⟩
  | stmt :: stmts => by
      intro depth around state after codes numbers run
      obtain ⟨first, middle, rest, firstRun, restRun, rfl⟩ := Stmt.lowered_cons run
      obtain ⟨firstBecomes, firstAdds⟩ := Stmt.becomes_of_lower stmt numbers firstRun
      obtain ⟨restBecomes, restAdd⟩ :=
        Stmt.becomes_of_lowerList stmts (firstAdds.numbers numbers) restRun
      exact ⟨⟨first, rest, rfl, firstBecomes, restBecomes⟩, firstAdds.append restAdd⟩

theorem ElseIf.becomes_of_lowerList :
    ∀ elseIfs : List ElseIf, Lower.Makes (ElseIf.lowerList site · · elseIfs)
      (ElseIf.ListBecomes · elseIfs) Code.Branch.allList
  | [] => by
      intro depth around state after branches numbers run
      simp only [ElseIf.lowerList] at run
      cases run
      exact ⟨rfl, (LoweringState.SameLoops.refl state).adds⟩
  | .mk test body :: elseIfs => by
      intro depth around state after branches numbers run
      obtain ⟨test', first, body', second, rest, testRun, bodyRun, restRun, rfl⟩ :=
        ElseIf.lowered_cons run
      have same := Expr.sameLoops testRun
      have numbers₁ := same.numbers numbers
      obtain ⟨inBody, bodyAdds⟩ := Stmt.becomes_of_lowerList body numbers₁ bodyRun
      obtain ⟨inRest, restAdd⟩ :=
        ElseIf.becomes_of_lowerList elseIfs (bodyAdds.numbers numbers₁) restRun
      refine ⟨⟨test', body', rest, rfl, inBody, inRest⟩, ?_⟩
      exact (bodyAdds.append restAdd).after same

theorem CaseGroup.becomes_of_lowerCases :
    ∀ groups : List CaseGroup, Lower.Makes (CaseGroup.lowerCases site · · groups)
      (CaseGroup.CasesBecome · groups) Code.Case.allList
  | [] => by
      intro depth around state after codes numbers run
      simp only [CaseGroup.lowerCases] at run
      cases run
      exact ⟨rfl, (LoweringState.SameLoops.refl state).adds⟩
  | .mk labels body :: groups => by
      intro depth around state after codes numbers run
      obtain ⟨singles, singlesRun, lowered⟩ := CaseGroup.loweredCases_cons run
      have empty := CaseLabel.isEmpty_lowerSingles singlesRun
      simp only [CaseGroup.CasesBecome, ← empty]
      obtain ⟨rfl, restRun⟩ | ⟨some, body', middle, rest, bodyRun, restRun, rfl⟩ := lowered
      · exact CaseGroup.becomes_of_lowerCases groups numbers restRun
      · obtain ⟨inBody, bodyAdds⟩ := Stmt.becomes_of_lowerList body numbers bodyRun
        obtain ⟨inRest, restAdd⟩ :=
          CaseGroup.becomes_of_lowerCases groups (bodyAdds.numbers numbers) restRun
        rw [if_neg (by simpa using some)]
        exact ⟨⟨singles, body', rest, rfl, inBody, inRest⟩, bodyAdds.append restAdd⟩

theorem CaseGroup.becomes_of_lowerRanges :
    ∀ groups : List CaseGroup, Lower.Makes (CaseGroup.lowerRanges site · · groups)
      (CaseGroup.RangesBecome · groups) Code.RangeCase.allList
  | [] => by
      intro depth around state after codes numbers run
      simp only [CaseGroup.lowerRanges] at run
      cases run
      exact ⟨rfl, (LoweringState.SameLoops.refl state).adds⟩
  | .mk labels body :: groups => by
      intro depth around state after codes numbers run
      have empty := CaseLabel.isEmpty_lowerRanges labels
      simp only [CaseGroup.RangesBecome]
      obtain ⟨none, restRun⟩ | ⟨some, body', middle, rest, bodyRun, restRun, rfl⟩ :=
        CaseGroup.loweredRanges_cons run
      · rw [none] at empty
        rw [if_neg (by simpa using empty.symm)]
        exact CaseGroup.becomes_of_lowerRanges groups numbers restRun
      · rw [List.isEmpty_eq_false_iff.mpr some] at empty
        rw [if_pos (by simpa using empty.symm)]
        obtain ⟨inBody, bodyAdds⟩ := Stmt.becomes_of_lowerList body numbers bodyRun
        obtain ⟨inRest, restAdd⟩ :=
          CaseGroup.becomes_of_lowerRanges groups (bodyAdds.numbers numbers) restRun
        exact ⟨⟨_, body', rest, rfl, inBody, inRest⟩, bodyAdds.append restAdd⟩

end

end Lower

/-! ## Units -/

theorem LoweringState.numbers_start (isOn : Bool) :
    ({ isOn } : LoweringState).Numbers [] := ⟨nofun, nofun⟩

/-- The body of a unit: what becomes of it, and its labels. -/
theorem Site.becomes_of_lowerBody {site : Site} {isOn : Bool} {body : List Stmt}
    {lowered : LoweredBody} (run : site.lowerBody isOn body = .ok lowered) :
    Stmt.ListBecomes [] body lowered.body ∧ (Code.labels lowered.body).Nodup ∧
      ∀ number, number ∈ Code.labels lowered.body ↔ number ∈ Code.jumps lowered.body := by
  obtain ⟨⟨code, after⟩, bodyRun, run⟩ := bind_eq_ok run
  cases run
  obtain ⟨becomes, adds⟩ :=
    Stmt.becomes_of_lowerList body (LoweringState.numbers_start isOn) bodyRun
  refine ⟨becomes, adds.nodup, fun number => ⟨adds.used number, fun isJump => ?_⟩⟩
  exact (adds.target number isJump).resolve_right List.not_mem_nil

/-- In a body that never switches the output off, and with the output on before it, a
statement that leaves a loop leaves the innermost one; a label is written once, right
after its loop, for each loop that is left by a jump, and for no other. -/
theorem Site.exits_leave_innermost_loop {site : Site} {body : List Stmt} {lowered : LoweredBody}
    (neverOff : .pragma .disable ∉ Stmt.allList body)
    (run : site.lowerBody true body = .ok lowered) :
    Stmt.ListBecomes [] body lowered.body ∧
      (∀ number ∈ Code.jumps lowered.body, (Code.labels lowered.body).count number = 1) ∧
      (∀ number ∈ Code.labels lowered.body, number ∈ Code.jumps lowered.body) ∧
      (Code.labels lowered.body).Nodup ∧
      (∀ (depth number : Nat),
        (Code.Stmt.leaveLoop).print depth = Code.Piece.textLine depth "break;" ∧
        (Code.Stmt.jumpOut number).print depth =
          Code.Piece.textLine depth ("goto __exit_" ++ toString number ++ ";") ∧
        Code.printExit depth (some number) =
          Code.Piece.textLine depth ("__exit_" ++ toString number ++ ":;")) ∧
      (∀ (stmt : Code.Stmt) (depth : Nat), stmt.print depth =
        stmt.withoutExit.print depth ++ Code.printExit depth stmt.exit?) ∧
      Code.Piece.visible true (Code.Stmt.printList 1 lowered.body) =
        (Code.Stmt.printList 1 lowered.body).filter fun piece => !piece.isSwitch := by
  obtain ⟨becomes, nodup, used⟩ := Site.becomes_of_lowerBody run
  have written := Site.visible_of_lowerBody neverOff run
  refine ⟨becomes, fun number isJump => ?_, fun number => (used number).mp, nodup,
    fun depth number => ?_, Code.Stmt.print_exit, written⟩
  · exact List.count_eq_one_of_mem nodup ((used number).mpr isJump)
  · exact ⟨by rw [Code.Stmt.print], by rw [Code.Stmt.print], rfl⟩

/-- A loop that is left from within a selection, by a group with labels of both kinds;
what comes after the selection in the loop is left to choose. -/
def searching (rest : List Stmt) : List Stmt :=
  [.whileDo (.const (.boolean true))
    (.select (.ofInt 1)
      [.mk [.integer (.ofInt 1), .range { start := .ofInt 5, stop := .ofInt 9 }] [.leaveLoop]]
      [.ifThen (.const (.boolean true)) [.leaveLoop]] ::
      .leaveLoop :: rest)]

def searchSite : Site :=
  { context := {}, scope := ScopeStack.new, style := .direct, unit := "SEARCH" }

theorem searchSite_lowers : (searchSite.lowerBody true (searching [])).isOk = true := by
  decide +kernel

theorem searching_neverOff (rest : List Stmt)
    (restNeverOff : .pragma .disable ∉ Stmt.allList rest) :
    .pragma .disable ∉ Stmt.allList (searching rest) := by
  simp [searching, Stmt.ifThen, Stmt.all, Stmt.allList, ElseIf.allList, CaseGroup.allList,
    restNeverOff]

theorem Site.exits_leave_innermost_loop_searching :
    .pragma .disable ∉ Stmt.allList (searching []) ∧
      ∃ lowered, searchSite.lowerBody true (searching []) = .ok lowered ∧
        Stmt.ListBecomes [] (searching []) lowered.body ∧
        (∀ number ∈ Code.jumps lowered.body, (Code.labels lowered.body).count number = 1) := by
  have neverOff := searching_neverOff [] (by simp [Stmt.allList])
  have lowers := searchSite_lowers
  cases run : searchSite.lowerBody true (searching []) with
  | error fault =>
      rw [run] at lowers
      cases lowers
  | ok lowered =>
      have leaves := Site.exits_leave_innermost_loop neverOff run
      exact ⟨neverOff, lowered, rfl, leaves.1, leaves.2.1⟩

/-- A function after the output has been switched off; it is switched on again inside the
loop of the function, after the jump. -/
def silenced : Library where
  elements :=
    [.pragma .disable,
      .function
        { name := "Search", returnType := "INT", vars := []
          body := searching [.pragma .enable] }]

theorem Library.label_without_jump :
    (∀ decl ∈ silenced.functions, .pragma .disable ∉ Stmt.allList decl.body) ∧
      ∃ pieces, silenced.written? = some pieces ∧ .text "__exit_1:;\n" ∈ pieces ∧
        .text "goto __exit_1;\n" ∉ pieces := by
  refine ⟨?_, ?_⟩
  · intro decl member
    rw [List.mem_singleton.mp member]
    exact searching_neverOff [.pragma .enable] (by simp [Stmt.allList, Stmt.all])
  · have label : (silenced.written?.map fun pieces =>
        pieces.contains (.text "__exit_1:;\n") && !pieces.contains (.text "goto __exit_1;\n")) =
        some true := by
      decide +kernel
    obtain ⟨pieces, found, both⟩ := Option.map_eq_some_iff.mp label
    refine ⟨pieces, found, ?_⟩
    simpa using both

end StructuredText
