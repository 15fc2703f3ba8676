import StructuredText.Proofs.Lowering.EmittedExpr
import StructuredText.Proofs.Lowering.Exits
import StructuredText.Proofs.Lowering.Frame
import StructuredText.Proofs.Lowering.Output

/-!
# Emitting is lowering and laying out

What the emitter does is what lowering does to its state and what the printer makes of the code,
written into the sink.  This is shown step by step, along the structure of the statements.  So
the emitter ends where it started: at the same depth and among the same loops and selections.
-/

set_option autoImplicit false

namespace StructuredText

open Code (Piece Sink Store)

/-! ## Sinks -/

namespace Code.Piece

def turned : (on : Bool) → List Piece → Bool
  | on, [] => on
  | _, .switch on :: rest => turned on rest
  | on, _ :: rest => turned on rest

@[simp] theorem turned_nil (on : Bool) : turned on [] = on := rfl

theorem turned_append (on : Bool) (first second : List Piece) :
    turned on (first ++ second) = turned (turned on first) second := by
  induction first generalizing on with
  | nil => rfl
  | cons piece first ih => cases piece <;> exact ih _

theorem turned_of_plain {pieces : List Piece} (plain : ∀ on, .switch on ∉ pieces) (on : Bool) :
    turned on pieces = on := by
  induction pieces with
  | nil => rfl
  | cons piece pieces ih =>
      have rest := ih fun on member => plain on (List.mem_cons_of_mem _ member)
      cases piece with
      | text | margin => exact rest
      | switch other => exact absurd (List.mem_cons_self ..) (plain other)

theorem turned_false {pieces : List Piece} (neverOn : .switch true ∉ pieces) :
    turned false pieces = false := by
  induction pieces with
  | nil => rfl
  | cons piece pieces ih =>
      rw [List.mem_cons, not_or] at neverOn
      rcases piece with _ | _ | _ | _
      · exact ih neverOn.2
      · exact ih neverOn.2
      · exact ih neverOn.2
      · exact absurd rfl neverOn.1

theorem visible_false {pieces : List Piece} (neverOn : .switch true ∉ pieces) :
    visible false pieces = [] := by
  induction pieces with
  | nil => rfl
  | cons piece pieces ih =>
      rw [List.mem_cons, not_or] at neverOn
      rcases piece with _ | _ | _ | _
      · exact ih neverOn.2
      · exact ih neverOn.2
      · exact ih neverOn.2
      · exact absurd rfl neverOn.1

end Code.Piece

namespace Code.Sink

theorem write_append (sink : Sink) (first second : List Piece) :
    sink.write (first ++ second) = (sink.write first).write second := List.foldl_append

theorem write_eq (sink : Sink) (pieces : List Piece) :
    sink.write pieces =
      { written := sink.written ++ Piece.visible sink.isOn pieces, depth := sink.depth
        isOn := Piece.turned sink.isOn pieces } := by
  induction pieces generalizing sink with
  | nil => simp [write, Piece.visible]
  | cons piece pieces ih =>
      rw [write, List.foldl_cons, ← write, ih]
      rcases sink with ⟨written, depth, _ | _⟩ <;> cases piece <;>
        simp [put, Piece.visible, Piece.turned]

@[simp] theorem write_nil (sink : Sink) : sink.write [] = sink := rfl

@[simp] theorem write_depth (sink : Sink) (pieces : List Piece) :
    (sink.write pieces).depth = sink.depth := by rw [write_eq]

@[simp] theorem write_isOn (sink : Sink) (pieces : List Piece) :
    (sink.write pieces).isOn = Piece.turned sink.isOn pieces := by rw [write_eq]

theorem write_deeper (sink : Sink) (pieces : List Piece) :
    (sink.deeper.write pieces).shallower = sink.write pieces := by
  rw [write_eq, write_eq]
  rfl

end Code.Sink

/-! ## What a step does to the state -/

namespace LoweringState

structure Calls (before after : LoweringState) : Prop where
  calls : before.calls ≤ after.calls
  loops : after.loops = before.loops
  jumped : after.jumped = before.jumped
  isOn : after.isOn = before.isOn
  helpers : before.isOn = false → after.helpers = before.helpers

theorem Calls.refl (state : LoweringState) : state.Calls state :=
  ⟨Nat.le_refl _, rfl, rfl, rfl, fun _ => rfl⟩

theorem Calls.trans {first second third : LoweringState} (early : first.Calls second)
    (late : second.Calls third) : first.Calls third where
  calls := Nat.le_trans early.calls late.calls
  loops := late.loops.trans early.loops
  jumped := late.jumped.trans early.jumped
  isOn := late.isOn.trans early.isOn
  helpers isOff := (late.helpers (early.isOn.trans isOff)).trans (early.helpers isOff)

theorem allowsCalls_calls (site : Site) (exprs : List Expr) : AllowsCalls site exprs Calls where
  refl := Calls.refl
  trans := Calls.trans
  counted _ := ⟨Nat.le_succ _, rfl, rfl, rfl, fun _ => rfl⟩
  helped state isOn _ _ _ _ := by
    refine ⟨Nat.le_refl _, rfl, rfl, rfl, fun isOff => ?_⟩
    rw [isOn] at isOff
    cases isOff

/-- What lowering does to the state, given what is printed of the code. -/
structure Prints (pieces : List Piece) (before after : LoweringState) : Prop where
  calls : before.calls ≤ after.calls
  loops : before.loops ≤ after.loops
  jumped : before.jumped ⊆ after.jumped
  isOn : after.isOn = Piece.turned before.isOn pieces
  helpers : before.isOn = false → .switch true ∉ pieces → after.helpers = before.helpers

theorem Calls.prints {before after : LoweringState} (calls : before.Calls after) :
    Prints [] before after where
  calls := calls.calls
  loops := Nat.le_of_eq calls.loops.symm
  jumped := calls.jumped ▸ List.Subset.refl _
  isOn := calls.isOn
  helpers isOff _ := calls.helpers isOff

theorem Prints.append {first second third : LoweringState} {pieces more : List Piece}
    (early : Prints pieces first second) (late : Prints more second third) :
    Prints (pieces ++ more) first third where
  calls := Nat.le_trans early.calls late.calls
  loops := Nat.le_trans early.loops late.loops
  jumped := List.Subset.trans early.jumped late.jumped
  isOn := by rw [late.isOn, early.isOn, Piece.turned_append]
  helpers isOff neverOn := by
    rw [List.mem_append, not_or] at neverOn
    have stillOff : second.isOn = false := by
      rw [early.isOn, isOff, Piece.turned_false neverOn.1]
    exact (late.helpers stillOff neverOn.2).trans (early.helpers isOff neverOn.1)

theorem prints_plain {pieces : List Piece} (plain : ∀ on, .switch on ∉ pieces)
    (state : LoweringState) : Prints pieces state state where
  calls := Nat.le_refl _
  loops := Nat.le_refl _
  jumped := List.Subset.refl _
  isOn := (Piece.turned_of_plain plain _).symm
  helpers _ _ := rfl

end LoweringState

/-! ## Emitting a part -/

namespace Emitter

/-- The emitter after a part that prints some pieces and ends in a state of lowering. -/
def after (emitter : Emitter) (pieces : List Piece) (state : LoweringState) : Emitter :=
  { emitter with
    sink := emitter.sink.write pieces
    calls := state.calls, loops := state.loops, jumped := state.jumped, helpers := state.helpers }

def withLabel (emitter : Emitter) (pending : Option Nat) : Emitter := { emitter with pending }

variable {emitter : Emitter} {pieces more : List Piece} {state : LoweringState}

theorem lowering_after (prints : LoweringState.Prints pieces emitter.lowering state) :
    (emitter.after pieces state).lowering = state := by
  rw [lowering, after, Sink.write_isOn]
  exact congrArg (LoweringState.mk _ _ _ _) prints.isOn.symm

@[simp] theorem after_depth : (emitter.after pieces state).sink.depth = emitter.sink.depth :=
  Sink.write_depth ..

@[simp] theorem after_around : (emitter.after pieces state).around = emitter.around := rfl

theorem after_after (state next : LoweringState) : (emitter.after pieces state).after more next =
    emitter.after (pieces ++ more) next := by
  rw [after, after, after, Sink.write_append]

end Emitter

theorem Lower.bind_apply {α β : Type} (first : Lower α) (next : α → Lower β)
    (state : LoweringState) :
    (first >>= next) state = (first state >>= fun done => next done.1 done.2) := rfl

/-- The number of a loop if it has been jumped out of. -/
def LoweringState.exit? (state : LoweringState) (loop : Nat) : Option Nat :=
  if state.jumped.contains loop then some loop else none

/-- A part of the code: what is lowered at a depth and inside some loops and selections, with
a value for the parts behind it and the pieces that are printed. -/
abbrev Part (α : Type) := Nat → List Breakable → Lower (α × List Piece)

/-- A step of the emitter does what lowering a part does, and writes what is printed of it. -/
structure EmitsPart {α : Type} (pending : Option Nat) (step : Emit α) (part : Part α) : Prop where
  run : ∀ emitter : Emitter, emitter.pending = pending →
    step emitter = (part emitter.sink.depth emitter.around emitter.lowering).map
      fun done => (done.1.1, emitter.after done.1.2 done.2)
  prints : ∀ depth around before value pieces after,
    part depth around before = .ok ((value, pieces), after) →
      LoweringState.Prints pieces before after

/-- The label that is due is written as it is behind a loop. -/
theorem Emit.takeLabel_after {emitter : Emitter} (isPending : emitter.pending = none)
    (pieces : List Piece) (state : LoweringState) (pending : Option Nat) :
    Emit.takeLabel ((emitter.after pieces state).withLabel pending) =
      .ok ((), emitter.after (pieces ++ Code.printExit emitter.sink.depth pending) state) := by
  have taken (before : Emitter) : Emit.takeLabel (before.withLabel pending) =
      .ok ((), { before with
        sink := before.sink.write (Code.printExit before.sink.depth pending)
        pending := none }) := by
    cases pending <;> rfl
  rw [taken, Emitter.after_depth, Emitter.after, Emitter.after, Sink.write_append, isPending]

theorem Emit.inLoop_bind_apply {α β : Type} (step : Emit α) (rest : α → Emit β)
    (emitter : Emitter) : (Emit.inLoop step >>= rest) emitter =
      (step emitter.enterLoop >>= fun done => rest done.1 done.2.leaveLoop) := by
  have split : Emit.inLoop step emitter =
      (step emitter.enterLoop >>= fun done => .ok (done.1, done.2.leaveLoop)) := rfl
  rw [Emit.bind_apply, split, bind_assoc]
  rfl

/-- Leaving a loop makes its label due if the loop has been jumped out of. -/
theorem Emitter.leaveLoop_after {emitter : Emitter} (isPending : emitter.pending = none)
    (pieces : List Piece) (state : LoweringState) :
    (emitter.enterLoop.after pieces state).leaveLoop =
      (emitter.after pieces state).withLabel (state.exit? (emitter.loops + 1)) := by
  rw [LoweringState.exit?, ← isPending]
  rfl

namespace EmitsPart

variable {α β : Type} {pending : Option Nat}

theorem congr {step : Emit α} {part other : Part α} (emits : EmitsPart pending step part)
    (same : ∀ depth around, part depth around = other depth around) :
    EmitsPart pending step other := by
  obtain rfl : part = other := funext fun depth => funext (same depth)
  exact emits

/-- Parts that follow one another.  The later one may rely on what the earlier one gives. -/
theorem bind_of_run {first : Emit α} {next : α → Emit β} {part : Part α} {later : α → Part β}
    (emits : EmitsPart pending first part)
    (nextEmits : ∀ depth around before value pieces after,
      part depth around before = .ok ((value, pieces), after) →
        EmitsPart pending (next value) (later value)) :
    EmitsPart pending (first >>= next) fun depth around => do
      let early ← part depth around
      let late ← later early.1 depth around
      return (late.1, early.2 ++ late.2) where
  run emitter isPending := by
    rw [Emit.bind_apply, emits.run emitter isPending, Lower.bind_apply]
    cases early : part emitter.sink.depth emitter.around emitter.lowering with
    | error fault => rfl
    | ok done =>
        obtain ⟨⟨value, pieces⟩, state⟩ := done
        have lateRun := (nextEmits _ _ _ _ _ _ early).run (emitter.after pieces state) isPending
        rw [Emitter.lowering_after (emits.prints _ _ _ _ _ _ early), Emitter.after_depth,
          Emitter.after_around] at lateRun
        refine lateRun.trans ?_
        rw [ok_bind, Lower.bind_apply]
        cases later value emitter.sink.depth emitter.around state with
        | error fault => rfl
        | ok done =>
            change Except.ok (done.1.1, (emitter.after pieces state).after done.1.2 done.2) =
              .ok (done.1.1, emitter.after (pieces ++ done.1.2) done.2)
            rw [Emitter.after_after]
  prints depth around before value pieces after run := by
    obtain ⟨early, middle, earlyRun, run⟩ := Lower.bind_eq_ok run
    obtain ⟨late, last, lateRun, run⟩ := Lower.bind_eq_ok run
    cases run
    exact (emits.prints _ _ _ _ _ _ earlyRun).append
      ((nextEmits _ _ _ _ _ _ earlyRun).prints _ _ _ _ _ _ lateRun)

theorem bind {first : Emit α} {next : α → Emit β} {part : Part α} {later : α → Part β}
    (emits : EmitsPart pending first part)
    (nextEmits : ∀ value, EmitsPart pending (next value) (later value)) :
    EmitsPart pending (first >>= next) fun depth around => do
      let early ← part depth around
      let late ← later early.1 depth around
      return (late.1, early.2 ++ late.2) :=
  emits.bind_of_run fun _ _ _ value _ _ _ => nextEmits value

theorem pure (value : α) : EmitsPart pending (pure value) fun _ _ => pure (value, []) where
  run _ _ := rfl
  prints _ _ before _ _ _ run := by
    cases run
    exact (LoweringState.Calls.refl before).prints

theorem print {pieces : List Piece} (plain : ∀ on, .switch on ∉ pieces) :
    EmitsPart pending (Emit.print pieces) fun _ _ => Pure.pure ((), pieces) where
  run _ _ := rfl
  prints _ _ before _ _ _ run := by
    cases run
    exact LoweringState.prints_plain plain before

theorem text (content : String) :
    EmitsPart pending (Emit.print [.text content]) fun _ _ => Pure.pure ((), [.text content]) :=
  print (by simp)

theorem enclosed (opening closing : String) (code : Code.Expr) (depth : Nat) :
    EmitsPart pending (Emit.print (.text opening :: (code.print depth ++ [.text closing])))
      fun _ _ => Pure.pure ((), .text opening :: (code.print depth ++ [.text closing])) :=
  print (by simp)

theorem depth : EmitsPart pending Emit.depth fun depth _ => Pure.pure (depth, []) where
  run _ _ := rfl
  prints _ _ before _ _ _ run := by
    cases run
    exact (LoweringState.Calls.refl before).prints

theorem lowered {step : Nat → Lower α}
    (calls : ∀ depth, Lower.Moves LoweringState.Calls (step depth)) :
    EmitsPart pending (Emit.lowered step) fun depth _ => do return (← step depth, []) where
  run emitter _ := by
    rw [Emit.lowered, Lower.bind_apply]
    cases stepRun : step emitter.sink.depth emitter.lowering with
    | error fault => rfl
    | ok done =>
        have stays : done.2.isOn = emitter.sink.isOn := (calls _ _ _ _ stepRun).isOn
        have same : emitter.resume done.2 = emitter.after [] done.2 := by
          rw [Emitter.resume, stays]
          rfl
        change Except.ok (done.1, emitter.resume done.2) = .ok (done.1, emitter.after [] done.2)
        rw [same]
  prints depth _ before value pieces after run := by
    obtain ⟨done, middle, stepRun, run⟩ := Lower.bind_eq_ok run
    cases run
    exact (calls depth before value after stepRun).prints

theorem indented {step : Emit α} {part : Part α} (emits : EmitsPart pending step part) :
    EmitsPart pending (Emit.indented step) fun depth around => part (depth + 1) around where
  run emitter isPending := by
    have split : Emit.indented step emitter =
        (step emitter.deeper).bind fun done => .ok (done.1, done.2.shallower) := rfl
    rw [split, emits.run emitter.deeper isPending]
    change Except.bind (Except.map _
      (part (emitter.sink.depth + 1) emitter.around emitter.lowering)) _ = _
    cases part (emitter.sink.depth + 1) emitter.around emitter.lowering with
    | error fault => rfl
    | ok done =>
        have same : (emitter.deeper.after done.1.2 done.2).shallower =
            emitter.after done.1.2 done.2 := by
          simp [Emitter.after, Emitter.deeper, Emitter.shallower, Sink.write_deeper]
        change Except.ok (done.1.1, (emitter.deeper.after done.1.2 done.2).shallower) =
          .ok (done.1.1, emitter.after done.1.2 done.2)
        rw [same]
  prints depth := emits.prints (depth + 1)

theorem inSelection {step : Emit α} {part : Part α} (emits : EmitsPart pending step part) :
    EmitsPart pending (Emit.inSelection step) fun depth around => part depth (.selection :: around)
    where
  run emitter isPending := by
    have split : Emit.inSelection step emitter =
        (step emitter.enterSelection).bind fun done => .ok (done.1, done.2.leaveSelection) := rfl
    rw [split, emits.run emitter.enterSelection isPending]
    change Except.bind (Except.map _
      (part emitter.sink.depth (.selection :: emitter.around) emitter.lowering)) _ = _
    cases part emitter.sink.depth (.selection :: emitter.around) emitter.lowering <;> rfl
  prints depth around := emits.prints depth (.selection :: around)

theorem switch (on : Bool) :
    EmitsPart pending (Emit.print [.switch on]) fun _ _ => do
      Lower.switch on
      return ((), [.switch on]) where
  run _ _ := rfl
  prints _ _ before _ _ _ run := by
    cases run
    refine ⟨Nat.le_refl _, Nat.le_refl _, List.Subset.refl _, rfl, fun _ _ => rfl⟩

theorem choose (condition : Bool) {yes no : Emit Unit} {part other : Part Unit}
    (emits : EmitsPart pending yes part) (otherwise : EmitsPart pending no other) :
    EmitsPart pending (Emit.choose condition yes no) fun depth around =>
      if condition then part depth around else other depth around := by
  cases condition with
  | true => exact emits
  | false => exact otherwise

theorem unlessEmpty (items : List β) {step : Emit Unit} {part : Part Unit}
    (emits : EmitsPart pending step part) :
    EmitsPart pending (Emit.unlessEmpty items step) fun depth around =>
      if items.isEmpty then Pure.pure ((), []) else part depth around := by
  cases items with
  | nil => exact pure ()
  | cons => exact emits

theorem margin : EmitsPart pending Emit.margin fun depth _ => Pure.pure ((), [.margin depth]) where
  run _ _ := rfl
  prints _ _ before _ _ _ run := by
    cases run
    exact LoweringState.prints_plain (by simp) before

theorem line (content : String) :
    EmitsPart pending (Emit.line content) fun depth _ =>
      Pure.pure ((), Piece.textLine depth content) where
  run _ _ := rfl
  prints _ _ before _ _ _ run := by
    cases run
    exact LoweringState.prints_plain (fun on => by simp) before

theorem takeLabel : EmitsPart none Emit.takeLabel fun _ _ => Pure.pure ((), []) where
  run emitter isPending := by
    have run := Emit.takeLabel_after isPending [] emitter.lowering none
    obtain ⟨sink, calls, loops, jumped, helpers, around, pending⟩ := emitter
    cases isPending
    exact run
  prints _ _ before _ _ _ run := by
    cases run
    exact LoweringState.prints_plain (by simp) before

theorem exit : EmitsPart pending Emit.exit fun depth around =>
    match Breakable.jumpTarget? false around with
    | none => Pure.pure ((), Piece.textLine depth "break;")
    | some loop => do
        Lower.jump loop
        return ((), Piece.textLine depth ("goto __exit_" ++ toString loop ++ ";")) where
  run emitter _ := by
    have split : Emit.exit emitter =
        (match Breakable.jumpTarget? false emitter.around with
        | none => Emit.line "break;"
        | some loop => do
            modify (Emitter.jump loop)
            Emit.line ("goto __exit_" ++ toString loop ++ ";")) emitter := rfl
    rw [split]
    cases Breakable.jumpTarget? false emitter.around <;> rfl
  prints depth around before value pieces after run := by
    cases target : Breakable.jumpTarget? false around with
    | none =>
        rw [target] at run
        cases run
        exact LoweringState.prints_plain (fun on => by simp) before
    | some loop =>
        rw [target] at run
        cases run
        have plain : ∀ on, .switch on ∉
            Piece.textLine depth ("goto __exit_" ++ toString loop ++ ";") := fun on => by simp
        exact ⟨Nat.le_refl _, Nat.le_refl _, List.subset_cons_self _ _,
          (Piece.turned_of_plain plain _).symm, fun _ _ => rfl⟩

theorem statement {inner : Emit Unit} {part : Part Unit} (emits : EmitsPart none inner part) :
    EmitsPart none (Emit.statement inner) fun depth around => do
      let done ← part depth around
      return ((), .margin depth :: (done.2 ++ [.text ";\n"])) := by
  have ends := (text ";\n").bind fun _ => takeLabel
  refine (margin.bind fun _ => emits.bind fun _ => ends).congr fun depth around => ?_
  simp

/-- A loop and what follows it up to its label. -/
theorem inLoop {step : Emit α} {rest : α → Emit Unit} {part : Part α} {later : α → Part Unit}
    (emits : EmitsPart none step part)
    (restEmits : ∀ value pending, EmitsPart pending (rest value) (later value))
    (keeps : ∀ value depth around before done after,
      later value depth around before = .ok (done, after) → after.jumped = before.jumped) :
    EmitsPart none (Emit.inLoop step >>= fun value => rest value >>= fun _ => Emit.takeLabel)
      fun depth around => do
        let number ← Lower.nextLoop
        let early ← part depth (.loop number :: around)
        let late ← later early.1 depth around
        let exit ← Lower.exit? number
        return ((), early.2 ++ (late.2 ++ Code.printExit depth exit)) where
  run emitter isPending := by
    have numbered : Lower.nextLoop emitter.lowering =
        .ok (emitter.loops + 1, emitter.enterLoop.lowering) := rfl
    rw [Emit.inLoop_bind_apply, emits.run emitter.enterLoop isPending, Lower.bind_apply, numbered,
      ok_bind, Lower.bind_apply]
    change (Except.map _ (part emitter.sink.depth
      (.loop (emitter.loops + 1) :: emitter.around) emitter.enterLoop.lowering) >>= _) = _
    cases early : part emitter.sink.depth (.loop (emitter.loops + 1) :: emitter.around)
        emitter.enterLoop.lowering with
    | error fault => rfl
    | ok done =>
        obtain ⟨⟨value, pieces⟩, state⟩ := done
        have prints := emits.prints _ _ _ _ _ _ early
        have resumed : (emitter.after pieces state).lowering = state :=
          Emitter.lowering_after (LoweringState.Prints.mk prints.calls
            (Nat.le_of_succ_le prints.loops) prints.jumped prints.isOn prints.helpers)
        change (rest value >>= fun _ => Emit.takeLabel)
          (emitter.enterLoop.after pieces state).leaveLoop = _
        rw [Emitter.leaveLoop_after isPending, Emit.bind_apply, (restEmits value _).run _ rfl]
        change (Except.map _ (later value (emitter.sink.write pieces).depth emitter.around
          (emitter.after pieces state).lowering) >>= _) = _
        rw [Sink.write_depth, resumed, ok_bind, Lower.bind_apply]
        cases lateRun : later value emitter.sink.depth emitter.around state with
        | error fault => rfl
        | ok done =>
            -- What follows the loop jumps out of no loop.
            have labels : done.2.exit? (emitter.loops + 1) = state.exit? (emitter.loops + 1) := by
              rw [LoweringState.exit?, keeps _ _ _ _ _ _ lateRun, LoweringState.exit?]
            have written := Emit.takeLabel_after isPending (pieces ++ done.1.2) done.2
              (state.exit? (emitter.loops + 1))
            rw [← Emitter.after_after state] at written
            refine written.trans ?_
            rw [← labels, List.append_assoc]
            rfl
  prints depth around before value pieces after run := by
    obtain ⟨number, opened, numbered, inside⟩ := Lower.bind_eq_ok run
    cases numbered
    obtain ⟨early, middle, earlyRun, behind⟩ := Lower.bind_eq_ok inside
    obtain ⟨late, last, lateRun, ended⟩ := Lower.bind_eq_ok behind
    cases ended
    have opens : LoweringState.Prints [] before { before with loops := before.loops + 1 } :=
      ⟨Nat.le_refl _, Nat.le_succ _, List.Subset.refl _, rfl, fun _ _ => rfl⟩
    have inside := emits.prints _ _ _ _ _ _ earlyRun
    have behind := (restEmits early.1 none).prints _ _ _ _ _ _ lateRun
    have labels := LoweringState.prints_plain
      (fun on => Code.switch_not_mem_printExit on depth
        (if after.jumped.contains (before.loops + 1) then some (before.loops + 1) else none)) after
    exact opens.append (inside.append (behind.append labels))

end EmitsPart

/-! ## Expressions -/

namespace EmitsPart

variable {pending : Option Nat}

theorem lift {α : Type} (result : Except Fault α) :
    EmitsPart pending (Emit.lowered fun _ => liftM result) fun _ _ => do
      return (← (liftM result : Lower α), []) :=
  lowered fun _ state _ _ run => (Lower.state_of_lift run).symm ▸ LoweringState.Calls.refl state

variable (site : Site)

theorem typeOf (expr : Expr) :
    EmitsPart pending (Emit.lowered fun _ => site.typeOf expr) fun _ _ => do
      return (← site.typeOf expr, []) :=
  lowered fun _ => Lower.moves_need (LoweringState.allowsCalls_calls site []) _ _

theorem expr (expr : Expr) :
    EmitsPart pending (expr.emit site) fun depth _ => do
      return (← expr.lower site depth, []) := by
  rw [Expr.emit_eq]
  exact lowered fun depth =>
    Expr.lower_moves (LoweringState.allowsCalls_calls site expr.parts) expr depth
      (List.Subset.refl _)

theorem source (source : Variable) :
    EmitsPart pending (source.emit site) fun depth _ => do
      return (← source.lower site depth, []) := by
  rw [Variable.emit_eq]
  exact lowered fun depth =>
    Variable.lower_moves (LoweringState.allowsCalls_calls site source.parts) source depth
      (List.Subset.refl _)

theorem step (step : Option Expr) :
    EmitsPart pending (site.emitStep step) fun depth _ => do
      return (← site.lowerStep depth step, []) := by
  rw [Site.emitStep_eq]
  exact lowered fun depth =>
    Site.lowerStep_moves (LoweringState.allowsCalls_calls site _) depth step (List.Subset.refl _)

theorem invoke (block : Ident) (arguments : List Argument) :
    EmitsPart pending (site.emitInvoke block arguments) fun depth _ => do
      return (← site.lowerInvoke depth block arguments, []) := by
  rw [Site.emitInvoke_eq]
  exact lowered fun depth =>
    Site.lowerInvoke_moves (LoweringState.allowsCalls_calls site _) depth block arguments
      (List.Subset.refl _)

end EmitsPart

/-! ## Statements -/

section Statements

variable (site : Site)

def Stmt.part (stmt : Stmt) : Part Unit := fun depth around => do
  let code ← stmt.lower site depth around
  return ((), code.print depth)

def Stmt.listPart (stmts : List Stmt) : Part Unit := fun depth around => do
  let codes ← Stmt.lowerList site depth around stmts
  return ((), Code.Stmt.printList depth codes)

def ElseIf.listPart (elseIfs : List ElseIf) : Part Unit := fun depth around => do
  let codes ← ElseIf.lowerList site depth around elseIfs
  return ((), Code.Branch.printList depth codes)

def CaseGroup.casesPart (groups : List CaseGroup) : Part Unit := fun depth around => do
  let codes ← CaseGroup.lowerCases site (depth + 1) around groups
  return ((), Code.Case.printList depth codes)

def CaseGroup.rangesPart (hasRange : Bool) (groups : List CaseGroup) : Part Bool :=
  fun depth around => do
    let codes ← CaseGroup.lowerRanges site (depth + 1) around groups
    return (hasRange || !codes.isEmpty, Code.RangeCase.printList depth (!hasRange) codes)

variable {site}

theorem Stmt.emits_assign (target : Variable) (value : Expr) :
    EmitsPart none ((assign target value).emit site) ((assign target value).part site) := by
  rw [Stmt.emit]
  have stores (store : Store) : EmitsPart none _ _ := EmitsPart.depth.bind fun depth =>
    EmitsPart.print fun on => Store.switch_not_mem_print on store depth
  have whole := (EmitsPart.lift (site.context.variableType site.scope target)).bind fun type =>
    (EmitsPart.expr site value).bind fun value' => (EmitsPart.source site target).bind fun place =>
      stores ⟨place, value'.checked type⟩
  refine whole.statement.congr fun depth around => ?_
  simp [Stmt.part, Stmt.lower, Code.Stmt.print]

theorem Stmt.emits_invoke (block : Ident) (arguments : List Argument) :
    EmitsPart none ((invoke block arguments).emit site) ((invoke block arguments).part site) := by
  rw [Stmt.emit]
  refine ((EmitsPart.invoke site block arguments).bind_of_run fun _ _ _ code _ _ run =>
    EmitsPart.depth.bind fun depth => EmitsPart.bind (EmitsPart.print fun on => ?_) fun _ =>
    EmitsPart.takeLabel).congr fun depth around => ?_
  · obtain ⟨code, after, invoked, made⟩ := Lower.bind_eq_ok run
    cases made
    obtain ⟨signature, binding, copiesIn, middle, copiesOut, -, -, -, -, rfl⟩ :=
      Site.lowered_invoke invoked
    exact Code.Stmt.switch_not_mem_print _ depth (by simp [Code.Stmt.all])
  · simp [Stmt.part, Stmt.lower]

theorem Stmt.emits_ifElse {condition : Expr} {body otherwise : List Stmt} {elseIfs : List ElseIf}
    (bodyEmits : EmitsPart none (Stmt.emitList site body) (Stmt.listPart site body))
    (elseIfsEmit : EmitsPart none (ElseIf.emitList site elseIfs) (ElseIf.listPart site elseIfs))
    (otherwiseEmits :
      EmitsPart none (Stmt.emitList site otherwise) (Stmt.listPart site otherwise)) :
    EmitsPart none ((ifElse condition body elseIfs otherwise).emit site)
      ((ifElse condition body elseIfs otherwise).part site) := by
  have elseEmits := EmitsPart.margin.bind fun _ =>
    (EmitsPart.text "\x7d else \x7b\n").bind fun _ => otherwiseEmits.indented
  have closes : EmitsPart none _ _ := EmitsPart.margin.bind fun _ => EmitsPart.text "\x7d"
  have behind := elseIfsEmit.bind fun _ =>
    (elseEmits.unlessEmpty otherwise).bind fun _ => closes
  have opens (condition' : Code.Expr) (depth : Nat) :=
    (EmitsPart.enclosed "if (" ") \x7b\n" condition' depth).bind fun _ =>
      bodyEmits.indented.bind fun _ => behind
  have whole := (EmitsPart.expr site condition).bind fun condition' =>
    EmitsPart.depth.bind fun depth => opens condition' depth
  rw [Stmt.emit]
  refine whole.statement.congr fun depth around => ?_
  cases otherwise with
  | nil =>
      simp [Stmt.part, Stmt.listPart, ElseIf.listPart, Stmt.lower, Stmt.lowerList, Code.Stmt.print]
  | cons stmt stmts =>
      simp [Stmt.part, Stmt.listPart, ElseIf.listPart, Stmt.lower, Stmt.lowerList, Code.Stmt.print]

theorem emits_brace (pending : Option Nat) :
    EmitsPart pending
      (Emit.margin >>= fun _ => Emit.print [.text "\x7d"] >>= fun _ => Emit.print [.text ";\n"])
      fun depth _ => pure ((), [.margin depth, .text "\x7d", .text ";\n"]) := by
  have ends : EmitsPart pending _ _ := (EmitsPart.text "\x7d").bind fun _ => EmitsPart.text ";\n"
  refine (EmitsPart.margin.bind fun _ => ends).congr fun depth around => ?_
  simp

theorem Stmt.emits_whileDo {condition : Expr} {body : List Stmt}
    (emits : EmitsPart none (Stmt.emitList site body) (Stmt.listPart site body)) :
    EmitsPart none ((whileDo condition body).emit site) ((whileDo condition body).part site) := by
  have split : (whileDo condition body).emit site = (do
      Emit.margin
      let condition ← condition.emit site
      let depth ← Emit.depth
      Emit.print (.text "while (" :: (condition.print depth ++ [.text ") \x7b\n"]))
      Emit.inLoop (Emit.indented (Stmt.emitList site body)) >>= fun _ =>
        (Emit.margin >>= fun _ => Emit.print [.text "\x7d"] >>= fun _ =>
          Emit.print [.text ";\n"]) >>= fun _ => Emit.takeLabel) := by
    rw [Stmt.emit]
    simp only [Emit.statement, bind_assoc]
  rw [split]
  have loopEmits := emits.indented.inLoop (fun _ => emits_brace) (by
    intro _ _ _ _ _ _ run
    cases run
    rfl)
  have opens (condition' : Code.Expr) (depth : Nat) :=
    (EmitsPart.enclosed "while (" ") \x7b\n" condition' depth).bind fun _ => loopEmits
  have whole := EmitsPart.margin.bind fun _ => (EmitsPart.expr site condition).bind
    fun condition' => EmitsPart.depth.bind fun depth => opens condition' depth
  refine whole.congr fun depth around => ?_
  simp [Stmt.part, Stmt.listPart, Stmt.lower, Code.Stmt.print]

theorem Stmt.emits_repeatUntil {condition : Expr} {body : List Stmt}
    (emits : EmitsPart none (Stmt.emitList site body) (Stmt.listPart site body)) :
    EmitsPart none ((repeatUntil body condition).emit site)
      ((repeatUntil body condition).part site) := by
  have split : (repeatUntil body condition).emit site = (do
      Emit.margin
      Emit.print [.text "do \x7b\n"]
      Emit.inLoop (Emit.indented (Stmt.emitList site body)) >>= fun _ =>
        (do
          let condition ← condition.emit site
          Emit.margin
          let depth ← Emit.depth
          Emit.print (.text "\x7d while (!(" :: (condition.print depth ++ [.text "))"]))
          Emit.print [.text ";\n"]) >>= fun _ => Emit.takeLabel) := by
    rw [Stmt.emit]
    simp only [Emit.statement, bind_assoc]
  rw [split]
  have testEmits (pending : Option Nat) (condition' : Code.Expr) :
      EmitsPart pending _ _ := EmitsPart.margin.bind fun _ => EmitsPart.depth.bind fun depth =>
    (EmitsPart.enclosed "\x7d while (!(" "))" condition' depth).bind fun _ => EmitsPart.text ";\n"
  have loopEmits := emits.indented.inLoop
    (fun _ pending => (EmitsPart.expr site condition).bind (testEmits pending)) (by
      intro _ depth around before done after run
      obtain ⟨_, middle, conditionRun, rest⟩ := Lower.bind_eq_ok run
      obtain ⟨_, _, conditionRun, made⟩ := Lower.bind_eq_ok conditionRun
      cases made
      cases rest
      exact (Expr.sameLoops conditionRun).jumped)
  have whole := EmitsPart.margin.bind fun _ =>
    (EmitsPart.text "do \x7b\n").bind fun _ => loopEmits
  refine whole.congr fun depth around => ?_
  simp [Stmt.part, Stmt.listPart, Stmt.lower, Code.Stmt.print]

def Site.roundText (depth : Nat) (type : DataType) (control : Code.Place)
    (first last : Code.Expr) (step : Code.Step) (body : List Code.Stmt) : List Piece :=
  let start := Store.print depth ⟨control, first.checked type⟩
  let test := step.printTest depth control last
  let next := Store.print depth ⟨control, (step.next (.load control)).checked type⟩
  match site.style with
  | .direct =>
      .text "for(" :: (start ++ .text "; " :: (test ++ .text "; " ::
        (step.printAdvance depth control ++ .text ") \x7b\n" ::
          (Code.Stmt.printList (depth + 1) body ++ [.margin depth, .text "\x7d"]))))
  | .accessor =>
      start ++ .text ";\n" :: .margin depth :: .text "while (" :: (test ++ .text ") \x7b\n" ::
        (Code.Stmt.printList (depth + 1) body ++ .margin (depth + 1) ::
          (next ++ [.text ";\n", .margin depth, .text "\x7d"])))

theorem Site.print_countingLoop (depth : Nat) (type : DataType) (control : Code.Place)
    (first last : Code.Expr) (step : Code.Step) (body : List Code.Stmt) (exit : Option Nat) :
    (site.countingLoop type control first last step body exit).print depth =
      .margin depth :: (site.roundText depth type control first last step body ++
        .text ";\n" :: Code.printExit depth exit) := by
  cases style : site.style <;>
    simp [Site.countingLoop, Site.roundText, style, Code.Stmt.print]

theorem emits_round (type : DataType) (control : Code.Place) (first last : Code.Expr)
    (step : Code.Step) {body : List Stmt}
    (emits : EmitsPart none (Stmt.emitList site body) (Stmt.listPart site body)) :
    EmitsPart none (Emit.round site type control first last step (Stmt.emitList site body))
      fun depth around => do
        let codes ← Stmt.lowerList site (depth + 1) around body
        return ((), site.roundText depth type control first last step codes) := by
  have direct (heading : List Piece) (plain : ∀ on, .switch on ∉ heading) :=
    (EmitsPart.print plain).bind fun _ => emits.indented
  have advances (next : List Piece) (plain : ∀ on, .switch on ∉ next) :=
    (emits.bind fun _ => EmitsPart.margin.bind fun _ => EmitsPart.print plain).indented
  have accessor (start heading next : List Piece) (startPlain : ∀ on, .switch on ∉ start)
      (plain : ∀ on, .switch on ∉ heading) (nextPlain : ∀ on, .switch on ∉ next) :=
    (EmitsPart.print startPlain).bind fun _ => EmitsPart.margin.bind fun _ =>
      (EmitsPart.print plain).bind fun _ => advances next nextPlain
  have closes : EmitsPart none _ _ := EmitsPart.margin.bind fun _ => EmitsPart.text "\x7d"
  rw [Emit.round]
  refine (EmitsPart.depth.bind fun depth => (EmitsPart.choose _ (direct _ (by simp))
    (accessor _ _ _ (by simp) (by simp) (by simp))).bind fun _ => closes).congr
      fun depth around => ?_
  cases style : site.style <;> simp [Site.roundText, style, Stmt.listPart]

theorem Stmt.emits_forTo {control : Ident} {first last : Expr} {step : Option Expr}
    {body : List Stmt}
    (emits : EmitsPart none (Stmt.emitList site body) (Stmt.listPart site body)) :
    EmitsPart none ((forTo control first last step body).emit site)
      ((forTo control first last step body).part site) := by
  have split : (forTo control first last step body).emit site =
      (Emit.margin >>= fun _ => Emit.inLoop (do
        let control := Variable.named control
        let type ← Emit.lowered fun _ => site.context.variableType site.scope control
        let first ← first.emit site
        let last ← last.emit site
        let step ← site.emitStep step
        let place ← control.emit site
        Emit.round site type place first last step (Stmt.emitList site body)) >>= fun _ =>
          Emit.print [.text ";\n"] >>= fun _ => Emit.takeLabel) := by
    rw [Stmt.emit]
    rfl
  rw [split]
  have roundEmits (type : DataType) (first' last' : Code.Expr) :=
    (EmitsPart.step site step).bind fun step' =>
      (EmitsPart.source site (.named control)).bind fun place =>
        emits_round type place first' last' step' emits
  have typed : EmitsPart none _ _ :=
    EmitsPart.lift (site.context.variableType site.scope (.named control))
  have bodyEmits := typed.bind fun type =>
    (EmitsPart.expr site first).bind fun first' =>
      (EmitsPart.expr site last).bind fun last' => roundEmits type first' last'
  have loopEmits := bodyEmits.inLoop (fun _ _ => EmitsPart.text ";\n") (by
    intro _ _ _ _ _ _ run
    cases run
    rfl)
  refine (EmitsPart.margin.bind fun _ => loopEmits).congr fun depth around => ?_
  simp [Stmt.part, Stmt.lower, Site.print_countingLoop]

theorem Stmt.emits_select {selector : Expr} {groups : List CaseGroup} {otherwise : List Stmt}
    (casesEmit : EmitsPart none (CaseGroup.emitCases site groups) (CaseGroup.casesPart site groups))
    (rangesEmit : EmitsPart none (CaseGroup.emitRanges site false groups)
      (CaseGroup.rangesPart site false groups))
    (otherwiseEmits :
      EmitsPart none (Stmt.emitList site otherwise) (Stmt.listPart site otherwise)) :
    EmitsPart none ((select selector groups otherwise).emit site)
      ((select selector groups otherwise).part site) := by
  have elseEmits := (EmitsPart.line "else \x7b").bind fun _ =>
    otherwiseEmits.indented.bind fun _ => EmitsPart.line "\x7d"
  have restEmits (hasRange : Bool) :=
    (EmitsPart.choose hasRange (elseEmits.unlessEmpty otherwise) otherwiseEmits).bind
      fun _ => EmitsPart.line "break;"
  have defaultEmits := (rangesEmit.bind restEmits).indented
  have groupsEmit := casesEmit.bind fun _ =>
    (EmitsPart.line "default:").bind fun _ => defaultEmits
  have switchEmits := (EmitsPart.text "switch (__case_expression) \x7b\n").bind fun _ =>
    groupsEmit.inSelection.indented.bind fun _ => EmitsPart.line "\x7d"
  have blockEmits (type : DataType) (selector' : Code.Expr) (depth : Nat) :=
    (EmitsPart.margin.bind fun _ =>
      (EmitsPart.enclosed (type.cName ++ " __case_expression = ") ";\n" selector' depth).bind
        fun _ => EmitsPart.margin.bind fun _ => switchEmits).indented
  have closes : EmitsPart none _ _ := EmitsPart.margin.bind fun _ => EmitsPart.text "\x7d"
  have whole := (EmitsPart.typeOf site selector).bind fun type =>
    (EmitsPart.expr site selector).bind fun selector' => EmitsPart.depth.bind fun depth =>
      (EmitsPart.text "\x7b\n").bind fun _ => (blockEmits type selector' depth).bind
        fun _ => closes
  rw [Stmt.emit]
  refine whole.statement.congr fun depth around => ?_
  simp only [Stmt.part, CaseGroup.casesPart, CaseGroup.rangesPart, Stmt.listPart, Stmt.lower,
    bind_assoc, pure_bind]
  refine bind_congr fun type => bind_congr fun selector' => bind_congr fun cases' =>
    bind_congr fun ranges => ?_
  -- Without ranges the statements stand one level further out, and without an `else`.
  cases ranges with
  | nil => simp [Code.Stmt.print, Code.RangeCase.printList]
  | cons range ranges =>
      cases otherwise with
      | nil => simp [Code.Stmt.print, Stmt.lowerList]
      | cons stmt stmts => simp [Code.Stmt.print, Stmt.lowerList]

theorem Stmt.emits_leaveUnit : EmitsPart none (leaveUnit.emit site) (leaveUnit.part site) := by
  rw [Stmt.emit]
  refine ((EmitsPart.line _).bind fun _ => EmitsPart.takeLabel).congr fun depth around => ?_
  simp [Stmt.part, Stmt.lower, Code.Stmt.print]

theorem Stmt.emits_leaveLoop : EmitsPart none (leaveLoop.emit site) (leaveLoop.part site) := by
  rw [Stmt.emit]
  refine (EmitsPart.exit.bind fun _ => EmitsPart.takeLabel).congr fun depth around => ?_
  rw [Stmt.part, Stmt.lower]
  cases Breakable.jumpTarget? false around <;> simp [Code.Stmt.print]

theorem Stmt.emits_pragma (directive : Pragma) :
    EmitsPart none ((pragma directive).emit site) ((pragma directive).part site) := by
  cases directive with
  | code text =>
      rw [Stmt.emit]
      refine (EmitsPart.depth.bind fun depth => EmitsPart.print fun on => ?_).congr
        fun depth around => ?_
      · cases style : site.style <;> simp [Site.code, style, Code.Stmt.print]
      · simp [Stmt.part, Stmt.lower]
  | enable =>
      rw [Stmt.emit]
      refine (EmitsPart.switch true).congr fun depth around => ?_
      simp [Stmt.part, Stmt.lower, Code.Stmt.print]
  | disable =>
      rw [Stmt.emit]
      refine (EmitsPart.switch false).congr fun depth around => ?_
      simp [Stmt.part, Stmt.lower, Code.Stmt.print]

theorem Stmt.emits_list_cons {stmt : Stmt} {stmts : List Stmt}
    (emits : EmitsPart none (stmt.emit site) (stmt.part site))
    (rest : EmitsPart none (Stmt.emitList site stmts) (Stmt.listPart site stmts)) :
    EmitsPart none (Stmt.emitList site (stmt :: stmts)) (Stmt.listPart site (stmt :: stmts)) := by
  rw [Stmt.emitList]
  refine (emits.bind fun _ => rest).congr fun depth around => ?_
  simp [Stmt.part, Stmt.listPart, Stmt.lowerList, Code.Stmt.printList]

theorem ElseIf.emits_list_cons {condition : Expr} {body : List Stmt} {elseIfs : List ElseIf}
    (emits : EmitsPart none (Stmt.emitList site body) (Stmt.listPart site body))
    (rest : EmitsPart none (ElseIf.emitList site elseIfs) (ElseIf.listPart site elseIfs)) :
    EmitsPart none (ElseIf.emitList site (.mk condition body :: elseIfs))
      (ElseIf.listPart site (.mk condition body :: elseIfs)) := by
  rw [ElseIf.emitList]
  have opens (condition' : Code.Expr) (depth : Nat) :=
    (EmitsPart.enclosed "\x7d else if (" ") \x7b\n" condition' depth).bind fun _ =>
      emits.indented.bind fun _ => rest
  have whole := (EmitsPart.expr site condition).bind fun condition' =>
    EmitsPart.margin.bind fun _ => EmitsPart.depth.bind fun depth => opens condition' depth
  refine whole.congr fun depth around => ?_
  simp [ElseIf.listPart, Stmt.listPart, ElseIf.lowerList, Code.Branch.printList]

theorem emits_labels (singles : List String) :
    EmitsPart none (singles.forM fun label => Emit.line ("case " ++ label ++ ":")) fun depth _ =>
      pure ((), singles.flatMap fun label => Piece.textLine depth ("case " ++ label ++ ":")) := by
  induction singles with
  | nil => exact EmitsPart.pure ()
  | cons label singles ih =>
      refine ((EmitsPart.line _).bind fun _ => ih).congr fun depth around => ?_
      simp

theorem CaseGroup.emits_cases_cons {labels : List CaseLabel} {body : List Stmt}
    {groups : List CaseGroup}
    (emits : EmitsPart none (Stmt.emitList site body) (Stmt.listPart site body))
    (rest : EmitsPart none (CaseGroup.emitCases site groups) (CaseGroup.casesPart site groups)) :
    EmitsPart none (CaseGroup.emitCases site (.mk labels body :: groups))
      (CaseGroup.casesPart site (.mk labels body :: groups)) := by
  rw [CaseGroup.emitCases]
  have bodyEmits := (emits.bind fun _ => EmitsPart.line "break;").indented
  have groupEmits (singles : List String) :=
    ((emits_labels singles).bind fun _ => bodyEmits).unlessEmpty singles
  refine ((EmitsPart.lift _).bind fun singles =>
    (groupEmits singles).bind fun _ => rest).congr fun depth around => ?_
  simp only [CaseGroup.casesPart, CaseGroup.lowerCases, Stmt.listPart, bind_assoc, pure_bind]
  refine bind_congr fun singles => ?_
  cases singles <;> simp [Code.Case.printList]

theorem CaseGroup.emits_ranges_cons {labels : List CaseLabel} {body : List Stmt}
    {groups : List CaseGroup} (hasRange : Bool)
    (emits : EmitsPart none (Stmt.emitList site body) (Stmt.listPart site body))
    (rest : ∀ hasRange, EmitsPart none (CaseGroup.emitRanges site hasRange groups)
      (CaseGroup.rangesPart site hasRange groups)) :
    EmitsPart none (CaseGroup.emitRanges site hasRange (.mk labels body :: groups))
      (CaseGroup.rangesPart site hasRange (.mk labels body :: groups)) := by
  rw [CaseGroup.emitRanges]
  cases ranges : CaseLabel.lowerRanges labels with
  | nil =>
      refine (rest hasRange).congr fun depth around => ?_
      simp [CaseGroup.rangesPart, CaseGroup.lowerRanges, ranges]
  | cons range ranges =>
      refine ((EmitsPart.line _).bind fun _ => emits.indented.bind fun _ =>
        (EmitsPart.line "\x7d").bind fun _ => rest true).congr fun depth around => ?_
      cases hasRange <;>
        simp [CaseGroup.rangesPart, CaseGroup.lowerRanges, Stmt.listPart,
          Code.RangeCase.printList, *]

mutual

/-- A statement is emitted as it is lowered and laid out. -/
theorem Stmt.emits : ∀ stmt : Stmt, EmitsPart none (stmt.emit site) (stmt.part site)
  | .assign target value => Stmt.emits_assign target value
  | .invoke block arguments => Stmt.emits_invoke block arguments
  | .ifElse _ body elseIfs otherwise =>
      Stmt.emits_ifElse (Stmt.emits_list body) (ElseIf.emits_list elseIfs)
        (Stmt.emits_list otherwise)
  | .select _ groups otherwise =>
      Stmt.emits_select (CaseGroup.emits_cases groups) (CaseGroup.emits_ranges groups false)
        (Stmt.emits_list otherwise)
  | .forTo _ _ _ _ body => Stmt.emits_forTo (Stmt.emits_list body)
  | .whileDo _ body => Stmt.emits_whileDo (Stmt.emits_list body)
  | .repeatUntil body _ => Stmt.emits_repeatUntil (Stmt.emits_list body)
  | .leaveUnit => Stmt.emits_leaveUnit
  | .leaveLoop => Stmt.emits_leaveLoop
  | .pragma directive => Stmt.emits_pragma directive

theorem Stmt.emits_list : ∀ stmts : List Stmt,
    EmitsPart none (Stmt.emitList site stmts) (Stmt.listPart site stmts)
  | [] => (EmitsPart.pure ()).congr fun _ _ => by
      simp [Stmt.listPart, Stmt.lowerList, Code.Stmt.printList]
  | stmt :: stmts => Stmt.emits_list_cons (Stmt.emits stmt) (Stmt.emits_list stmts)

theorem ElseIf.emits_list : ∀ elseIfs : List ElseIf,
    EmitsPart none (ElseIf.emitList site elseIfs) (ElseIf.listPart site elseIfs)
  | [] => (EmitsPart.pure ()).congr fun _ _ => by
      simp [ElseIf.listPart, ElseIf.lowerList, Code.Branch.printList]
  | .mk _ body :: elseIfs =>
      ElseIf.emits_list_cons (Stmt.emits_list body) (ElseIf.emits_list elseIfs)

theorem CaseGroup.emits_cases : ∀ groups : List CaseGroup,
    EmitsPart none (CaseGroup.emitCases site groups) (CaseGroup.casesPart site groups)
  | [] => (EmitsPart.pure ()).congr fun _ _ => by
      simp [CaseGroup.casesPart, CaseGroup.lowerCases, Code.Case.printList]
  | .mk _ body :: groups =>
      CaseGroup.emits_cases_cons (Stmt.emits_list body) (CaseGroup.emits_cases groups)

theorem CaseGroup.emits_ranges : ∀ (groups : List CaseGroup) (hasRange : Bool),
    EmitsPart none (CaseGroup.emitRanges site hasRange groups)
      (CaseGroup.rangesPart site hasRange groups)
  | [], hasRange => (EmitsPart.pure hasRange).congr fun _ _ => by
      simp [CaseGroup.rangesPart, CaseGroup.lowerRanges, Code.RangeCase.printList]
  | .mk _ body :: groups, hasRange =>
      CaseGroup.emits_ranges_cons hasRange (Stmt.emits_list body) (CaseGroup.emits_ranges groups)

end

end Statements

/-! ## Lists of statements -/

theorem Stmt.emitList_append (site : Site) (first second : List Stmt) :
    Stmt.emitList site (first ++ second) = (do
      Stmt.emitList site first
      Stmt.emitList site second) := by
  induction first with
  | nil => rfl
  | cons stmt first ih => simp [ih]

/-- What becomes of a loop or selection around: it stays, and a loop may have been jumped out
of since. -/
structure Breakable.Stays (before after : Breakable × Bool) : Prop where
  same : after.1 = before.1
  jumped : before.2 = true → after.2 = true
  selection : before.1 = .selection → after.2 = before.2

namespace Emitter

variable {site : Site} {body : List Stmt} {before after : Emitter}

theorem emitList_eq (site : Site) (body : List Stmt) {emitter : Emitter}
    (settled : emitter.pending = none) :
    Stmt.emitList site body emitter =
      (Stmt.lowerList site emitter.sink.depth emitter.around body emitter.lowering).map
        fun done => ((), emitter.after (Code.Stmt.printList emitter.sink.depth done.1) done.2) := by
  rw [(Stmt.emits_list body).run emitter settled, Stmt.listPart, Lower.bind_apply]
  cases Stmt.lowerList site emitter.sink.depth emitter.around body emitter.lowering <;> rfl

theorem of_emitList (settled : before.pending = none)
    (run : Stmt.emitList site body before = .ok ((), after)) :
    ∃ codes state,
      Stmt.lowerList site before.sink.depth before.around body before.lowering =
        .ok (codes, state) ∧
      LoweringState.Prints (Code.Stmt.printList before.sink.depth codes) before.lowering state ∧
      after = before.after (Code.Stmt.printList before.sink.depth codes) state := by
  rw [emitList_eq site body settled] at run
  obtain ⟨⟨codes, state⟩, lowered, made⟩ := map_eq_ok run
  have emits : EmitsPart none (Stmt.emitList site body) (Stmt.listPart site body) :=
    Stmt.emits_list body
  refine ⟨codes, state, lowered, ?_, (Prod.mk.inj made).2.symm⟩
  refine emits.prints before.sink.depth before.around before.lowering () _ state ?_
  rw [Stmt.listPart, Lower.bind_apply, lowered]
  rfl

theorem breakables_stay {pieces : List Piece} {state : LoweringState}
    (grows : before.jumped ⊆ state.jumped) :
    List.Forall₂ Breakable.Stays before.breakables (before.after pieces state).breakables := by
  rw [breakables, breakables, List.forall₂_map_left_iff, after_around, List.forall₂_map_right_iff,
    List.forall₂_same]
  intro breakable _
  cases breakable with
  | loop number =>
      refine ⟨rfl, fun isJumped => ?_, fun other => by cases other⟩
      rw [List.contains_iff_mem] at isJumped ⊢
      exact grows isJumped
  | selection => exact ⟨rfl, id, fun _ => rfl⟩

/-- Emitting a list of statements is lowering it and writing its layout.  A run that succeeds ends
at the depth where it started, among the same loops and selections, and with no label due; it
only appends to what has been written, and the counts of calls and loops never fall.  With the
output off and never switched on, neither text nor helpers are added.  A list is emitted as
its parts are, one after the other. -/
theorem statements_restore (site : Site) :
    (∀ (body : List Stmt) (before after : Emitter), before.pending = none →
      Stmt.emitList site body before = .ok ((), after) →
        after.sink.depth = before.sink.depth ∧
        List.Forall₂ Breakable.Stays before.breakables after.breakables ∧
        after.pending = none ∧
        before.sink.written <+: after.sink.written ∧
        before.calls ≤ after.calls ∧ before.loops ≤ after.loops ∧
        (before.sink.isOn = false → .pragma .enable ∉ Stmt.allList body →
          after.sink.written = before.sink.written ∧ after.helpers = before.helpers)) ∧
    (∀ first second : List Stmt, Stmt.emitList site (first ++ second) = (do
      Stmt.emitList site first
      Stmt.emitList site second)) ∧
    (∀ (body : List Stmt) (emitter : Emitter), emitter.pending = none →
      Stmt.emitList site body emitter =
        (Stmt.lowerList site emitter.sink.depth emitter.around body emitter.lowering).map
          fun done =>
            ((), emitter.after (Code.Stmt.printList emitter.sink.depth done.1) done.2)) := by
  refine ⟨fun body before after settled run => ?_, Stmt.emitList_append site,
    fun body emitter settled => emitList_eq site body settled⟩
  obtain ⟨codes, state, lowered, prints, rfl⟩ := of_emitList settled run
  have written : (before.after (Code.Stmt.printList before.sink.depth codes) state).sink.written =
      before.sink.written ++
        Piece.visible before.sink.isOn (Code.Stmt.printList before.sink.depth codes) := by
    rw [Emitter.after, Sink.write_eq]
  refine ⟨after_depth, breakables_stay prints.jumped, settled, ⟨_, written.symm⟩, prints.calls,
    prints.loops, fun isOff neverOn => ?_⟩
  have noSwitch : .switch true ∉ Code.Stmt.printList before.sink.depth codes :=
    Code.Stmt.switch_not_mem_printList codes before.sink.depth
      ((Stmt.stems_of_lowerList body (List.Subset.refl _) lowered).switchOn_not_mem neverOn)
  refine ⟨?_, prints.helpers isOff noSwitch⟩
  rw [written, isOff, Piece.visible_false noSwitch, List.append_nil]

/-- Two ways of leaving a loop: from within a selection, and from a loop of its own. -/
def leavings : List Stmt :=
  [.ifThen (.const (.boolean true)) [.leaveLoop],
    .whileDo (.const (.boolean true)) [.leaveLoop]]

def silent : Emitter where
  sink := { written := [.text "int x;\n"], depth := 2, isOn := false }
  loops := 1
  around := [.selection, .loop 1]

theorem silent_leavings_succeeds :
    (Stmt.emitList searchSite leavings silent).isOk = true := by
  decide +kernel

theorem statements_restore_leavings :
    .pragma .enable ∉ Stmt.allList leavings ∧
      ∃ after, Stmt.emitList searchSite leavings silent = .ok ((), after) ∧
        after.sink.depth = 2 ∧
        List.Forall₂ Breakable.Stays [(.selection, false), (.loop 1, false)] after.breakables ∧
        after.pending = none ∧ 1 ≤ after.loops ∧
        after.sink.written = [.text "int x;\n"] ∧ after.helpers = [] := by
  have neverOn : .pragma .enable ∉ Stmt.allList leavings := by
    simp [leavings, Stmt.ifThen, Stmt.all, Stmt.allList, ElseIf.allList]
  obtain ⟨⟨⟨⟩, after⟩, run⟩ := exists_ok_of_isOk silent_leavings_succeeds
  obtain ⟨depth, around, pending, -, -, loops, off⟩ :=
    (statements_restore searchSite).1 leavings silent after rfl run
  exact ⟨neverOn, after, run, depth, around, pending, loops, off rfl neverOn⟩

end Emitter

end StructuredText
