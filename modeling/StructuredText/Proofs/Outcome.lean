import Mathlib.Data.List.Forall2
import StructuredText.Lowering.State

/-!
# Outcomes of fallible steps

How a sequence of fallible steps ends.  A successful sequence had a successful
first step; a sequence fails only with allowed faults if each of its steps does.
The second fact is stated for plain results and for the steps of lowering, so that
what stops lowering can be read off step by step.
-/

set_option autoImplicit false

namespace StructuredText

section Result

variable {α β ε : Type}

theorem ok_bind (value : α) (next : α → Except ε β) :
    ((.ok value : Except ε α) >>= next) = next value := rfl

theorem bind_eq_ok {first : Except ε α} {next : α → Except ε β} {result : β}
    (success : (first >>= next) = .ok result) :
    ∃ value, first = .ok value ∧ next value = .ok result := by
  cases first with
  | error fault => cases success
  | ok value => exact ⟨value, rfl, success⟩

theorem map_eq_ok {first : Except ε α} {change : α → β} {result : β}
    (success : first.map change = .ok result) :
    ∃ value, first = .ok value ∧ change value = result := by
  cases first with
  | error fault => cases success
  | ok value => exact ⟨value, rfl, Except.ok.inj success⟩

theorem map_eq_error {first : Except ε α} {change : α → β} {fault : ε}
    (failed : first.map change = .error fault) : first = .error fault := by
  cases first with
  | error cause => rw [Except.error.inj failed]
  | ok value => cases failed

theorem eq_ok_of_toOption {result : Except ε α} {value : α}
    (found : result.toOption = some value) : result = .ok value := by
  cases result with
  | error fault => cases found
  | ok other => rw [Option.some.inj found]

theorem exists_ok_of_isOk {result : Except ε α} (succeeds : result.isOk = true) :
    ∃ value, result = .ok value := by
  cases result with
  | error fault => cases succeeds
  | ok value => exact ⟨value, rfl⟩

/-- A result that fails, if it does, with an allowed fault. -/
def FailsOnly (allowed : Fault → Prop) (result : Except Fault α) : Prop :=
  ∀ fault, result = .error fault → allowed fault

variable {allowed : Fault → Prop}

theorem failsOnly_ok (value : α) : FailsOnly allowed (.ok value) := by
  intro fault failed
  cases failed

theorem failsOnly_error {fault : Fault} (isAllowed : allowed fault) :
    FailsOnly allowed (.error fault : Except Fault α) := by
  intro other failed
  cases failed
  exact isAllowed

theorem failsOnly_bind {first : Except Fault α} {next : α → Except Fault β}
    (firstFails : FailsOnly allowed first)
    (nextFails : ∀ value, first = .ok value → FailsOnly allowed (next value)) :
    FailsOnly allowed (first >>= next) := by
  intro fault failed
  cases found : first with
  | error cause =>
      rw [found] at failed
      cases failed
      exact firstFails _ found
  | ok value =>
      rw [found] at failed
      exact nextFails value found fault failed

theorem failsOnly_map {first : Except Fault α} {change : α → β}
    (firstFails : FailsOnly allowed first) : FailsOnly allowed (first.map change) := by
  intro fault failed
  cases found : first with
  | error cause =>
      rw [found] at failed
      cases failed
      exact firstFails _ found
  | ok value =>
      rw [found] at failed
      cases failed

theorem failsOnly_mapM {items : List α} {step : α → Except Fault β}
    (stepFails : ∀ item ∈ items, FailsOnly allowed (step item)) :
    FailsOnly allowed (items.mapM step) := by
  induction items with
  | nil => exact failsOnly_ok []
  | cons item items ih =>
      rw [List.mapM_cons]
      refine failsOnly_bind (stepFails item (List.mem_cons_self ..)) fun value _ => ?_
      refine failsOnly_bind (ih fun other member => ?_) fun values _ => failsOnly_ok _
      exact stepFails other (List.mem_cons_of_mem _ member)

theorem FailsOnly.cases {result : Except Fault α} (fails : FailsOnly allowed result) :
    (∃ value, result = .ok value) ∨ ∃ fault, result = .error fault ∧ allowed fault := by
  cases found : result with
  | ok value => exact .inl ⟨value, rfl⟩
  | error fault => exact .inr ⟨fault, rfl, fails fault found⟩

/-- Steps that may fail give one result for each item if none of them does. -/
theorem mapM_eq_some_iff {step : α → Option β} {items : List α} {results : List β} :
    items.mapM step = some results ↔
      List.Forall₂ (fun item result => step item = some result) items results := by
  induction items generalizing results with
  | nil => simp [eq_comm]
  | cons item items ih =>
      rw [List.mapM_cons, Option.bind_eq_bind, Option.bind_eq_some_iff]
      constructor
      · rintro ⟨first, isFirst, made⟩
        obtain ⟨rest, isRest, made⟩ := Option.bind_eq_some_iff.mp made
        cases made
        exact .cons isFirst (ih.mp isRest)
      · rintro (_ | ⟨isFirst, isRest⟩)
        exact ⟨_, isFirst, Option.bind_eq_some_iff.mpr ⟨_, ih.mpr isRest, rfl⟩⟩

theorem mapM_eq_ok_iff {step : α → Except ε β} {items : List α} {results : List β} :
    items.mapM step = .ok results ↔
      List.Forall₂ (fun item result => step item = .ok result) items results := by
  induction items generalizing results with
  | nil => simp [pure, Except.pure, eq_comm]
  | cons item items ih =>
      rw [List.mapM_cons]
      constructor
      · intro made
        obtain ⟨first, isFirst, made⟩ := bind_eq_ok made
        obtain ⟨rest, isRest, made⟩ := bind_eq_ok made
        cases made
        exact .cons isFirst (ih.mp isRest)
      · rintro (_ | ⟨isFirst, isRest⟩)
        rw [isFirst, ok_bind, ih.mpr isRest]
        rfl

/-- Each member of a list that is related to another one has a counterpart there. -/
theorem exists_of_mem_right {related : α → β → Prop} {left : List α} {right : List β}
    (all : List.Forall₂ related left right) : ∀ other ∈ right, ∃ one ∈ left, related one other := by
  induction all with
  | nil => exact fun _ member => absurd member List.not_mem_nil
  | @cons one other left right isRelated rest ih =>
      intro later member
      rcases List.mem_cons.mp member with rfl | inRest
      · exact ⟨one, List.mem_cons_self .., isRelated⟩
      · obtain ⟨found, inLeft, foundRelated⟩ := ih later inRest
        exact ⟨found, List.mem_cons_of_mem _ inLeft, foundRelated⟩

/-- A relation between two lists gives another one that follows from it for their members. -/
theorem forall₂_of_mem {related stronger : α → β → Prop} {left : List α} {right : List β}
    (all : List.Forall₂ stronger left right)
    (follows : ∀ one ∈ left, ∀ other ∈ right, stronger one other → related one other) :
    List.Forall₂ related left right := by
  induction all with
  | nil => exact .nil
  | cons isStronger _ ih =>
      refine .cons (follows _ (List.mem_cons_self ..) _ (List.mem_cons_self ..) isStronger) ?_
      exact ih fun one isOne other isOther =>
        follows one (List.mem_cons_of_mem _ isOne) other (List.mem_cons_of_mem _ isOther)

def reported : Except (List Fault) α → List Fault
  | .ok _ => []
  | .error faults => faults

end Result

/-! ## Steps of lowering -/

namespace Lower

variable {α β : Type} {allowed : Fault → Prop}

/-- A step that fails, from whatever state, with an allowed fault only. -/
def FailsOnly (allowed : Fault → Prop) (step : Lower α) : Prop :=
  ∀ state, StructuredText.FailsOnly allowed (step state)

theorem failsOnly_pure (value : α) : FailsOnly allowed (pure value) :=
  fun _ => failsOnly_ok _

theorem failsOnly_throw {fault : Fault} (isAllowed : allowed fault) :
    FailsOnly allowed (throw fault : Lower α) :=
  fun _ => failsOnly_error isAllowed

theorem failsOnly_bind_of_run {first : Lower α} {next : α → Lower β}
    (firstFails : FailsOnly allowed first)
    (nextFails : ∀ state value after, first state = .ok (value, after) →
      FailsOnly allowed (next value)) :
    FailsOnly allowed (first >>= next) := by
  intro state
  refine StructuredText.failsOnly_bind (firstFails state) ?_
  rintro ⟨value, after⟩ run
  exact nextFails state value after run after

theorem failsOnly_bind {first : Lower α} {next : α → Lower β}
    (firstFails : FailsOnly allowed first) (nextFails : ∀ value, FailsOnly allowed (next value)) :
    FailsOnly allowed (first >>= next) :=
  failsOnly_bind_of_run firstFails fun _ value _ _ => nextFails value

theorem failsOnly_throw_bind {fault : Fault} {next : α → Lower β} (isAllowed : allowed fault) :
    FailsOnly allowed ((throw fault : Lower α) >>= next) :=
  fun _ => failsOnly_error isAllowed

theorem failsOnly_lift {result : Except Fault α} (fails : StructuredText.FailsOnly allowed result) :
    FailsOnly allowed (liftM result : Lower α) := by
  intro state
  refine StructuredText.failsOnly_bind fails ?_
  intro value _
  exact failsOnly_ok _

theorem failsOnly_modify (change : LoweringState → LoweringState) :
    FailsOnly allowed (modify change : Lower Unit) :=
  fun _ => failsOnly_ok _

theorem failsOnly_nextCall : FailsOnly allowed nextCall := fun _ => failsOnly_ok _

theorem failsOnly_nextLoop : FailsOnly allowed nextLoop := fun _ => failsOnly_ok _

theorem failsOnly_exit? (loop : Nat) : FailsOnly allowed (exit? loop) := fun _ => failsOnly_ok _

/-- A successful run of two steps had a successful run of the first. -/
theorem bind_eq_ok {first : Lower α} {next : α → Lower β} {state after : LoweringState}
    {result : β} (run : (first >>= next) state = .ok (result, after)) :
    ∃ value middle, first state = .ok (value, middle) ∧
      next value middle = .ok (result, after) := by
  obtain ⟨⟨value, middle⟩, firstRun, nextRun⟩ := StructuredText.bind_eq_ok run
  exact ⟨value, middle, firstRun, nextRun⟩

theorem lift_ok_bind (value : α) (next : α → Lower β) :
    ((liftM (.ok value : Except Fault α) : Lower α) >>= next) = next value := rfl

theorem lift_eq_ok {result : Except Fault α} {state after : LoweringState} {value : α}
    (run : (liftM result : Lower α) state = .ok (value, after)) : result = .ok value := by
  cases result with
  | error fault => cases run
  | ok other =>
      cases run
      rfl

theorem state_of_lift {result : Except Fault α} {state after : LoweringState} {value : α}
    (run : (liftM result : Lower α) state = .ok (value, after)) : after = state := by
  cases result with
  | error fault => cases run
  | ok other =>
      cases run
      rfl

theorem need_eq_ok {fault : Fault} {found : Option α} {state after : LoweringState} {value : α}
    (run : need fault found state = .ok (value, after)) : found = some value := by
  cases found with
  | none => cases run
  | some other =>
      cases run
      rfl

theorem state_of_need {fault : Fault} {found : Option α} {state after : LoweringState}
    {value : α} (run : need fault found state = .ok (value, after)) : after = state := by
  cases found with
  | none => cases run
  | some other =>
      cases run
      rfl

theorem need_some (fault : Fault) (value : α) : need fault (some value) = pure value := rfl

theorem need_some_bind (fault : Fault) (value : α) (next : α → Lower β) :
    (need fault (some value) >>= next) = next value := rfl

end Lower

end StructuredText
