import Mathlib.Data.List.Infix
import StructuredText.Scope.Stack

/-!
# Histories of nested scopes

Work on nested scopes is a history of steps: scopes are entered and left, and names get
values.  A value counts as long as the scope that got it is open.  A name has the value that
it got last in the innermost of the open scopes that give it one, and what happens between
entering a scope and leaving it again leaves no trace.
-/

set_option autoImplicit false

namespace StructuredText.ScopeStack

variable {α : Type}

/-- A step of work on nested scopes. -/
inductive Operation (α : Type) where
  | push
  | pop
  | bind (name : Ident) (value : α)
  | tryBind (name : Ident) (value : α)

namespace Operation

def isPush : Operation α → Bool
  | push => true
  | _ => false

def isPop : Operation α → Bool
  | pop => true
  | _ => false

theorem countP_isPush_push (operations : List (Operation α)) :
    (push :: operations).countP isPush = operations.countP isPush + 1 :=
  List.countP_cons_of_pos rfl

theorem countP_isPop_push (operations : List (Operation α)) :
    (push :: operations).countP isPop = operations.countP isPop :=
  List.countP_cons_of_neg Bool.false_ne_true

theorem countP_isPush_pop (operations : List (Operation α)) :
    (pop :: operations).countP isPush = operations.countP isPush :=
  List.countP_cons_of_neg Bool.false_ne_true

theorem countP_isPop_pop (operations : List (Operation α)) :
    (pop :: operations).countP isPop = operations.countP isPop + 1 :=
  List.countP_cons_of_pos rfl

def depthAfter (depth : Nat) : Operation α → Nat
  | push => depth + 1
  | pop => max 1 (depth - 1)
  | bind _ _ | tryBind _ _ => depth

/-- Every scope that is entered is left again, and no other scope is left. -/
def Balanced (operations : List (Operation α)) : Prop :=
  operations.countP isPush = operations.countP isPop ∧
    ∀ first ∈ operations.inits, first.countP isPop ≤ first.countP isPush

instance (operations : List (Operation α)) : Decidable (Balanced operations) :=
  inferInstanceAs (Decidable (_ ∧ _))

end Operation

/-- Takes a step.  The outermost scope stays if it is to be left. -/
def step (stack : ScopeStack α) : Operation α → ScopeStack α
  | .push => stack.push
  | .pop =>
      match stack.pop with
      | .ok outer => outer
      | .error _ => stack
  | .bind name value => stack.bind name value
  | .tryBind name value => stack.tryBind name value

def run (stack : ScopeStack α) (operations : List (Operation α)) : ScopeStack α :=
  operations.foldl step stack

theorem run_append (stack : ScopeStack α) (first second : List (Operation α)) :
    stack.run (first ++ second) = (stack.run first).run second :=
  List.foldl_append ..

/-- The step gives a name a value in the current scope: it binds the name, unless it is only
to try so and the name has a value in this scope. -/
def Operation.Sets (operation : Operation α) (stack : ScopeStack α) (name : Ident) (value : α) :
    Prop :=
  ∃ given, (given == name) = true ∧
    (operation = .bind given value ∨
      operation = .tryBind given value ∧ stack.lookupCurrent name = none)

/-! ## One step -/

section Step

variable {stack : ScopeStack α}

def scopes (stack : ScopeStack α) : List (Table α) := stack.enclosing.reverse ++ [stack.current]

def valueIn (stack : ScopeStack α) (level : Nat) (name : Ident) : Option α :=
  stack.scopes[level]?.bind fun table => table.get? name

theorem length_scopes (stack : ScopeStack α) : stack.scopes.length = stack.depth := by
  simp [scopes, depth]

theorem pop_cases (stack : ScopeStack α) :
    stack.depth = 1 ∧ stack.pop = .error (.internal .scopeUnderflow {}) ∨
      ∃ outer, stack.pop = .ok outer ∧ stack.depth = outer.depth + 1 ∧
        stack.scopes = outer.scopes ++ [stack.current] := by
  obtain ⟨current, enclosing⟩ := stack
  cases enclosing with
  | nil => exact .inl ⟨rfl, rfl⟩
  | cons next outermost => exact .inr ⟨⟨next, outermost⟩, rfl, rfl, by simp [scopes]⟩

theorem depth_step (stack : ScopeStack α) (operation : Operation α) :
    (stack.step operation).depth = operation.depthAfter stack.depth := by
  cases operation with
  | push | bind => rfl
  | pop =>
      rw [step, Operation.depthAfter]
      rcases pop_cases stack with ⟨isOne, fails⟩ | ⟨outer, popped, isMore, -⟩
      · rw [fails, isOne]
        rfl
      · rw [popped, isMore, Nat.add_sub_cancel, max_eq_right outer.depth_pos]
  | tryBind name value =>
      rw [step, tryBind]
      split <;> rfl

theorem valueIn_of_le {level : Nat} (outside : stack.depth ≤ level) (name : Ident) :
    stack.valueIn level name = none := by
  rw [valueIn, List.getElem?_eq_none (by rw [length_scopes]; exact outside), Option.bind_none]

theorem valueIn_current {level : Nat} (isCurrent : level + 1 = stack.depth) (name : Ident) :
    stack.valueIn level name = stack.lookupCurrent name := by
  have isLast : level = stack.enclosing.reverse.length := by
    rw [List.length_reverse]
    exact Nat.succ_injective isCurrent
  rw [valueIn, scopes, isLast, List.getElem?_concat_length, Option.bind_some, lookupCurrent]

theorem valueIn_of_sameEnclosing {other : ScopeStack α} {level : Nat}
    (same : other.enclosing = stack.enclosing) (notCurrent : level + 1 ≠ stack.depth)
    (name : Ident) : other.valueIn level name = stack.valueIn level name := by
  have notLast : level ≠ stack.enclosing.reverse.length := by
    rw [List.length_reverse]
    exact fun isLast => notCurrent (congrArg (· + 1) isLast)
  rcases Nat.lt_or_gt_of_ne notLast with before | behind
  · simp only [valueIn, scopes, same, List.getElem?_append_left before]
  · rw [List.length_reverse] at behind
    rw [valueIn_of_le behind, valueIn_of_le (by rw [depth, same]; exact behind)]

/-- Scopes that are entered or left at the end change no value in the scopes before them. -/
theorem valueIn_of_scopes {outer : ScopeStack α} {level : Nat} {more : List (Table α)}
    (split : stack.scopes = outer.scopes ++ more) (inside : level < outer.depth) (name : Ident) :
    stack.valueIn level name = outer.valueIn level name := by
  rw [← length_scopes] at inside
  rw [valueIn, split, List.getElem?_append_left inside, valueIn]

theorem lookupCurrent_bind (stack : ScopeStack α) (given name : Ident) (value : α) :
    (stack.bind given value).lookupCurrent name =
      if given == name then some value else stack.lookupCurrent name :=
  Table.get?_insert ..

theorem enclosing_tryBind (stack : ScopeStack α) (given : Ident) (value : α) :
    (stack.tryBind given value).enclosing = stack.enclosing := by
  unfold tryBind
  split <;> rfl

/-- A name that has a value in the current scope keeps it. -/
theorem lookupCurrent_tryBind (stack : ScopeStack α) (given name : Ident) (value : α) :
    (stack.tryBind given value).lookupCurrent name =
      (stack.lookupCurrent name).or (if given == name then some value else none) := by
  unfold tryBind
  cases known : stack.lookupCurrent name with
  | some old =>
      have present : stack.current.contains name = true := by
        rw [Table.contains, ← lookupCurrent, known]
        rfl
      split
      · exact known
      · exact (Table.get?_push_of_contains present).trans known
  | none =>
      have absent : stack.current.contains name = false := by
        rw [Table.contains, ← lookupCurrent, known]
        rfl
      split
      · next present =>
          have other : ¬(given == name) = true := by
            intro same
            rw [Table.contains, stack.current.get?_congr same, ← Table.contains, absent] at present
            cases present
          rw [if_neg other]
          exact known
      · exact Table.get?_push_of_not_contains absent

/-- What a step does to the scopes that are open after it: a value that it sets goes into the
current scope, and all else stays. -/
theorem valueIn_step {operation : Operation α} {level : Nat} (name : Ident)
    (inside : level < (stack.step operation).depth) :
    (∀ value, level + 1 = stack.depth → operation.Sets stack name value →
      (stack.step operation).valueIn level name = some value) ∧
    ((level + 1 = stack.depth → ∀ value, ¬operation.Sets stack name value) →
      (stack.step operation).valueIn level name = stack.valueIn level name) := by
  cases operation with
  | push =>
      refine ⟨fun value _ ⟨_, _, sets⟩ => by simp at sets, fun _ => ?_⟩
      rcases Nat.lt_succ_iff_lt_or_eq.mp inside with isOld | isNew
      · have split : (stack.step .push).scopes = stack.scopes ++ [Table.empty] := by
          simp [step, push, scopes, Table.empty]
        exact valueIn_of_scopes split isOld name
      · rw [valueIn_of_le isNew.ge]
        exact valueIn_current (congrArg (· + 1) isNew) name
  | pop =>
      refine ⟨fun value _ ⟨_, _, sets⟩ => by simp at sets, fun _ => ?_⟩
      rw [step] at inside ⊢
      rcases pop_cases stack with ⟨-, fails⟩ | ⟨outer, popped, -, split⟩
      · rw [fails]
      · rw [popped] at inside ⊢
        exact (valueIn_of_scopes split inside name).symm
  | bind given value =>
      rw [step]
      by_cases isCurrent : level + 1 = stack.depth
      · have isCurrentAfter : level + 1 = (stack.bind given value).depth := isCurrent
        rw [valueIn_current isCurrent, valueIn_current isCurrentAfter, lookupCurrent_bind]
        constructor
        · rintro _ - ⟨_, same, sets⟩
          simp only [Operation.bind.injEq, reduceCtorEq, false_and, or_false] at sets
          obtain ⟨rfl, rfl⟩ := sets
          exact if_pos same
        · exact fun keeps => if_neg fun same => keeps isCurrent value ⟨given, same, .inl rfl⟩
      · exact ⟨fun _ current => absurd current isCurrent,
          fun _ => valueIn_of_sameEnclosing (by rfl) isCurrent name⟩
  | tryBind given value =>
      have sameEnclosing := stack.enclosing_tryBind given value
      rw [step]
      by_cases isCurrent : level + 1 = stack.depth
      · have stillCurrent : level + 1 = (stack.tryBind given value).depth := by
          rw [depth, sameEnclosing]
          exact isCurrent
        rw [valueIn_current isCurrent, valueIn_current stillCurrent, lookupCurrent_tryBind]
        constructor
        · rintro _ - ⟨_, same, sets⟩
          simp only [Operation.tryBind.injEq, reduceCtorEq, false_or] at sets
          obtain ⟨⟨rfl, rfl⟩, missing⟩ := sets
          rw [missing, if_pos same, Option.none_or]
        · intro keeps
          cases known : stack.lookupCurrent name with
          | some old => rfl
          | none =>
              exact if_neg fun same => keeps isCurrent value ⟨given, same, .inr ⟨rfl, known⟩⟩
      · exact ⟨fun _ current => absurd current isCurrent,
          fun _ => valueIn_of_sameEnclosing sameEnclosing isCurrent name⟩

end Step

/-! ## Values in a history -/

/-- The number of scopes after a history, counted from its steps alone. -/
def depthOf (history : List (Operation α)) : Nat :=
  history.foldl (fun depth operation => operation.depthAfter depth) 1

/-- The step at a place of a history gives a name a value. -/
def Gives (history : List (Operation α)) (place : Nat) (name : Ident) (value : α) : Prop :=
  ∃ operation, history[place]? = some operation ∧
    operation.Sets (new.run (history.take place)) name value

/-- The scope that is current at a place of a history is never left from there on. -/
def StaysOpen (history : List (Operation α)) (place : Nat) : Prop :=
  ∀ later, place ≤ later → later ≤ history.length →
    depthOf (history.take place) ≤ depthOf (history.take later)

/-- At a place of a history a name gets a value in a scope that is still open at the end; the
depth of the scope is the number of scopes from the outermost one to it. -/
structure Holds (history : List (Operation α)) (name : Ident) (place depth : Nat) (value : α) :
    Prop where
  gives : Gives history place name value
  isDepth : depthOf (history.take place) = depth
  staysOpen : StaysOpen history place

section History

variable {history : List (Operation α)} {operation : Operation α} {name : Ident}
  {place depth : Nat} {value : α}

theorem depth_run (history : List (Operation α)) : (new.run history).depth = depthOf history := by
  induction history using List.reverseRecOn with
  | nil => rfl
  | append_singleton history operation ih =>
      rw [run_append, depthOf, List.foldl_append, ← depthOf, ← ih]
      exact depth_step ..

theorem take_concat_of_le (within : place ≤ history.length) :
    (history ++ [operation]).take place = history.take place :=
  List.take_append_of_le_length within

theorem depthOf_concat (history : List (Operation α)) (operation : Operation α) :
    depthOf (history ++ [operation]) = operation.depthAfter (depthOf history) :=
  List.foldl_concat ..

/-- A scope stays open for one more step if the step does not leave it. -/
theorem staysOpen_concat (within : place ≤ history.length) :
    StaysOpen (history ++ [operation]) place ↔
      StaysOpen history place ∧
        depthOf (history.take place) ≤ operation.depthAfter (depthOf history) := by
  have whole : (history ++ [operation]).take (history.length + 1) = history ++ [operation] :=
    List.take_of_length_le (by simp)
  simp only [StaysOpen, take_concat_of_le within, List.length_append, List.length_singleton,
    ← depthOf_concat]
  constructor
  · intro stays
    refine ⟨fun later behind inside => ?_, ?_⟩
    · have old := stays later behind (Nat.le_succ_of_le inside)
      rwa [take_concat_of_le inside] at old
    · have last := stays (history.length + 1) (Nat.le_succ_of_le within) le_rfl
      rwa [whole] at last
  · rintro ⟨stays, stepStays⟩ later behind inside
    rcases Nat.le_succ_iff.mp inside with isOld | rfl
    · rw [take_concat_of_le isOld]
      exact stays later behind isOld
    · rwa [Nat.succ_eq_add_one, whole]

theorem staysOpen_length (history : List (Operation α)) : StaysOpen history history.length := by
  intro later behind inside
  rw [le_antisymm inside behind]

theorem gives_concat_of_lt (before : place < history.length) :
    Gives (history ++ [operation]) place name value ↔ Gives history place name value := by
  rw [Gives, Gives, List.getElem?_append_left before, take_concat_of_le before.le]

theorem gives_concat_length :
    Gives (history ++ [operation]) history.length name value ↔
      operation.Sets (new.run history) name value := by
  simp [Gives]

theorem Gives.lt (gives : Gives history place name value) : place < history.length := by
  obtain ⟨operation, found, -⟩ := gives
  exact (List.getElem?_eq_some_iff.mp found).1

/-- After one more step a value is one that was there before and whose scope the step does not
leave, or one that the step sets. -/
theorem holds_concat_iff :
    Holds (history ++ [operation]) name place depth value ↔
      depth ≤ operation.depthAfter (depthOf history) ∧
        (Holds history name place depth value ∨
          place = history.length ∧ depth = depthOf history ∧
            operation.Sets (new.run history) name value) := by
  constructor
  · rintro ⟨gives, isDepth, stays⟩
    have within : place ≤ history.length := by
      have bound := gives.lt
      rw [List.length_append, List.length_singleton] at bound
      exact Nat.le_of_lt_succ bound
    obtain ⟨stays, stepStays⟩ := (staysOpen_concat within).mp stays
    rw [take_concat_of_le within] at isDepth
    rw [isDepth] at stepStays
    refine ⟨stepStays, ?_⟩
    rcases Nat.lt_or_eq_of_le within with before | rfl
    · exact .inl ⟨(gives_concat_of_lt before).mp gives, isDepth, stays⟩
    · rw [List.take_length] at isDepth
      exact .inr ⟨rfl, isDepth.symm, gives_concat_length.mp gives⟩
  · rintro ⟨stepStays, ⟨gives, isDepth, stays⟩ | ⟨rfl, rfl, sets⟩⟩
    · refine ⟨(gives_concat_of_lt gives.lt).mpr gives, ?_, ?_⟩
      · rwa [take_concat_of_le gives.lt.le]
      · rw [staysOpen_concat gives.lt.le, isDepth]
        exact ⟨stays, stepStays⟩
    · refine ⟨gives_concat_length.mpr sets, ?_, ?_⟩
      · rw [take_concat_of_le le_rfl, List.take_length]
      · rw [staysOpen_concat le_rfl, List.take_length]
        exact ⟨staysOpen_length history, stepStays⟩

/-- What the scope of a depth says of a name: the value that the name got last in it. -/
def IsLast (history : List (Operation α)) (name : Ident) (depth : Nat) : Option α → Prop
  | none => ∀ place value, ¬Holds history name place depth value
  | some value => ∃ place, Holds history name place depth value ∧
      ∀ later other, Holds history name later depth other → later ≤ place

/-- A step that neither leaves a scope nor sets the name in it keeps what the scope says. -/
theorem IsLast.concat {result : Option α} (isLast : IsLast history name depth result)
    (stays : depth ≤ operation.depthAfter (depthOf history))
    (keeps : depth = depthOf history → ∀ value, ¬operation.Sets (new.run history) name value) :
    IsLast (history ++ [operation]) name depth result := by
  have same : ∀ place value, Holds (history ++ [operation]) name place depth value ↔
      Holds history name place depth value := by
    intro place value
    rw [holds_concat_iff, and_iff_right stays, or_iff_left]
    exact fun ⟨_, isCurrent, sets⟩ => keeps isCurrent value sets
  cases result <;> simpa only [IsLast, same] using isLast

/-- Every scope says of a name what the name got last in it. -/
theorem isLast_valueIn (history : List (Operation α)) (name : Ident) :
    ∀ level, IsLast history name (level + 1) ((new.run history).valueIn level name) := by
  induction history using List.reverseRecOn with
  | nil =>
      intro level
      have isNone : (new.run []).valueIn level name = (none : Option α) := by
        cases level with
        | zero => rfl
        | succ level => exact valueIn_of_le (Nat.succ_le_succ (Nat.zero_le _)) name
      rw [isNone]
      exact fun place value holds => absurd holds.gives.lt (Nat.not_lt_zero place)
  | append_singleton history operation ih =>
      intro level
      have depthAfter : ((new.run history).step operation).depth =
          operation.depthAfter (depthOf history) := by
        rw [depth_step, depth_run]
      rw [run_append]
      change IsLast _ name _ (((new.run history).step operation).valueIn level name)
      by_cases inside : level < ((new.run history).step operation).depth
      · obtain ⟨sets, keeps⟩ := valueIn_step name inside
        rw [depthAfter] at inside
        rw [depth_run] at sets keeps
        by_cases isSet : level + 1 = depthOf history ∧
            ∃ value, operation.Sets (new.run history) name value
        · obtain ⟨isCurrent, value, isValue⟩ := isSet
          rw [sets value isCurrent isValue]
          refine ⟨history.length, holds_concat_iff.mpr ⟨inside, .inr ⟨rfl, isCurrent, isValue⟩⟩, ?_⟩
          intro later other holds
          have bound := holds.gives.lt
          rw [List.length_append, List.length_singleton] at bound
          exact Nat.le_of_lt_succ bound
        · rw [not_and, not_exists] at isSet
          rw [keeps isSet]
          exact (ih level).concat inside isSet
      · -- The scope is not open after the step, so nothing in it counts.
        rw [valueIn_of_le (Nat.not_lt.mp inside)]
        rw [depthAfter] at inside
        exact fun place value holds => inside (holds_concat_iff.mp holds).1

theorem Holds.value_eq {other : α} {otherDepth : Nat}
    (holds : Holds history name place depth value)
    (holdsOther : Holds history name place otherDepth other) : value = other := by
  obtain ⟨step, found, given, -, sets⟩ := holds.gives
  obtain ⟨step', found', given', -, sets'⟩ := holdsOther.gives
  rw [found] at found'
  cases found'
  rcases sets with rfl | ⟨rfl, -⟩ <;> rcases sets' with same | ⟨same, -⟩ <;> cases same <;> rfl

theorem Holds.depth_pos (holds : Holds history name place depth value) : 0 < depth := by
  rw [← holds.isDepth, ← depth_run]
  exact ScopeStack.depth_pos _

theorem isLast_iff {result : Option α} (isLast : IsLast history name depth result) :
    result = some value ↔ IsLast history name depth (some value) := by
  constructor
  · rintro rfl
    exact isLast
  · rintro ⟨place, holds, last⟩
    cases result with
    | none => exact absurd holds (isLast place value)
    | some other =>
        obtain ⟨place', holds', last'⟩ := isLast
        have same := le_antisymm (last place' other holds') (last' place value holds)
        subst same
        rw [holds.value_eq holds']

/-- The value that a name has to the innermost scope: it got it in a scope that is still open,
no scope further in gives it a value, and this scope gives it no later one. -/
def IsInnermost (history : List (Operation α)) (name : Ident) (place depth : Nat) (value : α) :
    Prop :=
  Holds history name place depth value ∧ ∀ later deeper other,
    Holds history name later deeper other → deeper < depth ∨ deeper = depth ∧ later ≤ place

theorem IsInnermost.value_eq {other : α} {place' depth' : Nat}
    (isInnermost : IsInnermost history name place depth value)
    (isInnermost' : IsInnermost history name place' depth' other) : value = other := by
  obtain ⟨holds, first⟩ := isInnermost
  obtain ⟨holds', first'⟩ := isInnermost'
  have order := first place' depth' other holds'
  have order' := first' place depth value holds
  obtain rfl : place = place' := by omega
  exact holds.value_eq holds'

end History

section Lookup

variable {stack : ScopeStack α} {name : Ident}

theorem valueIn_of_lookup {value : α} (found : stack.lookup name = some value) :
    ∃ level, stack.valueIn level name = some value ∧
      ∀ deeper, level < deeper → stack.valueIn deeper name = none := by
  obtain ⟨inner, table, outer, split, isValue, noneInner⟩ := List.findSome?_eq_some_iff.mp found
  have parts : stack.scopes = outer.reverse ++ table :: inner.reverse := by
    rw [scopes, ← List.reverse_cons, split]
    simp
  refine ⟨outer.reverse.length, ?_, fun deeper isDeeper => ?_⟩
  · rw [valueIn, parts, List.getElem?_append_right le_rfl, Nat.sub_self]
    exact isValue
  · rw [valueIn, parts, List.getElem?_append_right isDeeper.le, Option.bind_eq_none_iff]
    intro other isThere
    obtain ⟨gap, isGap⟩ := Nat.exists_eq_succ_of_ne_zero (Nat.sub_ne_zero_of_lt isDeeper)
    rw [isGap, List.getElem?_cons_succ] at isThere
    exact noneInner other (List.mem_reverse.mp (List.mem_of_getElem? isThere))

theorem valueIn_of_lookup_eq_none (missing : stack.lookup name = none) (level : Nat) :
    stack.valueIn level name = none := by
  rw [valueIn, Option.bind_eq_none_iff]
  intro table isThere
  have isTable := List.mem_of_getElem? isThere
  rw [scopes, ← List.reverse_cons, List.mem_reverse] at isTable
  exact List.findSome?_eq_none_iff.mp missing table isTable

variable {history : List (Operation α)}

theorem isInnermost_of_lookup {value : α} (found : (new.run history).lookup name = some value) :
    ∃ place depth, IsInnermost history name place depth value := by
  obtain ⟨level, isValue, noneDeeper⟩ := valueIn_of_lookup found
  have isLast := isLast_valueIn history name level
  rw [isValue] at isLast
  obtain ⟨place, holds, last⟩ := isLast
  refine ⟨place, level + 1, holds, fun later deeper other holdsOther => ?_⟩
  rcases lt_trichotomy deeper (level + 1) with isOuter | rfl | isInner
  · exact .inl isOuter
  · exact .inr ⟨rfl, last later other holdsOther⟩
  · obtain ⟨deeper, rfl⟩ := Nat.exists_eq_succ_of_ne_zero holdsOther.depth_pos.ne'
    have noValue := isLast_valueIn history name deeper
    rw [noneDeeper deeper (Nat.lt_of_succ_lt_succ isInner)] at noValue
    exact absurd holdsOther (noValue later other)

/-- A name has the value that it got last in the innermost open scope that gives it one. -/
theorem lookup_iff {value : α} : (new.run history).lookup name = some value ↔
    ∃ place depth, IsInnermost history name place depth value := by
  refine ⟨isInnermost_of_lookup, fun ⟨place, depth, isInnermost⟩ => ?_⟩
  cases found : (new.run history).lookup name with
  | none =>
      obtain ⟨level, rfl⟩ := Nat.exists_eq_succ_of_ne_zero isInnermost.1.depth_pos.ne'
      have noValue := isLast_valueIn history name level
      rw [valueIn_of_lookup_eq_none found] at noValue
      exact absurd isInnermost.1 (noValue place value)
  | some other =>
      obtain ⟨place', depth', isInnermost'⟩ := isInnermost_of_lookup found
      rw [isInnermost.value_eq isInnermost']

/-- The current scope alone has the values that names got last in it. -/
theorem lookupCurrent_iff {value : α} : (new.run history).lookupCurrent name = some value ↔
    IsLast history name (depthOf history) (some value) := by
  obtain ⟨level, isLevel⟩ := Nat.exists_eq_succ_of_ne_zero (new.run history).depth_pos.ne'
  have isLast := isLast_valueIn history name level
  rw [valueIn_current isLevel.symm] at isLast
  rw [← depth_run, isLevel]
  exact isLast_iff isLast

end Lookup

/-! ## Scopes that are entered and left -/

/-- Steps above the scopes of `base` stay above them as long as no more scopes are left than
there are. -/
theorem enclosing_run {base : ScopeStack α} {operations : List (Operation α)} :
    ∀ {stack : ScopeStack α} {inner : List (Table α)},
      stack.enclosing = inner ++ base.current :: base.enclosing →
      (∀ first ∈ operations.inits,
        first.countP Operation.isPop ≤ first.countP Operation.isPush + inner.length) →
      ∃ left, (stack.run operations).enclosing = left ++ base.current :: base.enclosing ∧
        left.length + operations.countP Operation.isPop =
          inner.length + operations.countP Operation.isPush := by
  induction operations with
  | nil => exact fun {stack inner} above _ => ⟨inner, above, rfl⟩
  | cons operation operations ih =>
      intro stack inner above stays
      have restStays : ∀ first ∈ operations.inits,
          (operation :: first).countP Operation.isPop ≤
            (operation :: first).countP Operation.isPush + inner.length := by
        intro first isFirst
        refine stays _ ?_
        rw [List.inits_cons]
        exact List.mem_cons_of_mem _ (List.mem_map_of_mem isFirst)
      have isRun :
          stack.run (operation :: operations) = (stack.step operation).run operations := rfl
      rw [isRun]
      cases operation with
      | push =>
          have aboveAfter : (stack.step .push).enclosing =
              (stack.current :: inner) ++ base.current :: base.enclosing :=
            congrArg (stack.current :: ·) above
          obtain ⟨left, isLeft, count⟩ := ih aboveAfter fun first isFirst => by
            have bound := restStays first isFirst
            rw [Operation.countP_isPop_push, Operation.countP_isPush_push] at bound
            rw [List.length_cons]
            omega
          refine ⟨left, isLeft, ?_⟩
          rw [List.length_cons] at count
          rw [Operation.countP_isPop_push, Operation.countP_isPush_push]
          omega
      | pop =>
          cases inner with
          | nil =>
              have bound := restStays [] ((List.mem_inits _ _).mpr List.nil_prefix)
              rw [Operation.countP_isPop_pop, Operation.countP_isPush_pop] at bound
              exact absurd bound (Nat.not_succ_le_zero 0)
          | cons table inner =>
              have aboveAfter : (stack.step .pop).enclosing =
                  inner ++ base.current :: base.enclosing := by
                rw [step, pop, above]
                rfl
              obtain ⟨left, isLeft, count⟩ := ih aboveAfter fun first isFirst => by
                have bound := restStays first isFirst
                rw [Operation.countP_isPop_pop, Operation.countP_isPush_pop,
                  List.length_cons] at bound
                omega
              refine ⟨left, isLeft, ?_⟩
              rw [Operation.countP_isPop_pop, Operation.countP_isPush_pop, List.length_cons]
              omega
      | bind given value =>
          exact ih above fun first isFirst => restStays first isFirst
      | tryBind given value =>
          exact ih ((enclosing_tryBind ..).trans above) fun first isFirst => restStays first isFirst

/-- Leaving a scope after balanced work in it gives back the scopes as they were. -/
theorem pop_run_push (stack : ScopeStack α) {operations : List (Operation α)}
    (balanced : Operation.Balanced operations) : (stack.push.run operations).pop = .ok stack := by
  have entered : stack.push.enclosing = [] ++ stack.current :: stack.enclosing := rfl
  obtain ⟨left, isLeft, count⟩ := enclosing_run entered balanced.2
  have isEmpty : left = [] := by
    rw [balanced.1] at count
    exact List.eq_nil_of_length_eq_zero (Nat.add_right_cancel count)
  rw [pop, isLeft, isEmpty, List.nil_append]

/-- Nested scopes after any history.  There is at least one scope.  Leaving a scope fails just
where there is one only, and then changes nothing.  A name has the value that it got last in
the innermost open scope that gives it one, the current scope has the values that it was given
itself, and a name that it has keeps its value when it is only to try a new one.  Entering a
scope, balanced work in it and leaving it again changes the value of no name. -/
theorem scopes_nest (history : List (Operation α)) :
    1 ≤ (new.run history).depth ∧ (new.run history).depth = depthOf history ∧
    ((new.run history).depth = 1 →
      (new.run history).pop = .error (.internal .scopeUnderflow {}) ∧
        (new.run history).step .pop = new.run history) ∧
    ((new.run history).depth ≠ 1 → ∃ outer, (new.run history).pop = .ok outer ∧
      (new.run history).step .pop = outer ∧ outer.depth + 1 = (new.run history).depth) ∧
    (∀ name value, (new.run history).lookup name = some value ↔
      ∃ place depth, IsInnermost history name place depth value) ∧
    (∀ name value, (new.run history).lookupCurrent name = some value ↔
      IsLast history name (depthOf history) (some value)) ∧
    (∀ name value, ((new.run history).lookupCurrent name).isSome = true → ∀ other,
      ((new.run history).tryBind name value).lookup other = (new.run history).lookup other ∧
        ((new.run history).tryBind name value).lookupCurrent other =
          (new.run history).lookupCurrent other) ∧
    ∀ operations : List (Operation α), Operation.Balanced operations →
      ∃ left, ((new.run history).push.run operations).pop = .ok left ∧ ∀ name,
        left.lookup name = (new.run history).lookup name ∧
          left.lookupCurrent name = (new.run history).lookupCurrent name := by
  refine ⟨depth_pos _, depth_run history, fun isOne => ?_, fun notOne => ?_,
    fun name value => lookup_iff, fun name value => lookupCurrent_iff,
    fun name value known other => ?_, fun operations balanced => ?_⟩
  · rcases pop_cases (new.run history) with ⟨-, fails⟩ | ⟨outer, -, isMore, -⟩
    · exact ⟨fails, by rw [step, fails]⟩
    · have isPositive := outer.depth_pos
      omega
  · rcases pop_cases (new.run history) with ⟨isOne, -⟩ | ⟨outer, popped, isMore, -⟩
    · exact absurd isOne notOne
    · exact ⟨outer, popped, by rw [step, popped], isMore.symm⟩
  · have keeps : (new.run history).tryBind name value = new.run history := if_pos known
    rw [keeps]
    exact ⟨rfl, rfl⟩
  · exact ⟨_, pop_run_push _ balanced, fun name => ⟨rfl, rfl⟩⟩

/-- A name gets a value in the outermost scope and another one in a scope within. -/
def shadowing : List (Operation Nat) :=
  [.bind "x" 1, .push, .bind "x" 2, .tryBind "x" 3, .push, .bind "y" 5, .pop]

theorem scopes_nest_shadowing :
    (new.run shadowing).lookup "x" = some 2 ∧
      (∃ place depth, IsInnermost shadowing "x" place depth 2) ∧
      ((new.run shadowing).tryBind "x" 7).lookup "x" = some 2 ∧
      ∃ left, ((new.run shadowing).push.run [.bind "x" 4, .push, .pop]).pop = .ok left ∧
        left.lookup "x" = some 2 := by
  obtain ⟨-, -, -, -, found, -, keeps, restores⟩ := scopes_nest shadowing
  have isTwo : (new.run shadowing).lookup "x" = some 2 := by decide +kernel
  obtain ⟨left, popped, same⟩ :=
    restores [.bind "x" 4, .push, .pop] (by decide)
  refine ⟨isTwo, (found _ _).mp isTwo, ?_, left, popped, (same "x").1.trans isTwo⟩
  exact (keeps "x" 7 (by decide +kernel) "x").1.trans isTwo

end StructuredText.ScopeStack
