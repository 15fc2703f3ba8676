import StructuredText.Proofs.Code.Leaf
import StructuredText.Proofs.Lowering.Call
import StructuredText.Proofs.Lowering.Protocol

/-!
# How helpers come about

A call through a helper takes its number before its arguments are lowered, and the helper is
added after the helpers that the arguments need.  So helpers are added in an order in which
each is made of what is there before it, and no two of a unit have one number, however calls
nest.  What holds of a part of a body is put together from its parts: the constants and names
in the code are allowed ones, and the helpers that it calls have been added.
-/

set_option autoImplicit false

namespace StructuredText

open Code (Helper)

/-! ## What lowering adds to the state -/

/-- A helper of the unit at a site, with a number above one count of calls and up to another. -/
structure Site.Numbers (site : Site) (low high : Nat) (helper : Helper) : Prop where
  isAccessor : site.style = .accessor
  unit : helper.unit = site.unit
  number : ∃ number, low < number ∧ number ≤ high ∧ helper.HasNumber number

/-- What lowering a part of a body does: it adds helpers at the end, with numbers of their own,
each made of what is known ahead of it; and the leaves of the code are known afterwards. -/
structure Site.Grows (site : Site) (allowed : String → Prop) (on : Prop)
    (before after : LoweringState) (leaves : List Code.Leaf) : Prop where
  isOn : on → after.isOn = true
  counted : before.calls ≤ after.calls
  added : ∃ added, after.helpers = before.helpers ++ added ∧ added.Pairwise Helper.Apart ∧
    (∀ helper ∈ added, site.Numbers before.calls after.calls helper) ∧
    Helper.AreSound allowed on before.helpers added
  known : ∀ leaf ∈ leaves, leaf.IsKnown allowed on after.helpers

/-- The same, if the output is on before the part. -/
def Site.Yields (site : Site) (allowed : String → Prop) (on : Prop)
    (before after : LoweringState) (leaves : List Code.Leaf) : Prop :=
  (on → before.isOn = true) → site.Grows allowed on before after leaves

def Code.Leaf.IsAllowed (allowed : String → Prop) (leaf : Code.Leaf) : Prop :=
  ∃ text, leaf = .atom text ∧ allowed text

section State

variable {site : Site} {allowed : String → Prop} {on : Prop}
  {before middle after : LoweringState} {leaves more : List Code.Leaf}

theorem Site.Numbers.bounds {low high number : Nat} {helper : Helper}
    (numbers : site.Numbers low high helper) (hasNumber : helper.HasNumber number) :
    low < number ∧ number ≤ high := by
  obtain ⟨other, above, upTo, hasOther⟩ := numbers.number
  rw [hasNumber.unique hasOther]
  exact ⟨above, upTo⟩

theorem Site.Numbers.mono {low high low' high' : Nat} {helper : Helper}
    (numbers : site.Numbers low high helper) (lower : low' ≤ low) (higher : high ≤ high') :
    site.Numbers low' high' helper := by
  obtain ⟨number, above, upTo, hasNumber⟩ := numbers.number
  exact ⟨numbers.isAccessor, numbers.unit, number, by omega, by omega, hasNumber⟩

namespace Site.Yields

theorem refl (state : LoweringState) (all : ∀ leaf ∈ leaves, leaf.IsAllowed allowed) :
    site.Yields allowed on state state leaves := by
  intro started
  refine ⟨started, Nat.le_refl _, ⟨[], by simp [Helper.AreSound]⟩, ?_⟩
  intro leaf member
  obtain ⟨text, rfl, isAllowed⟩ := all leaf member
  exact isAllowed

theorem atom {text : String} (isAllowed : allowed text) (state : LoweringState) :
    site.Yields allowed on state state (Code.Expr.atom text).leaves := by
  refine .refl _ fun leaf member => ⟨text, ?_, isAllowed⟩
  simpa [Code.Expr.leaves] using member

/-- The leaves of two parts that are lowered one after the other. -/
theorem append (first : site.Yields allowed on before middle leaves)
    (second : site.Yields allowed on middle after more) :
    site.Yields allowed on before after (leaves ++ more) := by
  intro started
  have early := first started
  have late := second early.isOn
  obtain ⟨added, helpers, apart, numbered, sound⟩ := early.added
  obtain ⟨added', helpers', apart', numbered', sound'⟩ := late.added
  refine ⟨late.isOn, Nat.le_trans early.counted late.counted, ⟨added ++ added', ?_, ?_, ?_, ?_⟩, ?_⟩
  · rw [helpers', helpers, List.append_assoc]
  · rw [List.pairwise_append]
    refine ⟨apart, apart', ?_⟩
    intro helper isEarly other isLate number number' hasNumber hasOther
    -- The count of calls between the parts lies between their numbers.
    have upTo := ((numbered helper isEarly).bounds hasNumber).2
    have above := ((numbered' other isLate).bounds hasOther).1
    omega
  · intro helper member
    rcases List.mem_append.mp member with isEarly | isLate
    · exact (numbered helper isEarly).mono (Nat.le_refl _) late.counted
    · exact (numbered' helper isLate).mono early.counted (Nat.le_refl _)
  · rw [Helper.areSound_append, ← helpers]
    exact ⟨sound, sound'⟩
  · intro leaf member
    rcases List.mem_append.mp member with isEarly | isLate
    · refine (early.known leaf isEarly).mono ?_
      rw [helpers']
      exact List.subset_append_left ..
    · exact late.known leaf isLate

theorem of_mem (yields : site.Yields allowed on before after leaves)
    (origin : ∀ leaf ∈ more, leaf ∈ leaves ∨ leaf.IsAllowed allowed) :
    site.Yields allowed on before after more := by
  intro started
  have grows := yields started
  refine ⟨grows.isOn, grows.counted, grows.added, ?_⟩
  intro leaf member
  rcases origin leaf member with isLeaf | ⟨text, rfl, isAllowed⟩
  · exact grows.known leaf isLeaf
  · exact isAllowed

theorem subset (yields : site.Yields allowed on before after leaves) (inside : more ⊆ leaves) :
    site.Yields allowed on before after more :=
  yields.of_mem fun _ member => .inl (inside member)

/-- A step that leaves the calls, the helpers and the output alone. -/
theorem of_eq (calls : after.calls = before.calls) (helpers : after.helpers = before.helpers)
    (isOn : on → before.isOn = true → after.isOn = true) :
    site.Yields allowed on before after [] := by
  intro started
  refine ⟨fun output => isOn output (started output), Nat.le_of_eq calls.symm, ⟨[], ?_⟩,
    List.forall_mem_nil _⟩
  simp [helpers, Helper.AreSound]

/-- A call through a helper: the number is taken first, then the arguments are lowered, and
then the helper is added, which is made of what the arguments need. -/
theorem help {number : Nat} {counted put : LoweringState} {helper : Helper}
    (numbered : Lower.nextCall before = .ok (number, counted))
    (arguments : site.Yields allowed on counted put leaves)
    (isAccessor : site.style = .accessor) (unit : helper.unit = site.unit)
    (hasNumber : helper.HasNumber number)
    (origin : ∀ leaf ∈ helper.leaves,
      leaf ∈ leaves ∨ ∃ name ∈ helper.names, leaf = .atom name)
    (helped : Lower.addHelper helper put = .ok ((), after)) :
    site.Yields allowed on before after (.helper helper.name :: leaves) := by
  intro started
  cases numbered
  have grows := arguments started
  have counted : before.calls + 1 ≤ put.calls := grows.counted
  obtain ⟨added, helpers, apart, numbered, sound⟩ := grows.added
  have isNumbered : site.Numbers before.calls put.calls helper :=
    ⟨isAccessor, unit, _, by omega, counted, hasNumber⟩
  have others : ∀ other ∈ added, site.Numbers before.calls put.calls other := fun other member =>
    (numbered other member).mono (Nat.le_succ _) (Nat.le_refl _)
  cases helped
  by_cases isOn : put.isOn = true
  · simp only [isOn, if_true]
    refine ⟨fun _ => rfl, by dsimp only; omega, ⟨added ++ [helper], ?_, ?_, ?_, ?_⟩, ?_⟩
    · simp [helpers]
    · rw [List.pairwise_append]
      refine ⟨apart, List.pairwise_singleton .., ?_⟩
      intro other member last isLast number' number'' hasOther hasLast
      rw [List.mem_singleton.mp isLast] at hasLast
      have above := ((numbered other member).bounds hasOther).1
      have same := hasLast.unique hasNumber
      dsimp only at above
      omega
    · intro other member
      rcases List.mem_append.mp member with isEarly | isLast
      · exact others other isEarly
      · rw [List.mem_singleton.mp isLast]
        exact isNumbered
    · rw [Helper.areSound_append]
      refine ⟨sound, ?_, trivial⟩
      intro leaf member
      refine (origin leaf member).imp_left fun isLeaf => ?_
      have isKnown := grows.known leaf isLeaf
      rwa [helpers] at isKnown
    · intro leaf member
      rcases List.mem_cons.mp member with rfl | isLeaf
      · intro _
        simp
      · exact (grows.known leaf isLeaf).mono (List.subset_append_left ..)
  · have isOff : ¬on := fun output => isOn (grows.isOn output)
    simp only [isOn, Bool.false_eq_true, if_false]
    refine ⟨fun output => absurd output isOff, by omega,
      ⟨added, helpers, apart, others, sound⟩, ?_⟩
    intro leaf member
    rcases List.mem_cons.mp member with rfl | isLeaf
    · exact fun output => absurd output isOff
    · exact grows.known leaf isLeaf

end Site.Yields

end State

/-! ## What is allowed -/

def Code.Leaf.fixed : List String :=
  ["NULL", "0", "1", "2", "data__", Code.Literal.boolean true]

structure Site.AllowsExprs (site : Site) (exprs : List Expr) (allowed : String → Prop) :
    Prop where
  fixed : ∀ text ∈ Code.Leaf.fixed, allowed text
  count : ∀ number : Nat, allowed (toString number)
  constant : ∀ {value : Constant} {text : String}, .const value ∈ exprs →
    Code.Literal.constant value = .ok text → allowed text
  enumerated : ∀ {value : EnumValue} {text : String}, .enumerated value ∈ exprs →
    site.enumerated value = .ok text → allowed text
  initial : ∀ {function : Ident} {arguments : List Argument} {resolution : CallResolution}
    {parameter : Parameter} {text : String}, .call function arguments ∈ exprs →
    CallResolution.of? site.context site.scope function arguments = some resolution →
    parameter ∈ resolution.signature.parameters →
    parameter.defaultValue = .ok text ∨ Code.Literal.initial parameter.type = .ok text →
    allowed text

section Operators

variable {left right code : Code.Expr}

theorem Code.Expr.leaves_checked (type : DataType) (value : Code.Expr) :
    (value.checked type).leaves = value.leaves := by
  unfold Code.Expr.checked
  split
  · simp [Code.Expr.leaves, Code.Expr.leavesList]
  · rfl

theorem CompareOp.leaves_lower {op : CompareOp} {leftType rightType : DataType}
    (lowered : op.lower leftType rightType left right = .ok code) :
    ∀ leaf ∈ code.leaves,
      leaf ∈ left.leaves ++ right.leaves ∨ ∃ text ∈ Code.Leaf.fixed, leaf = .atom text := by
  intro leaf member
  rw [List.mem_append]
  cases op with
  | or | and =>
      cases lowered
      simp only [Code.Expr.leaves, List.mem_append] at member
      exact .inl member
  | xor =>
      simp only [CompareOp.lower] at lowered
      split at lowered <;> cases lowered <;>
        simp only [Code.Expr.leaves, List.mem_append] at member <;> grind
  | eq | ne | lt | gt | le | ge =>
      simp only [CompareOp.lower, CompareOp.relation?] at lowered
      split at lowered <;> cases lowered <;>
        simp only [Code.Expr.leaves, Code.Expr.leavesList, List.mem_append, List.append_nil,
          List.mem_singleton] at member <;> grind [Code.Leaf.fixed]

theorem ArithOp.leaves_lower (op : ArithOp) (leftType rightType : DataType) :
    ∀ leaf ∈ (op.lower leftType rightType left right).leaves,
      leaf ∈ left.leaves ++ right.leaves ∨ ∃ text ∈ Code.Leaf.fixed, leaf = .atom text := by
  intro leaf member
  rw [List.mem_append]
  cases op with
  | add | sub | mul | div =>
      simp only [ArithOp.lower] at member
      split at member <;>
        simpa [Code.Expr.leaves, Code.Expr.leavesList] using Or.inl member
  | mod =>
      simp only [ArithOp.lower, Code.Expr.leaves, List.mem_append, List.mem_singleton] at member
      grind [Code.Leaf.fixed]
  | pow =>
      have direct : Code.Leaf.ofCall "EXPT__LREAL__LREAL__LREAL"
          [.cast "BOOL" (.atom (Code.Literal.boolean true)), .atom "NULL",
            .cast "LREAL" (.paren left), .cast "LREAL" (.paren right)] = [] := rfl
      simp only [ArithOp.lower, Code.Expr.leaves, direct, Code.Expr.leavesList, List.nil_append,
        List.append_nil, List.mem_append, List.mem_singleton] at member
      rcases member with rfl | rfl | isLeaf
      · exact .inr ⟨_, by simp [Code.Leaf.fixed], rfl⟩
      · exact .inr ⟨_, by simp [Code.Leaf.fixed], rfl⟩
      · exact .inl isLeaf

theorem UnaryOp.leaves_lower (op : UnaryOp) (type : DataType) (term : Code.Expr) :
    (op.lower type term).leaves = term.leaves := by
  cases op <;> simp [UnaryOp.lower, Code.Expr.leaves]

theorem Code.Step.leaves_next (step : Code.Step) (control : Code.Expr) :
    ∀ leaf ∈ (step.next control).leaves,
      leaf ∈ control.leaves ++ step.leaves ∨ ∃ text ∈ Code.Leaf.fixed, leaf = .atom text := by
  intro leaf member
  rw [List.mem_append]
  cases step with
  | one =>
      simp only [Code.Step.next, Code.Expr.leaves, List.mem_append, List.mem_singleton] at member
      grind [Code.Leaf.fixed]
  | upward step | either step =>
      simp only [Code.Step.next, Code.Expr.leaves, List.mem_append] at member
      exact .inl member

end Operators

/-! ## Calls -/

namespace CallParts

def names (parts : CallParts) : List String :=
  parts.formals.map Code.Formal.name ++ parts.temporaries.map fun (_, name, _) => name

def inner (parts : CallParts) : List Code.Leaf :=
  (parts.temporaries.flatMap fun (_, _, initial) => initial.leaves) ++
    Code.Expr.leavesList parts.passed ++ parts.stores.flatMap Code.Store.leaves

/-- The parts of a call take their leaves from given ones; the helper has names besides. -/
structure TakesFrom (parts : CallParts) (leaves : List Code.Leaf) : Prop where
  arguments : Code.Expr.leavesList parts.arguments ⊆ leaves
  inner : ∀ leaf ∈ parts.inner, leaf ∈ leaves ∨ ∃ name ∈ parts.names, leaf = .atom name

variable {parts : CallParts} {leaves more : List Code.Leaf} {argument : Code.Expr}

theorem takesFrom_empty : ({} : CallParts).TakesFrom [] :=
  ⟨by simp [Code.Expr.leavesList], by simp [inner, Code.Expr.leavesList]⟩

theorem TakesFrom.grow {next : CallParts} (takes : parts.TakesFrom leaves)
    (arguments : Code.Expr.leavesList next.arguments ⊆
      Code.Expr.leavesList parts.arguments ++ more)
    (names : parts.names ⊆ next.names)
    (inner : ∀ leaf ∈ next.inner,
      leaf ∈ parts.inner ∨ leaf ∈ more ∨ ∃ name ∈ next.names, leaf = .atom name) :
    next.TakesFrom (leaves ++ more) := by
  constructor
  · intro leaf member
    rcases List.mem_append.mp (arguments member) with isEarlier | isNew
    · exact List.mem_append_left _ (takes.arguments isEarlier)
    · exact List.mem_append_right _ isNew
  · intro leaf member
    rcases inner leaf member with isEarlier | isNew | isName
    · rcases takes.inner leaf isEarlier with isLeaf | ⟨name, isName, rfl⟩
      · exact .inl (List.mem_append_left _ isLeaf)
      · exact .inr ⟨name, names isName, rfl⟩
    · exact .inl (List.mem_append_right _ isNew)
    · exact .inr isName

theorem TakesFrom.addInput (takes : parts.TakesFrom leaves) (argument : Code.Expr)
    (type name : String) :
    (parts.addInput argument type name).TakesFrom (leaves ++ argument.leaves) := by
  refine takes.grow ?_ ?_ ?_
  · simp [CallParts.addInput, Code.Expr.leavesList_eq]
  · intro other member
    simp only [names, CallParts.addInput, List.map_append, List.mem_append] at member ⊢
    exact member.imp_left .inl
  · intro leaf member
    simp only [CallParts.inner, names, CallParts.addInput, Code.Expr.leavesList_eq,
      List.flatMap_append, List.flatMap_singleton, Code.Expr.leaves, List.mem_append,
      List.mem_singleton, List.map_append, List.map_singleton] at member ⊢
    rcases member with (isStart | isPassed | rfl) | isStored
    · exact .inl (.inl (.inl isStart))
    · exact .inl (.inl (.inr isPassed))
    · exact .inr (.inr ⟨name, .inl (.inr rfl), rfl⟩)
    · exact .inl (.inr isStored)

theorem TakesFrom.addArgument (takes : parts.TakesFrom leaves) (argument : Code.Expr) :
    (parts.addArgument argument).TakesFrom (leaves ++ argument.leaves) := by
  refine takes.grow ?_ (List.Subset.refl _) fun leaf member => .inl member
  simp [CallParts.addArgument, Code.Expr.leavesList_eq]

theorem TakesFrom.addPassed (takes : parts.TakesFrom leaves) (argument : Code.Expr) :
    (parts.addPassed argument).TakesFrom (leaves ++ argument.leaves) := by
  refine takes.grow (List.subset_append_left ..) (List.Subset.refl _) ?_
  intro leaf member
  simp only [CallParts.inner, CallParts.addPassed, Code.Expr.leavesList_eq, List.flatMap_append,
    List.flatMap_singleton, List.mem_append] at member ⊢
  rcases member with (isStart | isPassed | isNew) | isStored
  · exact .inl (.inl (.inl isStart))
  · exact .inl (.inl (.inr isPassed))
  · exact .inr (.inl isNew)
  · exact .inl (.inr isStored)

/-- The output is kept under the name, and what is stored may have that name. -/
theorem TakesFrom.addOutput {initial : Code.Expr} {store : Code.Store} {type name : String}
    (takes : parts.TakesFrom leaves)
    (stored : ∀ leaf ∈ store.leaves, leaf ∈ more ∨ leaf = .atom name) :
    (parts.addOutput type name initial store).TakesFrom (leaves ++ (initial.leaves ++ more)) := by
  refine takes.grow (List.subset_append_left ..) ?_ ?_
  · intro other member
    simp only [names, CallParts.addOutput, List.map_append, List.mem_append] at member ⊢
    exact member.imp_right .inl
  · intro leaf member
    have isOwn : ∃ other ∈ (parts.addOutput type name initial store).names,
        Code.Leaf.atom name = .atom other :=
      ⟨name, by simp [names, CallParts.addOutput], rfl⟩
    simp only [CallParts.inner, CallParts.addOutput, Code.Expr.leavesList_eq,
      List.flatMap_append, List.flatMap_singleton, Code.Expr.leaves, List.mem_append,
      List.mem_singleton] at member ⊢
    rcases member with ((isStart | isInitial) | isPassed | rfl) | isStored | isNew
    · exact .inl (.inl (.inl isStart))
    · exact .inr (.inl (.inl isInitial))
    · exact .inl (.inl (.inr isPassed))
    · exact .inr (.inr isOwn)
    · exact .inl (.inr isStored)
    · rcases stored leaf isNew with isLeaf | rfl
      · exact .inr (.inl (.inr isLeaf))
      · exact .inr (.inr isOwn)

end CallParts

structure Supply.Yields (site : Site) (allowed : String → Prop) (on : Prop) (supply : Supply) :
    Prop where
  value : ∀ {value : Lower Code.Expr} {state after : LoweringState} {code : Code.Expr},
    supply.value = some value → value state = .ok (code, after) →
    site.Yields allowed on state after code.leaves
  place : ∀ {destination : Destination} {state after : LoweringState} {place : Code.Place},
    supply.destination = some destination → destination.place state = .ok (place, after) →
    site.Yields allowed on state after place.leaves

section Call

variable {site : Site} {allowed : String → Prop} {on : Prop} {supplies : List Supply}
  {arguments : List Argument} {bound : BoundParameter} {before state after : LoweringState}

theorem BoundParameter.state_of_lowerDestination {destination : Option Destination}
    (run : bound.lowerDestination supplies state = .ok (destination, after)) : after = state := by
  unfold lowerDestination at run
  cases actual : bound.actual with
  | none =>
      rw [actual] at run
      cases run
      rfl
  | some given =>
      rw [actual] at run
      dsimp only at run
      cases found : (bound.supply? supplies).bind Supply.destination with
      | none =>
          rw [found] at run
          cases run
      | some target =>
          rw [found] at run
          cases run
          rfl

section Supplies

variable (yield : ∀ supply ∈ supplies, supply.Yields site allowed on)

include yield

theorem BoundParameter.yields_lowerInput {code : Code.Expr}
    (isAllowed : bound.actual = none → ∀ text, bound.parameter.defaultValue = .ok text →
      allowed text)
    (run : bound.lowerInput supplies state = .ok (code, after)) :
    site.Yields allowed on state after code.leaves := by
  unfold lowerInput at run
  cases actual : bound.actual with
  | none =>
      rw [actual] at run
      obtain ⟨text, middle, defaulted, run⟩ := Lower.bind_eq_ok run
      cases run
      obtain rfl := Lower.state_of_lift defaulted
      exact .atom (isAllowed actual text (Lower.lift_eq_ok defaulted)) _
  | some given =>
      rw [actual] at run
      dsimp only at run
      cases found : (bound.supply? supplies).bind Supply.value with
      | none =>
          rw [found] at run
          cases run
      | some value =>
          rw [found] at run
          obtain ⟨supply, isSupply, isValue⟩ := Option.bind_eq_some_iff.mp found
          exact (yield supply (mem_of_supply? isSupply)).value isValue run

theorem BoundParameter.yields_place {destination : Destination} {place : Code.Place}
    (found : (bound.supply? supplies).bind Supply.destination = some destination)
    (run : destination.place state = .ok (place, after)) :
    site.Yields allowed on state after place.leaves := by
  obtain ⟨supply, isSupply, isDestination⟩ := Option.bind_eq_some_iff.mp found
  exact (yield supply (mem_of_supply? isSupply)).place isDestination run

/-- An output through a helper: what it starts with and the place that it is stored to. -/
theorem CallParts.yields_addDestination {parts next : CallParts} {destination : Destination}
    {leaves : List Code.Leaf} (takes : parts.TakesFrom leaves)
    (isAllowed : ∀ text, Code.Literal.initial bound.parameter.type = .ok text → allowed text)
    (found : (bound.supply? supplies).bind Supply.destination = some destination)
    (run : parts.addDestination arguments bound destination state = .ok (next, after)) :
    ∃ more, site.Yields allowed on state after more ∧ next.TakesFrom (leaves ++ more) := by
  unfold CallParts.addDestination at run
  dsimp only at run
  have stored : ∀ (type : DataType) (place : Code.Place), ∀ leaf ∈ Code.Store.leaves
      ⟨place, (if Argument.isNegated arguments bound.parameter.name then
        .unary .logicalNot (.atom ("__tmp_" ++ bound.cName))
        else .atom ("__tmp_" ++ bound.cName) : Code.Expr).checked type⟩,
      leaf ∈ place.leaves ∨ leaf = .atom ("__tmp_" ++ bound.cName) := by
    intro type place leaf member
    rw [Code.Store.leaves, Code.Expr.leaves_checked, List.mem_append] at member
    refine member.imp_right fun isOutput => ?_
    split at isOutput <;> simpa [Code.Expr.leaves] using isOutput
  have yieldsPlace : ∀ {place : Code.Place} {early late : LoweringState},
      destination.place early = .ok (place, late) →
      site.Yields allowed on early late place.leaves :=
    fun placeRun => BoundParameter.yields_place yield found placeRun
  cases direction : bound.parameter.direction with
  | inOut =>
      rw [direction] at run
      obtain ⟨start, first, startRun, run⟩ := Lower.bind_eq_ok run
      obtain ⟨initial, second, initialRun, run⟩ := Lower.bind_eq_ok run
      obtain ⟨type, third, typeRun, run⟩ := Lower.bind_eq_ok run
      obtain ⟨place, fourth, placeRun, run⟩ := Lower.bind_eq_ok run
      cases run
      cases initialRun
      obtain rfl := Lower.state_of_lift typeRun
      exact ⟨_, (yieldsPlace startRun).append (yieldsPlace placeRun),
        takes.addOutput (stored type place)⟩
  | input | output | external =>
      rw [direction] at run
      obtain ⟨text, first, textRun, run⟩ := Lower.bind_eq_ok run
      obtain ⟨initial, second, initialRun, run⟩ := Lower.bind_eq_ok run
      obtain ⟨type, third, typeRun, run⟩ := Lower.bind_eq_ok run
      obtain ⟨place, fourth, placeRun, run⟩ := Lower.bind_eq_ok run
      cases run
      cases initialRun
      obtain rfl := Lower.state_of_lift typeRun
      obtain rfl := Lower.state_of_lift textRun
      have started := isAllowed text (Lower.lift_eq_ok textRun)
      exact ⟨_, (Site.Yields.atom started _).append (yieldsPlace placeRun),
        takes.addOutput (stored type place)⟩

theorem CallParts.yields_add {parts next : CallParts} {isIndirect : Bool} {leaves : List Code.Leaf}
    (takes : parts.TakesFrom leaves) (isFixed : ∀ text ∈ Code.Leaf.fixed, allowed text)
    (isAllowed : ∀ text, bound.parameter.defaultValue = .ok text ∨
      Code.Literal.initial bound.parameter.type = .ok text → allowed text)
    (run : parts.add isIndirect arguments supplies bound state = .ok (next, after)) :
    ∃ more, site.Yields allowed on state after more ∧ next.TakesFrom (leaves ++ more) := by
  have nothing : site.Yields allowed on state state (Code.Expr.atom "NULL").leaves :=
    .atom (isFixed _ (List.mem_cons_self ..)) state
  unfold CallParts.add at run
  dsimp only at run
  cases direction : bound.parameter.direction with
  | input =>
      rw [direction] at run
      obtain ⟨value, middle, valueRun, run⟩ := Lower.bind_eq_ok run
      cases run
      have yields := BoundParameter.yields_lowerInput yield
        (fun _ text defaulted => isAllowed text (.inl defaulted)) valueRun
      have taken := takes.addInput
        (.cast bound.parameter.type.cName (value.checked bound.parameter.type))
        bound.parameter.type.cName bound.cName
      rw [Code.Expr.leaves, Code.Expr.leaves_checked] at taken
      exact ⟨_, yields, taken⟩
  | output | inOut =>
      rw [direction] at run
      obtain ⟨destination, middle, destinationRun, run⟩ := Lower.bind_eq_ok run
      obtain rfl := BoundParameter.state_of_lowerDestination destinationRun
      rcases BoundParameter.lowerDestination_eq_ok destinationRun with
        ⟨rfl, -⟩ | ⟨actual, target, -, rfl, found⟩
      · cases isIndirect with
        | false =>
            cases run
            exact ⟨_, nothing, takes.addArgument _⟩
        | true =>
            cases run
            exact ⟨_, nothing, takes.addPassed _⟩
      · cases isIndirect with
        | false =>
            obtain ⟨place, last, placeRun, run⟩ := Lower.bind_eq_ok run
            cases run
            exact ⟨_, BoundParameter.yields_place yield found placeRun,
              takes.addArgument (.pointer place)⟩
        | true =>
            exact CallParts.yields_addDestination yield takes
              (fun text initial => isAllowed text (.inr initial)) found run
  | external =>
      rw [direction] at run
      cases run

theorem CallParts.yields_addAll {isIndirect : Bool} {count : Nat}
    {parameters : List BoundParameter} (isFixed : ∀ text ∈ Code.Leaf.fixed, allowed text)
    (isCount : allowed (toString count))
    (isAllowed : ∀ bound ∈ parameters, ∀ text, bound.parameter.defaultValue = .ok text ∨
      Code.Literal.initial bound.parameter.type = .ok text → allowed text) :
    ∀ {isCounted : Bool} {parts next : CallParts} {leaves : List Code.Leaf}
      {state after : LoweringState}, parts.TakesFrom leaves →
      CallParts.addAll isIndirect count arguments supplies isCounted parts parameters state =
        .ok (next, after) →
      ∃ more, site.Yields allowed on state after more ∧ next.TakesFrom (leaves ++ more) := by
  induction parameters with
  | nil =>
      intro isCounted parts next leaves state after takes run
      cases run
      refine ⟨[], .refl _ (List.forall_mem_nil _), ?_⟩
      rwa [List.append_nil]
  | cons bound rest ih =>
      intro isCounted parts next leaves state after takes run
      rw [CallParts.addAll] at run
      obtain ⟨between, middle, added, run⟩ := Lower.bind_eq_ok run
      obtain ⟨start, yieldsStart, takesStart⟩ : ∃ start,
          site.Yields allowed on state state start ∧
          (if bound.parameter.isExtensible && !isCounted then
            parts.addInput (.cast "UINT" (.atom (toString count))) "UINT" "__count"
            else parts).TakesFrom (leaves ++ start) := by
        split
        · exact ⟨_, .atom isCount state, takes.addInput _ _ _⟩
        · refine ⟨[], .refl _ (List.forall_mem_nil _), ?_⟩
          rwa [List.append_nil]
      obtain ⟨first, yieldsFirst, takesFirst⟩ := CallParts.yields_add yield takesStart isFixed
        (isAllowed bound (List.mem_cons_self ..)) added
      obtain ⟨others, yieldsOthers, takesOthers⟩ :=
        ih (fun other member => isAllowed other (List.mem_cons_of_mem _ member)) takesFirst run
      refine ⟨start ++ first ++ others, (yieldsStart.append yieldsFirst).append yieldsOthers, ?_⟩
      rwa [← List.append_assoc, ← List.append_assoc]

end Supplies

theorem CallSlot.FilledBy.noHandle {slot : CallSlot} {argument : Code.Expr}
    (filled : slot.FilledBy argument) : argument.isHandle = false := by
  cases slot with
  | count number =>
      rw [CallSlot.FilledBy] at filled
      rw [filled]
      rfl
  | given bound =>
      cases isPointer : (CallSlot.given bound).formal.byPointer with
      | false =>
          obtain ⟨value, rfl⟩ := filled.value isPointer
          rfl
      | true =>
          have points := filled.pointer.trans isPointer
          cases argument with
          | pointer place => rfl
          | atom text =>
              rw [beq_iff_eq.mp points]
              decide
          | _ => cases points

theorem CallSlot.noHandle {slots : List CallSlot} {filling : List Code.Expr}
    (filled : List.Forall₂ CallSlot.FilledBy slots filling) :
    ∀ argument ∈ filling, argument.isHandle = false := by
  induction filled with
  | nil => exact List.forall_mem_nil _
  | cons first _ ih => exact List.forall_mem_cons.mpr ⟨first.noHandle, ih⟩

/-- A call has known leaves if its arguments do: the arguments themselves or, through a
helper, the helper and those arguments that it does not take over. -/
theorem CallResolution.yields_lower {depth : Nat} {resolution : CallResolution}
    {function : Ident} {code : Code.Expr}
    (yield : ∀ supply ∈ supplies, supply.Yields site allowed on)
    (isFixed : ∀ text ∈ Code.Leaf.fixed, allowed text)
    (isCount : ∀ number : Nat, allowed (toString number))
    (isAllowed : ∀ parameter ∈ resolution.signature.parameters, ∀ text,
      parameter.defaultValue = .ok text ∨ Code.Literal.initial parameter.type = .ok text →
      allowed text)
    (run : resolution.lower site depth function arguments supplies before = .ok (code, after)) :
    site.Yields allowed on before after code.leaves := by
  obtain ⟨-, binding, made, lowered⟩ := lowered_of_lower run
  have boundAllowed : ∀ bound ∈ binding.parameters, ∀ text,
      bound.parameter.defaultValue = .ok text ∨
        Code.Literal.initial bound.parameter.type = .ok text → allowed text :=
    fun bound member => isAllowed bound.parameter (Binding.parameter_mem_of_make made bound member)
  cases lowered with
  | direct isPlain added =>
      obtain ⟨leaves, yields, takes⟩ := CallParts.yields_addAll yield isFixed (isCount _)
        boundAllowed CallParts.takesFrom_empty added
      have noHandle := CallSlot.noHandle
        (CallParts.addAll_direct rfl CallParts.add_direct .nil added)
      rw [Code.Expr.leaves, Code.Leaf.ofCall_of_noHandle noHandle]
      exact yields.subset takes.arguments
  | @throughHelper number parts _ _ _ isAccessor numbered added helped =>
      have hasNumber : (parts.helper site depth number resolution).HasNumber number := rfl
      obtain ⟨leaves, yields, takes⟩ := CallParts.yields_addAll yield isFixed (isCount _)
        boundAllowed CallParts.takesFrom_empty added
      have whole := Site.Yields.help numbered yields isAccessor rfl hasNumber takes.inner helped
      refine whole.of_mem fun leaf member => ?_
      rw [Code.Expr.leaves, Code.Leaf.ofCall_of_handle, Code.Expr.leavesList_eq,
        List.flatMap_append, ← Code.Expr.leavesList_eq, List.mem_append, List.mem_append] at member
      rcases member with isHelper | isArgument | isHandle
      · rw [List.mem_singleton.mp isHelper]
        exact .inl (List.mem_cons_self ..)
      · exact .inl (List.mem_cons_of_mem _ (takes.arguments isArgument))
      · refine .inr ⟨"data__", by simpa [Code.Expr.leaves] using isHandle, isFixed _ ?_⟩
        simp [Code.Leaf.fixed]

end Call

end StructuredText
