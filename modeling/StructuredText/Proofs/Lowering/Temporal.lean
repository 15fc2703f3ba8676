import StructuredText.Proofs.Lowering.Operators
import StructuredText.Proofs.Lowering.StoreType

/-!
# Operations on times, dates and strings

Generated code keeps times, dates and strings in structures, which functions of the runtime
work on in place of operators.  Analysis says which operands go together, and lowering picks
a function by the type of the left operand, or of either operand of a product.  The two
agree on sums, differences, products, quotients and comparisons; only the negation of a
time, which analysis accepts, is left to the operator.
-/

set_option autoImplicit false

namespace StructuredText

/-! ## Types that need the runtime -/

def Elementary.needsRuntime (type : Elementary) : Bool :=
  type == .time || type.isDate || type.isString

namespace DataType

def needsRuntime (type : DataType) : Bool := type.elementary?.any Elementary.needsRuntime

theorem needsRuntime_iff {type : DataType} :
    type.needsRuntime = true ↔
      ∃ base, type.elementary? = some base ∧ base.needsRuntime = true := by
  simp [needsRuntime, Option.any_eq_true]

theorem needsRuntime_eq (type : DataType) :
    type.needsRuntime = (type.isTime || type.isDate || type.isString) := by
  rw [needsRuntime, isTime, isDate, isString]
  cases type.elementary? with
  | none => rfl
  | some base => cases base <;> rfl

section Base

variable {type : DataType} {base : Elementary} (isBase : type.elementary? = some base)

include isBase

theorem not_isLiteral_of_elementary? : type.resolved.isLiteral = false := by
  unfold elementary? at isBase
  cases resolved : type.resolved with
  | intLiteral | realLiteral =>
      rw [resolved] at isBase
      cases isBase
  | _ => rfl

theorem resolved_of_elementary? :
    type.resolved = .elementary base ∨
      ∃ name lower upper, type.resolved = .subrange name base lower upper := by
  unfold elementary? at isBase
  cases resolved : type.resolved with
  | elementary other =>
      rw [resolved] at isBase
      exact .inl (Option.some.inj isBase ▸ rfl)
  | subrange name other lower upper =>
      rw [resolved] at isBase
      exact .inr ⟨name, lower, upper, Option.some.inj isBase ▸ rfl⟩
  | _ => rw [resolved] at isBase; cases isBase

theorem isInteger_of_elementary? : type.isInteger = base.isInteger := by
  have notLiteral := not_isLiteral_of_elementary? isBase
  rw [isInteger, isBase]
  cases resolved : type.resolved with
  | intLiteral => rw [resolved] at notLiteral; cases notLiteral
  | _ => rfl

theorem isReal_of_elementary? : type.isReal = base.isReal := by
  have notLiteral := not_isLiteral_of_elementary? isBase
  rw [isReal, isBase]
  cases resolved : type.resolved with
  | realLiteral => rw [resolved] at notLiteral; cases notLiteral
  | _ => rfl

variable (needs : base.needsRuntime = true)

include needs

theorem not_isNumeric_of_needsRuntime : type.isNumeric = false := by
  rw [isNumeric, isInteger_of_elementary? isBase, isReal_of_elementary? isBase]
  cases base <;> first | rfl | cases needs

theorem not_isLogical_of_needsRuntime : type.isLogical = false := by
  have notLiteral : type.isIntLiteral = false := by
    cases type with
    | intLiteral => cases isBase
    | _ => rfl
  rw [isLogical, isBool, isBitString, isBase, notLiteral]
  cases base <;> first | rfl | cases needs

theorem not_accepts_literal_of_needsRuntime {literal : DataType}
    (isLiteral : literal.isLiteral = true) : type.resolved.accepts literal = false := by
  rw [← elementary?_resolved] at isBase
  have notNumeric := not_isNumeric_of_needsRuntime isBase needs
  have notLogical := not_isLogical_of_needsRuntime isBase needs
  rw [isNumeric, Bool.or_eq_false_iff] at notNumeric
  rw [isLogical, Bool.or_eq_false_iff, Bool.or_eq_false_iff] at notLogical
  cases literal with
  | intLiteral => simp [accepts, resolved, resolved_resolved, notNumeric, notLogical.1.2]
  | realLiteral => simp [accepts, resolved, resolved_resolved, notNumeric.2]
  | _ => cases isLiteral

end Base

theorem elementary?_widened (type : DataType) :
    type.resolved.widened.elementary? = type.elementary? := by
  rw [← elementary?_resolved type]
  cases type.resolved <;> rfl

/-- Operands that name their types go together if these have one representation, or none. -/
theorem elementary?_of_common? {left right common : DataType}
    (found : common? left right = some common) (leftTyped : left.resolved.isLiteral = false)
    (rightTyped : right.resolved.isLiteral = false) :
    left.elementary? = right.elementary? ∧
      (left.elementary?.isSome = true → common.elementary? = left.elementary?) := by
  rw [common?_eq] at found
  simp only [leftTyped, rightTyped, elementary?_resolved, Bool.and_false] at found
  cases leftBase : left.elementary? with
  | none =>
      rw [leftBase] at found
      cases rightBase : right.elementary? with
      | none => exact ⟨rfl, nofun⟩
      | some base => rw [rightBase] at found; cases found
  | some base =>
      rw [leftBase] at found
      cases rightBase : right.elementary? with
      | none => rw [rightBase] at found; cases found
      | some base' =>
          rw [rightBase] at found
          obtain ⟨same, widened⟩ := Option.ite_none_right_eq_some.mp found
          rw [beq_iff_eq.mp same, ← Option.some.inj widened, elementary?_widened, leftBase,
            beq_iff_eq.mp same]
          exact ⟨rfl, fun _ => rfl⟩

/-- An operand that needs the runtime goes with operands of the same representation only. -/
theorem common?_base {left right common : DataType} (found : common? left right = some common)
    (either : left.needsRuntime = true ∨ right.needsRuntime = true) :
    ∃ base, base.needsRuntime = true ∧ left.elementary? = some base ∧
      right.elementary? = some base ∧ common.elementary? = some base := by
  rcases either with needs | needs <;> obtain ⟨base, isBase, needs⟩ := needsRuntime_iff.mp needs
  · have leftTyped := not_isLiteral_of_elementary? isBase
    cases rightTyped : right.resolved.isLiteral with
    | true =>
        simp [common?_eq, leftTyped, rightTyped,
          not_accepts_literal_of_needsRuntime isBase needs rightTyped] at found
    | false =>
        obtain ⟨same, result⟩ := elementary?_of_common? found leftTyped rightTyped
        exact ⟨base, needs, isBase, same ▸ isBase, (result (isBase ▸ rfl)).trans isBase⟩
  · have rightTyped := not_isLiteral_of_elementary? isBase
    cases leftTyped : left.resolved.isLiteral with
    | true =>
        simp [common?_eq, leftTyped, rightTyped,
          not_accepts_literal_of_needsRuntime isBase needs leftTyped] at found
    | false =>
        obtain ⟨same, result⟩ := elementary?_of_common? found leftTyped rightTyped
        have isLeft := same.trans isBase
        exact ⟨base, needs, isLeft, isBase, (result (isLeft ▸ rfl)).trans isLeft⟩

theorem numericType?_of_needsRuntime {left right : DataType}
    (either : left.needsRuntime = true ∨ right.needsRuntime = true) :
    numericType? left right = none := by
  cases found : common? left right with
  | none => rw [numericType?, found, Option.filter_none]
  | some common =>
      obtain ⟨base, needs, -, -, isBase⟩ := common?_base found either
      rw [numericType?, found, Option.filter_some, not_isNumeric_of_needsRuntime isBase needs]
      rfl

end DataType

/-! ## Operators -/

def ArithOp.runtimeFunction? : ArithOp → Option String
  | .add => some "__time_add"
  | .sub => some "__time_sub"
  | .mul => some "__time_mul"
  | .div => some "__time_div"
  | .mod | .pow => none

/-- Operands that go together and need the runtime are given to a function of it. -/
theorem ArithOp.lower_of_needsRuntime {op : ArithOp} {left right type : DataType}
    (typed : op.type? left right = some type)
    (either : left.needsRuntime = true ∨ right.needsRuntime = true) :
    ∃ function, op.runtimeFunction? = some function ∧ ∀ leftCode rightCode,
      op.lower left right leftCode rightCode = .call function [leftCode, rightCode] := by
  have noNumber := DataType.numericType?_of_needsRuntime either
  have notNumeric : left.isNumeric = false ∨ right.isNumeric = false := by
    refine either.imp ?_ ?_ <;> intro needs
    all_goals
      obtain ⟨base, isBase, needs⟩ := DataType.needsRuntime_iff.mp needs
      exact DataType.not_isNumeric_of_needsRuntime isBase needs
  cases op with
  | add =>
      have temporal : (left.isTime || left.isDate) = true := by
        rw [type?, noNumber] at typed
        split at typed
        next isLeft _ => simp [DataType.isTime, isLeft]
        next isLeft _ => simp [DataType.isDate, isLeft, Elementary.isDate]
        next isLeft _ => simp [DataType.isDate, isLeft, Elementary.isDate]
        next => cases typed
      exact ⟨_, rfl, fun _ _ => by simp [lower, temporal]⟩
  | sub =>
      have temporal : (left.isTime || left.isDate) = true := by
        rw [type?, noNumber] at typed
        split at typed
        next isLeft _ => simp [DataType.isTime, isLeft]
        next isLeft _ => simp [DataType.isDate, isLeft, Elementary.isDate]
        next isLeft _ => simp [DataType.isDate, isLeft, Elementary.isDate]
        next isLeft _ => simp [DataType.isDate, isLeft, Elementary.isDate]
        next isLeft _ => simp [DataType.isDate, isLeft, Elementary.isDate]
        next isLeft _ => simp [DataType.isDate, isLeft, Elementary.isDate]
        next => cases typed
      exact ⟨_, rfl, fun _ _ => by simp [lower, temporal]⟩
  | mul =>
      have temporal : (left.isTime || right.isTime) = true := by
        rw [type?, noNumber] at typed
        have operands := (Option.ite_none_right_eq_some.mp typed).1
        simp only [Bool.or_eq_true, Bool.and_eq_true] at operands ⊢
        exact operands.imp And.left And.right
      exact ⟨_, rfl, fun _ _ => by simp [lower, temporal]⟩
  | div =>
      have temporal : left.isTime = true := by
        rw [type?, noNumber] at typed
        exact (Bool.and_eq_true_iff.mp (Option.ite_none_right_eq_some.mp typed).1).1
      exact ⟨_, rfl, fun _ _ => by simp [lower, temporal]⟩
  | mod =>
      -- a remainder is of whole numbers
      obtain ⟨common, isInteger⟩ := Option.filter_eq_some_iff.mp typed
      obtain ⟨base, needs, -, -, isBase⟩ := DataType.common?_base common either
      have none := DataType.not_isNumeric_of_needsRuntime isBase needs
      rw [DataType.isNumeric, isInteger] at none
      cases none
  | pow =>
      rw [type?] at typed
      have operands := (Option.ite_none_right_eq_some.mp typed).1
      rcases notNumeric with notNumeric | notNumeric <;> simp [notNumeric] at operands

def CompareOp.runtimeFunction? (op : CompareOp) (type : String) : Option String :=
  op.relation?.map fun (function, _) => function ++ "_" ++ type

/-- Operands that go together and need the runtime are compared by the function of the type of
the left one. -/
theorem CompareOp.lower_of_needsRuntime {op : CompareOp} {left right : DataType}
    (compatible : (op.type? left right).2 = true)
    (either : left.needsRuntime = true ∨ right.needsRuntime = true) :
    left.needsRuntime = true ∧
      ∃ function, op.runtimeFunction? left.resolved.cName = some function ∧
        ∀ leftCode rightCode, op.lower left right leftCode rightCode =
          .ok (.call function [.atom (Code.Literal.boolean true), .atom "NULL", .atom "2",
            leftCode, rightCode]) := by
  obtain ⟨relational, common, found⟩ :
      op.isLogical = false ∧ ∃ common, DataType.common? left right = some common := by
    unfold type? at compatible
    cases logical : op.isLogical with
    | false =>
        rw [logical] at compatible
        exact ⟨rfl, Option.isSome_iff_exists.mp compatible⟩
    | true =>
        -- logic is of truth values and bits
        cases isLogical : (DataType.common? left right).filter DataType.isLogical with
        | none => simp [logical, isLogical] at compatible
        | some common =>
            obtain ⟨found, isLogical⟩ := Option.filter_eq_some_iff.mp isLogical
            obtain ⟨base, needs, -, -, isBase⟩ := DataType.common?_base found either
            rw [DataType.not_isLogical_of_needsRuntime isBase needs] at isLogical
            cases isLogical
  obtain ⟨base, needs, isLeft, -⟩ := DataType.common?_base found either
  have leftNeeds : left.needsRuntime = true := DataType.needsRuntime_iff.mpr ⟨base, isLeft, needs⟩
  refine ⟨leftNeeds, ?_⟩
  rw [DataType.needsRuntime_eq] at leftNeeds
  cases op with
  | or | xor | and => cases relational
  | _ => exact ⟨_, rfl, fun _ _ => if_pos leftNeeds⟩

/-- The one operator that takes an operand which needs the runtime is the sign of a time. -/
theorem UnaryOp.accepts_needsRuntime {op : UnaryOp} {type : DataType}
    (accepted : op.accepts type = true) (needs : type.needsRuntime = true) :
    op = .neg ∧ type.isTime = true := by
  obtain ⟨base, isBase, needs⟩ := DataType.needsRuntime_iff.mp needs
  cases op with
  | neg =>
      rw [accepts, DataType.not_isNumeric_of_needsRuntime isBase needs] at accepted
      exact ⟨rfl, accepted⟩
  | not =>
      rw [accepts, DataType.not_isLogical_of_needsRuntime isBase needs] at accepted
      cases accepted

/-! ## Accepted operands -/

section Accepted

variable {context : Context} {scope : Scope} {leftType rightType : DataType} {left right : Expr}

theorem Expr.type?_of_accepted_arith {op : ArithOp}
    (accepted : Expr.Accepted context scope (.arith op left right))
    (leftTyped : left.type? context scope = some leftType)
    (rightTyped : right.type? context scope = some rightType) :
    ∃ type, op.type? leftType rightType = some type := by
  rw [Expr.type?] at leftTyped rightTyped
  rw [Expr.Accepted, Expr.judge, leftTyped, rightTyped] at accepted
  cases typed : op.type? leftType rightType with
  | some type => exact ⟨type, rfl⟩
  | none => simp [typed] at accepted

theorem Expr.compatible_of_accepted_compare {op : CompareOp}
    (accepted : Expr.Accepted context scope (.compare op left right))
    (leftTyped : left.type? context scope = some leftType)
    (rightTyped : right.type? context scope = some rightType) :
    (op.type? leftType rightType).2 = true := by
  rw [Expr.type?] at leftTyped rightTyped
  rw [Expr.Accepted, Expr.judge, leftTyped, rightTyped] at accepted
  cases compatible : (op.type? leftType rightType).2 with
  | true => rfl
  | false => simp [compatible] at accepted

theorem Expr.accepts_of_accepted_unary {op : UnaryOp} {term : Expr} {type : DataType}
    (accepted : Expr.Accepted context scope (.unary op term))
    (typed : term.type? context scope = some type) : op.accepts type = true := by
  rw [Expr.type?] at typed
  rw [Expr.Accepted, Expr.judge, typed] at accepted
  by_contra refused
  simp [refused] at accepted

end Accepted

/-! ## Code of an operation -/

def Expr.operands : Expr → List Expr
  | .compare _ left right | .arith _ left right => [left, right]
  | .unary _ term => [term]
  | .group _ | .const _ | .enumerated _ | .var _ | .call .. => []

def Expr.NeedsRuntime (site : Site) (node : Expr) : Prop :=
  ∃ operand ∈ node.operands, ∃ type, operand.type? site.context site.scope = some type ∧
    type.needsRuntime = true

/-- The operation is done by a function of the runtime, a comparison by the one for the type
that represents the left operand. -/
inductive Expr.Routed (site : Site) : Expr → Code.Expr → Prop where
  | arith {op : ArithOp} {left right : Expr} {function : String} {leftCode rightCode : Code.Expr}
      (isFunction : op.runtimeFunction? = some function)
      (leftLowered : left.LowersTo site leftCode) (rightLowered : right.LowersTo site rightCode) :
      Routed site (.arith op left right) (.call function [leftCode, rightCode])
  | compare {op : CompareOp} {left right : Expr} {type : DataType} {base : Elementary}
      {function : String} {leftCode rightCode : Code.Expr}
      (typed : left.type? site.context site.scope = some type)
      (isBase : type.elementary? = some base)
      (isFunction : op.runtimeFunction? base.cName = some function)
      (leftLowered : left.LowersTo site leftCode) (rightLowered : right.LowersTo site rightCode) :
      Routed site (.compare op left right)
        (.call function [.atom (Code.Literal.boolean true), .atom "NULL", .atom "2",
          leftCode, rightCode])

/-- The operation is left to an operator, or to a function that the runtime does not have. -/
inductive Expr.Unrouted (site : Site) : Expr → Code.Expr → Prop where
  | negated {term : Expr} {type : DataType} {code : Code.Expr}
      (typed : term.type? site.context site.scope = some type) (isTime : type.isTime = true)
      (lowered : term.LowersTo site code) :
      Unrouted site (.unary .neg term) (.unary .minus (.paren code))
  /-- The function is named for the subrange itself. -/
  | subrange {op : CompareOp} {left right : Expr} {type : DataType} {name : Ident}
      {base : Elementary} {lower upper : Int} {function : String} {leftCode rightCode : Code.Expr}
      (typed : left.type? site.context site.scope = some type)
      (isSubrange : type.resolved = .subrange name base lower upper)
      (isFunction : op.runtimeFunction? name.upper = some function)
      (leftLowered : left.LowersTo site leftCode) (rightLowered : right.LowersTo site rightCode) :
      Unrouted site (.compare op left right)
        (.call function [.atom (Code.Literal.boolean true), .atom "NULL", .atom "2",
          leftCode, rightCode])

theorem Expr.NeedsRuntime.either {site : Site} {node left right : Expr}
    {leftType rightType : DataType} (needs : node.NeedsRuntime site)
    (operands : node.operands = [left, right])
    (leftTyped : left.type? site.context site.scope = some leftType)
    (rightTyped : right.type? site.context site.scope = some rightType) :
    leftType.needsRuntime = true ∨ rightType.needsRuntime = true := by
  obtain ⟨operand, isOperand, type, typed, needs⟩ := needs
  rw [operands] at isOperand
  rcases List.mem_pair.mp isOperand with rfl | rfl
  · rw [Option.some.inj (leftTyped.symm.trans typed)]
    exact .inl needs
  · rw [Option.some.inj (rightTyped.symm.trans typed)]
    exact .inr needs

/-- An accepted operation on an operand that needs the runtime is done by a function of it, but
for the negation of a time and the comparison of a value of a subrange. -/
theorem Expr.routed_or_unrouted {context : Context} {site : Site}
    (inContext : site.context = context) {node : Expr} {code : Code.Expr}
    (accepted : node.Accepted context site.scope) (needs : node.NeedsRuntime site)
    (lowers : node.LowersTo site code) : node.Routed site code ∨ node.Unrouted site code := by
  subst inContext
  obtain ⟨depth, before, after, run⟩ := lowers
  cases node with
  | arith op left right =>
      obtain ⟨leftType, rightType, leftCode, middle, rightCode, leftTyped, rightTyped, leftRun,
        rightRun, rfl⟩ := Expr.lowered_arith run
      obtain ⟨type, together⟩ := Expr.type?_of_accepted_arith accepted leftTyped rightTyped
      obtain ⟨function, isFunction, written⟩ :=
        ArithOp.lower_of_needsRuntime together (needs.either rfl leftTyped rightTyped)
      rw [written]
      exact .inl (.arith isFunction ⟨_, _, _, leftRun⟩ ⟨_, _, _, rightRun⟩)
  | compare op left right =>
      obtain ⟨leftType, rightType, leftCode, middle, rightCode, leftTyped, rightTyped, leftRun,
        rightRun, compared⟩ := Expr.lowered_compare run
      have together := Expr.compatible_of_accepted_compare accepted leftTyped rightTyped
      obtain ⟨leftNeeds, function, isFunction, written⟩ :=
        CompareOp.lower_of_needsRuntime together (needs.either rfl leftTyped rightTyped)
      rw [written] at compared
      cases compared
      obtain ⟨base, isBase, baseNeeds⟩ := DataType.needsRuntime_iff.mp leftNeeds
      rcases DataType.resolved_of_elementary? isBase with resolved | ⟨name, lower, upper, resolved⟩
      · rw [resolved] at isFunction
        exact .inl (.compare leftTyped isBase isFunction ⟨_, _, _, leftRun⟩ ⟨_, _, _, rightRun⟩)
      · rw [resolved] at isFunction
        exact .inr (.subrange leftTyped resolved isFunction ⟨_, _, _, leftRun⟩
          ⟨_, _, _, rightRun⟩)
  | unary op term =>
      obtain ⟨type, code, typed, termRun, rfl⟩ := Expr.lowered_unary run
      obtain ⟨operand, isOperand, operandType, operandTyped, needs⟩ := needs
      obtain rfl := List.mem_singleton.mp isOperand
      obtain rfl := Option.some.inj (typed.symm.trans operandTyped)
      obtain ⟨rfl, isTime⟩ :=
        UnaryOp.accepts_needsRuntime (Expr.accepts_of_accepted_unary accepted typed) needs
      exact .inr (.negated typed isTime ⟨_, _, _, termRun⟩)
  | group | const | enumerated | var | call =>
      obtain ⟨operand, isOperand, -⟩ := needs
      cases isOperand

/-! ## Libraries -/

/-- Times, dates and strings in the bodies of an accepted library meet functions of the runtime
in place of operators, but for the sign of a time; and where the left operand of a comparison
is of a subrange, the function is named for the subrange. -/
theorem Library.runtime_operands_routed {context : Context} {library : Library}
    {withConversions : Bool} {notes : List Note} (userCode : library.IsUserCode)
    (resolved : Context.resolve library withConversions = .ok context)
    (checked : library.check context = .ok notes) (unit : LoweredUnit context library)
    {node : Expr} {code : Code.Expr} (occurs : node ∈ Stmt.partsList unit.element.body)
    (needs : node.NeedsRuntime unit.site) (lowers : node.LowersTo unit.site code) :
    node.Routed unit.site code ∨ node.Unrouted unit.site code := by
  obtain ⟨-, accepted⟩ := unit.accepted userCode resolved checked
  exact Expr.routed_or_unrouted unit.inContext (Stmt.accepted_partsList accepted node occurs)
    needs lowers

def timingSum : Expr := .arith .add (.named "t") (.named "t")

def timingBack : Expr := .unary .neg (.named "t")

def timing : Library where
  elements :=
    [.program
        { name := "Main"
          vars := [VarDecl.simple "t" "TIME"]
          body := [.assign (.named "t") timingSum, .assign (.named "t") timingBack] }]

theorem timing_isUserCode : timing.IsUserCode := by
  intro decl member
  cases member

def Code.Expr.negated? : Code.Expr → Option Code.Expr
  | .unary .minus (.paren value) => some value
  | _ => none

theorem Code.Expr.eq_of_negated? {expr value : Code.Expr} (found : expr.negated? = some value) :
    expr = .unary .minus (.paren value) := by
  unfold negated? at found
  split at found
  next => rw [Option.some.inj found]
  next => cases found

theorem timing_runs : ((timing.site? [] timing.elements[0] .accessor "MAIN").bind fun site => do
    let type ← (Expr.named "t").type? site.context site.scope
    let _ ← (timingSum.lower site 0 {}).toOption
    let (back, _) ← (timingBack.lower site 0 {}).toOption
    let _ ← back.negated?
    return type.needsRuntime) = some true := by
  decide +kernel

theorem timing_lowered :
    ∃ context notes, Context.resolve timing = .ok context ∧ timing.check context = .ok notes ∧
      ∃ unit : LoweredUnit context timing,
        (∀ node ∈ [timingSum, timingBack],
          node ∈ Stmt.partsList unit.element.body ∧ node.NeedsRuntime unit.site) ∧
        (∃ code, timingSum.LowersTo unit.site code) ∧
        ∃ code, timingBack.LowersTo unit.site (.unary .minus (.paren code)) := by
  obtain ⟨site, isSite, found⟩ := Option.bind_eq_some_iff.mp timing_runs
  obtain ⟨context, notes, resolved, checked, unit, isElement, rfl⟩ :=
    Library.unit_of_site? isSite rfl
  obtain ⟨type, typed, found⟩ := Option.bind_eq_some_iff.mp found
  obtain ⟨⟨sum, sumAfter⟩, sumRun, found⟩ := Option.bind_eq_some_iff.mp found
  obtain ⟨⟨back, backAfter⟩, backRun, found⟩ := Option.bind_eq_some_iff.mp found
  obtain ⟨value, negated, found⟩ := Option.bind_eq_some_iff.mp found
  have needs := Option.some.inj found
  rw [Code.Expr.eq_of_negated? negated] at backRun
  refine ⟨context, notes, resolved, checked, unit, ?_, ⟨sum, 0, _, _, eq_ok_of_toOption sumRun⟩,
    value, 0, _, _, eq_ok_of_toOption backRun⟩
  intro node member
  have occurs : node ∈ Stmt.partsList timing.elements[0].body := by
    rcases List.mem_pair.mp member with rfl | rfl <;>
      simp [Stmt.partsList, Stmt.allList, Stmt.all, timing, Element.body, Stmt.parts, Expr.parts,
        timingSum, timingBack]
  rw [isElement]
  rcases List.mem_pair.mp member with rfl | rfl <;>
    exact ⟨occurs, _, List.mem_cons_self .., type, typed, needs⟩

theorem Library.runtime_operands_routed_timing :
    timing.IsUserCode ∧ ∃ context notes, Context.resolve timing = .ok context ∧
      timing.check context = .ok notes ∧ ∃ (unit : LoweredUnit context timing) (code : Code.Expr),
        timingSum ∈ Stmt.partsList unit.element.body ∧ timingSum.NeedsRuntime unit.site ∧
        timingSum.LowersTo unit.site code ∧ timingSum.Routed unit.site code := by
  obtain ⟨context, notes, resolved, checked, unit, nodes, ⟨code, lowers⟩, -⟩ := timing_lowered
  obtain ⟨occurs, needs⟩ := nodes timingSum (List.mem_cons_self ..)
  refine ⟨timing_isUserCode, context, notes, resolved, checked, unit, code, occurs, needs, lowers,
    ?_⟩
  rcases Library.runtime_operands_routed timing_isUserCode resolved checked unit occurs needs lowers
    with routed | unrouted
  · exact routed
  · cases unrouted

theorem Library.time_negated_by_operator :
    ∃ context notes, Context.resolve timing = .ok context ∧ timing.check context = .ok notes ∧
      ∃ (unit : LoweredUnit context timing) (code : Code.Expr),
        timingBack ∈ Stmt.partsList unit.element.body ∧ timingBack.NeedsRuntime unit.site ∧
        timingBack.LowersTo unit.site (.unary .minus (.paren code)) := by
  obtain ⟨context, notes, resolved, checked, unit, nodes, -, code, lowers⟩ := timing_lowered
  obtain ⟨occurs, needs⟩ := nodes timingBack (List.mem_cons_of_mem _ (List.mem_cons_self ..))
  exact ⟨context, notes, resolved, checked, unit, code, occurs, needs, lowers⟩

end StructuredText
