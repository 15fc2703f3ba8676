import StructuredText.Proofs.Lowering.Temporal
import Mathlib.Order.Defs.PartialOrder

/-!
# Types that go together

Which types a type accepts depends on its shape alone: its representation, the name it has
in generated code if it has none, or that it is of a number without a type.  Shapes are
partially ordered, with whole numbers without a type at the bottom, and with them the types
that numbers without a type go with.  A type accepts what is not above it, and the common
type of two operands is the larger one, in a form without subranges and other names.

The order breaks at one place only.  Generated code names a number without a type after
the widest type of its category, and types without a representation are compared by name;
so a declared type of that name would be taken for a number.
-/

set_option autoImplicit false

namespace StructuredText

namespace DataType

/-! ## Shapes -/

inductive Shape where
  | intLiteral
  | realLiteral
  | represented (base : Elementary)
  | named (name : String)
deriving DecidableEq

namespace Shape

def takesInt : Shape → Bool
  | .intLiteral | .realLiteral => true
  | .represented base => base.isInteger || base.isReal || base.isBitString
  | .named _ => false

def takesReal : Shape → Bool
  | .realLiteral => true
  | .represented base => base.isReal
  | .intLiteral | .named _ => false

theorem takesInt_of_takesReal {shape : Shape} (takes : shape.takesReal = true) :
    shape.takesInt = true := by
  cases shape with
  | realLiteral => rfl
  | represented base => simp [takesInt, show base.isReal = true from takes]
  | intLiteral | named => cases takes

/-- Numbers without a type stand below the shapes they go with, and nothing else stands below
another shape. -/
def Below : Shape → Shape → Prop
  | .intLiteral, upper => upper.takesInt = true
  | .realLiteral, upper => upper.takesReal = true
  | lower, upper => lower = upper

theorem Below.trans {low middle high : Shape} (first : low.Below middle)
    (second : middle.Below high) : low.Below high := by
  cases low with
  | intLiteral =>
      cases middle with
      | intLiteral => exact second
      | realLiteral => exact takesInt_of_takesReal second
      | represented base =>
          cases second
          exact first
      | named => cases first
  | realLiteral =>
      cases middle with
      | realLiteral => exact second
      | represented base =>
          cases second
          exact first
      | intLiteral | named => cases first
  | represented | named =>
      cases first
      exact second

theorem Below.antisymm {low high : Shape} (up : low.Below high) (down : high.Below low) :
    low = high := by
  cases low with
  | intLiteral =>
      cases high with
      | intLiteral => rfl
      | realLiteral | represented | named => cases down
  | realLiteral =>
      cases high with
      | realLiteral => rfl
      | intLiteral => cases up
      | represented | named => cases down
  | represented | named => exact up

instance : PartialOrder Shape where
  le := Below
  le_refl shape := by cases shape <;> rfl
  le_trans _ _ _ := Below.trans
  le_antisymm _ _ := Below.antisymm

theorem intLiteral_le {shape : Shape} : intLiteral ≤ shape ↔ shape.takesInt = true := Iff.rfl

theorem realLiteral_le {shape : Shape} : realLiteral ≤ shape ↔ shape.takesReal = true := Iff.rfl

theorem represented_le {base : Elementary} {shape : Shape} :
    represented base ≤ shape ↔ represented base = shape := Iff.rfl

theorem named_le {name : String} {shape : Shape} : named name ≤ shape ↔ named name = shape :=
  Iff.rfl

/-- The name in generated code of a type of this shape that has no other name. -/
def cName : Shape → String
  | .intLiteral => "LINT"
  | .realLiteral => "LREAL"
  | .represented base => base.cName
  | .named name => name

def elementary? : Shape → Option Elementary
  | .represented base => some base
  | .intLiteral | .realLiteral | .named _ => none

end Shape

def shape (type : DataType) : Shape :=
  match type.resolved with
  | .intLiteral => .intLiteral
  | .realLiteral => .realLiteral
  | .elementary base | .subrange _ base _ _ => .represented base
  | .synonym name _ | .enumeration name _ | .array name _ _ | .record name _
  | .functionBlock name => .named name.upper

/-- The ways in which a type has a shape. -/
inductive HasShape (type : DataType) : Shape → Prop where
  | intLiteral (isSo : type.resolved = .intLiteral) : HasShape type .intLiteral
  | realLiteral (isSo : type.resolved = .realLiteral) : HasShape type .realLiteral
  | represented {base : Elementary} (isBase : type.elementary? = some base) :
      HasShape type (.represented base)
  | named (notLiteral : type.resolved.isLiteral = false) (noBase : type.elementary? = none) :
      HasShape type (.named type.resolved.cName)

theorem resolved_ne_synonym (type : DataType) (name : Ident) (base : DataType) :
    type.resolved ≠ .synonym name base := by
  induction type using resolved.induct with
  | case1 _ inner ih => exact ih
  | case2 type notSynonym =>
      rw [resolved.eq_2 type notSynonym]
      exact notSynonym name base

theorem hasShape (type : DataType) : type.HasShape type.shape := by
  cases resolved : type.resolved with
  | synonym name base => exact absurd resolved (type.resolved_ne_synonym name base)
  | intLiteral =>
      simp only [shape, resolved]
      exact .intLiteral resolved
  | realLiteral =>
      simp only [shape, resolved]
      exact .realLiteral resolved
  | elementary base | subrange name base lower upper =>
      simp only [shape, resolved]
      exact .represented (by simp only [elementary?, resolved])
  | _ =>
      have named : type.HasShape (.named type.resolved.cName) :=
        .named (by rw [resolved]; rfl) (by simp only [elementary?, resolved])
      simp only [shape, resolved, cName] at named ⊢
      exact named

@[simp] theorem shape_resolved (type : DataType) : type.resolved.shape = type.shape := by
  rw [shape, resolved_resolved, shape]

theorem elementary?_shape (type : DataType) : type.shape.elementary? = type.elementary? := by
  have has := type.hasShape
  generalize type.shape = shape at has ⊢
  cases has with
  | intLiteral isSo | realLiteral isSo => rw [elementary?, isSo]; rfl
  | represented isBase => exact isBase.symm
  | named notLiteral noBase => exact noBase.symm

theorem isLiteral_eq (type : DataType) :
    type.isLiteral = (type.isIntLiteral || type.isRealLiteral) := by
  cases type <;> rfl

theorem isLiteral_iff {type : DataType} :
    type.isLiteral = true ↔ type = .intLiteral ∨ type = .realLiteral := by
  cases type <;> simp [isLiteral]

theorem takesInt_shape (type : DataType) :
    type.shape.takesInt =
      (type.resolved.isInteger || type.resolved.isReal || type.resolved.isBitString) := by
  have has := type.hasShape
  generalize type.shape = shape at has ⊢
  simp only [isInteger, isReal, isBitString, resolved_resolved, elementary?_resolved]
  cases has with
  | intLiteral isSo | realLiteral isSo => rw [elementary?, isSo]; rfl
  | represented isBase =>
      have notLiteral := not_isLiteral_of_elementary? isBase
      rw [isLiteral_eq, Bool.or_eq_false_iff] at notLiteral
      simp [notLiteral, isBase, Shape.takesInt]
  | named notLiteral noBase =>
      rw [isLiteral_eq, Bool.or_eq_false_iff] at notLiteral
      simp [notLiteral, noBase, Shape.takesInt]

theorem takesReal_shape (type : DataType) : type.shape.takesReal = type.resolved.isReal := by
  have has := type.hasShape
  generalize type.shape = shape at has ⊢
  simp only [isReal, resolved_resolved, elementary?_resolved]
  cases has with
  | intLiteral isSo | realLiteral isSo => rw [elementary?, isSo]; rfl
  | represented isBase =>
      have notLiteral := not_isLiteral_of_elementary? isBase
      rw [isLiteral_eq, Bool.or_eq_false_iff] at notLiteral
      simp [notLiteral, isBase, Shape.takesReal]
  | named notLiteral noBase =>
      rw [isLiteral_eq, Bool.or_eq_false_iff] at notLiteral
      simp [notLiteral, noBase, Shape.takesReal]

theorem isLiteral_resolved_iff (type : DataType) :
    type.resolved.isLiteral = true ↔ type.shape = .intLiteral ∨ type.shape = .realLiteral := by
  have has := type.hasShape
  generalize type.shape = shape at has ⊢
  cases has with
  | intLiteral isSo | realLiteral isSo => simp [isSo, isLiteral]
  | represented isBase => simp [not_isLiteral_of_elementary? isBase]
  | named notLiteral noBase => simp [notLiteral]

/-! ## Assignability -/

/-- True unless the type has no representation and, in generated code, the name of a number
without a type. -/
def IsApart (type : DataType) : Prop := type.shape ≠ .named "LINT" ∧ type.shape ≠ .named "LREAL"

theorem accepts_iff {target source : DataType} (apart : source.IsApart) :
    target.accepts source = true ↔ source.shape ≤ target.shape := by
  have hasSource := source.hasShape
  unfold IsApart at apart
  generalize source.shape = lower at hasSource apart ⊢
  rw [accepts_eq]
  cases hasSource with
  | intLiteral isSo =>
      rw [Shape.intLiteral_le, takesInt_shape]
      simp only [isSo, isIntLiteral, if_true]
  | realLiteral isSo =>
      rw [Shape.realLiteral_le, takesReal_shape]
      simp only [isSo, isIntLiteral, isRealLiteral, if_true, Bool.false_eq_true, if_false]
  | represented isBase =>
      have notLiteral := not_isLiteral_of_elementary? isBase
      rw [isLiteral_eq, Bool.or_eq_false_iff] at notLiteral
      rw [Shape.represented_le]
      simp only [notLiteral, elementary?_resolved, isBase, Bool.false_eq_true, if_false]
      have hasTarget := target.hasShape
      generalize target.shape = upper at hasTarget ⊢
      cases hasTarget with
      | intLiteral isSo | realLiteral isSo => simp [elementary?, isSo]
      | represented isUpper => simpa [isUpper] using eq_comm
      | named _ noUpper => simp [noUpper]
  | named notLiteral noBase =>
      rw [isLiteral_eq, Bool.or_eq_false_iff] at notLiteral
      rw [Shape.named_le]
      simp only [notLiteral, elementary?_resolved, noBase, Bool.false_eq_true, if_false]
      have hasTarget := target.hasShape
      generalize target.shape = upper at hasTarget ⊢
      generalize source.resolved.cName = name at apart ⊢
      cases hasTarget with
      | intLiteral isSo =>
          have differs : "LINT" ≠ name := fun same => apart.1 (same ▸ rfl)
          simpa [elementary?, isSo, cName] using differs
      | realLiteral isSo =>
          have differs : "LREAL" ≠ name := fun same => apart.2 (same ▸ rfl)
          simpa [elementary?, isSo, cName] using differs
      | represented isUpper => simp [isUpper]
      | named _ noUpper => simpa [noUpper] using eq_comm

/-! ## Common types -/

/-- True for a type without another name that is not a subrange. -/
def IsPlain (type : DataType) : Prop := type.resolved = type ∧ type.isSubrange = false

theorem isPlain_widened (type : DataType) : type.resolved.widened.IsPlain := by
  cases resolved : type.resolved with
  | synonym name base => exact absurd resolved (type.resolved_ne_synonym name base)
  | _ => exact ⟨rfl, rfl⟩

theorem shape_widened (type : DataType) : type.resolved.widened.shape = type.shape := by
  rw [← shape_resolved type]
  cases type.resolved <;> rfl

theorem widened_of_elementary?_eq_none {type : DataType} (noBase : type.elementary? = none) :
    type.resolved.widened = type.resolved := by
  unfold elementary? at noBase
  cases resolved : type.resolved with
  | subrange => rw [resolved] at noBase; cases noBase
  | _ => rfl

theorem IsPlain.cName {type : DataType} (plain : type.IsPlain) : type.cName = type.shape.cName := by
  obtain ⟨isResolved, notSubrange⟩ := plain
  unfold isSubrange at notSubrange
  unfold shape
  rw [isResolved] at notSubrange ⊢
  cases type with
  | synonym name base => exact absurd isResolved (resolved_ne_synonym _ name base)
  | subrange => cases notSubrange
  | _ => rfl

/-- A type that is not of numbers without a type is below none but its own shape. -/
theorem shape_le_iff {type : DataType} (typed : type.resolved.isLiteral = false) {upper : Shape} :
    type.shape ≤ upper ↔ type.shape = upper := by
  have notLiteral := (not_congr type.isLiteral_resolved_iff).mp (by rw [typed]; exact nofun)
  cases shape : type.shape with
  | intLiteral => exact absurd (.inl shape) notLiteral
  | realLiteral => exact absurd (.inr shape) notLiteral
  | represented | named => rfl

theorem accepts_iff_shape_eq {target source : DataType} (apart : source.IsApart)
    (typed : source.resolved.isLiteral = false) :
    target.accepts source = true ↔ source.shape = target.shape := by
  rw [accepts_iff apart, shape_le_iff typed]

theorem not_accepts_of_isLiteral {target source : DataType} (apart : source.IsApart)
    (literal : target.resolved.isLiteral = true) (typed : source.resolved.isLiteral = false) :
    target.accepts source = false := by
  rw [Bool.eq_false_iff, Ne, accepts_iff_shape_eq apart typed]
  intro same
  rw [isLiteral_resolved_iff, ← same, ← isLiteral_resolved_iff, typed] at literal
  cases literal

theorem accepts_comm {first second : DataType} (firstApart : first.IsApart)
    (secondApart : second.IsApart) (firstTyped : first.resolved.isLiteral = false)
    (secondTyped : second.resolved.isLiteral = false) :
    first.accepts second = second.accepts first := by
  rw [Bool.eq_iff_iff, accepts_iff_shape_eq secondApart secondTyped,
    accepts_iff_shape_eq firstApart firstTyped, eq_comm]

@[simp] theorem accepts_resolved (target source : DataType) :
    target.resolved.accepts source.resolved = target.accepts source := by
  simp only [accepts_eq, resolved_resolved]

theorem common?_of_typed {left right : DataType} (leftTyped : left.resolved.isLiteral = false)
    (rightTyped : right.resolved.isLiteral = false) :
    common? left right = if left.accepts right then some left.resolved.widened else none := by
  have notLiteral := rightTyped
  rw [isLiteral_eq, Bool.or_eq_false_iff] at notLiteral
  rw [common?_eq, accepts_eq left right]
  simp only [leftTyped, rightTyped, notLiteral, Bool.and_false, Bool.false_eq_true, if_false,
    elementary?_resolved]
  cases leftBase : left.elementary? with
  | some base => cases right.elementary? <;> rfl
  | none =>
      rw [widened_of_elementary?_eq_none leftBase]
      cases right.elementary? <;> rfl

/-- The common type is the one that accepts the other, if either does, in plain form. -/
theorem common?_eq_larger {left right : DataType} (leftApart : left.IsApart)
    (rightApart : right.IsApart) :
    common? left right =
      if left.accepts right then some left.resolved.widened
      else if right.accepts left then some right.resolved.widened else none := by
  cases leftLiteral : left.resolved.isLiteral with
  | true =>
      cases rightLiteral : right.resolved.isLiteral with
      | true =>
          obtain isLeft | isLeft := isLiteral_iff.mp leftLiteral <;>
            obtain isRight | isRight := isLiteral_iff.mp rightLiteral <;>
            simp [common?, accepts, isLeft, isRight, isInteger, isReal, isBitString, resolved,
              isIntLiteral, isRealLiteral, elementary?, widened]
      | false =>
          rw [common?_eq, not_accepts_of_isLiteral rightApart leftLiteral rightLiteral]
          simp [leftLiteral, rightLiteral]
  | false =>
      cases rightLiteral : right.resolved.isLiteral with
      | true =>
          rw [common?_eq, not_accepts_of_isLiteral leftApart rightLiteral leftLiteral]
          simp [leftLiteral, rightLiteral]
      | false =>
          rw [common?_of_typed leftLiteral rightLiteral,
            accepts_comm rightApart leftApart rightLiteral leftLiteral]
          cases left.accepts right <;> rfl

theorem common?_isSome {left right : DataType} (leftApart : left.IsApart)
    (rightApart : right.IsApart) :
    (common? left right).isSome = true ↔
      left.accepts right = true ∨ right.accepts left = true := by
  rw [common?_eq_larger leftApart rightApart]
  cases left.accepts right <;> cases right.accepts left <;> simp

/-- A plain type of the least shape that is not below either operand. -/
structure IsJoin (left right common : DataType) : Prop where
  isPlain : common.IsPlain
  left_le : left.shape ≤ common.shape
  right_le : right.shape ≤ common.shape
  isLeast : ∀ upper, left.shape ≤ upper → right.shape ≤ upper → common.shape ≤ upper

theorem IsJoin.symm {left right common : DataType} (join : IsJoin left right common) :
    IsJoin right left common :=
  ⟨join.isPlain, join.right_le, join.left_le, fun upper first second =>
    join.isLeast upper second first⟩

theorem isJoin_of_common? {left right common : DataType} (leftApart : left.IsApart)
    (rightApart : right.IsApart) (found : common? left right = some common) :
    IsJoin left right common := by
  rw [common?_eq_larger leftApart rightApart] at found
  split at found
  · next accepts =>
      cases found
      rw [accepts_iff rightApart] at accepts
      refine ⟨left.isPlain_widened, ?_, ?_, ?_⟩ <;> rw [shape_widened]
      · exact accepts
      · exact fun _ leftLe _ => leftLe
  · obtain ⟨accepts, found⟩ := Option.ite_none_right_eq_some.mp found
    cases found
    rw [accepts_iff leftApart] at accepts
    refine ⟨right.isPlain_widened, ?_, ?_, ?_⟩ <;> rw [shape_widened]
    · exact accepts
    · exact fun _ _ rightLe => rightLe

/-- Joins of the same operands differ in what their shape leaves out at most. -/
theorem IsJoin.shape_eq {left right common other : DataType} (join : IsJoin left right common)
    (otherJoin : IsJoin left right other) : other.shape = common.shape :=
  le_antisymm (otherJoin.isLeast _ join.left_le join.right_le)
    (join.isLeast _ otherJoin.left_le otherJoin.right_le)

theorem IsPlain.cName_eq {type other : DataType} (plain : type.IsPlain) (otherPlain : other.IsPlain)
    (same : other.shape = type.shape) : other.cName = type.cName := by
  rw [plain.cName, otherPlain.cName, same]

theorem elementary?_eq_of_shape {type other : DataType} (same : other.shape = type.shape) :
    other.elementary? = type.elementary? := by
  rw [← elementary?_shape, ← elementary?_shape, same]

theorem isApart_of_common? {left right common : DataType} (leftApart : left.IsApart)
    (rightApart : right.IsApart) (found : common? left right = some common) : common.IsApart := by
  rw [common?_eq_larger leftApart rightApart] at found
  unfold IsApart
  split at found
  · cases found
    rw [shape_widened]
    exact leftApart
  · obtain ⟨-, found⟩ := Option.ite_none_right_eq_some.mp found
    cases found
    rw [shape_widened]
    exact rightApart

/-- A plain type that accepts an operand has no larger common type with it. -/
theorem IsPlain.common?_again {type operand : DataType} (plain : type.IsPlain)
    (apart : type.IsApart) (operandApart : operand.IsApart)
    (accepts : type.accepts operand = true) :
    (∃ again, common? type operand = some again ∧ again.cName = type.cName) ∧
    ∃ again, common? operand type = some again ∧ again.cName = type.cName := by
  have join : IsJoin type operand type :=
    ⟨plain, le_rfl, (accepts_iff operandApart).mp accepts, fun _ typeLe _ => typeLe⟩
  constructor
  · obtain ⟨again, found⟩ :=
      Option.isSome_iff_exists.mp ((common?_isSome apart operandApart).mpr (.inl accepts))
    have againJoin := isJoin_of_common? apart operandApart found
    exact ⟨again, found, plain.cName_eq againJoin.isPlain (join.shape_eq againJoin)⟩
  · obtain ⟨again, found⟩ :=
      Option.isSome_iff_exists.mp ((common?_isSome operandApart apart).mpr (.inr accepts))
    have againJoin := (isJoin_of_common? operandApart apart found).symm
    exact ⟨again, found, plain.cName_eq againJoin.isPlain (join.shape_eq againJoin)⟩

/-- Acceptance is a preorder, and symmetric among types that are not of numbers without a type.
Two operands have a common type exactly if one accepts the other, in either order of the
operands; the two orders differ neither in the representation nor in the name in generated
code.  The common type accepts both operands, is plain, and has no larger common type with
either of them. -/
theorem accepts_preorder_common?_join {first second third : DataType} (firstApart : first.IsApart)
    (secondApart : second.IsApart) (thirdApart : third.IsApart) :
    first.accepts first = true ∧
    (first.accepts second = true → second.accepts third = true → first.accepts third = true) ∧
    (first.resolved.isLiteral = false → second.resolved.isLiteral = false →
      first.accepts second = second.accepts first) ∧
    ((common? first second).isSome = true ↔
      first.accepts second = true ∨ second.accepts first = true) ∧
    ((common? first second).isSome = true ↔ (common? second first).isSome = true) ∧
    ∀ common, common? first second = some common →
      (∀ other, common? second first = some other →
        other.cName = common.cName ∧ other.elementary? = common.elementary?) ∧
      common.accepts first = true ∧ common.accepts second = true ∧ common.IsPlain ∧
      ∀ operand ∈ [first, second],
        (∃ again, common? common operand = some again ∧ again.cName = common.cName) ∧
        ∃ again, common? operand common = some again ∧ again.cName = common.cName := by
  refine ⟨(accepts_iff firstApart).mpr le_rfl, fun outer inner => ?_,
    accepts_comm firstApart secondApart, common?_isSome firstApart secondApart, ?_,
    fun common found => ?_⟩
  · rw [accepts_iff secondApart] at outer
    rw [accepts_iff thirdApart] at inner ⊢
    exact inner.trans outer
  · rw [common?_isSome firstApart secondApart, common?_isSome secondApart firstApart, or_comm]
  have apart := isApart_of_common? firstApart secondApart found
  have join := isJoin_of_common? firstApart secondApart found
  have acceptsFirst := (accepts_iff firstApart).mpr join.left_le
  have acceptsSecond := (accepts_iff secondApart).mpr join.right_le
  refine ⟨fun other otherFound => ?_, acceptsFirst, acceptsSecond, join.isPlain,
    fun operand member => ?_⟩
  · have otherJoin := (isJoin_of_common? secondApart firstApart otherFound).symm
    have same := join.shape_eq otherJoin
    exact ⟨join.isPlain.cName_eq otherJoin.isPlain same, elementary?_eq_of_shape same⟩
  · simp only [List.mem_cons, List.not_mem_nil, or_false] at member
    obtain rfl | rfl := member
    · exact join.isPlain.common?_again apart firstApart acceptsFirst
    · exact join.isPlain.common?_again apart secondApart acceptsSecond

/-- A subrange behind another name, its base, and a number without a type. -/
theorem accepts_preorder_common?_join_subrange :
    DataType.accepts (.synonym "Level" (.subrange "Percent" .int 0 100)) (.elementary .int) =
      true ∧
    DataType.accepts (.synonym "Level" (.subrange "Percent" .int 0 100)) .intLiteral = true ∧
    common? (.synonym "Level" (.subrange "Percent" .int 0 100)) (.elementary .int) =
      some (.elementary .int) ∧
    ∃ again, common? (.elementary .int) (.synonym "Level" (.subrange "Percent" .int 0 100)) =
      some again ∧ again.cName = "INT" := by
  have levelApart : IsApart (.synonym "Level" (.subrange "Percent" .int 0 100)) := ⟨nofun, nofun⟩
  have baseApart : IsApart (.elementary .int) := ⟨nofun, nofun⟩
  have literalApart : IsApart .intLiteral := ⟨nofun, nofun⟩
  obtain ⟨-, trans, -, -, -, common⟩ :=
    accepts_preorder_common?_join levelApart baseApart literalApart
  have accepted : DataType.accepts (.synonym "Level" (.subrange "Percent" .int 0 100))
      (.elementary .int) = true := by decide
  have again := ((common _ rfl).2.2.2.2 (.synonym "Level" (.subrange "Percent" .int 0 100))
    (List.mem_cons_self ..)).1
  exact ⟨accepted, trans accepted (by decide), rfl, again⟩

/-- An enumeration with the name of a number without a type is taken for one. -/
example : DataType.accepts .intLiteral (.enumeration "Lint" []) = true := by decide +kernel

end DataType

end StructuredText
