import StructuredText.Tree.Library
import StructuredText.Types.DataType

/-!
# The types of constants and operations
-/

set_option autoImplicit false

namespace StructuredText

/-- The type of a constant. -/
def Constant.type : Constant → DataType
  | .integer _ type => (type.map .elementary).getD .intLiteral
  | .real token => (token.type.map .elementary).getD .realLiteral
  | .boolean _ => .elementary .bool
  | .string value => .elementary value.width.type
  | .duration _ => .elementary .time
  | .timeOfDay _ => .elementary .timeOfDay
  | .date _ => .elementary .date
  | .dateAndTime _ => .elementary .dateAndTime
  | .bitString _ type => (type.map .elementary).getD .intLiteral

/-- The type of an operation on numbers. -/
def numericType? (left right : DataType) : Option DataType :=
  (DataType.common? left right).filter DataType.isNumeric

/-- The type of an arithmetic operation, if the operands go together. -/
def ArithOp.type? (op : ArithOp) (left right : DataType) : Option DataType :=
  match op with
  | .add =>
      match left.elementary?, right.elementary? with
      | some .time, some .time => some (.elementary .time)
      | some .timeOfDay, some .time => some (.elementary .timeOfDay)
      | some .dateAndTime, some .time => some (.elementary .dateAndTime)
      | _, _ => numericType? left right
  | .sub =>
      match left.elementary?, right.elementary? with
      | some .time, some .time => some (.elementary .time)
      | some .date, some .date => some (.elementary .time)
      | some .timeOfDay, some .timeOfDay => some (.elementary .time)
      | some .dateAndTime, some .dateAndTime => some (.elementary .time)
      | some .timeOfDay, some .time => some (.elementary .timeOfDay)
      | some .dateAndTime, some .time => some (.elementary .dateAndTime)
      | _, _ => numericType? left right
  | .mul =>
      if (left.isTime && right.isNumeric) || (left.isNumeric && right.isTime) then
        some (.elementary .time)
      else numericType? left right
  | .div =>
      if left.isTime && right.isNumeric then some (.elementary .time)
      else numericType? left right
  | .mod => (DataType.common? left right).filter DataType.isInteger
  | .pow =>
      if left.isNumeric && right.isNumeric then
        if left.isReal then some left else some (.elementary .lreal)
      else none

/-- True for the operators that combine truth values or bits. -/
def CompareOp.isLogical : CompareOp → Bool
  | .or | .xor | .and => true
  | .eq | .ne | .lt | .gt | .le | .ge => false

/-- True for the types that logic works on. -/
def DataType.isLogical (type : DataType) : Bool :=
  type.isBool || type.isBitString || type.isIntLiteral

/-- The type of a comparison or logical operation, and whether the operands go
together.  A comparison of operands that do not is still a truth value. -/
def CompareOp.type? (op : CompareOp) (left right : DataType) : Option DataType × Bool :=
  let common := DataType.common? left right
  if op.isLogical then
    match common.filter DataType.isLogical with
    | some type => (some type, true)
    | none => (none, false)
  else (some (.elementary .bool), common.isSome)

/-- True if an operator works on a type. -/
def UnaryOp.accepts (op : UnaryOp) (term : DataType) : Bool :=
  match op with
  | .neg => term.isNumeric || term.isTime
  | .not => term.isLogical

end StructuredText
