import StructuredText.Lowering.State

/-!
# Lowering expressions

An expression is lowered from left to right.  The arguments of a call are lowered
in the order of the parameters they are bound to, so each argument is first
turned into what it can supply, and the call then takes from these.
-/

set_option autoImplicit false

namespace StructuredText

open Code (BinaryOp Family Formal Place)

/-- A variable that receives a value. -/
structure Destination where
  place : Lower Place
  type : Except Fault DataType

/-- What an argument can supply. -/
structure Supply where
  /-- The value of an input. -/
  value : Option (Lower Code.Expr)
  /-- The variable that the argument is, if it is one. -/
  destination : Option Destination

/-- The range check of a type around a value.  Only subranges have one. -/
def Code.Expr.checked (type : DataType) (value : Code.Expr) : Code.Expr :=
  if type.isSubrange then .call ("__CHECK_" ++ type.resolved.cName) [value] else value

/-- True if a call takes the output of a name negated. -/
def Argument.isNegated (arguments : List Argument) (name : Ident) : Bool :=
  arguments.any fun
    | .output isNegated source _ => isNegated && source == name
    | .positional _ | .named .. => false

/-! ## Operators -/

/-- The function and the operator of a comparison; the logical operators have none. -/
def CompareOp.relation? : CompareOp → Option (String × BinaryOp)
  | .eq => some ("EQ", .eq)
  | .ne => some ("NE", .ne)
  | .lt => some ("LT", .lt)
  | .gt => some ("GT", .gt)
  | .le => some ("LE", .le)
  | .ge => some ("GE", .ge)
  | .or | .xor | .and => none

/-- A comparison or a logical operation on operands of the given types. -/
def CompareOp.lower (op : CompareOp) (leftType rightType : DataType)
    (left right : Code.Expr) : Except Fault Code.Expr :=
  let isLogical := leftType.isBool || rightType.isBool
  match op with
  | .or => .ok (.binary (if isLogical then .logicalOr else .bitOr) left right)
  | .and => .ok (.binary (if isLogical then .logicalAnd else .bitAnd) left right)
  | .xor =>
      if isLogical then
        .ok (.binary .logicalOr (.binary .logicalAnd left (.unary .logicalNot right))
          (.binary .logicalAnd (.unary .logicalNot left) right))
      else .ok (.binary .bitXor left right)
  | op =>
      match op.relation? with
      | none => .error (.internal .unexpectedNode {})
      | some (function, operator) =>
          if leftType.isTime || leftType.isDate || leftType.isString then
            .ok (.call (function ++ "_" ++ leftType.resolved.cName)
              [.atom (Code.Literal.boolean true), .atom "NULL", .atom "2", left, right])
          else .ok (.binary operator left right)

/-- An arithmetic operation on operands of the given types. -/
def ArithOp.lower (op : ArithOp) (leftType rightType : DataType)
    (left right : Code.Expr) : Code.Expr :=
  let isTemporal := leftType.isTime || leftType.isDate
  match op with
  | .add => if isTemporal then .call "__time_add" [left, right] else .binary .add left right
  | .sub => if isTemporal then .call "__time_sub" [left, right] else .binary .sub left right
  | .mul =>
      if leftType.isTime || rightType.isTime then .call "__time_mul" [left, right]
      else .binary .mul left right
  | .div => if leftType.isTime then .call "__time_div" [left, right] else .binary .div left right
  | .mod =>
      .choose (.binary .eq right (.atom "0")) (.atom "0") (.binary .rem left right)
  | .pow =>
      .callLines "EXPT__LREAL__LREAL__LREAL"
        [.cast "BOOL" (.atom (Code.Literal.boolean true)), .atom "NULL",
          .cast "LREAL" (.paren left), .cast "LREAL" (.paren right)]

/-- The depth of the operands of an operation: a power is written on several
lines. -/
def ArithOp.operandDepth (op : ArithOp) (depth : Nat) : Nat :=
  if op = .pow then depth + 1 else depth

def UnaryOp.lower (op : UnaryOp) (type : DataType) (term : Code.Expr) : Code.Expr :=
  match op with
  | .neg => .unary .minus (.paren term)
  | .not => .unary (if type.isBool then .logicalNot else .complement) (.paren term)

/-! ## Places -/

/-- The accessors of a declared variable. -/
def VariableEntry.family (entry : VariableEntry) : Family :=
  match entry.storage with
  | .own => .own
  | .located => .located
  | .external => if entry.type.isFunctionBlock then .externalBlock else .external

/-- The handle of an instance in its own body. -/
def selfHandle : String := "data__->"

/-! ## Calls -/

/-- A call under construction: the arguments at the call site and, for a call
through a helper, the parts of the helper. -/
structure CallParts where
  arguments : List Code.Expr := []
  formals : List Formal := []
  passed : List Code.Expr := []
  temporaries : List (String × String × Code.Expr) := []
  stores : List Code.Store := []

namespace CallParts

/-- Adds an argument that a helper passes on. -/
def addInput (parts : CallParts) (argument : Code.Expr) (type name : String) : CallParts :=
  { parts with
    arguments := parts.arguments ++ [argument]
    formals := parts.formals ++ [{ type, name }]
    passed := parts.passed ++ [.atom name] }

/-- Adds an argument at the call site alone. -/
def addArgument (parts : CallParts) (argument : Code.Expr) : CallParts :=
  { parts with arguments := parts.arguments ++ [argument] }

/-- Adds an argument that only the helper passes. -/
def addPassed (parts : CallParts) (argument : Code.Expr) : CallParts :=
  { parts with passed := parts.passed ++ [argument] }

/-- Adds an output that the helper keeps and stores. -/
def addOutput (parts : CallParts) (type name : String) (initial : Code.Expr)
    (store : Code.Store) : CallParts :=
  { parts with
    passed := parts.passed ++ [.unary .address (.atom name)]
    temporaries := parts.temporaries ++ [(type, name, initial)]
    stores := parts.stores ++ [store] }

end CallParts

/-- What a call site supplies for a bound parameter. -/
def BoundParameter.supply? (bound : BoundParameter) (supplies : List Supply) : Option Supply :=
  match bound.actual with
  | some (.input index _) | some (.output index _) => supplies[index]?
  | none => none

/-- The value of an input that the call site leaves open: the declared one, or that
of the type. -/
def Parameter.defaultValue (parameter : Parameter) : Except Fault String :=
  match parameter.default with
  | some value => Code.Literal.constant value
  | none => Code.Literal.initial parameter.type

/-- The value for an input. -/
def BoundParameter.lowerInput (bound : BoundParameter) (supplies : List Supply) :
    Lower Code.Expr :=
  match bound.actual with
  | none => do return .atom (← bound.parameter.defaultValue)
  | some _ =>
      match (bound.supply? supplies).bind Supply.value with
      | some value => value
      | none => throw (.internal .unexpectedNode bound.parameter.name.span)

/-- The destination of an output, if the call site gives one. -/
def BoundParameter.lowerDestination (bound : BoundParameter) (supplies : List Supply) :
    Lower (Option Destination) :=
  match bound.actual with
  | none => pure none
  | some _ =>
      match (bound.supply? supplies).bind Supply.destination with
      | some destination => pure (some destination)
      | none => throw (.internal .unexpectedNode bound.parameter.name.span)

/-- Adds an output that goes through a helper.  A parameter that passes both ways
starts with the value of its destination. -/
def CallParts.addDestination (parts : CallParts) (arguments : List Argument)
    (bound : BoundParameter) (destination : Destination) : Lower CallParts := do
  let parameter := bound.parameter
  let name := "__tmp_" ++ bound.cName
  let initial : Code.Expr ←
    match parameter.direction with
    | .inOut => pure (.load (← destination.place))
    | _ => pure (.atom (← Code.Literal.initial parameter.type))
  let type ← destination.type
  let output : Code.Expr :=
    if Argument.isNegated arguments parameter.name then .unary .logicalNot (.atom name)
    else .atom name
  let place ← destination.place
  return parts.addOutput parameter.type.cName name initial ⟨place, output.checked type⟩

/-- Adds one bound parameter. -/
def CallParts.add (parts : CallParts) (isIndirect : Bool) (arguments : List Argument)
    (supplies : List Supply) (bound : BoundParameter) : Lower CallParts := do
  let parameter := bound.parameter
  match parameter.direction with
  | .input =>
      let value ← bound.lowerInput supplies
      let type := parameter.type.cName
      return parts.addInput (.cast type (value.checked parameter.type)) type bound.cName
  | .output | .inOut =>
      match isIndirect, (← bound.lowerDestination supplies) with
      | false, some destination => return parts.addArgument (.pointer (← destination.place))
      | false, none => return parts.addArgument (.atom "NULL")
      | true, some destination => parts.addDestination arguments bound destination
      | true, none => return parts.addPassed (.atom "NULL")
  | .external => throw (.internal .notImplemented parameter.name.span)

/-- Adds bound parameters in order.  The number of extensible arguments comes
before the first of them. -/
def CallParts.addAll (isIndirect : Bool) (count : Nat) (arguments : List Argument)
    (supplies : List Supply) :
    (isCounted : Bool) → CallParts → List BoundParameter → Lower CallParts
  | _, parts, [] => pure parts
  | isCounted, parts, bound :: rest => do
      let isFirst := bound.parameter.isExtensible && !isCounted
      let parts :=
        if isFirst then parts.addInput (.cast "UINT" (.atom (toString count))) "UINT" "__count"
        else parts
      let parts ← parts.add isIndirect arguments supplies bound
      addAll isIndirect count arguments supplies (isCounted || isFirst) parts rest

/-- A call whose meaning is known, at a depth.  A call that takes values out of a
function on behalf of a unit with accessors goes through a helper. -/
def CallResolution.lower (site : Site) (depth : Nat) (resolution : CallResolution)
    (function : Ident) (arguments : List Argument) (supplies : List Supply) :
    Lower Code.Expr := do
  let signature := resolution.signature
  if signature.hasExtensible && resolution.count == 0 then
    throw (.internal .extensibleCountMissing function.span)
  let binding ← Binding.make signature.parameters arguments
  let callee := signature.cName resolution.isOverloaded
  if site.style = .accessor && binding.hasDestination then
    let name := "__" ++ site.unit ++ "_" ++ callee ++ toString (← Lower.nextCall)
    let parts ←
      CallParts.addAll true resolution.count arguments supplies false {} binding.parameters
    Lower.addHelper
      { unit := site.unit, name, returnType := signature.returnType.cName
        formals := parts.formals, callee, temporaries := parts.temporaries
        arguments := parts.passed, stores := parts.stores, depth := depth + 1 }
    return .callLines name (parts.arguments ++ [.atom "data__"])
  else
    let parts ←
      CallParts.addAll false resolution.count arguments supplies false {} binding.parameters
    return .callLines callee parts.arguments

/-! ## Expressions -/

/-- The type of an expression that analysis has accepted. -/
def Site.typeOf (site : Site) (expr : Expr) : Lower DataType :=
  Lower.need (.internal .typeNotResolved {}) (expr.type? site.context site.scope)

/-- The constant of an enumerated value. -/
def Site.enumerated (site : Site) (value : EnumValue) : Except Fault String :=
  match site.context.enumeration? value with
  | some type => .ok (Code.Literal.enumerated type.resolved.cName value.value)
  | none => .error (.internal .typeNotResolved value.value.span)

section Lower

variable (site : Site)

mutual

/-- The way from the declared variable of a reference to what it refers to. -/
def Reference.lowerPath (depth : Nat) : Reference → Lower Code.Path
  | .named _ => pure .here
  | .field record name => do return .field (← record.lowerPath depth) name.upper
  | .element array subscripts => do
      let path ← array.lowerPath depth
      return .cell path (← Expr.lowerSubscripts depth array 0 subscripts)

/-- The subscripts from the one of an index on, each with the lower bound of its
dimension. -/
def Expr.lowerSubscripts (depth : Nat) (array : Reference) :
    (index : Nat) → List Expr → Lower (List Code.Subscript)
  | _, [] => pure []
  | index, subscript :: rest => do
      let dimension ← site.context.dimension site.scope array index
      let value ← subscript.lower depth
      return .mk value dimension.lower :: (← Expr.lowerSubscripts depth array (index + 1) rest)

/-- The place of a variable. -/
def Variable.lower (depth : Nat) : Variable → Lower Place
  | .direct address =>
      pure (match site.style with
        | .direct => .pin address.cName
        | .accessor => .member .located selfHandle address.cName)
  | .symbolic reference => do
      let entry ← Lower.need (.internal .variableUndefined reference.span)
        (site.scope.entryFor? reference)
      let root := reference.root.upper
      match site.style with
      | .direct => return .named root (← reference.lowerPath depth)
      | .accessor =>
          if entry.type.isCompound then
            return .part entry.family selfHandle root (← reference.lowerPath depth)
          else return .member entry.family selfHandle root

def Expr.lower (depth : Nat) : Expr → Lower Code.Expr
  | .compare op left right => do
      let leftType ← site.typeOf left
      let rightType ← site.typeOf right
      let left' ← left.lower depth
      let right' ← right.lower depth
      op.lower leftType rightType left' right'
  | .arith op left right => do
      let leftType ← site.typeOf left
      let rightType ← site.typeOf right
      let left' ← left.lower (op.operandDepth depth)
      let right' ← right.lower (op.operandDepth depth)
      return op.lower leftType rightType left' right'
  | .unary op term => do
      let type ← site.typeOf term
      return op.lower type (← term.lower depth)
  | .group inner => inner.lower depth
  | .const value => do return .atom (← Code.Literal.constant value)
  | .enumerated value => do return .atom (← site.enumerated value)
  | .var source => do return .load (← source.lower depth)
  | .call function arguments => do
      let resolution ← Lower.need (.internal .callNotResolved function.span)
        (CallResolution.of? site.context site.scope function arguments)
      resolution.lower site depth function arguments (Argument.supplies (depth + 1) arguments)

/-- The destination that an expression is, if it is a variable. -/
def Expr.destination? (depth : Nat) : Expr → Option Destination
  | .var source =>
      some { place := source.lower depth, type := site.context.variableType site.scope source }
  | _ => none

/-- What the arguments of a call can supply. -/
def Argument.supplies (depth : Nat) : List Argument → List Supply
  | [] => []
  | .positional value :: rest =>
      { value := some (value.lower depth), destination := value.destination? depth } ::
        Argument.supplies depth rest
  | .named _ value :: rest =>
      { value := some (value.lower depth), destination := value.destination? depth } ::
        Argument.supplies depth rest
  | .output _ _ target :: rest =>
      { value := none
        destination :=
          some { place := target.lower depth
                 type := site.context.variableType site.scope target } } ::
        Argument.supplies depth rest

end

end Lower

end StructuredText
