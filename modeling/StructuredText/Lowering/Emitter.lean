import StructuredText.Code.Printer
import StructuredText.Lowering.Stmt

/-!
# Emitting statements into a sink

Statements can be lowered and laid out in one pass.  The pass writes into a sink, which knows
the depth of the next line and whether the output is on, and keeps the loops and selections
around a statement on a stack.  A loop that has been jumped out of leaves a label to write
behind its statement.  The depth moves with the blocks of a statement, and within an expression
with the arguments of a call and the operands of a power.
-/

set_option autoImplicit false

namespace StructuredText

/-! ## Sinks -/

/-- Where text is written to. -/
structure Code.Sink where
  written : List Piece := []
  /-- The depth of the next line. -/
  depth : Nat := 0
  isOn : Bool := true

namespace Code.Sink

/-- Takes one piece.  A switch is heeded; the rest is written if the output is on. -/
def put (sink : Sink) : Piece → Sink
  | .switch on => { sink with isOn := on }
  | piece => if sink.isOn then { sink with written := sink.written ++ [piece] } else sink

def write (sink : Sink) (pieces : List Piece) : Sink := pieces.foldl put sink

def deeper (sink : Sink) : Sink := { sink with depth := sink.depth + 1 }

def shallower (sink : Sink) : Sink := { sink with depth := sink.depth - 1 }

end Code.Sink

open Code (Piece Place Sink Store)

/-! ## The emitter -/

structure Emitter where
  sink : Sink
  /-- The calls through helpers so far. -/
  calls : Nat := 0
  /-- The loops so far. -/
  loops : Nat := 0
  /-- The loops that are left by a jump. -/
  jumped : List Nat := []
  helpers : List Code.Helper := []
  /-- The loops and selections around the next statement, the innermost first. -/
  around : List Breakable := []
  /-- The loop whose label is due behind the statement. -/
  pending : Option Nat := none

namespace Emitter

/-- What the lowering of an expression sees of the emitter. -/
def lowering (emitter : Emitter) : LoweringState :=
  { calls := emitter.calls, loops := emitter.loops, jumped := emitter.jumped
    helpers := emitter.helpers, isOn := emitter.sink.isOn }

/-- The emitter after a lowering that ends in a state. -/
def resume (emitter : Emitter) (state : LoweringState) : Emitter :=
  { emitter with
    calls := state.calls, loops := state.loops, jumped := state.jumped, helpers := state.helpers
    sink := { emitter.sink with isOn := state.isOn } }

def deeper (emitter : Emitter) : Emitter := { emitter with sink := emitter.sink.deeper }

def shallower (emitter : Emitter) : Emitter := { emitter with sink := emitter.sink.shallower }

def enterSelection (emitter : Emitter) : Emitter :=
  { emitter with around := .selection :: emitter.around }

def leaveSelection (emitter : Emitter) : Emitter :=
  { emitter with around := emitter.around.tail }

def enterLoop (emitter : Emitter) : Emitter :=
  { emitter with
    loops := emitter.loops + 1
    around := .loop (emitter.loops + 1) :: emitter.around }

/-- Leaves the innermost loop, whose label is due if it has been jumped out of. -/
def leaveLoop (emitter : Emitter) : Emitter :=
  match emitter.around with
  | .loop number :: outer =>
      { emitter with
        around := outer
        pending := if emitter.jumped.contains number then some number else emitter.pending }
  | _ => { emitter with around := emitter.around.tail }

/-- Notes that a loop is left by a jump. -/
def jump (loop : Nat) (emitter : Emitter) : Emitter :=
  { emitter with jumped := loop :: emitter.jumped }

/-- The loops and selections around, and whether each loop has been jumped out of. -/
def breakables (emitter : Emitter) : List (Breakable × Bool) :=
  emitter.around.map fun
    | .loop number => (.loop number, emitter.jumped.contains number)
    | .selection => (.selection, false)

end Emitter

abbrev Emit := StateT Emitter (Except Fault)

namespace Emit

variable {α : Type}

def print (pieces : List Piece) : Emit Unit :=
  modify fun emitter => { emitter with sink := emitter.sink.write pieces }

def depth : Emit Nat := do return (← get).sink.depth

def margin : Emit Unit := do print [.margin (← depth)]

def line (content : String) : Emit Unit := do print (Piece.textLine (← depth) content)

/-- A step one level deeper. -/
def indented (step : Emit α) : Emit α := do
  modify Emitter.deeper
  let value ← step
  modify Emitter.shallower
  return value

/-- One of two steps. -/
def choose (condition : Bool) (yes no : Emit Unit) : Emit Unit := if condition then yes else no

/-- A step that is left out if there is nothing to take it for. -/
def unlessEmpty {β : Type} (items : List β) (step : Emit Unit) : Emit Unit :=
  if items.isEmpty then pure () else step

/-- A step of lowering, at the depth of the sink. -/
def lowered (step : Nat → Lower α) : Emit α := fun emitter =>
  (step emitter.sink.depth emitter.lowering).map fun (value, state) =>
    (value, emitter.resume state)

/-! ### Loops and selections -/

def around : Emit (List Breakable) := do return (← get).around

def inSelection (step : Emit α) : Emit α := do
  modify Emitter.enterSelection
  let value ← step
  modify Emitter.leaveSelection
  return value

def inLoop (step : Emit α) : Emit α := do
  modify Emitter.enterLoop
  let value ← step
  modify Emitter.leaveLoop
  return value

/-- Leaves the innermost loop: by a `break`, or by a jump from within a selection. -/
def exit : Emit Unit := do
  match Breakable.jumpTarget? false (← around) with
  | none => line "break;"
  | some loop =>
      modify (Emitter.jump loop)
      line ("goto __exit_" ++ toString loop ++ ";")

/-- Writes the label that is due, if there is one. -/
def takeLabel : Emit Unit := do
  let emitter ← get
  match emitter.pending with
  | none => pure ()
  | some number =>
      set { emitter with pending := none }
      line ("__exit_" ++ toString number ++ ":;")

/-- A statement on lines of its own. -/
def statement (inner : Emit Unit) : Emit Unit := do
  margin
  inner
  print [.text ";\n"]
  takeLabel

end Emit

/-! ## Calls -/

/-- A variable that takes the value of an output. -/
structure Emit.Target where
  place : Emit Place
  type : Except Fault DataType

/-- What an argument offers. -/
structure Emit.Offer where
  value : Option (Emit Code.Expr)
  target : Option Emit.Target

section Call

open Emit

/-- What is offered for a bound parameter. -/
def BoundParameter.offer? {α : Type} (bound : BoundParameter) (offers : List α) : Option α :=
  match bound.actual with
  | some (.input index _) | some (.output index _) => offers[index]?
  | none => none

def BoundParameter.emitInput (bound : BoundParameter) (offers : List Offer) : Emit Code.Expr :=
  match bound.actual with
  | none => do return .atom (← bound.parameter.defaultValue)
  | some _ =>
      match (bound.offer? offers).bind Offer.value with
      | some value => value
      | none => throw (.internal .unexpectedNode bound.parameter.name.span)

def BoundParameter.emitTarget (bound : BoundParameter) (offers : List Offer) :
    Except Fault (Option Target) :=
  match bound.actual with
  | none => .ok none
  | some _ =>
      match (bound.offer? offers).bind Offer.target with
      | some target => .ok (some target)
      | none => .error (.internal .unexpectedNode bound.parameter.name.span)

namespace CallParts

/-- Adds an output that goes through a helper. -/
def emitOutput (parts : CallParts) (arguments : List Argument) (bound : BoundParameter)
    (target : Target) : Emit CallParts := do
  let parameter := bound.parameter
  let name := "__tmp_" ++ bound.cName
  let initial : Code.Expr ←
    match parameter.direction with
    | .inOut => pure (.load (← target.place))
    | _ => pure (.atom (← Code.Literal.initial parameter.type))
  let type ← target.type
  let output : Code.Expr :=
    if Argument.isNegated arguments parameter.name then .unary .logicalNot (.atom name)
    else .atom name
  let place ← target.place
  return parts.addOutput parameter.type.cName name initial ⟨place, output.checked type⟩

/-- Adds one bound parameter. -/
def emit (parts : CallParts) (isIndirect : Bool) (arguments : List Argument)
    (offers : List Offer) (bound : BoundParameter) : Emit CallParts := do
  let parameter := bound.parameter
  match parameter.direction with
  | .input =>
      let value ← bound.emitInput offers
      let type := parameter.type.cName
      return parts.addInput (.cast type (value.checked parameter.type)) type bound.cName
  | .output | .inOut =>
      match isIndirect, (← bound.emitTarget offers) with
      | false, some target => return parts.addArgument (.pointer (← target.place))
      | false, none => return parts.addArgument (.atom "NULL")
      | true, some target => parts.emitOutput arguments bound target
      | true, none => return parts.addPassed (.atom "NULL")
  | .external => throw (.internal .notImplemented parameter.name.span)

/-- Adds bound parameters in order. -/
def emitAll (isIndirect : Bool) (count : Nat) (arguments : List Argument)
    (offers : List Offer) :
    (isCounted : Bool) → CallParts → List BoundParameter → Emit CallParts
  | _, parts, [] => pure parts
  | isCounted, parts, bound :: rest => do
      let isFirst := bound.parameter.isExtensible && !isCounted
      let parts :=
        if isFirst then parts.addInput (.cast "UINT" (.atom (toString count))) "UINT" "__count"
        else parts
      let parts ← parts.emit isIndirect arguments offers bound
      emitAll isIndirect count arguments offers (isCounted || isFirst) parts rest

end CallParts

/-- A call whose meaning is known.  Its arguments stand one level deeper. -/
def CallResolution.emit (site : Site) (resolution : CallResolution) (function : Ident)
    (arguments : List Argument) (offers : List Offer) : Emit Code.Expr := do
  let signature := resolution.signature
  if signature.hasExtensible && resolution.count == 0 then
    throw (.internal .extensibleCountMissing function.span)
  let binding ← Binding.make signature.parameters arguments
  let callee := signature.cName resolution.isOverloaded
  if site.style = .accessor && binding.hasDestination then
    let number ← lowered fun _ => Lower.nextCall
    let name := "__" ++ site.unit ++ "_" ++ callee ++ toString number
    let parts ← indented
      (CallParts.emitAll true resolution.count arguments offers false {} binding.parameters)
    lowered fun depth => Lower.addHelper
      { unit := site.unit, name, returnType := signature.returnType.cName
        formals := parts.formals, callee, temporaries := parts.temporaries
        arguments := parts.passed, stores := parts.stores, depth := depth + 1 }
    return .callLines name (parts.arguments ++ [.atom "data__"])
  else
    let parts ← indented
      (CallParts.emitAll false resolution.count arguments offers false {} binding.parameters)
    return .callLines callee parts.arguments

end Call

/-! ## Expressions -/

/-- The operands of an operation.  Those of a power stand one level deeper. -/
def Emit.operands {α : Type} (op : ArithOp) (step : Emit α) : Emit α :=
  if op = .pow then Emit.indented step else step

section Expr

open Emit

variable (site : Site)

mutual

def Reference.emitPath : Reference → Emit Code.Path
  | .named _ => pure .here
  | .field record name => do return .field (← record.emitPath) name.upper
  | .element array subscripts => do
      let path ← array.emitPath
      return .cell path (← Expr.emitSubscripts array 0 subscripts)

def Expr.emitSubscripts (array : Reference) :
    (index : Nat) → List Expr → Emit (List Code.Subscript)
  | _, [] => pure []
  | index, subscript :: rest => do
      let dimension ← site.context.dimension site.scope array index
      let value ← subscript.emit
      return .mk value dimension.lower :: (← Expr.emitSubscripts array (index + 1) rest)

def Variable.emit : Variable → Emit Place
  | .direct address =>
      pure (match site.style with
        | .direct => .pin address.cName
        | .accessor => .member .located selfHandle address.cName)
  | .symbolic reference => do
      let entry ← lowered fun _ => Lower.need (.internal .variableUndefined reference.span)
        (site.scope.entryFor? reference)
      let root := reference.root.upper
      match site.style with
      | .direct => return .named root (← reference.emitPath)
      | .accessor =>
          if entry.type.isCompound then
            return .part entry.family selfHandle root (← reference.emitPath)
          else return .member entry.family selfHandle root

/-- The code of an expression at the depth of the sink.  Nothing is written yet. -/
def Expr.emit : Expr → Emit Code.Expr
  | .compare op left right => do
      let leftType ← lowered fun _ => site.typeOf left
      let rightType ← lowered fun _ => site.typeOf right
      let left' ← left.emit
      let right' ← right.emit
      op.lower leftType rightType left' right'
  | .arith op left right => do
      let leftType ← lowered fun _ => site.typeOf left
      let rightType ← lowered fun _ => site.typeOf right
      let (left', right') ← operands op do
        let left' ← left.emit
        let right' ← right.emit
        return (left', right')
      return op.lower leftType rightType left' right'
  | .unary op term => do
      let type ← lowered fun _ => site.typeOf term
      return op.lower type (← term.emit)
  | .group inner => inner.emit
  | .const value => do return .atom (← Code.Literal.constant value)
  | .enumerated value => do return .atom (← site.enumerated value)
  | .var source => do return .load (← source.emit)
  | .call function arguments => do
      let resolution ← lowered fun _ => Lower.need (.internal .callNotResolved function.span)
        (CallResolution.of? site.context site.scope function arguments)
      resolution.emit site function arguments (Argument.emitOffers arguments)

def Expr.emitTarget? : Expr → Option Target
  | .var source =>
      some { place := source.emit, type := site.context.variableType site.scope source }
  | _ => none

/-- What the arguments of a call offer. -/
def Argument.emitOffers : List Argument → List Emit.Offer
  | [] => []
  | .positional value :: rest =>
      { value := some value.emit, target := value.emitTarget? } ::
        Argument.emitOffers rest
  | .named _ value :: rest =>
      { value := some value.emit, target := value.emitTarget? } ::
        Argument.emitOffers rest
  | .output _ _ target :: rest =>
      { value := none
        target :=
          some { place := target.emit, type := site.context.variableType site.scope target } } ::
        Argument.emitOffers rest

end

end Expr

/-! ## Invocations -/

section Invocation

open Emit

/-- The copies into the parameters that have a value. -/
def InstanceAccess.emitCopiesIn (access : InstanceAccess) (offers : List Offer) :
    List BoundParameter → Emit (List Store)
  | [] => pure []
  | bound :: rest => do
      match bound.actual with
      | some (.input ..) =>
          if bound.parameter.isInput then
            let value ← bound.emitInput offers
            let store : Store := ⟨access.member bound.cName, value.checked bound.parameter.type⟩
            return store :: (← emitCopiesIn access offers rest)
          else emitCopiesIn access offers rest
      | _ => emitCopiesIn access offers rest

/-- The variable that receives the value of a parameter. -/
def BoundParameter.emitReceiver? (bound : BoundParameter) (offers : List Offer) :
    Option Target :=
  match bound.parameter.direction, bound.actual with
  | .output, some (.output ..) | .inOut, some _ =>
      (bound.offer? offers).bind Offer.target
  | _, _ => none

/-- The copies out of the parameters that have a receiver. -/
def InstanceAccess.emitCopiesOut (access : InstanceAccess) (arguments : List Argument)
    (offers : List Offer) : List BoundParameter → Emit (List Store)
  | [] => pure []
  | bound :: rest => do
      match bound.emitReceiver? offers with
      | some receiver =>
          let source : Code.Expr := .load (access.member bound.cName)
          let output : Code.Expr :=
            if Argument.isNegated arguments bound.parameter.name then .unary .logicalNot source
            else source
          let type ← receiver.type
          let place ← receiver.place
          let store : Store := ⟨place, output.checked type⟩
          return store :: (← emitCopiesOut access arguments offers rest)
      | none => emitCopiesOut access arguments offers rest

/-- The code of an invocation of a function block. -/
def Site.emitInvoke (site : Site) (block : Ident) (arguments : List Argument) :
    Emit Code.Stmt := do
  let signature ← lowered fun _ =>
    Lower.need (.internal .callNotResolved block.span) (site.blockSignature? block)
  let binding ← Binding.make signature.parameters arguments
  let access := site.instanceAccess block
  let offers := Argument.emitOffers site arguments
  let before ← access.emitCopiesIn offers binding.parameters
  let after ← access.emitCopiesOut arguments offers binding.parameters
  return .invoke before (.call (signature.name.upper ++ "_body__") [access.pointer]) after

/-- The step of a counting loop. -/
def Site.emitStep (site : Site) : Option Expr → Emit Code.Step
  | none => pure .one
  | some step => do
      let value ← step.emit site
      return if step.isUnsignedConstant then .upward value else .either value

end Invocation

/-! ## Statements -/

/-- A counting loop, up to its closing brace.  Behind accessors the counter is stored by a
statement of its own in each round. -/
def Emit.round (site : Site) (type : DataType) (control : Code.Place) (first last : Code.Expr)
    (step : Code.Step) (body : Emit Unit) : Emit Unit := do
  let depth ← Emit.depth
  let start := Store.print depth ⟨control, first.checked type⟩
  let test := step.printTest depth control last
  Emit.choose (site.style = .direct)
    (do
      Emit.print (Piece.text "for(" :: (start ++ Piece.text "; " :: (test ++ Piece.text "; " ::
        (step.printAdvance depth control ++ [Piece.text ") \x7b\n"]))))
      Emit.indented body)
    (do
      Emit.print (start ++ [Piece.text ";\n"])
      Emit.margin
      Emit.print (.text "while (" :: (test ++ [Piece.text ") \x7b\n"]))
      Emit.indented do
        body
        Emit.margin
        Emit.print (Store.print depth ⟨control, (step.next (.load control)).checked type⟩ ++
          [Piece.text ";\n"]))
  Emit.margin
  Emit.print [Piece.text "\x7d"]

section Emit

open Emit

variable (site : Site)

mutual

def Stmt.emit : Stmt → Emit Unit
  | .assign target value => statement do
      let type ← lowered fun _ => site.context.variableType site.scope target
      let value ← value.emit site
      let place ← target.emit site
      print (Store.print (← depth) ⟨place, value.checked type⟩)
  | .invoke block arguments => do
      let code ← site.emitInvoke block arguments
      print (code.print (← depth))
      takeLabel
  | .ifElse condition body elseIfs otherwise => statement do
      let condition ← condition.emit site
      print (.text "if (" :: (condition.print (← depth) ++ [.text ") \x7b\n"]))
      indented (Stmt.emitList body)
      ElseIf.emitList elseIfs
      unlessEmpty otherwise do
        margin
        print [.text "\x7d else \x7b\n"]
        indented (Stmt.emitList otherwise)
      margin
      print [.text "\x7d"]
  | .select selector groups otherwise => statement do
      let type ← lowered fun _ => site.typeOf selector
      let selector ← selector.emit site
      let selector := selector.print (← depth)
      print [.text "\x7b\n"]
      indented do
        margin
        print (.text (type.cName ++ " __case_expression = ") :: (selector ++ [.text ";\n"]))
        margin
        print [.text "switch (__case_expression) \x7b\n"]
        indented do
          inSelection do
            CaseGroup.emitCases groups
            line "default:"
            indented do
              let hasRange ← CaseGroup.emitRanges false groups
              choose hasRange
                (unlessEmpty otherwise do
                  line "else \x7b"
                  indented (Stmt.emitList otherwise)
                  line "\x7d")
                (Stmt.emitList otherwise)
              line "break;"
        line "\x7d"
      margin
      print [.text "\x7d"]
  | .forTo control first last step body => statement do
      inLoop do
        let control := Variable.named control
        let type ← lowered fun _ => site.context.variableType site.scope control
        let first ← first.emit site
        let last ← last.emit site
        let step ← site.emitStep step
        let place ← control.emit site
        Emit.round site type place first last step (Stmt.emitList body)
  | .whileDo condition body => statement do
      let condition ← condition.emit site
      print (.text "while (" :: (condition.print (← depth) ++ [.text ") \x7b\n"]))
      inLoop (indented (Stmt.emitList body))
      margin
      print [.text "\x7d"]
  | .repeatUntil body condition => statement do
      print [.text "do \x7b\n"]
      inLoop (indented (Stmt.emitList body))
      let condition ← condition.emit site
      margin
      print (.text "\x7d while (!(" :: (condition.print (← depth) ++ [.text "))"]))
  | .leaveUnit => do
      line "goto __end;"
      takeLabel
  | .leaveLoop => do
      exit
      takeLabel
  | .pragma (.code text) => do print ((site.code text).print (← depth))
  | .pragma .enable => print [.switch true]
  | .pragma .disable => print [.switch false]

/-- Emits statements in their order. -/
def Stmt.emitList : List Stmt → Emit Unit
  | [] => pure ()
  | stmt :: stmts => do
      stmt.emit
      Stmt.emitList stmts

def ElseIf.emitList : List ElseIf → Emit Unit
  | [] => pure ()
  | .mk condition body :: elseIfs => do
      let condition ← condition.emit site
      margin
      print (.text "\x7d else if (" :: (condition.print (← depth) ++ [.text ") \x7b\n"]))
      indented (Stmt.emitList body)
      ElseIf.emitList elseIfs

/-- Emits the groups that have single values as labels. -/
def CaseGroup.emitCases : List CaseGroup → Emit Unit
  | [] => pure ()
  | .mk labels body :: groups => do
      let singles ← lowered fun _ => CaseLabel.lowerSingles site labels
      unlessEmpty singles do
        singles.forM fun label => line ("case " ++ label ++ ":")
        indented do
          Stmt.emitList body
          line "break;"
      CaseGroup.emitCases groups

/-- Emits the groups that have ranges as labels, and tells whether there has been one. -/
def CaseGroup.emitRanges (hasRange : Bool) : List CaseGroup → Emit Bool
  | [] => pure hasRange
  | .mk labels body :: groups =>
      match CaseLabel.lowerRanges labels with
      | [] => CaseGroup.emitRanges hasRange groups
      | ranges => do
          line ((if hasRange then "else if (" else "if (") ++ Code.rangeTests ranges ++ ") \x7b")
          indented (Stmt.emitList body)
          line "\x7d"
          CaseGroup.emitRanges true groups

end

attribute [simp] Stmt.emit Stmt.emitList ElseIf.emitList CaseGroup.emitCases CaseGroup.emitRanges

end Emit

end StructuredText
