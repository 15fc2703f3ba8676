import StructuredText.Lowering.Expr

/-!
# Lowering statements

Every statement becomes one statement of generated code.  A group of a selection
that has both single values and ranges as labels is lowered twice: once for each
kind of label.
-/

set_option autoImplicit false

namespace StructuredText

open Code (Place Store)

/-! ## Invocations -/

/-- An instance of a function block in the body of a unit. -/
structure InstanceAccess where
  name : String
  style : Style
  isExternal : Bool

/-- The access to an instance of a name. -/
def Site.instanceAccess (site : Site) (block : Ident) : InstanceAccess :=
  { name := block.upper
    style := site.style
    isExternal :=
      (site.scope.lookup block).any fun (entry : VariableEntry) => entry.storage == .external }

namespace InstanceAccess

/-- The place of a variable of the instance. -/
def member (access : InstanceAccess) (name : String) : Place :=
  match access.style with
  | .direct => .named access.name (.field .here name)
  | .accessor =>
      .member (if access.isExternal then .externalBlock else .own)
        (selfHandle ++ access.name ++ ".") name

/-- A pointer to the instance.  An external instance is known by its pointer. -/
def pointer (access : InstanceAccess) : Code.Expr :=
  let name : Code.Expr :=
    .atom (match access.style with
      | .direct => access.name
      | .accessor => selfHandle ++ access.name)
  if access.isExternal then name else .unary .address name

end InstanceAccess

/-- The copies into the parameters that have a value. -/
def InstanceAccess.copiesIn (access : InstanceAccess) (supplies : List Supply) :
    List BoundParameter → Lower (List Store)
  | [] => pure []
  | bound :: rest => do
      match bound.actual with
      | some (.input ..) =>
          if bound.parameter.isInput then
            let value ← bound.lowerInput supplies
            let store : Store := ⟨access.member bound.cName, value.checked bound.parameter.type⟩
            return store :: (← copiesIn access supplies rest)
          else copiesIn access supplies rest
      | _ => copiesIn access supplies rest

/-- The variable that receives the value of a parameter. -/
def BoundParameter.receiver? (bound : BoundParameter) (supplies : List Supply) :
    Option Destination :=
  match bound.parameter.direction, bound.actual with
  | .output, some (.output ..) | .inOut, some _ =>
      (bound.supply? supplies).bind Supply.destination
  | _, _ => none

/-- The copies out of the parameters that have a receiver. -/
def InstanceAccess.copiesOut (access : InstanceAccess) (arguments : List Argument)
    (supplies : List Supply) : List BoundParameter → Lower (List Store)
  | [] => pure []
  | bound :: rest => do
      match bound.receiver? supplies with
      | some receiver =>
          let source : Code.Expr := .load (access.member bound.cName)
          let output : Code.Expr :=
            if Argument.isNegated arguments bound.parameter.name then .unary .logicalNot source
            else source
          let type ← receiver.type
          let place ← receiver.place
          let store : Store := ⟨place, output.checked type⟩
          return store :: (← copiesOut access arguments supplies rest)
      | none => copiesOut access arguments supplies rest

/-- The signature of the function block that an instance is of. -/
def Site.blockSignature? (site : Site) (block : Ident) : Option BlockSignature :=
  match instanceType site.scope block with
  | .ok type => site.context.functions.block? type
  | .error _ => none

/-- An invocation of a function block. -/
def Site.lowerInvoke (site : Site) (depth : Nat) (block : Ident) (arguments : List Argument) :
    Lower Code.Stmt := do
  let signature ← Lower.need (.internal .callNotResolved block.span) (site.blockSignature? block)
  let binding ← Binding.make signature.parameters arguments
  let access := site.instanceAccess block
  let supplies := Argument.supplies site depth arguments
  let before ← access.copiesIn supplies binding.parameters
  let after ← access.copiesOut arguments supplies binding.parameters
  return .invoke before (.call (signature.name.upper ++ "_body__") [access.pointer]) after

/-! ## Counting loops -/

/-- True for a whole number without a minus sign, in brackets or not. -/
def Expr.isUnsignedConstant : Expr → Bool
  | .const (.integer value _) => !value.isNegative
  | .group inner => inner.isUnsignedConstant
  | _ => false

/-- The step of a counting loop. -/
def Site.lowerStep (site : Site) (depth : Nat) : Option Expr → Lower Code.Step
  | none => pure .one
  | some step => do
      let value ← step.lower site depth
      return if step.isUnsignedConstant then .upward value else .either value

/-- The value that a counter has after a step. -/
def Code.Step.next (control : Code.Expr) : Code.Step → Code.Expr
  | .one => .next control (.atom "1")
  | .upward step => .next control step
  | .either step => .next control (.paren step)

/-- A counting loop around a body that is lowered already.  Only a loop over
accessors checks the range of the counter at each step. -/
def Site.countingLoop (site : Site) (type : DataType) (control : Place)
    (first last : Code.Expr) (step : Code.Step) (body : List Code.Stmt) (exit : Option Nat) :
    Code.Stmt :=
  match site.style with
  | .direct => .forLoop control (first.checked type) last step body exit
  | .accessor =>
      .countLoop control (first.checked type) last step
        ((step.next (.load control)).checked type) body exit

/-! ## Selections -/

/-- The labels of a group that are single values. -/
def CaseLabel.lowerSingles (site : Site) : List CaseLabel → Except Fault (List String)
  | [] => .ok []
  | .range _ :: rest => lowerSingles site rest
  | .integer value :: rest => do
      return Code.Literal.signed value :: (← lowerSingles site rest)
  | .enumerated value :: rest => do
      let label ← site.enumerated value
      return label :: (← lowerSingles site rest)

/-- The labels of a group that are ranges. -/
def CaseLabel.lowerRanges (labels : List CaseLabel) : List (String × String) :=
  labels.filterMap fun
    | .range bounds =>
        some (Code.Literal.signed bounds.start, Code.Literal.signed bounds.stop)
    | .integer _ | .enumerated _ => none

/-! ## Statements -/

/-- Text of the program itself. -/
def Site.code (site : Site) (text : String) : Code.Stmt :=
  match site.style with
  | .direct => .code text
  | .accessor => .accessorCode text

section Lower

variable (site : Site)

mutual

/-- Lowers a statement at a depth, given the loops and selections around it. -/
def Stmt.lower (depth : Nat) (around : List Breakable) : Stmt → Lower Code.Stmt
  | .assign target value => do
      let type ← site.context.variableType site.scope target
      let value ← value.lower site depth
      let place ← target.lower site depth
      return .store ⟨place, value.checked type⟩
  | .invoke block arguments => site.lowerInvoke depth block arguments
  | .ifElse condition body elseIfs otherwise => do
      let condition ← condition.lower site depth
      let body ← Stmt.lowerList (depth + 1) around body
      let elseIfs ← ElseIf.lowerList depth around elseIfs
      let otherwise ← Stmt.lowerList (depth + 1) around otherwise
      return .ifElse condition body elseIfs otherwise
  | .select selector groups otherwise => do
      let type ← site.typeOf selector
      let selector ← selector.lower site depth
      let around := .selection :: around
      let cases ← CaseGroup.lowerCases (depth + 3) around groups
      let ranges ← CaseGroup.lowerRanges (depth + 4) around groups
      let otherwise ←
        Stmt.lowerList (if ranges.isEmpty then depth + 3 else depth + 4) around otherwise
      return .select type.cName selector cases ranges otherwise
  | .forTo control first last step body => do
      let number ← Lower.nextLoop
      let control := Variable.named control
      let type ← site.context.variableType site.scope control
      let first ← first.lower site depth
      let last ← last.lower site depth
      let step ← site.lowerStep depth step
      let place ← control.lower site depth
      let body ← Stmt.lowerList (depth + 1) (.loop number :: around) body
      return site.countingLoop type place first last step body (← Lower.exit? number)
  | .whileDo condition body => do
      let condition ← condition.lower site depth
      let number ← Lower.nextLoop
      let body ← Stmt.lowerList (depth + 1) (.loop number :: around) body
      return .whileLoop condition body (← Lower.exit? number)
  | .repeatUntil body condition => do
      let number ← Lower.nextLoop
      let body ← Stmt.lowerList (depth + 1) (.loop number :: around) body
      let condition ← condition.lower site depth
      return .untilLoop body condition (← Lower.exit? number)
  | .leaveUnit => pure .leaveUnit
  | .leaveLoop =>
      match Breakable.jumpTarget? false around with
      | none => pure .leaveLoop
      | some loop => do
          Lower.jump loop
          return .jumpOut loop
  | .pragma directive =>
      match directive with
      | .code text => pure (site.code text)
      | .enable => do
          Lower.switch true
          return .switch true
      | .disable => do
          Lower.switch false
          return .switch false

def Stmt.lowerList (depth : Nat) (around : List Breakable) :
    List Stmt → Lower (List Code.Stmt)
  | [] => pure []
  | stmt :: stmts => do
      let first ← stmt.lower depth around
      return first :: (← Stmt.lowerList depth around stmts)

def ElseIf.lowerList (depth : Nat) (around : List Breakable) :
    List ElseIf → Lower (List Code.Branch)
  | [] => pure []
  | .mk condition body :: elseIfs => do
      let condition ← condition.lower site depth
      let body ← Stmt.lowerList (depth + 1) around body
      return .mk condition body :: (← ElseIf.lowerList depth around elseIfs)

/-- The groups that have single values as labels. -/
def CaseGroup.lowerCases (depth : Nat) (around : List Breakable) :
    List CaseGroup → Lower (List Code.Case)
  | [] => pure []
  | .mk labels body :: groups => do
      match (← CaseLabel.lowerSingles site labels) with
      | [] => CaseGroup.lowerCases depth around groups
      | singles =>
          let body ← Stmt.lowerList depth around body
          return .mk singles body :: (← CaseGroup.lowerCases depth around groups)

/-- The groups that have ranges as labels. -/
def CaseGroup.lowerRanges (depth : Nat) (around : List Breakable) :
    List CaseGroup → Lower (List Code.RangeCase)
  | [] => pure []
  | .mk labels body :: groups =>
      match CaseLabel.lowerRanges labels with
      | [] => CaseGroup.lowerRanges depth around groups
      | ranges => do
          let body ← Stmt.lowerList depth around body
          return .mk ranges body :: (← CaseGroup.lowerRanges depth around groups)

end

theorem Stmt.lower_invoke (depth : Nat) (around : List Breakable) (block : Ident)
    (arguments : List Argument) :
    (Stmt.invoke block arguments).lower site depth around =
      site.lowerInvoke depth block arguments := by
  rw [Stmt.lower]

end Lower

end StructuredText
