import Mathlib.Data.List.Infix
import StructuredText.Proofs.Code.Reading
import StructuredText.Proofs.Lowering.Call
import StructuredText.Proofs.Lowering.Output
import StructuredText.Proofs.Lowering.Protocol

/-!
# Operators of expressions

An expression of a function has an operator tree: its operators stand for operators of
generated code, or for functions where the types ask for these.  The text of the lowered
expression is read as this tree, wherever it stands.
-/

set_option autoImplicit false

namespace StructuredText

open Code (OperatorTree BinaryOp)

/-! ## What operators stand for -/

def enabledTree : OperatorTree := .call (.name "__BOOL_LITERAL") [.name "TRUE"]

def relationTree (type : DataType) (function : String) (op : BinaryOp)
    (left right : OperatorTree) : OperatorTree :=
  if type.isTime || type.isDate || type.isString then
    .call (.name (function ++ "_" ++ type.resolved.cName))
      [enabledTree, .name "NULL", .constant "2", left, right]
  else .binary op left right

def CompareOp.tree (op : CompareOp) (leftType rightType : DataType)
    (left right : OperatorTree) : OperatorTree :=
  let isLogical := leftType.isBool || rightType.isBool
  match op with
  | .or => .binary (if isLogical then .logicalOr else .bitOr) left right
  | .and => .binary (if isLogical then .logicalAnd else .bitAnd) left right
  | .xor =>
      if isLogical then
        .binary .logicalOr (.binary .logicalAnd left (.prefixed .logicalNot right))
          (.binary .logicalAnd (.prefixed .logicalNot left) right)
      else .binary .bitXor left right
  | .eq => relationTree leftType "EQ" .eq left right
  | .ne => relationTree leftType "NE" .ne left right
  | .lt => relationTree leftType "LT" .lt left right
  | .gt => relationTree leftType "GT" .gt left right
  | .le => relationTree leftType "LE" .le left right
  | .ge => relationTree leftType "GE" .ge left right

/-- An arithmetic operation.  The remainder by zero is zero. -/
def ArithOp.tree (op : ArithOp) (leftType rightType : DataType)
    (left right : OperatorTree) : OperatorTree :=
  let isTemporal := leftType.isTime || leftType.isDate
  match op with
  | .add =>
      if isTemporal then .call (.name "__time_add") [left, right] else .binary .add left right
  | .sub =>
      if isTemporal then .call (.name "__time_sub") [left, right] else .binary .sub left right
  | .mul =>
      if leftType.isTime || rightType.isTime then .call (.name "__time_mul") [left, right]
      else .binary .mul left right
  | .div =>
      if leftType.isTime then .call (.name "__time_div") [left, right]
      else .binary .div left right
  | .mod =>
      .choose (.binary .eq right (.constant "0")) (.constant "0") (.binary .rem left right)
  | .pow =>
      .call (.name "EXPT__LREAL__LREAL__LREAL")
        [.cast "BOOL" enabledTree, .name "NULL", .cast "LREAL" left, .cast "LREAL" right]

def UnaryOp.tree (op : UnaryOp) (type : DataType) (term : OperatorTree) : OperatorTree :=
  match op with
  | .neg => .prefixed .minus term
  | .not => .prefixed (if type.isBool then .logicalNot else .complement) term

def DataType.checkTree (type : DataType) (value : OperatorTree) : OperatorTree :=
  if type.isSubrange then .call (.name ("__CHECK_" ++ type.resolved.cName)) [value] else value

/-- What an argument stands for: by value, and by pointer if it is a variable. -/
structure ArgumentTree where
  value : Option OperatorTree
  pointer : Option OperatorTree

def BoundParameter.argumentTree? (bound : BoundParameter) (trees : List ArgumentTree) :
    Option ArgumentTree :=
  match bound.actual with
  | some (.input index _) | some (.output index _) => trees[index]?
  | none => none

/-- What a call passes: values are converted to the types of the parameters, and an output
that is left open gets no place. -/
def CallSlot.tree? (trees : List ArgumentTree) : CallSlot → Option OperatorTree
  | .count number => some (.cast "UINT" (.constant (toString number)))
  | .given bound =>
      match bound.parameter.direction with
      | .input => do
          let value ←
            match bound.actual with
            | none => bound.parameter.defaultValue.toOption.map Code.Literal.tree
            | some _ => (bound.argumentTree? trees).bind ArgumentTree.value
          return .cast bound.parameter.type.cName (bound.parameter.type.checkTree value)
      | .output | .inOut =>
          match bound.actual with
          | none => some (.name "NULL")
          | some _ => (bound.argumentTree? trees).bind ArgumentTree.pointer
      | .external => none

/-- A call with what its arguments stand for. -/
def CallResolution.tree? (resolution : CallResolution) (arguments : List Argument)
    (trees : List ArgumentTree) : Option OperatorTree := do
  let binding ← (Binding.make resolution.signature.parameters arguments).toOption
  let passed ←
    (CallSlot.ofBound resolution.count false binding.parameters).mapM (CallSlot.tree? trees)
  return .call (.name (resolution.signature.cName resolution.isOverloaded)) passed

/-! ## What expressions stand for -/

section Trees

variable (site : Site)

mutual

def Reference.tree? : Reference → Option OperatorTree
  | .named name => some (.name name.upper)
  | .field record name => do return .field (← record.tree?) name.upper
  | .element array subscripts => do
      Expr.subscriptTree? array 0 (.field (← array.tree?) "table") subscripts

/-- An element, given what comes before its subscripts from the one of an index on.  A
subscript counts from the lower bound of its dimension. -/
def Expr.subscriptTree? (array : Reference) :
    (index : Nat) → OperatorTree → List Expr → Option OperatorTree
  | _, head, [] => some head
  | index, head, subscript :: rest => do
      let dimension ← (site.context.dimension site.scope array index).toOption
      let offset : OperatorTree :=
        .binary .sub (← subscript.tree?) (Code.Literal.intTree dimension.lower)
      Expr.subscriptTree? array (index + 1) (.index head offset) rest

/-- The value of a variable, or the pointer to it. -/
def Variable.tree? (byPointer : Bool) : Variable → Option OperatorTree
  | .direct address =>
      some (if byPointer then .name address.cName else .prefixed .deref (.name address.cName))
  | .symbolic reference =>
      reference.tree?.map fun tree => if byPointer then .prefixed .address tree else tree

def Expr.tree? : Expr → Option OperatorTree
  | .compare op left right => do
      let leftType ← left.type? site.context site.scope
      let rightType ← right.type? site.context site.scope
      return op.tree leftType rightType (← left.tree?) (← right.tree?)
  | .arith op left right => do
      let leftType ← left.type? site.context site.scope
      let rightType ← right.type? site.context site.scope
      return op.tree leftType rightType (← left.tree?) (← right.tree?)
  | .unary op term => do
      let type ← term.type? site.context site.scope
      return op.tree type (← term.tree?)
  | .group inner => inner.tree?
  | .const value => (Code.Literal.constant value).toOption.map Code.Literal.tree
  | .enumerated value => (site.enumerated value).toOption.map Code.Literal.tree
  | .var source => source.tree? false
  | .call function arguments => do
      let resolution ← CallResolution.of? site.context site.scope function arguments
      resolution.tree? arguments (Argument.trees arguments)

def Expr.pointerTree? : Expr → Option OperatorTree
  | .var source => source.tree? true
  | _ => none

def Argument.trees : List Argument → List ArgumentTree
  | [] => []
  | .positional value :: rest =>
      { value := value.tree?, pointer := value.pointerTree? } :: Argument.trees rest
  | .named _ value :: rest =>
      { value := value.tree?, pointer := value.pointerTree? } :: Argument.trees rest
  | .output _ _ target :: rest =>
      { value := none, pointer := target.tree? true } :: Argument.trees rest

end

end Trees

/-! ## What lowered code stands for -/

theorem Code.Literal.tree_boolean : Code.Literal.tree (boolean true) = enabledTree := by
  rfl

theorem Code.Literal.tree_null : Code.Literal.tree "NULL" = .name "NULL" :=
  tree_word (by decide)

theorem CompareOp.tree_lower {op : CompareOp} {leftType rightType : DataType}
    {left right code : Code.Expr} (lowered : op.lower leftType rightType left right = .ok code) :
    code.tree = op.tree leftType rightType left.tree right.tree := by
  have two : Code.Literal.tree "2" = .constant "2" :=
    Code.Literal.tree_digits (by decide) (by decide)
  cases op with
  | or | and =>
      cases lowered
      simp [CompareOp.tree, Code.Expr.tree]
  | xor =>
      simp only [CompareOp.lower] at lowered
      split at lowered <;> cases lowered <;> simp_all [CompareOp.tree, Code.Expr.tree]
  | eq | ne | lt | gt | le | ge =>
      simp only [CompareOp.lower, CompareOp.relation?] at lowered
      split at lowered <;> cases lowered <;>
        simp_all [CompareOp.tree, relationTree, Code.Expr.tree, Code.Expr.treeList,
          Code.Literal.tree_null,
          Code.Literal.tree_boolean]

theorem ArithOp.tree_lower (op : ArithOp) (leftType rightType : DataType)
    (left right : Code.Expr) :
    (op.lower leftType rightType left right).tree =
      op.tree leftType rightType left.tree right.tree := by
  have zero : Code.Literal.tree "0" = .constant "0" :=
    Code.Literal.tree_digits (by decide) (by decide)
  cases op with
  | add | sub | mul | div =>
      simp only [ArithOp.lower, ArithOp.tree]
      split <;> simp [Code.Expr.tree, Code.Expr.treeList]
  | mod => simp [ArithOp.lower, ArithOp.tree, Code.Expr.tree, zero]
  | pow =>
      simp [ArithOp.lower, ArithOp.tree, Code.Expr.tree, Code.Expr.treeList, Code.Literal.tree_null,
        Code.Literal.tree_boolean]

theorem UnaryOp.tree_lower (op : UnaryOp) (type : DataType) (term : Code.Expr) :
    (op.lower type term).tree = op.tree type term.tree := by
  cases op with
  | neg => rfl
  | not =>
      simp only [UnaryOp.lower, UnaryOp.tree]
      split <;> simp [Code.Expr.tree]

theorem Code.Expr.tree_checked (type : DataType) (value : Code.Expr) :
    (value.checked type).tree = type.checkTree value.tree := by
  unfold Code.Expr.checked DataType.checkTree
  split <;> simp [Code.Expr.tree, Code.Expr.treeList]

/-! ## Calls -/

/-- Whenever the argument is lowered, its code stands for the trees. -/
structure Supply.Denotes (supply : Supply) (trees : ArgumentTree) : Prop where
  value : ∀ {value : Lower Code.Expr} {state after : LoweringState} {code : Code.Expr},
    supply.value = some value → value state = .ok (code, after) → trees.value = some code.tree
  pointer : ∀ {destination : Destination} {state after : LoweringState} {place : Code.Place},
    supply.destination = some destination → destination.place state = .ok (place, after) →
    trees.pointer = some (place.tree true)

theorem CallSlot.mapM_tree? {trees : List ArgumentTree} {slots : List CallSlot}
    {arguments : List Code.Expr}
    (filled : List.Forall₂ (fun slot argument => slot.tree? trees = some argument.tree) slots
      arguments) :
    slots.mapM (CallSlot.tree? trees) = some (Code.Expr.treeList arguments) := by
  induction filled with
  | nil => rfl
  | cons first rest ih => simp [first, ih, Code.Expr.treeList]

section Call

variable {arguments : List Argument} {supplies : List Supply} {trees : List ArgumentTree}
  {bound : BoundParameter} {state after : LoweringState}
  (denote : List.Forall₂ Supply.Denotes supplies trees)

include denote

theorem BoundParameter.argumentTree?_of_supply? {supply : Supply}
    (found : bound.supply? supplies = some supply) :
    ∃ tree, bound.argumentTree? trees = some tree ∧ supply.Denotes tree := by
  have atIndex : ∀ {index : Nat}, supplies[index]? = some supply →
      ∃ tree, trees[index]? = some tree ∧ supply.Denotes tree := by
    intro index given
    obtain ⟨inside, rfl⟩ := List.getElem?_eq_some_iff.mp given
    have inTrees : index < trees.length := denote.length_eq ▸ inside
    exact ⟨trees[index], List.getElem?_eq_getElem inTrees, denote.get inside inTrees⟩
  unfold supply? at found
  unfold argumentTree?
  cases actual : bound.actual with
  | none =>
      rw [actual] at found
      cases found
  | some given =>
      rw [actual] at found
      cases given with
      | input index value => exact atIndex found
      | output index target => exact atIndex found

theorem BoundParameter.tree?_of_lowerInput {value : Code.Expr}
    (isInput : bound.parameter.direction = .input)
    (run : bound.lowerInput supplies state = .ok (value, after)) :
    (CallSlot.given bound).tree? trees =
      some (.cast bound.parameter.type.cName (bound.parameter.type.checkTree value.tree)) := by
  unfold lowerInput at run
  cases actual : bound.actual with
  | none =>
      rw [actual] at run
      obtain ⟨text, middle, default, run⟩ := Lower.bind_eq_ok run
      cases run
      simp [CallSlot.tree?, isInput, actual, Lower.lift_eq_ok default, Except.toOption,
        Code.Expr.tree]
  | some given =>
      rw [actual] at run
      dsimp only at run
      cases found : (bound.supply? supplies).bind Supply.value with
      | none =>
          rw [found] at run
          cases run
      | some step =>
          rw [found] at run
          obtain ⟨supply, isSupply, isValue⟩ := Option.bind_eq_some_iff.mp found
          obtain ⟨tree, isTree, denotes⟩ := argumentTree?_of_supply? denote isSupply
          simp [CallSlot.tree?, isInput, actual, isTree, denotes.value isValue run]

theorem CallParts.add_tree {parts next : CallParts}
    (run : parts.add false arguments supplies bound state = .ok (next, after)) :
    ∃ argument, next.arguments = parts.arguments ++ [argument] ∧
      (CallSlot.given bound).tree? trees = some argument.tree := by
  unfold CallParts.add at run
  dsimp only at run
  cases direction : bound.parameter.direction with
  | input =>
      rw [direction] at run
      obtain ⟨value, middle, input, run⟩ := Lower.bind_eq_ok run
      cases run
      refine ⟨_, rfl, ?_⟩
      rw [BoundParameter.tree?_of_lowerInput denote direction input, Code.Expr.tree,
        Code.Expr.tree_checked]
  | output | inOut =>
      rw [direction] at run
      obtain ⟨destination, middle, target, run⟩ := Lower.bind_eq_ok run
      rcases BoundParameter.lowerDestination_eq_ok target with
        ⟨rfl, isOpen⟩ | ⟨given, place, actual, rfl, found⟩
      · cases run
        refine ⟨_, rfl, ?_⟩
        simp [CallSlot.tree?, direction, isOpen, Code.Expr.tree, Code.Literal.tree_null]
      · obtain ⟨code, last, placed, run⟩ := Lower.bind_eq_ok run
        cases run
        obtain ⟨supply, isSupply, isDestination⟩ := Option.bind_eq_some_iff.mp found
        obtain ⟨tree, isTree, denotes⟩ := BoundParameter.argumentTree?_of_supply? denote isSupply
        refine ⟨_, rfl, ?_⟩
        simp [CallSlot.tree?, direction, actual, isTree, denotes.pointer isDestination placed,
          Code.Expr.tree]
  | external =>
      rw [direction] at run
      cases run

theorem CallResolution.tree?_of_lower {site : Site} {depth : Nat} {resolution : CallResolution}
    {function : Ident} {code : Code.Expr} (direct : site.style = .direct)
    (run : resolution.lower site depth function arguments supplies state = .ok (code, after)) :
    resolution.tree? arguments trees = some code.tree := by
  obtain ⟨-, binding, made, lowered⟩ := lowered_of_lower run
  cases lowered with
  | throughHelper isAccessor numbered added helped =>
      rw [direct] at isAccessor
      cases isAccessor
  | @direct parts _ isPlain added =>
      have counts : (CallSlot.count resolution.count).tree? trees =
          some (Code.Expr.cast "UINT" (.atom (toString resolution.count))).tree := by
        rw [CallSlot.tree?, Code.Expr.tree, Code.Expr.tree, Code.Literal.tree_toString_nat]
      have passed : List.Forall₂ (fun slot argument => slot.tree? trees = some argument.tree)
          ([] ++ CallSlot.ofBound resolution.count false binding.parameters) parts.arguments :=
        CallParts.addAll_direct counts (CallParts.add_tree denote) .nil added
      rw [List.nil_append] at passed
      simp [CallResolution.tree?, made, Except.toOption, Code.Expr.tree,
        CallSlot.mapM_tree? passed]

end Call

/-! ## Expressions -/

section Lower

variable {site : Site}

-- An argument is lowered only if a parameter is bound to it, so what is said of arguments is
-- said of every run that they may have.
mutual

theorem Reference.tree?_of_lowerPath (direct : site.style = .direct) :
    ∀ (reference : Reference) {depth : Nat} {state after : LoweringState} {path : Code.Path},
      reference.lowerPath site depth state = .ok (path, after) →
      reference.tree? site = some (path.tree (.name reference.root.upper))
  | .named name, depth, state, after, path, run => by
      rw [Reference.lowerPath] at run
      cases run
      rfl
  | .field record name, depth, state, after, path, run => by
      rw [Reference.lowerPath] at run
      obtain ⟨before, middle, recordRun, run⟩ := Lower.bind_eq_ok run
      cases run
      simp [Reference.tree?, Reference.root, Code.Path.tree,
        record.tree?_of_lowerPath direct recordRun]
  | .element array subscripts, depth, state, after, path, run => by
      rw [Reference.lowerPath] at run
      obtain ⟨before, middle, arrayRun, run⟩ := Lower.bind_eq_ok run
      obtain ⟨values, last, subscriptsRun, run⟩ := Lower.bind_eq_ok run
      cases run
      simp [Reference.tree?, Reference.root, Code.Path.tree,
        array.tree?_of_lowerPath direct arrayRun,
        Expr.subscriptTree?_of_lowerSubscripts direct subscripts subscriptsRun]

theorem Expr.subscriptTree?_of_lowerSubscripts (direct : site.style = .direct) :
    ∀ (subscripts : List Expr) {depth : Nat} {array : Reference} {index : Nat}
      {head : OperatorTree} {state after : LoweringState} {values : List Code.Subscript},
      Expr.lowerSubscripts site depth array index subscripts state = .ok (values, after) →
      Expr.subscriptTree? site array index head subscripts =
        some (Code.Subscript.tree head values)
  | [], depth, array, index, head, state, after, values, run => by
      rw [Expr.lowerSubscripts] at run
      cases run
      rfl
  | subscript :: rest, depth, array, index, head, state, after, values, run => by
      rw [Expr.lowerSubscripts] at run
      obtain ⟨dimension, first, dimensionRun, run⟩ := Lower.bind_eq_ok run
      obtain ⟨value, second, valueRun, run⟩ := Lower.bind_eq_ok run
      obtain ⟨others, third, restRun, run⟩ := Lower.bind_eq_ok run
      cases run
      rw [Code.Subscript.tree, Code.Literal.tree_toString_int]
      simp [Expr.subscriptTree?, Lower.lift_eq_ok dimensionRun, Except.toOption,
        subscript.tree?_of_lower direct valueRun,
        Expr.subscriptTree?_of_lowerSubscripts direct rest restRun]

theorem Variable.tree?_of_lower (direct : site.style = .direct) :
    ∀ (source : Variable) {depth : Nat} {state after : LoweringState} {place : Code.Place}
      (byPointer : Bool), source.lower site depth state = .ok (place, after) →
      source.tree? site byPointer = some (place.tree byPointer)
  | .direct address, depth, state, after, place, byPointer, run => by
      rw [Variable.lower, direct] at run
      cases run
      rfl
  | .symbolic reference, depth, state, after, place, byPointer, run => by
      rw [Variable.lower] at run
      obtain ⟨entry, first, -, run⟩ := Lower.bind_eq_ok run
      rw [direct] at run
      obtain ⟨path, second, pathRun, run⟩ := Lower.bind_eq_ok run
      cases run
      simp [Variable.tree?, reference.tree?_of_lowerPath direct pathRun, Code.Place.tree]

/-- The code of an expression stands for its operator tree. -/
theorem Expr.tree?_of_lower (direct : site.style = .direct) :
    ∀ (expr : Expr) {depth : Nat} {state after : LoweringState} {code : Code.Expr},
      expr.lower site depth state = .ok (code, after) → expr.tree? site = some code.tree
  | .compare op left right, depth, state, after, code, run => by
      obtain ⟨leftType, rightType, left', middle, right', leftTyped, rightTyped, leftRun, rightRun,
        compared⟩ := Expr.lowered_compare run
      rw [CompareOp.tree_lower compared]
      simp [Expr.tree?, leftTyped, rightTyped, left.tree?_of_lower direct leftRun,
        right.tree?_of_lower direct rightRun]
  | .arith op left right, depth, state, after, code, run => by
      obtain ⟨leftType, rightType, left', middle, right', leftTyped, rightTyped, leftRun, rightRun,
        rfl⟩ := Expr.lowered_arith run
      simp [Expr.tree?, leftTyped, rightTyped, left.tree?_of_lower direct leftRun,
        right.tree?_of_lower direct rightRun, ArithOp.tree_lower]
  | .unary op term, depth, state, after, code, run => by
      obtain ⟨type, term', typed, termRun, rfl⟩ := Expr.lowered_unary run
      simp [Expr.tree?, typed, term.tree?_of_lower direct termRun, UnaryOp.tree_lower]
  | .group inner, depth, state, after, code, run => by
      rw [Expr.lower] at run
      rw [Expr.tree?]
      exact inner.tree?_of_lower direct run
  | .const value, depth, state, after, code, run => by
      obtain ⟨text, written, -, rfl⟩ := Expr.lowered_const run
      rw [Expr.tree?, written]
      rfl
  | .enumerated value, depth, state, after, code, run => by
      obtain ⟨text, written, -, rfl⟩ := Expr.lowered_enumerated run
      rw [Expr.tree?, written]
      rfl
  | .var source, depth, state, after, code, run => by
      obtain ⟨place, placed, rfl⟩ := Expr.lowered_var run
      rw [Expr.tree?, Code.Expr.tree]
      exact source.tree?_of_lower direct false placed
  | .call function arguments, depth, state, after, code, run => by
      obtain ⟨resolution, found, callRun⟩ := Expr.lowered_call run
      have denote := Argument.denote_supplies direct arguments (depth + 1)
      simp [Expr.tree?, found, CallResolution.tree?_of_lower denote direct callRun]

theorem Expr.pointerTree?_of_destination? (direct : site.style = .direct) :
    ∀ (expr : Expr) {depth : Nat} {destination : Destination} {state after : LoweringState}
      {place : Code.Place}, expr.destination? site depth = some destination →
      destination.place state = .ok (place, after) →
      expr.pointerTree? site = some (place.tree true)
  | .var source, depth, destination, state, after, place, found, run => by
      rw [Expr.destination?] at found
      cases found
      rw [Expr.pointerTree?]
      exact source.tree?_of_lower direct true run
  | .compare .., _, _, _, _, _, found, _ | .arith .., _, _, _, _, _, found, _
  | .unary .., _, _, _, _, _, found, _ | .group _, _, _, _, _, _, found, _
  | .const _, _, _, _, _, _, found, _ | .enumerated _, _, _, _, _, _, found, _
  | .call .., _, _, _, _, _, found, _ => by cases found

theorem Argument.denote_supplies (direct : site.style = .direct) :
    ∀ (arguments : List Argument) (depth : Nat),
      List.Forall₂ Supply.Denotes (Argument.supplies site depth arguments)
        (Argument.trees site arguments)
  | [], depth => .nil
  | .positional value :: rest, depth => by
      rw [Argument.supplies, Argument.trees]
      refine .cons ⟨?_, ?_⟩ (Argument.denote_supplies direct rest depth)
      · rintro _ state after code ⟨⟩ run
        exact value.tree?_of_lower direct run
      · exact value.pointerTree?_of_destination? direct
  | .named _ value :: rest, depth => by
      rw [Argument.supplies, Argument.trees]
      refine .cons ⟨?_, ?_⟩ (Argument.denote_supplies direct rest depth)
      · rintro _ state after code ⟨⟩ run
        exact value.tree?_of_lower direct run
      · exact value.pointerTree?_of_destination? direct
  | .output _ _ target :: rest, depth => by
      rw [Argument.supplies, Argument.trees]
      refine .cons ⟨nofun, ?_⟩ (Argument.denote_supplies direct rest depth)
      rintro _ state after place ⟨⟩ run
      exact target.tree?_of_lower direct true run

end

end Lower

/-! ## No expression is a conversion -/

theorem CompareOp.isCast_tree (op : CompareOp) (leftType rightType : DataType)
    (left right : OperatorTree) : (op.tree leftType rightType left right).isCast = false := by
  cases op with
  | or | and => rfl
  | xor =>
      simp only [CompareOp.tree]
      split <;> rfl
  | eq | ne | lt | gt | le | ge =>
      simp only [CompareOp.tree, relationTree]
      split <;> rfl

theorem ArithOp.isCast_tree (op : ArithOp) (leftType rightType : DataType)
    (left right : OperatorTree) : (op.tree leftType rightType left right).isCast = false := by
  cases op with
  | add | sub | mul | div =>
      simp only [ArithOp.tree]
      split <;> rfl
  | mod | pow => rfl

section NoCast

variable {site : Site} {tree : OperatorTree}

theorem Expr.isCast_of_subscriptTree? {array : Reference} {subscripts : List Expr} :
    ∀ {index : Nat} {head : OperatorTree}, head.isCast = false →
      Expr.subscriptTree? site array index head subscripts = some tree →
      tree.isCast = false := by
  induction subscripts with
  | nil =>
      intro index head noCast found
      cases found
      exact noCast
  | cons subscript rest ih =>
      intro index head noCast found
      rw [Expr.subscriptTree?] at found
      obtain ⟨dimension, -, found⟩ := Option.bind_eq_some_iff.mp found
      obtain ⟨value, -, found⟩ := Option.bind_eq_some_iff.mp found
      exact ih rfl found

theorem Reference.isCast_of_tree? {reference : Reference}
    (found : reference.tree? site = some tree) : tree.isCast = false := by
  cases reference with
  | named name =>
      cases found
      rfl
  | field record name =>
      rw [Reference.tree?] at found
      obtain ⟨inner, -, found⟩ := Option.bind_eq_some_iff.mp found
      cases found
      rfl
  | element array subscripts =>
      rw [Reference.tree?] at found
      obtain ⟨inner, -, found⟩ := Option.bind_eq_some_iff.mp found
      exact Expr.isCast_of_subscriptTree? rfl found

theorem Expr.isCast_of_tree? :
    ∀ {expr : Expr}, expr.tree? site = some tree → tree.isCast = false
  | .compare op left right, found => by
      rw [Expr.tree?] at found
      obtain ⟨leftType, -, found⟩ := Option.bind_eq_some_iff.mp found
      obtain ⟨rightType, -, found⟩ := Option.bind_eq_some_iff.mp found
      obtain ⟨leftTree, -, found⟩ := Option.bind_eq_some_iff.mp found
      obtain ⟨rightTree, -, found⟩ := Option.bind_eq_some_iff.mp found
      cases found
      exact op.isCast_tree ..
  | .arith op left right, found => by
      rw [Expr.tree?] at found
      obtain ⟨leftType, -, found⟩ := Option.bind_eq_some_iff.mp found
      obtain ⟨rightType, -, found⟩ := Option.bind_eq_some_iff.mp found
      obtain ⟨leftTree, -, found⟩ := Option.bind_eq_some_iff.mp found
      obtain ⟨rightTree, -, found⟩ := Option.bind_eq_some_iff.mp found
      cases found
      exact op.isCast_tree ..
  | .unary op term, found => by
      rw [Expr.tree?] at found
      obtain ⟨type, -, found⟩ := Option.bind_eq_some_iff.mp found
      obtain ⟨termTree, -, found⟩ := Option.bind_eq_some_iff.mp found
      cases found
      cases op <;> rfl
  | .group inner, found => by
      rw [Expr.tree?] at found
      exact inner.isCast_of_tree? found
  | .const value, found | .enumerated value, found => by
      rw [Expr.tree?] at found
      obtain ⟨text, -, rfl⟩ := Option.map_eq_some_iff.mp found
      exact Code.Literal.isCast_tree text
  | .var (.direct address), found => by
      rw [Expr.tree?, Variable.tree?] at found
      cases found
      rfl
  | .var (.symbolic reference), found => by
      rw [Expr.tree?, Variable.tree?] at found
      obtain ⟨inner, isTree, rfl⟩ := Option.map_eq_some_iff.mp found
      exact Reference.isCast_of_tree? isTree
  | .call function arguments, found => by
      rw [Expr.tree?] at found
      obtain ⟨resolution, -, found⟩ := Option.bind_eq_some_iff.mp found
      rw [CallResolution.tree?] at found
      obtain ⟨binding, -, found⟩ := Option.bind_eq_some_iff.mp found
      obtain ⟨passed, -, found⟩ := Option.bind_eq_some_iff.mp found
      cases found
      rfl

end NoCast

/-! ## Texts of expressions -/

open Code.Grammar (ReadsExpr ReadsUnary startsPostfix)
open Code.Lexer (lex scan isBreak)

/-- The text of an expression that is lowered where variables have names is read as the
operator tree of the expression, if the names in the tree are identifiers and name types
exactly in conversions.  It is an operand that is no conversion: this is how it is read
before whatever does not go on with it, and its tokens stay the same between complete
tokens and a break. -/
theorem Expr.text_reads_as_tree {site : Site} {expr : Expr} {depth : Nat}
    {state after : LoweringState} {code : Code.Expr} (direct : site.style = .direct)
    (run : expr.lower site depth state = .ok (code, after)) :
    ∃ tree, expr.tree? site = some tree ∧ tree.isCast = false ∧
      ∀ isType, tree.fits isType = true → ∀ width depth, ∃ tokens,
        lex (Code.Piece.renderAll width (code.print depth)).toList = some tokens ∧
        ReadsExpr isType tokens tree [] ∧
        (∀ rest, startsPostfix rest = false → ReadsUnary isType (tokens ++ rest) tree rest) ∧
        ∀ before earlier char more further, scan .nothing before = some (earlier, .nothing) →
          isBreak char = true → lex (char :: more) = some further →
          lex (before ++ (Code.Piece.renderAll width (code.print depth)).toList ++ char :: more) =
            some (earlier ++ tokens ++ further) := by
  have isTree := expr.tree?_of_lower direct run
  refine ⟨code.tree, isTree, Expr.isCast_of_tree? isTree, fun isType fits width depth => ?_⟩
  obtain ⟨tokens, spells, reads⟩ := code.isOperand_print depth fits
  rw [Code.Expr.toList_renderAll_print]
  refine ⟨tokens, spells.lex, ?_, reads, ?_⟩
  · have whole := reads [] rfl
    rw [List.append_nil] at whole
    exact .unary whole rfl
  · intro before earlier char more further complete breaks follows
    exact spells.lex_between complete breaks follows

def clampContext : Context where
  types := TypeTable.elementary.push "Level" (.synonym "Level" (.elementary .int))
  functions := FunctionTable.addFunction {}
    { name := "Clamp", returnType := .elementary .int
      parameters := Parameter.implicit ++
        [{ name := "X", type := .synonym "Level" (.elementary .int) }] }

def clampSite (vars : List VarDecl) : Site where
  context := clampContext
  scope := (Scope.declare clampContext (functionOuterScope "F" (.elementary .int)).push vars).1
  style := .direct
  unit := "F"

def clampTypes (hidden : List String) (name : String) : Bool :=
  ["BOOL", "INT", "LEVEL"].contains name && !hidden.contains name

def clampedTotal : Expr :=
  .arith .sub (.ofInt (-5))
    (.call "Clamp"
      [.positional (.unary .neg (.group (.arith .mod (.named "total") (.ofInt (-3)))))])

theorem clampedTotal_lowers :
    (clampedTotal.lower (clampSite [.simple "total" "INT"]) 1 {}).isOk = true := by
  decide +kernel

theorem clampedTotal_fits : (clampedTotal.tree? (clampSite [.simple "total" "INT"])).all
    (OperatorTree.fits (clampTypes ["TOTAL"])) = true := by
  decide +kernel

theorem Expr.text_reads_as_tree_clampedTotal :
    ∃ code after tree tokens,
      clampedTotal.lower (clampSite [.simple "total" "INT"]) 1 {} = .ok (code, after) ∧
      clampedTotal.tree? (clampSite [.simple "total" "INT"]) = some tree ∧
      tree.fits (clampTypes ["TOTAL"]) = true ∧
      lex (Code.Piece.renderAll 2 (code.print 1)).toList = some tokens ∧
      ReadsExpr (clampTypes ["TOTAL"]) tokens tree [] := by
  have lowers := clampedTotal_lowers
  cases run : clampedTotal.lower (clampSite [.simple "total" "INT"]) 1 {} with
  | error fault =>
      rw [run] at lowers
      cases lowers
  | ok result =>
      obtain ⟨code, after⟩ := result
      obtain ⟨tree, isTree, -, reads⟩ := Expr.text_reads_as_tree rfl run
      have fits := clampedTotal_fits
      rw [isTree] at fits
      obtain ⟨tokens, lexed, whole, -⟩ := reads (clampTypes ["TOTAL"]) fits 2 1
      exact ⟨code, after, tree, tokens, rfl, isTree, fits, lexed, whole⟩

def shadowing : Library where
  elements :=
    [.type (.synonym "Level" "INT"),
      .function
        { name := "Clamp", returnType := "INT"
          vars := [{ VarDecl.simple "X" "Level" with kind := .input }]
          body := [.copy "Clamp" "X"] },
      .function
        { name := "F", returnType := "INT"
          vars := [.simple "Level" "Level"]
          body := [.assign (.named "F") (.call "Clamp" [.positional (.ofInt (-5))])] }]

def clampPieces : List Code.Piece :=
  [.text "CLAMP(", .text "(BOOL)", .text "__BOOL_LITERAL(TRUE)", .text ",\n", .margin 2,
    .text "NULL", .text ",\n", .margin 2, .text "(LEVEL)", .text "-5", .text ")"]

def clampTree (value : OperatorTree) : OperatorTree :=
  .call (.name "CLAMP") [.cast "BOOL" enabledTree, .name "NULL", value]

theorem clampCall_misfits : ((Expr.call "Clamp" [.positional (.ofInt (-5))]).tree?
    (clampSite [.simple "Level" "Level"])).any
      (fun tree => !tree.fits (clampTypes ["LEVEL"])) = true := by
  decide +kernel

theorem shadowing_written : (shadowing.written?.map fun pieces =>
    pieces.contains (.text "LEVEL LEVEL = 0;\n") && decide (clampPieces <:+: pieces)) =
      some true := by
  decide +kernel

def clampTokens : List Code.Token :=
  [.word "CLAMP", .openParen, .openParen, .word "BOOL", .closeParen, .word "__BOOL_LITERAL",
    .openParen, .word "TRUE", .closeParen, .comma, .word "NULL", .comma, .openParen,
    .word "LEVEL", .closeParen, .sign .minus, .number "5", .closeParen]

open Code.Grammar (ReadsPostfix ReadsArguments) in
/-- With the variable in scope, the brackets around its name are an operand. -/
theorem clampTokens_read : ReadsExpr (clampTypes ["LEVEL"]) clampTokens
    (clampTree (.binary .sub (.name "LEVEL") (.constant "5"))) [] := by
  have truth : ReadsArguments (clampTypes ["LEVEL"]) (clampTokens.drop 7) [.name "TRUE"]
      (clampTokens.drop 9) := .last (.unary (.name rfl (.stop rfl)) rfl)
  have enabled : ReadsExpr (clampTypes ["LEVEL"]) (clampTokens.drop 2)
      (.cast "BOOL" enabledTree) (clampTokens.drop 9) :=
    .unary (.cast rfl (.name rfl (.call truth (.stop rfl)))) rfl
  have null : ReadsExpr (clampTypes ["LEVEL"]) (clampTokens.drop 10) (.name "NULL")
      (clampTokens.drop 11) := .unary (.name rfl (.stop rfl)) rfl
  have level : ReadsUnary (clampTypes ["LEVEL"]) (clampTokens.drop 12) (.name "LEVEL")
      (clampTokens.drop 15) := .paren (.unary (.name rfl (.stop rfl)) rfl) (.stop rfl)
  have difference : ReadsExpr (clampTypes ["LEVEL"]) (clampTokens.drop 12)
      (.binary .sub (.name "LEVEL") (.constant "5")) (clampTokens.drop 17) :=
    .binary rfl level (.number (.stop rfl)) rfl
  have arguments := ReadsArguments.cons enabled (.cons null (.last difference))
  exact .unary (.name rfl (.call arguments (.stop rfl))) rfl

/-- The conversion of the argument is read as a difference from the variable. -/
theorem Library.conversion_read_as_difference :
    (∃ pieces, shadowing.written? = some pieces ∧ .text "LEVEL LEVEL = 0;\n" ∈ pieces ∧
      clampPieces <:+: pieces) ∧
    ∃ tree tokens,
      (Expr.call "Clamp" [.positional (.ofInt (-5))]).tree?
        (clampSite [.simple "Level" "Level"]) = some tree ∧
      lex (Code.Piece.renderAll 2 clampPieces).toList = some tokens ∧
      ReadsExpr (clampTypes ["LEVEL"]) tokens
        (clampTree (.binary .sub (.name "LEVEL") (.constant "5"))) [] ∧
      ¬ReadsExpr (clampTypes ["LEVEL"]) tokens tree [] := by
  obtain ⟨tree, isTree, misfits⟩ := (Option.any_eq_true _ _).mp clampCall_misfits
  refine ⟨?_, tree, clampTokens, isTree, by decide +kernel, clampTokens_read, fun reads => ?_⟩
  · obtain ⟨pieces, found, both⟩ := Option.map_eq_some_iff.mp shadowing_written
    refine ⟨pieces, found, ?_⟩
    simpa using both
  · have same := (reads.unique clampTokens_read).1
    rw [same] at misfits
    exact absurd misfits (by decide)

end StructuredText
