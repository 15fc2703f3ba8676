import StructuredText.Proofs.Code.Lexer

/-!
# How expressions are read

Tokens are read as an expression by the precedence of the operators: brackets, calls and
subscripts bind tightest, then what stands before an operand, then the operators between
operands level by level, and the choice between two values binds loosest.  Whether brackets
around a word are a conversion depends on whether the word names a type.
-/

set_option autoImplicit false

namespace StructuredText.Code

inductive PrefixOp where
  | plus | minus | logicalNot | complement | deref | address
deriving DecidableEq, Repr

inductive OperatorTree where
  | name (text : String)
  | constant (text : String)
  | prefixed (op : PrefixOp) (term : OperatorTree)
  | binary (op : BinaryOp) (left right : OperatorTree)
  | choose (condition yes no : OperatorTree)
  | cast (type : String) (value : OperatorTree)
  | call (function : OperatorTree) (arguments : List OperatorTree)
  | field (record : OperatorTree) (name : String)
  | index (array subscript : OperatorTree)
  /-- Text that is no constant. -/
  | unread (text : String)

def Sign.prefixOp? : Sign → Option PrefixOp
  | plus => some .plus
  | minus => some .minus
  | bang => some .logicalNot
  | tilde => some .complement
  | star => some .deref
  | amp => some .address
  | _ => none

def Sign.binaryOp? : Sign → Option BinaryOp
  | plus => some .add
  | minus => some .sub
  | star => some .mul
  | slash => some .div
  | percent => some .rem
  | eq => some .eq
  | ne => some .ne
  | lt => some .lt
  | gt => some .gt
  | le => some .le
  | ge => some .ge
  | andAnd => some .logicalAnd
  | orOr => some .logicalOr
  | amp => some .bitAnd
  | bar => some .bitOr
  | caret => some .bitXor
  | bang | tilde => none

/-- The higher the level, the tighter an operator binds. -/
def BinaryOp.precedence : BinaryOp → Nat
  | logicalOr => 1
  | logicalAnd => 2
  | bitOr => 3
  | bitXor => 4
  | bitAnd => 5
  | eq | ne => 6
  | lt | gt | le | ge => 7
  | add | sub => 9
  | mul | div | rem => 10

namespace Grammar

section Read

variable (isType : String → Bool)

def castType? : List Token → Option (String × List Token)
  | .word type :: .closeParen :: rest => if isType type then some (type, rest) else none
  | _ => none

mutual

def readUnary : Nat → List Token → Option (OperatorTree × List Token)
  | 0, _ => none
  | fuel + 1, .sign sign :: rest => do
      let op ← sign.prefixOp?
      let (term, rest) ← readUnary fuel rest
      return (.prefixed op term, rest)
  | fuel + 1, .openParen :: rest =>
      match castType? isType rest with
      | some (type, rest) => do
          let (value, rest) ← readUnary fuel rest
          return (.cast type value, rest)
      | none => do
          match (← readExpr fuel rest) with
          | (inner, .closeParen :: rest) => readPostfix fuel inner rest
          | _ => none
  | fuel + 1, .word name :: rest =>
      if isType name then none else readPostfix fuel (.name name) rest
  | fuel + 1, .number text :: rest => readPostfix fuel (.constant text) rest
  | fuel + 1, .quoted text :: rest => readPostfix fuel (.constant text) rest
  | _, _ => none

def readPostfix : Nat → OperatorTree → List Token → Option (OperatorTree × List Token)
  | 0, _, _ => none
  | fuel + 1, head, .openParen :: .closeParen :: rest => readPostfix fuel (.call head []) rest
  | fuel + 1, head, .openParen :: rest => do
      let (arguments, rest) ← readArguments fuel rest
      readPostfix fuel (.call head arguments) rest
  | fuel + 1, head, .openBracket :: rest => do
      match (← readExpr fuel rest) with
      | (subscript, .closeBracket :: rest) => readPostfix fuel (.index head subscript) rest
      | _ => none
  | fuel + 1, head, .dot :: .word name :: rest => readPostfix fuel (.field head name) rest
  | _ + 1, head, rest => some (head, rest)

def readArguments : Nat → List Token → Option (List OperatorTree × List Token)
  | 0, _ => none
  | fuel + 1, tokens => do
      match (← readExpr fuel tokens) with
      | (last, .closeParen :: rest) => return ([last], rest)
      | (first, .comma :: rest) =>
          let (arguments, rest) ← readArguments fuel rest
          return (first :: arguments, rest)
      | _ => none

def readExpr : Nat → List Token → Option (OperatorTree × List Token)
  | 0, _ => none
  | fuel + 1, tokens => do
      match (← readBinary fuel 0 tokens) with
      | (condition, .query :: rest) =>
          match (← readExpr fuel rest) with
          | (yes, .colon :: rest) =>
              let (no, rest) ← readExpr fuel rest
              return (.choose condition yes no, rest)
          | _ => none
      | other => return other

def readBinary : Nat → (level : Nat) → List Token → Option (OperatorTree × List Token)
  | 0, _, _ => none
  | fuel + 1, level, tokens => do
      let (left, rest) ← readUnary fuel tokens
      readOperators fuel level left rest

def readOperators :
    Nat → (level : Nat) → OperatorTree → List Token → Option (OperatorTree × List Token)
  | 0, _, _, _ => none
  | fuel + 1, level, left, .sign sign :: rest =>
      match sign.binaryOp? with
      | none => some (left, .sign sign :: rest)
      | some op =>
          if level ≤ op.precedence then do
            let (right, rest) ← readBinary fuel (op.precedence + 1) rest
            readOperators fuel level (.binary op left right) rest
          else some (left, .sign sign :: rest)
  | _ + 1, _, left, rest => some (left, rest)

end

end Read

/-- Products bind tighter than sums, and differences are taken from left to right. -/
example : (Lexer.lex "a - b * (c) - -d".toList).bind (readExpr (fun _ => false) 40) =
    some (.binary .sub (.binary .sub (.name "a") (.binary .mul (.name "b") (.name "c")))
      (.prefixed .minus (.name "d")), []) := by cbv

/-- A word in brackets is an operand unless it names a type. -/
example : (Lexer.lex "(T)-5 < x ? (U)-5 : a.t[1]".toList).bind (readExpr (· == "T") 40) =
    some (.choose (.binary .lt (.cast "T" (.prefixed .minus (.constant "5"))) (.name "x"))
      (.binary .sub (.name "U") (.constant "5"))
      (.index (.field (.name "a") "t") (.constant "1")), []) := by cbv

/-! ## Reading with enough fuel -/

/-- Holds of every amount of fuel from some amount on. -/
def WithFuel (holds : Nat → Prop) : Prop := ∃ least, ∀ fuel, least ≤ fuel → holds fuel

namespace WithFuel

variable {first second : Nat → Prop}

theorem and (early : WithFuel first) (late : WithFuel second) :
    WithFuel fun fuel => first fuel ∧ second fuel := by
  obtain ⟨one, ofOne⟩ := early
  obtain ⟨two, ofTwo⟩ := late
  exact ⟨max one two, fun fuel enough => ⟨ofOne fuel (by omega), ofTwo fuel (by omega)⟩⟩

theorem step (early : WithFuel first) (next : ∀ fuel, first fuel → second (fuel + 1)) :
    WithFuel second := by
  obtain ⟨least, holds⟩ := early
  refine ⟨least + 1, fun fuel enough => ?_⟩
  obtain ⟨rest, rfl⟩ : ∃ rest, fuel = rest + 1 := ⟨fuel - 1, by omega⟩
  exact next rest (holds rest (by omega))

theorem one (holds : ∀ fuel, second (fuel + 1)) : WithFuel second := by
  refine ⟨1, fun fuel enough => ?_⟩
  obtain ⟨rest, rfl⟩ : ∃ rest, fuel = rest + 1 := ⟨fuel - 1, by omega⟩
  exact holds rest

theorem exists_fuel (early : WithFuel first) : ∃ fuel, first fuel := by
  obtain ⟨least, holds⟩ := early
  exact ⟨least, holds least (Nat.le_refl _)⟩

end WithFuel

section Rules

variable {isType : String → Bool}

variable (isType) in
def ReadsUnary (tokens : List Token) (tree : OperatorTree) (rest : List Token) : Prop :=
  WithFuel fun fuel => readUnary isType fuel tokens = some (tree, rest)

variable (isType) in
def ReadsPostfix (head : OperatorTree) (tokens : List Token) (tree : OperatorTree)
    (rest : List Token) : Prop :=
  WithFuel fun fuel => readPostfix isType fuel head tokens = some (tree, rest)

variable (isType) in
def ReadsArguments (tokens : List Token) (trees : List OperatorTree) (rest : List Token) : Prop :=
  WithFuel fun fuel => readArguments isType fuel tokens = some (trees, rest)

variable (isType) in
def ReadsExpr (tokens : List Token) (tree : OperatorTree) (rest : List Token) : Prop :=
  WithFuel fun fuel => readExpr isType fuel tokens = some (tree, rest)

variable {tokens middle rest : List Token} {tree head inner left right : OperatorTree}
  {trees : List OperatorTree}

theorem ReadsUnary.prefixed {sign : Sign} {op : PrefixOp} (isPrefix : sign.prefixOp? = some op)
    (term : ReadsUnary isType tokens tree rest) :
    ReadsUnary isType (.sign sign :: tokens) (.prefixed op tree) rest := by
  refine term.step fun fuel reads => ?_
  simp [readUnary, isPrefix, reads]

theorem ReadsUnary.cast {type : String} (named : isType type = true)
    (value : ReadsUnary isType tokens tree rest) :
    ReadsUnary isType (.openParen :: .word type :: .closeParen :: tokens) (.cast type tree)
      rest := by
  refine value.step fun fuel reads => ?_
  simp [readUnary, castType?, named, reads]

theorem ReadsUnary.name {name : String} (noType : isType name = false)
    (postfixes : ReadsPostfix isType (.name name) tokens tree rest) :
    ReadsUnary isType (.word name :: tokens) tree rest := by
  refine postfixes.step fun fuel reads => ?_
  simp [readUnary, noType, reads]

theorem ReadsUnary.number {text : String}
    (postfixes : ReadsPostfix isType (.constant text) tokens tree rest) :
    ReadsUnary isType (.number text :: tokens) tree rest := by
  refine postfixes.step fun fuel reads => ?_
  simp [readUnary, reads]

theorem ReadsUnary.quoted {text : String}
    (postfixes : ReadsPostfix isType (.constant text) tokens tree rest) :
    ReadsUnary isType (.quoted text :: tokens) tree rest := by
  refine postfixes.step fun fuel reads => ?_
  simp [readUnary, reads]

/-- An expression that can be read does not start with a type. -/
theorem ReadsExpr.castType?_eq_none (reads : ReadsExpr isType tokens tree rest) :
    castType? isType tokens = none := by
  obtain ⟨least, reads⟩ := reads
  have enough := reads (least + 3) (by omega)
  unfold castType?
  split
  · next type others =>
      cases isName : isType type with
      | false => rfl
      | true => simp [readExpr, readBinary, readUnary, isName] at enough
  · rfl

theorem ReadsUnary.paren (reads : ReadsExpr isType tokens inner (.closeParen :: middle))
    (postfixes : ReadsPostfix isType inner middle tree rest) :
    ReadsUnary isType (.openParen :: tokens) tree rest := by
  have noCast := reads.castType?_eq_none
  refine (reads.and postfixes).step fun fuel both => ?_
  simp [readUnary, noCast, both.1, both.2]

/-- True if the operand goes on: with a call, a subscript or a field. -/
def startsPostfix : List Token → Bool
  | .openParen :: _ | .openBracket :: _ | .dot :: _ => true
  | _ => false

theorem ReadsPostfix.stop (stops : startsPostfix rest = false) :
    ReadsPostfix isType tree rest tree rest := by
  refine WithFuel.one fun fuel => ?_
  unfold startsPostfix at stops
  split at stops
  · cases stops
  · cases stops
  · cases stops
  · next noParen noBracket noDot =>
      unfold readPostfix
      split
      · contradiction
      · next same => exact absurd rfl (noParen _)
      · next same => exact absurd rfl (noParen _)
      · next same => exact absurd rfl (noBracket _)
      · next same => exact absurd rfl (noDot _)
      · simp_all

theorem ReadsPostfix.field {name : String}
    (postfixes : ReadsPostfix isType (.field head name) tokens tree rest) :
    ReadsPostfix isType head (.dot :: .word name :: tokens) tree rest := by
  refine postfixes.step fun fuel reads => ?_
  simp [readPostfix, reads]

theorem ReadsPostfix.index
    (reads : ReadsExpr isType tokens inner (.closeBracket :: middle))
    (postfixes : ReadsPostfix isType (.index head inner) middle tree rest) :
    ReadsPostfix isType head (.openBracket :: tokens) tree rest := by
  refine (reads.and postfixes).step fun fuel both => ?_
  simp [readPostfix, both.1, both.2]

theorem ReadsPostfix.callNothing
    (postfixes : ReadsPostfix isType (.call head []) tokens tree rest) :
    ReadsPostfix isType head (.openParen :: .closeParen :: tokens) tree rest := by
  refine postfixes.step fun fuel reads => ?_
  simp [readPostfix, reads]

theorem ReadsPostfix.call (reads : ReadsArguments isType tokens trees middle)
    (postfixes : ReadsPostfix isType (.call head trees) middle tree rest) :
    ReadsPostfix isType head (.openParen :: tokens) tree rest := by
  have notClosed : ∀ others, tokens ≠ .closeParen :: others := by
    rintro others rfl
    obtain ⟨least, reads⟩ := reads
    have enough := reads (least + 4) (by omega)
    simp [readArguments, readExpr, readBinary, readUnary] at enough
  refine (reads.and postfixes).step fun fuel both => ?_
  rw [readPostfix]
  · simp [both.1, both.2]
  · exact notClosed

/-- True if an expression ends before the tokens. -/
def closes : List Token → Bool
  | [] => true
  | .closeParen :: _ | .closeBracket :: _ | .comma :: _ | .colon :: _ | .semicolon :: _ => true
  | _ => false

theorem readOperators_closes (closed : closes rest = true) (fuel level : Nat) :
    readOperators isType (fuel + 1) level tree rest = some (tree, rest) := by
  unfold closes at closed
  split at closed <;> first | contradiction | simp [readOperators]

theorem readExpr_closes (closed : closes rest = true) {fuel : Nat}
    (read : readBinary isType fuel 0 tokens = some (tree, rest)) :
    readExpr isType (fuel + 1) tokens = some (tree, rest) := by
  unfold closes at closed
  split at closed <;> first | contradiction | simp [readExpr, read]

theorem ReadsUnary.binary {level : Nat} (reads : ReadsUnary isType tokens tree rest)
    (ends : ∀ fuel, readOperators isType (fuel + 1) level tree rest = some (tree, rest)) :
    WithFuel fun fuel => readBinary isType fuel level tokens = some (tree, rest) := by
  obtain ⟨least, reads⟩ := reads
  refine ⟨least + 2, fun fuel enough => ?_⟩
  obtain ⟨less, rfl⟩ : ∃ less, fuel = less + 2 := ⟨fuel - 2, by omega⟩
  simp [readBinary, reads (less + 1) (by omega), ends]

theorem ReadsExpr.unary (reads : ReadsUnary isType tokens tree rest)
    (closed : closes rest = true) : ReadsExpr isType tokens tree rest := by
  refine (reads.binary fun fuel => readOperators_closes closed fuel 0).step fun fuel read => ?_
  exact readExpr_closes closed read

theorem ReadsExpr.binary {sign : Sign} {op : BinaryOp} (isBinary : sign.binaryOp? = some op)
    (first : ReadsUnary isType tokens left (.sign sign :: middle))
    (second : ReadsUnary isType middle right rest) (closed : closes rest = true) :
    ReadsExpr isType tokens (.binary op left right) rest := by
  have later := second.binary fun fuel => readOperators_closes closed fuel (op.precedence + 1)
  have operators : WithFuel fun fuel =>
      readOperators isType fuel 0 left (.sign sign :: middle) =
        some (.binary op left right, rest) := by
    obtain ⟨least, later⟩ := later
    refine ⟨least + 2, fun fuel enough => ?_⟩
    obtain ⟨less, rfl⟩ : ∃ less, fuel = less + 2 := ⟨fuel - 2, by omega⟩
    simp [readOperators, isBinary, later (less + 1) (by omega), readOperators_closes closed]
  have whole : WithFuel fun fuel =>
      readBinary isType fuel 0 tokens = some (.binary op left right, rest) := by
    refine (WithFuel.and first operators).step fun fuel both => ?_
    simp [readBinary, both.1, both.2]
  exact whole.step fun fuel read => readExpr_closes closed read

theorem ReadsExpr.choose {condition yes no : OperatorTree} {later : List Token}
    (first : ReadsUnary isType tokens condition (.query :: middle))
    (second : ReadsExpr isType middle yes (.colon :: later))
    (third : ReadsExpr isType later no rest) :
    ReadsExpr isType tokens (.choose condition yes no) rest := by
  have whole : WithFuel fun fuel =>
      readBinary isType fuel 0 tokens = some (condition, .query :: middle) :=
    first.binary fun fuel => by simp [readOperators]
  refine ((WithFuel.and whole second).and third).step fun fuel all => ?_
  simp [readExpr, all.1.1, all.1.2, all.2]

theorem ReadsArguments.last (reads : ReadsExpr isType tokens tree (.closeParen :: rest)) :
    ReadsArguments isType tokens [tree] rest := by
  refine reads.step fun fuel read => ?_
  simp [readArguments, read]

theorem ReadsArguments.cons (reads : ReadsExpr isType tokens tree (.comma :: middle))
    (others : ReadsArguments isType middle trees rest) :
    ReadsArguments isType tokens (tree :: trees) rest := by
  refine (WithFuel.and reads others).step fun fuel both => ?_
  simp [readArguments, both.1, both.2]

theorem ReadsExpr.unique {other : OperatorTree} {rest' : List Token}
    (reads : ReadsExpr isType tokens tree rest) (again : ReadsExpr isType tokens other rest') :
    tree = other ∧ rest = rest' := by
  obtain ⟨fuel, one, two⟩ := (WithFuel.and reads again).exists_fuel
  rw [one] at two
  cases two
  exact ⟨rfl, rfl⟩

end Rules

end Grammar

end StructuredText.Code
