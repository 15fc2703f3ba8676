import StructuredText.Proofs.Code.Grammar
import StructuredText.Proofs.Code.Visible
import StructuredText.Proofs.Json.Token

/-!
# Generated expressions are read as they were meant

The text of an expression is an operand by itself: it can stand next to any operator and is
read as the tree that it was printed from.  Two things have to hold of the names in it.  A
name of a value must not be the name of a type, since brackets around it would then be a
conversion; and the name in a conversion must be the name of a type, since the brackets
would otherwise be an operand.
-/

set_option autoImplicit false

namespace StructuredText.Code

open Lexer Grammar

/-! ## Trees of generated code -/

namespace OperatorTree

mutual

/-- True if all names are identifiers, those of conversions name types, and the others do
not. -/
def fits (isType : String → Bool) : OperatorTree → Bool
  | .name text => isIdentifier text && !isType text
  | .constant _ => true
  | .prefixed _ term => term.fits isType
  | .binary _ left right => left.fits isType && right.fits isType
  | .choose condition yes no => condition.fits isType && yes.fits isType && no.fits isType
  | .cast type value => isIdentifier type && isType type && value.fits isType
  | .call function arguments => function.fits isType && fitsList isType arguments
  | .field record part => record.fits isType && isIdentifier part
  | .index array subscript => array.fits isType && subscript.fits isType
  | .unread _ => false

def fitsList (isType : String → Bool) : List OperatorTree → Bool
  | [] => true
  | tree :: trees => tree.fits isType && fitsList isType trees

end

end OperatorTree

/-- True for a conversion that is not in brackets. -/
def OperatorTree.isCast : OperatorTree → Bool
  | .cast .. => true
  | _ => false

namespace Literal

/-- A number, a string or a name at the front of tokens, and what is left.  A minus may
stand before the number. -/
def front? : List Token → Option (OperatorTree × List Token)
  | .number text :: rest => some (.constant text, rest)
  | .quoted text :: rest => some (.constant text, rest)
  | .word text :: rest => some (.name text, rest)
  | .sign .minus :: .number text :: rest => some (.prefixed .minus (.constant text), rest)
  | _ => none

/-- The arguments of a constructor up to its closing bracket, of which there are fewer than
there are tokens. -/
def argumentTrees? : (bound : Nat) → List Token → Option (List OperatorTree)
  | 0, _ => none
  | bound + 1, tokens => do
      match (← front? tokens) with
      | (last, [.closeParen]) => return [last]
      | (first, .comma :: rest) => return first :: (← argumentTrees? bound rest)
      | _ => none

def treeOf? : List Token → Option OperatorTree
  | .word function :: .openParen :: rest =>
      (argumentTrees? rest.length rest).map (.call (.name function))
  | tokens =>
      match front? tokens with
      | some (tree, []) => some tree
      | _ => none

/-- What the text of a constant stands for: a number, a name or a constructor with its
arguments. -/
def tree (text : String) : OperatorTree :=
  ((lex text.toList).bind treeOf?).getD (.unread text)

end Literal

mutual

/-- What an expression stands for.  Accessors are not read. -/
def Expr.tree : Expr → OperatorTree
  | .atom text => Literal.tree text
  | .paren inner => inner.tree
  -- A minus stands before brackets: two of them in a row would be one sign.
  | .unary .minus (.paren term) => .prefixed .minus term.tree
  | .unary .logicalNot term => .prefixed .logicalNot term.tree
  | .unary .complement term => .prefixed .complement term.tree
  | .unary op _ => .unread op.symbol
  | .binary op left right => .binary op left.tree right.tree
  | .choose condition yes no => .choose condition.tree yes.tree no.tree
  | .next .. => .unread "+"
  | .cast type value => .cast type value.tree
  | .call function arguments => .call (.name function) (Expr.treeList arguments)
  | .callLines function arguments => .call (.name function) (Expr.treeList arguments)
  | .load place => place.tree false
  | .pointer place => place.tree true

def Expr.treeList : List Expr → List OperatorTree
  | [] => []
  | first :: rest => first.tree :: Expr.treeList rest

/-- The value of a place, or the pointer to it. -/
def Place.tree (byPointer : Bool) : Place → OperatorTree
  | .pin name => if byPointer then .name name else .prefixed .deref (.name name)
  | .named root path =>
      if byPointer then .prefixed .address (path.tree (.name root)) else path.tree (.name root)
  | .member family .. => .unread (family.getter byPointer)
  | .part family .. => .unread (family.getter byPointer)

def Path.tree (root : OperatorTree) : Path → OperatorTree
  | .here => root
  | .field record name => .field (record.tree root) name
  | .cell array subscripts => Subscript.tree (.field (array.tree root) "table") subscripts

def Subscript.tree (head : OperatorTree) : List Subscript → OperatorTree
  | [] => head
  | .mk value lower :: rest =>
      Subscript.tree (.index head (.binary .sub value.tree (Literal.tree (toString lower)))) rest

end

/-! ## Texts that are read as trees -/

section Texts

variable {isType : String → Bool}

variable (isType) in
/-- The text is an operand: it is read as the tree, whatever follows that does not go on
with it. -/
def IsOperand (text : List Char) (tree : OperatorTree) : Prop :=
  ∃ tokens, Spells text tokens ∧
    ∀ rest, startsPostfix rest = false → ReadsUnary isType (tokens ++ rest) tree rest

variable (isType) in
def IsExpression (text : List Char) (tree : OperatorTree) : Prop :=
  ∃ tokens, Spells text tokens ∧
    ∀ rest, closes rest = true → ReadsExpr isType (tokens ++ rest) tree rest

variable (isType) in
def AreArguments (text : List Char) (trees : List OperatorTree) : Prop :=
  ∃ tokens, Spells text tokens ∧
    ∀ rest, ReadsArguments isType (tokens ++ .closeParen :: rest) trees rest

variable (isType) in
def IsStem (text : List Char) (tree : OperatorTree) : Prop :=
  ∃ tokens char others last, text = char :: others ∧ char ≠ '=' ∧ Scans text tokens last ∧
    feed last '.' = cut last '.' ∧
    ∀ rest whole left, ReadsPostfix isType tree rest whole left →
      ReadsUnary isType (tokens ++ rest) whole left

variable {text more : List Char} {tree left right : OperatorTree} {trees : List OperatorTree}

theorem startsPostfix_of_closes {rest : List Token} (closed : closes rest = true) :
    startsPostfix rest = false := by
  unfold closes at closed
  split at closed <;> first | contradiction | rfl

theorem IsOperand.isExpression (operand : IsOperand isType text tree) :
    IsExpression isType text tree := by
  obtain ⟨tokens, spells, reads⟩ := operand
  refine ⟨tokens, spells, fun rest closed => ?_⟩
  exact ReadsExpr.unary (reads rest (startsPostfix_of_closes closed)) closed

theorem joins_open : Joins ['('] [.openParen] :=
  ⟨'(', [], rfl, rfl, [.openParen], [], rfl, rfl, rfl⟩

theorem joins_close : Joins [')'] [.closeParen] :=
  ⟨')', [], rfl, rfl, [.closeParen], [], rfl, rfl, rfl⟩

theorem IsExpression.paren (expression : IsExpression isType text tree) :
    IsOperand isType ('(' :: (text ++ [')'])) tree := by
  obtain ⟨tokens, spells, reads⟩ := expression
  refine ⟨_, joins_open.before (spells.close joins_close), fun rest stops => ?_⟩
  have inner := reads (.closeParen :: rest) rfl
  simpa using ReadsUnary.paren inner (.stop stops)

theorem IsExpression.prefixed (expression : IsExpression isType text tree) {char : Char}
    {sign : Sign} {op : PrefixOp} (isPrefix : sign.prefixOp? = some op)
    (scans : Scans [char, '('] [.sign sign, .openParen] .nothing) (notEqual : char ≠ '=') :
    IsOperand isType (char :: '(' :: (text ++ [')'])) (.prefixed op tree) := by
  obtain ⟨tokens, spells, reads⟩ := expression
  refine ⟨_, (spells.close joins_close).after scans notEqual, fun rest stops => ?_⟩
  have inner := reads (.closeParen :: rest) rfl
  simpa using ReadsUnary.prefixed isPrefix (ReadsUnary.paren inner (.stop stops))

theorem IsOperand.complement (operand : IsOperand isType text tree) :
    IsOperand isType ('~' :: text) (.prefixed .complement tree) := by
  obtain ⟨tokens, spells, reads⟩ := operand
  have scans : Scans ['~'] [.sign .tilde] .nothing := ⟨[.sign .tilde], [], rfl, rfl, rfl⟩
  refine ⟨_, spells.after scans (by decide), fun rest stops => ?_⟩
  exact ReadsUnary.prefixed rfl (reads rest stops)

/-- A negation goes with the operand, unless that starts with an equal sign. -/
theorem IsOperand.logicalNot (operand : IsOperand isType text tree) :
    IsOperand isType ('!' :: text) (.prefixed .logicalNot tree) := by
  obtain ⟨tokens, ⟨char, others, last, rfl, notEqual, follows⟩, reads⟩ := operand
  have scans : Scans ['!'] [.sign .bang] (.symbol '!') := ⟨[], [.sign .bang], rfl, rfl, rfl⟩
  refine ⟨_, ⟨'!', _, last, rfl, by decide, scans.append follows (feed_bang notEqual)⟩, ?_⟩
  intro rest stops
  exact ReadsUnary.prefixed rfl (reads rest stops)

def BinaryOp.sign : BinaryOp → Sign
  | add => .plus
  | sub => .minus
  | mul => .star
  | div => .slash
  | rem => .percent
  | eq => .eq
  | ne => .ne
  | lt => .lt
  | gt => .gt
  | le => .le
  | ge => .ge
  | logicalAnd => .andAnd
  | logicalOr => .orOr
  | bitAnd => .amp
  | bitOr => .bar
  | bitXor => .caret

theorem BinaryOp.binaryOp?_sign (op : BinaryOp) : op.sign.binaryOp? = some op := by
  cases op <;> rfl

theorem BinaryOp.joins (op : BinaryOp) :
    Joins (' ' :: (op.symbol.toList ++ [' '])) [.sign op.sign] := by
  cases op <;> exact ⟨' ', _, rfl, rfl, [.sign _], [], rfl, rfl, rfl⟩

theorem IsOperand.binary (op : BinaryOp) (first : IsOperand isType text left)
    (second : IsOperand isType more right) :
    IsExpression isType (text ++ ' ' :: (op.symbol.toList ++ ' ' :: more))
      (.binary op left right) := by
  obtain ⟨tokens, spells, reads⟩ := first
  obtain ⟨further, follows, readsMore⟩ := second
  have joined := spells.join op.joins follows
  refine ⟨tokens ++ .sign op.sign :: further, by simpa using joined, fun rest closed => ?_⟩
  have left := reads (.sign op.sign :: (further ++ rest)) rfl
  have right := readsMore rest (startsPostfix_of_closes closed)
  simpa using ReadsExpr.binary op.binaryOp?_sign left right closed

theorem IsOperand.choose {third : List Char} {condition yes no : OperatorTree}
    (first : IsOperand isType text condition) (second : IsExpression isType more yes)
    (last : IsExpression isType third no) :
    IsExpression isType (text ++ '?' :: (more ++ ':' :: third)) (.choose condition yes no) := by
  obtain ⟨tokens, spells, reads⟩ := first
  obtain ⟨further, follows, readsMore⟩ := second
  obtain ⟨others, ends, readsLast⟩ := last
  have query : Joins ['?'] [.query] := ⟨'?', [], rfl, rfl, [.query], [], rfl, rfl, rfl⟩
  have colon : Joins [':'] [.colon] := ⟨':', [], rfl, rfl, [.colon], [], rfl, rfl, rfl⟩
  refine ⟨_, spells.join query (follows.join colon ends), fun rest closed => ?_⟩
  have condition := reads (.query :: (further ++ .colon :: (others ++ rest))) rfl
  have yes := readsMore (.colon :: (others ++ rest)) rfl
  simpa using ReadsExpr.choose condition yes (readsLast rest closed)

theorem spells_word {name : String} (identifier : isIdentifier name = true) :
    Spells name.toList [.word name] := by
  obtain ⟨char, rest, chars, letter, scans⟩ := scans_word identifier
  exact ⟨char, rest, _, chars, ne_equal_of_isLetter letter, scans⟩

theorem IsOperand.cast {type : String} (identifier : isIdentifier type = true)
    (named : isType type = true) (operand : IsOperand isType text tree) :
    IsOperand isType ('(' :: (type.toList ++ ')' :: text)) (.cast type tree) := by
  obtain ⟨tokens, spells, reads⟩ := operand
  refine ⟨_, joins_open.before ((spells_word identifier).join joins_close spells), ?_⟩
  intro rest stops
  exact ReadsUnary.cast named (reads rest stops)

/-! ## Calls -/

theorem IsExpression.last (expression : IsExpression isType text tree) :
    AreArguments isType text [tree] := by
  obtain ⟨tokens, spells, reads⟩ := expression
  exact ⟨tokens, spells, fun rest => .last (reads (.closeParen :: rest) rfl)⟩

theorem IsExpression.cons {separator : List Char} (expression : IsExpression isType text tree)
    (joins : Joins separator [.comma]) (arguments : AreArguments isType more trees) :
    AreArguments isType (text ++ (separator ++ more)) (tree :: trees) := by
  obtain ⟨tokens, spells, reads⟩ := expression
  obtain ⟨further, follows, readsMore⟩ := arguments
  refine ⟨_, spells.join joins follows, fun rest => ?_⟩
  have first := reads (.comma :: (further ++ .closeParen :: rest)) rfl
  simpa using ReadsArguments.cons first (readsMore rest)

theorem isOperand_callNothing {function : String} (identifier : isIdentifier function = true)
    (noType : isType function = false) :
    IsOperand isType (function.toList ++ ['(', ')']) (.call (.name function) []) := by
  have joins : Joins ['(', ')'] [.openParen, .closeParen] :=
    ⟨'(', [')'], rfl, rfl, [.openParen, .closeParen], [], rfl, rfl, rfl⟩
  refine ⟨_, (spells_word identifier).close joins, fun rest stops => ?_⟩
  exact ReadsUnary.name noType (.callNothing (.stop stops))

theorem AreArguments.call {function : String} (identifier : isIdentifier function = true)
    (noType : isType function = false) (arguments : AreArguments isType text trees) :
    IsOperand isType (function.toList ++ '(' :: (text ++ [')']))
      (.call (.name function) trees) := by
  obtain ⟨tokens, spells, reads⟩ := arguments
  have joined := (spells_word identifier).join joins_open (spells.close joins_close)
  refine ⟨_, joined, fun rest stops => ?_⟩
  simpa using ReadsUnary.name noType (.call (reads rest) (.stop stops))

theorem joins_lines (count : Nat) :
    Joins (',' :: '\n' :: List.replicate count ' ') [.comma] := by
  have blanks : ∀ count, scan .nothing (List.replicate count ' ') = some ([], .nothing) := by
    intro count
    induction count with
    | zero => rfl
    | succ count ih =>
        rw [List.replicate_succ, scan]
        simp [feed, start, ih]
  refine ⟨',', _, rfl, rfl, [.comma], [], ?_, rfl, rfl⟩
  simp [scan, feed, start, isLetter, isSymbol, symbol?, mark?, blanks]

/-! ## Fields and subscripts -/

theorem IsStem.isOperand (stem : IsStem isType text tree) : IsOperand isType text tree := by
  obtain ⟨tokens, char, others, last, same, notEqual, scans, -, reads⟩ := stem
  exact ⟨tokens, ⟨char, others, last, same, notEqual, scans⟩, fun rest stops =>
    reads rest tree rest (.stop stops)⟩

theorem isStem_name {name : String} (identifier : isIdentifier name = true)
    (noType : isType name = false) : IsStem isType name.toList (.name name) := by
  obtain ⟨char, rest, chars, letter, scans⟩ := scans_word identifier
  refine ⟨[.word name], char, rest, _, chars, ne_equal_of_isLetter letter, scans,
    feed_word_dot _, ?_⟩
  intro rest whole left postfixes
  exact ReadsUnary.name noType postfixes

theorem scans_field {name : String} (identifier : isIdentifier name = true) :
    Scans ('.' :: name.toList) [.dot, .word name] (.word name.toList) := by
  obtain ⟨char, rest, chars, letter, scans⟩ := scans_word identifier
  have dot : Scans ['.'] [.dot] (.symbol '.') := ⟨[], [.dot], rfl, rfl, rfl⟩
  rw [chars] at scans ⊢
  refine dot.append scans ?_
  simp [feed, pair?, isForeign, isDigit_of_isLetter letter]

theorem IsStem.field {name : String} (stem : IsStem isType text tree)
    (identifier : isIdentifier name = true) :
    IsStem isType (text ++ '.' :: name.toList) (.field tree name) := by
  obtain ⟨tokens, char, others, last, rfl, notEqual, scans, ends, reads⟩ := stem
  refine ⟨tokens ++ [.dot, .word name], char, _, _, rfl, notEqual,
    scans.append (scans_field identifier) ends, feed_word_dot _, ?_⟩
  intro rest whole left postfixes
  simpa using reads (.dot :: .word name :: rest) whole left (.field postfixes)

theorem IsStem.index {subscript : OperatorTree} (stem : IsStem isType text tree)
    (expression : IsExpression isType more subscript) :
    IsStem isType (text ++ '[' :: (more ++ [']'])) (.index tree subscript) := by
  obtain ⟨tokens, char, others, last, rfl, notEqual, scans, -, reads⟩ := stem
  obtain ⟨further, ⟨first, rests, pending, rfl, -, follows⟩, readsMore⟩ := expression
  have opens : Scans ['['] [.openBracket] .nothing := ⟨[.openBracket], [], rfl, rfl, rfl⟩
  have closes : Joins [']'] [.closeBracket] :=
    ⟨']', [], rfl, rfl, [.closeBracket], [], rfl, rfl, rfl⟩
  have brackets := opens.append (follows.close closes) (feed_nothing first)
  obtain ⟨complete, done, -, flushed, -⟩ := id scans
  refine ⟨_, char, _, .nothing, rfl, notEqual,
    scans.append brackets (feed_break flushed rfl), feed_nothing _, ?_⟩
  intro rest whole left postfixes
  have inner := readsMore (.closeBracket :: rest) rfl
  simpa using reads _ whole left (.index inner postfixes)

end Texts

/-! ## Constants -/

namespace Literal

variable {isType : String → Bool}

theorem readsUnary_of_front? {result : OperatorTree} {tokens rest : List Token}
    (found : front? tokens = some (result, rest)) (fits : result.fits isType = true)
    (left : List Token) (stops : startsPostfix (rest ++ left) = false) :
    ReadsUnary isType (tokens ++ left) result (rest ++ left) := by
  unfold front? at found
  split at found
  · cases found
    exact ReadsUnary.number (.stop stops)
  · cases found
    exact ReadsUnary.quoted (.stop stops)
  · cases found
    rw [OperatorTree.fits, Bool.and_eq_true, Bool.not_eq_true'] at fits
    exact ReadsUnary.name fits.2 (.stop stops)
  · cases found
    exact ReadsUnary.prefixed rfl (ReadsUnary.number (.stop stops))
  · cases found

theorem readsArguments {bound : Nat} :
    ∀ {tokens : List Token} {trees : List OperatorTree},
      argumentTrees? bound tokens = some trees → OperatorTree.fitsList isType trees = true →
      ∀ rest, ReadsArguments isType (tokens ++ rest) trees rest := by
  induction bound with
  | zero =>
      intro tokens trees found
      cases found
  | succ bound ih =>
      intro tokens trees found fits rest
      rw [argumentTrees?] at found
      obtain ⟨⟨first, left⟩, isFront, found⟩ := Option.bind_eq_some_iff.mp found
      split at found
      · next last same =>
          cases same
          cases found
          rw [OperatorTree.fitsList, Bool.and_eq_true] at fits
          have reads := readsUnary_of_front? isFront fits.1 rest rfl
          exact .last (.unary reads rfl)
      · next first' others same =>
          cases same
          obtain ⟨more, isMore, found⟩ := Option.bind_eq_some_iff.mp found
          cases found
          rw [OperatorTree.fitsList, Bool.and_eq_true] at fits
          have reads := readsUnary_of_front? isFront fits.1 rest rfl
          exact .cons (.unary reads rfl) (ih isMore fits.2 rest)
      · cases found

theorem readsUnary {result : OperatorTree} {tokens : List Token}
    (found : treeOf? tokens = some result) (fits : result.fits isType = true) (rest : List Token)
    (stops : startsPostfix rest = false) : ReadsUnary isType (tokens ++ rest) result rest := by
  unfold treeOf? at found
  split at found
  · next function others =>
      obtain ⟨trees, isArguments, rfl⟩ := Option.map_eq_some_iff.mp found
      rw [OperatorTree.fits, OperatorTree.fits, Bool.and_eq_true, Bool.and_eq_true,
        Bool.not_eq_true'] at fits
      exact ReadsUnary.name fits.1.2 (.call (readsArguments isArguments fits.2 rest) (.stop stops))
  · split at found
    · next isFront =>
        cases found
        exact readsUnary_of_front? isFront fits rest stops
    · cases found

theorem isOperand {text : String} (fits : (tree text).fits isType = true) :
    IsOperand isType text.toList (tree text) := by
  unfold tree at fits ⊢
  cases found : (lex text.toList).bind treeOf? with
  | none =>
      rw [found] at fits
      cases fits
  | some result =>
      rw [found] at fits
      obtain ⟨tokens, lexed, isTree⟩ := Option.bind_eq_some_iff.mp found
      refine ⟨tokens, ?_, readsUnary isTree fits⟩
      cases chars : text.toList with
      | nil =>
          rw [chars] at lexed
          cases lexed
          cases isTree
      | cons char rest =>
          rw [chars] at lexed
          have notEqual : char ≠ '=' := by
            rintro rfl
            obtain ⟨more, rfl⟩ := lex_equal lexed
            cases isTree
          obtain ⟨last, scans⟩ := scans_of_lex lexed
          exact ⟨char, rest, last, rfl, notEqual, scans⟩

theorem isCast_of_front? {result : OperatorTree} {tokens rest : List Token}
    (found : front? tokens = some (result, rest)) : result.isCast = false := by
  unfold front? at found
  split at found <;> cases found <;> rfl

theorem isCast_tree (text : String) : (tree text).isCast = false := by
  unfold tree
  cases lex text.toList with
  | none => rfl
  | some tokens =>
      rw [Option.bind_some]
      unfold treeOf?
      split
      · next function rest => cases argumentTrees? rest.length rest <;> rfl
      · split
        · next isFront => exact isCast_of_front? isFront
        · rfl

def intTree (value : Int) : OperatorTree :=
  let number : OperatorTree := .constant (toString value.natAbs)
  if value < 0 then .prefixed .minus number else number

theorem tree_word {text : String} (identifier : isIdentifier text = true) :
    tree text = .name text := by
  rw [tree, (spells_word identifier).lex]
  rfl

theorem tree_digits {text : String} (areDigits : text.toList.all Char.isDigit = true)
    (nonempty : text.toList ≠ []) : tree text = .constant text := by
  rw [tree, (scans_number areDigits nonempty).lex, String.ofList_toList]
  rfl

theorem tree_toString_nat (value : Nat) : tree (toString value) = .constant (toString value) := by
  have digits : (toString value).toList = Nat.toDigits 10 value := by simp
  apply tree_digits
  · rw [digits]
    exact Json.all_isDigit_toDigits value
  · rw [digits]
    exact Nat.toDigits_ne_nil

theorem tree_toString_int (value : Int) : tree (toString value) = intTree value := by
  have digits : (toString value.natAbs).toList = Nat.toDigits 10 value.natAbs := by simp
  have scans := scans_number (Json.all_isDigit_toDigits value.natAbs) Nat.toDigits_ne_nil
  have chars := Json.toList_toString value
  rw [intTree, tree, chars]
  by_cases negative : value < 0
  · simp only [negative, if_true]
    have minus : Scans ['-'] [.sign .minus] (.symbol '-') := ⟨[], [.sign .minus], rfl, rfl, rfl⟩
    have areDigits := Json.all_isDigit_toDigits value.natAbs
    cases split : Nat.toDigits 10 value.natAbs with
    | nil => exact absurd split Nat.toDigits_ne_nil
    | cons digit rest =>
        rw [split] at scans digits areDigits
        rw [List.all_cons, Bool.and_eq_true] at areDigits
        have lexed := (minus.append scans (feed_minus_digit areDigits.1)).lex
        rw [List.singleton_append] at lexed
        rw [lexed, ← digits, String.ofList_toList]
        rfl
  · simp only [negative, if_false]
    rw [scans.lex, ← digits, String.ofList_toList]
    rfl

end Literal

/-! ## Generated expressions -/

def Piece.chars (width : Nat) (pieces : List Piece) : List Char :=
  pieces.flatMap fun piece => (piece.render width).toList

section Chars

variable {width : Nat}

@[simp] theorem Piece.chars_nil : Piece.chars width [] = [] := rfl

@[simp] theorem Piece.chars_text (content : String) (rest : List Piece) :
    Piece.chars width (.text content :: rest) = content.toList ++ Piece.chars width rest := rfl

@[simp] theorem Piece.chars_margin (depth : Nat) (rest : List Piece) :
    Piece.chars width (.margin depth :: rest) =
      List.replicate (depth * width) ' ' ++ Piece.chars width rest := by
  simp [Piece.chars, Piece.render]

@[simp] theorem Piece.chars_append (first second : List Piece) :
    Piece.chars width (first ++ second) = Piece.chars width first ++ Piece.chars width second :=
  List.flatMap_append

theorem Expr.toList_renderAll_print (code : Expr) (depth : Nat) :
    (Piece.renderAll width (code.print depth)).toList = Piece.chars width (code.print depth) := by
  have plain : ∀ piece ∈ code.print depth, (!piece.isSwitch) = true := by
    intro piece member
    cases piece with
    | text content => rfl
    | margin depth => rfl
    | switch on => exact absurd member (Expr.switch_not_mem_print on code depth)
  rw [Piece.renderAll, Piece.visible_true (Expr.switch_not_mem_print false code depth),
    List.filter_eq_self.mpr plain]
  simp [Piece.chars, List.flatMap_map]

end Chars

section Print

variable {isType : String → Bool} {width : Nat}

theorem isOperand_call {function : String} {arguments : List Expr} (depth : Nat)
    (separator : List Piece)
    (fits : (OperatorTree.call (.name function) (Expr.treeList arguments)).fits isType = true)
    (areArguments : arguments ≠ [] →
      OperatorTree.fitsList isType (Expr.treeList arguments) = true →
      AreArguments isType (Piece.chars width (Expr.printList depth separator arguments))
        (Expr.treeList arguments)) :
    IsOperand isType (function.toList ++
      '(' :: (Piece.chars width (Expr.printList depth separator arguments) ++ [')']))
      (.call (.name function) (Expr.treeList arguments)) := by
  rw [OperatorTree.fits, OperatorTree.fits, Bool.and_eq_true, Bool.and_eq_true,
    Bool.not_eq_true'] at fits
  cases arguments with
  | nil =>
      rw [Expr.printList, Expr.treeList]
      exact isOperand_callNothing fits.1.1 fits.1.2
  | cons first rest => exact (areArguments nofun fits.2).call fits.1.1 fits.1.2

theorem isStem_root {root : String} (fits : (OperatorTree.name root).fits isType = true) :
    IsStem isType root.toList (.name root) := by
  rw [OperatorTree.fits, Bool.and_eq_true, Bool.not_eq_true'] at fits
  exact isStem_name fits.1 fits.2

-- The induction follows the code.  What is said of a path is said of the text before it as
-- well, because fields and subscripts are read after what they belong to.
mutual

/-- A generated expression is an operand. -/
theorem Expr.isOperand_print : ∀ (code : Expr) (depth : Nat), code.tree.fits isType = true →
    IsOperand isType (Piece.chars width (code.print depth)) code.tree
  | .atom text, depth, fits => by
      rw [Expr.tree] at fits ⊢
      simpa [Expr.print] using Literal.isOperand fits
  | .paren inner, depth, fits => by
      rw [Expr.tree] at fits ⊢
      simpa [Expr.print] using (inner.isOperand_print depth fits).isExpression.paren
  | .unary .minus (.paren term), depth, fits => by
      rw [Expr.tree] at fits ⊢
      rw [OperatorTree.fits] at fits
      have operand := term.isOperand_print depth fits
      have scans : Scans ['-', '('] [.sign .minus, .openParen] .nothing :=
        ⟨[.sign .minus, .openParen], [], rfl, rfl, rfl⟩
      simpa [Expr.print, UnaryOp.symbol] using
        operand.isExpression.prefixed rfl scans (by decide)
  | .unary .logicalNot term, depth, fits => by
      rw [Expr.tree] at fits ⊢
      rw [OperatorTree.fits] at fits
      simpa [Expr.print, UnaryOp.symbol] using (term.isOperand_print depth fits).logicalNot
  | .unary .complement term, depth, fits => by
      rw [Expr.tree] at fits ⊢
      rw [OperatorTree.fits] at fits
      simpa [Expr.print, UnaryOp.symbol] using (term.isOperand_print depth fits).complement
  -- Both operands are read whole, so the precedence of the operator does not matter here.
  | .binary op left right, depth, fits => by
      rw [Expr.tree] at fits ⊢
      rw [OperatorTree.fits, Bool.and_eq_true] at fits
      have first := left.isOperand_print depth fits.1
      have second := right.isOperand_print depth fits.2
      simpa [Expr.print] using (first.binary op second).paren
  | .choose condition yes no, depth, fits => by
      rw [Expr.tree] at fits ⊢
      rw [OperatorTree.fits, Bool.and_eq_true, Bool.and_eq_true] at fits
      have first := condition.isOperand_print depth fits.1.1
      have second := (yes.isOperand_print depth fits.1.2).isExpression
      have third := (no.isOperand_print depth fits.2).isExpression
      simpa [Expr.print] using (first.choose second third).paren
  | .cast type value, depth, fits => by
      rw [Expr.tree] at fits ⊢
      rw [OperatorTree.fits, Bool.and_eq_true, Bool.and_eq_true] at fits
      simpa [Expr.print] using (value.isOperand_print depth fits.2).cast fits.1.1 fits.1.2
  | .call function arguments, depth, fits => by
      rw [Expr.tree] at fits ⊢
      have comma : Joins [',', ' '] [.comma] :=
        ⟨',', [' '], rfl, rfl, [.comma], [], rfl, rfl, rfl⟩
      have operand := isOperand_call depth [.text ", "] fits
        (Expr.areArguments_printList arguments depth [.text ", "] (by simpa using comma))
      simpa [Expr.print] using operand
  | .callLines function arguments, depth, fits => by
      rw [Expr.tree] at fits ⊢
      have comma : Joins (Piece.chars width [.text ",\n", .margin (depth + 1)]) [.comma] := by
        simpa using joins_lines ((depth + 1) * width)
      have operand := isOperand_call (depth + 1) [.text ",\n", .margin (depth + 1)] fits
        (Expr.areArguments_printList arguments (depth + 1) _ comma)
      simpa [Expr.print] using operand
  | .load place, depth, fits => by
      rw [Expr.tree] at fits ⊢
      rw [Expr.print]
      exact place.isOperand_print depth false fits
  | .pointer place, depth, fits => by
      rw [Expr.tree] at fits ⊢
      rw [Expr.print]
      exact place.isOperand_print depth true fits
  | .unary .minus (.atom _), _, fits | .unary .minus (.unary ..), _, fits
  | .unary .minus (.binary ..), _, fits | .unary .minus (.choose ..), _, fits
  | .unary .minus (.next ..), _, fits | .unary .minus (.cast ..), _, fits
  | .unary .minus (.call ..), _, fits | .unary .minus (.callLines ..), _, fits
  | .unary .minus (.load _), _, fits | .unary .minus (.pointer _), _, fits
  | .unary .address _, _, fits | .next .., _, fits => by cases fits

theorem Expr.areArguments_printList :
    ∀ (arguments : List Expr) (depth : Nat) (separator : List Piece),
      Joins (Piece.chars width separator) [.comma] → arguments ≠ [] →
      OperatorTree.fitsList isType (Expr.treeList arguments) = true →
      AreArguments isType (Piece.chars width (Expr.printList depth separator arguments))
        (Expr.treeList arguments)
  | [], _, _, _, nonempty, _ => absurd rfl nonempty
  | [last], depth, separator, _, _, fits => by
      rw [Expr.treeList, Expr.treeList] at fits ⊢
      rw [OperatorTree.fitsList, Bool.and_eq_true] at fits
      rw [Expr.printList]
      exact (last.isOperand_print depth fits.1).isExpression.last
  | first :: second :: rest, depth, separator, joins, _, fits => by
      rw [Expr.treeList] at fits ⊢
      rw [OperatorTree.fitsList, Bool.and_eq_true] at fits
      have operand := (first.isOperand_print depth fits.1).isExpression
      have others := Expr.areArguments_printList (second :: rest) depth separator joins nofun fits.2
      rw [Expr.printList]
      simpa using operand.cons joins others

theorem Place.isOperand_print : ∀ (place : Place) (depth : Nat) (byPointer : Bool),
    (place.tree byPointer).fits isType = true →
    IsOperand isType (Piece.chars width (place.print depth byPointer)) (place.tree byPointer)
  | .pin name, depth, false, fits => by
      have operand := (isStem_root fits).isOperand
      have scans : Scans ['*', '('] [.sign .star, .openParen] .nothing :=
        ⟨[.sign .star, .openParen], [], rfl, rfl, rfl⟩
      simpa [Place.print, Place.tree] using
        operand.isExpression.prefixed rfl scans (by decide)
  | .pin name, depth, true, fits => by
      simpa [Place.print, Place.tree] using (isStem_root fits).isOperand
  | .named root path, depth, false, fits => by
      have stem := path.isStem_print depth isStem_root fits
      simpa [Place.print, Place.tree] using stem.isOperand
  | .named root path, depth, true, fits => by
      have stem := path.isStem_print depth isStem_root fits
      have scans : Scans ['&', '('] [.sign .amp, .openParen] .nothing :=
        ⟨[.sign .amp, .openParen], [], rfl, rfl, rfl⟩
      simpa [Place.print, Place.tree] using
        stem.isOperand.isExpression.prefixed rfl scans (by decide)
  | .member .., _, _, fits => by cases fits
  | .part .., _, _, fits => by cases fits

theorem Path.isStem_print : ∀ (path : Path) (depth : Nat) {text : List Char} {root : OperatorTree},
    (root.fits isType = true → IsStem isType text root) →
    (path.tree root).fits isType = true →
    IsStem isType (text ++ Piece.chars width (path.print depth)) (path.tree root)
  | .here, depth, text, root, stem, fits => by
      rw [Path.tree] at fits ⊢
      simpa [Path.print] using stem fits
  | .field record name, depth, text, root, stem, fits => by
      rw [Path.tree] at fits ⊢
      rw [OperatorTree.fits, Bool.and_eq_true] at fits
      have part := (record.isStem_print depth stem fits.1).field fits.2
      simpa [Path.print] using part
  | .cell array subscripts, depth, text, root, stem, fits => by
      rw [Path.tree] at fits ⊢
      -- Whether the stem fits is known only after the subscripts have been read.
      have table : (OperatorTree.field (array.tree root) "table").fits isType = true →
          IsStem isType (text ++ Piece.chars width (array.print depth) ++ '.' :: "table".toList)
            (.field (array.tree root) "table") := by
        intro fits
        rw [OperatorTree.fits, Bool.and_eq_true] at fits
        exact (array.isStem_print depth stem fits.1).field fits.2
      simpa [Path.print] using Subscript.isStem_print subscripts depth table fits

theorem Subscript.isStem_print : ∀ (subscripts : List Subscript) (depth : Nat) {text : List Char}
    {head : OperatorTree}, (head.fits isType = true → IsStem isType text head) →
    (Subscript.tree head subscripts).fits isType = true →
    IsStem isType (text ++ Piece.chars width (Subscript.printList depth subscripts))
      (Subscript.tree head subscripts)
  | [], depth, text, head, stem, fits => by
      rw [Subscript.tree] at fits ⊢
      simpa [Subscript.printList] using stem fits
  | .mk value lower :: rest, depth, text, head, stem, fits => by
      rw [Subscript.tree] at fits ⊢
      have element : (OperatorTree.index head (.binary .sub value.tree
          (Literal.tree (toString lower)))).fits isType = true →
          IsStem isType (text ++ '[' :: ('(' :: (Piece.chars width (value.print depth) ++ [')']) ++
            ' ' :: (BinaryOp.sub.symbol.toList ++
              ' ' :: '(' :: ((toString lower).toList ++ [')'])) ++ [']']))
            (.index head (.binary .sub value.tree (Literal.tree (toString lower)))) := by
        intro fits
        rw [OperatorTree.fits, OperatorTree.fits, Bool.and_eq_true, Bool.and_eq_true] at fits
        have subscript := (value.isOperand_print depth fits.2.1).isExpression.paren
        have bound := (Literal.isOperand fits.2.2).isExpression.paren
        exact (stem fits.1).index (subscript.binary .sub bound)
      simpa [Subscript.printList, BinaryOp.symbol] using
        Subscript.isStem_print rest depth element fits

end

end Print

end StructuredText.Code
