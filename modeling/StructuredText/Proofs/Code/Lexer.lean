import StructuredText.Code.Printer

/-!
# Tokens of generated expressions

Text is cut into tokens from left to right, each as long as it can be.  A character ends
the token before it or goes on with it; which of the two depends on that token alone.  So
the tokens of two texts one after the other are those of the texts, if the first character
of the second ends the last token of the first.
-/

set_option autoImplicit false

namespace StructuredText.Code

inductive Sign where
  | plus | minus | star | slash | percent | eq | ne | lt | gt | le | ge
  | andAnd | orOr | amp | bar | caret | bang | tilde
deriving DecidableEq, Repr

inductive Token where
  | word (text : String)
  | number (text : String)
  | quoted (text : String)
  | sign (sign : Sign)
  | openParen | closeParen | openBracket | closeBracket
  | comma | dot | query | colon | semicolon
deriving DecidableEq, Repr

/-! ## Characters -/

namespace Lexer

def isLetter (char : Char) : Bool := char.isAlpha || char == '_'

def isWordChar (char : Char) : Bool := isLetter char || char.isDigit

def mark? : Char → Option Token
  | '(' => some .openParen
  | ')' => some .closeParen
  | '[' => some .openBracket
  | ']' => some .closeBracket
  | ',' => some .comma
  | '?' => some .query
  | ':' => some .colon
  | ';' => some .semicolon
  | '~' => some (.sign .tilde)
  | _ => none

/-- The token of a sign that is not part of a longer one.  An assignment is none. -/
def symbol? : Char → Option Token
  | '.' => some .dot
  | '+' => some (.sign .plus)
  | '-' => some (.sign .minus)
  | '*' => some (.sign .star)
  | '/' => some (.sign .slash)
  | '%' => some (.sign .percent)
  | '<' => some (.sign .lt)
  | '>' => some (.sign .gt)
  | '&' => some (.sign .amp)
  | '|' => some (.sign .bar)
  | '^' => some (.sign .caret)
  | '!' => some (.sign .bang)
  | _ => none

def isSymbol (char : Char) : Bool := (symbol? char).isSome || char == '='

def pair? : Char → Char → Option Token
  | '=', '=' => some (.sign .eq)
  | '!', '=' => some (.sign .ne)
  | '<', '=' => some (.sign .le)
  | '>', '=' => some (.sign .ge)
  | '&', '&' => some (.sign .andAnd)
  | '|', '|' => some (.sign .orOr)
  | _, _ => none

/-- Pairs that start something else than an operator on values: steps, shifts,
assignments, selections through pointers and comments. -/
def isForeign (first second : Char) : Bool :=
  (first, second) ∈
    [('+', '+'), ('-', '-'), ('-', '>'), ('<', '<'), ('>', '>'), ('/', '/'), ('/', '*'),
      ('+', '='), ('-', '='), ('*', '='), ('/', '='), ('%', '='), ('&', '='), ('|', '='),
      ('^', '=')]

/-- True if a number may go on with a sign: after the mark of an exponent. -/
def endsInExponent (seen : List Char) : Bool :=
  seen.getLast?.any fun char => char ∈ ['e', 'E', 'p', 'P']

/-! ## Scanning -/

inductive Pending where
  | nothing
  | word (seen : List Char)
  | number (seen : List Char)
  | quoted (seen : List Char) (isEscaped : Bool)
  | symbol (char : Char)

def flush : Pending → Option (List Token)
  | .nothing => some []
  | .word seen => some [.word (String.ofList seen)]
  | .number seen => some [.number (String.ofList seen)]
  | .quoted _ _ => none
  | .symbol char => (symbol? char).map fun token => [token]

def start (char : Char) : Option (List Token × Pending) :=
  if char == ' ' || char == '\n' then some ([], .nothing)
  else if isLetter char then some ([], .word [char])
  else if char.isDigit then some ([], .number [char])
  else if char == '"' then some ([], .quoted [char] false)
  else if isSymbol char then some ([], .symbol char)
  else (mark? char).map fun token => ([token], .nothing)

def cut (pending : Pending) (char : Char) : Option (List Token × Pending) := do
  let done ← flush pending
  let (more, next) ← start char
  return (done ++ more, next)

/-- The tokens that a character completes, and the one that it starts or goes on with. -/
def feed : Pending → Char → Option (List Token × Pending)
  | .nothing, char => start char
  | .word seen, char =>
      if isWordChar char then some ([], .word (seen ++ [char])) else cut (.word seen) char
  | .number seen, char =>
      if isWordChar char || char == '.' ||
          ((char == '+' || char == '-') && endsInExponent seen) then
        some ([], .number (seen ++ [char]))
      else cut (.number seen) char
  | .quoted seen true, char => some ([], .quoted (seen ++ [char]) false)
  | .quoted seen false, char =>
      if char == '"' then some ([.quoted (String.ofList (seen ++ [char]))], .nothing)
      else if char == '\n' then none
      else some ([], .quoted (seen ++ [char]) (char == '\\'))
  | .symbol first, char =>
      match pair? first char with
      | some token => some ([token], .nothing)
      | none =>
          if isForeign first char then none
          else if first == '.' && char.isDigit then some ([], .number [first, char])
          else cut (.symbol first) char

/-- The complete tokens of a text, and the one that it leaves open. -/
def scan : Pending → List Char → Option (List Token × Pending)
  | pending, [] => some ([], pending)
  | pending, char :: rest => do
      let (tokens, next) ← feed pending char
      let (more, last) ← scan next rest
      return (tokens ++ more, last)

def lex (text : List Char) : Option (List Token) := do
  let (tokens, last) ← scan .nothing text
  let done ← flush last
  return tokens ++ done

theorem scan_append (pending : Pending) (first second : List Char) :
    scan pending (first ++ second) = (do
      let (tokens, middle) ← scan pending first
      let (more, last) ← scan middle second
      return (tokens ++ more, last)) := by
  induction first generalizing pending with
  | nil =>
      cases scanned : scan pending second <;> simp [scan, scanned]
  | cons char rest ih =>
      simp only [List.cons_append, scan]
      cases feed pending char with
      | none => rfl
      | some fed =>
          simp only [Option.bind_eq_bind, Option.bind_some, ih]
          cases scan fed.2 rest with
          | none => rfl
          | some scanned =>
              simp only [Option.bind_some, Option.pure_def]
              cases scan scanned.2 second <;> simp

/-! ## Tokens of a text -/

/-- A text consists of tokens, the last of which the next character may go on with. -/
def Scans (text : List Char) (tokens : List Token) (last : Pending) : Prop :=
  ∃ complete done, scan .nothing text = some (complete, last) ∧ flush last = some done ∧
    tokens = complete ++ done

theorem Scans.lex {text : List Char} {tokens : List Token} {last : Pending}
    (scans : Scans text tokens last) : lex text = some tokens := by
  obtain ⟨complete, done, scanned, flushed, rfl⟩ := scans
  simp [Lexer.lex, scanned, flushed]

theorem scans_of_lex {text : List Char} {tokens : List Token} (lexed : lex text = some tokens) :
    ∃ last, Scans text tokens last := by
  obtain ⟨⟨complete, last⟩, scanned, lexed⟩ := Option.bind_eq_some_iff.mp lexed
  obtain ⟨done, flushed, lexed⟩ := Option.bind_eq_some_iff.mp lexed
  cases lexed
  exact ⟨last, complete, done, scanned, flushed, rfl⟩

theorem Scans.append {text : List Char} {tokens : List Token} {pending : Pending}
    (scans : Scans text tokens pending) {char : Char} {rest : List Char} {more : List Token}
    {last : Pending} (follows : Scans (char :: rest) more last)
    (ends : feed pending char = cut pending char) :
    Scans (text ++ char :: rest) (tokens ++ more) last := by
  obtain ⟨complete, done, scanned, flushed, rfl⟩ := scans
  obtain ⟨complete', done', scanned', flushed', rfl⟩ := follows
  rw [scan] at scanned'
  obtain ⟨⟨started, next⟩, isStart, scanned'⟩ := Option.bind_eq_some_iff.mp scanned'
  obtain ⟨⟨later, last'⟩, restScanned, scanned'⟩ := Option.bind_eq_some_iff.mp scanned'
  cases scanned'
  have fed : feed pending char = some (done ++ started, next) := by
    have isStart' : start char = some (started, next) := isStart
    rw [ends]
    simp [cut, flushed, isStart']
  refine ⟨complete ++ (done ++ started ++ later), done', ?_, flushed', by simp⟩
  rw [scan_append, scanned]
  simp [scan, fed, restScanned]

theorem feed_nothing (char : Char) : feed .nothing char = cut .nothing char := by
  simp only [feed, cut, flush, Option.bind_eq_bind, Option.bind_some]
  cases start char <;> simp

theorem feed_word_dot (seen : List Char) : feed (.word seen) '.' = cut (.word seen) '.' := by
  rw [feed, if_neg (by decide)]

theorem feed_bang {char : Char} (notEqual : char ≠ '=') :
    feed (.symbol '!') char = cut (.symbol '!') char := by
  have noPair : pair? '!' char = none := by
    unfold pair?
    split <;> simp_all
  simp [feed, noPair, isForeign]

/-- The characters that generated text puts after an expression or around one. -/
def isBreak (char : Char) : Bool :=
  char ∈ [' ', '\n', '(', ')', '[', ']', ',', '?', ':', ';']

/-- A break ends every token but a string that has not been closed. -/
theorem feed_break {pending : Pending} {done : List Token} (flushed : flush pending = some done)
    {char : Char} (breaks : isBreak char = true) : feed pending char = cut pending char := by
  simp only [isBreak, List.mem_cons, List.not_mem_nil, or_false, decide_eq_true_eq] at breaks
  cases pending with
  | nothing => exact feed_nothing char
  | word seen =>
      rw [feed, if_neg]
      rcases breaks with rfl | rfl | rfl | rfl | rfl | rfl | rfl | rfl | rfl | rfl <;> decide
  | number seen =>
      rw [feed, if_neg]
      rcases breaks with rfl | rfl | rfl | rfl | rfl | rfl | rfl | rfl | rfl | rfl <;>
        simp [isWordChar, isLetter]
  | quoted seen isEscaped => cases flushed
  | symbol first =>
      have noPair : pair? first char = none := by
        unfold pair?
        split <;> simp_all
      have notForeign : isForeign first char = false := by
        rcases breaks with rfl | rfl | rfl | rfl | rfl | rfl | rfl | rfl | rfl | rfl <;>
          simp [isForeign]
      have noDigit : char.isDigit = false := by
        rcases breaks with rfl | rfl | rfl | rfl | rfl | rfl | rfl | rfl | rfl | rfl <;> decide
      simp [feed, noPair, notForeign, noDigit]

theorem scan_equal {rest : List Char} {complete : List Token} {last : Pending}
    (scanned : scan (.symbol '=') rest = some (complete, last)) :
    rest = [] ∧ last = .symbol '=' ∨ ∃ more, complete = .sign .eq :: more := by
  cases rest with
  | nil =>
      cases scanned
      exact .inl ⟨rfl, rfl⟩
  | cons char rest =>
      rw [scan] at scanned
      obtain ⟨⟨tokens, next⟩, fed, scanned⟩ := Option.bind_eq_some_iff.mp scanned
      obtain ⟨⟨later, last'⟩, -, scanned⟩ := Option.bind_eq_some_iff.mp scanned
      cases scanned
      by_cases isEqual : char = '='
      · subst isEqual
        cases fed
        exact .inr ⟨later, rfl⟩
      · have noPair : pair? '=' char = none := by
          unfold pair?
          split <;> simp_all
        simp [feed, noPair, isForeign, cut, flush, symbol?] at fed

/-- A text that starts with an equal sign starts with a comparison, if it has tokens. -/
theorem lex_equal {rest : List Char} {tokens : List Token}
    (lexed : lex ('=' :: rest) = some tokens) : ∃ more, tokens = .sign .eq :: more := by
  obtain ⟨⟨complete, last⟩, scanned, lexed⟩ := Option.bind_eq_some_iff.mp lexed
  obtain ⟨done, flushed, lexed⟩ := Option.bind_eq_some_iff.mp lexed
  cases lexed
  rw [scan] at scanned
  obtain ⟨⟨started, next⟩, fed, scanned⟩ := Option.bind_eq_some_iff.mp scanned
  cases fed
  obtain ⟨⟨later, last'⟩, further, scanned⟩ := Option.bind_eq_some_iff.mp scanned
  cases scanned
  rcases scan_equal further with ⟨-, rfl⟩ | ⟨more, rfl⟩
  · cases flushed
  · exact ⟨more ++ done, rfl⟩
/-! ## Words -/

def isIdentifier (text : String) : Bool :=
  match text.toList with
  | [] => false
  | first :: rest => isLetter first && rest.all isWordChar

theorem scan_word {chars : List Char} (inWord : chars.all isWordChar = true) :
    ∀ seen, scan (.word seen) chars = some ([], .word (seen ++ chars)) := by
  induction chars with
  | nil => simp [scan]
  | cons char rest ih =>
      intro seen
      simp only [List.all_cons, Bool.and_eq_true] at inWord
      simp [scan, feed, inWord.1, ih inWord.2]

theorem start_letter {char : Char} (letter : isLetter char = true) :
    start char = some ([], .word [char]) := by
  have notBlank : (char == ' ' || char == '\n') = false := by
    rw [Bool.or_eq_false_iff, beq_eq_false_iff_ne, beq_eq_false_iff_ne]
    constructor <;> rintro rfl <;> exact absurd letter (by decide)
  simp [start, notBlank, letter]

theorem ne_equal_of_isLetter {char : Char} (letter : isLetter char = true) : char ≠ '=' := by
  rintro rfl
  exact absurd letter (by decide)

theorem isDigit_of_isLetter {char : Char} (letter : isLetter char = true) :
    char.isDigit = false := by
  rw [Bool.eq_false_iff]
  intro digit
  obtain ⟨-, high⟩ := Bool.and_eq_true_iff.mp digit
  have high : char.val ≤ (57 : UInt32) := of_decide_eq_true high
  rcases Bool.or_eq_true_iff.mp letter with alpha | score
  · rcases Bool.or_eq_true_iff.mp alpha with upper | lower
    · obtain ⟨above, -⟩ := of_decide_eq_true upper
      have above : (65 : UInt32) ≤ char.val := above
      exact absurd (UInt32.le_trans above high) (by decide)
    · obtain ⟨above, -⟩ := Bool.and_eq_true_iff.mp lower
      have above : (97 : UInt32) ≤ char.val := of_decide_eq_true above
      exact absurd (UInt32.le_trans above high) (by decide)
  · rw [beq_iff_eq.mp score] at high
    exact absurd high (by decide)

theorem scans_word {text : String} (identifier : isIdentifier text = true) :
    ∃ char rest, text.toList = char :: rest ∧ isLetter char = true ∧
      Scans text.toList [.word text] (.word text.toList) := by
  unfold isIdentifier at identifier
  split at identifier
  · cases identifier
  · next first rest chars =>
      rw [Bool.and_eq_true] at identifier
      refine ⟨first, rest, chars, identifier.1, [], [.word text], ?_, ?_, rfl⟩
      · rw [chars]
        simp [scan, feed, start_letter identifier.1, scan_word identifier.2]
      · rw [flush, String.ofList_toList]

/-! ## Numbers -/

theorem start_digit {char : Char} (digit : char.isDigit = true) :
    start char = some ([], .number [char]) := by
  have notBlank : (char == ' ' || char == '\n') = false := by
    rw [Bool.or_eq_false_iff, beq_eq_false_iff_ne, beq_eq_false_iff_ne]
    constructor <;> rintro rfl <;> exact absurd digit (by decide)
  have noLetter : isLetter char = false := by
    cases letter : isLetter char with
    | false => rfl
    | true =>
        rw [isDigit_of_isLetter letter] at digit
        cases digit
  simp [start, notBlank, noLetter, digit]

theorem scan_number {digits : List Char} (areDigits : digits.all Char.isDigit = true) :
    ∀ seen, scan (.number seen) digits = some ([], .number (seen ++ digits)) := by
  induction digits with
  | nil => simp [scan]
  | cons digit rest ih =>
      intro seen
      simp only [List.all_cons, Bool.and_eq_true] at areDigits
      simp [scan, feed, isWordChar, areDigits.1, ih areDigits.2]

theorem scans_number {digits : List Char} (areDigits : digits.all Char.isDigit = true)
    (nonempty : digits ≠ []) :
    Scans digits [.number (String.ofList digits)] (.number digits) := by
  cases digits with
  | nil => exact absurd rfl nonempty
  | cons digit rest =>
      rw [List.all_cons, Bool.and_eq_true] at areDigits
      refine ⟨[], [.number (String.ofList (digit :: rest))], ?_, rfl, rfl⟩
      simp [scan, feed, start_digit areDigits.1, scan_number areDigits.2]

theorem feed_minus_digit {char : Char} (digit : char.isDigit = true) :
    feed (.symbol '-') char = cut (.symbol '-') char := by
  have notSign : char ≠ '-' ∧ char ≠ '>' ∧ char ≠ '=' := by
    refine ⟨?_, ?_, ?_⟩ <;> rintro rfl <;> cases digit
  have noPair : pair? '-' char = none := by
    unfold pair?
    split <;> simp_all
  simp [feed, noPair, isForeign, notSign]

/-! ## Texts that are spelled with tokens -/

/-- A text that is not empty and consists of tokens; it may follow a negation. -/
def Spells (text : List Char) (tokens : List Token) : Prop :=
  ∃ char rest last, text = char :: rest ∧ char ≠ '=' ∧ Scans text tokens last

namespace Spells

variable {text more : List Char} {tokens further : List Token}

theorem lex (spells : Spells text tokens) : Lexer.lex text = some tokens := by
  obtain ⟨char, rest, last, -, -, scans⟩ := spells
  exact scans.lex

theorem append (spells : Spells text tokens) {char : Char} {rest : List Char} {last : Pending}
    (follows : Scans (char :: rest) further last) (breaks : isBreak char = true) :
    Spells (text ++ char :: rest) (tokens ++ further) := by
  obtain ⟨first, others, pending, rfl, notEqual, scans⟩ := spells
  obtain ⟨complete, done, -, flushed, -⟩ := id scans
  exact ⟨first, others ++ char :: rest, last, rfl, notEqual,
    scans.append follows (feed_break flushed breaks)⟩

theorem after {char : Char} {rest : List Char} (spells : Spells more further)
    (scans : Scans (char :: rest) tokens .nothing) (notEqual : char ≠ '=') :
    Spells (char :: rest ++ more) (tokens ++ further) := by
  obtain ⟨first, others, last, rfl, -, follows⟩ := spells
  exact ⟨char, rest ++ first :: others, last, rfl, notEqual,
    scans.append follows (feed_nothing first)⟩

end Spells

def Joins (text : List Char) (tokens : List Token) : Prop :=
  ∃ char rest, text = char :: rest ∧ isBreak char = true ∧ Scans text tokens .nothing

section Joins

variable {text between more : List Char} {tokens middle further : List Token}

theorem ne_equal_of_isBreak {char : Char} (breaks : isBreak char = true) : char ≠ '=' := by
  rintro rfl
  exact absurd breaks (by decide)

theorem Joins.before (joins : Joins text tokens) (spells : Spells more further) :
    Spells (text ++ more) (tokens ++ further) := by
  obtain ⟨char, rest, rfl, breaks, scans⟩ := joins
  exact spells.after scans (ne_equal_of_isBreak breaks)

theorem Scans.close {pending : Pending} (scans : Scans text tokens pending)
    (joins : Joins more further) : Scans (text ++ more) (tokens ++ further) .nothing := by
  obtain ⟨char, rest, rfl, breaks, follows⟩ := joins
  obtain ⟨complete, done, -, flushed, -⟩ := id scans
  exact scans.append follows (feed_break flushed breaks)

theorem Spells.close (spells : Spells text tokens) (joins : Joins more further) :
    Spells (text ++ more) (tokens ++ further) := by
  obtain ⟨char, rest, last, rfl, notEqual, scans⟩ := spells
  exact ⟨char, rest ++ more, .nothing, rfl, notEqual, scans.close joins⟩

theorem Spells.join (spells : Spells text tokens) (joins : Joins between middle)
    (follows : Spells more further) :
    Spells (text ++ (between ++ more)) (tokens ++ (middle ++ further)) := by
  have later := joins.before follows
  obtain ⟨char, rest, rfl, breaks, -⟩ := joins
  obtain ⟨first, others, last, same, -, scans⟩ := later
  rw [same] at scans ⊢
  cases same
  exact spells.append scans breaks

end Joins

/-- Text after complete tokens and before a break keeps its own tokens. -/
theorem Spells.lex_between {text before more : List Char} {tokens earlier further : List Token}
    {char : Char} (spells : Spells text tokens)
    (complete : scan .nothing before = some (earlier, .nothing)) (breaks : isBreak char = true)
    (follows : Lexer.lex (char :: more) = some further) :
    Lexer.lex (before ++ text ++ char :: more) = some (earlier ++ tokens ++ further) := by
  obtain ⟨last, scansMore⟩ := scans_of_lex follows
  have scansBefore : Scans before earlier .nothing :=
    ⟨earlier, [], complete, rfl, (List.append_nil _).symm⟩
  obtain ⟨first, others, pending, starts, -, scans⟩ := spells.append scansMore breaks
  rw [List.append_assoc, List.append_assoc]
  rw [starts] at scans ⊢
  exact (scansBefore.append scans (feed_nothing first)).lex
end Lexer

end StructuredText.Code
