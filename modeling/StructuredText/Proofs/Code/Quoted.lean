import StructuredText.Code.Literal
import StructuredText.Proofs.Outcome
import StructuredText.Proofs.Text.Positional

/-!
# String constants

Two languages of escapes meet in a string constant: a program marks an escape with a dollar
sign, generated code with a backslash.  Every character that the program denotes is written
so that it is read back alone, whatever comes after it.  A string has no constant exactly if
a scan from the left meets a dollar sign that starts no escape.
-/

set_option autoImplicit false

namespace StructuredText.Code.Literal

/-! ## Strings of a program -/

def marked? : Char → Option Char
  | '$' => some '$'
  | '\'' => some '\''
  | 'L' | 'l' | 'N' | 'n' => some '\n'
  | 'P' | 'p' => some '\x0c'
  | 'R' | 'r' => some '\r'
  | 'T' | 't' => some '\t'
  | _ => none

/-- `Denotes text chars`: scanned from the left, the text denotes the characters. -/
inductive Denotes : (text chars : List Char) → Prop where
  | nil : Denotes [] []
  | plain {char : Char} {text chars : List Char} (isPlain : char ≠ '$')
      (rest : Denotes text chars) : Denotes (char :: text) (char :: chars)
  | marked {mark char : Char} {text chars : List Char} (isMarked : marked? mark = some char)
      (rest : Denotes text chars) : Denotes ('$' :: mark :: text) (char :: chars)
  | byte {first second : Char} {high low : Nat} {text chars : List Char}
      (isHigh : Text.digitValue? 16 first = some high)
      (isLow : Text.digitValue? 16 second = some low) (rest : Denotes text chars) :
      Denotes ('$' :: first :: second :: text) (Char.ofNat (16 * high + low) :: chars)

def marks : List Char := "$'LNPRTlnprt".toList

def startsEscape : List Char → Bool
  | [] => false
  | [mark] => marks.contains mark
  | first :: second :: _ =>
      marks.contains first || (Text.isDigitOf 16 first && Text.isDigitOf 16 second)

/-- A scan from the left meets a dollar sign that starts no escape. -/
def HasStray (text : List Char) : Prop :=
  ∃ before chars rest, text = before ++ '$' :: rest ∧ Denotes before chars ∧
    startsEscape rest = false

theorem contains_marks_iff {char : Char} :
    marks.contains char = true ↔ (marked? char).isSome = true := by
  induction char using Text.char_cases with
  | ascii code low =>
      revert code
      decide +kernel
  | beyond char high =>
      refine iff_of_false (fun isMark => ?_) (fun isMark => ?_)
      · have areAscii : marks.all (fun mark => mark.toNat < 0x80) = true := by decide +kernel
        have isAscii := List.all_eq_true.mp areAscii char (List.contains_iff_mem.mp isMark)
        rw [decide_eq_true_iff] at isAscii
        omega
      · unfold marked? at isMark
        split at isMark <;> simp_all

theorem digitValue?_of_marked? {mark char : Char} (isMarked : marked? mark = some char) :
    Text.digitValue? 16 mark = none := by
  unfold marked? at isMarked
  split at isMarked
  case h_13 => cases isMarked
  all_goals rfl

theorem startsEscape_marked {mark char : Char} {rest : List Char}
    (isMarked : marked? mark = some char) : startsEscape (mark :: rest) = true := by
  have isMark : marks.contains mark = true := contains_marks_iff.mpr (by rw [isMarked]; rfl)
  cases rest with
  | nil => exact isMark
  | cons second rest => rw [startsEscape, isMark, Bool.true_or]

theorem contains_marks_of_none {char : Char} (unmarked : marked? char = none) :
    marks.contains char = false := by
  rw [Bool.eq_false_iff, Ne, contains_marks_iff, unmarked]
  exact Bool.false_ne_true

theorem startsEscape_unmarked {first : Char} {rest : List Char} (unmarked : marked? first = none)
    (noDigits : Text.isDigitOf 16 first = true → ∀ second more, rest = second :: more →
      Text.isDigitOf 16 second = false) : startsEscape (first :: rest) = false := by
  have noMark := contains_marks_of_none unmarked
  cases rest with
  | nil => exact noMark
  | cons second more =>
      rw [startsEscape, noMark, Bool.false_or, Bool.and_eq_false_imp]
      exact fun isDigit => noDigits isDigit second more rfl

namespace Denotes

variable {text before rest chars first others : List Char}

theorem append (front : Denotes before first) (behind : Denotes rest others) :
    Denotes (before ++ rest) (first ++ others) := by
  induction front with
  | nil => exact behind
  | plain isPlain _ ih => exact .plain isPlain ih
  | marked isMarked _ ih => exact .marked isMarked ih
  | byte isHigh isLow _ ih => exact .byte isHigh isLow ih

/-! The first character of a text decides how the scan goes on. -/

theorem of_plain {char : Char} (isPlain : char ≠ '$') (denotes : Denotes (char :: text) chars) :
    ∃ others, chars = char :: others ∧ Denotes text others := by
  cases denotes with
  | plain _ rest => exact ⟨_, rfl, rest⟩
  | marked _ _ => exact absurd rfl isPlain
  | byte _ _ _ => exact absurd rfl isPlain

theorem of_marked {mark char : Char} (isMarked : marked? mark = some char)
    (denotes : Denotes ('$' :: mark :: text) chars) :
    ∃ others, chars = char :: others ∧ Denotes text others := by
  cases denotes with
  | plain isPlain _ => exact absurd rfl isPlain
  | marked isMarked' rest =>
      rw [isMarked] at isMarked'
      cases isMarked'
      exact ⟨_, rfl, rest⟩
  | byte isHigh _ _ =>
      rw [digitValue?_of_marked? isMarked] at isHigh
      cases isHigh

theorem of_byte {first second : Char} {high low : Nat}
    (isHigh : Text.digitValue? 16 first = some high) (isLow : Text.digitValue? 16 second = some low)
    (denotes : Denotes ('$' :: first :: second :: text) chars) :
    ∃ others, chars = Char.ofNat (16 * high + low) :: others ∧ Denotes text others := by
  cases denotes with
  | plain isPlain _ => exact absurd rfl isPlain
  | marked isMarked _ =>
      rw [digitValue?_of_marked? isMarked] at isHigh
      cases isHigh
  | byte isHigh' isLow' rest =>
      rw [isHigh] at isHigh'
      rw [isLow] at isLow'
      cases isHigh'
      cases isLow'
      exact ⟨_, rfl, rest⟩

/-- What the scan has read of a text it reads of every longer one. -/
theorem cancel (front : Denotes before first) (whole : Denotes (before ++ rest) chars) :
    ∃ others, chars = first ++ others ∧ Denotes rest others := by
  induction front generalizing chars with
  | nil => exact ⟨chars, rfl, whole⟩
  | plain isPlain _ ih =>
      obtain ⟨later, rfl, next⟩ := whole.of_plain isPlain
      obtain ⟨others, rfl, behind⟩ := ih next
      exact ⟨others, rfl, behind⟩
  | marked isMarked _ ih =>
      obtain ⟨later, rfl, next⟩ := whole.of_marked isMarked
      obtain ⟨others, rfl, behind⟩ := ih next
      exact ⟨others, rfl, behind⟩
  | byte isHigh isLow _ ih =>
      obtain ⟨later, rfl, next⟩ := whole.of_byte isHigh isLow
      obtain ⟨others, rfl, behind⟩ := ih next
      exact ⟨others, rfl, behind⟩

theorem unique (one : Denotes text chars) (other : Denotes text others) : others = chars := by
  rw [← List.append_nil text] at other
  obtain ⟨more, rfl, nothing⟩ := one.cancel other
  cases nothing
  exact List.append_nil chars

theorem startsEscape (denotes : Denotes ('$' :: rest) chars) :
    Literal.startsEscape rest = true := by
  cases denotes with
  | plain isPlain _ => exact absurd rfl isPlain
  | marked isMarked _ => exact startsEscape_marked isMarked
  | byte isHigh isLow _ =>
      rw [Literal.startsEscape, Text.isDigitOf, isHigh, Text.isDigitOf, isLow]
      exact Bool.or_true _

theorem not_hasStray (denotes : Denotes text chars) : ¬ HasStray text := by
  rintro ⟨before, first, rest, rfl, front, isStray⟩
  obtain ⟨others, -, behind⟩ := front.cancel denotes
  rw [behind.startsEscape] at isStray
  cases isStray

end Denotes

theorem HasStray.behind {before chars text : List Char} (front : Denotes before chars)
    (stray : HasStray text) : HasStray (before ++ text) := by
  obtain ⟨middle, others, rest, rfl, denotes, isStray⟩ := stray
  exact ⟨before ++ middle, chars ++ others, rest, (List.append_assoc ..).symm,
    front.append denotes, isStray⟩

theorem hasStray_here {rest : List Char} (isStray : startsEscape rest = false) :
    HasStray ('$' :: rest) :=
  ⟨[], [], rest, rfl, .nil, isStray⟩

/-! ## Strings of generated code -/

def control? : Char → Option Char
  | '\\' => some '\\'
  | '"' => some '"'
  | '\'' => some '\''
  | '?' => some '?'
  | 'a' => some '\x07'
  | 'b' => some '\x08'
  | 'f' => some '\x0c'
  | 'n' => some '\n'
  | 'r' => some '\r'
  | 't' => some '\t'
  | 'v' => some '\x0b'
  | _ => none

/-- Goes on with an octal number by at most `room` digits: the number, and what follows. -/
def octalRun : (room value : Nat) → List Char → Nat × List Char
  | room + 1, value, char :: text =>
      match Text.digitValue? 8 char with
      | some digit => octalRun room (8 * value + digit) text
      | none => (value, char :: text)
  | _, value, text => (value, text)

/-- The first character that the body of a string stands for, and the rest of the body.
There is none at a quotation mark, and at a backslash that starts no escape: a control
character or an octal number of at most three digits that fits a byte. -/
def readChar? : List Char → Option (Char × List Char)
  | [] => none
  | '"' :: _ => none
  | ['\\'] => none
  | '\\' :: mark :: text =>
      match control? mark with
      | some char => some (char, text)
      | none => do
          let digit ← Text.digitValue? 8 mark
          let (value, rest) := octalRun 2 digit text
          if value < 256 then some (Char.ofNat value, rest) else none
  | char :: text => some (char, text)

theorem length_octalRun (room value : Nat) (text : List Char) :
    (octalRun room value text).2.length ≤ text.length := by
  induction text generalizing room value with
  | nil => cases room <;> exact Nat.le_refl _
  | cons char text ih =>
      cases room with
      | zero => exact Nat.le_refl _
      | succ room =>
          rw [octalRun]
          split
          next => exact Nat.le_succ_of_le (ih ..)
          next => exact Nat.le_refl _

theorem length_readChar? {body rest : List Char} {char : Char}
    (read : readChar? body = some (char, rest)) : rest.length < body.length := by
  unfold readChar? at read
  split at read
  next => cases read
  next => cases read
  next => cases read
  next mark text =>
    split at read
    next =>
      cases read
      exact Nat.lt_succ_of_lt (Nat.lt_succ_self _)
    next =>
      obtain ⟨digit, -, read⟩ := Option.bind_eq_some_iff.mp read
      dsimp only at read
      split at read
      next =>
        cases read
        have := length_octalRun 2 digit text
        simp only [List.length_cons]
        omega
      next => cases read
  next => cases read; exact Nat.lt_succ_self _

/-- The characters that the body of a string stands for. -/
def unescape? (body : List Char) : Option (List Char) :=
  match read : readChar? body with
  | some (char, rest) =>
      have := length_readChar? read
      (unescape? rest).map (char :: ·)
  | none => if body = [] then some [] else none
termination_by body.length

theorem unescape?_of_readChar? {body rest chars : List Char} {char : Char}
    (read : readChar? body = some (char, rest)) (behind : unescape? rest = some chars) :
    unescape? body = some (char :: chars) := by
  rw [unescape?]
  split
  next found =>
    rw [read] at found
    cases found
    rw [behind, Option.map_some]
  next none =>
    rw [read] at none
    cases none

/-! ## Writing characters -/

theorem readChar?_plain {char : Char} (noEscape : char ≠ '\\') (noQuote : char ≠ '"')
    (body : List Char) : readChar? (char :: body) = some (char, body) := by
  unfold readChar?
  split <;> simp_all

/-- Three digits make the escape of a byte complete: a digit after them is a character of
its own. -/
theorem readChar?_octal {byte : Nat} (small : byte < 256) (body : List Char) :
    readChar? ('\\' :: (octal byte ++ body)) = some (Char.ofNat byte, body) := by
  have digit : ∀ value < 8, Text.digitValue? 8 (Nat.digitChar value) = some value := by decide
  have noControl : ∀ value < 8, control? (Nat.digitChar value) = none := by decide
  have sum : 8 * (8 * (byte / 64) + byte / 8 % 8) + byte % 8 = byte := by omega
  have run : octalRun 2 (byte / 64)
      (Nat.digitChar (byte / 8 % 8) :: Nat.digitChar (byte % 8) :: body) = (byte, body) := by
    simp only [octalRun, digit _ (Nat.mod_lt _ (by decide : 0 < 8)), sum]
  rw [octal, List.cons_append, readChar?, noControl _ (by omega)]
  dsimp only
  rw [digit _ (by omega)]
  simp only [bind, Option.bind_some, List.cons_append, List.nil_append, run, if_pos small]

theorem readChar?_escape {mark : Char} {written : List Char}
    (isEscape : escape? mark = some written) :
    ∃ char, marked? mark = some char ∧ ∀ body, readChar? (written ++ body) = some (char, body) := by
  unfold escape? at isEscape
  split at isEscape
  all_goals cases isEscape
  all_goals exact ⟨_, rfl, fun body => rfl⟩

theorem marked?_of_escape? {mark : Char} (noEscape : escape? mark = none) :
    marked? mark = none := by
  cases isMarked : marked? mark with
  | none => rfl
  | some char =>
      unfold marked? at isMarked
      split at isMarked
      case h_13 => cases isMarked
      all_goals cases noEscape

/-! ## Strings -/

/-- What comes of the text of a string: a body that is read back as what the text denotes,
or a fault if a dollar sign starts no escape. -/
inductive Decodes (text : List Char) : Except Fault (List Char × Nat) → Prop where
  | denoted {body chars : List Char} (denotes : Denotes text chars)
      (read : unescape? body = some chars) : Decodes text (.ok (body, chars.length))
  | stray (escape : List Char) (hasStray : HasStray text) :
      Decodes text (.error (badEscape escape))

/-- An escape or a character in front: what it is written as is read back as it alone. -/
theorem Decodes.cons {text front written : List Char} {char : Char}
    {result : Except Fault (List Char × Nat)} (decodes : Decodes text result)
    (denotes : Denotes front [char])
    (read : ∀ body, readChar? (written ++ body) = some (char, body)) :
    Decodes (front ++ text) (result.map fun (body, count) => (written ++ body, count + 1)) := by
  cases decodes with
  | denoted behind same =>
      exact .denoted (denotes.append behind) (unescape?_of_readChar? (read _) same)
  | stray escape hasStray => exact .stray escape (hasStray.behind denotes)

theorem decodes_escapeBody (text : List Char) : Decodes text (escapeBody text) := by
  fun_induction escapeBody text with
  | case1 => exact .denoted .nil (by rw [unescape?]; rfl)
  | case2 => exact .stray [] (hasStray_here rfl)
  | case3 mark rest written isEscape ih =>
      obtain ⟨char, isMarked, read⟩ := readChar?_escape isEscape
      exact ih.cons (.marked isMarked .nil) read
  | case4 char rest noEscape noDigit =>
      refine .stray _ (hasStray_here (startsEscape_unmarked (marked?_of_escape? noEscape) ?_))
      rw [Text.isDigitOf, noDigit]
      exact fun isDigit => absurd isDigit Bool.false_ne_true
  | case5 char noEscape high isHigh =>
      exact .stray _ (hasStray_here (contains_marks_of_none (marked?_of_escape? noEscape)))
  | case6 char noEscape high next rest isHigh noDigit =>
      refine .stray _ (hasStray_here (startsEscape_unmarked (marked?_of_escape? noEscape) ?_))
      rintro - second more same
      cases same
      rw [Text.isDigitOf, noDigit]
      rfl
  | case7 char noEscape high next rest isHigh low isLow ih =>
      have small : 16 * high + low < 256 := by
        have := (Text.digitValue?_eq_some.mp isHigh).2
        have := (Text.digitValue?_eq_some.mp isLow).2
        omega
      refine ih.cons (.byte isHigh isLow .nil) ?_
      exact readChar?_octal small
  | case8 char rest noEnd noEscape written ih =>
      have isPlain : char ≠ '$' := by
        rintro rfl
        cases rest with
        | nil => exact noEnd rfl rfl
        | cons next rest => exact noEscape next rest rfl rfl
      refine ih.cons (.plain isPlain .nil) fun body => ?_
      by_cases special : char = '\\' ∨ char = '"'
      · have : written = ['\\', char] := by simp [written, special]
        rcases special with rfl | rfl <;> (rw [this]; rfl)
      · have : written = [char] := by simp [written, special]
        rw [not_or] at special
        rw [this]
        exact readChar?_plain special.1 special.2 body

/-- A string of single-width characters has no constant exactly if a dollar sign of it starts
no escape.  The body of its constant is read back as the characters that the string denotes,
and the constant has their number. -/
theorem string_decoded (text : String) :
    (HasStray text.toList ∧ ∃ fault, string { value := text } = .error fault ∧
        fault.problem = .stringEscapeInvalid) ∨
      ¬ HasStray text.toList ∧ ∃ body chars,
        string { value := text } =
          .ok ("__STRING_LITERAL(" ++ toString chars.length ++ ",\"" ++ String.ofList body ++
            "\")") ∧
        (∀ others, Denotes text.toList others ↔ others = chars) ∧
        unescape? body = some chars := by
  have decodes := decodes_escapeBody text.toList
  rw [string]
  dsimp only
  generalize escapeBody text.toList = result at decodes ⊢
  cases decodes with
  | stray escape hasStray => exact .inl ⟨hasStray, _, rfl, rfl⟩
  | denoted denotes read =>
      refine .inr ⟨denotes.not_hasStray, _, _, rfl, fun others => ⟨denotes.unique, ?_⟩, read⟩
      rintro rfl
      exact denotes

/-- A byte ahead of a digit, a line feed ahead of digits, and what would end the constant. -/
example : (string { value := "$419$N33\"$$\\" }).toOption =
    some "__STRING_LITERAL(8,\"\\1019\\01233\\\"$\\\\\")" := by decide +kernel

end StructuredText.Code.Literal
