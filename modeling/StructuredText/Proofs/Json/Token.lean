import StructuredText.Json.Parser
import StructuredText.Json.Printer

/-!
# Numbers and strings in documents

What is written for a whole number or a string is read back as it was, whatever
follows it, as long as a number is not followed by something that would go on with it.
-/

set_option autoImplicit false

namespace StructuredText.Json

/-! ## Whole numbers -/

/-- The characters of a whole number: its digits, after a minus sign if it has one. -/
theorem toList_toString (value : Int) :
    (toString value).toList =
      if value < 0 then '-' :: Nat.toDigits 10 value.natAbs else Nat.toDigits 10 value.natAbs := by
  rw [Int.toString_eq_repr, Int.repr_eq_if]
  by_cases isNegative : value < 0
  · have sameDigits : (-value).toNat = value.natAbs := by omega
    rw [if_neg (by omega), if_pos isNegative, sameDigits]
    simp
  · have sameDigits : value.toNat = value.natAbs := by omega
    rw [if_pos (by omega), if_neg isNegative, sameDigits]
    simp

theorem isDigit_of_mem_toDigits {number : Nat} {char : Char}
    (member : char ∈ Nat.toDigits 10 number) : char.isDigit = true :=
  Nat.isDigit_of_mem_toDigits (by decide) (by decide) member

theorem all_isDigit_toDigits (number : Nat) :
    (Nat.toDigits 10 number).all Char.isDigit = true :=
  List.all_eq_true.mpr fun _ member => isDigit_of_mem_toDigits member

theorem foldl_toDigits (number : Nat) :
    (Nat.toDigits 10 number).foldl (fun value digit => value * 10 + (digit.toNat - 48)) 0 =
      number := by
  have read : Nat.ofDigitChars 10 (Nat.toDigits 10 number) 0 = number :=
    Nat.ofDigitChars_ten_toDigits
  rw [Nat.ofDigitChars_eq_foldl] at read
  simp only [Nat.mul_comm 10] at read
  exact read

theorem head_toDigits_ne_zero {number : Nat} (positive : 0 < number) :
    (Nat.toDigits 10 number).head? ≠ some '0' := by
  induction number using Nat.strongRecOn with
  | ind number ih =>
      rw [Nat.toDigits_eq_if (by decide)]
      by_cases small : number < 10
      · rw [if_pos small]
        have digits : ∀ digit < 10, 0 < digit → [Nat.digitChar digit].head? ≠ some '0' := by
          decide
        exact digits number small positive
      · have head := ih (number / 10) (by omega) (by omega)
        rw [if_neg small, List.head?_append]
        cases digits : Nat.toDigits 10 (number / 10) with
        | nil => exact absurd digits Nat.toDigits_ne_nil
        | cons first rest =>
            rw [digits] at head
            exact head

theorem digit_ne {char : Char} (isDigit : char.isDigit = true) :
    char ≠ '-' ∧ char ≠ 'n' ∧ char ≠ 't' ∧ char ≠ 'f' ∧ char ≠ '"' ∧ char ≠ '[' ∧
      char ≠ '\x7b' ∧ char ≠ ']' ∧ isBlank char = false := by
  refine ⟨?_, ?_, ?_, ?_, ?_, ?_, ?_, ?_, ?_⟩
  case refine_9 =>
    cases blank : isBlank char with
    | false => rfl
    | true =>
        unfold isBlank at blank
        simp only [Bool.or_eq_true, beq_iff_eq] at blank
        rcases blank with ((rfl | rfl) | rfl) | rfl <;> cases isDigit
  all_goals
    rintro rfl
    cases isDigit

theorem int?_int (value : Int) : (Json.int value).int? = some value := by
  have isWritten : Nat.toDigits 10 value.natAbs ≠ [] := Nat.toDigits_ne_nil
  have allDigits := all_isDigit_toDigits value.natAbs
  have read := foldl_toDigits value.natAbs
  show wholeNumber? (toString value).toList = some value
  rw [toList_toString]
  by_cases isNegative : value < 0
  · have notZero : (Nat.toDigits 10 value.natAbs).any (· != '0') = true := by
      have positive : 0 < value.natAbs := by omega
      have head := head_toDigits_ne_zero positive
      cases digits : Nat.toDigits 10 value.natAbs with
      | nil => exact absurd digits isWritten
      | cons first rest =>
          rw [digits] at head
          simp only [List.head?_cons, ne_eq, Option.some.injEq] at head
          simp [head]
    have notEmpty : (Nat.toDigits 10 value.natAbs).isEmpty = false :=
      List.isEmpty_eq_false_iff.mpr isWritten
    have negated : -(value.natAbs : Int) = value := by omega
    rw [if_pos isNegative, wholeNumber?, allDigits, notZero, notEmpty, read, negated]
    rfl
  · rw [if_neg isNegative]
    cases digits : Nat.toDigits 10 value.natAbs with
    | nil => exact absurd digits isWritten
    | cons first rest =>
        have isDigit : first.isDigit = true :=
          isDigit_of_mem_toDigits (by rw [digits]; exact List.mem_cons_self ..)
        rw [wholeNumber?.eq_def]
        split
        · next same =>
            cases same
            cases isDigit
        · rw [← digits, allDigits, read]
          simp [isWritten]
          omega

/-! ## Numbers in a text -/

def Ends (rest : List Char) : Prop :=
  ∀ char, rest.head? = some char →
    char.isDigit = false ∧ char ≠ '.' ∧ char ≠ 'e' ∧ char ≠ 'E'

theorem ends_nil : Ends [] := by
  intro char isHead
  cases isHead

theorem takeWhile_digits {digits rest : List Char}
    (allDigits : ∀ char ∈ digits, char.isDigit = true) (ends : Ends rest) :
    (digits ++ rest).takeWhile Char.isDigit = digits ∧
      (digits ++ rest).dropWhile Char.isDigit = rest := by
  rw [List.takeWhile_append_of_pos allDigits, List.dropWhile_append_of_pos allDigits]
  cases rest with
  | nil => simp
  | cons char rest =>
      obtain ⟨notDigit, -⟩ := ends char rfl
      simp [notDigit]

theorem wholePart?_toDigits (number : Nat) {rest : List Char} (ends : Ends rest) :
    wholePart? (Nat.toDigits 10 number ++ rest) = some (Nat.toDigits 10 number, rest) := by
  have isWritten : Nat.toDigits 10 number ≠ [] := Nat.toDigits_ne_nil
  have allDigits : ∀ char ∈ Nat.toDigits 10 number, char.isDigit = true :=
    fun char member => isDigit_of_mem_toDigits member
  obtain ⟨taken, dropped⟩ := takeWhile_digits allDigits ends
  rcases Nat.eq_zero_or_pos number with rfl | positive
  · simp [Nat.toDigits_zero, wholePart?]
  · have head := head_toDigits_ne_zero positive
    unfold wholePart?
    split
    · next rest' starts =>
        cases digits : Nat.toDigits 10 number with
        | nil => exact absurd digits isWritten
        | cons first others =>
            rw [digits] at head starts
            simp only [List.cons_append, List.cons.injEq] at starts
            simp [starts.1] at head
    · rw [taken, dropped]
      simp [isWritten]

theorem fractionPart?_ends {rest : List Char} (ends : Ends rest) :
    fractionPart? rest = some ([], rest) := by
  unfold fractionPart?
  split
  · exact absurd rfl (ends '.' rfl).2.1
  · rfl

theorem exponentPart?_ends {rest : List Char} (ends : Ends rest) :
    exponentPart? rest = some ([], rest) := by
  cases rest with
  | nil => rfl
  | cons mark rest =>
      obtain ⟨-, -, notSmall, notLarge⟩ := ends mark rfl
      simp [exponentPart?, notSmall, notLarge]

theorem unsigned?_toDigits (number : Nat) {rest : List Char} (ends : Ends rest) :
    unsigned? (Nat.toDigits 10 number ++ rest) = some (Nat.toDigits 10 number, rest) := by
  simp [unsigned?, wholePart?_toDigits number ends, fractionPart?_ends ends,
    exponentPart?_ends ends]

theorem number?_int (value : Int) {rest : List Char} (ends : Ends rest) :
    number? ((toString value).toList ++ rest) = some ((toString value).toList, rest) := by
  have read := unsigned?_toDigits value.natAbs ends
  rw [toList_toString]
  by_cases isNegative : value < 0
  · rw [if_pos isNegative, List.cons_append, number?, read]
    rfl
  · rw [if_neg isNegative]
    cases digits : Nat.toDigits 10 value.natAbs with
    | nil => exact absurd digits Nat.toDigits_ne_nil
    | cons first others =>
        have isDigit : first.isDigit = true :=
          isDigit_of_mem_toDigits (by rw [digits]; exact List.mem_cons_self ..)
        rw [← digits, number?.eq_def]
        split
        · next starts =>
            rw [digits, List.cons_append] at starts
            simp only [List.cons.injEq] at starts
            exact absurd starts.1 (digit_ne isDigit).1
        · exact read

/-! ## Strings -/

theorem readNat?_paddedDigits : ∀ unit < 32, ∃ a b c d,
    Text.paddedDigits 16 4 unit = [a, b, c, d] ∧ Text.readNat? 16 [a, b, c, d] = some unit := by
  intro unit small
  have read : ∀ unit < 32, Text.readNat? 16 (Text.paddedDigits 16 4 unit) = some unit := by
    decide
  have length := Text.length_paddedDigits 16 4 unit
  match digits : Text.paddedDigits 16 4 unit, length with
  | [a, b, c, d], _ => exact ⟨a, b, c, d, rfl, digits ▸ read unit small⟩

theorem units_escape (char : Char) (done : List Nat) (rest : List Char) :
    units done (escape char ++ rest) = units (char.toNat :: done) rest := by
  unfold escape
  split
  · rfl
  · rfl
  · rfl
  · rfl
  · rfl
  · next notQuote notBackslash _ _ _ =>
      split
      · next same => rw [same]; rfl
      · split
        · next same => rw [same]; rfl
        · split
          · next small =>
              obtain ⟨a, b, c, d, written, read⟩ := readNat?_paddedDigits char.toNat small
              rw [written]
              simp only [List.cons_append, List.nil_append, units, read]
          · next notSmall =>
              rw [List.singleton_append, units.eq_def]
              split
              · next same => cases same
              · next same => exact (notQuote (List.cons.inj same).1).elim
              · next same => exact (notBackslash (List.cons.inj same).1).elim
              · next same => exact (notBackslash (List.cons.inj same).1).elim
              · next same =>
                  cases same
                  rw [if_neg notSmall]

theorem units_quote (chars : List Char) (rest : List Char) :
    ∀ done, units done (chars.flatMap escape ++ '"' :: rest) =
      some (chars.reverse.map Char.toNat ++ done, rest) := by
  induction chars with
  | nil => exact fun done => rfl
  | cons char chars ih =>
      intro done
      rw [List.flatMap_cons, List.append_assoc, units_escape, ih]
      simp

theorem not_surrogate (char : Char) :
    isHighSurrogate char.toNat = false ∧ isLowSurrogate char.toNat = false := by
  have valid := char.valid
  unfold isHighSurrogate isLowSurrogate
  have same : char.toNat = char.val.toNat := rfl
  simp only [UInt32.isValidChar, Nat.isValidChar] at valid
  rw [same]
  constructor <;> simp <;> omega

theorem decode?_toNat (chars : List Char) :
    ∀ done, decode? done (chars.map Char.toNat) = some (done.reverse ++ chars) := by
  induction chars with
  | nil => intro done; simp [decode?]
  | cons char chars ih =>
      intro done
      obtain ⟨notHigh, notLow⟩ := not_surrogate char
      rw [List.map_cons, decode?.eq_def]
      simp [notHigh, notLow, ih]

/-- The text of a string is read back up to its closing quote. -/
theorem text?_quote (text : String) (rest : List Char) :
    text? (text.toList.flatMap escape ++ '"' :: rest) = some (some text, rest) := by
  unfold text?
  rw [units_quote]
  simp [← List.map_reverse, decode?_toNat]

end StructuredText.Json
