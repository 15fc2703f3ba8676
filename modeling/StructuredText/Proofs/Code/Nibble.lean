import Mathlib.Data.List.Induction
import Mathlib.Tactic.Ring
import StructuredText.Code.Literal
import StructuredText.Proofs.Text.Positional

/-!
# Binary tokens in hexadecimal

Bits are grouped by four from the right, and every group becomes one hexadecimal digit of
its value.  The digits of all groups are read as the number that the bits are read as,
however many there are.
-/

set_option autoImplicit false

namespace StructuredText.Code.Literal

/-! ## Bits -/

theorem foldl_bits (bits : List Bool) (value : Nat) :
    bits.foldl (fun value bit => 2 * value + bit.toNat) value =
      value * 2 ^ bits.length + bitValue bits := by
  unfold bitValue
  induction bits generalizing value with
  | nil => simp
  | cons bit bits ih =>
      rw [List.foldl_cons, List.foldl_cons, ih, ih (2 * 0 + bit.toNat), List.length_cons]
      ring

theorem bitValue_append (first second : List Bool) :
    bitValue (first ++ second) = bitValue first * 2 ^ second.length + bitValue second := by
  rw [bitValue, List.foldl_append]
  exact foldl_bits second (bitValue first)

theorem bitValue_lt (bits : List Bool) : bitValue bits < 2 ^ bits.length := by
  induction bits using List.reverseRecOn with
  | nil => decide
  | append_singleton bits bit ih =>
      rw [bitValue_append, List.length_append, List.length_singleton, pow_succ]
      have : bitValue [bit] ≤ 1 := by cases bit <;> decide
      omega

/-- Digits that are all `0` or `1` are read as the bits that they stand for. -/
theorem positional?_bits {chars : List Char} (binary : ∀ char ∈ chars, char = '0' ∨ char = '1')
    (value : Nat) :
    Text.positional? 2 value chars =
      some ((chars.map (· == '1')).foldl (fun value bit => 2 * value + bit.toNat) value) := by
  induction chars generalizing value with
  | nil => rfl
  | cons char chars ih =>
      obtain ⟨isBit, binary⟩ := List.forall_mem_cons.mp binary
      have digit : Text.digitValue? 2 char = some (char == '1').toNat := by
        rcases isBit with rfl | rfl <;> decide
      rw [Text.positional?, digit, Option.bind_some, ih binary, List.map_cons, List.foldl_cons,
        Nat.mul_comm]

/-! ## Groups of bits -/

theorem digitValue?_hexDigit {value : Nat} (small : value < 16) :
    Text.digitValue? 16 (hexDigit value) = some value := by
  revert value
  decide

theorem hexDigit_mem {value : Nat} (small : value < 16) :
    hexDigit value ∈ "0123456789ABCDEF".toList := by
  revert value
  decide

theorem nibbles_ne_nil (bits : List Bool) : nibbles bits ≠ [] := by
  rw [nibbles]
  split <;> simp

theorem length_le_of_mem_nibbles (bits : List Bool) :
    ∀ nibble ∈ nibbles bits, nibble.length ≤ 4 := by
  induction bits using nibbles.induct with
  | case1 bits short =>
      rw [nibbles, dif_pos short]
      simpa using short
  | case2 bits long ih =>
      rw [nibbles, dif_neg long]
      intro nibble member
      rcases List.mem_append.mp member with inFront | isLast
      · exact ih nibble inFront
      · rw [List.mem_singleton.mp isLast, List.length_drop]
        omega

/-- There are as many groups as it takes, and one if there are no bits. -/
theorem length_nibbles (bits : List Bool) :
    (nibbles bits).length = max 1 ((bits.length + 3) / 4) := by
  induction bits using nibbles.induct with
  | case1 bits short =>
      rw [nibbles, dif_pos short, List.length_singleton]
      omega
  | case2 bits long ih =>
      rw [nibbles, dif_neg long, List.length_append, ih, List.length_take, List.length_singleton]
      omega

theorem bitValue_lt_of_mem_nibbles {bits nibble : List Bool} (member : nibble ∈ nibbles bits) :
    bitValue nibble < 16 :=
  calc bitValue nibble < 2 ^ nibble.length := bitValue_lt nibble
    _ ≤ 2 ^ 4 := Nat.pow_le_pow_right (by decide) (length_le_of_mem_nibbles bits nibble member)

/-- The digits of the groups are read as the value of the bits: all groups but the first
have four bits. -/
theorem positional?_nibbles (bits : List Bool) :
    Text.positional? 16 0 ((nibbles bits).map fun nibble => hexDigit (bitValue nibble)) =
      some (bitValue bits) := by
  induction bits using nibbles.induct with
  | case1 bits short =>
      have member : bits ∈ nibbles bits := by
        rw [nibbles, dif_pos short]
        exact List.mem_singleton_self bits
      rw [nibbles, dif_pos short, List.map_singleton, Text.positional?,
        digitValue?_hexDigit (bitValue_lt_of_mem_nibbles member)]
      simp [Text.positional?]
  | case2 bits long ih =>
      have last : bits.drop (bits.length - 4) ∈ nibbles bits := by
        rw [nibbles, dif_neg long]
        exact List.mem_append_right _ (List.mem_singleton_self _)
      have four : (bits.drop (bits.length - 4)).length = 4 := by
        rw [List.length_drop]
        omega
      have value : bitValue bits = bitValue (bits.take (bits.length - 4)) * 16 +
          bitValue (bits.drop (bits.length - 4)) := by
        conv_lhs => rw [← List.take_append_drop (bits.length - 4) bits]
        rw [bitValue_append, four]
        rfl
      rw [nibbles, dif_neg long, List.map_append, Text.positional?_append, ih, Option.bind_some,
        List.map_singleton, Text.positional?,
        digitValue?_hexDigit (bitValue_lt_of_mem_nibbles last), value]
      simp [Text.positional?]

/-! ## Tokens -/

def bits (token : String) : List Bool := (IntegerToken.significant token).map (· == '1')

def hexDigits (token : String) : List Char :=
  (nibbles (bits token)).map fun nibble => hexDigit (bitValue nibble)

theorem hexOfBinary_eq (token : String) :
    hexOfBinary token = "0x" ++ String.ofList (hexDigits token) := rfl

theorem readNat?_hexDigits (token : String) :
    Text.readNat? 16 (hexDigits token) = some (bitValue (bits token)) := by
  rw [Text.readNat?_of_ne_nil (by simp [hexDigits, nibbles_ne_nil])]
  exact positional?_nibbles (bits token)

theorem positional?_significant {token : String}
    (binary : ∀ char ∈ token.toList, char = '0' ∨ char = '1' ∨ char = '_') :
    Text.positional? 2 0 (IntegerToken.significant token) = some (bitValue (bits token)) := by
  apply positional?_bits
  intro char member
  obtain ⟨inToken, noGap⟩ := List.mem_filter.mp member
  rcases binary char inToken with isZero | isOne | rfl
  · exact .inl isZero
  · exact .inr isOne
  · cases noGap

/-- A binary token is written with as many hexadecimal digits as its bits take, one if it
has none, and these are read as the number that the bits are read as. -/
theorem hexOfBinary_exact {token : String}
    (binary : ∀ char ∈ token.toList, char = '0' ∨ char = '1' ∨ char = '_') :
    ∃ digits value, hexOfBinary token = "0x" ++ String.ofList digits ∧
      digits.length = max 1 (((IntegerToken.significant token).length + 3) / 4) ∧
      (∀ digit ∈ digits, digit ∈ "0123456789ABCDEF".toList) ∧
      Text.positional? 2 0 (IntegerToken.significant token) = some value ∧
      Text.readNat? 16 digits = some value := by
  refine ⟨hexDigits token, bitValue (bits token), hexOfBinary_eq token, ?_, ?_,
    positional?_significant binary, readNat?_hexDigits token⟩
  · rw [hexDigits, List.length_map, length_nibbles, bits, List.length_map]
  · intro digit member
    obtain ⟨nibble, inBits, rfl⟩ := List.mem_map.mp member
    exact hexDigit_mem (bitValue_lt_of_mem_nibbles inBits)

def wideBits : String :=
  "_10_" ++ String.join (List.replicate 8 "1111_0101_")

theorem hexOfBinary_exact_wide :
    (∀ char ∈ wideBits.toList, char = '0' ∨ char = '1' ∨ char = '_') ∧
      ∃ digits value, hexOfBinary wideBits = "0x" ++ String.ofList digits ∧
        digits.length = 17 ∧ (∀ digit ∈ digits, digit ∈ "0123456789ABCDEF".toList) ∧
        Text.positional? 2 0 (IntegerToken.significant wideBits) = some value ∧
        Text.readNat? 16 digits = some value := by
  have all : wideBits.toList.all (fun char => char = '0' ∨ char = '1' ∨ char = '_') = true := by
    decide +kernel
  have binary : ∀ char ∈ wideBits.toList, char = '0' ∨ char = '1' ∨ char = '_' :=
    fun char member => of_decide_eq_true (List.all_eq_true.mp all char member)
  have count : (IntegerToken.significant wideBits).length = 66 := by decide +kernel
  obtain ⟨digits, value, written, length, rest⟩ := hexOfBinary_exact binary
  rw [count] at length
  exact ⟨binary, digits, value, written, length, rest⟩

end StructuredText.Code.Literal
