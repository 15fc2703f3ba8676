import Mathlib.Data.Nat.Digits.Lemmas
import Mathlib.Tactic.Ring
import StructuredText.Proofs.Outcome
import StructuredText.Proofs.Text.Positional
import StructuredText.Token.Integer

/-!
# The values of integer tokens

The digits of a token have a positional value, however many there are and wherever gaps
stand between them.  A token has this value as long as a word of 128 bits without a sign
holds it.  A token with a sign has its exact value as long as a word of 128 bits with a sign
holds it, but for the least number of such a word: the magnitude is taken into the word before
the sign is.
-/

set_option autoImplicit false

namespace StructuredText

/-! ## Positional values -/

namespace Text

variable {base : Nat}

def weight (char : Char) : Nat := (digitWeight? char).getD 0

/-- The positional value of digits: the weight of each counts as many times the base as there
are digits behind it. -/
def positionalValue (base : Nat) (digits : List Char) : Nat :=
  Nat.ofDigits base (digits.reverse.map weight)

theorem positionalValue_cons (char : Char) (digits : List Char) :
    positionalValue base (char :: digits) =
      weight char * base ^ digits.length + positionalValue base digits := by
  rw [positionalValue, List.reverse_cons, List.map_append, Nat.ofDigits_append, List.length_map,
    List.length_reverse, List.map_singleton, Nat.ofDigits_singleton, ← positionalValue]
  ring

/-- Digits are read from the left as their positional value, behind the value before them. -/
theorem positional?_eq_positionalValue {digits : List Char}
    (isDigit : ∀ char ∈ digits, isDigitOf base char = true) (value : Nat) :
    positional? base value digits =
      some (value * base ^ digits.length + positionalValue base digits) := by
  induction digits generalizing value with
  | nil => simp [positional?, positionalValue]
  | cons char digits ih =>
      obtain ⟨first, rest⟩ := List.forall_mem_cons.mp isDigit
      obtain ⟨digit, read⟩ := Option.isSome_iff_exists.mp first
      have isWeight : weight char = digit := by
        rw [weight, (digitValue?_eq_some.mp read).1, Option.getD_some]
      rw [positional?, read, Option.bind_some, ih rest, positionalValue_cons, isWeight,
        List.length_cons]
      congr 1
      ring

theorem isDigitOf_of_positional? {digits : List Char} {value total : Nat}
    (read : positional? base value digits = some total) :
    ∀ char ∈ digits, isDigitOf base char = true := by
  induction digits generalizing value with
  | nil => exact List.forall_mem_nil _
  | cons char digits ih =>
      obtain ⟨digit, isDigit, rest⟩ := Option.bind_eq_some_iff.mp read
      exact List.forall_mem_cons.mpr ⟨Option.isSome_iff_exists.mpr ⟨digit, isDigit⟩, ih rest⟩

theorem readNat?_eq_some_iff {digits : List Char} {number : Nat} :
    readNat? base digits = some number ↔
      digits ≠ [] ∧ (∀ char ∈ digits, isDigitOf base char = true) ∧
        positionalValue base digits = number := by
  by_cases nonempty : digits = []
  · simp [nonempty, readNat?]
  rw [readNat?_of_ne_nil nonempty]
  constructor
  · intro read
    have areDigits := isDigitOf_of_positional? read
    rw [positional?_eq_positionalValue areDigits, Nat.zero_mul, Nat.zero_add] at read
    exact ⟨nonempty, areDigits, Option.some.inj read⟩
  · rintro ⟨-, areDigits, rfl⟩
    rw [positional?_eq_positionalValue areDigits, Nat.zero_mul, Nat.zero_add]

end Text

/-! ## Tokens -/

namespace IntegerToken

/-- The exact value of a token, whatever its size. -/
def exactValue (token : IntegerToken) : Nat :=
  Text.positionalValue token.radix.base (significant token.digits)

/-- A token that one of the constructors accepts: for digits of a given radix, or for a text
that may announce its radix. -/
inductive IsAccepted (token : IntegerToken) : Prop where
  | digits {radix : Radix} {text : String} (made : ofDigits radix text = .ok token)
  | text {text : String} (made : parse text = .ok token)

theorem ofDigits_ok {radix : Radix} {text : String} {token : IntegerToken}
    (made : ofDigits radix text = .ok token) :
    token = ⟨text, radix⟩ ∧ significant text ≠ [] ∧
      ∀ char ∈ significant text, Text.isDigitOf radix.base char = true := by
  unfold ofDigits at made
  dsimp only at made
  split at made
  next => cases made
  next digits =>
    split at made
    next => cases made
    next nonempty =>
      exact ⟨(Except.ok.inj made).symm, by simpa using nonempty, by simpa using digits⟩

theorem magnitude?_of_ofDigits {radix : Radix} {text : String} {token : IntegerToken}
    (made : ofDigits radix text = .ok token) :
    token.magnitude? = Text.positional? radix.base 0 (significant text) := by
  obtain ⟨rfl, nonempty, digits⟩ := ofDigits_ok made
  rw [magnitude?]
  split
  next rest plus =>
    rw [plus] at digits
    have := digits '+' (List.mem_cons_self)
    cases radix <;> cases this
  next => exact Text.readNat?_of_ne_nil nonempty

theorem IsAccepted.made {token : IntegerToken} (accepted : token.IsAccepted) :
    ∃ radix text, ofDigits radix text = .ok token := by
  cases accepted with
  | digits made => exact ⟨_, _, made⟩
  | text made =>
      unfold parse at made
      split at made <;> exact ⟨_, _, made⟩

theorem magnitude?_of_isAccepted {token : IntegerToken} (accepted : token.IsAccepted) :
    token.magnitude? = some token.exactValue := by
  obtain ⟨radix, text, made⟩ := accepted.made
  obtain ⟨rfl, -, digits⟩ := ofDigits_ok made
  rw [magnitude?_of_ofDigits made, Text.positional?_eq_positionalValue digits, Nat.zero_mul,
    Nat.zero_add, exactValue]

theorem value_eq_ok_iff {token : IntegerToken} (accepted : token.IsAccepted) {value : Nat} :
    token.value = .ok value ↔ token.exactValue = value ∧ value < 2 ^ 128 := by
  rw [IntegerToken.value, magnitude?_of_isAccepted accepted, Option.filter_some]
  by_cases fits : token.exactValue < Nat.pow 2 128
  · simp only [fits, decide_true, if_true, Except.ok.injEq]
    exact ⟨fun same => ⟨same, same ▸ fits⟩, And.left⟩
  · simp only [fits, decide_false, Bool.false_eq_true, if_false, reduceCtorEq, false_iff]
    rintro ⟨rfl, small⟩
    exact fits small

end IntegerToken

namespace SignedToken

/-- The exact value of a token with its sign. -/
def exactValue (token : SignedToken) : Int :=
  if token.isNegative then -(token.value.exactValue : Int) else token.value.exactValue

theorem isAccepted_of_parse {text : String} {token : SignedToken}
    (made : parse text = .ok token) : token.value.IsAccepted := by
  obtain ⟨value, isValue, rfl⟩ := map_eq_ok made
  exact .digits isValue

theorem value?_eq_some_iff_magnitude {token : SignedToken} {value : Int} :
    token.value? = some value ↔ ∃ magnitude < 2 ^ 127, token.value.value = .ok magnitude ∧
      (if token.isNegative then -(magnitude : Int) else magnitude) = value := by
  unfold value?
  cases found : token.value.value with
  | error fault => simp [Except.toOption]
  | ok magnitude =>
      by_cases small : magnitude < Nat.pow 2 127
      · simp [Except.toOption, Option.filter, small]
      · simp [Except.toOption, Option.filter, small]

theorem value?_eq_some_iff {token : SignedToken} (accepted : token.value.IsAccepted)
    {value : Int} :
    token.value? = some value ↔
      token.exactValue = value ∧ -2 ^ 127 < value ∧ value < 2 ^ 127 := by
  simp only [value?_eq_some_iff_magnitude, IntegerToken.value_eq_ok_iff accepted, exactValue]
  constructor
  · rintro ⟨magnitude, small, ⟨rfl, -⟩, rfl⟩
    refine ⟨rfl, ?_⟩
    split <;> omega
  · rintro ⟨rfl, low, high⟩
    have small : token.value.exactValue < 2 ^ 127 := by
      cases sign : token.isNegative <;>
        simp only [sign, if_true, Bool.false_eq_true, if_false] at low high <;> omega
    exact ⟨token.value.exactValue, small, ⟨rfl, by omega⟩, rfl⟩

/-! ## The limits of the values -/

/-- A token that a constructor accepts has a value just where its digits stay below two to the
power 128, and this value is theirs.  A text with a sign has a value just where a word of 128
bits with a sign holds its number, but for the least number of the word, which has none. -/
theorem values_exact (number : IntegerToken) (text : String) (token : SignedToken) :
    (number.IsAccepted → ∀ value : Nat,
      number.value = .ok value ↔ number.exactValue = value ∧ value < 2 ^ 128) ∧
    (parse text = .ok token → ∀ value : Int,
      token.value? = some value ↔
        token.exactValue = value ∧ (-2 ^ 127 ≤ value ∧ value ≤ 2 ^ 127 - 1) ∧
          value ≠ -2 ^ 127) := by
  refine ⟨fun accepted value => IntegerToken.value_eq_ok_iff accepted, fun made value => ?_⟩
  rw [value?_eq_some_iff (isAccepted_of_parse made)]
  constructor
  · rintro ⟨isExact, low, high⟩
    exact ⟨isExact, by omega, by omega⟩
  · rintro ⟨isExact, range, other⟩
    exact ⟨isExact, by omega, by omega⟩

def greatest : IntegerToken := ⟨"FFFF_FFFF_FFFF_FFFF_ffff_ffff_ffff_ffff_", .hex⟩

def deepest : SignedToken :=
  ⟨⟨"170_141_183_460_469_231_731_687_303_715_884_105_727", .decimal⟩, true⟩

def bottom : SignedToken := ⟨⟨"170141183460469231731687303715884105728", .decimal⟩, true⟩

theorem values_exact_greatest :
    (greatest.IsAccepted ∧ greatest.value = .ok (2 ^ 128 - 1)) ∧
      parse "-170_141_183_460_469_231_731_687_303_715_884_105_727" = .ok deepest ∧
        deepest.value? = some (-2 ^ 127 + 1) := by
  have isGreatest : IntegerToken.parse "16#FFFF_FFFF_FFFF_FFFF_ffff_ffff_ffff_ffff_" =
      .ok greatest := by decide +kernel
  have isDeepest : parse "-170_141_183_460_469_231_731_687_303_715_884_105_727" =
      .ok deepest := by decide +kernel
  obtain ⟨numbers, signed⟩ :=
    values_exact greatest "-170_141_183_460_469_231_731_687_303_715_884_105_727" deepest
  refine ⟨⟨.text isGreatest, ?_⟩, isDeepest, ?_⟩
  · exact (numbers (.text isGreatest) _).mpr (by decide +kernel)
  · exact (signed isDeepest _).mpr (by decide +kernel)

/-- The least number of a word with a sign is read, and has no value. -/
theorem bottom_has_no_value :
    parse "-170141183460469231731687303715884105728" = .ok bottom ∧
      bottom.exactValue = -2 ^ 127 ∧ bottom.value? = none := by
  decide +kernel

end SignedToken

end StructuredText
