import Mathlib.Data.List.Basic
import StructuredText.Code.Name
import StructuredText.Call.Standard

/-!
# Names joined by double underscores

The name of an overloaded function is joined from the name of the function and those of
types.  The parts of a joined name can be told apart as long as no part has a double
underscore behind its first letter and none ends in an underscore: leading underscores do
no harm, since a run of underscores in the joined name then ends one part and starts the
next.
-/

set_option autoImplicit false

namespace StructuredText.Code

/-! ## Telling parts apart -/

def isSettled : List Char → Bool
  | [] => true
  | ['_'] => false
  | '_' :: '_' :: _ => false
  | _ :: rest => isSettled rest

def isSeparable (name : String) : Bool :=
  let word := name.toList.dropWhile (· == '_')
  !word.isEmpty && isSettled word

theorem isSettled_append {word : List Char} (plain : '_' ∉ word) (rest : List Char) :
    isSettled (word ++ rest) = isSettled rest := by
  induction word with
  | nil => rfl
  | cons char word ih =>
      rw [List.mem_cons, not_or] at plain
      have other : char ≠ '_' := Ne.symm plain.1
      simp [isSettled, other, ih plain.2]

/-- A name that starts without underscores can be told apart if what comes after can. -/
theorem isSeparable_of_plain {name : String} {first rest : List Char}
    (parts : name.toList = first ++ rest) (present : first ≠ []) (plain : '_' ∉ first)
    (settled : isSettled rest = true) : isSeparable name = true := by
  have whole : isSettled name.toList = true := by
    rw [parts, isSettled_append plain]
    exact settled
  cases first with
  | nil => exact absurd rfl present
  | cons char first =>
      have other : char ≠ '_' := fun same => plain (same ▸ List.mem_cons_self ..)
      rw [parts, List.cons_append] at whole
      simp [isSeparable, parts, other, whole]

def cutWord : List Char → List Char × List Char
  | [] => ([], [])
  | '_' :: '_' :: rest => ([], '_' :: '_' :: rest)
  | char :: rest => (char :: (cutWord rest).1, (cutWord rest).2)

def cutName (text : List Char) : List Char × List Char :=
  let (word, rest) := cutWord (text.dropWhile (· == '_'))
  (text.takeWhile (· == '_') ++ word, rest)

def IsBehind (rest : List Char) : Prop := rest = [] ∨ ∃ next, rest = '_' :: '_' :: next

theorem cutWord_behind {rest : List Char} (behind : IsBehind rest) : cutWord rest = ([], rest) := by
  rcases behind with rfl | ⟨next, rfl⟩ <;> simp [cutWord]

theorem cutWord_append {rest : List Char} (behind : IsBehind rest) (word : List Char) :
    isSettled word = true → cutWord (word ++ rest) = (word, rest) := by
  induction word with
  | nil => exact fun _ => cutWord_behind behind
  | cons char word ih =>
      intro settled
      by_cases isUnderscore : char = '_'
      · subst isUnderscore
        cases word with
        | nil => simp [isSettled] at settled
        | cons second word =>
            -- The second character keeps the first from starting a double underscore.
            have other : second ≠ '_' := by
              intro same
              simp [isSettled, same] at settled
            have settledRest : isSettled (second :: word) = true := by
              simpa [isSettled, other] using settled
            have cutRest := ih settledRest
            rw [List.cons_append] at cutRest
            simp [cutWord, other, cutRest]
      · have settledRest : isSettled word = true := by
          simpa [isSettled, isUnderscore] using settled
        simp [cutWord, isUnderscore, ih settledRest]

theorem cutName_append {name : String} {rest : List Char} (separable : isSeparable name = true)
    (behind : IsBehind rest) : cutName (name.toList ++ rest) = (name.toList, rest) := by
  simp only [isSeparable, Bool.and_eq_true, Bool.not_eq_true', List.isEmpty_eq_false_iff]
    at separable
  obtain ⟨present, settled⟩ := separable
  have split := List.takeWhile_append_dropWhile (p := (· == '_')) (l := name.toList)
  have dropped : (name.toList ++ rest).dropWhile (· == '_') =
      name.toList.dropWhile (· == '_') ++ rest := by
    rw [List.dropWhile_append, if_neg (by simpa using present)]
  have taken : (name.toList ++ rest).takeWhile (· == '_') =
      name.toList.takeWhile (· == '_') := by
    have whole := List.takeWhile_append_dropWhile (p := (· == '_')) (l := name.toList ++ rest)
    rw [dropped, ← List.append_assoc] at whole
    have parts := List.append_cancel_right whole
    exact List.append_cancel_right (parts.trans split.symm)
  rw [cutName, dropped, taken, cutWord_append behind _ settled]
  exact congrArg (·, rest) split

def following (names : List String) : List Char :=
  names.flatMap fun name => '_' :: '_' :: name.toList

theorem isBehind_following (names : List String) : IsBehind (following names) := by
  cases names with
  | nil => exact .inl rfl
  | cons name names => exact .inr ⟨_, rfl⟩

theorem toList_joined (name : String) (names : List String) :
    ("__".intercalate (name :: names)).toList = name.toList ++ following names := by
  rw [String.toList_intercalate]
  induction names generalizing name with
  | nil => simp [following, List.intercalate]
  | cons second names ih =>
      have rest := ih second
      rw [List.map_cons] at rest ⊢
      rw [List.map_cons, List.intercalate_cons_cons, rest]
      simp [following]

theorem following_injective {names : List String} :
    ∀ {others : List String}, (∀ name ∈ names, isSeparable name = true) →
      (∀ name ∈ others, isSeparable name = true) → following names = following others →
        names = others := by
  induction names with
  | nil =>
      intro others _ _ same
      cases others with
      | nil => rfl
      | cons other others => cases same
  | cons name names ih =>
      intro others separable othersSeparable same
      cases others with
      | nil => cases same
      | cons other others =>
          rw [List.forall_mem_cons] at separable othersSeparable
          have sameBehind : name.toList ++ following names = other.toList ++ following others :=
            (List.cons.inj (List.cons.inj same).2).2
          have cut := cutName_append separable.1 (isBehind_following names)
          rw [sameBehind, cutName_append othersSeparable.1 (isBehind_following others)] at cut
          obtain ⟨sameName, sameRest⟩ := Prod.mk.inj cut
          rw [String.toList_inj.mp sameName, ih separable.2 othersSeparable.2 sameRest.symm]

theorem intercalate_injective {name other : String} {names others : List String}
    (separable : ∀ part ∈ name :: names, isSeparable part = true)
    (othersSeparable : ∀ part ∈ other :: others, isSeparable part = true)
    (same : "__".intercalate (name :: names) = "__".intercalate (other :: others)) :
    name :: names = other :: others := by
  refine following_injective separable othersSeparable ?_
  have sameText := congrArg String.toList same
  rw [toList_joined, toList_joined] at sameText
  exact congrArg (fun text => '_' :: '_' :: text) sameText

end StructuredText.Code
