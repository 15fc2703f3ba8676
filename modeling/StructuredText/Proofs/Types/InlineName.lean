import Mathlib.Data.List.Basic
import StructuredText.Proofs.Json.Token
import StructuredText.Proofs.Spelling.Types

/-!
# The names of arrays that are written out

An array that is written out gets a name that is joined from the name of its elements and
the lengths of its dimensions, with an underscore ahead of each length.  A length has no
underscore in it, so the lengths can be read off the name from its end.  What cannot be read
off is where they start: the name of the elements may itself end in a length.
-/

set_option autoImplicit false

namespace StructuredText.DataType

def lengthsText (lengths : List Int) : String :=
  String.join (lengths.map fun length => "_" ++ toString length)

theorem toList_lengthsText (lengths : List Int) :
    (lengthsText lengths).toList =
      lengths.flatMap fun length => '_' :: (toString length).toList := by
  rw [lengthsText, String.toList_join, List.flatMap_map]
  simp

theorem lengthsText_append (first second : List Int) :
    lengthsText (first ++ second) = lengthsText first ++ lengthsText second := by
  apply String.toList_inj.mp
  rw [String.toList_append, toList_lengthsText, toList_lengthsText, toList_lengthsText,
    List.flatMap_append]

theorem toList_lengthsText_concat (lengths : List Int) (length : Int) :
    (lengthsText (lengths ++ [length])).toList =
      (lengthsText lengths).toList ++ '_' :: (toString length).toList := by
  rw [toList_lengthsText, toList_lengthsText, List.flatMap_append, List.flatMap_singleton]

theorem underscore_notMem_toString (length : Int) : '_' ∉ (toString length).toList := by
  have notDigit : ∀ number, '_' ∉ Nat.toDigits 10 number := fun number isDigit => by
    cases Json.isDigit_of_mem_toDigits isDigit
  rw [Json.toList_toString]
  split
  · intro member
    rcases List.mem_cons.mp member with same | isDigit
    · cases same
    · exact notDigit _ isDigit
  · exact notDigit _

theorem eq_of_append_underscore {first second last last' : List Char}
    (same : first ++ '_' :: last = second ++ '_' :: last') (plain : '_' ∉ last)
    (plain' : '_' ∉ last') : first = second ∧ last = last' := by
  rcases List.append_eq_append_iff.mp same with ⟨more, rfl, rest⟩ | ⟨more, rfl, rest⟩
  · cases more with
    | nil => exact ⟨(List.append_nil _).symm, (List.cons.inj rest).2⟩
    | cons char more =>
        rw [(List.cons.inj rest).2] at plain
        exact absurd (List.mem_append_right _ (List.mem_cons_self ..)) plain
  · cases more with
    | nil => exact ⟨List.append_nil _, (List.cons.inj rest).2.symm⟩
    | cons char more =>
        rw [(List.cons.inj rest).2] at plain'
        exact absurd (List.mem_append_right _ (List.mem_cons_self ..)) plain'

/-- Of two names with lengths that come to one text, one is the other with its first lengths:
the lengths agree from the end on, as far as both go. -/
theorem cases_of_append_lengthsText {name other : String} {lengths : List Int} :
    ∀ {lengths' : List Int}, name ++ lengthsText lengths = other ++ lengthsText lengths' →
      (∃ more, lengths = more ++ lengths' ∧ other = name ++ lengthsText more) ∨
        ∃ more, lengths' = more ++ lengths ∧ name = other ++ lengthsText more := by
  -- The induction takes the last length off both texts until one of them has none left.
  induction lengths using List.reverseRecOn with
  | nil =>
      intro lengths' same
      refine .inr ⟨lengths', (List.append_nil _).symm, ?_⟩
      rw [← same]
      exact (String.append_empty ..).symm
  | append_singleton lengths length ih =>
      intro lengths' same
      rcases List.eq_nil_or_concat lengths' with rfl | ⟨before, length', rfl⟩
      · refine .inl ⟨_, (List.append_nil _).symm, ?_⟩
        rw [same]
        exact (String.append_empty ..).symm
      · have text := congrArg String.toList same
        rw [List.concat_eq_append, String.toList_append, String.toList_append,
          toList_lengthsText_concat, toList_lengthsText_concat, ← List.append_assoc,
          ← List.append_assoc] at text
        obtain ⟨sameBefore, sameLast⟩ := eq_of_append_underscore text
          (underscore_notMem_toString length) (underscore_notMem_toString length')
        rw [← String.toList_append, ← String.toList_append, String.toList_inj] at sameBefore
        have sameLength : length = length' := Int.repr_inj.mp (String.toList_inj.mp sameLast)
        rw [List.concat_eq_append, ← sameLength]
        rcases ih sameBefore with ⟨more, rfl, rfl⟩ | ⟨more, rfl, rfl⟩
        · exact .inl ⟨more, List.append_assoc .., rfl⟩
        · exact .inr ⟨more, List.append_assoc .., rfl⟩

/-! ## Names of shapes -/

section Shapes

variable {dimensions dimensions' : List Dimension} {element element' : DataType}

theorem inlineName_eq (dimensions : List Dimension) (element : DataType) :
    inlineName dimensions element =
      inlineMark ++ (element.cName ++ lengthsText (dimensions.map Dimension.length)) := by
  rw [inlineName, lengthsText, List.map_map, String.append_assoc]
  rfl

/-- Two arrays have one shape for generated code: their elements have one name, and their
dimensions one list of lengths. -/
def SameShape (dimensions : List Dimension) (element : DataType) (dimensions' : List Dimension)
    (element' : DataType) : Prop :=
  element.cName = element'.cName ∧
    dimensions.map Dimension.length = dimensions'.map Dimension.length

/-- The first lengths of an array show at the end of the name of another array's elements, and
its other lengths are those of this array. -/
def RunsInto (dimensions : List Dimension) (element : DataType) (dimensions' : List Dimension)
    (element' : DataType) : Prop :=
  ∃ more, more ≠ [] ∧ dimensions.map Dimension.length = more ++ dimensions'.map Dimension.length ∧
    element'.cName = element.cName ++ lengthsText more

/-- Two arrays that are written out have one name just if they have one shape, or the lengths of
one run into the name of the elements of the other. -/
theorem inlineName_eq_iff :
    inlineName dimensions element = inlineName dimensions' element' ↔
      SameShape dimensions element dimensions' element' ∨
        RunsInto dimensions element dimensions' element' ∨
        RunsInto dimensions' element' dimensions element := by
  rw [inlineName_eq, inlineName_eq, String.append_right_inj]
  constructor
  · intro same
    rcases cases_of_append_lengthsText same with ⟨more, lengths, named⟩ | ⟨more, lengths, named⟩
    · cases more with
      | nil => exact .inl ⟨(named.trans (String.append_empty ..)).symm, lengths⟩
      | cons length more => exact .inr (.inl ⟨_, List.cons_ne_nil _ _, lengths, named⟩)
    · cases more with
      | nil => exact .inl ⟨named.trans (String.append_empty ..), lengths.symm⟩
      | cons length more => exact .inr (.inr ⟨_, List.cons_ne_nil _ _, lengths, named⟩)
  · rintro (⟨named, lengths⟩ | ⟨more, -, lengths, named⟩ | ⟨more, -, lengths, named⟩)
    · rw [named, lengths]
    · rw [lengths, named, lengthsText_append, String.append_assoc]
    · rw [lengths, named, lengthsText_append, String.append_assoc]

theorem cName_toUpper (type : DataType) : type.cName.toUpper = type.cName := by
  cases type with
  | elementary base => exact Elementary.cName_toUpper base
  | intLiteral | realLiteral => decide +kernel
  | synonym | subrange | enumeration | array | record | functionBlock => exact toUpper_toUpper _

theorem toUpper_lengthsText (lengths : List Int) :
    (lengthsText lengths).toUpper = lengthsText lengths := by
  have digits : ∀ number, (Nat.toDigits 10 number).map Char.toUpper = Nat.toDigits 10 number := by
    intro number
    have same := congrArg String.toList (toUpper_toString number)
    rwa [toList_toUpper, Nat.toString_eq_repr, Nat.toList_repr] at same
  have capital : ∀ length : Int, (toString length).toList.map Char.toUpper =
      (toString length).toList := by
    intro length
    rw [Json.toList_toString]
    split
    · rw [List.map_cons, digits]
      rfl
    · exact digits _
  apply String.toList_inj.mp
  rw [toList_toUpper, toList_lengthsText, List.map_flatMap]
  refine List.flatMap_congr fun length _ => ?_
  rw [List.map_cons, capital]
  rfl

/-- An array that is written out has its name in generated code too. -/
theorem cName_inlineArray (dimensions : List Dimension) (element : DataType) :
    (inlineArray dimensions element).cName = inlineName dimensions element := by
  show (inlineName dimensions element).toUpper = inlineName dimensions element
  rw [inlineName_eq, toUpper_append, toUpper_append, cName_toUpper, toUpper_lengthsText,
    inlineMark_toUpper]

end Shapes

end StructuredText.DataType
