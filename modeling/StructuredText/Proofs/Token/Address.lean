import Mathlib.Data.List.Forall2
import StructuredText.Code.Name
import StructuredText.Proofs.Code.Duration
import StructuredText.Proofs.Outcome
import StructuredText.Proofs.Token.Integer

/-!
# The texts and the names of addresses

An address is written as an area, a size and numbers with points between them, or as an area
and a star.  Exactly these texts are read.  What an address is printed as is one of its texts,
and its name in generated code is its own: the letters end where the digits start, and the
marks between them tell the numbers apart.
-/

set_option autoImplicit false

namespace StructuredText.Address

/-! ## The grammar of addresses -/

def areaLetters : List (Char × Area) := [('I', .input), ('Q', .output), ('M', .memory)]

def sizeLetters : List (Char × AddressSize) :=
  [('X', .bit), ('B', .byte), ('W', .word), ('D', .doubleWord), ('L', .longWord)]

inductive IsMark : List Char → AddressSize → Prop where
  | blank : IsMark [] .none
  | letter {letter : Char} {size : AddressSize} (listed : (letter, size) ∈ sizeLetters) :
      IsMark [letter] size

structure IsRun (run : List Char) (number : Nat) : Prop where
  nonempty : run ≠ []
  digits : ∀ char ∈ run, char.isDigit = true
  value : Text.positionalValue 10 run = number
  small : number < 2 ^ 32

inductive IsWritten : List Char → Address → Prop where
  | unassigned {letter : Char} {area : Area} (listed : (letter, area) ∈ areaLetters) :
      IsWritten ['%', letter, '*'] { area, size := .unspecified, parts := [] }
  | placed {letter : Char} {area : Area} {mark : List Char} {size : AddressSize}
      {runs : List (List Char)} {parts : List Nat} (listed : (letter, area) ∈ areaLetters)
      (isMark : IsMark mark size) (nonempty : runs ≠ [])
      (areRuns : List.Forall₂ IsRun runs parts) :
      IsWritten ('%' :: letter :: (mark ++ ['.'].intercalate runs)) { area, size, parts }

/-! ## Letters -/

theorem ofLetter_eq_ok {letter : Char} {area : Area} :
    Area.ofLetter (some letter) = .ok area ↔ (letter, area) ∈ areaLetters := by
  by_cases isInput : letter = 'I'
  · subst isInput
    cases area <;> decide
  by_cases isOutput : letter = 'Q'
  · subst isOutput
    cases area <;> decide
  by_cases isMemory : letter = 'M'
  · subst isMemory
    cases area <;> decide
  simp [Area.ofLetter, Area.all, Area.letter, areaLetters, isInput, isOutput, isMemory,
    Ne.symm isInput, Ne.symm isOutput, Ne.symm isMemory]

theorem letter_mem (area : Area) : (area.letter, area) ∈ areaLetters := by
  cases area <;> decide

theorem area_eq_of_letter {area other : Area} (same : area.letter = other.letter) :
    area = other := by
  revert same
  cases area <;> cases other <;> decide

theorem size_ofLetter_eq_ok {letter : Char} {size : AddressSize}
    (isMark : AddressSize.isMark letter = true) :
    AddressSize.ofLetter (some letter) = .ok size ↔ (letter, size) ∈ sizeLetters := by
  have isListed : letter ∈ ['X', 'B', 'W', 'D', 'L'] := by
    simpa [AddressSize.isMark] using isMark
  simp only [List.mem_cons, List.not_mem_nil, or_false] at isListed
  rcases isListed with rfl | rfl | rfl | rfl | rfl <;> cases size <;> decide

theorem of_mem_sizeLetters {letter : Char} {size : AddressSize}
    (listed : (letter, size) ∈ sizeLetters) :
    AddressSize.isMark letter = true ∧ AddressSize.ofLetter (some letter) = .ok size ∧
      size.letter = some letter ∧ size.nameMark = letter.toString := by
  simp only [sizeLetters, List.mem_cons, List.not_mem_nil, or_false, Prod.mk.injEq] at listed
  rcases listed with ⟨rfl, rfl⟩ | ⟨rfl, rfl⟩ | ⟨rfl, rfl⟩ | ⟨rfl, rfl⟩ | ⟨rfl, rfl⟩ <;> decide

theorem toList_toString_char (letter : Char) : letter.toString.toList = [letter] :=
  String.toList_singleton letter

/-! ## Numbers -/

theorem part_eq_ok_iff {run : List Char} {number : Nat} :
    part run = .ok number ↔ IsRun run number := by
  have found : part run = .ok number ↔
      (Text.readNat? 10 run).filter (· < Nat.pow 2 32) = some number := by
    unfold part
    split
    next value read => rw [read, Except.ok.injEq, Option.some.injEq]
    next unread => rw [unread]; simp
  rw [found, Option.filter_eq_some_iff, Text.readNat?_eq_some_iff]
  simp only [← Binary64.isDigit_iff, decide_eq_true_eq]
  constructor
  · rintro ⟨⟨nonempty, digits, value⟩, small⟩
    exact { nonempty, digits, value, small }
  · rintro ⟨nonempty, digits, value, small⟩
    exact ⟨⟨nonempty, digits, value⟩, small⟩

theorem isRun_toDigits {number : Nat} (small : number < 2 ^ 32) :
    IsRun (Nat.toDigits 10 number) number := by
  have digits := Code.Literal.isDigit_toDigits number
  have read := Code.Literal.positional?_toDigits number
  rw [Text.positional?_eq_positionalValue fun char member =>
    Binary64.isDigit_iff.mp (digits char member), Nat.zero_mul, Nat.zero_add] at read
  exact { nonempty := Nat.toDigits_ne_nil, digits, value := Option.some.inj read, small }

structure IsNumerals (runs : List (List Char)) : Prop where
  nonempty : runs ≠ []
  digits : ∀ run ∈ runs, run ≠ [] ∧ ∀ char ∈ run, char.isDigit = true

theorem IsNumerals.of_runs {runs : List (List Char)} {parts : List Nat} (nonempty : runs ≠ [])
    (areRuns : List.Forall₂ IsRun runs parts) : IsNumerals runs := by
  refine ⟨nonempty, ?_⟩
  clear nonempty
  induction areRuns with
  | nil => exact List.forall_mem_nil _
  | cons isRun _ ih => exact List.forall_mem_cons.mpr ⟨⟨isRun.nonempty, isRun.digits⟩, ih⟩

theorem IsNumerals.of_parts {parts : List Nat} (nonempty : parts ≠ []) :
    IsNumerals (parts.map (Nat.toDigits 10)) := by
  refine ⟨by simpa using nonempty, List.forall_mem_map.mpr fun number _ => ?_⟩
  exact ⟨Nat.toDigits_ne_nil, Code.Literal.isDigit_toDigits number⟩

section Numerals

variable {runs : List (List Char)} (numerals : IsNumerals runs)
include numerals

theorem IsNumerals.head (separator : Char) :
    ∃ first rest, [separator].intercalate runs = first :: rest ∧ first.isDigit = true := by
  obtain ⟨run, more, rfl⟩ := List.exists_cons_of_ne_nil numerals.nonempty
  obtain ⟨nonempty, digits⟩ := numerals.digits run List.mem_cons_self
  obtain ⟨first, rest, rfl⟩ := List.exists_cons_of_ne_nil nonempty
  have isDigit := digits first List.mem_cons_self
  cases more with
  | nil => exact ⟨first, rest, List.intercalate_singleton, isDigit⟩
  | cons next more => exact ⟨first, _, List.intercalate_cons_cons, isDigit⟩

theorem IsNumerals.splitOn {separator : Char} (noDigit : separator.isDigit = false) :
    ([separator].intercalate runs).splitOn separator = runs := by
  refine List.splitOn_intercalate separator (fun run member inside => ?_) numerals.nonempty
  rw [(numerals.digits run member).2 separator inside] at noDigit
  cases noDigit

end Numerals

theorem splitAtPoints_eq (text : List Char) : splitAtPoints text = text.splitOn '.' := by
  induction text with
  | nil => rfl
  | cons char text ih =>
      have step : (char :: text).splitOn '.' = if (char == '.') = true then
          [] :: text.splitOn '.' else (text.splitOn '.').modifyHead (char :: ·) :=
        List.splitOnP_cons_eq_if_modifyHead char text
      rw [splitAtPoints, ih, step]
      by_cases isPoint : char = '.'
      · simp [isPoint]
      · rw [if_neg isPoint, if_neg (by simpa using isPoint)]
        split
        next none => exact absurd none (List.splitOn_ne_nil '.' text)
        next first rest found => rw [found, List.modifyHead_cons]

theorem isDecimalDigit_of_isDigit {char : Char} (isDigit : char.isDigit = true) :
    Text.isDecimalDigit char = true := by
  simp only [Char.isDigit, Bool.and_eq_true, decide_eq_true_eq] at isDigit
  have low : 0x30 ≤ char.toNat := UInt32.le_iff_toNat_le.mp isDigit.1
  have high : char.toNat ≤ 0x39 := UInt32.le_iff_toNat_le.mp isDigit.2
  refine List.any_eq_true.mpr ⟨0x30, by decide, ?_⟩
  simp only [Bool.and_eq_true, decide_eq_true_eq]
  omega

theorem parts?_eq_some {text : List Char} {runs : List (List Char)}
    (found : parts? text = some runs) : runs ≠ [] ∧ text = ['.'].intercalate runs := by
  unfold parts? at found
  dsimp only at found
  split at found
  next =>
    cases found
    rw [splitAtPoints_eq]
    exact ⟨List.splitOn_ne_nil '.' text, (List.intercalate_splitOn '.').symm⟩
  next => cases found

theorem IsNumerals.parts? {runs : List (List Char)} (numerals : IsNumerals runs) :
    parts? (['.'].intercalate runs) = some runs := by
  unfold Address.parts?
  dsimp only
  rw [splitAtPoints_eq, numerals.splitOn (by decide), if_pos]
  refine List.all_eq_true.mpr fun run member => ?_
  obtain ⟨nonempty, digits⟩ := numerals.digits run member
  have decimal : run.all Text.isDecimalDigit = true :=
    List.all_eq_true.mpr fun char inside => isDecimalDigit_of_isDigit (digits char inside)
  simp [nonempty, decimal]

/-! ## Marks -/

namespace IsMark

variable {mark : List Char} {size : AddressSize}

theorem ofLetter (isMark : IsMark mark size) : AddressSize.ofLetter mark.head? = .ok size := by
  cases isMark with
  | blank => rfl
  | letter listed => exact (of_mem_sizeLetters listed).2.1

theorem display (isMark : IsMark mark size) :
    ((size.letter.map Char.toString).getD "").toList = mark := by
  cases isMark with
  | blank => rfl
  | letter listed =>
      rw [(of_mem_sizeLetters listed).2.2.1, Option.map_some, Option.getD_some,
        toList_toString_char]

theorem name (isMark : IsMark mark size) : size.nameMark.toList = mark := by
  cases isMark with
  | blank => rfl
  | letter listed => rw [(of_mem_sizeLetters listed).2.2.2, toList_toString_char]

theorem not_isMark_of_isDigit {char : Char} (isDigit : char.isDigit = true) :
    AddressSize.isMark char = false := by
  rw [AddressSize.isMark, Bool.eq_false_iff]
  intro listed
  simp only [List.contains_eq_mem, List.mem_cons, List.not_mem_nil, or_false,
    decide_eq_true_eq] at listed
  rcases listed with rfl | rfl | rfl | rfl | rfl <;> cases isDigit

theorem splitMark {runs : List (List Char)} (isMark : IsMark mark size)
    (numerals : IsNumerals runs) (separator : Char) :
    splitMark (mark ++ [separator].intercalate runs) =
      (mark.head?, [separator].intercalate runs) := by
  obtain ⟨first, rest, begins, isDigit⟩ := numerals.head separator
  rw [begins]
  cases isMark with
  | blank => simp [Address.splitMark, not_isMark_of_isDigit isDigit]
  | letter listed => simp [Address.splitMark, (of_mem_sizeLetters listed).1]

theorem append_ne_star {runs : List (List Char)} (isMark : IsMark mark size)
    (numerals : IsNumerals runs) (separator : Char) :
    mark ++ [separator].intercalate runs ≠ ['*'] := by
  obtain ⟨first, rest, begins, isDigit⟩ := numerals.head separator
  rw [begins]
  cases isMark with
  | blank =>
      rintro same
      obtain ⟨rfl, -⟩ := List.cons.inj same
      cases isDigit
  | letter => simp

theorem of_splitMark {text : List Char}
    (isSize : AddressSize.ofLetter (Address.splitMark text).1 = .ok size) :
    ∃ mark, text = mark ++ (Address.splitMark text).2 ∧ IsMark mark size := by
  have blank (isBlank : AddressSize.ofLetter none = .ok size) : IsMark [] size := by
    obtain rfl : AddressSize.none = size := Except.ok.inj isBlank
    exact .blank
  cases text with
  | nil => exact ⟨[], rfl, blank isSize⟩
  | cons char rest =>
      rw [Address.splitMark] at isSize ⊢
      split at isSize
      next marks =>
        rw [if_pos marks]
        exact ⟨[char], rfl, .letter ((size_ofLetter_eq_ok marks).mp isSize)⟩
      next unmarked =>
        rw [if_neg unmarked]
        exact ⟨[], rfl, blank isSize⟩

end IsMark

/-! ## Reading an address -/

theorem isWritten_of_parse {text : String} {address : Address}
    (made : parse text = .ok address) : IsWritten text.toList address := by
  unfold parse at made
  split at made
  next letter rest chars =>
    rw [chars]
    cases isArea : Area.ofLetter (some letter) with
    | error fault =>
        rw [isArea] at made
        cases made
    | ok area =>
        have listed := ofLetter_eq_ok.mp isArea
        rw [isArea] at made
        dsimp only at made
        split at made
        next star =>
          cases made
          exact star ▸ .unassigned listed
        next =>
          split at made
          next => cases made
          next runs areRuns =>
            obtain ⟨size, isSize, made⟩ := bind_eq_ok made
            obtain ⟨parts, areParts, made⟩ := bind_eq_ok made
            cases made
            obtain ⟨mark, isRest, isMark⟩ := IsMark.of_splitMark isSize
            obtain ⟨nonempty, joined⟩ := parts?_eq_some areRuns
            rw [joined] at isRest
            rw [isRest]
            refine .placed listed isMark nonempty ((mapM_eq_ok_iff.mp areParts).imp ?_)
            exact fun run number isPart => part_eq_ok_iff.mp isPart
  next => cases made

theorem parse_eq {text : String} {letter : Char} {rest : List Char} {area : Area}
    (isText : text.toList = '%' :: letter :: rest) (listed : (letter, area) ∈ areaLetters) :
    parse text =
      if rest = ['*'] then .ok { area, size := .unspecified, parts := [] }
      else
        match parts? (splitMark rest).2 with
        | none => .error .notAnAddress
        | some digits => do
            let size ← AddressSize.ofLetter (splitMark rest).1
            let parts ← digits.mapM part
            return { area, size, parts } := by
  unfold parse
  rw [isText]
  split
  next found behind same =>
    obtain ⟨rfl, rfl⟩ := List.cons.inj (List.cons.inj same).2
    rewrite [ofLetter_eq_ok.mpr listed]
    rfl
  next other => exact absurd rfl (other letter rest)

theorem parse_of_isWritten {text : String} {address : Address}
    (written : IsWritten text.toList address) : parse text = .ok address := by
  obtain ⟨chars, isText⟩ : ∃ chars, text.toList = chars := ⟨_, rfl⟩
  rw [isText] at written
  cases written with
  | unassigned listed => rw [parse_eq isText listed, if_pos rfl]
  | placed listed isMark nonempty areRuns =>
      have numerals := IsNumerals.of_runs nonempty areRuns
      rw [parse_eq isText listed, if_neg (isMark.append_ne_star numerals '.'),
        isMark.splitMark numerals '.']
      dsimp only
      rw [numerals.parts?]
      dsimp only
      rw [isMark.ofLetter, ok_bind, mapM_eq_ok_iff.mpr (areRuns.imp fun _ _ => part_eq_ok_iff.mpr)]
      rfl

/-! ## Printing and naming an address -/

inductive IsValid : Address → Prop where
  | unassigned (area : Area) : IsValid { area, size := .unspecified, parts := [] }
  | placed (area : Area) {mark : List Char} {size : AddressSize} {parts : List Nat}
      (isMark : IsMark mark size) (nonempty : parts ≠ [])
      (small : ∀ number ∈ parts, number < 2 ^ 32) :
      IsValid { area, size, parts }

theorem IsWritten.isValid {text : List Char} {address : Address}
    (written : IsWritten text address) : address.IsValid := by
  cases written with
  | unassigned => exact .unassigned _
  | placed _ isMark nonempty areRuns =>
      refine .placed _ isMark ?_ ?_
      · rintro rfl
        cases areRuns
        exact nonempty rfl
      · intro number member
        obtain ⟨run, -, isRun⟩ := exists_of_mem_right areRuns number member
        exact isRun.small

theorem toList_display (address : Address) :
    address.display.toList =
      '%' :: address.area.letter :: (((address.size.letter.map Char.toString).getD "").toList ++
        ['.'].intercalate (address.parts.map (Nat.toDigits 10))) := by
  have digits : address.parts.map (String.toList ∘ toString) =
      address.parts.map (Nat.toDigits 10) :=
    List.map_congr_left fun number _ => Code.Literal.toList_toString_nat number
  rw [display, String.toList_append, String.toList_append, String.toList_append,
    toList_toString_char, String.toList_intercalate, List.map_map, digits]
  rfl

theorem IsValid.isWritten_display {address : Address} (valid : address.IsValid) :
    IsWritten address.display.toList address := by
  rw [toList_display]
  cases valid with
  | unassigned area =>
      change IsWritten ('%' :: area.letter :: ('*'.toString.toList ++ [])) _
      rw [toList_toString_char]
      exact .unassigned (letter_mem area)
  | placed area isMark nonempty small =>
      rw [isMark.display]
      refine .placed (letter_mem area) isMark (IsNumerals.of_parts nonempty).nonempty ?_
      rw [List.forall₂_map_left_iff, List.forall₂_same]
      exact fun number member => isRun_toDigits (small number member)

theorem toList_cName (address : Address) :
    address.cName.toList =
      '_' :: '_' :: address.area.letter :: (address.size.nameMark.toList ++
        ['_'].intercalate (address.parts.map (Nat.toDigits 10))) := by
  have digits : address.parts.map (String.toList ∘ toString) =
      address.parts.map (Nat.toDigits 10) :=
    List.map_congr_left fun number _ => Code.Literal.toList_toString_nat number
  rw [cName, String.toList_append, String.toList_append, String.toList_append,
    toList_toString_char, String.toList_intercalate, List.map_map, digits]
  rfl

theorem toDigits_injective : Function.Injective (Nat.toDigits 10) := by
  intro number other same
  have read := Code.Literal.positional?_toDigits number
  rw [same, Code.Literal.positional?_toDigits] at read
  exact (Option.some.inj read).symm

theorem IsMark.name_inj {mark other : List Char} {size otherSize : AddressSize}
    {parts otherParts : List Nat} (isMark : IsMark mark size) (isOther : IsMark other otherSize)
    (nonempty : parts ≠ []) (otherNonempty : otherParts ≠ [])
    (same : mark ++ ['_'].intercalate (parts.map (Nat.toDigits 10)) =
      other ++ ['_'].intercalate (otherParts.map (Nat.toDigits 10))) :
    size = otherSize ∧ parts = otherParts := by
  have numerals := IsNumerals.of_parts nonempty
  have otherNumerals := IsNumerals.of_parts otherNonempty
  have split := isMark.splitMark numerals '_'
  rw [same, isOther.splitMark otherNumerals '_'] at split
  obtain ⟨heads, joined⟩ := Prod.mk.inj split
  have sizes := isMark.ofLetter
  rw [← heads, isOther.ofLetter] at sizes
  have runs := congrArg (List.splitOn '_') joined
  rw [numerals.splitOn (by decide), otherNumerals.splitOn (by decide)] at runs
  exact ⟨(Except.ok.inj sizes).symm, (List.map_injective_iff.mpr toDigits_injective runs).symm⟩

theorem IsValid.cName_inj {address other : Address} (valid : address.IsValid)
    (otherValid : other.IsValid) (same : address.cName = other.cName) : address = other := by
  have chars := congrArg String.toList same
  rw [toList_cName, toList_cName] at chars
  obtain ⟨letters, rest⟩ := List.cons.inj (List.cons.inj (List.cons.inj chars).2).2
  have areas := area_eq_of_letter letters
  -- A name without numerals has nothing behind the area.
  have numerals {mark : List Char} {parts : List Nat} (nonempty : parts ≠ []) :
      mark ++ ['_'].intercalate (parts.map (Nat.toDigits 10)) ≠ [] := by
    obtain ⟨first, rest, begins, -⟩ := (IsNumerals.of_parts nonempty).head '_'
    rw [begins]
    simp
  cases valid with
  | unassigned area =>
      cases otherValid with
      | unassigned => exact congrArg (Address.mk · .unspecified []) areas
      | placed _ _ nonempty => exact absurd rest.symm (numerals nonempty)
  | placed area isMark nonempty =>
      cases otherValid with
      | unassigned => exact absurd rest (numerals nonempty)
      | placed otherArea isOther otherNonempty =>
          rw [isMark.name, isOther.name] at rest
          obtain ⟨rfl, rfl⟩ := isMark.name_inj isOther nonempty otherNonempty rest
          exact congrArg (Address.mk · _ _) areas

/-- Exactly the texts of addresses are read, each as its address.  A text of an address that was
read is what it is printed as, and addresses that were read have different names. -/
theorem texts_and_names :
    (∀ (text : String) (address : Address),
      parse text = .ok address ↔ IsWritten text.toList address) ∧
    (∀ (text : String) (address : Address),
      parse text = .ok address → parse address.display = .ok address) ∧
    (∀ (text otherText : String) (address other : Address),
      parse text = .ok address → parse otherText = .ok other →
        address.cName = other.cName → address = other) := by
  refine ⟨fun text address => ⟨isWritten_of_parse, parse_of_isWritten⟩, ?_, ?_⟩
  · intro text address made
    exact parse_of_isWritten (isWritten_of_parse made).isValid.isWritten_display
  · intro text otherText address other made otherMade same
    exact (isWritten_of_parse made).isValid.cName_inj (isWritten_of_parse otherMade).isValid same

def outlet : Address := { area := .output, size := .doubleWord, parts := [7, 2, 31] }

theorem texts_and_names_outlet :
    ∃ padded, parse "%QD007.02.31" = .ok padded ∧ IsWritten "%QD007.02.31".toList padded ∧
      parse padded.display = .ok padded ∧ parse "%QD7.2.31" = .ok outlet ∧ padded = outlet := by
  have named : (parse "%QD007.02.31").toOption.map cName = some outlet.cName := by decide +kernel
  obtain ⟨padded, isPadded, sameName⟩ := Option.map_eq_some_iff.mp named
  replace isPadded := eq_ok_of_toOption isPadded
  have isOutlet : parse "%QD7.2.31" = .ok outlet := by decide +kernel
  exact ⟨padded, isPadded, (texts_and_names.1 _ padded).mp isPadded,
    texts_and_names.2.1 _ padded isPadded, isOutlet,
    texts_and_names.2.2 _ _ padded outlet isPadded isOutlet sameName⟩

end StructuredText.Address
