import StructuredText.Proofs.Json.Token

/-!
# Documents and their texts

The texts of a document differ in the blanks between its parts only.  Both layouts are
texts of their document, and whatever text of a document is parsed, the document comes
back.
-/

set_option autoImplicit false

namespace StructuredText.Json

def Blank (chars : List Char) : Prop := ∀ char ∈ chars, isBlank char = true

theorem blank_nil : Blank [] := by
  intro char member
  cases member

theorem skipBlanks_append {before : List Char} (blank : Blank before) (rest : List Char) :
    skipBlanks (before ++ rest) = skipBlanks rest :=
  List.dropWhile_append_of_pos blank

theorem skipBlanks_cons {char : Char} (notBlank : isBlank char = false) (rest : List Char) :
    skipBlanks (char :: rest) = char :: rest := by
  simp [skipBlanks, notBlank]

/-! ## Texts of a document -/

mutual

/-- A text of a document, without blanks around it.  Whole numbers are the only numbers
that have one. -/
inductive Written : Json → List Char → Prop where
  | null : Written .null ['n', 'u', 'l', 'l']
  | yes : Written (.bool true) ['t', 'r', 'u', 'e']
  | no : Written (.bool false) ['f', 'a', 'l', 's', 'e']
  | number (value : Int) : Written (.number (toString value)) (toString value).toList
  | string (text : String) : Written (.string text) (quote text)
  | emptyArray : Written (.array []) ['[', ']']
  | array {items : List Json} {chars : List Char} (inside : WrittenItems items chars) :
      Written (.array items) ('[' :: chars)
  | emptyObject : Written (.object []) ['\x7b', '\x7d']
  | object {members : List (String × Json)} {chars : List Char}
      (inside : WrittenMembers members chars) : Written (.object members) ('\x7b' :: chars)

inductive WrittenItems : List Json → List Char → Prop where
  | last {item : Json} {before chars after : List Char} (blankBefore : Blank before)
      (blankAfter : Blank after) (written : Written item chars) :
      WrittenItems [item] (before ++ (chars ++ (after ++ [']'])))
  | more {item : Json} {items : List Json} {before chars rest : List Char}
      (blankBefore : Blank before) (written : Written item chars)
      (others : WrittenItems items rest) :
      WrittenItems (item :: items) (before ++ (chars ++ ',' :: rest))

inductive WrittenMembers : List (String × Json) → List Char → Prop where
  | last {name : String} {value : Json} {before between chars after : List Char}
      (blankBefore : Blank before) (blankBetween : Blank between) (blankAfter : Blank after)
      (written : Written value chars) :
      WrittenMembers [(name, value)]
        (before ++ (quote name ++ ':' :: (between ++ (chars ++ (after ++ ['\x7d'])))))
  | more {name : String} {value : Json} {members : List (String × Json)}
      {before between chars rest : List Char}
      (blankBefore : Blank before) (blankBetween : Blank between) (written : Written value chars)
      (others : WrittenMembers members rest) :
      WrittenMembers ((name, value) :: members)
        (before ++ (quote name ++ ':' :: (between ++ (chars ++ ',' :: rest))))

end

/-! ## Parsing -/

/-- The first character of a text says what to read; it does not close an array. -/
theorem Written.head {json : Json} {chars : List Char} (written : Written json chars) :
    ∃ first others, chars = first :: others ∧ isBlank first = false ∧ first ≠ ']' := by
  cases written with
  | null | yes | no | string | emptyArray | array | emptyObject | object =>
      exact ⟨_, _, rfl, by decide, by decide⟩
  | number value =>
      rw [toList_toString]
      by_cases isNegative : value < 0
      · rw [if_pos isNegative]
        exact ⟨_, _, rfl, by decide, by decide⟩
      · rw [if_neg isNegative]
        cases digits : Nat.toDigits 10 value.natAbs with
        | nil => exact absurd digits Nat.toDigits_ne_nil
        | cons first others =>
            have isDigit : first.isDigit = true :=
              isDigit_of_mem_toDigits (by rw [digits]; exact List.mem_cons_self ..)
            obtain ⟨-, -, -, -, -, -, -, notClosing, notBlank⟩ := digit_ne isDigit
            exact ⟨first, others, rfl, notBlank, notClosing⟩

theorem value?_blank {before : List Char} (blank : Blank before) (bound : Nat)
    (rest : List Char) : value? bound (before ++ rest) = value? bound rest := by
  cases bound with
  | zero => rfl
  | succ bound => rw [value?, value?, skipBlanks_append blank]

/-- A number is what a value is if it starts like one. -/
theorem value?_number {bound : Nat} (value : Int) {rest : List Char} (ends : Ends rest) :
    value? (bound + 1) ((toString value).toList ++ rest) =
      some (.number (toString value), rest) := by
  have read := number?_int value ends
  -- A number is what is left when the first character starts nothing else.
  obtain ⟨first, others, starts, notBlank, -⟩ := (Written.number value).head
  have notOther : first ≠ 'n' ∧ first ≠ 't' ∧ first ≠ 'f' ∧ first ≠ '"' ∧ first ≠ '[' ∧
      first ≠ '\x7b' := by
    rw [toList_toString] at starts
    by_cases isNegative : value < 0
    · rw [if_pos isNegative] at starts
      cases starts
      decide
    · rw [if_neg isNegative] at starts
      have isDigit : first.isDigit = true :=
        isDigit_of_mem_toDigits (by rw [starts]; exact List.mem_cons_self ..)
      obtain ⟨-, notN, notT, notF, notQuote, notArray, notObject, -, -⟩ := digit_ne isDigit
      exact ⟨notN, notT, notF, notQuote, notArray, notObject⟩
  obtain ⟨notN, notT, notF, notQuote, notArray, notObject⟩ := notOther
  have whole : String.ofList (first :: others) = toString value := by
    rw [← starts, String.ofList_toList]
  rw [starts, List.cons_append] at read ⊢
  rw [value?, skipBlanks_cons notBlank]
  split <;> simp_all

/-! ### Items and members -/

theorem WrittenItems.head {items : List Json} {chars : List Char}
    (written : WrittenItems items chars) :
    ∃ before first others, chars = before ++ first :: others ∧ Blank before ∧
      isBlank first = false ∧ first ≠ ']' := by
  cases written with
  | last blankBefore blankAfter written =>
      obtain ⟨first, others, starts, notBlank, notClosing⟩ := written.head
      exact ⟨_, first, _, by rw [starts, List.cons_append], blankBefore, notBlank, notClosing⟩
  | more blankBefore written others =>
      obtain ⟨first, others, starts, notBlank, notClosing⟩ := written.head
      exact ⟨_, first, _, by rw [starts, List.cons_append], blankBefore, notBlank, notClosing⟩

theorem WrittenMembers.head {members : List (String × Json)} {chars : List Char}
    (written : WrittenMembers members chars) :
    ∃ before others, chars = before ++ '"' :: others ∧ Blank before := by
  cases written with
  | last blankBefore blankBetween blankAfter written =>
      exact ⟨_, _, by rw [quote, List.cons_append], blankBefore⟩
  | more blankBefore blankBetween written others =>
      exact ⟨_, _, by rw [quote, List.cons_append], blankBefore⟩

theorem items?_blank {before : List Char} (blank : Blank before) (bound : Nat) (done : List Json)
    (rest : List Char) : items? bound done (before ++ rest) = items? bound done rest := by
  cases bound with
  | zero => rfl
  | succ bound => rw [items?, items?, value?_blank blank]

theorem members?_blank {before : List Char} (blank : Blank before) (bound : Nat)
    (done : List (Option String × Json)) (rest : List Char) :
    members? bound done (before ++ rest) = members? bound done rest := by
  cases bound with
  | zero => rfl
  | succ bound => rw [members?, members?, skipBlanks_append blank]

theorem value?_array {bound : Nat} {items : List Json} {chars rest : List Char}
    (written : WrittenItems items chars) :
    value? (bound + 1) ('[' :: (chars ++ rest)) = items? bound [] (chars ++ rest) := by
  obtain ⟨before, first, others, rfl, blank, notBlank, notClosing⟩ := written.head
  rw [List.append_assoc, items?_blank blank, value?, skipBlanks_cons (by decide)]
  simp only [skipBlanks_append blank, List.cons_append, skipBlanks_cons notBlank]
  split
  · next same => simp_all
  · rfl

theorem value?_object {bound : Nat} {members : List (String × Json)} {chars rest : List Char}
    (written : WrittenMembers members chars) :
    value? (bound + 1) ('\x7b' :: (chars ++ rest)) = members? bound [] (chars ++ rest) := by
  obtain ⟨before, others, rfl, blank⟩ := written.head
  rw [List.append_assoc, members?_blank blank, value?, skipBlanks_cons (by decide)]
  simp only [skipBlanks_append blank, List.cons_append]
  rw [skipBlanks_cons (by decide)]
  rfl

theorem members?_member {bound : Nat} {done : List (Option String × Json)} {name : String}
    {before rest : List Char} (blank : Blank before) :
    members? (bound + 1) done (before ++ (quote name ++ ':' :: rest)) =
      match value? bound rest with
      | none => none
      | some (value, rest) =>
          match skipBlanks rest with
          | ',' :: rest => members? bound ((some name, value) :: done) rest
          | '\x7d' :: rest => some (ofMembers ((some name, value) :: done), rest)
          | _ => none := by
  have read := text?_quote name (':' :: rest)
  rw [members?_blank blank, quote, List.cons_append, List.append_assoc, List.singleton_append,
    members?, skipBlanks_cons (by decide)]
  simp only [read]
  rw [skipBlanks_cons (by decide)]
  rfl

theorem mapM_eq_map {α β : Type} {step : α → Option β} {change : α → β} {values : List α}
    (same : ∀ value ∈ values, step value = some (change value)) :
    values.mapM step = some (values.map change) := by
  induction values with
  | nil => rfl
  | cons value values ih =>
      rw [List.mapM_cons, same value (List.mem_cons_self ..),
        ih fun other member => same other (List.mem_cons_of_mem _ member)]
      rfl

theorem mapM_map_eq_some {α β : Type} {encode : α → β} {step : β → Option α} {values : List α}
    (same : ∀ value ∈ values, step (encode value) = some value) :
    (values.map encode).mapM step = some values := by
  have kept : values.mapM (step ∘ encode) = some (values.map id) := mapM_eq_map same
  rw [List.mapM_map, kept, List.map_id]

theorem ofMembers_some (members : List (String × Json)) :
    ofMembers (members.map fun member => (some member.1, member.2)) =
      .object members.reverse := by
  unfold ofMembers
  rw [← List.map_reverse, mapM_map_eq_some]
  intro member _
  rfl

/-- A number may be followed by blanks and then by what separates or closes. -/
theorem ends_closing {after : List Char} (blank : Blank after) {closing : Char}
    (closes : closing ∈ [',', ']', '\x7d']) (rest : List Char) :
    Ends (after ++ closing :: rest) := by
  cases after with
  | nil =>
      intro char isHead
      cases isHead
      simp only [List.mem_cons, List.not_mem_nil, or_false] at closes
      rcases closes with rfl | rfl | rfl <;> decide
  | cons first after =>
      intro char isHead
      cases isHead
      have isBlank := blank first (List.mem_cons_self ..)
      unfold Json.isBlank at isBlank
      simp only [Bool.or_eq_true, beq_iff_eq] at isBlank
      rcases isBlank with ((rfl | rfl) | rfl) | rfl <;> decide

/-! ### Whole documents

Twice as many rounds as there are characters are enough: an array takes one round for
itself and one for each of its items. -/

mutual

/-- A text of a document is read as the document, whatever follows it. -/
theorem Written.value? : ∀ {json : Json} {chars : List Char}, Written json chars →
    ∀ {bound : Nat} {rest : List Char}, 2 * chars.length ≤ bound → Ends rest →
      Json.value? bound (chars ++ rest) = some (json, rest)
  | _, _, .null, bound + 1, rest, _, _ => by simp [Json.value?, skipBlanks, isBlank]
  | _, _, .yes, bound + 1, rest, _, _ => by simp [Json.value?, skipBlanks, isBlank]
  | _, _, .no, bound + 1, rest, _, _ => by simp [Json.value?, skipBlanks, isBlank]
  | _, _, .number value, bound + 1, rest, _, ends => value?_number value ends
  | _, _, .number value, 0, rest, enough, _ => by
      obtain ⟨first, others, starts, -, -⟩ := (Written.number value).head
      rw [starts, List.length_cons] at enough
      omega
  | _, _, .string text, bound + 1, rest, _, _ => by
      have read := text?_quote text rest
      rw [quote, List.cons_append, List.append_assoc, List.singleton_append, Json.value?,
        skipBlanks_cons (by decide)]
      simp [read]
  | _, _, .emptyArray, bound + 1, rest, _, _ => by simp [Json.value?, skipBlanks, isBlank]
  | _, _, .array inside, bound + 1, rest, enough, _ => by
      rw [List.length_cons] at enough
      rw [List.cons_append, value?_array inside]
      exact WrittenItems.items? inside [] (by omega)
  | _, _, .emptyObject, bound + 1, rest, _, _ => by simp [Json.value?, skipBlanks, isBlank]
  | _, _, .object inside, bound + 1, rest, enough, _ => by
      rw [List.length_cons] at enough
      rw [List.cons_append, value?_object inside]
      exact WrittenMembers.members? inside [] (by omega)

theorem WrittenItems.items? : ∀ {items : List Json} {chars : List Char},
    WrittenItems items chars → ∀ {bound : Nat} {rest : List Char} (done : List Json),
      2 * chars.length ≤ bound →
        Json.items? bound done (chars ++ rest) = some (.array (done.reverse ++ items), rest)
  | _, _, @WrittenItems.last item before chars after blankBefore blankAfter written, bound, rest,
    done, enough => by
      simp only [List.length_append, List.length_singleton] at enough
      obtain ⟨smaller, rfl⟩ : ∃ smaller, bound = smaller + 1 := ⟨bound - 1, by omega⟩
      have read : Json.value? smaller (chars ++ (after ++ ']' :: rest)) =
          some (item, after ++ ']' :: rest) :=
        Written.value? written (by omega) (ends_closing blankAfter (by decide) rest)
      simp only [List.append_assoc, List.singleton_append]
      rw [items?_blank blankBefore, Json.items?, read]
      dsimp only
      rw [skipBlanks_append blankAfter, skipBlanks_cons (by decide)]
      simp
  | _, _, @WrittenItems.more item items before chars others blankBefore written othersWritten,
    bound, rest, done, enough => by
      simp only [List.length_append, List.length_cons] at enough
      obtain ⟨smaller, rfl⟩ : ∃ smaller, bound = smaller + 1 := ⟨bound - 1, by omega⟩
      have read : Json.value? smaller (chars ++ ',' :: (others ++ rest)) =
          some (item, ',' :: (others ++ rest)) :=
        Written.value? written (by omega) (ends_closing blank_nil (by decide) (others ++ rest))
      have readOthers : Json.items? smaller (item :: done) (others ++ rest) =
          some (.array ((item :: done).reverse ++ items), rest) :=
        WrittenItems.items? othersWritten (item :: done) (by omega)
      simp only [List.append_assoc, List.cons_append]
      rw [items?_blank blankBefore, Json.items?, read]
      dsimp only
      rw [skipBlanks_cons (by decide)]
      simp [readOthers]

theorem WrittenMembers.members? : ∀ {members : List (String × Json)} {chars : List Char},
    WrittenMembers members chars →
      ∀ {bound : Nat} {rest : List Char} (done : List (String × Json)),
        2 * chars.length ≤ bound →
          Json.members? bound (done.map fun member => (some member.1, member.2))
            (chars ++ rest) = some (.object (done.reverse ++ members), rest)
  | _, _, @WrittenMembers.last name value before between chars after blankBefore blankBetween
      blankAfter written, bound, rest, done, enough => by
      simp only [List.length_append, List.length_cons, List.length_nil] at enough
      obtain ⟨smaller, rfl⟩ : ∃ smaller, bound = smaller + 1 := ⟨bound - 1, by omega⟩
      have read : Json.value? smaller (chars ++ (after ++ '\x7d' :: rest)) =
          some (value, after ++ '\x7d' :: rest) :=
        Written.value? written (by omega) (ends_closing blankAfter (by decide) rest)
      simp only [List.append_assoc, List.cons_append, List.nil_append]
      rw [members?_member blankBefore, value?_blank blankBetween, read]
      dsimp only
      rw [skipBlanks_append blankAfter, skipBlanks_cons (by decide)]
      have made := ofMembers_some ((name, value) :: done)
      simp only [List.map_cons, List.reverse_cons] at made
      simp [made]
  | _, _, @WrittenMembers.more name value members before between chars others blankBefore
      blankBetween written othersWritten, bound, rest, done, enough => by
      simp only [List.length_append, List.length_cons] at enough
      obtain ⟨smaller, rfl⟩ : ∃ smaller, bound = smaller + 1 := ⟨bound - 1, by omega⟩
      have read : Json.value? smaller (chars ++ ',' :: (others ++ rest)) =
          some (value, ',' :: (others ++ rest)) :=
        Written.value? written (by omega) (ends_closing blank_nil (by decide) (others ++ rest))
      have readOthers : Json.members? smaller
          (((name, value) :: done).map fun member => (some member.1, member.2)) (others ++ rest) =
            some (.object (((name, value) :: done).reverse ++ members), rest) :=
        WrittenMembers.members? othersWritten ((name, value) :: done) (by omega)
      simp only [List.append_assoc, List.cons_append]
      rw [members?_member blankBefore, value?_blank blankBetween, read]
      dsimp only
      rw [skipBlanks_cons (by decide)]
      rw [List.reverse_cons, List.append_assoc] at readOthers
      exact readOthers

end

theorem Written.parse? {json : Json} {text : String} (written : Written json text.toList) :
    Json.parse? text = some json := by
  have read : Json.value? (2 * text.toList.length + 1) (text.toList ++ []) = some (json, []) :=
    written.value? (Nat.le_succ _) ends_nil
  rw [List.append_nil] at read
  simp [Json.parse?, read, skipBlanks]

/-! ## The two layouts -/

mutual

/-- A document that can be written: its numbers are whole and its strings stand for
texts. -/
@[simp] def Plain : Json → Prop
  | .null | .bool _ | .string _ => True
  | .number text => ∃ value : Int, text = toString value
  | .array items => PlainItems items
  | .object members => PlainMembers members
  | .unreadable => False

@[simp] def PlainItems : List Json → Prop
  | [] => True
  | item :: items => item.Plain ∧ PlainItems items

@[simp] def PlainMembers : List (String × Json) → Prop
  | [] => True
  | (_, value) :: members => value.Plain ∧ PlainMembers members

end

mutual

theorem written_compact : ∀ {json : Json}, json.Plain → Written json json.compact
  | .null, _ => by rw [compact]; exact .null
  | .bool true, _ => by rw [compact]; exact .yes
  | .bool false, _ => by rw [compact]; exact .no
  | .number text, plain => by
      rw [Plain] at plain
      obtain ⟨value, rfl⟩ := plain
      rw [compact]
      exact .number value
  | .string text, _ => by rw [compact]; exact .string text
  | .array items, plain => by
      rw [Plain] at plain
      rw [compact]
      rcases writtenItems_compact plain with rfl | written
      · exact .emptyArray
      · exact .array written
  | .object members, plain => by
      rw [Plain] at plain
      rw [compact]
      rcases writtenMembers_compact plain with rfl | written
      · exact .emptyObject
      · exact .object written
  | .unreadable, plain => by
      rw [Plain] at plain
      exact plain.elim

theorem writtenItems_compact : ∀ {items : List Json}, PlainItems items →
    items = [] ∨ WrittenItems items (compactItems items ++ [']'])
  | [], _ => .inl rfl
  | item :: items, plain => by
      rw [PlainItems] at plain
      have written := written_compact plain.1
      rcases writtenItems_compact plain.2 with rfl | others
      · rw [compactItems]
        exact .inr (.last blank_nil blank_nil written)
      · have more := WrittenItems.more blank_nil written others
        rw [compactItems, List.append_assoc, List.cons_append]
        · exact .inr more
        · rintro rfl
          cases others

theorem writtenMembers_compact : ∀ {members : List (String × Json)}, PlainMembers members →
    members = [] ∨ WrittenMembers members (compactMembers members ++ ['\x7d'])
  | [], _ => .inl rfl
  | (name, value) :: members, plain => by
      rw [PlainMembers] at plain
      have written := written_compact plain.1
      rcases writtenMembers_compact plain.2 with rfl | others
      · rw [compactMembers, List.append_assoc, List.cons_append]
        exact .inr (.last blank_nil blank_nil blank_nil written)
      · rw [compactMembers, List.append_assoc, List.append_assoc, List.cons_append,
          List.cons_append]
        · exact .inr (.more blank_nil blank_nil written others)
        · rintro rfl
          cases others

end

theorem blank_newLine (depth : Nat) : Blank (newLine depth) := by
  intro char member
  rw [newLine, List.mem_cons, List.mem_replicate] at member
  rcases member with rfl | ⟨-, rfl⟩ <;> decide

theorem blank_space : Blank [' '] := by
  intro char member
  rw [List.mem_singleton] at member
  subst member
  decide

mutual

theorem written_spread : ∀ {json : Json} (depth : Nat), json.Plain →
    Written json (json.spread depth)
  | .null, _, _ => by rw [spread]; exact .null
  | .bool true, _, _ => by rw [spread]; exact .yes
  | .bool false, _, _ => by rw [spread]; exact .no
  | .number text, _, plain => by
      rw [Plain] at plain
      obtain ⟨value, rfl⟩ := plain
      rw [spread]
      exact .number value
  | .string text, _, _ => by rw [spread]; exact .string text
  | .array [], _, _ => by rw [spread]; exact .emptyArray
  | .array (item :: items), depth, plain => by
      rw [Plain, PlainItems] at plain
      have written := writtenItems_spread depth plain.2 (written_spread (depth + 1) plain.1)
      rw [spread]
      simp only [List.append_assoc]
      exact .array written
  | .object [], _, _ => by rw [spread]; exact .emptyObject
  | .object ((name, value) :: members), depth, plain => by
      rw [Plain, PlainMembers] at plain
      have written :=
        writtenMembers_spread depth plain.2 name (written_spread (depth + 1) plain.1)
      rw [spread]
      simp only [List.append_assoc, List.cons_append]
      exact .object written
  | .unreadable, _, plain => by
      rw [Plain] at plain
      exact plain.elim

theorem writtenItems_spread : ∀ {items : List Json} (depth : Nat), PlainItems items →
    ∀ {item : Json} {chars : List Char}, Written item chars →
      WrittenItems (item :: items)
        (newLine (depth + 1) ++
          (chars ++ (spreadItems (depth + 1) items ++ (newLine depth ++ [']']))))
  | [], depth, _, _, _, written => by
      rw [spreadItems, List.nil_append]
      exact .last (blank_newLine _) (blank_newLine _) written
  | next :: items, depth, plain, _, _, written => by
      rw [PlainItems] at plain
      have others := writtenItems_spread depth plain.2 (written_spread (depth + 1) plain.1)
      rw [spreadItems]
      simp only [List.append_assoc, List.cons_append]
      exact .more (blank_newLine _) written others

theorem writtenMembers_spread : ∀ {members : List (String × Json)} (depth : Nat),
    PlainMembers members → ∀ (name : String) {value : Json} {chars : List Char},
      Written value chars →
        WrittenMembers ((name, value) :: members)
          (newLine (depth + 1) ++
            (quote name ++ ':' :: ' ' ::
              (chars ++ (spreadMembers (depth + 1) members ++ (newLine depth ++ ['\x7d'])))))
  | [], depth, _, name, _, _, written => by
      rw [spreadMembers, List.nil_append]
      exact .last (blank_newLine _) blank_space (blank_newLine _) written
  | (next, value) :: members, depth, plain, name, _, _, written => by
      rw [PlainMembers] at plain
      have others :=
        writtenMembers_spread depth plain.2 next (written_spread (depth + 1) plain.1)
      rw [spreadMembers]
      simp only [List.append_assoc, List.cons_append]
      exact .more (blank_newLine _) blank_space written others

end

theorem parse?_render {json : Json} (plain : json.Plain) (pretty : Bool) :
    parse? (json.render pretty) = some json := by
  apply Written.parse?
  rw [render, String.toList_ofList]
  cases pretty with
  | false => exact written_compact plain
  | true => exact written_spread 0 plain

end StructuredText.Json
