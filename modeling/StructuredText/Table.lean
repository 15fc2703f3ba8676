import StructuredText.Ident

/-!
# Tables of names

A table maps identifiers to values and keeps them in the order of insertion.
Identifiers are looked up without regard to case.
-/

set_option autoImplicit false

namespace StructuredText

structure Table (α : Type) where
  entries : List (Ident × α) := []

namespace Table

variable {α : Type}

/-- The table without names. -/
def empty : Table α := {}

/-- The value of a name. -/
def get? (table : Table α) (name : Ident) : Option α :=
  (table.entries.find? fun entry => entry.1 == name).map Prod.snd

def contains (table : Table α) (name : Ident) : Bool := (table.get? name).isSome

def size (table : Table α) : Nat := table.entries.length

/-- Adds a name after all others, whether or not it is there. -/
def push (table : Table α) (name : Ident) (value : α) : Table α :=
  { entries := table.entries ++ [(name, value)] }

/-- Gives a name a value: changes the entry if there is one, adds one otherwise. -/
def insert (table : Table α) (name : Ident) (value : α) : Table α :=
  if table.contains name then
    { entries :=
        table.entries.map fun entry => if entry.1 == name then (entry.1, value) else entry }
  else table.push name value

theorem get?_empty (name : Ident) : (empty : Table α).get? name = none := rfl

theorem get?_push_of_contains {table : Table α} {name other : Ident} {value : α}
    (present : table.contains other = true) :
    (table.push name value).get? other = table.get? other := by
  unfold contains get? at present
  unfold push get?
  rw [List.find?_append]
  cases found : table.entries.find? fun entry => entry.1 == other with
  | none => simp [found] at present
  | some entry => rfl

theorem get?_push_of_not_contains {table : Table α} {name other : Ident} {value : α}
    (absent : table.contains other = false) :
    (table.push name value).get? other = if name == other then some value else none := by
  unfold contains get? at absent
  unfold push get?
  rw [List.find?_append]
  cases found : table.entries.find? fun entry => entry.1 == other with
  | some entry => simp [found] at absent
  | none => by_cases same : name == other <;> simp [List.find?, same]

theorem contains_push (table : Table α) (name other : Ident) (value : α) :
    (table.push name value).contains other = (table.contains other || name == other) := by
  cases present : table.contains other with
  | true =>
      unfold contains at present ⊢
      rw [get?_push_of_contains present]
      exact present
  | false =>
      unfold contains
      rw [get?_push_of_not_contains present]
      cases name == other <;> rfl

/-- Equal names have equal values. -/
theorem get?_congr (table : Table α) {name other : Ident} (same : (name == other) = true) :
    table.get? name = table.get? other := by
  have sameTest : (fun entry : Ident × α => entry.1 == name) = fun entry => entry.1 == other := by
    funext entry
    rw [Bool.eq_iff_iff, Ident.beq_iff, Ident.beq_iff, Ident.beq_iff.mp same]
  unfold get?
  rw [sameTest]

theorem get?_insert (table : Table α) (name other : Ident) (value : α) :
    (table.insert name value).get? other =
      if name == other then some value else table.get? other := by
  unfold insert
  cases present : table.contains name with
  | false =>
      cases same : name == other with
      | true =>
          have absent : table.contains other = false := by
            unfold contains at present ⊢
            rw [← get?_congr table same]
            exact present
          simp [get?_push_of_not_contains absent, same]
      | false =>
          cases known : table.contains other with
          | true => simp [get?_push_of_contains known]
          | false =>
              have none : table.get? other = none := by simpa [contains] using known
              simp [get?_push_of_not_contains known, same, none]
  | true =>
      -- The entries keep their names, so the same entry is found with or without the change.
      have keepsNames : ∀ entries : List (Ident × α),
          (entries.map fun entry => if entry.1 == name then (entry.1, value) else entry).find?
              (fun entry => entry.1 == other) =
            (entries.find? fun entry => entry.1 == other).map fun entry =>
              if entry.1 == name then (entry.1, value) else entry := by
        intro entries
        rw [List.find?_map]
        congr 2
        funext entry
        by_cases isName : (entry.1 == name) = true <;> simp [Function.comp, isName]
      unfold contains at present
      unfold get? at present ⊢
      simp only [if_true, keepsNames, Option.map_map]
      cases found : table.entries.find? fun entry => entry.1 == other with
      | none =>
          cases same : name == other with
          | false => rfl
          | true =>
              have absent := get?_congr table same
              unfold get? at absent
              rw [absent, found] at present
              cases present
      | some entry =>
          have isOther : (entry.1 == other) = true := by simpa using List.find?_some found
          have sameTest : (entry.1 == name) = (name == other) := by
            rw [Bool.eq_iff_iff, Ident.beq_iff, Ident.beq_iff, Ident.beq_iff.mp isOther]
            exact eq_comm
          cases same : name == other <;> simp [sameTest, same]

theorem mem_of_get? {table : Table α} {name : Ident} {value : α}
    (found : table.get? name = some value) : ∃ entry ∈ table.entries, entry.2 = value := by
  obtain ⟨entry, isEntry, same⟩ := Option.map_eq_some_iff.mp found
  exact ⟨entry, List.mem_of_find?_eq_some isEntry, same⟩

end Table

end StructuredText
