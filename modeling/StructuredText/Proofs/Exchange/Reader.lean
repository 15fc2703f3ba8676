import StructuredText.Exchange.Token
import StructuredText.Proofs.Json.Written

/-!
# Readers and what they read again

A value may be written in more than one way.  What is written for a value that was read
is one of them, and no deeper than the one it was read from: at the same depth the same
reader makes the same value of it.  Here this is shown of the conventions of the format,
for the readers of the parts to use.
-/

set_option autoImplicit false

namespace StructuredText

namespace Json

@[simp] theorem plain_int (value : Int) : (Json.int value).Plain := ⟨value, rfl⟩

theorem nat_eq_int (value : Nat) : Json.nat value = Json.int value := rfl

/-- A number that is read as a whole number and kept as a natural one. -/
theorem nat_toNat {value : Int} (notNegative : 0 ≤ value) :
    Json.nat value.toNat = Json.int value := by
  rw [nat_eq_int, Int.toNat_of_nonneg notNegative]

@[simp] theorem plain_nat (value : Nat) : (Json.nat value).Plain := plain_int value

@[simp] theorem plain_choice {tag : String} {content : Json} :
    (choice tag content).Plain ↔ content.Plain := by
  simp [choice]

@[simp] theorem plain_ofOption {α : Type} {write : α → Json} {value : Option α} :
    (ofOption write value).Plain ↔ ∀ found ∈ value, (write found).Plain := by
  cases value <;> simp [ofOption]

@[simp] theorem plainItems_map {α : Type} {write : α → Json} {values : List α} :
    PlainItems (values.map write) ↔ ∀ value ∈ values, (write value).Plain := by
  induction values with
  | nil => simp
  | cons value values ih => simp [ih]

theorem forall_of_mapM {α β : Type} {step : α → Option β} {holds : β → Prop}
    (each : ∀ item value, step item = some value → holds value) {items : List α}
    {values : List β} (found : items.mapM step = some values) : ∀ value ∈ values, holds value := by
  induction items generalizing values with
  | nil =>
      cases found
      intro value member
      cases member
  | cons item items ih =>
      rw [List.mapM_cons] at found
      obtain ⟨first, stepped, found⟩ := Option.bind_eq_some_iff.mp found
      obtain ⟨others, steppedOthers, same⟩ := Option.bind_eq_some_iff.mp found
      cases same
      intro value member
      rcases List.mem_cons.mp member with rfl | later
      · exact each item value stepped
      · exact ih steppedOthers value later

/-- What has a key that is not repeated is the only thing with the key. -/
theorem filter_eq_singleton {α β : Type} {keep : α → Bool} {key : α → β} {values : List α}
    {value : α} (distinct : (values.map key).Nodup) (member : value ∈ values)
    (sameKey : ∀ other, keep other = true ↔ key other = key value) :
    values.filter keep = [value] := by
  induction values with
  | nil => cases member
  | cons first values ih =>
      rw [List.map_cons, List.nodup_cons] at distinct
      rcases List.mem_cons.mp member with rfl | later
      · have noOther : values.filter keep = [] := by
          rw [List.filter_eq_nil_iff]
          intro other isMember kept
          exact distinct.1 (List.mem_map.mpr ⟨other, isMember, (sameKey other).mp kept⟩)
        rw [List.filter_cons_of_pos ((sameKey value).mpr rfl), noOther]
      · have notFirst : ¬keep first = true := by
          intro kept
          exact distinct.1 (List.mem_map.mpr ⟨value, later, ((sameKey first).mp kept).symm⟩)
        rw [List.filter_cons_of_neg notFirst, ih distinct.2 later]

theorem field?_of_mem {members : List (String × Json)} {name : String} {part : Json}
    (distinct : (members.map Prod.fst).Nodup) (member : (name, part) ∈ members) :
    field? members name = some (some part) := by
  rw [field?, filter_eq_singleton distinct member fun _ => beq_iff_eq]

/-- A record that is written with all its fields has them when it is read. -/
theorem fields?_object {names : List String} (distinct : names.Nodup) {parts : List Json}
    (complete : parts.length = names.length) :
    (Json.object (names.zip parts)).fields? names = some (parts.map some) := by
  have keys : (names.zip parts).map Prod.fst = names := List.map_fst_zip (by omega)
  have contents : (names.zip parts).map Prod.snd = parts := List.map_snd_zip (by omega)
  have found : ∀ member ∈ names.zip parts,
      field? (names.zip parts) member.1 = some (some member.2) := by
    intro member isMember
    exact field?_of_mem (by rw [keys]; exact distinct) isMember
  calc names.mapM (field? (names.zip parts))
      = ((names.zip parts).map Prod.fst).mapM (field? (names.zip parts)) := by rw [keys]
    _ = (names.zip parts).mapM (fun member => field? (names.zip parts) member.1) := by
        rw [List.mapM_map]
        rfl
    _ = some ((names.zip parts).map fun member => some member.2) := mapM_eq_map found
    _ = some (parts.map some) := by
        rw [← contents, List.map_map, contents]
        rfl

end Json

theorem Reader.int_eq_some {low high value : Int} {depth : Nat} {json : Json} :
    Reader.int low high depth json = some value ↔
      json.int? = some value ∧ low ≤ value ∧ value ≤ high := by
  rw [Reader.int, Option.filter_eq_some_iff, decide_eq_true_iff]

/-- What is read at a depth is read again, at the same depth, from what is written
for it. -/
def Restores {α : Type} (read : Reader α) (write : α → Json) (depth : Nat) : Prop :=
  ∀ ⦃json : Json⦄ ⦃value : α⦄, read depth json = some value → read depth (write value) = some value

namespace Restores

variable {α β : Type} {read : Reader α} {write : α → Json} {depth : Nat}

/-! ## Single values -/

theorem string (depth : Nat) : Restores Reader.string Json.string depth := fun _ _ _ => rfl

theorem bool (depth : Nat) : Restores Reader.bool Json.bool depth := fun _ _ _ => rfl

theorem int (low high : Int) (depth : Nat) : Restores (Reader.int low high) Json.int depth := by
  intro json value found
  rw [Reader.int_eq_some] at found ⊢
  exact ⟨Json.int?_int value, found.2⟩

theorem unit_string (depth : Nat) (tag : String) :
    Reader.unit depth (.string tag) = some tag := by
  cases depth <;> rfl

theorem tagged [Tagged α] (depth : Nat) :
    Restores (Reader.tagged : Reader α) Tagged.toJson depth := by
  intro json value found
  obtain ⟨tag, -, isFirst⟩ := Option.bind_eq_some_iff.mp found
  have sameTag := List.find?_some isFirst
  rw [← beq_iff_eq.mp sameTag] at isFirst
  rw [Reader.tagged, Tagged.toJson, unit_string]
  exact isFirst

theorem map (restores : Restores read write depth) {make : α → β} {json : Json} {value : β}
    (found : (read depth json).map make = some value) :
    ∃ part, make part = value ∧ (read depth (write part)).map make = some (make part) := by
  obtain ⟨part, readPart, same⟩ := Option.map_eq_some_iff.mp found
  exact ⟨part, same, by rw [restores readPart]; rfl⟩

/-! ## Lists -/

theorem mapM_write {items : List Json} {values : List α} (restores : Restores read write depth)
    (found : items.mapM (read depth) = some values) :
    (values.map write).mapM (read depth) = some values := by
  apply Json.mapM_map_eq_some
  exact Json.forall_of_mapM (fun _ _ readItem => restores readItem) found

theorem list_succ (restores : Restores read write depth) :
    Restores (Reader.list read) (fun values => .array (values.map write)) (depth + 1) := by
  intro json values found
  obtain ⟨items, -, found⟩ := Option.bind_eq_some_iff.mp found
  exact restores.mapM_write found

theorem list (restores : ∀ depth, Restores read write depth) :
    ∀ depth, Restores (Reader.list read) (fun values => .array (values.map write)) depth
  | 0 => fun _ _ found => by cases found
  | depth + 1 => (restores depth).list_succ

/-! ## Records and choices -/

theorem required (restores : Restores read write depth) {field : Option Json}
    {next : α → Option β} {value : β}
    (found : Reader.required read depth field >>= next = some value) :
    ∃ part, Reader.required read depth (some (write part)) = some part ∧
      next part = some value := by
  obtain ⟨part, readPart, found⟩ := Option.bind_eq_some_iff.mp found
  obtain ⟨json, -, readJson⟩ := Option.bind_eq_some_iff.mp readPart
  exact ⟨part, restores readJson, found⟩

/-- A field that is read as soon as it is known to be there. -/
theorem present (restores : Restores read write depth) {field : Option Json}
    {next : α → Option β} {value : β}
    (found : (field >>= fun json => read depth json >>= next) = some value) :
    ∃ part, read depth (write part) = some part ∧ next part = some value := by
  obtain ⟨json, -, found⟩ := Option.bind_eq_some_iff.mp found
  obtain ⟨part, readJson, found⟩ := Option.bind_eq_some_iff.mp found
  exact ⟨part, restores readJson, found⟩

/-- A field that may be missing: a value must not be written like a missing one. -/
theorem optional (restores : Restores read write depth) (notNull : ∀ value, write value ≠ .null)
    {field : Option Json} {next : Option α → Option β} {value : β}
    (found : Reader.optional read depth field >>= next = some value) :
    ∃ part, Reader.optional read depth (some (Json.ofOption write part)) = some part ∧
      next part = some value := by
  obtain ⟨part, readPart, found⟩ := Option.bind_eq_some_iff.mp found
  refine ⟨part, ?_, found⟩
  cases part with
  | none => rfl
  | some part =>
      have readJson : ∃ json, read depth json = some part := by
        unfold Reader.optional at readPart
        split at readPart
        · cases readPart
        · cases readPart
        · obtain ⟨value, readJson, same⟩ := Option.map_eq_some_iff.mp readPart
          cases same
          exact ⟨_, readJson⟩
      obtain ⟨json, readJson⟩ := readJson
      rw [Json.ofOption, Reader.optional, restores readJson]
      · rfl
      · exact notNull part

theorem fields (names : List String) (distinct : names.Nodup)
    {next : List (Option Json) → Option α}
    (opened : ∀ json, read (depth + 1) json = (json.fields? names).bind next)
    (parts : α → List Json) (complete : ∀ value, (parts value).length = names.length)
    (step : ∀ fields value, next fields = some value →
      next ((parts value).map some) = some value) :
    Restores read (fun value => .object (names.zip (parts value))) (depth + 1) := by
  intro json value found
  rw [opened] at found ⊢
  obtain ⟨fields, -, readFields⟩ := Option.bind_eq_some_iff.mp found
  rw [Json.fields?_object distinct (complete value)]
  exact step fields value readFields

theorem record {names : List String} (distinct : names.Nodup)
    {next : Nat → List (Option Json) → Option α} (parts : α → List Json)
    (complete : ∀ value, (parts value).length = names.length)
    (step : ∀ depth fields value, next depth fields = some value →
      next depth ((parts value).map some) = some value) :
    ∀ depth, Restores (Reader.record names next) (fun value => .object (names.zip (parts value)))
      depth
  | 0 => fun _ _ found => by cases found
  | depth + 1 => fields names distinct (fun _ => rfl) parts complete (step depth)

/-- A choice whose alternatives are written under the tags they are read from. -/
theorem choice {next : Nat → String → Json → Option α}
    (step : ∀ depth tag content value, next depth tag content = some value →
      ∃ written, write value = .choice tag written ∧ next depth tag written = some value) :
    ∀ depth, Restores (Reader.choice next) write depth
  | 0 => fun _ _ found => by cases found
  | depth + 1 => by
      intro json value found
      obtain ⟨⟨tag, content⟩, -, found⟩ := Option.bind_eq_some_iff.mp found
      obtain ⟨written, same, restored⟩ := step depth tag content value found
      rw [same]
      exact restored

end Restores

/-- What is read as the content of an alternative is read again from the record that is
written under the tag of the alternative. -/
def RestoresAs {α : Type} (tag : String) (read : Reader α) (write : α → Json) (depth : Nat) :
    Prop :=
  ∀ ⦃content : Json⦄ ⦃value : α⦄, read depth content = some value →
    ∃ members, write value = .choice tag (.object members) ∧
      read depth (.object members) = some value

namespace RestoresAs

variable {α : Type} {tag : String} {read : Reader α} {write : α → Json} {depth : Nat}

/-- An alternative whose content is a record with fields that are restored. -/
theorem fields {names : List String} (distinct : names.Nodup)
    {next : List (Option Json) → Option α}
    (opened : ∀ json, read (depth + 1) json = (json.fields? names).bind next)
    (step : ∀ fields value, next fields = some value → ∃ parts : List Json,
      parts.length = names.length ∧ write value = .choice tag (.object (names.zip parts)) ∧
        next (parts.map some) = some value) :
    RestoresAs tag read write (depth + 1) := by
  intro content value found
  rw [opened] at found
  obtain ⟨fields, -, readFields⟩ := Option.bind_eq_some_iff.mp found
  obtain ⟨parts, complete, same, readAgain⟩ := step fields value readFields
  refine ⟨names.zip parts, same, ?_⟩
  rw [opened, Json.fields?_object distinct complete]
  exact readAgain

theorem record {names : List String} (distinct : names.Nodup)
    {next : Nat → List (Option Json) → Option α}
    (step : ∀ depth fields value, next depth fields = some value → ∃ parts : List Json,
      parts.length = names.length ∧ write value = .choice tag (.object (names.zip parts)) ∧
        next depth (parts.map some) = some value) :
    ∀ depth, RestoresAs tag (Reader.record names next) write depth
  | 0 => fun _ _ found => by cases found
  | depth + 1 => fields distinct (fun _ => rfl) (step depth)

end RestoresAs

end StructuredText
