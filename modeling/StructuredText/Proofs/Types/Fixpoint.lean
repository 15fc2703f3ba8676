import Mathlib.Data.List.Basic
import StructuredText.Proofs.Types.Origin

/-!
# Types resolve to a least fixpoint

A declaration is resolvable if its bounds can be read and every type that it refers to
is elementary or declared by a resolvable declaration: the resolvable declarations are
the least set with this property, so a cycle is not among them.  The table of types is
built in rounds, and what stands in it after a round depends on the order of the
declarations.  The result does not: the declarations that are left at the end are those
that are not resolvable, and a table without faults holds one type for each declaration,
whatever their order.
-/

set_option autoImplicit false

namespace StructuredText

/-! ## Bounds -/

def wordLimit : Int := 170141183460469231731687303715884105728

def SignedToken.exactNumber? (token : SignedToken) : Option Int :=
  token.value.magnitude?.map fun (magnitude : Nat) =>
    if token.isNegative then -(magnitude : Int) else magnitude

/-- A token for a number that a signed word of 128 bits holds, other than the least of
these numbers. -/
def SignedToken.IsReadable (token : SignedToken) : Prop :=
  ∃ number, token.exactNumber? = some number ∧ -wordLimit < number ∧ number < wordLimit

def Range.IsReadable (range : Range) : Prop := range.start.IsReadable ∧ range.stop.IsReadable

theorem SignedToken.isSome_value? (token : SignedToken) :
    token.value?.isSome = true ↔ token.IsReadable := by
  have limit : ((Nat.pow 2 127 : Nat) : Int) = wordLimit := by decide +kernel
  have smaller : Nat.pow 2 127 < Nat.pow 2 128 := by decide +kernel
  have fitting : token.value?.isSome = true ↔
      ∃ magnitude, token.value.magnitude? = some magnitude ∧ magnitude < Nat.pow 2 127 := by
    unfold value? IntegerToken.value
    cases token.value.magnitude? with
    | none => simp [Except.toOption]
    | some magnitude =>
        by_cases whole : magnitude < Nat.pow 2 128
        · by_cases small : magnitude < Nat.pow 2 127 <;>
            simp [Option.filter_some, whole, Except.toOption, small]
        · have large : ¬ magnitude < Nat.pow 2 127 := by omega
          simp [Option.filter_some, whole, Except.toOption, large]
  rw [fitting, IsReadable, exactNumber?]
  constructor
  · rintro ⟨magnitude, found, small⟩
    cases negative : token.isNegative with
    | true => exact ⟨-(magnitude : Int), by simp [found], by omega, by omega⟩
    | false => exact ⟨magnitude, by simp [found], by omega, by omega⟩
  · rintro ⟨number, found, above, below⟩
    obtain ⟨magnitude, isMagnitude, rfl⟩ := Option.map_eq_some_iff.mp found
    refine ⟨magnitude, isMagnitude, ?_⟩
    cases negative : token.isNegative with
    | true =>
        simp only [negative, if_true] at above
        omega
    | false =>
        simp only [negative, Bool.false_eq_true, if_false] at below
        omega

theorem Range.isSome_dimension? (range : Range) :
    range.dimension?.isSome = true ↔ range.IsReadable := by
  rw [IsReadable, ← SignedToken.isSome_value?, ← SignedToken.isSome_value?, dimension?]
  cases range.start.value? with
  | none => simp
  | some lower => cases range.stop.value? <;> simp

/-! ## Resolvable declarations -/

/-- The types that an initializer refers to.  A function block is no type: whether it
exists is decided elsewhere. -/
def Initializer.references : Initializer → List Ident
  | .simple type _ | .enumerated type _ | .array (.named type) => [type]
  | .array (.inline shape) => [shape.element]
  | .string .. | .functionBlock _ => []

def Initializer.ranges : Initializer → List Range
  | .array (.inline shape) => shape.ranges
  | .array (.named _) | .simple .. | .enumerated .. | .string .. | .functionBlock _ => []

def TypeDecl.references : TypeDecl → List Ident
  | .synonym _ base => [base]
  | .array _ shape => [shape.element]
  | .record _ fields => fields.flatMap fun field => field.initializer.references
  | .subrange .. | .enumeration .. | .string .. => []

def TypeDecl.ranges : TypeDecl → List Range
  | .subrange _ _ range => [range]
  | .array _ shape => shape.ranges
  | .record _ fields => fields.flatMap fun field => field.initializer.ranges
  | .synonym .. | .enumeration .. | .string .. => []

mutual

/-- A declaration whose bounds can be read and that refers to known types only. -/
inductive TypeDecl.Resolvable (decls : List TypeDecl) : TypeDecl → Prop where
  | intro {decl : TypeDecl} (readable : ∀ range ∈ decl.ranges, range.IsReadable)
      (known : ∀ name ∈ decl.references, Ident.IsKnownType decls name) :
      TypeDecl.Resolvable decls decl

inductive Ident.IsKnownType (decls : List TypeDecl) : Ident → Prop where
  | elementary {name : Ident} (isElementary : (Elementary.ofIdent? name).isSome = true) :
      Ident.IsKnownType decls name
  | declared {name : Ident} {decl : TypeDecl} (member : decl ∈ decls)
      (same : (decl.name == name) = true) (resolvable : TypeDecl.Resolvable decls decl) :
      Ident.IsKnownType decls name

end

open Classical in
/-- Those of some declarations that are not resolvable, in order. -/
noncomputable def TypeDecl.unresolvable (decls part : List TypeDecl) : List TypeDecl :=
  part.filter fun decl => ¬ TypeDecl.Resolvable decls decl

mutual

theorem TypeDecl.Resolvable.mono {decls others : List TypeDecl}
    (within : ∀ decl ∈ decls, decl ∈ others) {decl : TypeDecl} :
    TypeDecl.Resolvable decls decl → TypeDecl.Resolvable others decl
  | .intro readable known =>
      .intro readable fun name member => (known name member).mono within

theorem Ident.IsKnownType.mono {decls others : List TypeDecl}
    (within : ∀ decl ∈ decls, decl ∈ others) {name : Ident} :
    Ident.IsKnownType decls name → Ident.IsKnownType others name
  | .elementary isElementary => .elementary isElementary
  | .declared member same resolvable => .declared (within _ member) same (resolvable.mono within)

end

/-! ## What a declaration needs of the table -/

theorem isSome_mapM {α β : Type} {step : α → Option β} {items : List α} :
    (items.mapM step).isSome = true ↔ ∀ item ∈ items, (step item).isSome = true := by
  induction items with
  | nil => simp
  | cons item items ih =>
      rw [List.mapM_cons, List.forall_mem_cons, ← ih]
      cases step item with
      | none => simp
      | some first => cases items.mapM step <;> simp

theorem mapM_congr {α β : Type} {first second : α → Option β} {items : List α}
    (same : ∀ item ∈ items, first item = second item) : items.mapM first = items.mapM second := by
  induction items with
  | nil => rfl
  | cons item items ih =>
      rw [List.mapM_cons, List.mapM_cons, same item (List.mem_cons_self ..),
        ih fun other member => same other (List.mem_cons_of_mem _ member)]

namespace TypeTable

variable {types : TypeTable}

theorem isSome_shape? (shape : ArrayShape) :
    (types.shape? shape).isSome = true ↔
      (∀ range ∈ shape.ranges, range.IsReadable) ∧
        (types.type? shape.element).isSome = true := by
  have ranges : (shape.ranges.mapM Range.dimension?).isSome = true ↔
      ∀ range ∈ shape.ranges, range.IsReadable := by
    simp only [isSome_mapM, Range.isSome_dimension?]
  rw [shape?, ← ranges]
  cases types.type? shape.element with
  | none => simp
  | some element => cases shape.ranges.mapM Range.dimension? <;> simp

theorem isSome_initializer? (initializer : Initializer) :
    (types.initializer? initializer).isSome = true ↔
      (∀ range ∈ initializer.ranges, range.IsReadable) ∧
        ∀ name ∈ initializer.references, (types.type? name).isSome = true := by
  cases initializer with
  | simple | enumerated | string | functionBlock =>
      simp [initializer?, Initializer.ranges, Initializer.references]
  | array spec =>
      cases spec with
      | named type => simp [initializer?, array?, Initializer.ranges, Initializer.references]
      | inline shape =>
          simp [initializer?, array?, Initializer.ranges, Initializer.references, isSome_shape?]

/-- A declaration has a meaning as soon as the types that it refers to have one. -/
theorem isSome_declaration? (decl : TypeDecl) :
    (types.declaration? decl).isSome = true ↔
      (∀ range ∈ decl.ranges, range.IsReadable) ∧
        ∀ name ∈ decl.references, (types.type? name).isSome = true := by
  cases decl with
  | synonym | enumeration | string =>
      simp [declaration?, TypeDecl.ranges, TypeDecl.references]
  | subrange name base range =>
      simp [declaration?, TypeDecl.ranges, TypeDecl.references, Range.isSome_dimension?]
  | array name shape =>
      simp [declaration?, TypeDecl.ranges, TypeDecl.references, isSome_shape?]
  | record name fields =>
      simp only [declaration?, TypeDecl.ranges, TypeDecl.references, Option.isSome_map,
        isSome_mapM, isSome_initializer?, List.mem_flatMap]
      constructor
      · intro each
        exact ⟨fun range ⟨field, member, inField⟩ => (each field member).1 range inField,
          fun name ⟨field, member, inField⟩ => (each field member).2 name inField⟩
      · intro ⟨ranges, names⟩ field member
        exact ⟨fun range inField => ranges range ⟨field, member, inField⟩,
          fun name inField => names name ⟨field, member, inField⟩⟩

/-- The meaning of a declaration depends on the types that it refers to alone. -/
theorem declaration?_congr {others : TypeTable} {decl : TypeDecl}
    (same : ∀ name ∈ decl.references, types.type? name = others.type? name) :
    types.declaration? decl = others.declaration? decl := by
  cases decl with
  | synonym name base =>
      simp [declaration?, same base (by simp [TypeDecl.references])]
  | subrange | enumeration | string => rfl
  | array name shape =>
      simp [declaration?, shape?, same shape.element (by simp [TypeDecl.references])]
  | record name fields =>
      have sameField : ∀ field ∈ fields,
          types.initializer? field.initializer = others.initializer? field.initializer := by
        intro field member
        have sameName : ∀ name ∈ field.initializer.references,
            types.type? name = others.type? name := fun name inField =>
          same name (List.mem_flatMap.mpr ⟨field, member, inField⟩)
        cases initial : field.initializer with
        | simple type | enumerated type =>
            exact sameName type (by simp [initial, Initializer.references])
        | string | functionBlock => rfl
        | array spec =>
            cases spec with
            | named type => exact sameName type (by simp [initial, Initializer.references])
            | inline shape =>
                simp [initializer?, array?, shape?,
                  sameName shape.element (by simp [initial, Initializer.references])]
      rw [declaration?, declaration?]
      congr 1
      exact mapM_congr fun field member => by rw [sameField field member]

/-! ## Tables that grow -/

end TypeTable

namespace Table

variable {α : Type}

def Distinct (table : Table α) : Prop :=
  table.entries.Pairwise fun first second => (first.1 == second.1) = false

theorem contains_iff {table : Table α} {name : Ident} :
    table.contains name = true ↔ ∃ entry ∈ table.entries, (entry.1 == name) = true := by
  rw [contains, get?, Option.isSome_map, List.find?_isSome]

theorem Distinct.push {table : Table α} (distinct : table.Distinct) {name : Ident}
    (absent : table.contains name = false) (value : α) : (table.push name value).Distinct := by
  refine List.pairwise_append.mpr ⟨distinct, List.pairwise_singleton .., ?_⟩
  intro entry member added isNew
  rw [List.mem_singleton.mp isNew, ← Bool.not_eq_true]
  intro same
  rw [contains_iff.mpr ⟨entry, member, same⟩] at absent
  cases absent

theorem Distinct.get?_eq_some_iff {table : Table α} (distinct : table.Distinct) {name : Ident}
    {value : α} : table.get? name = some value ↔
      ∃ entry ∈ table.entries, (entry.1 == name) = true ∧ entry.2 = value := by
  constructor
  · intro found
    obtain ⟨entry, isEntry, same⟩ := Option.map_eq_some_iff.mp found
    exact ⟨entry, List.mem_of_find?_eq_some isEntry, by simpa using List.find?_some isEntry, same⟩
  · rintro ⟨entry, member, named, rfl⟩
    -- The entry that is found has the same name, so it is this one.
    obtain ⟨before, later, split⟩ := List.append_of_mem member
    have earlier : ∀ other ∈ before, (other.1 == name) = false := by
      intro other isBefore
      unfold Distinct at distinct
      rw [split, List.pairwise_append] at distinct
      have differs := distinct.2.2 other isBefore entry (List.mem_cons_self ..)
      rw [← Bool.not_eq_true] at differs ⊢
      exact fun same => differs (BEq.trans same (BEq.symm named))
    rw [get?, split, List.find?_append, List.find?_eq_none.mpr fun other isBefore =>
      by simp [earlier other isBefore]]
    simp [named]

/-- Where no name has two entries, the order of the entries does not matter. -/
theorem Distinct.get?_perm {table other : Table α} (distinct : table.Distinct)
    (otherDistinct : other.Distinct) (permuted : table.entries.Perm other.entries)
    (name : Ident) : table.get? name = other.get? name := by
  apply Option.ext
  intro value
  simp only [distinct.get?_eq_some_iff, otherDistinct.get?_eq_some_iff, permuted.mem_iff]

end Table

namespace TypeTable

variable {types : TypeTable}

theorem type?_push {name other : Ident} (type : DataType)
    (known : (types.type? name).isSome = true) :
    type? (types.push other type) name = types.type? name := by
  unfold type? at known ⊢
  cases elementary : Elementary.ofIdent? name with
  | some found => rfl
  | none =>
      rw [elementary] at known
      exact Table.get?_push_of_contains known

/-- A declaration that has a meaning keeps it while the table grows. -/
theorem declaration?_push {decl : TypeDecl} {meaning : DataType}
    (found : types.declaration? decl = some meaning) (name : Ident) (type : DataType) :
    declaration? (types.push name type) decl = some meaning := by
  have known := (isSome_declaration? decl).mp (Option.isSome_of_eq_some found)
  rw [← found]
  exact declaration?_congr fun name member => type?_push type (known.2 name member)

theorem elementary_distinct : elementary.Distinct := by
  unfold Table.Distinct
  decide +kernel

theorem ofIdent?_of_contains {name : Ident} (isElementary : elementary.contains name = true) :
    (Elementary.ofIdent? name).isSome = true := by
  obtain ⟨entry, member, same⟩ := Table.contains_iff.mp isElementary
  obtain ⟨type, -, rfl⟩ := List.mem_map.mp member
  have found := Elementary.ofIdent?_ident type
  rw [Elementary.ofIdent?, Ident.beq_iff.mp same] at found
  rw [Elementary.ofIdent?, found]
  rfl

/-! ## The rounds -/

/-- A declaration waits, repeats a name, or goes into the table. -/
theorem Progress.step_cases (progress : Progress) (decl : TypeDecl) :
    (progress.types.declaration? decl = none ∧
      progress.step decl = { progress with waiting := progress.waiting ++ [decl] }) ∨
    ∃ type, progress.types.declaration? decl = some type ∧
      ((progress.types.contains decl.name = true ∧ progress.step decl =
          { progress with faults := progress.faults ++ [.duplicateType decl.name] }) ∨
        (progress.types.contains decl.name = false ∧ progress.step decl =
          { progress with types := progress.types.push decl.name type })) := by
  unfold Progress.step
  cases progress.types.declaration? decl with
  | none => exact .inl ⟨rfl, rfl⟩
  | some type =>
      refine .inr ⟨type, rfl, ?_⟩
      unfold TypeTable.declare
      cases progress.types.contains decl.name with
      | true => exact .inl ⟨rfl, rfl⟩
      | false => exact .inr ⟨rfl, rfl⟩

/-- How the declarations are accounted for while `turns` still have their turn in the
current round: some are in the table with their meaning, some repeat a name of it, and
the others wait. -/
structure Progress.Ledger (decls turns repeated : List TypeDecl)
    (accepted : List (TypeDecl × DataType)) (progress : Progress) : Prop where
  split : decls.Perm (accepted.map Prod.fst ++ (repeated ++ (progress.waiting ++ turns)))
  entries : progress.types.entries =
    elementary.entries ++ accepted.map fun (decl, type) => (decl.name, type)
  distinct : progress.types.Distinct
  meaning : ∀ pair ∈ accepted, progress.types.declaration? pair.1 = some pair.2
  reported : progress.faults = repeated.map fun decl => .duplicateType decl.name
  taken : ∀ decl ∈ repeated, progress.types.contains decl.name = true
  resolvable : ∀ pair ∈ accepted, TypeDecl.Resolvable decls pair.1
  left : TypeDecl.unresolvable decls (progress.waiting ++ turns) =
    TypeDecl.unresolvable decls decls

section Ledger

variable {decls turns repeated : List TypeDecl} {accepted : List (TypeDecl × DataType)}
  {progress : Progress}

theorem Progress.Ledger.isKnownType (ledger : progress.Ledger decls turns repeated accepted)
    {name : Ident} (known : progress.types.contains name = true) :
    Ident.IsKnownType decls name := by
  obtain ⟨entry, member, same⟩ := Table.contains_iff.mp known
  rw [ledger.entries] at member
  rcases List.mem_append.mp member with isElementary | isAccepted
  · exact .elementary (ofIdent?_of_contains (Table.contains_iff.mpr ⟨entry, isElementary, same⟩))
  · obtain ⟨pair, isPair, rfl⟩ := List.mem_map.mp isAccepted
    have member : pair.1 ∈ decls :=
      ledger.split.mem_iff.mpr (List.mem_append_left _ (List.mem_map_of_mem isPair))
    exact .declared member same (ledger.resolvable pair isPair)

theorem Progress.Ledger.resolvable_of_meaning
    (ledger : progress.Ledger decls turns repeated accepted) {decl : TypeDecl} {type : DataType}
    (found : progress.types.declaration? decl = some type) : TypeDecl.Resolvable decls decl := by
  obtain ⟨readable, known⟩ := (isSome_declaration? decl).mp (Option.isSome_of_eq_some found)
  refine .intro readable fun name member => ?_
  have isSome := known name member
  unfold type? at isSome
  split at isSome
  · next elementary => exact .elementary (Option.isSome_of_eq_some elementary)
  · exact ledger.isKnownType isSome

theorem Progress.Ledger.step {decl : TypeDecl}
    (ledger : progress.Ledger decls (decl :: turns) repeated accepted) :
    ∃ repeated accepted, (progress.step decl).Ledger decls turns repeated accepted := by
  obtain ⟨-, step⟩ | ⟨type, found, ⟨taken, step⟩ | ⟨free, step⟩⟩ :=
    Progress.step_cases progress decl
  all_goals rw [step]
  · refine ⟨repeated, accepted, { ledger with split := ?_, left := ?_ }⟩
    · rw [List.append_assoc]
      exact ledger.split
    · rw [List.append_assoc]
      exact ledger.left
  all_goals
    have resolvable := ledger.resolvable_of_meaning found
    have left : TypeDecl.unresolvable decls (progress.waiting ++ turns) =
        TypeDecl.unresolvable decls decls := by
      rw [← ledger.left]
      simp [TypeDecl.unresolvable, resolvable]
  · refine ⟨repeated ++ [decl], accepted,
      { ledger with split := ?_, reported := ?_, taken := ?_, left := left }⟩
    · refine ledger.split.trans (List.Perm.append_left _ ?_)
      rw [List.append_assoc]
      exact List.Perm.append_left _ List.perm_middle
    · rw [List.map_append, ledger.reported]
      rfl
    · intro other member
      rcases List.mem_append.mp member with old | isNew
      · exact ledger.taken other old
      · rw [List.mem_singleton.mp isNew]
        exact taken
  · refine ⟨repeated, accepted ++ [(decl, type)],
      { split := ?_, entries := by simp [Table.push, ledger.entries],
        distinct := ledger.distinct.push free type, meaning := ?_,
        reported := ledger.reported, taken := ?_, resolvable := ?_, left := left }⟩
    · refine ledger.split.trans ?_
      rw [List.map_append, List.append_assoc]
      refine List.Perm.append_left _ ?_
      rw [← List.append_assoc, ← List.append_assoc]
      exact List.perm_middle.trans (by simp)
    · intro pair member
      rcases List.mem_append.mp member with old | isNew
      · exact declaration?_push (ledger.meaning pair old) decl.name type
      · rw [List.mem_singleton.mp isNew]
        exact declaration?_push found decl.name type
    · intro other member
      rw [Table.contains_push, ledger.taken other member]
      rfl
    · intro pair member
      rcases List.mem_append.mp member with old | isNew
      · exact ledger.resolvable pair old
      · rw [List.mem_singleton.mp isNew]
        exact resolvable

end Ledger

variable {decls : List TypeDecl}

theorem Progress.Ledger.foldl {turns : List TypeDecl} :
    ∀ {repeated : List TypeDecl} {accepted : List (TypeDecl × DataType)} {progress : Progress},
      progress.Ledger decls turns repeated accepted →
        ∃ repeated accepted,
          (turns.foldl Progress.step progress).Ledger decls [] repeated accepted := by
  induction turns with
  | nil => exact fun ledger => ⟨_, _, ledger⟩
  | cons decl turns ih =>
      intro repeated accepted progress ledger
      obtain ⟨repeated, accepted, ledger⟩ := ledger.step
      exact ih ledger

theorem Progress.Ledger.round {repeated : List TypeDecl}
    {accepted : List (TypeDecl × DataType)} {progress : Progress}
    (ledger : progress.Ledger decls [] repeated accepted) :
    ∃ repeated accepted, progress.round.Ledger decls [] repeated accepted := by
  have split := ledger.split
  have left := ledger.left
  rw [List.append_nil] at split left
  exact Progress.Ledger.foldl { ledger with split := split, left := left }

theorem Progress.Ledger.rounds {bound : Nat} :
    ∀ {repeated : List TypeDecl} {accepted : List (TypeDecl × DataType)} {progress : Progress},
      progress.Ledger decls [] repeated accepted →
        ∃ repeated accepted,
          (Progress.rounds bound progress).Ledger decls [] repeated accepted := by
  induction bound with
  | zero => exact fun ledger => ⟨_, _, ledger⟩
  | succ bound ih =>
      intro repeated accepted progress ledger
      obtain ⟨repeated, accepted, ledger⟩ := ledger.round
      unfold Progress.rounds
      dsimp only
      split
      · exact ⟨_, _, ledger⟩
      · exact ih ledger

/-! ## When the rounds stop -/

theorem Progress.length_waiting_foldl (turns : List TypeDecl) :
    ∀ progress : Progress, (turns.foldl Progress.step progress).waiting.length ≤
      progress.waiting.length + turns.length := by
  induction turns with
  | nil => exact fun _ => Nat.le_refl _
  | cons decl turns ih =>
      intro progress
      have rest := ih (progress.step decl)
      rw [List.foldl_cons, List.length_cons]
      obtain ⟨-, step⟩ | ⟨type, -, ⟨-, step⟩ | ⟨-, step⟩⟩ := Progress.step_cases progress decl
      all_goals
        rw [step] at rest ⊢
        simp only [List.length_append, List.length_singleton] at rest
        omega

theorem Progress.length_waiting_round (progress : Progress) :
    progress.round.waiting.length ≤ progress.waiting.length := by
  have counted :=
    Progress.length_waiting_foldl progress.waiting { progress with waiting := [] }
  rwa [List.length_nil, Nat.zero_add] at counted

/-- If all of a number of declarations have to wait, none of them has a meaning. -/
theorem Progress.foldl_eq_of_length (turns : List TypeDecl) :
    ∀ progress : Progress, (turns.foldl Progress.step progress).waiting.length =
        progress.waiting.length + turns.length →
      turns.foldl Progress.step progress =
          { progress with waiting := progress.waiting ++ turns } ∧
        ∀ decl ∈ turns, progress.types.declaration? decl = none := by
  induction turns with
  | nil => simp
  | cons decl turns ih =>
      intro progress full
      rw [List.foldl_cons, List.length_cons] at full
      rw [List.foldl_cons, List.forall_mem_cons]
      obtain ⟨noMeaning, step⟩ | ⟨type, -, ⟨-, step⟩ | ⟨-, step⟩⟩ :=
        Progress.step_cases progress decl
      · rw [step] at full ⊢
        have restFull : (turns.foldl Progress.step
            { progress with waiting := progress.waiting ++ [decl] }).waiting.length =
              (progress.waiting ++ [decl]).length + turns.length := by
          rw [full, List.length_append, List.length_singleton]
          omega
        obtain ⟨same, restNoMeaning⟩ := ih _ restFull
        exact ⟨by rw [same, List.append_assoc]; rfl, noMeaning, restNoMeaning⟩
      all_goals
        -- A declaration that does not wait leaves the list of those that do too short.
        have short := Progress.length_waiting_foldl turns (progress.step decl)
        rw [step] at full short
        dsimp only at full short
        omega

/-- A round after which as many declarations wait as before has changed nothing. -/
theorem Progress.round_eq_of_length {progress : Progress}
    (same : progress.round.waiting.length = progress.waiting.length) :
    progress.round = progress ∧
      ∀ decl ∈ progress.waiting, progress.types.declaration? decl = none :=
  Progress.foldl_eq_of_length progress.waiting { progress with waiting := [] }
    (by rw [List.length_nil, Nat.zero_add]; exact same)

/-- The rounds are over because nothing waits that has a meaning, not because the bound
is reached. -/
theorem Progress.rounds_closed {bound : Nat} :
    ∀ progress : Progress, progress.waiting.length < bound →
      (∀ more, Progress.rounds (bound + more) progress = Progress.rounds bound progress) ∧
        ∀ decl ∈ (Progress.rounds bound progress).waiting,
          (Progress.rounds bound progress).types.declaration? decl = none := by
  induction bound with
  | zero => exact fun _ few => absurd few (Nat.not_lt_zero _)
  | succ bound ih =>
      intro progress few
      have unfolded : ∀ bound, Progress.rounds (bound + 1) progress =
          if progress.round.waiting.isEmpty ||
            progress.round.waiting.length == progress.waiting.length then progress.round
          else Progress.rounds bound progress.round := fun _ => rfl
      have shift : ∀ more, bound + 1 + more = bound + more + 1 := by omega
      simp only [shift, unfolded]
      by_cases ended : (progress.round.waiting.isEmpty ||
          progress.round.waiting.length == progress.waiting.length) = true
      · simp only [ended, if_true, implies_true, true_and]
        rw [Bool.or_eq_true, List.isEmpty_iff, beq_iff_eq] at ended
        rcases ended with noneWaits | sameNumber
        · simp [noneWaits]
        · obtain ⟨unchanged, noMeaning⟩ := Progress.round_eq_of_length sameNumber
          rw [unchanged]
          exact noMeaning
      · simp only [ended, Bool.false_eq_true, if_false]
        have fewer := Progress.length_waiting_round progress
        rw [Bool.or_eq_true, beq_iff_eq, not_or] at ended
        exact ih _ (by omega)

/-! ## The finished table -/

def finished (decls : List TypeDecl) : Progress :=
  Progress.rounds (decls.length + 1) { types := elementary, waiting := decls }

theorem finished_ledger (decls : List TypeDecl) :
    ∃ repeated accepted, (finished decls).Ledger decls [] repeated accepted := by
  have start : Progress.Ledger decls [] [] [] { types := elementary, waiting := decls } :=
    { split := by simp, entries := by simp, distinct := elementary_distinct, meaning := by simp
      reported := rfl, taken := by simp, resolvable := by simp, left := by simp }
  exact start.rounds

theorem finished_closed (decls : List TypeDecl) :
    ∀ decl ∈ (finished decls).waiting, (finished decls).types.declaration? decl = none :=
  (Progress.rounds_closed { types := elementary, waiting := decls } (Nat.lt_succ_self _)).2

section Closed

variable {progress : Progress} {repeated : List TypeDecl} {accepted : List (TypeDecl × DataType)}
  (ledger : progress.Ledger decls [] repeated accepted)

include ledger

theorem Progress.Ledger.contains_accepted {pair : TypeDecl × DataType} (member : pair ∈ accepted) :
    progress.types.contains pair.1.name = true := by
  refine Table.contains_iff.mpr ⟨(pair.1.name, pair.2), ?_, ReflBEq.rfl⟩
  rw [ledger.entries]
  exact List.mem_append_right _ (List.mem_map.mpr ⟨pair, member, rfl⟩)

theorem Progress.Ledger.cases {decl : TypeDecl} (member : decl ∈ decls) :
    progress.types.contains decl.name = true ∨ decl ∈ progress.waiting := by
  rw [ledger.split.mem_iff, List.append_nil, List.mem_append, List.mem_append] at member
  rcases member with isAccepted | isRepeated | waits
  · obtain ⟨pair, isPair, rfl⟩ := List.mem_map.mp isAccepted
    exact .inl (ledger.contains_accepted isPair)
  · exact .inl (ledger.taken decl isRepeated)
  · exact .inr waits

omit ledger

mutual

theorem Progress.Ledger.isSome_of_resolvable {decl : TypeDecl}
    (ledger : progress.Ledger decls [] repeated accepted)
    (closed : ∀ decl ∈ progress.waiting, progress.types.declaration? decl = none) :
    TypeDecl.Resolvable decls decl → (progress.types.declaration? decl).isSome = true
  | .intro readable known =>
      (isSome_declaration? decl).mpr
        ⟨readable, fun name member => ledger.isSome_of_isKnownType closed (known name member)⟩

theorem Progress.Ledger.isSome_of_isKnownType {name : Ident}
    (ledger : progress.Ledger decls [] repeated accepted)
    (closed : ∀ decl ∈ progress.waiting, progress.types.declaration? decl = none) :
    Ident.IsKnownType decls name → (progress.types.type? name).isSome = true
  | .elementary isElementary => by
      unfold type?
      split
      · rfl
      · next missing =>
          rw [missing] at isElementary
          cases isElementary
  | @Ident.IsKnownType.declared _ _ decl member same resolvable => by
      have meaning := ledger.isSome_of_resolvable closed resolvable
      rcases ledger.cases member with known | waits
      · unfold type?
        split
        · rfl
        · rw [← Table.get?_congr _ same]
          exact known
      · rw [closed decl waits] at meaning
        cases meaning

end

theorem Progress.Ledger.waiting_eq (ledger : progress.Ledger decls [] repeated accepted)
    (closed : ∀ decl ∈ progress.waiting, progress.types.declaration? decl = none) :
    progress.waiting = TypeDecl.unresolvable decls decls := by
  have left := ledger.left
  rw [List.append_nil] at left
  rw [← left, TypeDecl.unresolvable, eq_comm, List.filter_eq_self]
  intro decl waits
  simp only [decide_eq_true_eq]
  intro resolvable
  have meaning := ledger.isSome_of_resolvable closed resolvable
  rw [closed decl waits] at meaning
  cases meaning

end Closed

/-- What becomes of declarations: a table that has them all, or a report of the repeated
names and of the declarations that are not resolvable. -/
theorem build_spec (decls : List TypeDecl) :
    ∃ repeated accepted, (finished decls).Ledger decls [] repeated accepted ∧
      (finished decls).waiting = TypeDecl.unresolvable decls decls ∧
      build elementary decls =
        match repeated.map (fun decl => Fault.duplicateType decl.name) ++
            (TypeDecl.unresolvable decls decls).map fun decl => .unresolvedType decl.name with
        | [] => .ok (finished decls).types
        | faults => .error faults := by
  obtain ⟨repeated, accepted, ledger⟩ := finished_ledger decls
  have waiting := ledger.waiting_eq (finished_closed decls)
  refine ⟨repeated, accepted, ledger, waiting, ?_⟩
  rw [← waiting, ← ledger.reported]
  rfl

theorem reported_build (decls : List TypeDecl) :
    (reported (build elementary decls)).filter (fun fault => fault.problem == .typeUndefined) =
      (TypeDecl.unresolvable decls decls).map fun decl => .unresolvedType decl.name := by
  obtain ⟨repeated, accepted, -, -, built⟩ := build_spec decls
  have reports : reported (build elementary decls) =
      repeated.map (fun decl => Fault.duplicateType decl.name) ++
        (TypeDecl.unresolvable decls decls).map fun decl => .unresolvedType decl.name := by
    rw [built]
    split
    · next clean => rw [clean]; rfl
    · rfl
  rw [reports, List.filter_append, List.filter_eq_nil_iff.mpr, List.filter_eq_self.mpr,
    List.nil_append]
  · intro fault member
    obtain ⟨decl, -, rfl⟩ := List.mem_map.mp member
    rfl
  · intro fault member
    obtain ⟨decl, -, rfl⟩ := List.mem_map.mp member
    exact Bool.false_ne_true

theorem ledger_of_build {types : TypeTable} (built : build elementary decls = .ok types) :
    ∃ accepted, Progress.Ledger decls [] [] accepted { types } := by
  obtain ⟨repeated, accepted, ledger, waiting, spec⟩ := build_spec decls
  rw [spec] at built
  split at built
  · next clean =>
      cases built
      obtain ⟨noneRepeated, noneLeft⟩ := List.append_eq_nil_iff.mp clean
      rw [List.map_eq_nil_iff] at noneRepeated noneLeft
      subst noneRepeated
      rw [noneLeft] at waiting
      have split := ledger.split
      have left := ledger.left
      rw [waiting] at split left
      exact ⟨accepted, { ledger with split := split, reported := rfl, left := left }⟩
  · cases built

/-- In a table without faults a declared name means what its declaration says. -/
theorem get?_of_build {types : TypeTable} (built : build elementary decls = .ok types)
    {decl : TypeDecl} (member : decl ∈ decls) {name : Ident} (same : (decl.name == name) = true) :
    types.get? name = types.declaration? decl := by
  obtain ⟨accepted, ledger⟩ := ledger_of_build built
  have isAccepted : decl ∈ accepted.map Prod.fst := by
    simpa using ledger.split.mem_iff.mp member
  obtain ⟨⟨decl, type⟩, isPair, rfl⟩ := List.mem_map.mp isAccepted
  rw [ledger.meaning _ isPair]
  refine ledger.distinct.get?_eq_some_iff.mpr ⟨(decl.name, type), ?_, same, rfl⟩
  rw [ledger.entries]
  exact List.mem_append_right _ (List.mem_map.mpr ⟨_, isPair, rfl⟩)

/-- Declarations can be made into a table if each of them is resolvable and no name is
taken twice. -/
theorem isOk_build (decls : List TypeDecl) :
    (build elementary decls).isOk = true ↔
      (∀ decl ∈ decls, TypeDecl.Resolvable decls decl) ∧
        decls.Pairwise (fun first second => (first.name == second.name) = false) ∧
        ∀ decl ∈ decls, elementary.contains decl.name = false := by
  have symmetric : ∀ {first second : TypeDecl}, (first.name == second.name) = false →
      (second.name == first.name) = false := fun differs => BEq.comm.trans differs
  constructor
  · intro isOk
    cases built : build elementary decls with
    | error faults => rw [built] at isOk; cases isOk
    | ok types =>
        obtain ⟨accepted, ledger⟩ := ledger_of_build built
        have split : decls.Perm (accepted.map Prod.fst) := by simpa using ledger.split
        have distinct := ledger.distinct
        rw [Table.Distinct, ledger.entries, List.pairwise_append, List.pairwise_map] at distinct
        obtain ⟨-, acceptedDistinct, apart⟩ := distinct
        refine ⟨fun decl member => ?_, ?_, fun decl member => ?_⟩
        · obtain ⟨pair, isPair, rfl⟩ := List.mem_map.mp (split.mem_iff.mp member)
          exact ledger.resolvable pair isPair
        · rw [split.pairwise_iff symmetric, List.pairwise_map]
          exact acceptedDistinct
        · obtain ⟨pair, isPair, rfl⟩ := List.mem_map.mp (split.mem_iff.mp member)
          rw [← Bool.not_eq_true]
          intro taken
          obtain ⟨entry, isEntry, same⟩ := Table.contains_iff.mp taken
          have differs := apart entry isEntry _ (List.mem_map.mpr ⟨pair, isPair, rfl⟩)
          rw [same] at differs
          cases differs
  · rintro ⟨resolvable, distinct, fresh⟩
    obtain ⟨repeated, accepted, ledger, -, spec⟩ := build_spec decls
    have noneLeft : TypeDecl.unresolvable decls decls = [] := by
      simpa [TypeDecl.unresolvable, List.filter_eq_nil_iff] using resolvable
    have noneRepeated : repeated = [] := by
      rw [List.eq_nil_iff_forall_not_mem]
      intro decl isRepeated
      have inRest := List.mem_append_left ((finished decls).waiting ++ []) isRepeated
      have member : decl ∈ decls :=
        ledger.split.mem_iff.mpr (List.mem_append_right (accepted.map Prod.fst) inRest)
      rw [ledger.split.pairwise_iff symmetric, List.pairwise_append] at distinct
      obtain ⟨entry, isEntry, same⟩ := Table.contains_iff.mp (ledger.taken decl isRepeated)
      rw [ledger.entries] at isEntry
      rcases List.mem_append.mp isEntry with isElementary | isAccepted
      · have taken := Table.contains_iff.mpr ⟨entry, isElementary, same⟩
        rw [fresh decl member] at taken
        cases taken
      · obtain ⟨pair, isPair, rfl⟩ := List.mem_map.mp isAccepted
        have differs := distinct.2.2 pair.1 (List.mem_map_of_mem isPair) decl inRest
        rw [same] at differs
        cases differs
    rw [spec, noneRepeated, noneLeft]
    rfl

/-! ## The order of declarations -/

section Order

variable {others : List TypeDecl} {types otherTypes : TypeTable}

theorem isOk_build_perm (permuted : decls.Perm others) :
    (build elementary decls).isOk = (build elementary others).isOk := by
  have symmetric : ∀ {first second : TypeDecl}, (first.name == second.name) = false →
      (second.name == first.name) = false := fun differs => BEq.comm.trans differs
  have sameResolvable : ∀ decl,
      TypeDecl.Resolvable decls decl ↔ TypeDecl.Resolvable others decl := fun decl =>
    ⟨fun resolvable => resolvable.mono fun _ => permuted.mem_iff.mp,
      fun resolvable => resolvable.mono fun _ => permuted.mem_iff.mpr⟩
  rw [Bool.eq_iff_iff, isOk_build, isOk_build, permuted.pairwise_iff symmetric]
  simp only [permuted.mem_iff, sameResolvable]

mutual

/-- Two tables of the same declarations agree on what a declaration means. -/
theorem declaration?_eq_of_build (permuted : decls.Perm others)
    (built : build elementary decls = .ok types)
    (otherBuilt : build elementary others = .ok otherTypes) {decl : TypeDecl} :
    TypeDecl.Resolvable decls decl → types.declaration? decl = otherTypes.declaration? decl
  | .intro _ known =>
      declaration?_congr fun name member =>
        type?_eq_of_build permuted built otherBuilt (known name member)

theorem type?_eq_of_build (permuted : decls.Perm others)
    (built : build elementary decls = .ok types)
    (otherBuilt : build elementary others = .ok otherTypes) {name : Ident} :
    Ident.IsKnownType decls name → types.type? name = otherTypes.type? name
  | .elementary isElementary => by
      obtain ⟨type, found⟩ := Option.isSome_iff_exists.mp isElementary
      simp only [type?, found]
  | @Ident.IsKnownType.declared _ _ decl member same resolvable => by
      unfold type?
      rw [get?_of_build built member same,
        get?_of_build otherBuilt (permuted.mem_iff.mp member) same,
        declaration?_eq_of_build permuted built otherBuilt resolvable]

end

def entryOf? (types : TypeTable) (decl : TypeDecl) : Option (Ident × DataType) :=
  (types.declaration? decl).map fun type => (decl.name, type)

theorem entries_perm (built : build elementary decls = .ok types) :
    types.entries.Perm (elementary.entries ++ decls.filterMap types.entryOf?) := by
  obtain ⟨accepted, ledger⟩ := ledger_of_build built
  have split : decls.Perm (accepted.map Prod.fst) := by simpa using ledger.split
  have entries : (accepted.map Prod.fst).filterMap types.entryOf? =
      accepted.map fun (decl, type) => (decl.name, type) := by
    rw [List.filterMap_map, ← List.filterMap_eq_map]
    refine List.filterMap_congr fun pair member => ?_
    rw [Function.comp, entryOf?, ledger.meaning pair member]
    rfl
  have sameEntries := ledger.entries
  rw [← entries] at sameEntries
  rw [sameEntries]
  exact List.Perm.append_left _ (split.filterMap _).symm

/-- The order of the declarations does not show in the table. -/
theorem build_perm (permuted : decls.Perm others) (built : build elementary decls = .ok types)
    (otherBuilt : build elementary others = .ok otherTypes) :
    types.entries.Perm otherTypes.entries ∧ ∀ name, types.get? name = otherTypes.get? name := by
  have resolvable := ((isOk_build decls).mp (by rw [built]; rfl)).1
  have sameEntries : decls.filterMap types.entryOf? = decls.filterMap otherTypes.entryOf? := by
    refine List.filterMap_congr fun decl member => ?_
    rw [entryOf?, declaration?_eq_of_build permuted built otherBuilt (resolvable decl member)]
    rfl
  have entries : types.entries.Perm otherTypes.entries := by
    refine (entries_perm built).trans (List.Perm.trans ?_ (entries_perm otherBuilt).symm)
    rw [sameEntries]
    exact List.Perm.append_left _ (permuted.filterMap _)
  obtain ⟨_, ledger⟩ := ledger_of_build built
  obtain ⟨_, otherLedger⟩ := ledger_of_build otherBuilt
  exact ⟨entries, ledger.distinct.get?_perm otherLedger.distinct entries⟩

end Order

end TypeTable

/-- The types of a library are resolved to the least fixpoint.  The rounds stop of
themselves; the declarations reported as not resolved are those that are not resolvable,
in source order; there is a table if and only if all are resolvable and no name is taken
twice or by an elementary type; and no reordering of the library changes the table. -/
theorem Library.types_leastFixpoint (library : Library) :
    (∀ more, TypeTable.Progress.rounds (library.typeDecls.length + 1 + more)
        { types := TypeTable.elementary, waiting := library.typeDecls } =
      TypeTable.Progress.rounds (library.typeDecls.length + 1)
        { types := TypeTable.elementary, waiting := library.typeDecls }) ∧
    (reported (TypeTable.build TypeTable.elementary library.typeDecls)).filter
        (fun fault => fault.problem == .typeUndefined) =
      (TypeDecl.unresolvable library.typeDecls library.typeDecls).map
        (fun decl => .unresolvedType decl.name) ∧
    ((TypeTable.build TypeTable.elementary library.typeDecls).isOk = true ↔
      (∀ decl ∈ library.typeDecls, TypeDecl.Resolvable library.typeDecls decl) ∧
        library.typeDecls.Pairwise (fun first second => (first.name == second.name) = false) ∧
        ∀ decl ∈ library.typeDecls, TypeTable.elementary.contains decl.name = false) ∧
    ∀ other : Library, library.elements.Perm other.elements →
      (TypeTable.build TypeTable.elementary library.typeDecls).isOk =
          (TypeTable.build TypeTable.elementary other.typeDecls).isOk ∧
        ∀ types otherTypes,
          TypeTable.build TypeTable.elementary library.typeDecls = .ok types →
          TypeTable.build TypeTable.elementary other.typeDecls = .ok otherTypes →
            types.entries.Perm otherTypes.entries ∧
              ∀ name, types.get? name = otherTypes.get? name := by
  refine ⟨?_, TypeTable.reported_build _, TypeTable.isOk_build _, ?_⟩
  · exact (TypeTable.Progress.rounds_closed
      { types := TypeTable.elementary, waiting := library.typeDecls } (Nat.lt_succ_self _)).1
  · intro other permuted
    have declsPermuted : library.typeDecls.Perm other.typeDecls := permuted.filterMap _
    exact ⟨TypeTable.isOk_build_perm declsPermuted, fun types otherTypes =>
      TypeTable.build_perm declsPermuted⟩

def measurements : Library where
  elements :=
    [.type (.record "Sample"
        [{ name := "levels", initializer := .array (.inline
            { ranges := [{ start := .ofInt 0, stop := .ofInt 7 }], element := "Level" }) },
          { name := "mode", initializer := .enumerated "Mode" none }]),
      .type (.synonym "Level" "Percent"),
      .type (.enumeration "Mode" ["Idle", "Busy"]),
      .type (.subrange "Percent" .int { start := .ofInt 0, stop := .ofInt 100 })]

theorem Library.types_leastFixpoint_measurements :
    measurements.elements.Perm measurements.elements.reverse ∧
      (TypeTable.build TypeTable.elementary measurements.typeDecls).isOk = true ∧
      (TypeTable.build TypeTable.elementary measurements.typeDecls).isOk =
          (TypeTable.build TypeTable.elementary
            (Library.typeDecls { elements := measurements.elements.reverse })).isOk ∧
        ∀ types otherTypes,
          TypeTable.build TypeTable.elementary measurements.typeDecls = .ok types →
          TypeTable.build TypeTable.elementary
              (Library.typeDecls { elements := measurements.elements.reverse }) =
            .ok otherTypes →
            types.entries.Perm otherTypes.entries ∧
              ∀ name, types.get? name = otherTypes.get? name := by
  have reversed : measurements.elements.Perm measurements.elements.reverse :=
    (List.reverse_perm _).symm
  exact ⟨reversed, by decide +kernel,
    (Library.types_leastFixpoint measurements).2.2.2 { elements := _ } reversed⟩

def deepest : TypeDecl :=
  .subrange "Deep" .lint
    { start := { value := { digits := "170141183460469231731687303715884105728", radix := .decimal }
                 isNegative := true }
      stop := .ofInt 0 }

/-- Both bounds of the declaration fit a signed word, and it refers to no type; still it
is reported as not resolved. -/
theorem Library.deepest_unresolved :
    (∀ range ∈ deepest.ranges, ∀ bound ∈ [range.start, range.stop],
      ∃ number, bound.exactNumber? = some number ∧ -wordLimit ≤ number ∧ number < wordLimit) ∧
    deepest.references = [] ∧
    (reported (TypeTable.build TypeTable.elementary
        (Library.typeDecls { elements := [.type deepest] }))).map Fault.problem =
      [.typeUndefined] := by
  refine ⟨?_, rfl, by decide +kernel⟩
  intro range member bound isBound
  rw [List.mem_singleton.mp member] at isBound
  rcases List.mem_cons.mp isBound with rfl | isBound
  · exact ⟨-wordLimit, by decide +kernel, by decide, by decide⟩
  · rw [List.mem_singleton.mp isBound]
    exact ⟨0, by decide +kernel, by decide, by decide⟩

end StructuredText
