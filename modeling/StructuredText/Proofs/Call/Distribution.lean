import StructuredText.Proofs.Call.Output

/-!
# How the arguments of a call are distributed

An argument under a name goes to the parameter, or to the position of the extensible
parameter, that it names; of several for one, the last counts.  The arguments by position
go, in the order of the call, to the parameters that are open for them and stand before
the extensible one, and then to its group, behind the positions that are given by name.
The definitions here say this for whole lists, and sorting and spreading the arguments
comes to the same.
-/

set_option autoImplicit false

namespace StructuredText

namespace Binding

/-- What an argument can name: a parameter, by its index, or a position in the group of the
extensible parameter. -/
inductive Seat where
  | single (slot : Nat)
  | member (position : Nat)
deriving DecidableEq

end Binding

namespace Argument

def seat? (parameters : List Parameter) : Argument → Option Binding.Seat
  | .positional _ => none
  | .named name _ =>
      match Binding.inputIndex? parameters name with
      | some slot => some (.single slot)
      | none => (parameters.findSome? fun parameter => parameter.position? name).map .member
  | .output _ source _ => (Binding.outputIndex? parameters source).map .single

/-- What an argument gives, as the one at an index of the call. -/
def actual (index : Nat) : Argument → Actual
  | .positional value | .named _ value => .input index value
  | .output _ _ target => .output index target

def unknown? (parameters : List Parameter) (argument : Argument) : Option Ident :=
  match argument.seat? parameters with
  | some _ => none
  | none => argument.name?

/-- An input under a name that neither a parameter that takes values in nor a position of the
extensible one has, or an output under a name that no parameter that gives values out has. -/
def IsUnknown (parameters : List Parameter) : Argument → Prop
  | .positional _ => False
  | .named name _ => ∀ parameter ∈ parameters,
      ¬ (parameter.isInput = true ∧ parameter.isExtensible = false ∧
        (parameter.name == name) = true) ∧ parameter.position? name = none
  | .output _ source _ => ∀ parameter ∈ parameters,
      ¬ (parameter.isOutput = true ∧ (parameter.name == source) = true)

theorem isUnknown_iff {parameters : List Parameter} {argument : Argument} :
    argument.IsUnknown parameters ↔ ∃ name, argument.unknown? parameters = some name := by
  cases argument with
  | positional value => simp [IsUnknown, unknown?, seat?, name?]
  | named name value =>
      rw [IsUnknown, unknown?, seat?]
      cases own : Binding.inputIndex? parameters name with
      | some slot =>
          obtain ⟨inside, takes, -⟩ := List.findIdx?_eq_some_iff_getElem.mp own
          simp only [Bool.and_eq_true, Bool.not_eq_true'] at takes
          simp only [reduceCtorEq, exists_false, iff_false]
          intro unknown
          exact (unknown _ (List.getElem_mem inside)).1 ⟨takes.1.1, takes.1.2, takes.2⟩
      | none =>
          have noParameter := List.findIdx?_eq_none_iff.mp own
          simp only [Bool.and_eq_false_iff, Bool.not_eq_false'] at noParameter
          cases grouped : parameters.findSome? fun parameter => parameter.position? name with
          | some position =>
              obtain ⟨parameter, member, found⟩ := List.exists_of_findSome?_eq_some grouped
              simp only [Option.map_some, reduceCtorEq, exists_false, iff_false]
              intro unknown
              rw [(unknown parameter member).2] at found
              cases found
          | none =>
              rw [List.findSome?_eq_none_iff] at grouped
              simp only [Option.map_none, name?, Option.some.injEq, exists_eq', iff_true]
              intro parameter member
              refine ⟨?_, grouped parameter member⟩
              rintro ⟨isInput, isSingle, named⟩
              simpa [isInput, isSingle, named] using noParameter parameter member
  | output isNegated source target =>
      rw [IsUnknown, unknown?, seat?]
      cases own : Binding.outputIndex? parameters source with
      | some slot =>
          obtain ⟨parameter, found, isOutput, named⟩ := Binding.parameter_of_outputIndex? own
          simp only [Option.map_some, reduceCtorEq, exists_false, iff_false]
          intro unknown
          exact unknown parameter (List.mem_of_getElem? found) ⟨isOutput, named⟩
      | none =>
          have noParameter := List.findIdx?_eq_none_iff.mp own
          simp only [Option.map_none, name?, Option.some.injEq, exists_eq', iff_true]
          rintro parameter member ⟨isOutput, named⟩
          simpa [isOutput, named] using noParameter parameter member

end Argument

namespace Binding

variable {parameters : List Parameter} {arguments : List Argument}
  {call : List (Argument × Nat)}

/-! ## The arguments as a whole

A call stands here for its arguments, each with its index. -/

def given? (parameters : List Parameter) (call : List (Argument × Nat)) (seat : Seat) :
    Option Actual :=
  (call.reverse.find? fun entry => entry.1.seat? parameters == some seat).map fun entry =>
    entry.1.actual entry.2

/-- The arguments by position, in the order of the call. -/
def positionals (call : List (Argument × Nat)) : List (Nat × Expr) :=
  call.filterMap fun
    | (.positional value, index) => some (index, value)
    | _ => none

def namedPositions (parameters : List Parameter) (call : List (Argument × Nat)) : List Nat :=
  call.filterMap fun entry =>
    match entry.1.seat? parameters with
    | some (.member position) => some position
    | _ => none

/-- The highest position of the group that is given by name. -/
def highestNamed (parameters : List Parameter) (call : List (Argument × Nat)) : Nat :=
  (namedPositions parameters call).foldl max 0

/-! ## Sorting the arguments -/

theorem highest_eq (grouped : List (Nat × Actual)) :
    highest grouped = (grouped.map Prod.fst).foldl max 0 := by
  rw [highest, List.foldl_map]

theorem highest_cons (position : Nat) (actual : Actual) (grouped : List (Nat × Actual)) :
    highest ((position, actual) :: grouped) = max position (highest grouped) := by
  rw [highest_eq, highest_eq, List.map_cons, List.foldl_cons, Nat.max_comm 0 position,
    List.foldl_assoc]

/-- The sorted arguments are those of a call: for each seat the last one that names it, and
those by position. -/
structure Sorted.Represents (parameters : List Parameter) (call : List (Argument × Nat))
    (sorted : Sorted) : Prop where
  named : ∀ slot, sorted.named.lookup slot = given? parameters call (.single slot)
  grouped : ∀ position, sorted.grouped.lookup position = given? parameters call (.member position)
  highest : Binding.highest sorted.grouped = highestNamed parameters call
  positional : sorted.positional = positionals call

theorem Sorted.represents_empty : Sorted.Represents parameters [] {} :=
  ⟨fun _ => rfl, fun _ => rfl, rfl, rfl⟩

theorem given?_append {argument : Argument} {index : Nat} {seat : Seat} :
    given? parameters (call ++ [(argument, index)]) seat =
      if argument.seat? parameters = some seat then some (argument.actual index)
      else given? parameters call seat := by
  rw [given?, List.reverse_append, List.reverse_singleton, List.singleton_append, List.find?_cons]
  by_cases names : argument.seat? parameters = some seat
  · simp [names]
  · rw [if_neg names, beq_eq_false_iff_ne.mpr names]
    rfl

theorem Sorted.Represents.positional_append {sorted : Sorted}
    (represents : sorted.Represents parameters call) (index : Nat) (value : Expr) :
    Sorted.Represents parameters (call ++ [(.positional value, index)])
      { sorted with positional := sorted.positional ++ [(index, value)] } where
  named slot := by rw [given?_append, represents.named, if_neg (by simp [Argument.seat?])]
  grouped position := by
    rw [given?_append, represents.grouped, if_neg (by simp [Argument.seat?])]
  highest := by
    rw [represents.highest]
    simp [highestNamed, namedPositions, Argument.seat?]
  positional := by
    rw [represents.positional]
    simp [positionals]

theorem positionals_append_of_seat {argument : Argument} {index : Nat} {seat : Seat}
    (names : argument.seat? parameters = some seat) :
    positionals (call ++ [(argument, index)]) = positionals call := by
  cases argument with
  | positional value => cases names
  | named name value => simp [positionals]
  | output isNegated source target => simp [positionals]

theorem Sorted.Represents.single_append {sorted : Sorted} {argument : Argument} {slot : Nat}
    (represents : sorted.Represents parameters call)
    (names : argument.seat? parameters = some (.single slot)) (index : Nat) :
    Sorted.Represents parameters (call ++ [(argument, index)])
      { sorted with named := (slot, argument.actual index) :: sorted.named } where
  named other := by
    rw [given?_append, names, List.lookup_cons]
    by_cases same : other = slot
    · simp [same]
    · rw [beq_eq_false_iff_ne.mpr same, if_neg (by simp [Ne.symm same])]
      exact represents.named other
  grouped position := by
    rw [given?_append, names, represents.grouped]
    simp
  highest := by
    rw [represents.highest]
    simp [highestNamed, namedPositions, names]
  positional := by rw [positionals_append_of_seat names, represents.positional]

theorem Sorted.Represents.member_append {sorted : Sorted} {argument : Argument} {position : Nat}
    (represents : sorted.Represents parameters call)
    (names : argument.seat? parameters = some (.member position)) (index : Nat) :
    Sorted.Represents parameters (call ++ [(argument, index)])
      { sorted with grouped := (position, argument.actual index) :: sorted.grouped } where
  named slot := by
    rw [given?_append, names, represents.named]
    simp
  grouped other := by
    rw [given?_append, names, List.lookup_cons]
    by_cases same : other = position
    · simp [same]
    · rw [beq_eq_false_iff_ne.mpr same, if_neg (by simp [Ne.symm same])]
      exact represents.grouped other
  highest := by
    rw [highest_cons, represents.highest]
    simp [highestNamed, namedPositions, names, Nat.max_comm]
  positional := by rw [positionals_append_of_seat names, represents.positional]

/-- Sorting stops at the first argument whose name is unknown; if there is none, it sorts in
every argument. -/
theorem Sorted.Represents.add {index : Nat} {sorted : Sorted} {rest : List Argument} :
    ∀ {call : List (Argument × Nat)}, sorted.Represents parameters call →
      match rest.findSome? (Argument.unknown? parameters) with
      | some name => Sorted.add parameters index sorted rest = .error (.unknownParameter name)
      | none => ∃ done, Sorted.add parameters index sorted rest = .ok done ∧
          done.Represents parameters (call ++ rest.zipIdx index) := by
  fun_induction Sorted.add parameters index sorted rest with
  | case1 index sorted =>
      intro call represents
      exact ⟨sorted, rfl, by simpa using represents⟩
  | case2 index sorted value rest ih =>
      intro call represents
      rw [List.findSome?_cons, Argument.unknown?, Argument.seat?, List.zipIdx_cons,
        List.append_cons call]
      exact ih (represents.positional_append index value)
  | case3 index sorted name value rest slot found ih =>
      intro call represents
      have names : Argument.seat? parameters (.named name value) = some (.single slot) := by
        rw [Argument.seat?, found]
      rw [List.findSome?_cons, Argument.unknown?, names, List.zipIdx_cons,
        List.append_cons call]
      exact ih (represents.single_append names index)
  | case4 index sorted name value rest notOwn position isGrouped ih =>
      intro call represents
      have names : Argument.seat? parameters (.named name value) = some (.member position) := by
        rw [Argument.seat?, notOwn, isGrouped, Option.map_some]
      rw [List.findSome?_cons, Argument.unknown?, names, List.zipIdx_cons,
        List.append_cons call]
      exact ih (represents.member_append names index)
  | case5 index sorted name value rest notOwn notGrouped =>
      intro call _
      rw [List.findSome?_cons, Argument.unknown?, Argument.seat?, notOwn, notGrouped]
      rfl
  | case6 index sorted isNegated source target rest slot found ih =>
      intro call represents
      have names : Argument.seat? parameters (.output isNegated source target) =
          some (.single slot) := by
        rw [Argument.seat?, found, Option.map_some]
      rw [List.findSome?_cons, Argument.unknown?, names, List.zipIdx_cons,
        List.append_cons call]
      exact ih (represents.single_append names index)
  | case7 index sorted isNegated source target rest notFound =>
      intro call _
      rw [List.findSome?_cons, Argument.unknown?, Argument.seat?, notFound]
      rfl

/-! ## Spreading the arguments over the parameters -/

/-- A parameter, with its index, that a call leaves open for an argument by position. -/
def isOpen (parameters : List Parameter) (call : List (Argument × Nat))
    (declared : Parameter × Nat) : Bool :=
  !declared.1.isImplicit && declared.1.isInput &&
    (given? parameters call (.single declared.2)).isNone

/-- The indices of the parameters that arguments by position go to: those that are open and
stand before the extensible one. -/
def openSlots (parameters : List Parameter) (call : List (Argument × Nat))
    (declared : List (Parameter × Nat)) : List Nat :=
  ((declared.takeWhile fun entry => !entry.1.isExtensible).filter (isOpen parameters call)).map
    Prod.snd

def byPosition (entry : Nat × Expr) : Actual := .input entry.1 entry.2

/-- A parameter that is not extensible with what is given for it: by name, or by position if
the argument falls to its index. -/
def single (parameters : List Parameter) (call : List (Argument × Nat)) (slots : List Nat)
    (positional : List (Nat × Expr)) (declared : Parameter × Nat) : BoundParameter :=
  { parameter := declared.1
    actual := (given? parameters call (.single declared.2)).or
      (((slots.zip positional).lookup declared.2).map byPosition) }

/-- An entry in the group of the extensible parameter: up to the highest position that is given
by name what is given so, if anything, and behind it an argument by position that is left. -/
def member (parameters : List Parameter) (call : List (Argument × Nat))
    (left : List (Nat × Expr)) (parameter : Parameter) (offset : Nat) : BoundParameter :=
  { parameter, position := some (offset + 1)
    actual :=
      if offset < highestNamed parameters call then given? parameters call (.member (offset + 1))
      else left[offset - highestNamed parameters call]?.map byPosition }

def members (parameters : List Parameter) (call : List (Argument × Nat))
    (left : List (Nat × Expr)) (parameter : Parameter) : List BoundParameter :=
  (List.range (highestNamed parameters call + left.length)).map
    (member parameters call left parameter)

/-- Every parameter in the order of declaration with what the arguments of a call give for it. -/
def distribution (parameters : List Parameter) (arguments : List Argument) : Binding :=
  let call := arguments.zipIdx
  let slots := openSlots parameters call parameters.zipIdx
  let left := (positionals call).drop slots.length
  { parameters := parameters.zipIdx.flatMap fun declared =>
      if declared.1.isExtensible then members parameters call left declared.1
      else [single parameters call slots (positionals call) declared]
    count := if parameters.any Parameter.isExtensible
      then highestNamed parameters call + left.length else 0 }

theorem openSlots_cons {parameter : Parameter} {slot : Nat} {declared : List (Parameter × Nat)}
    (isSingle : parameter.isExtensible = false) :
    openSlots parameters call ((parameter, slot) :: declared) =
      if isOpen parameters call (parameter, slot) then slot :: openSlots parameters call declared
      else openSlots parameters call declared := by
  rw [openSlots, List.takeWhile_cons_of_pos (by simp [isSingle]), List.filter_cons]
  split <;> rfl

theorem openSlots_of_plain {declared : List (Parameter × Nat)}
    (plain : ∀ entry ∈ declared, entry.1.isExtensible = false) :
    openSlots parameters call declared =
      (declared.filter (isOpen parameters call)).map Prod.snd := by
  have isPlain : ∀ entry ∈ declared, (!entry.1.isExtensible) = true := by simpa using plain
  have whole := @List.takeWhile_append_of_pos _ _ declared [] isPlain
  rw [List.append_nil, List.takeWhile_nil, List.append_nil] at whole
  rw [openSlots, whole]

theorem openSlots_append {before rest : List (Parameter × Nat)} {extensible : Parameter × Nat}
    (plain : ∀ declared ∈ before, declared.1.isExtensible = false)
    (isExtensible : extensible.1.isExtensible = true) :
    openSlots parameters call (before ++ extensible :: rest) =
      openSlots parameters call before := by
  have isPlain : ∀ declared ∈ before, (!declared.1.isExtensible) = true := by simpa using plain
  rw [openSlots_of_plain plain, openSlots, List.takeWhile_append_of_pos isPlain,
    List.takeWhile_cons_of_neg (by simp [isExtensible]), List.append_nil]

theorem group_eq {sorted : Sorted} (represents : sorted.Represents parameters call)
    (parameter : Parameter) (left : List (Nat × Expr)) :
    group parameter sorted.grouped left = members parameters call left parameter := by
  rw [group, members, represents.highest, List.range_add, List.map_append]
  congr 1
  · apply List.map_congr_left
    intro offset inside
    rw [member, if_pos (List.mem_range.mp inside), represents.grouped]
  · apply List.ext_getElem?
    intro offset
    have behind : ¬ highestNamed parameters call + offset < highestNamed parameters call := by omega
    rw [List.getElem?_mapIdx, List.map_map, List.getElem?_map]
    by_cases inside : offset < left.length
    · rw [List.getElem?_range inside, List.getElem?_eq_getElem inside]
      simp [member, byPosition, inside, behind]
    · rw [List.getElem?_eq_none (by simpa using inside),
        List.getElem?_eq_none (by simpa using inside)]
      rfl

theorem single_of_later {slots : List Nat} {positional : List (Nat × Expr)} {slot : Nat}
    (value : Nat × Expr) {rest : List Parameter} :
    (rest.zipIdx (slot + 1)).map (single parameters call (slot :: slots) (value :: positional)) =
      (rest.zipIdx (slot + 1)).map (single parameters call slots positional) := by
  apply List.map_congr_left
  intro declared member
  have later := List.le_snd_of_mem_zipIdx member
  have apart : (declared.2 == slot) = false := beq_eq_false_iff_ne.mpr (by omega)
  rw [single, single, List.zip_cons_cons, List.lookup_cons, apart]

theorem single_nil (slots : List Nat) :
    single parameters call slots [] = single parameters call [] [] := by
  funext declared
  rw [single, single, List.zip_nil_right, List.zip_nil_right]

theorem lookup_of_notMem {slots : List Nat} {slot : Nat} (apart : slot ∉ slots)
    (positional : List (Nat × Expr)) : (slots.zip positional).lookup slot = none := by
  rw [List.lookup_eq_none_iff]
  intro entry member
  have inSlots := (List.of_mem_zip member).1
  rw [bne_iff_ne]
  rintro rfl
  exact apart inSlots

theorem mem_of_mem_openSlots {declared : List (Parameter × Nat)} {slot : Nat}
    (member : slot ∈ openSlots parameters call declared) :
    ∃ entry ∈ declared, entry.2 = slot ∧ isOpen parameters call entry = true := by
  obtain ⟨entry, found, rfl⟩ := List.mem_map.mp member
  obtain ⟨found, isOpen⟩ := List.mem_filter.mp found
  exact ⟨entry, (List.takeWhile_sublist _).subset found, rfl, isOpen⟩

theorem notMem_openSlots_of_later {later : List Parameter} {slot : Nat} :
    slot ∉ openSlots parameters call (later.zipIdx (slot + 1)) := by
  intro member
  obtain ⟨entry, found, rfl, -⟩ := mem_of_mem_openSlots member
  have := List.le_snd_of_mem_zipIdx found
  omega

/-- The parameters before the extensible one take the arguments by position that fall to them,
and what follows gets the others. -/
theorem spread_single {sorted : Sorted} (represents : sorted.Represents parameters call)
    {before : List Parameter} (rest : List Parameter)
    (plain : ∀ parameter ∈ before, parameter.isExtensible = false) :
    ∀ (slot : Nat) (positional : List (Nat × Expr)) (count : Nat),
      spread sorted slot positional count (before ++ rest) =
        ((before.zipIdx slot).map (single parameters call
            (openSlots parameters call (before.zipIdx slot)) positional) ++
          (spread sorted (slot + before.length)
            (positional.drop (openSlots parameters call (before.zipIdx slot)).length)
            count rest).1,
          (spread sorted (slot + before.length)
            (positional.drop (openSlots parameters call (before.zipIdx slot)).length)
            count rest).2) := by
  induction before with
  | nil =>
      intro slot positional count
      rfl
  | cons parameter before ih =>
      intro slot positional count
      have isSingle : parameter.isExtensible = false := plain parameter (List.mem_cons_self ..)
      have further := ih fun other member => plain other (List.mem_cons_of_mem _ member)
      have sameSlot : slot + (parameter :: before).length = slot + 1 + before.length := by
        rw [List.length_cons]
        omega
      rw [List.cons_append, List.zipIdx_cons, openSlots_cons isSingle, sameSlot, List.map_cons,
        List.cons_append]
      have lookup := represents.named slot
      cases given : given? parameters call (.single slot) with
      | some actual =>
          rw [given] at lookup
          have notOpen : isOpen parameters call (parameter, slot) = false := by
            simp [isOpen, given]
          simp [spread, isSingle, lookup, notOpen, further, single, given]
      | none =>
          rw [given] at lookup
          cases takes : !parameter.isImplicit && parameter.isInput with
          | false =>
              have notOpen : isOpen parameters call (parameter, slot) = false := by
                rw [isOpen, takes, Bool.false_and]
              rw [notOpen]
              simp only [spread, isSingle, lookup, takes, further, Bool.false_eq_true, if_false]
              simp [single, given, lookup_of_notMem notMem_openSlots_of_later]
          | true =>
              have isOpen' : isOpen parameters call (parameter, slot) = true := by
                rw [isOpen, takes, given]
                rfl
              rw [if_pos isOpen']
              cases positional with
              | nil =>
                simp only [spread, isSingle, lookup, takes, further, single_nil,
                  Bool.false_eq_true, if_false, if_true]
                simp [single, given]
              | cons value positional =>
                simp only [spread, isSingle, lookup, takes, further, single_of_later,
                  Bool.false_eq_true, if_false, if_true]
                simp [single, given, byPosition]

/-- There is no extensible parameter, or one with the others before and behind it. -/
theorem split_of_single (atMostOne : (parameters.filter Parameter.isExtensible).length ≤ 1) :
    (∀ parameter ∈ parameters, parameter.isExtensible = false) ∨
      ∃ before extensible after, parameters = before ++ extensible :: after ∧
        extensible.isExtensible = true ∧
        (∀ parameter ∈ before, parameter.isExtensible = false) ∧
        ∀ parameter ∈ after, parameter.isExtensible = false := by
  by_cases plain : ∀ parameter ∈ parameters, parameter.isExtensible = false
  · exact .inl plain
  · simp only [not_forall, Bool.not_eq_false] at plain
    obtain ⟨extensible, member, isExtensible⟩ := plain
    obtain ⟨before, after, rfl⟩ := List.append_of_mem member
    rw [List.filter_append, List.filter_cons_of_pos isExtensible, List.length_append,
      List.length_cons] at atMostOne
    have noneBefore : before.filter Parameter.isExtensible = [] :=
      List.length_eq_zero_iff.mp (by omega)
    have noneAfter : after.filter Parameter.isExtensible = [] :=
      List.length_eq_zero_iff.mp (by omega)
    rw [List.filter_eq_nil_iff] at noneBefore noneAfter
    exact .inr ⟨before, extensible, after, rfl, isExtensible,
      fun parameter member => by simpa using noneBefore parameter member,
      fun parameter member => by simpa using noneAfter parameter member⟩

/-- The arguments by position that nothing takes: there are some only without an extensible
parameter. -/
def surplus (parameters : List Parameter) (arguments : List Argument) : List (Nat × Expr) :=
  if parameters.any Parameter.isExtensible then []
  else (positionals arguments.zipIdx).drop
    (openSlots parameters arguments.zipIdx parameters.zipIdx).length

theorem single_of_mem_zipIdx {plain : List Parameter} {slot : Nat}
    (arePlain : ∀ parameter ∈ plain, parameter.isExtensible = false) :
    ∀ declared ∈ plain.zipIdx slot, declared.1.isExtensible = false := fun _ member =>
  arePlain _ (List.fst_mem_of_mem_zipIdx member)

theorem flatMap_single {plain : List (Parameter × Nat)} {slots : List Nat}
    {positional left : List (Nat × Expr)}
    (arePlain : ∀ declared ∈ plain, declared.1.isExtensible = false) :
    (plain.flatMap fun declared =>
      if declared.1.isExtensible then members parameters call left declared.1
      else [single parameters call slots positional declared]) =
      plain.map (single parameters call slots positional) := by
  induction plain with
  | nil => rfl
  | cons declared plain ih =>
      rw [List.flatMap_cons, if_neg (by simp [arePlain declared (List.mem_cons_self ..)]),
        ih fun other member => arePlain other (List.mem_cons_of_mem _ member)]
      rfl

theorem members_length (left : List (Nat × Expr)) (parameter : Parameter) :
    (members parameters call left parameter).length =
      highestNamed parameters call + left.length := by
  rw [members, List.length_map, List.length_range]

theorem distribution_of_plain (arguments : List Argument)
    (plain : ∀ parameter ∈ parameters, parameter.isExtensible = false) :
    distribution parameters arguments =
      { parameters := parameters.zipIdx.map (single parameters arguments.zipIdx
          (openSlots parameters arguments.zipIdx parameters.zipIdx) (positionals arguments.zipIdx))
        count := 0 } := by
  have noGroup : parameters.any Parameter.isExtensible = false := by simpa using plain
  rw [distribution, noGroup, flatMap_single (single_of_mem_zipIdx plain)]
  rfl

/-- The group of the extensible parameter stands where the parameter does, and nothing is left
by position for those behind it. -/
theorem distribution_of_split (arguments : List Argument) {before after : List Parameter}
    {extensible : Parameter} (split : parameters = before ++ extensible :: after)
    (isExtensible : extensible.isExtensible = true)
    (plainBefore : ∀ parameter ∈ before, parameter.isExtensible = false)
    (plainAfter : ∀ parameter ∈ after, parameter.isExtensible = false) :
    openSlots parameters arguments.zipIdx parameters.zipIdx =
      openSlots parameters arguments.zipIdx before.zipIdx ∧
    distribution parameters arguments =
      { parameters :=
          before.zipIdx.map (single parameters arguments.zipIdx
            (openSlots parameters arguments.zipIdx before.zipIdx) (positionals arguments.zipIdx)) ++
          (members parameters arguments.zipIdx ((positionals arguments.zipIdx).drop
            (openSlots parameters arguments.zipIdx before.zipIdx).length) extensible ++
          (after.zipIdx (before.length + 1)).map (single parameters arguments.zipIdx [] []))
        count := highestNamed parameters arguments.zipIdx + ((positionals arguments.zipIdx).drop
          (openSlots parameters arguments.zipIdx before.zipIdx).length).length } := by
  have hasGroup : parameters.any Parameter.isExtensible = true := by simp [split, isExtensible]
  have declared : parameters.zipIdx = before.zipIdx ++
      (extensible, before.length) :: after.zipIdx (before.length + 1) := by
    rw [split, List.zipIdx_append, List.zipIdx_cons, Nat.zero_add]
  have slots : openSlots parameters arguments.zipIdx parameters.zipIdx =
      openSlots parameters arguments.zipIdx before.zipIdx := by
    rw [declared, openSlots_append (single_of_mem_zipIdx plainBefore) isExtensible]
  refine ⟨slots, ?_⟩
  have behind : ∀ entry ∈ after.zipIdx (before.length + 1),
      single parameters arguments.zipIdx (openSlots parameters arguments.zipIdx before.zipIdx)
        (positionals arguments.zipIdx) entry = single parameters arguments.zipIdx [] [] entry := by
    intro entry member
    have later := List.le_snd_of_mem_zipIdx member
    have apart : entry.2 ∉ openSlots parameters arguments.zipIdx before.zipIdx := by
      intro inSlots
      obtain ⟨earlier, found, same, -⟩ := mem_of_mem_openSlots inSlots
      have := List.snd_lt_of_mem_zipIdx found
      omega
    rw [single, lookup_of_notMem apart]
    rfl
  simp only [distribution, slots, hasGroup, if_true]
  rw [declared, List.flatMap_append, List.flatMap_cons, if_pos isExtensible,
    flatMap_single (single_of_mem_zipIdx plainBefore),
    flatMap_single (single_of_mem_zipIdx plainAfter), List.map_congr_left behind]

theorem spread_eq {sorted : Sorted} (represents : sorted.Represents parameters arguments.zipIdx)
    (atMostOne : (parameters.filter Parameter.isExtensible).length ≤ 1) :
    spread sorted 0 sorted.positional 0 parameters =
      ((distribution parameters arguments).parameters,
        (distribution parameters arguments).count, surplus parameters arguments) := by
  rw [represents.positional]
  rcases split_of_single atMostOne with plain | ⟨before, extensible, after, split, isExtensible,
    plainBefore, plainAfter⟩
  · have noGroup : parameters.any Parameter.isExtensible = false := by simpa using plain
    have spreads := spread_single represents [] plain 0 (positionals arguments.zipIdx) 0
    rw [List.append_nil] at spreads
    rw [spreads, distribution_of_plain arguments plain, surplus, noGroup]
    simp [spread]
  · have hasGroup : parameters.any Parameter.isExtensible = true := by simp [split, isExtensible]
    have first := spread_single represents (extensible :: after) plainBefore 0
      (positionals arguments.zipIdx) 0
    have last := fun count => spread_single represents [] plainAfter (before.length + 1) [] count
    simp only [List.append_nil, spread, List.drop_nil, single_nil, Nat.zero_add, isExtensible,
      if_true] at first last
    rw [← split] at first
    rw [first, last, group_eq represents, members_length, surplus, hasGroup,
      (distribution_of_split arguments split isExtensible plainBefore plainAfter).2]
    rfl

/-- What binding the arguments comes to: an error for the first name that is unknown, else one
for the first argument that nothing takes, else the distribution. -/
theorem make_eq (arguments : List Argument)
    (atMostOne : (parameters.filter Parameter.isExtensible).length ≤ 1) :
    make parameters arguments =
      match arguments.findSome? (Argument.unknown? parameters), surplus parameters arguments with
      | some name, _ => .error (.unknownParameter name)
      | none, (_, leftover) :: _ => .error (.tooManyArguments (leftoverSpan leftover))
      | none, [] => .ok (distribution parameters arguments) := by
  have sorting := @Sorted.Represents.add parameters 0 {} arguments [] Sorted.represents_empty
  cases unknown : arguments.findSome? (Argument.unknown? parameters) with
  | some name =>
      rw [unknown] at sorting
      rw [make, sorting]
      rfl
  | none =>
      rw [unknown] at sorting
      obtain ⟨sorted, run, represents⟩ := sorting
      rw [List.nil_append] at represents
      rw [make, run, ok_bind, spread_eq represents atMostOne]
      cases surplus parameters arguments <;> rfl

/-! ## What is bound by position -/

/-- The argument by position that a parameter is bound to. -/
def positional? (arguments : List Argument) (bound : BoundParameter) : Option (Nat × Expr) :=
  match bound.actual with
  | some (.input index value) =>
      match arguments[index]? with
      | some (.positional _) => some (index, value)
      | _ => none
  | _ => none

theorem argument_of_mem_positionals {entry : Nat × Expr}
    (member : entry ∈ positionals arguments.zipIdx) :
    arguments[entry.1]? = some (.positional entry.2) := by
  obtain ⟨⟨argument, index⟩, found, isEntry⟩ := List.mem_filterMap.mp member
  have given := List.mem_zipIdx_iff_getElem?.mp found
  cases argument with
  | positional value =>
      cases isEntry
      exact given
  | named name value => cases isEntry
  | output isNegated source target => cases isEntry

theorem positional?_of_given (parameters : List Parameter) (seat : Seat)
    {bound : BoundParameter} (given : bound.actual = given? parameters arguments.zipIdx seat) :
    positional? arguments bound = none := by
  cases found : given? parameters arguments.zipIdx seat with
  | none =>
      rw [positional?, given, found]
  | some actual =>
      obtain ⟨⟨argument, index⟩, isLast, rfl⟩ := Option.map_eq_some_iff.mp found
      have inCall := List.mem_reverse.mp (List.mem_of_find?_eq_some isLast)
      have stands := List.mem_zipIdx_iff_getElem?.mp inCall
      have names := List.find?_some isLast
      rw [positional?, given, found]
      cases argument with
      | positional value => simp [Argument.seat?] at names
      | named name value =>
          simp only [Argument.actual]
          rw [stands]
      | output isNegated source target => rfl

theorem positional?_byPosition {entry : Nat × Expr} {bound : BoundParameter}
    (stands : arguments[entry.1]? = some (.positional entry.2))
    (isActual : bound.actual = some (byPosition entry)) :
    positional? arguments bound = some entry := by
  rw [positional?, isActual, byPosition]
  simp only [stands]

theorem positional?_single {slots : List Nat} {slot : Nat} (apart : slot ∉ slots)
    (parameter : Parameter) (positional : List (Nat × Expr)) :
    positional? arguments (single parameters arguments.zipIdx slots positional
      (parameter, slot)) = none := by
  apply positional?_of_given parameters (.single slot)
  rw [single, lookup_of_notMem apart]
  simp

/-- The parameters before the group take the arguments by position in order, each once. -/
theorem filterMap_single {before : List Parameter}
    (plain : ∀ parameter ∈ before, parameter.isExtensible = false) :
    ∀ (slot : Nat) (positional : List (Nat × Expr)),
      (∀ entry ∈ positional, arguments[entry.1]? = some (.positional entry.2)) →
      ((before.zipIdx slot).map (single parameters arguments.zipIdx
          (openSlots parameters arguments.zipIdx (before.zipIdx slot)) positional)).filterMap
        (positional? arguments) =
      positional.take (openSlots parameters arguments.zipIdx (before.zipIdx slot)).length := by
  induction before with
  | nil =>
      intro slot positional _
      rfl
  | cons parameter before ih =>
      intro slot positional stand
      have isSingle : parameter.isExtensible = false := plain parameter (List.mem_cons_self ..)
      have further := ih fun other member => plain other (List.mem_cons_of_mem _ member)
      rw [List.zipIdx_cons, openSlots_cons isSingle, List.map_cons]
      cases takes : isOpen parameters arguments.zipIdx (parameter, slot) with
      | false =>
          rw [if_neg (by simp),
            List.filterMap_cons_none (positional?_single notMem_openSlots_of_later ..)]
          exact further (slot + 1) positional stand
      | true =>
          have notGiven : given? parameters arguments.zipIdx (.single slot) = none := by
            rw [isOpen, Bool.and_eq_true] at takes
            simpa using takes.2
          rw [if_pos rfl]
          cases positional with
          | nil =>
              have rest := further (slot + 1) [] (by simp)
              rw [single_nil, List.take_nil] at rest ⊢
              rw [List.filterMap_cons_none (positional?_single List.not_mem_nil ..), rest]
          | cons value positional =>
              have first : positional? arguments (single parameters arguments.zipIdx
                  (slot :: openSlots parameters arguments.zipIdx (before.zipIdx (slot + 1)))
                  (value :: positional) (parameter, slot)) = some value := by
                apply positional?_byPosition (stand value (List.mem_cons_self ..))
                simp [single, notGiven]
              rw [List.filterMap_cons_some first, single_of_later,
                further (slot + 1) positional fun entry member =>
                  stand entry (List.mem_cons_of_mem _ member)]
              rfl

theorem filterMap_getElem?_range {α : Type} (items : List α) :
    ((List.range items.length).filterMap fun index => items[index]?) = items := by
  induction items with
  | nil => rfl
  | cons item items ih =>
      rw [List.length_cons, List.range_succ_eq_map, List.filterMap_cons, List.filterMap_map]
      exact congrArg (item :: ·) ih

/-- The group takes the arguments by position that are left in order, each once. -/
theorem filterMap_members {left : List (Nat × Expr)} (parameter : Parameter)
    (stand : ∀ entry ∈ left, arguments[entry.1]? = some (.positional entry.2)) :
    (members parameters arguments.zipIdx left parameter).filterMap (positional? arguments) =
      left := by
  rw [members, List.range_add, List.map_append, List.filterMap_append]
  have byName : ∀ entry ∈ (List.range (highestNamed parameters arguments.zipIdx)).map
      (member parameters arguments.zipIdx left parameter), positional? arguments entry = none := by
    intro entry inGroup
    obtain ⟨offset, inside, rfl⟩ := List.mem_map.mp inGroup
    exact positional?_of_given parameters (.member (offset + 1)) (if_pos (List.mem_range.mp inside))
  rw [List.filterMap_eq_nil_iff.mpr byName, List.nil_append, List.filterMap_map,
    List.filterMap_map]
  calc (List.range left.length).filterMap _
      = (List.range left.length).filterMap fun index => left[index]? := by
        apply List.filterMap_congr
        intro offset inside
        rw [List.mem_range] at inside
        rw [List.getElem?_eq_getElem inside]
        have behind : ¬ highestNamed parameters arguments.zipIdx + offset <
            highestNamed parameters arguments.zipIdx := by omega
        apply positional?_byPosition (stand _ (List.getElem_mem inside))
        simp [member, inside, behind]
    _ = left := filterMap_getElem?_range left

/-- Every argument by position is bound once, in the order of the call, if all are bound. -/
theorem filterMap_distribution
    (atMostOne : (parameters.filter Parameter.isExtensible).length ≤ 1)
    (noSurplus : surplus parameters arguments = []) :
    (distribution parameters arguments).parameters.filterMap (positional? arguments) =
      positionals arguments.zipIdx := by
  have stand : ∀ entry ∈ positionals arguments.zipIdx,
      arguments[entry.1]? = some (.positional entry.2) := fun _ => argument_of_mem_positionals
  rcases split_of_single atMostOne with plain | ⟨before, extensible, after, split, isExtensible,
    plainBefore, plainAfter⟩
  · have noGroup : parameters.any Parameter.isExtensible = false := by simpa using plain
    rw [surplus, noGroup, if_neg (by simp), List.drop_eq_nil_iff] at noSurplus
    rw [distribution_of_plain arguments plain, filterMap_single plain 0 _ stand,
      List.take_of_length_le noSurplus]
  · have nothing : ((after.zipIdx (before.length + 1)).map
        (single parameters arguments.zipIdx [] [])).filterMap (positional? arguments) = [] := by
      rw [List.filterMap_eq_nil_iff]
      intro bound member
      obtain ⟨declared, -, rfl⟩ := List.mem_map.mp member
      exact positional?_single List.not_mem_nil ..
    rw [(distribution_of_split arguments split isExtensible plainBefore plainAfter).2,
      List.filterMap_append, List.filterMap_append, filterMap_single plainBefore 0 _ stand,
      filterMap_members extensible fun entry member => stand entry (List.mem_of_mem_drop member),
      nothing, List.append_nil, List.take_append_drop]

/-- What is bound by position is a parameter that is open for it, or an entry of the group behind
those given by name. -/
theorem takes_of_positional? {bound : BoundParameter} {entry : Nat × Expr}
    (inside : bound ∈ (distribution parameters arguments).parameters)
    (byPosition : positional? arguments bound = some entry) :
    (∃ slot, parameters[slot]? = some bound.parameter ∧ bound.position = none ∧
      bound.parameter.isExtensible = false ∧
      isOpen parameters arguments.zipIdx (bound.parameter, slot) = true) ∨
    (bound.parameter.isExtensible = true ∧ ∃ position, bound.position = some position ∧
      highestNamed parameters arguments.zipIdx < position) := by
  obtain ⟨declared, isDeclared, inside⟩ := List.mem_flatMap.mp inside
  split at inside
  · next isExtensible =>
      obtain ⟨offset, -, rfl⟩ := List.mem_map.mp inside
      refine .inr ⟨isExtensible, offset + 1, rfl, Nat.lt_succ_of_le (Nat.le_of_not_lt ?_)⟩
      intro byName
      rw [positional?_of_given parameters (.member (offset + 1)) (if_pos byName)] at byPosition
      cases byPosition
  · next isSingle =>
      cases List.mem_singleton.mp inside
      refine .inl ⟨declared.2, List.mem_zipIdx_iff_getElem?.mp isDeclared, rfl,
        Bool.eq_false_iff.mpr isSingle, ?_⟩
      by_cases taken : declared.2 ∈ openSlots parameters arguments.zipIdx parameters.zipIdx
      · obtain ⟨other, isOther, sameSlot, isOpen⟩ := mem_of_mem_openSlots taken
        have same : other = declared := by
          have here := List.mem_zipIdx_iff_getElem?.mp isDeclared
          have there := List.mem_zipIdx_iff_getElem?.mp isOther
          rw [sameSlot, here, Option.some.injEq] at there
          exact Prod.ext there.symm sameSlot
        rw [same] at isOpen
        exact isOpen
      · rw [positional?_single taken] at byPosition
        cases byPosition

/-- The entries of a parameter where the group has a number of positions. -/
def listing (count : Nat) (parameter : Parameter) : List (Parameter × Option Nat) :=
  if parameter.isExtensible then
    (List.range count).map fun offset => (parameter, some (offset + 1))
  else [(parameter, none)]

/-- Every parameter is listed once, in the order of declaration, and the extensible one as the
positions of its group. -/
theorem listing_of_distribution (parameters : List Parameter) (arguments : List Argument) :
    (distribution parameters arguments).parameters.map
        (fun bound => (bound.parameter, bound.position)) =
      parameters.flatMap (listing (distribution parameters arguments).count) := by
  have entries : ∀ declared ∈ parameters.zipIdx,
      (if declared.1.isExtensible = true then
        members parameters arguments.zipIdx ((positionals arguments.zipIdx).drop
          (openSlots parameters arguments.zipIdx parameters.zipIdx).length) declared.1
      else [single parameters arguments.zipIdx
        (openSlots parameters arguments.zipIdx parameters.zipIdx)
        (positionals arguments.zipIdx) declared]).map
          (fun bound => (bound.parameter, bound.position)) =
      listing (distribution parameters arguments).count declared.1 := by
    intro declared isDeclared
    by_cases isExtensible : declared.1.isExtensible = true
    · have hasGroup : parameters.any Parameter.isExtensible = true :=
        List.any_eq_true.mpr ⟨_, List.fst_mem_of_mem_zipIdx isDeclared, isExtensible⟩
      rw [if_pos isExtensible, listing, if_pos isExtensible, distribution, hasGroup, members,
        List.map_map]
      rfl
    · rw [if_neg isExtensible, listing, if_neg isExtensible]
      rfl
  calc (distribution parameters arguments).parameters.map _
      = parameters.zipIdx.flatMap fun declared =>
          listing (distribution parameters arguments).count declared.1 := by
        rw [distribution, List.map_flatMap]
        exact List.flatMap_congr entries
    _ = (parameters.zipIdx.map Prod.fst).flatMap
          (listing (distribution parameters arguments).count) := by rw [List.flatMap_map]
    _ = parameters.flatMap (listing (distribution parameters arguments).count) := by
        rw [List.zipIdx_map_fst]

theorem surplus_ne_nil_iff :
    surplus parameters arguments ≠ [] ↔
      (∀ parameter ∈ parameters, parameter.isExtensible = false) ∧
      (parameters.zipIdx.filter (isOpen parameters arguments.zipIdx)).length <
        (positionals arguments.zipIdx).length := by
  rw [surplus]
  cases hasGroup : parameters.any Parameter.isExtensible with
  | true =>
      obtain ⟨parameter, member, isExtensible⟩ := List.any_eq_true.mp hasGroup
      simp only [if_true, ne_eq, not_true_eq_false, false_iff, not_and]
      intro plain
      rw [plain parameter member] at isExtensible
      cases isExtensible
  | false =>
      have plain : ∀ parameter ∈ parameters, parameter.isExtensible = false := by
        simpa using hasGroup
      rw [if_neg (by simp), ne_eq, List.drop_eq_nil_iff,
        openSlots_of_plain (single_of_mem_zipIdx plain), List.length_map, Nat.not_le]
      exact ⟨fun tooMany => ⟨plain, tooMany⟩, fun both => both.2⟩

/-- Binding the arguments of a call fails for a name that stands for nothing, and else for
arguments by position that are too many.  A binding lists the parameters in order, the extensible
one as its group.  By position each argument is bound once, in the order of the call, to the
parameters that are open and stand before the group, and then to the group behind what is given
by name. -/
theorem make_distributes (arguments : List Argument)
    (atMostOne : (parameters.filter Parameter.isExtensible).length ≤ 1) :
    ((∃ name, make parameters arguments = .error (.unknownParameter name)) ↔
      ∃ argument ∈ arguments, argument.IsUnknown parameters) ∧
    ((∃ span, make parameters arguments = .error (.tooManyArguments span)) ↔
      (∀ argument ∈ arguments, ¬ argument.IsUnknown parameters) ∧
      (∀ parameter ∈ parameters, parameter.isExtensible = false) ∧
      (parameters.zipIdx.filter (isOpen parameters arguments.zipIdx)).length <
        (positionals arguments.zipIdx).length) ∧
    (∀ fault, make parameters arguments = .error fault →
      (∃ name, fault = .unknownParameter name) ∨ ∃ span, fault = .tooManyArguments span) ∧
    ∀ binding, make parameters arguments = .ok binding →
      binding = distribution parameters arguments ∧
      binding.parameters.map (fun bound => (bound.parameter, bound.position)) =
        parameters.flatMap (listing binding.count) ∧
      binding.parameters.filterMap (positional? arguments) = positionals arguments.zipIdx ∧
      ∀ bound ∈ binding.parameters, ∀ entry, positional? arguments bound = some entry →
        (∃ slot, parameters[slot]? = some bound.parameter ∧ bound.position = none ∧
          bound.parameter.isExtensible = false ∧
          isOpen parameters arguments.zipIdx (bound.parameter, slot) = true) ∨
        (bound.parameter.isExtensible = true ∧ ∃ position, bound.position = some position ∧
          highestNamed parameters arguments.zipIdx < position) := by
  have result := make_eq arguments atMostOne
  have unknown_iff : (∃ argument ∈ arguments, argument.IsUnknown parameters) ↔
      ∃ name, arguments.findSome? (Argument.unknown? parameters) = some name := by
    rw [← Option.isSome_iff_exists, List.findSome?_isSome_iff]
    simp only [Argument.isUnknown_iff, Option.isSome_iff_exists]
  cases unknown : arguments.findSome? (Argument.unknown? parameters) with
  | some name =>
      rw [unknown] at result
      have isUnknown := unknown_iff.mpr ⟨name, unknown⟩
      rw [result]
      refine ⟨⟨fun _ => isUnknown, fun _ => ⟨name, rfl⟩⟩, ⟨?_, ?_⟩, ?_, ?_⟩
      · rintro ⟨span, failed⟩
        cases failed
      · rintro ⟨known, -⟩
        obtain ⟨argument, member, named⟩ := isUnknown
        exact absurd named (known argument member)
      · intro fault failed
        cases failed
        exact .inl ⟨name, rfl⟩
      · intro binding made
        cases made
  | none =>
      rw [unknown] at result unknown_iff
      have known : ∀ argument ∈ arguments, ¬ argument.IsUnknown parameters := by
        simpa using unknown_iff
      rw [← surplus_ne_nil_iff, result]
      cases left : surplus parameters arguments with
      | cons first rest =>
          refine ⟨⟨?_, fun ⟨argument, member, named⟩ => absurd named (known argument member)⟩,
            ⟨fun _ => ⟨known, by simp⟩, fun _ => ⟨leftoverSpan first.2, rfl⟩⟩, ?_, ?_⟩
          · rintro ⟨name, failed⟩
            cases failed
          · intro fault failed
            cases failed
            exact .inr ⟨_, rfl⟩
          · intro binding made
            cases made
      | nil =>
          refine ⟨⟨?_, fun ⟨argument, member, named⟩ => absurd named (known argument member)⟩,
            ⟨?_, fun ⟨_, notNil⟩ => absurd rfl notNil⟩, ?_, ?_⟩
          · rintro ⟨name, failed⟩
            cases failed
          · rintro ⟨span, failed⟩
            cases failed
          · intro fault failed
            cases failed
          · intro binding made
            cases made
            exact ⟨rfl, listing_of_distribution parameters arguments,
              filterMap_distribution atMostOne left,
              fun bound inside entry byPosition => takes_of_positional? inside byPosition⟩

/-- A call that picks one of several values, with the second of them given by name. -/
def picking : List Argument :=
  [.named { name := "IN2" } (.const (.boolean true)), .positional (.const (.boolean false)),
    .positional (.enumerated { value := { name := "RED" } })]

def pickingParameters : List Parameter :=
  Parameter.implicit ++ [.input "K" .int, .extensible "IN" .int]

theorem make_distributes_picking :
    (pickingParameters.filter Parameter.isExtensible).length ≤ 1 ∧
    ∃ binding, make pickingParameters picking = .ok binding ∧ binding.count = 3 ∧
      binding = distribution pickingParameters picking ∧
      binding.parameters.filterMap (positional? picking) = positionals picking.zipIdx := by
  have atMostOne : (pickingParameters.filter Parameter.isExtensible).length ≤ 1 := by decide
  have runs : (make pickingParameters picking).toOption.isSome = true := by decide +kernel
  obtain ⟨binding, made⟩ := Option.isSome_iff_exists.mp runs
  have made := eq_ok_of_toOption made
  obtain ⟨isDistribution, -, inOrder, -⟩ :=
    (make_distributes picking atMostOne).2.2.2 binding made
  refine ⟨atMostOne, binding, made, ?_, isDistribution, inOrder⟩
  rw [isDistribution]
  decide +kernel

/-- An extensible parameter takes arguments by position also where it only gives a value out. -/
theorem output_takes_positional :
    ∃ parameters arguments binding, (parameters.filter Parameter.isExtensible).length ≤ 1 ∧
      make parameters arguments = .ok binding ∧
      ∃ bound ∈ binding.parameters, bound.parameter.direction = .output ∧
        positional? arguments bound = some (0, .const (.boolean true)) :=
  ⟨[{ Parameter.extensible "OUT" .bool with direction := .output }],
    [.positional (.const (.boolean true))], _, by decide, rfl, _, List.mem_singleton_self _, rfl,
    rfl⟩

end Binding

end StructuredText
