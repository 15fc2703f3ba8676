import StructuredText.Proofs.Code.Leaf

/-!
# The functions that generated code defines

Generated code defines functions one after the other: a check for each subrange, then the
functions of the program and, unit by unit, what initializes the unit, its helpers and its
body.  A helper can be called where it has been defined, and its definition has to be the
only one of its name.  The name puts a unit, a function and a number side by side, with
nothing to tell where one of them ends.
-/

set_option autoImplicit false

namespace StructuredText.Code

/-- A function that generated code defines: its name, and the helpers that it calls. -/
structure Routine where
  name : String
  helpers : List String

def Leaf.helpers (leaves : List Leaf) : List String :=
  leaves.filterMap fun
    | .helper name => some name
    | .atom _ => none

theorem Leaf.mem_helpers {leaves : List Leaf} {name : String} :
    name ∈ Leaf.helpers leaves ↔ .helper name ∈ leaves := by
  simp only [Leaf.helpers, List.mem_filterMap]
  constructor
  · rintro ⟨leaf, member, same⟩
    cases leaf with
    | atom text => cases same
    | helper other =>
        cases same
        exact member
  · exact fun member => ⟨_, member, rfl⟩

def TypeDecl.routines : TypeDecl → List Routine
  | .subrange name _ _ _ => [{ name := "__CHECK_" ++ name, helpers := [] }]
  | .string .. | .derived .. | .enumeration .. | .array .. | .record .. => []

def FunctionDef.routine (definition : FunctionDef) : Routine where
  name := definition.name
  helpers := Leaf.helpers (Stmt.leavesList definition.body)

def Helper.routine (helper : Helper) : Routine where
  name := helper.name
  helpers := Leaf.helpers helper.leaves

def UnitDef.routines (definition : UnitDef) : List Routine :=
  { name := definition.name ++ "_init__", helpers := [] } ::
    (definition.helpers.map Helper.routine ++
      [{ name := definition.name ++ "_body__"
         helpers := Leaf.helpers (Stmt.leavesList definition.body) }])

def Element.routines : Element → List Routine
  | .function definition => [definition.routine]
  | .unit definition => definition.routines
  | .code _ | .switch _ => []

/-- The functions of a file, in the order in which they come out. -/
def File.routines (file : File) : List Routine :=
  file.types.flatMap TypeDecl.routines ++ file.elements.flatMap Element.routines

def Element.helpers : Element → List Helper
  | .unit definition => definition.helpers
  | .function _ | .code _ | .switch _ => []

def File.helpers (file : File) : List Helper := file.elements.flatMap Element.helpers

/-- The name of the unit that an element is, if it is one that keeps its variables. -/
def Element.unitName? : Element → Option String
  | .unit definition => some definition.name
  | .function _ | .code _ | .switch _ => none

/-- The name of the function of the program that an element is, if it is one. -/
def Element.functionName? : Element → Option String
  | .function definition => some definition.name
  | .unit _ | .code _ | .switch _ => none

/-! ## Calls after definitions -/

namespace Routine

def InOrder (earlier : List Routine) : List Routine → Prop
  | [] => True
  | routine :: later =>
      (∀ name ∈ routine.helpers, ∃ other ∈ earlier, other.name = name) ∧
        InOrder (earlier ++ [routine]) later

theorem inOrder_append {first second : List Routine} :
    ∀ {earlier : List Routine}, InOrder earlier (first ++ second) ↔
      InOrder earlier first ∧ InOrder (earlier ++ first) second := by
  induction first with
  | nil => simp [InOrder]
  | cons routine first ih =>
      intro earlier
      rw [List.cons_append, InOrder, InOrder, ih, and_assoc, List.append_assoc,
        List.singleton_append]

theorem InOrder.mono {routines : List Routine} :
    ∀ {earlier more : List Routine}, earlier ⊆ more → InOrder earlier routines →
      InOrder more routines := by
  induction routines with
  | nil => exact fun _ _ => trivial
  | cons routine later ih =>
      intro earlier more inside inOrder
      refine ⟨fun name isCalled => ?_, ih (List.append_subset.mpr ⟨?_, ?_⟩) inOrder.2⟩
      · obtain ⟨other, isEarlier, named⟩ := inOrder.1 name isCalled
        exact ⟨other, inside isEarlier, named⟩
      · exact fun _ member => List.mem_append_left _ (inside member)
      · exact List.subset_append_right ..

/-- Functions that call nothing, or only what their own part defines, may stand anywhere. -/
theorem inOrder_flatMap {α : Type} {parts : List α} {routines : α → List Routine}
    (all : ∀ part ∈ parts, InOrder [] (routines part)) :
    ∀ earlier : List Routine, InOrder earlier (parts.flatMap routines) := by
  induction parts with
  | nil => exact fun _ => trivial
  | cons part parts ih =>
      intro earlier
      rw [List.flatMap_cons, inOrder_append]
      rw [List.forall_mem_cons] at all
      exact ⟨all.1.mono (List.nil_subset _), ih all.2 _⟩

end Routine

/-! ## Units in order -/

/-- The helpers of a unit have numbers of their own, each calls those before it alone, and the
body calls no others. -/
structure UnitDef.InOrder (definition : UnitDef) : Prop where
  apart : definition.helpers.Pairwise Helper.Apart
  numbered : ∀ helper ∈ definition.helpers,
    helper.unit = definition.name ∧ ∃ number, helper.HasNumber number
  sound : Helper.AreSound (fun _ => True) True [] definition.helpers
  body : ∀ leaf ∈ Stmt.leavesList definition.body,
    leaf.IsKnown (fun _ => True) True definition.helpers

def Element.InOrder : Element → Prop
  | .unit definition => definition.InOrder
  | .function definition =>
      ∀ leaf ∈ Stmt.leavesList definition.body, leaf.IsKnown (fun _ => True) True []
  | .code _ | .switch _ => True

theorem Leaf.helpers_of_known {allowed : String → Prop} {helpers : List Helper}
    {leaves : List Leaf} (known : ∀ leaf ∈ leaves, leaf.IsKnown allowed True helpers) :
    ∀ name ∈ Leaf.helpers leaves, name ∈ helpers.map Helper.name :=
  fun _ isCalled => known _ (Leaf.mem_helpers.mp isCalled) trivial

theorem Helper.IsSound.called {allowed : String → Prop} {earlier : List Helper}
    {helper : Helper} (sound : helper.IsSound allowed True earlier) :
    ∀ name ∈ helper.routine.helpers, name ∈ earlier.map Helper.name := by
  intro name isCalled
  rcases sound _ (Leaf.mem_helpers.mp isCalled) with isKnown | ⟨own, -, same⟩
  · exact isKnown trivial
  · cases same

theorem Helper.AreSound.routines {allowed : String → Prop} {helpers : List Helper} :
    ∀ {earlier : List Helper} {before : List Routine},
      earlier.map Helper.routine ⊆ before → Helper.AreSound allowed True earlier helpers →
      Routine.InOrder before (helpers.map Helper.routine) := by
  induction helpers with
  | nil => exact fun _ _ => trivial
  | cons helper later ih =>
      intro earlier before inside sound
      refine ⟨fun name isCalled => ?_, ih ?_ sound.2⟩
      · obtain ⟨other, isEarlier, named⟩ := List.mem_map.mp (sound.1.called name isCalled)
        exact ⟨other.routine, inside (List.mem_map_of_mem isEarlier), named⟩
      · rw [List.map_append, List.append_subset]
        exact ⟨fun _ member => List.mem_append_left _ (inside member),
          List.subset_append_right ..⟩

theorem Element.InOrder.routines {element : Element} (inOrder : element.InOrder) :
    Routine.InOrder [] element.routines := by
  cases element with
  | code text | switch on => trivial
  | function definition =>
      refine ⟨fun name isCalled => ?_, trivial⟩
      exact absurd (Leaf.helpers_of_known inOrder name isCalled) List.not_mem_nil
  | unit definition =>
      have ofUnit : definition.InOrder := inOrder
      refine ⟨List.forall_mem_nil _, ?_⟩
      rw [Routine.inOrder_append]
      refine ⟨ofUnit.sound.routines (List.nil_subset _), fun name isCalled => ?_, trivial⟩
      obtain ⟨helper, member, named⟩ :=
        List.mem_map.mp (Leaf.helpers_of_known ofUnit.body name isCalled)
      exact ⟨helper.routine, List.mem_append_right _ (List.mem_map_of_mem member), named⟩

theorem TypeDecl.routines_inOrder (decl : TypeDecl) : Routine.InOrder [] decl.routines := by
  cases decl with
  | subrange name base lower upper => exact ⟨List.forall_mem_nil _, trivial⟩
  | _ => trivial

/-- In a file whose units are in order, every helper is defined before the functions that call
it. -/
theorem File.routines_inOrder {file : File}
    (inOrder : ∀ element ∈ file.elements, element.InOrder) :
    Routine.InOrder [] file.routines := by
  rw [File.routines, Routine.inOrder_append]
  exact ⟨Routine.inOrder_flatMap (fun decl _ => decl.routines_inOrder) [],
    Routine.inOrder_flatMap (fun element member => (inOrder element member).routines) _⟩

theorem Element.InOrder.called {element : Element} (inOrder : element.InOrder) :
    ∀ routine ∈ element.routines, ∀ name ∈ routine.helpers,
      name ∈ element.helpers.map Helper.name := by
  intro routine member name isCalled
  cases element with
  | code text | switch on => cases member
  | function definition =>
      rw [List.mem_singleton.mp member] at isCalled
      exact Leaf.helpers_of_known inOrder name isCalled
  | unit definition =>
      have ofUnit : definition.InOrder := inOrder
      simp only [Element.routines, UnitDef.routines, List.mem_cons, List.mem_append,
        List.mem_map, List.not_mem_nil, or_false] at member
      rcases member with rfl | ⟨helper, isHelper, rfl⟩ | rfl
      · cases isCalled
      · obtain ⟨earlier, later, split⟩ := List.append_of_mem isHelper
        have sound := ofUnit.sound
        rw [split, Helper.areSound_append] at sound
        have isEarlier := Helper.IsSound.called sound.2.1 name isCalled
        rw [Element.helpers, split, List.map_append]
        exact List.mem_append_left _ isEarlier
      · exact Leaf.helpers_of_known ofUnit.body name isCalled

/-- What a function of the file calls is a helper of the file. -/
theorem File.called_mem_helpers {file : File}
    (inOrder : ∀ element ∈ file.elements, element.InOrder) :
    ∀ routine ∈ file.routines, ∀ name ∈ routine.helpers,
      name ∈ file.helpers.map Helper.name := by
  intro routine member name isCalled
  rcases List.mem_append.mp member with isCheck | isRoutine
  · obtain ⟨decl, -, ofDecl⟩ := List.mem_flatMap.mp isCheck
    cases decl with
    | subrange =>
        rw [List.mem_singleton.mp ofDecl] at isCalled
        cases isCalled
    | _ => cases ofDecl
  · obtain ⟨element, isElement, ofElement⟩ := List.mem_flatMap.mp isRoutine
    obtain ⟨helper, isHelper, named⟩ :=
      List.mem_map.mp ((inOrder element isElement).called routine ofElement name isCalled)
    exact List.mem_map.mpr ⟨helper, List.mem_flatMap.mpr ⟨element, isElement, isHelper⟩, named⟩

/-! ## One definition of each name -/

theorem Helper.HasNumber.getLast?_name {helper : Helper} {number : Nat}
    (hasNumber : helper.HasNumber number) : helper.name.toList.getLast? ≠ some '_' := by
  have digits : (toString number).toList = Nat.toDigits 10 number := String.toList_ofList
  rw [hasNumber, String.toList_append, digits, List.getLast?_append]
  cases last : (Nat.toDigits 10 number).getLast? with
  | none => exact absurd (List.getLast?_eq_none_iff.mp last) Nat.toDigits_ne_nil
  | some digit =>
      have isDigit :=
        Nat.isDigit_of_mem_toDigits (by decide) (by decide) (List.mem_of_getLast? last)
      rintro same
      cases same
      cases isDigit

/-- The names of helpers can be read in one way: those of one unit belong to one definition,
the text of a name tells the unit and the function, and no other function has such a name. -/
structure File.NamesApart (file : File) : Prop where
  units : (file.elements.filterMap Element.unitName?).Nodup
  helpers : ∀ first ∈ file.helpers, ∀ second ∈ file.helpers, ∀ number other : Nat,
    first.stem ++ toString number = second.stem ++ toString other →
    first.unit = second.unit ∧ first.callee = second.callee
  checks : ∀ decl ∈ file.types, ∀ routine ∈ decl.routines, ∀ helper ∈ file.helpers,
    ∀ number : Nat, routine.name ≠ helper.stem ++ toString number
  functions : ∀ name ∈ file.elements.filterMap Element.functionName?, ∀ helper ∈ file.helpers,
    ∀ number : Nat, name ≠ helper.stem ++ toString number

/-- A helper has as many definitions in an element as there are helpers of its name. -/
theorem Element.count_routines {element : Element} {name : String}
    (ending : name.toList.getLast? ≠ some '_') (noFunction : element.functionName? ≠ some name) :
    (element.routines.map Routine.name).count name =
      (element.helpers.map Helper.name).count name := by
  cases element with
  | code text | switch on => rfl
  | function definition =>
      have differs : definition.name ≠ name := fun same => noFunction (congrArg some same)
      exact List.count_cons_of_ne differs
  | unit definition =>
      have initDiffers : definition.name ++ "_init__" ≠ name := by
        rintro rfl
        exact ending (by simp [String.toList_append])
      have bodyDiffers : definition.name ++ "_body__" ≠ name := by
        rintro rfl
        exact ending (by simp [String.toList_append])
      simp only [Element.routines, UnitDef.routines, Element.helpers, List.map_cons,
        List.map_append, List.map_nil, List.map_map, List.count_cons_of_ne initDiffers,
        List.count_append, List.count_cons_of_ne bodyDiffers, List.count_nil, Nat.add_zero]
      rfl

section NamesApart

variable {file : File} (inOrder : ∀ element ∈ file.elements, element.InOrder)
  (apart : file.NamesApart)

theorem Element.InOrder.numbered {element : Element} (inOrder : element.InOrder)
    {helper : Helper} (member : helper ∈ element.helpers) :
    element.unitName? = some helper.unit ∧ ∃ number, helper.HasNumber number := by
  cases element with
  | function definition | code text | switch on => cases member
  | unit definition =>
      have ofUnit : definition.InOrder := inOrder
      obtain ⟨sameUnit, hasNumber⟩ := ofUnit.numbered helper member
      rw [sameUnit]
      exact ⟨rfl, hasNumber⟩

theorem File.mem_helpers {element : Element} {helper : Helper} (isElement : element ∈ file.elements)
    (member : helper ∈ element.helpers) : helper ∈ file.helpers :=
  List.mem_flatMap.mpr ⟨element, isElement, member⟩

include apart in
/-- Helpers of one name are of one unit and have one number. -/
theorem File.NamesApart.eq_of_name {first second : Helper} {number other : Nat}
    (isFirst : first ∈ file.helpers) (isSecond : second ∈ file.helpers)
    (hasNumber : first.HasNumber number) (hasOther : second.HasNumber other)
    (same : first.name = second.name) : first.unit = second.unit ∧ number = other := by
  rw [hasNumber, hasOther] at same
  obtain ⟨unit, callee⟩ := apart.helpers first isFirst second isSecond number other same
  have stems : first.stem = second.stem := by rw [Helper.stem, Helper.stem, unit, callee]
  rw [stems, String.append_right_inj] at same
  exact ⟨unit, toString_injective same⟩

include inOrder apart

theorem File.nodup_helpers : (file.helpers.map Helper.name).Nodup := by
  rw [List.Nodup, List.pairwise_map, File.helpers, List.pairwise_flatMap]
  constructor
  · intro element isElement
    cases element with
    | function definition | code text | switch on => exact .nil
    | unit definition =>
        have ofUnit : definition.InOrder := inOrder _ isElement
        refine ofUnit.apart.imp_of_mem fun {first second} isFirst isSecond differ same => ?_
        obtain ⟨number, hasNumber⟩ := (ofUnit.numbered first isFirst).2
        obtain ⟨other, hasOther⟩ := (ofUnit.numbered second isSecond).2
        exact differ number other hasNumber hasOther
          (apart.eq_of_name (mem_helpers isElement isFirst) (mem_helpers isElement isSecond)
            hasNumber hasOther same).2
  · have units := apart.units
    rw [List.Nodup, List.pairwise_filterMap] at units
    refine units.imp_of_mem fun {one another} isOne isAnother differ => ?_
    intro first isFirst second isSecond same
    obtain ⟨firstUnit, number, hasNumber⟩ := (inOrder one isOne).numbered isFirst
    obtain ⟨secondUnit, other, hasOther⟩ := (inOrder another isAnother).numbered isSecond
    exact differ _ firstUnit _ secondUnit
      (apart.eq_of_name (mem_helpers isOne isFirst) (mem_helpers isAnother isSecond)
        hasNumber hasOther same).1

theorem File.count_helper {helper : Helper} (member : helper ∈ file.helpers) :
    (file.routines.map Routine.name).count helper.name = 1 := by
  obtain ⟨element, isElement, isHelper⟩ := List.mem_flatMap.mp member
  obtain ⟨-, number, hasNumber⟩ := (inOrder element isElement).numbered isHelper
  have noCheck : helper.name ∉ (file.types.flatMap TypeDecl.routines).map Routine.name := by
    intro isCheck
    obtain ⟨routine, isRoutine, named⟩ := List.mem_map.mp isCheck
    obtain ⟨decl, isDecl, ofDecl⟩ := List.mem_flatMap.mp isRoutine
    exact apart.checks decl isDecl routine ofDecl helper member number (named.trans hasNumber)
  have sameCounts : ∀ other ∈ file.elements,
      (other.routines.map Routine.name).count helper.name =
        (other.helpers.map Helper.name).count helper.name := by
    intro other isOther
    refine Element.count_routines hasNumber.getLast?_name fun isFunction => ?_
    exact apart.functions helper.name (List.mem_filterMap.mpr ⟨other, isOther, isFunction⟩) helper
      member number hasNumber
  have total : ((file.elements.flatMap Element.routines).map Routine.name).count helper.name =
      (file.helpers.map Helper.name).count helper.name := by
    rw [File.helpers, List.map_flatMap, List.map_flatMap, List.count_flatMap, List.count_flatMap]
    exact congrArg List.sum (List.map_congr_left sameCounts)
  rw [File.routines, List.map_append, List.count_append, List.count_eq_zero.mpr noCheck, total,
    Nat.zero_add]
  rw [(File.nodup_helpers inOrder apart).count, if_pos (List.mem_map_of_mem member)]

end NamesApart

end StructuredText.Code
