import Mathlib.Data.List.Pairwise
import StructuredText.Proofs.Code.Switch
import StructuredText.Proofs.Lowering.Output
import StructuredText.Tree.Build

/-!
# Selections

A selection runs the statements of the group that has the value of the selector among its
labels, and those of the `ELSE` part where there is no such group.  Single values become
labels of a switch and ranges become tests in its default part, both in the order of the
program.  A group with labels of both kinds stands in both places, and is still run once.
-/

set_option autoImplicit false

namespace StructuredText

open Code (SwitchLine)

/-! ## What labels stand for -/

def Context.position? (context : Context) (value : EnumValue) : Option Nat :=
  match (context.enumeration? value).map DataType.resolved with
  | some (.enumeration _ values) => values.idxOf? value.value
  | _ => none

namespace CaseLabel

/-- The value of a label that is a single value. -/
def single? (context : Context) : CaseLabel → Option Int
  | .integer token => token.value?
  | .enumerated value => (context.position? value).map Int.ofNat
  | .range _ => none

def range? : CaseLabel → Option (Int × Int)
  | .range bounds => do return (← bounds.start.value?, ← bounds.stop.value?)
  | .integer _ | .enumerated _ => none

/-- The value is among those of the label. -/
def Contains (context : Context) (value : Int) (label : CaseLabel) : Prop :=
  label.single? context = some value ∨
    ∃ low high, label.range? = some (low, high) ∧ low ≤ value ∧ value ≤ high

/-- The constants of a label are read as the values that they stand for. -/
def ReadBy (context : Context) (reading : String → Int) : CaseLabel → Prop
  | .integer token => token.value? = some (reading (Code.Literal.signed token))
  | .enumerated value => ∀ type, context.enumeration? value = some type →
      (context.position? value).map Int.ofNat =
        some (reading (Code.Literal.enumerated type.resolved.cName value.value))
  | .range bounds =>
      bounds.start.value? = some (reading (Code.Literal.signed bounds.start)) ∧
        bounds.stop.value? = some (reading (Code.Literal.signed bounds.stop))

end CaseLabel

namespace CaseGroup

/-- The value is among those of the labels of the group. -/
def Contains (context : Context) (value : Int) (group : CaseGroup) : Prop :=
  ∃ label ∈ group.labels, label.Contains context value

def HasSingle (context : Context) (value : Int) (group : CaseGroup) : Prop :=
  value ∈ group.labels.filterMap (CaseLabel.single? context)

def HasRange (value : Int) (group : CaseGroup) : Prop :=
  ∃ bounds ∈ group.labels.filterMap CaseLabel.range?, bounds.1 ≤ value ∧ value ≤ bounds.2

theorem contains_iff {context : Context} {value : Int} {group : CaseGroup} :
    group.Contains context value ↔ group.HasSingle context value ∨ group.HasRange value := by
  simp only [Contains, CaseLabel.Contains, HasSingle, HasRange, List.mem_filterMap]
  constructor
  · rintro ⟨label, member, isSingle | ⟨low, high, isRange, above, below⟩⟩
    · exact .inl ⟨label, member, isSingle⟩
    · exact .inr ⟨(low, high), ⟨label, member, isRange⟩, above, below⟩
  · rintro (⟨label, member, isSingle⟩ | ⟨⟨low, high⟩, ⟨label, member, isRange⟩, above, below⟩)
    · exact ⟨label, member, .inl isSingle⟩
    · exact ⟨label, member, .inr ⟨low, high, isRange, above, below⟩⟩

end CaseGroup

/-! ## Labels in generated code -/

namespace CaseLabel

variable {site : Site} {reading : String → Int}

theorem lowerSingles_append {first second : List CaseLabel} :
    ∀ {texts more : List String}, lowerSingles site first = .ok texts →
      lowerSingles site second = .ok more →
      lowerSingles site (first ++ second) = .ok (texts ++ more) := by
  induction first with
  | nil =>
      intro texts more run runMore
      cases run
      exact runMore
  | cons label labels ih =>
      intro texts more run runMore
      cases label with
      | range bounds => exact ih run runMore
      | integer value =>
          obtain ⟨rest, restRun, run⟩ := bind_eq_ok run
          cases run
          rw [List.cons_append, lowerSingles, ih restRun runMore]
          rfl
      | enumerated value =>
          obtain ⟨text, textRun, run⟩ := bind_eq_ok run
          obtain ⟨rest, restRun, run⟩ := bind_eq_ok run
          cases run
          rw [List.cons_append, lowerSingles, textRun, ih restRun runMore]
          rfl

theorem lowerRanges_append (first second : List CaseLabel) :
    lowerRanges (first ++ second) = lowerRanges first ++ lowerRanges second :=
  List.filterMap_append

theorem map_lowerSingles {labels : List CaseLabel} :
    ∀ {texts : List String}, lowerSingles site labels = .ok texts →
      (∀ label ∈ labels, label.ReadBy site.context reading) →
      texts.map reading = labels.filterMap (single? site.context) := by
  induction labels with
  | nil =>
      intro texts run _
      cases run
      rfl
  | cons label labels ih =>
      intro texts run reads
      obtain ⟨readFirst, readRest⟩ := List.forall_mem_cons.mp reads
      cases label with
      | range bounds => exact ih run readRest
      | integer token =>
          obtain ⟨rest, restRun, run⟩ := bind_eq_ok run
          cases run
          have isSingle : single? site.context (.integer token) =
              some (reading (Code.Literal.signed token)) := readFirst
          rw [List.map_cons, ih restRun readRest, List.filterMap_cons_some isSingle]
      | enumerated value =>
          obtain ⟨text, textRun, run⟩ := bind_eq_ok run
          obtain ⟨rest, restRun, run⟩ := bind_eq_ok run
          cases run
          unfold Site.enumerated at textRun
          cases found : site.context.enumeration? value with
          | none =>
              rw [found] at textRun
              cases textRun
          | some type =>
              rw [found] at textRun
              cases textRun
              have isSingle : single? site.context (.enumerated value) =
                  some (reading (Code.Literal.enumerated type.resolved.cName value.value)) :=
                readFirst type found
              rw [List.map_cons, ih restRun readRest, List.filterMap_cons_some isSingle]

theorem map_lowerRanges {labels : List CaseLabel}
    (reads : ∀ label ∈ labels, label.ReadBy site.context reading) :
    (lowerRanges labels).map (fun bounds => (reading bounds.1, reading bounds.2)) =
      labels.filterMap range? := by
  induction labels with
  | nil => rfl
  | cons label labels ih =>
      obtain ⟨readFirst, readRest⟩ := List.forall_mem_cons.mp reads
      have rest := ih readRest
      cases label with
      | range bounds =>
          have isRange : range? (.range bounds) =
              some (reading (Code.Literal.signed bounds.start),
                reading (Code.Literal.signed bounds.stop)) := by
            simp [range?, readFirst.1, readFirst.2]
          rw [List.filterMap_cons_some isRange, ← rest]
          rfl
      | integer token => exact rest
      | enumerated value => exact rest

end CaseLabel

/-! ## Groups in generated code -/

/-- The code is one that lowering makes of the statements inside the given constructs. -/
def Site.Lowers (site : Site) (around : List Breakable) (body : List Stmt)
    (code : List Code.Stmt) : Prop :=
  ∃ depth state after, Stmt.lowerList site depth around body state = .ok (code, after)

namespace CaseGroup

variable {site : Site} {reading : String → Int} {value : Int} {depth : Nat}
  {around : List Breakable}

theorem lowerSingles_of_lowerCases {groups : List CaseGroup} :
    ∀ {state after : LoweringState} {cases : List Code.Case},
      lowerCases site depth around groups state = .ok (cases, after) →
      CaseLabel.lowerSingles site (groups.flatMap labels) =
        .ok (cases.flatMap Code.Case.labels) := by
  induction groups with
  | nil =>
      intro state after codes run
      rw [lowerCases] at run
      cases run
      rfl
  | cons group groups ih =>
      intro state after codes run
      obtain ⟨groupLabels, body⟩ := group
      rw [lowerCases] at run
      obtain ⟨singles, first, singlesRun, run⟩ := Lower.bind_eq_ok run
      have ofGroup := Lower.lift_eq_ok singlesRun
      cases singles with
      | nil =>
          have rest := ih run
          exact CaseLabel.lowerSingles_append ofGroup rest
      | cons single singles =>
          obtain ⟨body', second, -, run⟩ := Lower.bind_eq_ok run
          obtain ⟨rest, last, restRun, run⟩ := Lower.bind_eq_ok run
          cases run
          exact CaseLabel.lowerSingles_append ofGroup (ih restRun)

theorem lowerRanges_of_lowerRanges {groups : List CaseGroup} :
    ∀ {state after : LoweringState} {cases : List Code.RangeCase},
      lowerRanges site depth around groups state = .ok (cases, after) →
      cases.flatMap Code.RangeCase.ranges = CaseLabel.lowerRanges (groups.flatMap labels) := by
  induction groups with
  | nil =>
      intro state after codes run
      rw [lowerRanges] at run
      cases run
      rfl
  | cons group groups ih =>
      intro state after codes run
      obtain ⟨groupLabels, body⟩ := group
      rw [List.flatMap_cons, CaseLabel.lowerRanges_append]
      rw [lowerRanges] at run
      show _ = CaseLabel.lowerRanges groupLabels ++ _
      cases ranges : CaseLabel.lowerRanges groupLabels with
      | nil =>
          rw [ranges] at run
          exact ih run
      | cons range more =>
          rw [ranges] at run
          obtain ⟨body', second, -, run⟩ := Lower.bind_eq_ok run
          obtain ⟨rest, last, restRun, run⟩ := Lower.bind_eq_ok run
          cases run
          rw [← ih restRun]
          rfl

theorem isFor_iff_hasSingle {case : Code.Case} {group : CaseGroup}
    (lowered : CaseLabel.lowerSingles site group.labels = .ok case.labels)
    (reads : ∀ label ∈ group.labels, label.ReadBy site.context reading) :
    case.isFor reading value = true ↔ group.HasSingle site.context value := by
  rw [HasSingle, ← CaseLabel.map_lowerSingles lowered reads]
  simp [Code.Case.isFor]

theorem isFor_iff_hasRange {case : Code.RangeCase} {group : CaseGroup}
    (lowered : CaseLabel.lowerRanges group.labels = case.ranges)
    (reads : ∀ label ∈ group.labels, label.ReadBy site.context reading) :
    case.isFor reading value = true ↔ group.HasRange value := by
  rw [HasRange, ← CaseLabel.map_lowerRanges reads, lowered]
  simp only [Code.RangeCase.isFor, List.any_eq_true, decide_eq_true_eq, List.mem_map]
  constructor
  · rintro ⟨bounds, member, inside⟩
    exact ⟨_, ⟨bounds, member, rfl⟩, inside⟩
  · rintro ⟨_, ⟨bounds, member, rfl⟩, inside⟩
    exact ⟨bounds, member, inside⟩

/-- The case for a value comes from a group that has the value as a label. -/
theorem find?_of_lowerCases {groups : List CaseGroup} :
    ∀ {state after : LoweringState} {cases : List Code.Case},
      lowerCases site depth around groups state = .ok (cases, after) →
      (∀ group ∈ groups, ∀ label ∈ group.labels, label.ReadBy site.context reading) →
      (∃ group ∈ groups, group.HasSingle site.context value ∧
        ∃ case, cases.find? (Code.Case.isFor reading value) = some case ∧
          site.Lowers around group.body case.body) ∨
      ((∀ group ∈ groups, ¬group.HasSingle site.context value) ∧
        cases.find? (Code.Case.isFor reading value) = none) := by
  induction groups with
  | nil =>
      intro state after codes run _
      rw [lowerCases] at run
      cases run
      exact .inr ⟨nofun, rfl⟩
  | cons group groups ih =>
      intro state after codes run reads
      obtain ⟨readsFirst, readsRest⟩ := List.forall_mem_cons.mp reads
      obtain ⟨groupLabels, body⟩ := group
      rw [lowerCases] at run
      obtain ⟨singles, first, singlesRun, run⟩ := Lower.bind_eq_ok run
      have ofGroup : CaseLabel.lowerSingles site (labels (.mk groupLabels body)) = .ok singles :=
        Lower.lift_eq_ok singlesRun
      cases singles with
      | nil =>
          have notFirst : ¬HasSingle site.context value (.mk groupLabels body) := by
            rw [HasSingle, ← CaseLabel.map_lowerSingles ofGroup readsFirst]
            exact List.not_mem_nil
          rcases ih run readsRest with ⟨group, member, found⟩ | ⟨nowhere, none⟩
          · exact .inl ⟨group, List.mem_cons_of_mem _ member, found⟩
          · exact .inr ⟨List.forall_mem_cons.mpr ⟨notFirst, nowhere⟩, none⟩
      | cons single singles =>
          obtain ⟨body', second, bodyRun, run⟩ := Lower.bind_eq_ok run
          obtain ⟨rest, last, restRun, run⟩ := Lower.bind_eq_ok run
          cases run
          have isFirst : (Code.Case.mk (single :: singles) body').isFor reading value = true ↔
              HasSingle site.context value (.mk groupLabels body) :=
            isFor_iff_hasSingle ofGroup readsFirst
          rw [List.find?_cons]
          cases forValue : (Code.Case.mk (single :: singles) body').isFor reading value with
          | true =>
              exact .inl ⟨_, List.mem_cons_self .., isFirst.mp forValue, _, rfl, depth, first,
                second, bodyRun⟩
          | false =>
              have notFirst : ¬HasSingle site.context value (.mk groupLabels body) := by
                rw [← isFirst, forValue]
                exact Bool.false_ne_true
              rcases ih restRun readsRest with ⟨group, member, found⟩ | ⟨nowhere, none⟩
              · exact .inl ⟨group, List.mem_cons_of_mem _ member, found⟩
              · exact .inr ⟨List.forall_mem_cons.mpr ⟨notFirst, nowhere⟩, none⟩

/-- What the tests run comes from a group that has the value in one of its ranges. -/
theorem run_of_lowerRanges {groups : List CaseGroup} (otherwise : List Code.Stmt) :
    ∀ {state after : LoweringState} {cases : List Code.RangeCase},
      lowerRanges site depth around groups state = .ok (cases, after) →
      (∀ group ∈ groups, ∀ label ∈ group.labels, label.ReadBy site.context reading) →
      (∃ group ∈ groups, group.HasRange value ∧
        site.Lowers around group.body (Code.RangeCase.run reading value cases otherwise)) ∨
      ((∀ group ∈ groups, ¬group.HasRange value) ∧
        Code.RangeCase.run reading value cases otherwise = otherwise) := by
  induction groups with
  | nil =>
      intro state after codes run _
      rw [lowerRanges] at run
      cases run
      exact .inr ⟨nofun, rfl⟩
  | cons group groups ih =>
      intro state after codes run reads
      obtain ⟨readsFirst, readsRest⟩ := List.forall_mem_cons.mp reads
      obtain ⟨groupLabels, body⟩ := group
      rw [lowerRanges] at run
      cases ranges : CaseLabel.lowerRanges groupLabels with
      | nil =>
          rw [ranges] at run
          have notFirst : ¬HasRange value (.mk groupLabels body) := by
            rw [HasRange, ← CaseLabel.map_lowerRanges readsFirst]
            simp [labels, ranges]
          rcases ih run readsRest with ⟨group, member, found⟩ | ⟨nowhere, none⟩
          · exact .inl ⟨group, List.mem_cons_of_mem _ member, found⟩
          · exact .inr ⟨List.forall_mem_cons.mpr ⟨notFirst, nowhere⟩, none⟩
      | cons range more =>
          rw [ranges] at run
          obtain ⟨body', second, bodyRun, run⟩ := Lower.bind_eq_ok run
          obtain ⟨rest, last, restRun, run⟩ := Lower.bind_eq_ok run
          cases run
          have isFirst : (Code.RangeCase.mk (range :: more) body').isFor reading value = true ↔
              HasRange value (.mk groupLabels body) :=
            isFor_iff_hasRange ranges readsFirst
          rw [Code.RangeCase.run]
          cases forValue : (Code.RangeCase.mk (range :: more) body').isFor reading value with
          | true =>
              exact .inl ⟨_, List.mem_cons_self .., isFirst.mp forValue, depth, state, second,
                bodyRun⟩
          | false =>
              have notFirst : ¬HasRange value (.mk groupLabels body) := by
                rw [← isFirst, forValue]
                exact Bool.false_ne_true
              rcases ih restRun readsRest with ⟨group, member, found⟩ | ⟨nowhere, none⟩
              · exact .inl ⟨group, List.mem_cons_of_mem _ member, found⟩
              · exact .inr ⟨List.forall_mem_cons.mpr ⟨notFirst, nowhere⟩, none⟩

end CaseGroup

/-! ## Selections -/

/-- No value is among those of two groups. -/
def CaseGroup.Apart (context : Context) (groups : List CaseGroup) : Prop :=
  groups.Pairwise fun first second =>
    ∀ value, ¬(first.Contains context value ∧ second.Contains context value)

theorem CaseGroup.eq_of_apart {context : Context} {groups : List CaseGroup}
    (apart : CaseGroup.Apart context groups) {first second : CaseGroup} {value : Int}
    (isFirst : first ∈ groups) (isSecond : second ∈ groups)
    (inFirst : first.Contains context value) (inSecond : second.Contains context value) :
    first = second := by
  by_contra different
  have symmetric : Std.Symm fun x y : CaseGroup =>
      ∀ value, ¬(x.Contains context value ∧ y.Contains context value) :=
    ⟨fun _ _ disjoint other both => disjoint other both.symm⟩
  exact apart.forall isFirst isSecond different value ⟨inFirst, inSecond⟩

theorem Site.runs_group {site : Site} {depth rangeDepth : Nat} {around : List Breakable}
    {groups : List CaseGroup} {reading : String → Int} {before between after : LoweringState}
    {cases : List Code.Case} {ranges : List Code.RangeCase} (otherwise : List Code.Stmt)
    (casesRun : CaseGroup.lowerCases site depth around groups before = .ok (cases, between))
    (rangesRun : CaseGroup.lowerRanges site rangeDepth around groups between = .ok (ranges, after))
    (reads : ∀ group ∈ groups, ∀ label ∈ group.labels, label.ReadBy site.context reading)
    (value : Int) :
    (∃ group ∈ groups, group.Contains site.context value ∧
      site.Lowers around group.body
        (SwitchLine.run reading value (SwitchLine.ofSelection cases ranges otherwise))) ∨
    ((∀ group ∈ groups, ¬group.Contains site.context value) ∧
      SwitchLine.run reading value (SwitchLine.ofSelection cases ranges otherwise) =
        otherwise) := by
  rw [SwitchLine.run_ofSelection]
  rcases CaseGroup.find?_of_lowerCases casesRun reads with
    ⟨group, member, hasSingle, case, found, lowers⟩ | ⟨noSingle, none⟩
  · refine .inl ⟨group, member, CaseGroup.contains_iff.mpr (.inl hasSingle), ?_⟩
    rw [found]
    exact lowers
  · rw [none]
    rcases CaseGroup.run_of_lowerRanges otherwise rangesRun reads with
      ⟨group, member, hasRange, lowers⟩ | ⟨noRange, same⟩
    · exact .inl ⟨group, member, CaseGroup.contains_iff.mpr (.inr hasRange), lowers⟩
    · refine .inr ⟨fun group member contains => ?_, same⟩
      rcases CaseGroup.contains_iff.mp contains with hasSingle | hasRange
      · exact noSingle group member hasSingle
      · exact noRange group member hasRange

/-- A selection whose groups have no value in common, and that never switches the output
off, is written as a switch that runs the group of the value, or the `ELSE` part where
there is none. -/
theorem Stmt.select_runs_group_of_value {site : Site} {depth : Nat} {around : List Breakable}
    {selector : Expr} {groups : List CaseGroup} {otherwise : List Stmt}
    {state after : LoweringState} {code : Code.Stmt} {reading : String → Int}
    (run : (Stmt.select selector groups otherwise).lower site depth around state =
      .ok (code, after))
    (neverOff : .pragma .disable ∉ (Stmt.select selector groups otherwise).all)
    (reads : ∀ group ∈ groups, ∀ label ∈ group.labels, label.ReadBy site.context reading)
    (apart : CaseGroup.Apart site.context groups)
    (once : ((groups.flatMap CaseGroup.labels).filterMap
      (CaseLabel.single? site.context)).Nodup) :
    ∃ type value' lines,
      code.print depth =
        [.margin depth, .text "\x7b\n", .margin (depth + 1),
          .text (type ++ " __case_expression = ")] ++ Code.Expr.print depth value' ++
        [.text ";\n", .margin (depth + 1), .text "switch (__case_expression) \x7b\n"] ++
        lines.flatMap (SwitchLine.print (depth + 2)) ++
        Code.Piece.textLine (depth + 1) "\x7d" ++ [.margin depth, .text "\x7d", .text ";\n"] ∧
      Code.Piece.visible true (code.print depth) =
        (code.print depth).filter (fun piece => !piece.isSwitch) ∧
      (∃ before between, selector.lower site depth before = .ok (value', between)) ∧
      CaseLabel.lowerSingles site (groups.flatMap CaseGroup.labels) =
        .ok (lines.filterMap SwitchLine.label?) ∧
      lines.flatMap SwitchLine.ranges =
        CaseLabel.lowerRanges (groups.flatMap CaseGroup.labels) ∧
      ((lines.filterMap SwitchLine.label?).map reading).Nodup ∧
      ∀ value : Int,
        (∀ group ∈ groups, group.Contains site.context value →
          site.Lowers (.selection :: around) group.body (SwitchLine.run reading value lines)) ∧
        ((∀ group ∈ groups, ¬group.Contains site.context value) →
          site.Lowers (.selection :: around) otherwise (SwitchLine.run reading value lines)) := by
  have written : .switch false ∉ code.all :=
    Stmt.switch_not_mem_of_lower (.select selector groups otherwise) run neverOff
  rw [Stmt.lower] at run
  obtain ⟨type, first, -, run⟩ := Lower.bind_eq_ok run
  obtain ⟨selector', second, selectorRun, run⟩ := Lower.bind_eq_ok run
  obtain ⟨cases', third, casesRun, run⟩ := Lower.bind_eq_ok run
  obtain ⟨ranges, fourth, rangesRun, run⟩ := Lower.bind_eq_ok run
  obtain ⟨otherwise', last, otherwiseRun, run⟩ := Lower.bind_eq_ok run
  cases run
  have singles := CaseGroup.lowerSingles_of_lowerCases casesRun
  have readsAll : ∀ label ∈ groups.flatMap CaseGroup.labels,
      label.ReadBy site.context reading := by
    intro label member
    obtain ⟨group, isGroup, isLabel⟩ := List.mem_flatMap.mp member
    exact reads group isGroup label isLabel
  have runs := Site.runs_group otherwise' casesRun rangesRun reads
  refine ⟨type.cName, selector', SwitchLine.ofSelection cases' ranges otherwise',
    Code.Stmt.print_select .., Code.Piece.visible_true (Code.Stmt.switch_not_mem_print _ _ written),
    ⟨first, second, selectorRun⟩, ?_, ?_, ?_, fun value => ⟨fun group member contains => ?_,
      fun nowhere => ?_⟩⟩
  · rw [SwitchLine.label?_ofSelection, singles]
  · rw [SwitchLine.ranges_ofSelection]
    exact CaseGroup.lowerRanges_of_lowerRanges rangesRun
  · rw [SwitchLine.label?_ofSelection, CaseLabel.map_lowerSingles singles readsAll]
    exact once
  · rcases runs value with ⟨other, isOther, otherContains, lowers⟩ | ⟨nowhere, -⟩
    · rw [CaseGroup.eq_of_apart apart member isOther contains otherContains]
      exact lowers
    · exact absurd contains (nowhere group member)
  · rcases runs value with ⟨other, isOther, otherContains, -⟩ | ⟨-, same⟩
    · exact absurd otherContains (nowhere other isOther)
    · rw [same]
      exact ⟨_, _, _, otherwiseRun⟩

def colorSite : Site :=
  { context := { types := { entries := [("COLOR", .enumeration "COLOR" ["RED", "BLUE"])] } }
    scope := ScopeStack.new, style := .direct, unit := "PICK" }

def colorGroups : List CaseGroup :=
  [.mk [.integer (.ofInt 5), .range { start := .ofInt 7, stop := .ofInt 9 }] [.leaveUnit],
    .mk [.enumerated { type := some "COLOR", value := "BLUE" }] [.pragma (.code "blue();")]]

def colorReading : String → Int
  | "5" => 5
  | "7" => 7
  | "9" => 9
  | "COLOR__BLUE" => 1
  | _ => 0

theorem colorGroups_read : ∀ group ∈ colorGroups, ∀ label ∈ group.labels,
    label.ReadBy colorSite.context colorReading := by
  have blue : (colorSite.context.enumeration? { type := some "COLOR", value := "BLUE" }).map
      (fun type => type.resolved.cName) = some "COLOR" := by decide +kernel
  simp only [colorGroups, List.forall_mem_cons, CaseGroup.labels, CaseLabel.ReadBy]
  refine ⟨⟨by decide +kernel, ⟨by decide +kernel, by decide +kernel⟩, List.forall_mem_nil _⟩,
    ⟨fun type found => ?_, List.forall_mem_nil _⟩, List.forall_mem_nil _⟩
  rw [found] at blue
  have named : type.resolved.cName = "COLOR" := Option.some.inj blue
  rw [named]
  decide +kernel

theorem colorGroups_apart : CaseGroup.Apart colorSite.context colorGroups := by
  have first : ((colorGroups.map CaseGroup.labels).map fun labels =>
      (labels.filterMap (CaseLabel.single? colorSite.context),
        labels.filterMap CaseLabel.range?)) = [([5], [(7, 9)]), ([1], [])] := by decide +kernel
  simp only [colorGroups, List.map_cons, List.map_nil, List.cons.injEq, Prod.mk.injEq] at first
  obtain ⟨⟨five, sevenToNine⟩, ⟨one, nothing⟩, -⟩ := first
  refine List.pairwise_pair.mpr fun value both => ?_
  simp only [CaseGroup.contains_iff, CaseGroup.HasSingle, CaseGroup.HasRange, five, sevenToNine,
    one, nothing, List.mem_singleton] at both
  obtain ⟨isFive | ⟨bounds, rfl, above, below⟩, isOne | ⟨bounds', isNone, -⟩⟩ := both
  · omega
  · cases isNone
  · omega
  · cases isNone

theorem colorGroups_once : ((colorGroups.flatMap CaseGroup.labels).filterMap
    (CaseLabel.single? colorSite.context)).Nodup := by
  decide +kernel

theorem colorGroups_neverOff :
    .pragma .disable ∉ (Stmt.select (.ofInt 1) colorGroups [.leaveUnit]).all := by
  simp [Stmt.all, Stmt.allList, CaseGroup.allList, colorGroups]

theorem colorSite_lowers :
    ((Stmt.select (.ofInt 1) colorGroups [.leaveUnit]).lower colorSite 1 [] {}).isOk = true := by
  decide +kernel

theorem Stmt.select_runs_group_of_value_colors :
    .pragma .disable ∉ (Stmt.select (.ofInt 1) colorGroups [.leaveUnit]).all ∧
      CaseGroup.Apart colorSite.context colorGroups ∧
      ∃ code after lines,
        (Stmt.select (.ofInt 1) colorGroups [.leaveUnit]).lower colorSite 1 [] {} =
          .ok (code, after) ∧
        CaseLabel.lowerSingles colorSite (colorGroups.flatMap CaseGroup.labels) =
          .ok (lines.filterMap SwitchLine.label?) ∧
        ∀ value : Int,
          (∀ group ∈ colorGroups, group.Contains colorSite.context value →
            colorSite.Lowers [.selection] group.body (SwitchLine.run colorReading value lines)) ∧
          ((∀ group ∈ colorGroups, ¬group.Contains colorSite.context value) →
            colorSite.Lowers [.selection] [.leaveUnit]
              (SwitchLine.run colorReading value lines)) := by
  have lowers := colorSite_lowers
  cases run : (Stmt.select (.ofInt 1) colorGroups [.leaveUnit]).lower colorSite 1 [] {} with
  | error fault =>
      rw [run] at lowers
      cases lowers
  | ok result =>
      obtain ⟨code, after⟩ := result
      obtain ⟨type, value', lines, -, -, -, singles, -, -, runs⟩ :=
        Stmt.select_runs_group_of_value run colorGroups_neverOff colorGroups_read
          colorGroups_apart colorGroups_once
      exact ⟨colorGroups_neverOff, colorGroups_apart, code, after, lines, rfl, singles, runs⟩

def hushedGroups : List CaseGroup :=
  [.mk [.integer (.ofInt 1)] [.pragma .disable],
    .mk [.integer (.ofInt 2)] [.assign (.named "Pick") (.ofInt 2)]]

def hushed : Library where
  elements :=
    [.function
        { name := "Pick", returnType := "INT", vars := []
          body :=
            [.select (.ofInt 1) hushedGroups [.assign (.named "Pick") (.ofInt 3)]] }]

theorem Library.labels_unwritten :
    (hushedGroups.flatMap CaseGroup.labels).filterMap (CaseLabel.single? {}) = [1, 2] ∧
      ∃ pieces, hushed.written? = some pieces ∧ .text "case 1:\n" ∈ pieces ∧
        .text "case 2:\n" ∉ pieces ∧ .text "default:\n" ∉ pieces := by
  refine ⟨by decide +kernel, ?_⟩
  have first : (hushed.written?.map fun pieces => pieces.contains (.text "case 1:\n") &&
      (!pieces.contains (.text "case 2:\n") && !pieces.contains (.text "default:\n"))) =
      some true := by
    decide +kernel
  obtain ⟨pieces, found, all⟩ := Option.map_eq_some_iff.mp first
  refine ⟨pieces, found, ?_⟩
  simpa using all

end StructuredText
