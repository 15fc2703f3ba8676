import StructuredText.Exchange.Library
import StructuredText.Proofs.Analysis.Resolved
import StructuredText.Proofs.Exchange.Expr

/-!
# Statements and libraries are restored

The main result: a library that was read is read again, as it was, from either layout of
its text.  A library that was read has no positions, so that none of its functions passes
for one that comes with the compiler.
-/

set_option autoImplicit false

namespace StructuredText

/-! ## Directives and labels -/

@[simp] theorem Pragma.plain_toJson (directive : Pragma) : directive.toJson.Plain := by
  cases directive <;> simp [Pragma.toJson]

theorem Pragma.restores (depth : Nat) : Restores Pragma.read Pragma.toJson depth := by
  intro json directive found
  rw [Pragma.read] at found
  split at found
  · cases found
    simp only [Pragma.read, Pragma.toJson, Restores.unit_string]
  · cases found
    simp only [Pragma.read, Pragma.toJson, Restores.unit_string]
  · cases depth with
    | zero => cases found
    | succ depth =>
        obtain ⟨⟨tag, content⟩, -, found⟩ := Option.bind_eq_some_iff.mp found
        dsimp only at found
        split at found
        · obtain ⟨text, rfl, restored⟩ := (Restores.string depth).map found
          exact restored
        · cases found

@[simp] theorem CaseLabel.plain_toJson (label : CaseLabel) : label.toJson.Plain := by
  cases label <;> simp [CaseLabel.toJson]

theorem CaseLabel.restores : ∀ depth, Restores CaseLabel.read CaseLabel.toJson depth := by
  refine Restores.choice ?_
  intro depth tag content label found
  split at found
  · obtain ⟨bounds, rfl, restored⟩ := (Range.restores depth).map found
    exact ⟨_, rfl, restored⟩
  · obtain ⟨value, rfl, restored⟩ := (SignedToken.restores depth).map found
    exact ⟨_, rfl, restored⟩
  · obtain ⟨value, rfl, restored⟩ := (EnumValue.restores depth).map found
    exact ⟨_, rfl, restored⟩
  · cases found

/-! ## Statements can be written -/

theorem Expr.toJson_ne_null (expr : Expr) : expr.toJson ≠ .null := by
  cases expr <;> rw [Expr.toJson] <;> nofun

mutual

@[simp] theorem Stmt.plain_toJson : ∀ stmt : Stmt, stmt.toJson.Plain
  | .assign target value | .invoke block arguments => by simp [Stmt.toJson]
  | .ifElse condition body elseIfs otherwise => by
      simp [Stmt.toJson, Stmt.plainItems_toJsonList body, ElseIf.plainItems_toJsonList elseIfs,
        Stmt.plainItems_toJsonList otherwise]
  | .select selector groups otherwise => by
      simp [Stmt.toJson, CaseGroup.plainItems_toJsonList groups,
        Stmt.plainItems_toJsonList otherwise]
  | .forTo control first last step body => by
      simp [Stmt.toJson, Stmt.plainItems_toJsonList body]
  | .whileDo condition body | .repeatUntil body condition => by
      simp [Stmt.toJson, Stmt.plainItems_toJsonList body]
  | .leaveUnit | .leaveLoop | .pragma directive => by simp [Stmt.toJson]

@[simp] theorem Stmt.plainItems_toJsonList : ∀ stmts : List Stmt,
    Json.PlainItems (Stmt.toJsonList stmts)
  | [] => by simp [Stmt.toJsonList]
  | stmt :: stmts => by
      simp [Stmt.toJsonList, stmt.plain_toJson, Stmt.plainItems_toJsonList stmts]

@[simp] theorem ElseIf.plainItems_toJsonList : ∀ elseIfs : List ElseIf,
    Json.PlainItems (ElseIf.toJsonList elseIfs)
  | [] => by simp [ElseIf.toJsonList]
  | .mk condition body :: elseIfs => by
      simp [ElseIf.toJsonList, Stmt.plainItems_toJsonList body,
        ElseIf.plainItems_toJsonList elseIfs]

@[simp] theorem CaseGroup.plainItems_toJsonList : ∀ groups : List CaseGroup,
    Json.PlainItems (CaseGroup.toJsonList groups)
  | [] => by simp [CaseGroup.toJsonList]
  | .mk labels body :: groups => by
      simp [CaseGroup.toJsonList, Stmt.plainItems_toJsonList body,
        CaseGroup.plainItems_toJsonList groups]

end

/-! ## Statements are read again -/

theorem Stmt.toJsonList_eq_map (stmts : List Stmt) :
    Stmt.toJsonList stmts = stmts.map Stmt.toJson := by
  induction stmts with
  | nil => rfl
  | cons stmt stmts ih => rw [Stmt.toJsonList, ih, List.map_cons]

def ElseIf.toJson (elseIf : ElseIf) : Json :=
  .object
    [("expr", elseIf.condition.toJson), ("body", .array (Stmt.toJsonList elseIf.body))]

theorem ElseIf.toJsonList_eq_map (elseIfs : List ElseIf) :
    ElseIf.toJsonList elseIfs = elseIfs.map ElseIf.toJson := by
  induction elseIfs with
  | nil => rfl
  | cons elseIf elseIfs ih =>
      cases elseIf
      rw [ElseIf.toJsonList, ih]
      rfl

def CaseGroup.toJson (group : CaseGroup) : Json :=
  .object
    [("selectors", .array (group.labels.map CaseLabel.toJson)),
      ("statements", .array (Stmt.toJsonList group.body))]

theorem CaseGroup.toJsonList_eq_map (groups : List CaseGroup) :
    CaseGroup.toJsonList groups = groups.map CaseGroup.toJson := by
  induction groups with
  | nil => rfl
  | cons group groups ih =>
      cases group
      rw [CaseGroup.toJsonList, ih]
      rfl

mutual

theorem Stmt.restores : ∀ depth, Restores Stmt.read Stmt.toJson depth
  | 0 => by
      intro json stmt found
      unfold Stmt.read at found
      split at found
      · cases found
        rfl
      · cases found
        rfl
      · cases found
      · next isSucc _ _ => cases isSucc
  | depth + 1 => by
      intro json stmt found
      unfold Stmt.read at found
      split at found
      · cases found
        rfl
      · cases found
        rfl
      · cases found
      · next inner sameDepth _ _ =>
          cases sameDepth
          -- What is written under a tag is not null, so that the tag does not stand alone.
          split at found
          · obtain ⟨members, same, restored⟩ := Stmt.restoresAssign depth found
            rw [same]
            exact restored
          · obtain ⟨members, same, restored⟩ := Stmt.restoresInvoke depth found
            rw [same]
            exact restored
          · obtain ⟨members, same, restored⟩ := Stmt.restoresIf depth found
            rw [same]
            exact restored
          · obtain ⟨members, same, restored⟩ := Stmt.restoresSelect depth found
            rw [same]
            exact restored
          · obtain ⟨members, same, restored⟩ := Stmt.restoresFor depth found
            rw [same]
            exact restored
          · obtain ⟨members, same, restored⟩ := Stmt.restoresWhile depth found
            rw [same]
            exact restored
          · obtain ⟨members, same, restored⟩ := Stmt.restoresRepeat depth found
            rw [same]
            exact restored
          · obtain ⟨directive, rfl, restored⟩ := (Pragma.restores depth).map found
            cases directive <;> exact restored
          · cases found

theorem Stmt.restoresAssign : ∀ depth, RestoresAs "Assignment" Stmt.readAssign Stmt.toJson depth
  | 0 => fun _ _ found => by cases found
  | depth + 1 => by
      refine RestoresAs.fields (by decide) (fun _ => rfl) ?_
      intro fields stmt found
      split at found
      · obtain ⟨target, readTarget, found⟩ := (Variable.restores depth).required found
        obtain ⟨value, readValue, found⟩ := (Expr.restores depth).required found
        cases found
        refine ⟨[target.toJson, value.toJson], rfl, rfl, ?_⟩
        simp [readTarget, readValue]
      · cases found

theorem Stmt.restoresInvoke : ∀ depth, RestoresAs "FbCall" Stmt.readInvoke Stmt.toJson depth
  | 0 => fun _ _ found => by cases found
  | depth + 1 => by
      refine RestoresAs.fields (by decide) (fun _ => rfl) ?_
      intro fields stmt found
      split at found
      · obtain ⟨block, readBlock, found⟩ := (Ident.restores depth).required found
        obtain ⟨arguments, readArguments, found⟩ := (Argument.restoresList depth).required found
        cases found
        refine ⟨[block.toJson, .array (Argument.toJsonList arguments)], rfl, rfl, ?_⟩
        simp [readBlock, readArguments]
      · cases found

theorem Stmt.restoresIf : ∀ depth, RestoresAs "If" Stmt.readIf Stmt.toJson depth
  | 0 => fun _ _ found => by cases found
  | depth + 1 => by
      refine RestoresAs.fields (by decide) (fun _ => rfl) ?_
      intro fields stmt found
      split at found
      · obtain ⟨condition, readCondition, found⟩ := (Expr.restores depth).required found
        obtain ⟨body, readBody, found⟩ := (Stmt.restoresList depth).present found
        obtain ⟨elseIfs, readElseIfs, found⟩ := (ElseIf.restoresList depth).present found
        obtain ⟨otherwise, readOtherwise, found⟩ := (Stmt.restoresList depth).present found
        cases found
        refine ⟨[condition.toJson, .array (Stmt.toJsonList body),
          .array (ElseIf.toJsonList elseIfs), .array (Stmt.toJsonList otherwise)], rfl, rfl, ?_⟩
        simp [readCondition, readBody, readElseIfs, readOtherwise]
      · cases found

theorem Stmt.restoresSelect : ∀ depth, RestoresAs "Case" Stmt.readSelect Stmt.toJson depth
  | 0 => fun _ _ found => by cases found
  | depth + 1 => by
      refine RestoresAs.fields (by decide) (fun _ => rfl) ?_
      intro fields stmt found
      split at found
      · obtain ⟨selector, readSelector, found⟩ := (Expr.restores depth).required found
        obtain ⟨groups, readGroups, found⟩ := (CaseGroup.restoresList depth).present found
        obtain ⟨otherwise, readOtherwise, found⟩ := (Stmt.restoresList depth).present found
        cases found
        refine ⟨[selector.toJson, .array (CaseGroup.toJsonList groups),
          .array (Stmt.toJsonList otherwise)], rfl, rfl, ?_⟩
        simp [readSelector, readGroups, readOtherwise]
      · cases found

theorem Stmt.restoresFor : ∀ depth, RestoresAs "For" Stmt.readFor Stmt.toJson depth
  | 0 => fun _ _ found => by cases found
  | depth + 1 => by
      refine RestoresAs.fields (by decide) (fun _ => rfl) ?_
      intro fields stmt found
      split at found
      · obtain ⟨control, readControl, found⟩ := (Ident.restores depth).required found
        obtain ⟨first, readFirst, found⟩ := (Expr.restores depth).required found
        obtain ⟨last, readLast, found⟩ := (Expr.restores depth).required found
        obtain ⟨step, readStep, found⟩ := (Expr.restores depth).optional Expr.toJson_ne_null found
        obtain ⟨body, readBody, found⟩ := (Stmt.restoresList depth).present found
        cases found
        refine ⟨[control.toJson, first.toJson, last.toJson, Json.ofOption Expr.toJson step,
          .array (Stmt.toJsonList body)], rfl, rfl, ?_⟩
        simp [readControl, readFirst, readLast, readStep, readBody]
      · cases found

theorem Stmt.restoresWhile : ∀ depth, RestoresAs "While" Stmt.readWhile Stmt.toJson depth
  | 0 => fun _ _ found => by cases found
  | depth + 1 => by
      refine RestoresAs.fields (by decide) (fun _ => rfl) ?_
      intro fields stmt found
      split at found
      · obtain ⟨condition, readCondition, found⟩ := (Expr.restores depth).required found
        obtain ⟨body, readBody, found⟩ := (Stmt.restoresList depth).present found
        cases found
        refine ⟨[condition.toJson, .array (Stmt.toJsonList body)], rfl, rfl, ?_⟩
        simp [readCondition, readBody]
      · cases found

theorem Stmt.restoresRepeat : ∀ depth, RestoresAs "Repeat" Stmt.readRepeat Stmt.toJson depth
  | 0 => fun _ _ found => by cases found
  | depth + 1 => by
      refine RestoresAs.fields (by decide) (fun _ => rfl) ?_
      intro fields stmt found
      split at found
      · obtain ⟨condition, readCondition, found⟩ := (Expr.restores depth).required found
        obtain ⟨body, readBody, found⟩ := (Stmt.restoresList depth).present found
        cases found
        refine ⟨[condition.toJson, .array (Stmt.toJsonList body)], rfl, rfl, ?_⟩
        simp [readCondition, readBody]
      · cases found

theorem Stmt.restoresList : ∀ depth,
    Restores Stmt.readList (fun stmts => .array (Stmt.toJsonList stmts)) depth
  | 0 => fun _ _ found => by cases found
  | depth + 1 => by
      intro json stmts found
      obtain ⟨items, -, readItems⟩ := Option.bind_eq_some_iff.mp found
      dsimp only
      rw [Stmt.toJsonList_eq_map]
      exact (Stmt.restores depth).mapM_write readItems

theorem ElseIf.restores : ∀ depth, Restores ElseIf.read ElseIf.toJson depth
  | 0 => fun _ _ found => by cases found
  | depth + 1 => by
      refine Restores.fields ["expr", "body"] (by decide) (fun _ => rfl)
        (fun elseIf : ElseIf =>
          [elseIf.condition.toJson, .array (Stmt.toJsonList elseIf.body)]) (fun _ => rfl) ?_
      intro fields elseIf found
      split at found
      · obtain ⟨condition, readCondition, found⟩ := (Expr.restores depth).required found
        obtain ⟨body, readBody, found⟩ := (Stmt.restoresList depth).present found
        cases found
        simp [ElseIf.condition, ElseIf.body, readCondition, readBody]
      · cases found

theorem ElseIf.restoresList : ∀ depth,
    Restores ElseIf.readList (fun elseIfs => .array (ElseIf.toJsonList elseIfs)) depth
  | 0 => fun _ _ found => by cases found
  | depth + 1 => by
      intro json elseIfs found
      obtain ⟨items, -, readItems⟩ := Option.bind_eq_some_iff.mp found
      dsimp only
      rw [ElseIf.toJsonList_eq_map]
      exact (ElseIf.restores depth).mapM_write readItems

theorem CaseGroup.restores : ∀ depth, Restores CaseGroup.read CaseGroup.toJson depth
  | 0 => fun _ _ found => by cases found
  | depth + 1 => by
      refine Restores.fields ["selectors", "statements"] (by decide) (fun _ => rfl)
        (fun group : CaseGroup =>
          [.array (group.labels.map CaseLabel.toJson), .array (Stmt.toJsonList group.body)])
        (fun _ => rfl) ?_
      intro fields group found
      split at found
      · obtain ⟨labels, readLabels, found⟩ :=
          (Restores.list CaseLabel.restores depth).required found
        obtain ⟨body, readBody, found⟩ := (Stmt.restoresList depth).present found
        cases found
        simp [CaseGroup.labels, CaseGroup.body, readLabels, readBody]
      · cases found

theorem CaseGroup.restoresList : ∀ depth,
    Restores CaseGroup.readList (fun groups => .array (CaseGroup.toJsonList groups)) depth
  | 0 => fun _ _ found => by cases found
  | depth + 1 => by
      intro json groups found
      obtain ⟨items, -, readItems⟩ := Option.bind_eq_some_iff.mp found
      dsimp only
      rw [CaseGroup.toJsonList_eq_map]
      exact (CaseGroup.restores depth).mapM_write readItems

end

/-! ## Units and libraries -/

@[simp] theorem FunctionDecl.plain_toJson (decl : FunctionDecl) : decl.toJson.Plain := by
  simp [FunctionDecl.toJson]

theorem FunctionDecl.restores : ∀ depth, Restores FunctionDecl.read FunctionDecl.toJson depth := by
  refine Restores.record (by decide)
    (fun decl : FunctionDecl =>
      [decl.name.toJson, decl.returnType.typeToJson, .array (decl.vars.map VarDecl.toJson),
        .array (Stmt.toJsonList decl.body)]) (fun _ => rfl) ?_
  intro depth fields decl found
  split at found
  · obtain ⟨name, readName, found⟩ := (Ident.restores depth).required found
    obtain ⟨returnType, readType, found⟩ := (Ident.restoresType depth).required found
    obtain ⟨vars, readVars, found⟩ := (Restores.list VarDecl.restores depth).required found
    obtain ⟨body, readBody, found⟩ := (Stmt.restoresList depth).required found
    cases found
    simp [readName, readType, readVars, readBody]
  · cases found

@[simp] theorem FunctionBlockDecl.plain_toJson (decl : FunctionBlockDecl) : decl.toJson.Plain := by
  simp [FunctionBlockDecl.toJson]

theorem FunctionBlockDecl.restores :
    ∀ depth, Restores FunctionBlockDecl.read FunctionBlockDecl.toJson depth := by
  refine Restores.record (by decide)
    (fun decl : FunctionBlockDecl =>
      [decl.name.typeToJson, .array (decl.vars.map VarDecl.toJson),
        .array (Stmt.toJsonList decl.body)]) (fun _ => rfl) ?_
  intro depth fields decl found
  split at found
  · obtain ⟨name, readName, found⟩ := (Ident.restoresType depth).required found
    obtain ⟨vars, readVars, found⟩ := (Restores.list VarDecl.restores depth).required found
    obtain ⟨body, readBody, found⟩ := (Stmt.restoresList depth).required found
    cases found
    simp [readName, readVars, readBody]
  · cases found

@[simp] theorem ProgramDecl.plain_toJson (decl : ProgramDecl) : decl.toJson.Plain := by
  simp [ProgramDecl.toJson]

theorem ProgramDecl.restores : ∀ depth, Restores ProgramDecl.read ProgramDecl.toJson depth := by
  refine Restores.record (by decide)
    (fun decl : ProgramDecl =>
      [decl.name.toJson, .array (decl.vars.map VarDecl.toJson),
        .array (Stmt.toJsonList decl.body)]) (fun _ => rfl) ?_
  intro depth fields decl found
  split at found
  · obtain ⟨name, readName, found⟩ := (Ident.restores depth).required found
    obtain ⟨vars, readVars, found⟩ := (Restores.list VarDecl.restores depth).required found
    obtain ⟨body, readBody, found⟩ := (Stmt.restoresList depth).required found
    cases found
    simp [readName, readVars, readBody]
  · cases found

@[simp] theorem Element.plain_toJson (element : Element) : element.toJson.Plain := by
  cases element <;> simp [Element.toJson]

theorem Element.restores : ∀ depth, Restores Element.read Element.toJson depth := by
  refine Restores.choice ?_
  intro depth tag content element found
  split at found
  · obtain ⟨decl, rfl, restored⟩ := (TypeDecl.restores depth).map found
    exact ⟨_, rfl, restored⟩
  · obtain ⟨decl, rfl, restored⟩ := (FunctionDecl.restores depth).map found
    exact ⟨_, rfl, restored⟩
  · obtain ⟨decl, rfl, restored⟩ := (FunctionBlockDecl.restores depth).map found
    exact ⟨_, rfl, restored⟩
  · obtain ⟨decl, rfl, restored⟩ := (ProgramDecl.restores depth).map found
    exact ⟨_, rfl, restored⟩
  · obtain ⟨directive, rfl, restored⟩ := (Pragma.restores depth).map found
    exact ⟨_, rfl, restored⟩
  · cases found

@[simp] theorem Library.plain_toJson (library : Library) : library.toJson.Plain := by
  simp [Library.toJson]

theorem Library.restores : ∀ depth, Restores Library.read Library.toJson depth := by
  refine Restores.record (by decide)
    (fun library : Library => [.array (library.elements.map Element.toJson)]) (fun _ => rfl) ?_
  intro depth fields library found
  split at found
  · obtain ⟨elements, readElements, found⟩ :=
      (Restores.list Element.restores depth).required found
    cases found
    simp [readElements]
  · cases found

/-- A library that was read from a text is read again, as it was, from what is written
for it in either layout. -/
theorem Library.text_round_trip {text : String} {library : Library}
    (accepted : Library.ofText? text = some library) (pretty : Bool) :
    Library.ofText? (library.toText pretty) = some library := by
  obtain ⟨json, -, read⟩ := Option.bind_eq_some_iff.mp accepted
  rw [Library.ofText?, Library.toText, Json.parse?_render library.plain_toJson]
  exact Library.restores Json.maxDepth read

def looseText : String :=
  "\x7b\"elements\": [\x7b\"ProgramDeclaration\": " ++
    "[\"Blink\", [], [\x7b\"Exit\": null\x7d]]\x7d]\x7d"

def strictText : String :=
  "\x7b\"elements\":[\x7b\"ProgramDeclaration\":" ++
    "\x7b\"name\":\"Blink\",\"variables\":[],\"body\":[\"Exit\"]\x7d\x7d]\x7d"

theorem Library.text_round_trip_loose : ∃ library, Library.ofText? looseText = some library ∧
    library.toText false = strictText ∧ Library.ofText? strictText = some library := by
  have written : (Library.ofText? looseText).map (·.toText false) = some strictText := by
    decide +kernel
  obtain ⟨library, accepted, same⟩ := Option.map_eq_some_iff.mp written
  have readAgain := Library.text_round_trip accepted false
  rw [same] at readAgain
  exact ⟨library, accepted, same, readAgain⟩

/-! ## Positions -/

theorem FunctionDecl.span_of_read {depth : Nat} {json : Json} {decl : FunctionDecl}
    (found : FunctionDecl.read depth json = some decl) : decl.name.span = {} := by
  cases depth with
  | zero => cases found
  | succ depth =>
      obtain ⟨fields, -, found⟩ := Option.bind_eq_some_iff.mp found
      dsimp only at found
      split at found
      · obtain ⟨name, readName, found⟩ := Option.bind_eq_some_iff.mp found
        obtain ⟨returnType, -, found⟩ := Option.bind_eq_some_iff.mp found
        obtain ⟨vars, -, found⟩ := Option.bind_eq_some_iff.mp found
        obtain ⟨body, -, found⟩ := Option.bind_eq_some_iff.mp found
        cases found
        obtain ⟨part, -, readPart⟩ := Option.bind_eq_some_iff.mp readName
        obtain ⟨spelling, -, rfl⟩ := Option.map_eq_some_iff.mp readPart
        rfl
      · cases found

theorem Element.span_of_read {depth : Nat} {json : Json} {decl : FunctionDecl}
    (found : Element.read depth json = some (.function decl)) : decl.name.span = {} := by
  cases depth with
  | zero => cases found
  | succ depth =>
      have readAgain : (FunctionDecl.read depth decl.toJson).map Element.function =
          some (.function decl) := Element.restores (depth + 1) found
      obtain ⟨same, readDecl, sameElement⟩ := Option.map_eq_some_iff.mp readAgain
      cases sameElement
      exact FunctionDecl.span_of_read readDecl

theorem Library.isUserCode_of_ofText? {text : String} {library : Library}
    (accepted : Library.ofText? text = some library) : library.IsUserCode := by
  obtain ⟨json, -, found⟩ := Option.bind_eq_some_iff.mp accepted
  obtain ⟨fields, -, found⟩ := Option.bind_eq_some_iff.mp found
  dsimp only at found
  split at found
  · obtain ⟨elements, readElements, found⟩ := Option.bind_eq_some_iff.mp found
    cases found
    obtain ⟨part, -, readPart⟩ := Option.bind_eq_some_iff.mp readElements
    obtain ⟨items, -, readItems⟩ := Option.bind_eq_some_iff.mp readPart
    have spans : ∀ element ∈ elements, ∀ decl, element = .function decl →
        decl.name.span = {} := by
      refine Json.forall_of_mapM ?_ readItems
      rintro item _ readItem decl rfl
      exact Element.span_of_read readItem
    intro decl member
    obtain ⟨element, isElement, isFunction⟩ := List.mem_filterMap.mp member
    split at isFunction
    · cases isFunction
      rw [spans _ isElement decl rfl]
      rfl
    · cases isFunction
  · cases found

end StructuredText
