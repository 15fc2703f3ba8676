import StructuredText.Exchange.Expr
import StructuredText.Proofs.Exchange.Declaration

/-!
# Expressions are restored

The theorems recurse on the depth that is left, as the readers do.
-/

set_option autoImplicit false

namespace StructuredText

theorem Expr.toJsonList_eq_map (exprs : List Expr) :
    Expr.toJsonList exprs = exprs.map Expr.toJson := by
  induction exprs with
  | nil => rfl
  | cons expr exprs ih => rw [Expr.toJsonList, ih, List.map_cons]

theorem Argument.toJsonList_eq_map (arguments : List Argument) :
    Argument.toJsonList arguments = arguments.map Argument.toJson := by
  induction arguments with
  | nil => rfl
  | cons argument arguments ih => rw [Argument.toJsonList, ih, List.map_cons]

/-! ## Expressions can be written -/

mutual

@[simp] theorem Reference.plain_toJson : ∀ reference : Reference, reference.toJson.Plain
  | .named name => by simp [Reference.toJson]
  | .element array subscripts => by
      simp [Reference.toJson, array.plain_toJson, Expr.plainItems_toJsonList subscripts]
  | .field record name => by simp [Reference.toJson, record.plain_toJson]

@[simp] theorem Variable.plain_toJson : ∀ source : Variable, source.toJson.Plain
  | .direct address => by simp [Variable.toJson]
  | .symbolic reference => by simp [Variable.toJson, reference.plain_toJson]

@[simp] theorem Expr.plain_toJson : ∀ expr : Expr, expr.toJson.Plain
  | .compare op left right | .arith op left right => by
      simp [Expr.toJson, left.plain_toJson, right.plain_toJson]
  | .unary op term => by simp [Expr.toJson, term.plain_toJson]
  | .group inner => by simp [Expr.toJson, inner.plain_toJson]
  | .const value | .enumerated value => by simp [Expr.toJson]
  | .var source => by simp [Expr.toJson, source.plain_toJson]
  | .call function arguments => by
      simp [Expr.toJson, Argument.plainItems_toJsonList arguments]

@[simp] theorem Expr.plainItems_toJsonList : ∀ exprs : List Expr,
    Json.PlainItems (Expr.toJsonList exprs)
  | [] => by simp [Expr.toJsonList]
  | expr :: exprs => by
      simp [Expr.toJsonList, expr.plain_toJson, Expr.plainItems_toJsonList exprs]

@[simp] theorem Argument.plain_toJson : ∀ argument : Argument, argument.toJson.Plain
  | .positional value | .named _ value => by simp [Argument.toJson, value.plain_toJson]
  | .output isNegated source target => by simp [Argument.toJson, target.plain_toJson]

@[simp] theorem Argument.plainItems_toJsonList : ∀ arguments : List Argument,
    Json.PlainItems (Argument.toJsonList arguments)
  | [] => by simp [Argument.toJsonList]
  | argument :: arguments => by
      simp [Argument.toJsonList, argument.plain_toJson, Argument.plainItems_toJsonList arguments]

end

/-! ## Expressions are read again -/

mutual

theorem Reference.restores : ∀ depth, Restores Reference.read Reference.toJson depth
  | 0 => fun _ _ found => by cases found
  | depth + 1 => by
      intro json reference found
      rw [Reference.read] at found
      split at found
      · obtain ⟨name, rfl, restored⟩ := (Restores.readOnly Ident.restores "name" depth).map found
        exact restored
      · obtain ⟨members, same, restored⟩ := Reference.restoresElement depth found
        rw [same]
        exact restored
      · obtain ⟨members, same, restored⟩ := Reference.restoresField depth found
        rw [same]
        exact restored
      · cases found

theorem Reference.restoresElement : ∀ depth,
    RestoresAs "Array" Reference.readElement Reference.toJson depth
  | 0 => fun _ _ found => by cases found
  | depth + 1 => by
      refine RestoresAs.fields (by decide) (fun _ => rfl) ?_
      intro fields reference found
      split at found
      · obtain ⟨array, readArray, found⟩ := (Reference.restores depth).present found
        obtain ⟨subscripts, readSubscripts, found⟩ := (Expr.restoresList depth).present found
        cases found
        refine ⟨[array.toJson, .array (Expr.toJsonList subscripts)], rfl, rfl, ?_⟩
        simp [readArray, readSubscripts]
      · cases found

theorem Reference.restoresField : ∀ depth,
    RestoresAs "Structured" Reference.readField Reference.toJson depth
  | 0 => fun _ _ found => by cases found
  | depth + 1 => by
      refine RestoresAs.fields (by decide) (fun _ => rfl) ?_
      intro fields reference found
      split at found
      · obtain ⟨record, readRecord, found⟩ := (Reference.restores depth).present found
        obtain ⟨name, readName, found⟩ := (Ident.restores depth).required found
        cases found
        refine ⟨[record.toJson, name.toJson], rfl, rfl, ?_⟩
        simp [readRecord, readName]
      · cases found

theorem Variable.restores : ∀ depth, Restores Variable.read Variable.toJson depth
  | 0 => fun _ _ found => by cases found
  | depth + 1 => by
      intro json source found
      rw [Variable.read] at found
      split at found
      · obtain ⟨address, rfl, restored⟩ := (Address.restores depth).map found
        exact restored
      · obtain ⟨reference, rfl, restored⟩ := (Reference.restores depth).map found
        exact restored
      · cases found

theorem Expr.restores : ∀ depth, Restores Expr.read Expr.toJson depth
  | 0 => fun _ _ found => by cases found
  | depth + 1 => by
      intro json expr found
      rw [Expr.read] at found
      split at found
      · obtain ⟨members, same, restored⟩ := Expr.restoresCompare depth found
        rw [same]
        exact restored
      · obtain ⟨members, same, restored⟩ := Expr.restoresArith depth found
        rw [same]
        exact restored
      · obtain ⟨members, same, restored⟩ := Expr.restoresUnary depth found
        rw [same]
        exact restored
      · obtain ⟨inner, rfl, restored⟩ := (Expr.restores depth).map found
        exact restored
      · obtain ⟨value, rfl, restored⟩ := (Constant.restores depth).map found
        exact restored
      · obtain ⟨value, rfl, restored⟩ := (EnumValue.restores depth).map found
        exact restored
      · obtain ⟨source, rfl, restored⟩ := (Variable.restores depth).map found
        exact restored
      · obtain ⟨members, same, restored⟩ := Expr.restoresCall depth found
        rw [same]
        exact restored
      · cases found

theorem Expr.restoresCompare : ∀ depth, RestoresAs "Compare" Expr.readCompare Expr.toJson depth
  | 0 => fun _ _ found => by cases found
  | depth + 1 => by
      refine RestoresAs.fields (by decide) (fun _ => rfl) ?_
      intro fields expr found
      split at found
      · obtain ⟨op, readOp, found⟩ := (Restores.tagged depth).required found
        obtain ⟨left, readLeft, found⟩ := (Expr.restores depth).present found
        obtain ⟨right, readRight, found⟩ := (Expr.restores depth).present found
        cases found
        refine ⟨[Tagged.toJson op, left.toJson, right.toJson], rfl, rfl, ?_⟩
        simp [readOp, readLeft, readRight]
      · cases found

theorem Expr.restoresArith : ∀ depth, RestoresAs "BinaryOp" Expr.readArith Expr.toJson depth
  | 0 => fun _ _ found => by cases found
  | depth + 1 => by
      refine RestoresAs.fields (by decide) (fun _ => rfl) ?_
      intro fields expr found
      split at found
      · obtain ⟨op, readOp, found⟩ := (Restores.tagged depth).required found
        obtain ⟨left, readLeft, found⟩ := (Expr.restores depth).present found
        obtain ⟨right, readRight, found⟩ := (Expr.restores depth).present found
        cases found
        refine ⟨[Tagged.toJson op, left.toJson, right.toJson], rfl, rfl, ?_⟩
        simp [readOp, readLeft, readRight]
      · cases found

theorem Expr.restoresUnary : ∀ depth, RestoresAs "UnaryOp" Expr.readUnary Expr.toJson depth
  | 0 => fun _ _ found => by cases found
  | depth + 1 => by
      refine RestoresAs.fields (by decide) (fun _ => rfl) ?_
      intro fields expr found
      split at found
      · obtain ⟨op, readOp, found⟩ := (Restores.tagged depth).required found
        obtain ⟨term, readTerm, found⟩ := (Expr.restores depth).present found
        cases found
        refine ⟨[Tagged.toJson op, term.toJson], rfl, rfl, ?_⟩
        simp [readOp, readTerm]
      · cases found

theorem Expr.restoresCall : ∀ depth, RestoresAs "Function" Expr.readCall Expr.toJson depth
  | 0 => fun _ _ found => by cases found
  | depth + 1 => by
      refine RestoresAs.fields (by decide) (fun _ => rfl) ?_
      intro fields expr found
      split at found
      · obtain ⟨function, readFunction, found⟩ := (Ident.restores depth).required found
        obtain ⟨arguments, readArguments, found⟩ := (Argument.restoresList depth).present found
        cases found
        refine ⟨[function.toJson, .array (Argument.toJsonList arguments)], rfl, rfl, ?_⟩
        simp [readFunction, readArguments]
      · cases found

theorem Expr.restoresList : ∀ depth,
    Restores Expr.readList (fun exprs => .array (Expr.toJsonList exprs)) depth
  | 0 => fun _ _ found => by cases found
  | depth + 1 => by
      intro json exprs found
      obtain ⟨items, -, readItems⟩ := Option.bind_eq_some_iff.mp found
      dsimp only
      rw [Expr.toJsonList_eq_map]
      exact (Expr.restores depth).mapM_write readItems

theorem Argument.restores : ∀ depth, Restores Argument.read Argument.toJson depth
  | 0 => fun _ _ found => by cases found
  | depth + 1 => by
      intro json argument found
      rw [Argument.read] at found
      split at found
      · obtain ⟨members, same, restored⟩ := Argument.restoresPositional depth found
        rw [same]
        exact restored
      · obtain ⟨members, same, restored⟩ := Argument.restoresNamed depth found
        rw [same]
        exact restored
      · obtain ⟨members, same, restored⟩ := Argument.restoresOutput depth found
        rw [same]
        exact restored
      · cases found

theorem Argument.restoresPositional : ∀ depth,
    RestoresAs "PositionalInput" Argument.readPositional Argument.toJson depth
  | 0 => fun _ _ found => by cases found
  | depth + 1 => by
      refine RestoresAs.fields (by decide) (fun _ => rfl) ?_
      intro fields argument found
      split at found
      · obtain ⟨value, readValue, found⟩ := (Expr.restores depth).present found
        cases found
        refine ⟨[value.toJson], rfl, rfl, ?_⟩
        simp [readValue]
      · cases found

theorem Argument.restoresNamed : ∀ depth,
    RestoresAs "NamedInput" Argument.readNamed Argument.toJson depth
  | 0 => fun _ _ found => by cases found
  | depth + 1 => by
      refine RestoresAs.fields (by decide) (fun _ => rfl) ?_
      intro fields argument found
      split at found
      · obtain ⟨name, readName, found⟩ := (Ident.restores depth).required found
        obtain ⟨value, readValue, found⟩ := (Expr.restores depth).present found
        cases found
        refine ⟨[name.toJson, value.toJson], rfl, rfl, ?_⟩
        simp [readName, readValue]
      · cases found

theorem Argument.restoresOutput : ∀ depth,
    RestoresAs "Output" Argument.readOutput Argument.toJson depth
  | 0 => fun _ _ found => by cases found
  | depth + 1 => by
      refine RestoresAs.fields (by decide) (fun _ => rfl) ?_
      intro fields argument found
      split at found
      · obtain ⟨isNegated, readNegated, found⟩ := (Restores.bool depth).required found
        obtain ⟨source, readSource, found⟩ := (Ident.restores depth).required found
        obtain ⟨target, readTarget, found⟩ := (Variable.restores depth).present found
        cases found
        refine ⟨[.bool isNegated, source.toJson, target.toJson], rfl, rfl, ?_⟩
        simp [readNegated, readSource, readTarget]
      · cases found

theorem Argument.restoresList : ∀ depth,
    Restores Argument.readList (fun arguments => .array (Argument.toJsonList arguments)) depth
  | 0 => fun _ _ found => by cases found
  | depth + 1 => by
      intro json arguments found
      obtain ⟨items, -, readItems⟩ := Option.bind_eq_some_iff.mp found
      dsimp only
      rw [Argument.toJsonList_eq_map]
      exact (Argument.restores depth).mapM_write readItems

end

end StructuredText
