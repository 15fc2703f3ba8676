import StructuredText.Exchange.Declaration
import StructuredText.Proofs.Exchange.Token

/-!
# Declarations are restored
-/

set_option autoImplicit false

namespace StructuredText

/-! ## Ranges, arrays and values of enumerations -/

@[simp] theorem Range.plain_toJson (range : Range) : range.toJson.Plain := by
  simp [Range.toJson]

theorem Range.restores : ∀ depth, Restores Range.read Range.toJson depth := by
  refine Restores.record (by decide)
    (fun range : Range => [range.start.toJson, range.stop.toJson]) (fun _ => rfl) ?_
  intro depth fields range found
  split at found
  · obtain ⟨start, readStart, found⟩ := (SignedToken.restores depth).required found
    obtain ⟨stop, readStop, found⟩ := (SignedToken.restores depth).required found
    cases found
    simp [readStart, readStop]
  · cases found

@[simp] theorem ArrayShape.plain_toJson (shape : ArrayShape) : shape.toJson.Plain := by
  simp [ArrayShape.toJson]

theorem ArrayShape.restores : ∀ depth, Restores ArrayShape.read ArrayShape.toJson depth := by
  refine Restores.record (by decide)
    (fun shape : ArrayShape =>
      [.array (shape.ranges.map Range.toJson), shape.element.typeToJson]) (fun _ => rfl) ?_
  intro depth fields shape found
  split at found
  · obtain ⟨ranges, readRanges, found⟩ := (Restores.list Range.restores depth).required found
    obtain ⟨element, readElement, found⟩ := (Ident.restoresType depth).required found
    cases found
    simp [readRanges, readElement]
  · cases found

@[simp] theorem ArraySpec.plain_toJson (spec : ArraySpec) : spec.toJson.Plain := by
  cases spec <;> simp [ArraySpec.toJson]

theorem ArraySpec.restores : ∀ depth, Restores ArraySpec.read ArraySpec.toJson depth := by
  refine Restores.choice ?_
  intro depth tag content spec found
  split at found
  · obtain ⟨type, rfl, restored⟩ := (Ident.restoresType depth).map found
    exact ⟨_, rfl, restored⟩
  · obtain ⟨shape, rfl, restored⟩ := (ArrayShape.restores depth).map found
    exact ⟨_, rfl, restored⟩
  · cases found

@[simp] theorem EnumValue.plain_toJson (value : EnumValue) : value.toJson.Plain := by
  simp [EnumValue.toJson]

theorem EnumValue.restores : ∀ depth, Restores EnumValue.read EnumValue.toJson depth := by
  refine Restores.record (by decide)
    (fun value : EnumValue =>
      [Json.ofOption Ident.typeToJson value.type, value.value.toJson]) (fun _ => rfl) ?_
  intro depth fields enumerated found
  split at found
  · obtain ⟨type, readType, found⟩ := (Ident.restoresType depth).optional (fun _ => nofun) found
    obtain ⟨value, readValue, found⟩ := (Ident.restores depth).required found
    cases found
    simp [readType, readValue]
  · cases found

/-! ## Initial values -/

theorem Constant.toJson_ne_null (constant : Constant) : constant.toJson ≠ .null := by
  cases constant <;> nofun

theorem Restores.readTypeAndValue {α : Type} {read : Reader α} {write : α → Json}
    (restores : ∀ depth, Restores read write depth) (notNull : ∀ value, write value ≠ .null) :
    ∀ depth, Restores (Initializer.readTypeAndValue read)
      (fun (type, value) =>
        .object [("type_name", type.typeToJson), ("initial_value", Json.ofOption write value)])
      depth := by
  refine Restores.record (by decide)
    (fun typed : Ident × Option α => [typed.1.typeToJson, Json.ofOption write typed.2])
    (fun _ => rfl) ?_
  intro depth fields typed found
  split at found
  · obtain ⟨type, readType, found⟩ := (Ident.restoresType depth).required found
    obtain ⟨value, readValue, found⟩ := (restores depth).optional notNull found
    cases found
    simp [readType, readValue]
  · cases found

@[simp] theorem Initializer.plain_toJson (initializer : Initializer) :
    initializer.toJson.Plain := by
  cases initializer <;> simp [Initializer.toJson]

theorem Initializer.restoresString : ∀ depth,
    RestoresAs "String" Initializer.readString Initializer.toJson depth := by
  refine RestoresAs.record (by decide) ?_
  intro depth fields initializer found
  split at found
  · obtain ⟨length, readLength, found⟩ :=
      (IntegerToken.restores depth).optional (fun _ => nofun) found
    obtain ⟨width, readWidth, found⟩ := (Restores.tagged depth).required found
    obtain ⟨value, readValue, found⟩ :=
      (CharString.restores depth).optional (fun _ => nofun) found
    cases found
    refine ⟨[Json.ofOption IntegerToken.toJson length, Tagged.toJson width,
      Json.ofOption CharString.toJson value], rfl, rfl, ?_⟩
    simp [readLength, readWidth, readValue]
  · cases found

theorem Initializer.restores : ∀ depth, Restores Initializer.read Initializer.toJson depth := by
  refine Restores.choice ?_
  intro depth tag content initializer found
  split at found
  · obtain ⟨⟨type, value⟩, rfl, restored⟩ :=
      (Restores.readTypeAndValue Constant.restores Constant.toJson_ne_null depth).map found
    exact ⟨_, rfl, restored⟩
  · obtain ⟨members, same, restored⟩ := Initializer.restoresString depth found
    exact ⟨_, same, restored⟩
  · obtain ⟨⟨type, value⟩, rfl, restored⟩ :=
      (Restores.readTypeAndValue EnumValue.restores (fun _ => nofun) depth).map found
    exact ⟨_, rfl, restored⟩
  · obtain ⟨type, rfl, restored⟩ :=
      (Restores.readOnly Ident.restoresType "type_name" depth).map found
    exact ⟨_, rfl, restored⟩
  · obtain ⟨spec, rfl, restored⟩ := (Restores.readOnly ArraySpec.restores "spec" depth).map found
    exact ⟨_, rfl, restored⟩
  · cases found

/-! ## Types -/

@[simp] theorem FieldDecl.plain_toJson (field : FieldDecl) : field.toJson.Plain := by
  simp [FieldDecl.toJson]

theorem FieldDecl.restores : ∀ depth, Restores FieldDecl.read FieldDecl.toJson depth := by
  refine Restores.record (by decide)
    (fun field : FieldDecl => [field.name.toJson, field.initializer.toJson]) (fun _ => rfl) ?_
  intro depth fields field found
  split at found
  · obtain ⟨name, readName, found⟩ := (Ident.restores depth).required found
    obtain ⟨initializer, readInitializer, found⟩ := (Initializer.restores depth).required found
    cases found
    simp [readName, readInitializer]
  · cases found

@[simp] theorem TypeDecl.plain_toJson (decl : TypeDecl) : decl.toJson.Plain := by
  cases decl <;> simp [TypeDecl.toJson]

theorem Restores.readNamed {α : Type} {read : Reader α} {write : α → Json}
    (restores : ∀ depth, Restores read write depth) {field : String}
    (distinct : ["type_name", field].Nodup) :
    ∀ depth, Restores (TypeDecl.readNamed field read)
      (fun (name, content) =>
        .object [("type_name", name.typeToJson), (field, write content)]) depth := by
  refine Restores.record distinct
    (fun named : Ident × α => [named.1.typeToJson, write named.2]) (fun _ => rfl) ?_
  intro depth fields named found
  split at found
  · obtain ⟨name, readName, found⟩ := (Ident.restoresType depth).required found
    obtain ⟨content, readContent, found⟩ := (restores depth).required found
    cases found
    simp [readName, readContent]
  · cases found

theorem TypeDecl.restoresSubrange : ∀ depth,
    RestoresAs "Subrange" TypeDecl.readSubrange TypeDecl.toJson depth := by
  refine RestoresAs.record (by decide) ?_
  intro depth fields decl found
  split at found
  · obtain ⟨name, readName, found⟩ := (Ident.restoresType depth).required found
    obtain ⟨base, readBase, found⟩ := (Restores.tagged depth).required found
    obtain ⟨range, readRange, found⟩ := (Range.restores depth).required found
    cases found
    refine ⟨[name.typeToJson, Tagged.toJson base, range.toJson], rfl, rfl, ?_⟩
    simp [readName, readBase, readRange]
  · cases found

theorem TypeDecl.restoresString : ∀ depth,
    RestoresAs "String" TypeDecl.readString TypeDecl.toJson depth := by
  refine RestoresAs.record (by decide) ?_
  intro depth fields decl found
  split at found
  · obtain ⟨name, readName, found⟩ := (Ident.restoresType depth).required found
    obtain ⟨length, readLength, found⟩ := (IntegerToken.restores depth).required found
    obtain ⟨width, readWidth, found⟩ := (Restores.tagged depth).required found
    cases found
    refine ⟨[name.typeToJson, length.toJson, Tagged.toJson width], rfl, rfl, ?_⟩
    simp [readName, readLength, readWidth]
  · cases found

theorem TypeDecl.restores : ∀ depth, Restores TypeDecl.read TypeDecl.toJson depth := by
  refine Restores.choice ?_
  intro depth tag content decl found
  split at found
  · obtain ⟨⟨name, base⟩, rfl, restored⟩ :=
      (Restores.readNamed Ident.restoresType (by decide) depth).map found
    exact ⟨_, rfl, restored⟩
  · obtain ⟨members, same, restored⟩ := TypeDecl.restoresSubrange depth found
    exact ⟨_, same, restored⟩
  · obtain ⟨⟨name, values⟩, rfl, restored⟩ :=
      (Restores.readNamed (Restores.list Ident.restores) (by decide) depth).map found
    exact ⟨_, rfl, restored⟩
  · obtain ⟨⟨name, shape⟩, rfl, restored⟩ :=
      (Restores.readNamed ArrayShape.restores (by decide) depth).map found
    exact ⟨_, rfl, restored⟩
  · obtain ⟨⟨name, fields⟩, rfl, restored⟩ :=
      (Restores.readNamed (Restores.list FieldDecl.restores) (by decide) depth).map found
    exact ⟨_, rfl, restored⟩
  · obtain ⟨members, same, restored⟩ := TypeDecl.restoresString depth found
    exact ⟨_, same, restored⟩
  · cases found

/-! ## Variables -/

@[simp] theorem VarName.plain_toJson (name : VarName) : name.toJson.Plain := by
  cases name <;> simp [VarName.toJson]

theorem VarName.restoresLocated : ∀ depth,
    RestoresAs "Direct" VarName.readLocated VarName.toJson depth := by
  refine RestoresAs.record (by decide) ?_
  intro depth fields name found
  split at found
  · obtain ⟨name, readName, found⟩ := (Ident.restores depth).optional (fun _ => nofun) found
    obtain ⟨address, readAddress, found⟩ := (Address.restores depth).required found
    cases found
    refine ⟨[Json.ofOption Ident.toJson name, address.toJson], rfl, rfl, ?_⟩
    simp [readName, readAddress]
  · cases found

theorem VarName.restores : ∀ depth, Restores VarName.read VarName.toJson depth := by
  refine Restores.choice ?_
  intro depth tag content name found
  split at found
  · obtain ⟨name, rfl, restored⟩ := (Ident.restores depth).map found
    exact ⟨_, rfl, restored⟩
  · obtain ⟨members, same, restored⟩ := VarName.restoresLocated depth found
    exact ⟨_, same, restored⟩
  · cases found

@[simp] theorem VarDecl.plain_toJson (decl : VarDecl) : decl.toJson.Plain := by
  simp [VarDecl.toJson]

theorem VarDecl.restores : ∀ depth, Restores VarDecl.read VarDecl.toJson depth := by
  refine Restores.record (by decide)
    (fun decl : VarDecl =>
      [decl.name.toJson, Tagged.toJson decl.kind, Tagged.toJson decl.qualifier,
        decl.initializer.toJson]) (fun _ => rfl) ?_
  intro depth fields decl found
  split at found
  · obtain ⟨name, readName, found⟩ := (VarName.restores depth).required found
    obtain ⟨kind, readKind, found⟩ := (Restores.tagged depth).required found
    obtain ⟨qualifier, readQualifier, found⟩ := (Restores.tagged depth).required found
    obtain ⟨initializer, readInitializer, found⟩ := (Initializer.restores depth).required found
    cases found
    simp [readName, readKind, readQualifier, readInitializer]
  · cases found

end StructuredText
