import StructuredText.Proofs.Spelling.Fold

/-!
# The types of a folded library

The meaning of a name does not depend on its case: resolving a folded library gives the
folded table, or the folded faults.  The name of an array that is not declared shows its
origin, so a type is folded without touching such names; a library keeps out of their way
if none of its types has a name that starts like them in any case.
-/

set_option autoImplicit false

namespace StructuredText

/-! ## Types -/

/-- True for the names that arrays without a declaration have, in any case. -/
def Ident.isReserved (ident : Ident) : Bool := ident.upper.startsWith DataType.inlineMark

@[simp] theorem Ident.isReserved_folded (ident : Ident) :
    ident.folded.isReserved = ident.isReserved := by
  rw [isReserved, isReserved, upper_folded]

/-- The name of an array in upper case, unless it may be that of an array without a
declaration. -/
def Ident.foldedArray (ident : Ident) : Ident := if ident.isReserved then ident else ident.folded

theorem startsWith_toUpper {text mark : String} (isUpper : mark.toUpper = mark)
    (starts : text.startsWith mark = true) : text.toUpper.startsWith mark = true := by
  rw [String.startsWith_string_iff] at starts ⊢
  rw [← isUpper, toList_toUpper, toList_toUpper]
  exact starts.map _

theorem DataType.inlineMark_toUpper : DataType.inlineMark.toUpper = DataType.inlineMark := by
  decide +kernel

@[simp] theorem Ident.upper_foldedArray (ident : Ident) :
    ident.foldedArray.upper = ident.upper := by
  unfold Ident.foldedArray
  split <;> simp

@[simp] theorem Ident.beq_foldedArray (left right : Ident) :
    (left == right.foldedArray) = (left == right) := by
  unfold Ident.foldedArray
  split <;> simp

@[simp] theorem Ident.foldedArray_beq (left right : Ident) :
    (left.foldedArray == right) = (left == right) := by
  unfold Ident.foldedArray
  split <;> simp

/-- Folding tells the arrays with and without a declaration apart as the names do. -/
theorem Ident.startsWith_foldedArray (ident : Ident) :
    ident.foldedArray.name.startsWith DataType.inlineMark =
      ident.name.startsWith DataType.inlineMark := by
  unfold Ident.foldedArray
  split
  · rfl
  · next unreserved =>
      have notUpper : ident.upper.startsWith DataType.inlineMark = false := by
        simpa [Ident.isReserved] using unreserved
      have notHere : ident.name.startsWith DataType.inlineMark = false := by
        rw [Bool.eq_false_iff]
        intro starts
        rw [Ident.upper, startsWith_toUpper DataType.inlineMark_toUpper starts] at notUpper
        cases notUpper
      exact notUpper.trans notHere.symm

namespace DataType

mutual

@[simp] def folded : DataType → DataType
  | .elementary type => .elementary type
  | .intLiteral => .intLiteral
  | .realLiteral => .realLiteral
  | .synonym name base => .synonym name.folded base.folded
  | .subrange name base lower upper => .subrange name.folded base lower upper
  | .enumeration name values => .enumeration name.folded (values.map Ident.folded)
  | .array name dimensions element => .array name.foldedArray dimensions element.folded
  | .record name fields => .record name.folded (foldedFields fields)
  | .functionBlock name => .functionBlock name.folded

@[simp] def foldedFields : List (Ident × DataType) → List (Ident × DataType)
  | [] => []
  | (name, type) :: fields => (name.folded, type.folded) :: foldedFields fields

end

theorem foldedFields_eq : ∀ fields : List (Ident × DataType),
    foldedFields fields = fields.map fun field => (field.1.folded, field.2.folded)
  | [] => by simp [foldedFields]
  | (name, type) :: fields => by simp [foldedFields, foldedFields_eq fields]

@[simp] theorem cName_folded (type : DataType) : type.folded.cName = type.cName := by
  cases type <;> simp [folded, cName]

@[simp] theorem resolved_folded : ∀ type : DataType, type.folded.resolved = type.resolved.folded
  | .synonym name base => by simp [folded, resolved, resolved_folded base]
  | .elementary _ | .intLiteral | .realLiteral | .subrange .. | .enumeration .. | .array ..
  | .record .. | .functionBlock _ => by simp [folded, resolved]

@[simp] theorem elementary?_folded (type : DataType) :
    type.folded.elementary? = type.elementary? := by
  unfold elementary?
  rw [resolved_folded]
  cases type.resolved <;> simp [folded]

@[simp] theorem isIntLiteral_folded (type : DataType) :
    type.folded.isIntLiteral = type.isIntLiteral := by
  cases type <;> simp [folded, isIntLiteral]

@[simp] theorem isRealLiteral_folded (type : DataType) :
    type.folded.isRealLiteral = type.isRealLiteral := by
  cases type <;> simp [folded, isRealLiteral]

@[simp] theorem isBool_folded (type : DataType) : type.folded.isBool = type.isBool := by
  simp [isBool]

@[simp] theorem isBitString_folded (type : DataType) :
    type.folded.isBitString = type.isBitString := by
  simp [isBitString]

@[simp] theorem isInteger_folded (type : DataType) : type.folded.isInteger = type.isInteger := by
  simp [isInteger]

@[simp] theorem isReal_folded (type : DataType) : type.folded.isReal = type.isReal := by
  simp [isReal]

@[simp] theorem isNumeric_folded (type : DataType) : type.folded.isNumeric = type.isNumeric := by
  simp [isNumeric]

@[simp] theorem isTime_folded (type : DataType) : type.folded.isTime = type.isTime := by
  simp [isTime]

@[simp] theorem isDate_folded (type : DataType) : type.folded.isDate = type.isDate := by
  simp [isDate]

@[simp] theorem isString_folded (type : DataType) : type.folded.isString = type.isString := by
  simp [isString]

@[simp] theorem isSubrange_folded (type : DataType) :
    type.folded.isSubrange = type.isSubrange := by
  unfold isSubrange
  rw [resolved_folded]
  cases type.resolved <;> simp [folded]

@[simp] theorem isFunctionBlock_folded (type : DataType) :
    type.folded.isFunctionBlock = type.isFunctionBlock := by
  unfold isFunctionBlock
  rw [resolved_folded]
  cases type.resolved <;> simp [folded]

@[simp] theorem isCompound_folded (type : DataType) :
    type.folded.isCompound = type.isCompound := by
  unfold isCompound
  rw [resolved_folded]
  cases type.resolved <;> simp [folded]

@[simp] theorem isLogical_folded (type : DataType) : type.folded.isLogical = type.isLogical := by
  simp [isLogical]

@[simp] theorem widened_folded (type : DataType) : type.folded.widened = type.widened.folded := by
  cases type <;> simp [folded, widened]

theorem accepts_eq (target source : DataType) :
    target.accepts source =
      if source.resolved.isIntLiteral then
        target.resolved.isInteger || target.resolved.isReal || target.resolved.isBitString
      else if source.resolved.isRealLiteral then target.resolved.isReal
      else
        match target.resolved.elementary?, source.resolved.elementary? with
        | some left, some right => left == right
        | none, none => target.resolved.cName == source.resolved.cName
        | _, _ => false := by
  unfold accepts
  cases source.resolved <;> rfl

@[simp] theorem accepts_folded (target source : DataType) :
    target.folded.accepts source.folded = target.accepts source := by
  simp [accepts_eq]

def literalCommon (left right : DataType) : DataType :=
  if left.isIntLiteral && right.isIntLiteral then .intLiteral else .realLiteral

theorem common?_eq (left right : DataType) :
    common? left right =
      if left.resolved.isLiteral && right.resolved.isLiteral then
        some (literalCommon left.resolved right.resolved)
      else if left.resolved.isLiteral then
        if right.resolved.accepts left.resolved then some right.resolved.widened else none
      else if right.resolved.isLiteral then
        if left.resolved.accepts right.resolved then some left.resolved.widened else none
      else
        match left.resolved.elementary?, right.resolved.elementary? with
        | some base, some base' => if base == base' then some left.resolved.widened else none
        | none, none =>
            if left.resolved.cName == right.resolved.cName then some left.resolved else none
        | _, _ => none := by
  unfold common?
  cases left.resolved <;> cases right.resolved <;> rfl

@[simp] theorem isLiteral_folded (type : DataType) : type.folded.isLiteral = type.isLiteral := by
  cases type <;> simp [folded, isLiteral]

@[simp] theorem literalCommon_folded (left right : DataType) :
    literalCommon left.folded right.folded = (literalCommon left right).folded := by
  unfold literalCommon
  rw [isIntLiteral_folded, isIntLiteral_folded]
  split <;> simp [folded]

@[simp] theorem common?_folded (left right : DataType) :
    common? left.folded right.folded = (common? left right).map folded := by
  simp only [common?_eq, resolved_folded, isLiteral_folded, accepts_folded, widened_folded,
    elementary?_folded, cName_folded, literalCommon_folded]
  split
  · rfl
  · split
    · split <;> rfl
    · split
      · split <;> rfl
      · split
        · split <;> rfl
        · split <;> rfl
        · rfl

theorem startsWith_inlineName (dimensions : List Dimension) (element : DataType) :
    (inlineName dimensions element).startsWith inlineMark = true := by
  rw [String.startsWith_string_iff, inlineName, String.append_assoc, String.toList_append]
  exact List.prefix_append ..

/-- An array that is written out has the same name however its element is spelled. -/
@[simp] theorem folded_inlineArray (dimensions : List Dimension) (element : DataType) :
    (inlineArray dimensions element).folded = inlineArray dimensions element.folded := by
  have reserved : (Ident.mk (inlineName dimensions element) {}).isReserved = true :=
    startsWith_toUpper inlineMark_toUpper (startsWith_inlineName dimensions element)
  have sameName : inlineName dimensions element.folded = inlineName dimensions element := by
    simp [inlineName]
  simp [inlineArray, folded, Ident.foldedArray, reserved, sameName]

end DataType

/-! ## Faults and results -/

def Fault.folded : Fault → Fault
  | duplicateType name => duplicateType name.folded
  | unresolvedType name => unresolvedType name.folded
  | undeclaredVariableType name => undeclaredVariableType name.folded
  | undeclaredReturnType name => undeclaredReturnType name.folded
  | duplicateBlock name first => duplicateBlock name.folded first
  | duplicateVariable name => duplicateVariable name.folded
  | unknownParameter name => unknownParameter name.folded
  | tooManyArguments span => tooManyArguments span
  | undeclaredVariable name => undeclaredVariable name.folded
  | undeclaredField name type => undeclaredField name.folded type.folded
  | subscriptCount span expected actual => subscriptCount span expected actual
  | notAnArray span type => notAnArray span type.folded
  | mismatch span left right => mismatch span left.folded right.folded
  | badOperand span type => badOperand span type.folded
  | badSubscript span type => badSubscript span type.folded
  | undeclaredEnumValue name => undeclaredEnumValue name.folded
  | undeclaredFunction name => undeclaredFunction name.folded
  | noOverload name => noOverload name.folded
  | argumentMismatch name => argumentMismatch name.folded
  | blockArgumentMismatch block type => blockArgumentMismatch block.folded type.folded
  | constantAssigned span name => constantAssigned span name.folded
  | notAssignable span target source => notAssignable span target.folded source.folded
  | notABlock name type => notABlock name.folded type.folded
  | undeclaredInstance name => undeclaredInstance name.folded
  | conditionNotBool span type => conditionNotBool span type.folded
  | controlNotInteger span type => controlNotInteger span type.folded
  | undeclaredControl name => undeclaredControl name.folded
  | internal problem span => internal problem span
  | internalWith problem span description item => internalWith problem span description item

@[simp] theorem Fault.problem_folded (fault : Fault) : fault.folded.problem = fault.problem := by
  cases fault <;> rfl

section Result

variable {α β α' β' : Type}

def foldedResult (change : α → α') : Except Fault α → Except Fault α'
  | .ok value => .ok (change value)
  | .error fault => .error fault.folded

def foldedResults (change : α → α') : Except (List Fault) α → Except (List Fault) α'
  | .ok value => .ok (change value)
  | .error faults => .error (faults.map Fault.folded)

theorem foldedResult_bind {change : α → α'} {change' : β → β'} {first : Except Fault α}
    {first' : Except Fault α'} {next : α → Except Fault β} {next' : α' → Except Fault β'}
    (firstSo : first' = foldedResult change first)
    (nextSo : ∀ value, next' (change value) = foldedResult change' (next value)) :
    (first' >>= next') = foldedResult change' (first >>= next) := by
  cases first with
  | error fault => rw [firstSo]; rfl
  | ok value => rw [firstSo]; exact nextSo value

theorem foldedResults_bind {change : α → α'} {change' : β → β'} {first : Except (List Fault) α}
    {first' : Except (List Fault) α'} {next : α → Except (List Fault) β}
    {next' : α' → Except (List Fault) β'} (firstSo : first' = foldedResults change first)
    (nextSo : ∀ value, next' (change value) = foldedResults change' (next value)) :
    (first' >>= next') = foldedResults change' (first >>= next) := by
  cases first with
  | error faults => rw [firstSo]; rfl
  | ok value => rw [firstSo]; exact nextSo value

theorem mapM_folded (change : α → α') (change' : β → β') (step : α → Option β)
    (step' : α' → Option β') (stepSo : ∀ item, step' (change item) = (step item).map change')
    (items : List α) :
    (items.map change).mapM step' = (items.mapM step).map (List.map change') := by
  induction items with
  | nil => rfl
  | cons item items ih =>
      rw [List.map_cons, List.mapM_cons, List.mapM_cons, stepSo, ih]
      cases step item with
      | none => rfl
      | some value => cases items.mapM step <;> rfl

end Result

/-! ## Tables -/

namespace Table

variable {α : Type} (change : α → α)

def folded (table : Table α) : Table α :=
  { entries := table.entries.map fun entry => (entry.1.folded, change entry.2) }

@[simp] theorem get?_folded (table : Table α) (name : Ident) :
    (table.folded change).get? name.folded = (table.get? name).map change := by
  simp [get?, folded, List.find?_map, Function.comp_def]

@[simp] theorem contains_folded (table : Table α) (name : Ident) :
    (table.folded change).contains name.folded = table.contains name := by
  simp [contains]

@[simp] theorem folded_push (table : Table α) (name : Ident) (value : α) :
    (table.folded change).push name.folded (change value) =
      (table.push name value).folded change := by
  simp [push, folded]

@[simp] theorem folded_insert (table : Table α) (name : Ident) (value : α) :
    (table.folded change).insert name.folded (change value) =
      (table.insert name value).folded change := by
  unfold insert
  rw [contains_folded]
  split
  · simp only [folded, List.map_map]
    congr 2
    funext entry
    simp only [Function.comp_apply, Ident.folded_beq, Ident.beq_folded]
    split <;> rfl
  · rw [folded_push]

end Table

namespace TypeTable

def folded (types : TypeTable) : TypeTable := Table.folded DataType.folded types

theorem folded_elementary : elementary.folded = elementary := by
  have unchanged : ∀ type : Elementary, type.ident.folded = type.ident :=
    fun type => Ident.folded_of_upper type.cName_toUpper
  simp [elementary, folded, Table.folded, Function.comp_def, unchanged, DataType.folded]

@[simp] theorem type?_folded (types : TypeTable) (name : Ident) :
    types.folded.type? name.folded = (types.type? name).map DataType.folded := by
  unfold type?
  rw [Elementary.ofIdent?_folded]
  cases Elementary.ofIdent? name with
  | some type => simp [DataType.folded]
  | none => simp [folded]

theorem declare_folded (types : TypeTable) (name : Ident) (type : DataType) :
    types.folded.declare name.folded type.folded =
      foldedResult TypeTable.folded (types.declare name type) := by
  unfold declare
  simp only [folded, Table.contains_folded, Table.folded_push]
  split <;> rfl

@[simp] theorem hasValue_folded (value : Ident) (type : DataType) :
    hasValue value.folded type.folded = hasValue value type := by
  cases type with
  | enumeration name values =>
      rw [DataType.folded]
      exact Ident.contains_folded values value
  | _ => simp [DataType.folded, hasValue]

@[simp] theorem enumerationsWith_folded (types : TypeTable) (value : Ident) :
    types.folded.enumerationsWith value.folded =
      (types.enumerationsWith value).map DataType.folded := by
  have sameTest : (hasValue value.folded ∘ DataType.folded) = hasValue value := by
    funext type
    exact hasValue_folded value type
  have values : types.folded.entries.map Prod.snd =
      (types.entries.map Prod.snd).map DataType.folded := by
    simp [folded, Table.folded]
  unfold enumerationsWith
  rw [values, List.filter_map, sameTest]
  refine (List.map_mergeSort fun left _ right _ => ?_).symm
  rw [DataType.cName_folded, DataType.cName_folded]

theorem shape?_folded (types : TypeTable) (shape : ArrayShape) :
    types.folded.shape? shape.folded =
      (types.shape? shape).map fun (dimensions, element) => (dimensions, element.folded) := by
  simp only [shape?, ArrayShape.folded, type?_folded]
  cases types.type? shape.element with
  | none => rfl
  | some element => cases shape.ranges.mapM Range.dimension? <;> rfl

theorem array?_folded (types : TypeTable) (spec : ArraySpec) :
    types.folded.array? spec.folded = (types.array? spec).map DataType.folded := by
  cases spec with
  | named type => simp [array?, ArraySpec.folded]
  | inline shape =>
      simp only [array?, ArraySpec.folded, shape?_folded]
      cases types.shape? shape <;> simp

@[simp] theorem initializer?_folded (types : TypeTable) (initializer : Initializer) :
    types.folded.initializer? initializer.folded =
      (types.initializer? initializer).map DataType.folded := by
  cases initializer with
  | array spec => exact array?_folded types spec
  | simple | string | enumerated | functionBlock =>
      simp [initializer?, Initializer.folded, DataType.folded]

/-- What a declaration means does not depend on the case of its names. -/
theorem declaration?_folded (types : TypeTable) {decl : TypeDecl}
    (unreserved : decl.name.isReserved = false) :
    types.folded.declaration? decl.folded = (types.declaration? decl).map DataType.folded := by
  cases decl with
  | synonym name base => simp [declaration?, TypeDecl.folded, DataType.folded, Function.comp_def]
  | subrange name base range =>
      simp [declaration?, TypeDecl.folded, DataType.folded, Function.comp_def]
  | enumeration name values => simp [declaration?, TypeDecl.folded, DataType.folded]
  | array name shape =>
      have sameName : name.foldedArray = name.folded := by
        rw [Ident.foldedArray, if_neg (Bool.not_eq_true _ ▸ unreserved)]
      simp [declaration?, TypeDecl.folded, shape?_folded, DataType.folded, Function.comp_def,
        sameName]
  | record name fields =>
      have inFields := mapM_folded FieldDecl.folded
        (fun field : Ident × DataType => (field.1.folded, field.2.folded))
        (fun field => (types.initializer? field.initializer).map fun type => (field.name, type))
        (fun field => (types.folded.initializer? field.initializer).map fun type =>
          (field.name, type))
        (fun field => by simp [FieldDecl.folded, Function.comp_def]) fields
      simp only [declaration?, TypeDecl.folded, inFields, Option.map_map]
      congr 1
      funext fields
      simp [DataType.folded, DataType.foldedFields_eq]
  | string name length width => simp [declaration?, TypeDecl.folded, DataType.folded]

/-! ## Building a table -/

def Progress.folded (progress : Progress) : Progress :=
  { types := progress.types.folded
    faults := progress.faults.map Fault.folded
    waiting := progress.waiting.map TypeDecl.folded }

/-- Declarations whose names do not start like those of arrays without a declaration. -/
def Unreserved (decls : List TypeDecl) : Prop := ∀ decl ∈ decls, decl.name.isReserved = false

theorem Progress.step_folded (progress : Progress) {decl : TypeDecl}
    (unreserved : decl.name.isReserved = false) :
    progress.folded.step decl.folded = (progress.step decl).folded := by
  unfold Progress.step
  rw [Progress.folded, declaration?_folded _ unreserved]
  cases progress.types.declaration? decl with
  | none => simp [Progress.folded]
  | some type =>
      simp only [Option.map_some, TypeDecl.name_folded, declare_folded]
      cases progress.types.declare decl.name type <;> simp [foldedResult, Progress.folded]

theorem Progress.foldl_folded {decls : List TypeDecl} (unreserved : Unreserved decls)
    (progress : Progress) :
    (decls.map TypeDecl.folded).foldl Progress.step progress.folded =
      (decls.foldl Progress.step progress).folded := by
  induction decls generalizing progress with
  | nil => rfl
  | cons decl decls ih =>
      rw [List.map_cons, List.foldl_cons, List.foldl_cons,
        Progress.step_folded _ (unreserved decl (List.mem_cons_self ..))]
      exact ih (fun other member => unreserved other (List.mem_cons_of_mem _ member)) _

/-- What waits after a step waited before it, or is the declaration of the step. -/
theorem Progress.unreserved_foldl {decls : List TypeDecl} (unreserved : Unreserved decls)
    {progress : Progress} (waiting : Unreserved progress.waiting) :
    Unreserved (decls.foldl Progress.step progress).waiting := by
  induction decls generalizing progress with
  | nil => exact waiting
  | cons decl decls ih =>
      refine ih (fun other member => unreserved other (List.mem_cons_of_mem _ member)) ?_
      unfold Progress.step
      split
      · intro other member
        rcases List.mem_append.mp member with before | last
        · exact waiting other before
        · rw [List.mem_singleton.mp last]
          exact unreserved decl (List.mem_cons_self ..)
      · split <;> exact waiting

theorem Progress.round_folded {progress : Progress} (unreserved : Unreserved progress.waiting) :
    progress.folded.round = progress.round.folded :=
  Progress.foldl_folded unreserved { progress with waiting := [] }

theorem Progress.rounds_folded (bound : Nat) {progress : Progress}
    (unreserved : Unreserved progress.waiting) :
    Progress.rounds bound progress.folded = (Progress.rounds bound progress).folded := by
  induction bound generalizing progress with
  | zero => rfl
  | succ bound ih =>
      have next : Unreserved progress.round.waiting :=
        Progress.unreserved_foldl unreserved fun decl member => by cases member
      have sameTest : (progress.round.folded.waiting.isEmpty ||
          progress.round.folded.waiting.length == progress.folded.waiting.length) =
          (progress.round.waiting.isEmpty ||
            progress.round.waiting.length == progress.waiting.length) := by
        simp [Progress.folded]
      unfold Progress.rounds
      simp only [Progress.round_folded unreserved, sameTest]
      split
      · rfl
      · exact ih next

/-- The outcome of a table that is done. -/
def Progress.outcome (done : Progress) : Except (List Fault) TypeTable :=
  match done.faults ++ done.waiting.map fun decl => .unresolvedType decl.name with
  | [] => .ok done.types
  | faults => .error faults

theorem Progress.outcome_folded (done : Progress) :
    done.folded.outcome = foldedResults TypeTable.folded done.outcome := by
  have sameFaults : done.folded.faults ++
      (done.folded.waiting.map fun decl => .unresolvedType decl.name) =
      (done.faults ++ done.waiting.map fun decl => Fault.unresolvedType decl.name).map
        Fault.folded := by
    simp [Progress.folded, Function.comp_def, Fault.folded]
  unfold Progress.outcome
  rw [sameFaults]
  cases done.faults ++ done.waiting.map fun decl => .unresolvedType decl.name <;> rfl

theorem build_folded {decls : List TypeDecl} (unreserved : Unreserved decls) :
    build elementary (decls.map TypeDecl.folded) =
      foldedResults TypeTable.folded (build elementary decls) := by
  let start : Progress := { types := elementary, waiting := decls }
  have startFolded : start.folded =
      { types := elementary, waiting := decls.map TypeDecl.folded } := by
    simp [start, Progress.folded, folded_elementary]
  have finished : Progress.rounds (decls.length + 1) start.folded =
      (Progress.rounds (decls.length + 1) start).folded :=
    Progress.rounds_folded _ unreserved
  calc build elementary (decls.map TypeDecl.folded)
      = (Progress.rounds (decls.length + 1) start.folded).outcome := by
        rw [startFolded, build, List.length_map]
        rfl
    _ = foldedResults TypeTable.folded (build elementary decls) := by
        rw [finished, Progress.outcome_folded]
        rfl

end TypeTable

end StructuredText
