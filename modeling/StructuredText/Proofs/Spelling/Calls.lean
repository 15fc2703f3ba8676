import StructuredText.Proofs.Spelling.Types

/-!
# Calls in a folded library

Parameters are found by key, so the arguments of a folded call are bound to the same
parameters and fit them as well.  The functions and function blocks of a folded library
are the folded ones, and the standard ones are in upper case already.
-/

set_option autoImplicit false

namespace StructuredText

/-! ## Signatures -/

def Parameter.folded (parameter : Parameter) : Parameter :=
  { parameter with name := parameter.name.folded, type := parameter.type.folded }

def FunctionSignature.folded (signature : FunctionSignature) : FunctionSignature :=
  { signature with
    name := signature.name.folded
    returnType := signature.returnType.folded
    parameters := signature.parameters.map Parameter.folded }

def BlockSignature.folded (signature : BlockSignature) : BlockSignature :=
  { signature with
    name := signature.name.folded
    parameters := signature.parameters.map Parameter.folded }

namespace Parameter

variable (parameter : Parameter)

@[simp] theorem name_folded : parameter.folded.name = parameter.name.folded := rfl

@[simp] theorem type_folded : parameter.folded.type = parameter.type.folded := rfl

@[simp] theorem direction_folded : parameter.folded.direction = parameter.direction := rfl

@[simp] theorem default_folded : parameter.folded.default = parameter.default := rfl

@[simp] theorem isExtensible_folded : parameter.folded.isExtensible = parameter.isExtensible := rfl

@[simp] theorem isImplicit_folded : parameter.folded.isImplicit = parameter.isImplicit := rfl

@[simp] theorem isInput_folded : parameter.folded.isInput = parameter.isInput := rfl

@[simp] theorem isOutput_folded : parameter.folded.isOutput = parameter.isOutput := rfl

@[simp] theorem position?_folded (name : Ident) :
    parameter.folded.position? name.folded = parameter.position? name := by
  simp [position?]

theorem folded_implicit : implicit.map folded = implicit := by
  have en : ({ name := "EN" } : Ident).folded = { name := "EN" } :=
    Ident.folded_of_upper (by decide +kernel)
  have eno : ({ name := "ENO" } : Ident).folded = { name := "ENO" } :=
    Ident.folded_of_upper (by decide +kernel)
  simp [implicit, Parameter.en, Parameter.eno, folded, en, eno, DataType.folded]

end Parameter

@[simp] theorem FunctionSignature.returnType_folded (signature : FunctionSignature) :
    signature.folded.returnType = signature.returnType.folded := rfl

@[simp] theorem FunctionSignature.hasExtensible_folded (signature : FunctionSignature) :
    signature.folded.hasExtensible = signature.hasExtensible := by
  simp [FunctionSignature.hasExtensible, FunctionSignature.folded, Function.comp_def]

theorem FunctionSignature.distinguishing_folded (signature : FunctionSignature) :
    signature.folded.distinguishing = signature.distinguishing.map Parameter.folded := by
  have explicit : signature.folded.explicit = signature.explicit.map Parameter.folded := by
    simp [FunctionSignature.explicit, FunctionSignature.folded, List.filter_map, Function.comp_def]
  unfold FunctionSignature.distinguishing
  simp [explicit, List.filter_map, List.span_eq_takeWhile_dropWhile, List.takeWhile_map,
    List.dropWhile_map, ← List.map_tail, Function.comp_def]

@[simp] theorem FunctionSignature.cName_folded (signature : FunctionSignature)
    (isOverloaded : Bool) : signature.folded.cName isOverloaded = signature.cName isOverloaded := by
  have sameSuffix : signature.folded.overloadSuffix = signature.overloadSuffix := by
    rw [FunctionSignature.overloadSuffix, FunctionSignature.overloadSuffix,
      FunctionSignature.distinguishing_folded]
    simp [FunctionSignature.folded, Function.comp_def]
  unfold FunctionSignature.cName
  rw [sameSuffix]
  simp [FunctionSignature.folded]

@[simp] theorem BlockSignature.find?_folded (signature : BlockSignature) (name : Ident) :
    signature.folded.find? name.folded = (signature.find? name).map Parameter.folded := by
  simp [BlockSignature.find?, BlockSignature.folded, List.find?_map, Function.comp_def]

/-! ## Bound arguments -/

theorem Argument.foldedList_eq (arguments : List Argument) :
    Argument.foldedList arguments = arguments.map Argument.folded := by
  induction arguments with
  | nil => simp [Argument.foldedList]
  | cons argument arguments ih => simp [Argument.foldedList, ih]

def Actual.folded : Actual → Actual
  | input index value => input index value.folded
  | output index target => output index target.folded

def BoundParameter.folded (bound : BoundParameter) : BoundParameter :=
  { bound with
    parameter := bound.parameter.folded
    actual := bound.actual.map Actual.folded }

@[simp] theorem BoundParameter.parameter_folded (bound : BoundParameter) :
    bound.folded.parameter = bound.parameter.folded := rfl

@[simp] theorem BoundParameter.actual_folded (bound : BoundParameter) :
    bound.folded.actual = bound.actual.map Actual.folded := rfl

@[simp] theorem BoundParameter.cName_folded (bound : BoundParameter) :
    bound.folded.cName = bound.cName := by
  simp [BoundParameter.cName, BoundParameter.folded]

@[simp] theorem BoundParameter.hasDestination_folded (bound : BoundParameter) :
    bound.folded.hasDestination = bound.hasDestination := by
  unfold BoundParameter.hasDestination BoundParameter.folded
  rcases bound.actual with _ | _ | _ <;> rfl

def foldedBy {α : Type} (change : α → α) (items : List (Nat × α)) : List (Nat × α) :=
  items.map fun item => (item.1, change item.2)

@[simp] theorem foldedBy_nil {α : Type} (change : α → α) : foldedBy change [] = [] := rfl

@[simp] theorem foldedBy_cons {α : Type} (change : α → α) (item : Nat × α)
    (items : List (Nat × α)) :
    foldedBy change (item :: items) = (item.1, change item.2) :: foldedBy change items := rfl

theorem lookup_foldedBy {α : Type} (change : α → α) (items : List (Nat × α)) (number : Nat) :
    (foldedBy change items).lookup number = (items.lookup number).map change := by
  induction items with
  | nil => rfl
  | cons item items ih =>
      rw [foldedBy, List.map_cons, List.lookup_cons, List.lookup_cons]
      split
      · rfl
      · exact ih

namespace Binding

def folded (binding : Binding) : Binding :=
  { binding with parameters := binding.parameters.map BoundParameter.folded }

@[simp] theorem hasDestination_folded (binding : Binding) :
    binding.folded.hasDestination = binding.hasDestination := by
  simp [hasDestination, folded, Function.comp_def]

def Sorted.folded (sorted : Sorted) : Sorted :=
  { named := foldedBy Actual.folded sorted.named
    grouped := foldedBy Actual.folded sorted.grouped
    positional := foldedBy Expr.folded sorted.positional }

@[simp] theorem inputIndex?_folded (parameters : List Parameter) (name : Ident) :
    inputIndex? (parameters.map Parameter.folded) name.folded = inputIndex? parameters name := by
  simp [inputIndex?, List.findIdx?_map, Function.comp_def]

@[simp] theorem outputIndex?_folded (parameters : List Parameter) (name : Ident) :
    outputIndex? (parameters.map Parameter.folded) name.folded = outputIndex? parameters name := by
  simp [outputIndex?, List.findIdx?_map, Function.comp_def]

theorem Sorted.add_folded (parameters : List Parameter) (arguments : List Argument) :
    ∀ (index : Nat) (sorted : Sorted),
      Sorted.add (parameters.map Parameter.folded) index sorted.folded
          (arguments.map Argument.folded) =
        foldedResult Sorted.folded (Sorted.add parameters index sorted arguments) := by
  induction arguments with
  | nil => exact fun _ _ => rfl
  | cons argument arguments ih =>
      intro index sorted
      have positions (name : Ident) :
          ((parameters.map Parameter.folded).findSome? fun parameter =>
            parameter.position? name.folded) =
          parameters.findSome? fun parameter => parameter.position? name := by
        simp [List.findSome?_map, Function.comp_def]
      rw [List.map_cons]
      cases argument with
      | positional value =>
          rw [Argument.folded, Sorted.add, Sorted.add, ← ih]
          simp [Sorted.folded, foldedBy]
      | named name value =>
          rw [Argument.folded, Sorted.add, Sorted.add, inputIndex?_folded]
          split
          · rw [← ih]
            rfl
          · rw [positions]
            split
            · rw [← ih]
              rfl
            · rfl
      | output isNegated source target =>
          rw [Argument.folded, Sorted.add, Sorted.add, outputIndex?_folded]
          split
          · rw [← ih]
            rfl
          · rfl

@[simp] theorem highest_folded (grouped : List (Nat × Actual)) :
    highest (foldedBy Actual.folded grouped) = highest grouped := by
  simp [highest, foldedBy, List.foldl_map]

theorem group_folded (parameter : Parameter) (grouped : List (Nat × Actual))
    (positional : List (Nat × Expr)) :
    group parameter.folded (foldedBy Actual.folded grouped) (foldedBy Expr.folded positional) =
      (group parameter grouped positional).map BoundParameter.folded := by
  have named : ∀ index, (foldedBy Actual.folded grouped).lookup (index + 1) =
      (grouped.lookup (index + 1)).map Actual.folded := fun index => lookup_foldedBy ..
  unfold group
  rw [highest_folded, List.map_append]
  congr 1
  · simp [named, BoundParameter.folded]
  · apply List.ext_getElem?
    intro index
    simp only [foldedBy, List.getElem?_mapIdx, List.getElem?_map, Option.map_map]
    rfl

def foldedSpread (result : List BoundParameter × Nat × List (Nat × Expr)) :
    List BoundParameter × Nat × List (Nat × Expr) :=
  (result.1.map BoundParameter.folded, result.2.1, foldedBy Expr.folded result.2.2)

theorem spread_folded (sorted : Sorted) (parameters : List Parameter) :
    ∀ (slot : Nat) (positional : List (Nat × Expr)) (count : Nat),
      spread sorted.folded slot (foldedBy Expr.folded positional) count
          (parameters.map Parameter.folded) =
        foldedSpread (spread sorted slot positional count parameters) := by
  induction parameters with
  | nil => exact fun _ _ _ => rfl
  | cons parameter parameters ih =>
      intro slot positional count
      have named : sorted.folded.named.lookup slot =
          (sorted.named.lookup slot).map Actual.folded := lookup_foldedBy ..
      have members : group parameter.folded sorted.folded.grouped
          (foldedBy Expr.folded positional) =
          (group parameter sorted.grouped positional).map BoundParameter.folded := group_folded ..
      have noneLeft := fun count => ih (slot + 1) [] count
      rw [foldedBy_nil] at noneLeft
      rw [List.map_cons]
      unfold spread
      simp only [Parameter.isExtensible_folded, Parameter.isImplicit_folded,
        Parameter.isInput_folded, named, members, List.length_map]
      split
      · rw [noneLeft]
        simp [foldedSpread]
      · cases sorted.named.lookup slot with
        | some actual =>
            simp only [Option.map_some, ih]
            rfl
        | none =>
            simp only [Option.map_none]
            by_cases isOpen : (!parameter.isImplicit && parameter.isInput) = true
            · simp only [isOpen, if_true]
              cases positional with
              | nil =>
                  simp only [foldedBy_nil, noneLeft]
                  rfl
              | cons first positional =>
                  simp only [foldedBy_cons, ih]
                  rfl
            · simp only [isOpen, ih]
              rfl

@[simp] theorem leftoverSpan_folded (expr : Expr) :
    leftoverSpan expr.folded = leftoverSpan expr := by
  cases expr <;> simp [Expr.folded, leftoverSpan]

/-- Folded arguments are bound to the parameters that the arguments are bound to. -/
theorem make_folded (parameters : List Parameter) (arguments : List Argument) :
    make (parameters.map Parameter.folded) (Argument.foldedList arguments) =
      foldedResult Binding.folded (make parameters arguments) := by
  rw [Argument.foldedList_eq]
  unfold make
  refine foldedResult_bind (Sorted.add_folded parameters arguments 0 {}) fun sorted => ?_
  rw [show sorted.folded.positional = foldedBy Expr.folded sorted.positional from rfl,
    spread_folded]
  cases spread sorted 0 sorted.positional 0 parameters with
  | mk bound result =>
      cases result with
      | mk count left =>
          cases left with
          | nil => rfl
          | cons first left => simp [foldedSpread, foldedResult, Fault.folded]

end Binding

/-! ## Choosing a declaration -/

@[simp] theorem matchScore?_folded (parameter argument : DataType) :
    matchScore? parameter.folded argument.folded = matchScore? parameter argument := by
  unfold matchScore?
  simp only [DataType.resolved_folded, DataType.elementary?_folded, DataType.accepts_folded]
  cases argument.resolved <;> rfl

def foldedTypes (types : List (Option DataType)) : List (Option DataType) :=
  types.map (Option.map DataType.folded)

theorem getElem?_foldedTypes (types : List (Option DataType)) (index : Nat) :
    (foldedTypes types)[index]?.join = types[index]?.join.map DataType.folded := by
  rw [foldedTypes, List.getElem?_map]
  rcases types[index]? with _ | _ | _ <;> rfl

theorem BoundParameter.score?_folded (types : List (Option DataType)) (bound : BoundParameter) :
    bound.folded.score? (foldedTypes types) = bound.score? types := by
  unfold BoundParameter.score? BoundParameter.folded
  rcases bound.actual with _ | ⟨index, value⟩ | ⟨index, target⟩
  · rfl
  · simp [Actual.folded, getElem?_foldedTypes, Option.bind_map]
  · simp [Actual.folded, getElem?_foldedTypes, Option.bind_map]

theorem Binding.score?_folded (types : List (Option DataType)) (binding : Binding) :
    binding.folded.score? (foldedTypes types) = binding.score? types := by
  have scores := mapM_folded BoundParameter.folded id (BoundParameter.score? types)
    (BoundParameter.score? (foldedTypes types))
    (fun bound => by simp [BoundParameter.score?_folded]) binding.parameters
  simp [Binding.score?, Binding.folded, scores]

namespace CallResolution

def folded (resolution : CallResolution) : CallResolution :=
  { resolution with signature := resolution.signature.folded }

@[simp] theorem signature_folded (resolution : CallResolution) :
    resolution.folded.signature = resolution.signature.folded := rfl

@[simp] theorem count_folded (resolution : CallResolution) :
    resolution.folded.count = resolution.count := rfl

@[simp] theorem isOverloaded_folded (resolution : CallResolution) :
    resolution.folded.isOverloaded = resolution.isOverloaded := rfl

def Candidate.folded (candidate : Candidate) : Candidate :=
  { candidate with signature := candidate.signature.folded }

theorem candidate?_folded (arguments : List Argument) (types : List (Option DataType))
    (signature : FunctionSignature) :
    candidate? (Argument.foldedList arguments) (foldedTypes types) signature.folded =
      (candidate? arguments types signature).map Candidate.folded := by
  unfold candidate?
  rw [FunctionSignature.folded, Binding.make_folded]
  cases Binding.make signature.parameters arguments with
  | error fault => rfl
  | ok binding =>
      simp [foldedResult, Binding.score?_folded, Function.comp_def]
      rfl

theorem best?_folded (candidates : List Candidate) :
    best? (candidates.map Candidate.folded) = (best? candidates).map Candidate.folded := by
  unfold best?
  rw [List.foldl_map]
  change List.foldl _ (Option.map Candidate.folded none) candidates = _
  refine List.foldl_hom (Option.map Candidate.folded) fun best candidate => ?_
  cases best with
  | none => rfl
  | some leader =>
      by_cases better : leader.score < candidate.score <;>
        simp [better, Candidate.folded]

theorem bindingFault?_folded (arguments : List Argument) (overloads : List FunctionSignature) :
    bindingFault? (Argument.foldedList arguments) (overloads.map FunctionSignature.folded) =
      (bindingFault? arguments overloads).map Fault.folded := by
  unfold bindingFault?
  induction overloads with
  | nil => rfl
  | cons signature overloads ih =>
      have made : Binding.make signature.folded.parameters (Argument.foldedList arguments) =
          foldedResult Binding.folded (Binding.make signature.parameters arguments) :=
        Binding.make_folded ..
      rw [List.map_cons, List.findSome?_cons, List.findSome?_cons, made, ih]
      cases Binding.make signature.parameters arguments <;> rfl

theorem resolve_folded (name : Ident) (overloads : List FunctionSignature)
    (arguments : List Argument) (types : List (Option DataType)) :
    resolve name.folded (overloads.map FunctionSignature.folded) (Argument.foldedList arguments)
        (foldedTypes types) =
      foldedResult CallResolution.folded (resolve name overloads arguments types) := by
  have candidates : (overloads.map FunctionSignature.folded).filterMap
      (candidate? (Argument.foldedList arguments) (foldedTypes types)) =
      (overloads.filterMap (candidate? arguments types)).map Candidate.folded := by
    rw [List.filterMap_map, List.map_filterMap]
    congr 1
    funext signature
    exact candidate?_folded arguments types signature
  unfold resolve
  rw [candidates, best?_folded, bindingFault?_folded, List.length_map]
  cases best? (overloads.filterMap (candidate? arguments types)) with
  | some best => rfl
  | none =>
      simp only [Option.map_none]
      split
      · rfl
      · cases bindingFault? arguments overloads <;> rfl

end CallResolution

/-! ## The functions of a library -/

section Declarations

variable (types : TypeTable) (blocks : List Ident)

theorem VarDecl.type_folded (decl : VarDecl) :
    decl.folded.type types.folded (blocks.map Ident.folded) =
      foldedResult DataType.folded (decl.type types blocks) := by
  have block (type : Ident) :
      (if (blocks.map Ident.folded).contains type.folded then
        (.ok (.functionBlock type.folded) : Except Fault DataType)
      else .error (.undeclaredVariableType type.folded)) =
      foldedResult DataType.folded (if blocks.contains type then .ok (.functionBlock type)
        else .error (.undeclaredVariableType type)) := by
    rw [Ident.contains_folded]
    split <;> simp [foldedResult, DataType.folded, Fault.folded]
  have noName : ({ name := "?" } : Ident).folded = { name := "?" } :=
    Ident.folded_of_upper (by decide +kernel)
  have sameName : decl.name.folded.ident?.getD { name := "?" } =
      (decl.name.ident?.getD { name := "?" }).folded := by
    rw [VarName.ident?_folded]
    cases decl.name.ident? <;> simp [noName]
  have found := types.initializer?_folded decl.initializer
  unfold VarDecl.type
  cases start : decl.initializer with
  | simple type value =>
      simp only [VarDecl.folded, start, Initializer.folded, TypeTable.type?_folded]
      cases types.type? type with
      | some found => rfl
      | none => exact block type
  | functionBlock type =>
      simp only [VarDecl.folded, start, Initializer.folded]
      exact block type
  | string | enumerated | array =>
      simp only [start, Initializer.folded] at found
      simp only [VarDecl.folded, start, Initializer.folded, found, sameName]
      cases types.initializer? _ <;> rfl

@[simp] theorem VarDecl.default?_folded (decl : VarDecl) :
    decl.folded.default? = decl.default? := by
  unfold VarDecl.default? VarDecl.folded
  cases decl.initializer <;> rfl

theorem VarDecl.parameter?_folded (decl : VarDecl) :
    decl.folded.parameter? types.folded (blocks.map Ident.folded) =
      (decl.parameter? types blocks).map (foldedResult Parameter.folded) := by
  unfold VarDecl.parameter?
  rw [VarDecl.kind_folded, VarDecl.name_folded, VarName.ident?_folded, VarDecl.type_folded,
    VarDecl.default?_folded]
  cases decl.kind.direction? with
  | none => rfl
  | some direction =>
      cases decl.name.ident? with
      | none => rfl
      | some name => cases decl.type types blocks <;> rfl

theorem collect_folded {α : Type} (change : α → α) (results : List (Except Fault α)) :
    collect (results.map (foldedResult change)) =
      foldedResults (List.map change) (collect results) := by
  induction results with
  | nil => rfl
  | cons result results ih =>
      cases result with
      | ok value =>
          simp only [List.map_cons, foldedResult, collect, ih]
          cases collect results <;> rfl
      | error fault =>
          simp only [List.map_cons, foldedResult, collect, ih]
          cases collect results <;> rfl

theorem parametersOf_folded (vars : List VarDecl) :
    parametersOf types.folded (blocks.map Ident.folded) (vars.map VarDecl.folded) =
      foldedResults (List.map Parameter.folded) (parametersOf types blocks vars) := by
  have results : (vars.map VarDecl.folded).filterMap
      (VarDecl.parameter? types.folded (blocks.map Ident.folded)) =
      (vars.filterMap (VarDecl.parameter? types blocks)).map (foldedResult Parameter.folded) := by
    rw [List.filterMap_map, List.map_filterMap]
    congr 1
    funext decl
    exact decl.parameter?_folded types blocks
  unfold parametersOf
  rw [results, collect_folded]
  cases collect (vars.filterMap (VarDecl.parameter? types blocks)) with
  | error faults => rfl
  | ok parameters => simp [foldedResults, Except.map, Parameter.folded_implicit]

theorem FunctionDecl.signature_folded (decl : FunctionDecl) :
    decl.folded.signature types.folded (blocks.map Ident.folded) =
      foldedResults FunctionSignature.folded (decl.signature types blocks) := by
  unfold FunctionDecl.signature
  simp only [FunctionDecl.folded, TypeTable.type?_folded, parametersOf_folded]
  cases types.type? decl.returnType with
  | none => rfl
  | some returnType => cases parametersOf types blocks decl.vars <;> rfl

theorem FunctionBlockDecl.signature_folded (decl : FunctionBlockDecl) :
    decl.folded.signature types.folded (blocks.map Ident.folded) =
      foldedResults BlockSignature.folded (decl.signature types blocks) := by
  unfold FunctionBlockDecl.signature
  simp only [FunctionBlockDecl.folded, parametersOf_folded]
  cases parametersOf types blocks decl.vars <;> rfl

end Declarations

namespace FunctionTable

def folded (table : FunctionTable) : FunctionTable :=
  { functions := table.functions.folded (List.map FunctionSignature.folded)
    blocks := table.blocks.folded BlockSignature.folded }

@[simp] theorem overloads?_folded (table : FunctionTable) (name : Ident) :
    table.folded.overloads? name.folded =
      (table.overloads? name).map (List.map FunctionSignature.folded) :=
  Table.get?_folded ..

@[simp] theorem block?_folded (table : FunctionTable) (name : Ident) :
    table.folded.block? name.folded = (table.block? name).map BlockSignature.folded :=
  Table.get?_folded ..

@[simp] theorem isOverloaded_folded (table : FunctionTable) (name : Ident) :
    table.folded.isOverloaded name.folded = table.isOverloaded name := by
  unfold isOverloaded
  rw [overloads?_folded]
  cases table.overloads? name <;> simp

theorem addFunction_folded (table : FunctionTable) (signature : FunctionSignature) :
    table.folded.addFunction signature.folded = (table.addFunction signature).folded := by
  have overloads : (table.folded.overloads? signature.folded.name).getD [] ++ [signature.folded] =
      (((table.overloads? signature.name).getD []) ++ [signature]).map
        FunctionSignature.folded := by
    rw [FunctionSignature.folded, overloads?_folded]
    cases table.overloads? signature.name <;> simp [FunctionSignature.folded]
  unfold addFunction
  rw [overloads]
  simp only [folded, ← Table.folded_insert]
  rfl

theorem addBlock_folded (table : FunctionTable) (signature : BlockSignature) :
    table.folded.addBlock signature.folded =
      foldedResult FunctionTable.folded (table.addBlock signature) := by
  have found : table.folded.block? signature.folded.name =
      (table.block? signature.name).map BlockSignature.folded := block?_folded ..
  unfold addBlock
  rw [found]
  cases table.block? signature.name with
  | some first => rfl
  | none =>
      simp only [Option.map_none, foldedResult, folded, ← Table.folded_push]
      rfl

def Progress.folded (progress : Progress) : Progress :=
  { table := progress.table.folded, faults := progress.faults.map Fault.folded }

theorem Progress.take_folded (progress : Progress) (result : Except (List Fault) FunctionTable) :
    progress.folded.take (foldedResults FunctionTable.folded result) =
      (progress.take result).folded := by
  cases result <;> simp [foldedResults, Progress.take, Progress.folded]

theorem Progress.step_folded (types : TypeTable) (blocks : List Ident) (progress : Progress)
    (element : Element) :
    progress.folded.step types.folded (blocks.map Ident.folded) element.folded =
      (progress.step types blocks element).folded := by
  cases element with
  | function decl =>
      simp only [Element.folded, Progress.step, FunctionDecl.signature_folded]
      rw [← Progress.take_folded]
      congr 1
      cases decl.signature types blocks with
      | error faults => rfl
      | ok signature => exact congrArg Except.ok (addFunction_folded progress.table signature)
  | functionBlock decl =>
      simp only [Element.folded, Progress.step]
      rw [← Progress.take_folded]
      congr 1
      refine foldedResults_bind (decl.signature_folded types blocks) fun signature => ?_
      have added := addBlock_folded progress.table signature
      rw [Progress.folded, added]
      cases progress.table.addBlock signature <;> rfl
  | type decl => rfl
  | program decl => rfl
  | pragma directive => rfl

theorem Progress.foldl_folded (types : TypeTable) (blocks : List Ident) (elements : List Element)
    (progress : Progress) :
    (elements.map Element.folded).foldl
        (Progress.step types.folded (blocks.map Ident.folded)) progress.folded =
      (elements.foldl (Progress.step types blocks) progress).folded := by
  induction elements generalizing progress with
  | nil => rfl
  | cons element elements ih =>
      rw [List.map_cons, List.foldl_cons, List.foldl_cons, Progress.step_folded]
      exact ih _

end FunctionTable

/-! ## The standard declarations -/

@[simp] theorem Parameter.folded_input (name : String) (type : Elementary) :
    (Parameter.input name type).folded = Parameter.input name.toUpper type := by
  rw [Parameter.input, Parameter.folded, DataType.folded]
  rfl

@[simp] theorem Parameter.folded_output (name : String) (type : Elementary) :
    (Parameter.output name type).folded = Parameter.output name.toUpper type := by
  rw [Parameter.output, Parameter.folded, DataType.folded]
  rfl

@[simp] theorem Parameter.folded_extensible (name : String) (type : Elementary) :
    (Parameter.extensible name type).folded = Parameter.extensible name.toUpper type := by
  rw [Parameter.extensible, Parameter.folded, DataType.folded]
  rfl

@[simp] theorem FunctionSignature.folded_standard (name : String) (type : Elementary)
    (parameters : List Parameter) :
    (FunctionSignature.standard { name } (.elementary type) parameters).folded =
      .standard { name := name.toUpper } (.elementary type)
        (parameters.map Parameter.folded) := by
  rw [FunctionSignature.standard, FunctionSignature.folded, DataType.folded, List.map_append,
    Parameter.folded_implicit]
  rfl

@[simp] theorem BlockSignature.folded_standard (name : String) (parameters : List Parameter) :
    (BlockSignature.standard { name } parameters).folded =
      .standard { name := name.toUpper } (parameters.map Parameter.folded) := by
  rw [BlockSignature.standard, BlockSignature.folded, List.map_append, Parameter.folded_implicit]
  rfl

namespace Standard

theorem upper_functions : ∀ name ∈
    ["ADD", "MUL", "ABS", "SQRT", "EXPT", "AND", "OR", "XOR", "MAX", "MIN", "SEL", "LIMIT", "MUX",
      "_TO_", "IN", "IN0", "IN1", "IN2", "G", "MN", "MX", "K"], name.toUpper = name := by
  decide +kernel

theorem upper_blocks : ∀ name ∈
    ["TON", "TOF", "TP", "CTU", "CTD", "R_TRIG", "F_TRIG", "SR", "RS", "IN", "PT", "Q", "ET",
      "CLK", "PV", "CV", "Q1", "CU", "R", "CD", "LD", "S1", "S", "R1"], name.toUpper = name := by
  decide +kernel

theorem folded_functions (withConversions : Bool) :
    (functions withConversions).map FunctionSignature.folded = functions withConversions := by
  have upper := upper_functions
  simp only [List.forall_mem_cons] at upper
  have selections (type : Elementary) :
      (selection type).map FunctionSignature.folded = selection type := by
    simp [selection, upper]
  have converted : conversions.map FunctionSignature.folded = conversions := by
    simp [conversions, List.map_flatMap, Function.comp_def, toUpper_append,
      Elementary.cName_toUpper, upper]
  cases withConversions <;>
    simp [functions, extensible, unary, List.map_flatMap, Function.comp_def, upper, selections,
      converted]

theorem folded_blocks : blocks.map BlockSignature.folded = blocks := by
  have upper := upper_blocks
  simp only [List.forall_mem_cons] at upper
  simp [blocks, timer, counter, edge, latch, upper]

end Standard

namespace FunctionTable

theorem foldl_addFunction_folded (signatures : List FunctionSignature) (table : FunctionTable) :
    (signatures.map FunctionSignature.folded).foldl addFunction table.folded =
      (signatures.foldl addFunction table).folded := by
  induction signatures generalizing table with
  | nil => rfl
  | cons signature signatures ih =>
      rw [List.map_cons, List.foldl_cons, List.foldl_cons, addFunction_folded]
      exact ih _

theorem folded_standard (withConversions : Bool) :
    (standard withConversions).folded = standard withConversions := by
  have functions := foldl_addFunction_folded (Standard.functions withConversions) {}
  rw [Standard.folded_functions] at functions
  have blocks : (Standard.blocks.map fun block => (block.name, block)).map
      (fun entry => (entry.1.folded, entry.2.folded)) =
      Standard.blocks.map fun block => (block.name, block) := by
    conv_rhs => rw [← Standard.folded_blocks]
    simp [Function.comp_def, BlockSignature.folded]
  unfold standard
  rw [folded]
  congr 1
  · exact (congrArg FunctionTable.functions functions).symm
  · exact congrArg Table.mk blocks

@[simp] theorem blockNames_folded (library : Library) :
    blockNames library.folded = (blockNames library).map Ident.folded := by
  have standard : Standard.blocks.map BlockSignature.name =
      (Standard.blocks.map BlockSignature.name).map Ident.folded := by
    conv_lhs => rw [← Standard.folded_blocks]
    simp [Function.comp_def, BlockSignature.folded]
  rw [blockNames, blockNames, List.map_append, ← standard, Library.functionBlocks_folded]
  simp [Function.comp_def, FunctionBlockDecl.folded]

theorem build_folded (withConversions : Bool) (types : TypeTable) (library : Library) :
    build (standard withConversions) types.folded library.folded =
      foldedResults FunctionTable.folded (build (standard withConversions) types library) := by
  have started : Progress.folded { table := standard withConversions } =
      { table := standard withConversions } := by
    simp [Progress.folded, folded_standard]
  have finished := Progress.foldl_folded types (blockNames library) library.elements
    { table := standard withConversions }
  rw [started] at finished
  unfold build
  rw [blockNames_folded, Library.folded]
  dsimp only
  rw [finished, Progress.folded]
  cases (library.elements.foldl (Progress.step types (blockNames library))
    { table := standard withConversions }).faults <;> rfl

end FunctionTable

/-! ## The context of a library -/

namespace Context

def folded (context : Context) : Context :=
  { types := context.types.folded
    functions := context.functions.folded
    blocks := context.blocks.map Ident.folded }

@[simp] theorem types_folded (context : Context) : context.folded.types = context.types.folded :=
  rfl

@[simp] theorem functions_folded (context : Context) :
    context.folded.functions = context.functions.folded := rfl

theorem resolve_folded {library : Library} (unreserved : TypeTable.Unreserved library.typeDecls)
    (withConversions : Bool) :
    resolve library.folded withConversions =
      foldedResults Context.folded (resolve library withConversions) := by
  unfold resolve
  rw [Library.typeDecls_folded]
  refine foldedResults_bind (TypeTable.build_folded unreserved) fun types => ?_
  refine foldedResults_bind (FunctionTable.build_folded withConversions types library)
    fun functions => ?_
  rw [make, FunctionTable.blockNames_folded]
  rfl

@[simp] theorem typeOf_folded (context : Context) (decl : VarDecl) :
    context.folded.typeOf decl.folded = foldedResult DataType.folded (context.typeOf decl) :=
  VarDecl.type_folded ..

end Context

end StructuredText
