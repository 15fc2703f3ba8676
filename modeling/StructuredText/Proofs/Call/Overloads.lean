import Mathlib.Data.List.Forall2
import Mathlib.Data.List.Induction
import StructuredText.Compile
import StructuredText.Proofs.Types.Origin

/-!
# The declarations of a function, in order

The function table keeps the declarations of a name in the order in which they were
added: the standard ones first, then those of the library in source order.  A
signature of the table therefore belongs to one declaration of the library, or comes
with the compiler.
-/

set_option autoImplicit false

namespace StructuredText

/-! ## Signatures -/

theorem collect_ok {α : Type} {results : List (Except Fault α)} {values : List α}
    (success : collect results = .ok values) : results = values.map .ok := by
  induction results generalizing values with
  | nil =>
      cases success
      rfl
  | cons result results ih =>
      cases result with
      | error fault =>
          unfold collect at success
          split at success <;> cases success
      | ok value =>
          unfold collect at success
          obtain ⟨rest, restCollected, rfl⟩ := map_eq_ok success
          rw [ih restCollected]
          rfl

theorem parametersOf_ok {types : TypeTable} {blocks : List Ident} {vars : List VarDecl}
    {parameters : List Parameter} (success : parametersOf types blocks vars = .ok parameters) :
    ∃ declared, parameters = Parameter.implicit ++ declared ∧
      vars.filterMap (VarDecl.parameter? types blocks) = declared.map .ok := by
  obtain ⟨declared, collected, rfl⟩ := map_eq_ok success
  exact ⟨declared, rfl, collect_ok collected⟩

theorem Parameter.elementary_of_implicit {parameter : Parameter}
    (isImplicit : parameter ∈ Parameter.implicit) :
    parameter.isExtensible = false ∧ ∃ type, parameter.type = .elementary type := by
  simp only [Parameter.implicit, List.mem_cons, List.not_mem_nil, or_false] at isImplicit
  rcases isImplicit with rfl | rfl <;> exact ⟨rfl, _, rfl⟩

/-- A parameter is implicit and has an elementary type, or a variable declares it. -/
theorem parameter_of_parametersOf {types : TypeTable} {blocks : List Ident}
    {vars : List VarDecl} {parameters : List Parameter}
    (made : parametersOf types blocks vars = .ok parameters) :
    ∀ parameter ∈ parameters, parameter.isExtensible = false ∧
      ((∃ type, parameter.type = .elementary type) ∨
        ∃ decl ∈ vars, decl.type types blocks = .ok parameter.type) := by
  obtain ⟨explicit, rfl, fromVars⟩ := parametersOf_ok made
  intro parameter member
  rcases List.mem_append.mp member with isImplicit | isExplicit
  · exact (Parameter.elementary_of_implicit isImplicit).imp_right .inl
  · have fromVar : Except.ok parameter ∈ vars.filterMap (VarDecl.parameter? types blocks) := by
      rw [fromVars]
      exact List.mem_map_of_mem isExplicit
    obtain ⟨decl, isDecl, declares⟩ := List.mem_filterMap.mp fromVar
    obtain ⟨direction, -, declares⟩ := Option.bind_eq_some_iff.mp declares
    obtain ⟨name, -, declares⟩ := Option.bind_eq_some_iff.mp declares
    obtain ⟨type, typed, rfl⟩ := map_eq_ok (Option.some.inj declares)
    exact ⟨rfl, .inr ⟨decl, isDecl, typed⟩⟩

theorem FunctionDecl.signature_ok {types : TypeTable} {blocks : List Ident} {decl : FunctionDecl}
    {signature : FunctionSignature} (success : decl.signature types blocks = .ok signature) :
    signature.name = decl.name ∧ signature.span = decl.name.span ∧
      types.type? decl.returnType = some signature.returnType ∧
      parametersOf types blocks decl.vars = .ok signature.parameters := by
  unfold FunctionDecl.signature at success
  cases found : types.type? decl.returnType with
  | none => rw [found] at success; cases success
  | some returnType =>
      rw [found] at success
      obtain ⟨parameters, collected, rfl⟩ := map_eq_ok success
      exact ⟨rfl, rfl, rfl, collected⟩

theorem collect_error_ne_nil {α : Type} {results : List (Except Fault α)} {faults : List Fault}
    (failed : collect results = .error faults) : faults ≠ [] := by
  induction results generalizing faults with
  | nil => cases failed
  | cons result results ih =>
      unfold collect at failed
      cases result with
      | ok value => exact ih (map_eq_error failed)
      | error fault =>
          dsimp only at failed
          split at failed <;> cases failed <;> simp

theorem parametersOf_error_ne_nil {types : TypeTable} {blocks : List Ident} {vars : List VarDecl}
    {faults : List Fault} (failed : parametersOf types blocks vars = .error faults) :
    faults ≠ [] :=
  collect_error_ne_nil (map_eq_error failed)

theorem FunctionDecl.signature_error_ne_nil {types : TypeTable} {blocks : List Ident}
    {decl : FunctionDecl} {faults : List Fault}
    (failed : decl.signature types blocks = .error faults) : faults ≠ [] := by
  unfold FunctionDecl.signature at failed
  split at failed
  · cases failed
    simp
  · exact parametersOf_error_ne_nil (map_eq_error failed)

theorem FunctionBlockDecl.signature_error_ne_nil {types : TypeTable} {blocks : List Ident}
    {decl : FunctionBlockDecl} {faults : List Fault}
    (failed : decl.signature types blocks = .error faults) : faults ≠ [] :=
  parametersOf_error_ne_nil (map_eq_error failed)

/-! ## The order of declarations -/

namespace FunctionTable

/-- The declarations of a name, none if there is no function of the name. -/
def declarationsOf (table : FunctionTable) (name : Ident) : List FunctionSignature :=
  (table.overloads? name).getD []

theorem overloads?_of_mem {table : FunctionTable} {name : Ident} {signature : FunctionSignature}
    (isDeclared : signature ∈ table.declarationsOf name) :
    table.overloads? name = some (table.declarationsOf name) := by
  unfold declarationsOf at isDeclared ⊢
  cases declared : table.overloads? name with
  | none => rw [declared] at isDeclared; cases isDeclared
  | some overloads => rfl

theorem isOverloaded_iff {table : FunctionTable} {name : Ident} :
    table.isOverloaded name = true ↔ 1 < (table.declarationsOf name).length := by
  unfold isOverloaded declarationsOf
  cases table.overloads? name <;> simp

theorem declarationsOf_addFunction (table : FunctionTable) (signature : FunctionSignature)
    (name : Ident) :
    (table.addFunction signature).declarationsOf name =
      table.declarationsOf name ++ [signature].filter fun added => added.name == name := by
  unfold declarationsOf overloads? addFunction
  rw [Table.get?_insert]
  cases same : signature.name == name with
  | false => simp [same]
  | true => simp [same, overloads?, Table.get?_congr table.functions same]

theorem declarationsOf_addBlock {table after : FunctionTable} {signature : BlockSignature}
    (added : table.addBlock signature = .ok after) (name : Ident) :
    after.declarationsOf name = table.declarationsOf name := by
  unfold addBlock at added
  split at added
  · cases added
  · cases added
    rfl

theorem declarationsOf_foldl (signatures : List FunctionSignature) (name : Ident) :
    ∀ table : FunctionTable, (signatures.foldl addFunction table).declarationsOf name =
      table.declarationsOf name ++ signatures.filter fun added => added.name == name := by
  induction signatures with
  | nil => intro table; simp
  | cons signature signatures ih =>
      intro table
      rw [List.foldl_cons, ih, declarationsOf_addFunction, List.append_assoc,
        ← List.filter_append]
      rfl

theorem declarationsOf_standard (withConversions : Bool) (name : Ident) :
    (standard withConversions).declarationsOf name =
      (Standard.functions withConversions).filter fun signature => signature.name == name := by
  have added := declarationsOf_foldl (Standard.functions withConversions) name {}
  unfold standard
  rw [declarationsOf, overloads?] at added ⊢
  rw [added]
  rfl

theorem Progress.take_faultless {progress : Progress}
    {result : Except (List Fault) FunctionTable}
    (reasons : ∀ faults, result = .error faults → faults ≠ [])
    (faultless : (progress.take result).faults = []) :
    ∃ table, result = .ok table ∧ progress.faults = [] := by
  cases result with
  | ok table => exact ⟨table, rfl, faultless⟩
  | error faults =>
      have none := (List.append_eq_nil_iff.mp faultless).2
      exact absurd none (reasons faults rfl)

/-- What one element adds, if the table is still without faults afterwards. -/
theorem Progress.step_faultless {types : TypeTable} {blocks : List Ident} {progress : Progress}
    {element : Element} (faultless : (progress.step types blocks element).faults = []) :
    progress.faults = [] ∧
      ∃ signatures, List.Forall₂
          (fun decl signature => FunctionDecl.signature types blocks decl = .ok signature)
          (Library.functions { elements := [element] }) signatures ∧
        ∀ name, (progress.step types blocks element).table.declarationsOf name =
          progress.table.declarationsOf name ++
            signatures.filter fun added => added.name == name := by
  cases element with
  | function decl =>
      have reasons : ∀ faults,
          (decl.signature types blocks).map progress.table.addFunction = .error faults →
            faults ≠ [] :=
        fun faults failed => FunctionDecl.signature_error_ne_nil (map_eq_error failed)
      obtain ⟨table, added, clean⟩ := Progress.take_faultless reasons faultless
      obtain ⟨signature, found, rfl⟩ := map_eq_ok added
      refine ⟨clean, [signature], .cons found .nil, fun name => ?_⟩
      rw [Progress.step, added]
      exact declarationsOf_addFunction progress.table signature name
  | functionBlock decl =>
      obtain ⟨table, added, clean⟩ := Progress.take_faultless
        (by
          intro faults failed
          cases found : decl.signature types blocks with
          | error others =>
              rw [found] at failed
              cases failed
              exact FunctionBlockDecl.signature_error_ne_nil found
          | ok signature =>
              rw [found] at failed
              simp only [bind, Except.bind] at failed
              split at failed <;> cases failed
              simp)
        faultless
      refine ⟨clean, [], .nil, fun name => ?_⟩
      rw [Progress.step, added]
      obtain ⟨signature, found, added⟩ := bind_eq_ok added
      split at added
      · next after addedBlock =>
          cases added
          simp [Progress.take, declarationsOf_addBlock addedBlock]
      · cases added
  | type decl => exact ⟨faultless, [], .nil, fun name => by simp [Progress.step]⟩
  | program decl => exact ⟨faultless, [], .nil, fun name => by simp [Progress.step]⟩
  | pragma directive => exact ⟨faultless, [], .nil, fun name => by simp [Progress.step]⟩

theorem Progress.foldl_faultless {types : TypeTable} {blocks : List Ident}
    {elements : List Element} :
    ∀ {progress : Progress}, (elements.foldl (step types blocks) progress).faults = [] →
      progress.faults = [] ∧
        ∃ signatures, List.Forall₂
            (fun decl signature => FunctionDecl.signature types blocks decl = .ok signature)
            (Library.functions { elements }) signatures ∧
          ∀ name, (elements.foldl (step types blocks) progress).table.declarationsOf name =
            progress.table.declarationsOf name ++
              signatures.filter fun added => added.name == name := by
  induction elements with
  | nil => exact fun faultless => ⟨faultless, [], .nil, fun name => by simp⟩
  | cons element elements ih =>
      intro progress faultless
      obtain ⟨midway, later, laterSigned, laterAdded⟩ := ih faultless
      obtain ⟨clean, now, nowSigned, nowAdded⟩ := Progress.step_faultless midway
      refine ⟨clean, now ++ later, ?_, fun name => ?_⟩
      · have split : Library.functions { elements := element :: elements } =
            Library.functions { elements := [element] } ++ Library.functions { elements } := by
          simp [Library.functions, ← List.filterMap_append]
        rw [split]
        exact List.rel_append nowSigned laterSigned
      · rw [List.foldl_cons, laterAdded, nowAdded, List.append_assoc, List.filter_append]

/-- The declarations of a name in a table that was built without faults: those that were
there before, then those of the library in source order. -/
theorem build_ok {start table : FunctionTable} {types : TypeTable} {library : Library}
    (built : build start types library = .ok table) :
    ∃ signatures, List.Forall₂
        (fun decl signature =>
          FunctionDecl.signature types (blockNames library) decl = .ok signature)
        library.functions signatures ∧
      ∀ name, table.declarationsOf name =
        start.declarationsOf name ++ signatures.filter fun added => added.name == name := by
  unfold build at built
  dsimp only at built
  split at built
  · next faultless =>
      cases built
      exact (Progress.foldl_faultless faultless).2
  · cases built

end FunctionTable

/-! ## The table of the standard functions -/

def Ident.distinct (names : List Ident) : List Ident :=
  names.foldl (fun known name => if known.any (· == name) then known else known ++ [name]) []

theorem Ident.distinct_concat (names : List Ident) (name : Ident) :
    distinct (names ++ [name]) =
      if (distinct names).any (· == name) then distinct names else distinct names ++ [name] := by
  rw [distinct, List.foldl_append, List.foldl_cons, List.foldl_nil, distinct]

namespace FunctionTable

def grouped (names : List Ident) (signatures : List FunctionSignature) :
    List (Ident × List FunctionSignature) :=
  names.map fun name => (name, signatures.filter fun signature => signature.name == name)

theorem contains_grouped {table : FunctionTable} {names : List Ident}
    {signatures : List FunctionSignature}
    (entries : table.functions.entries = grouped names signatures) (name : Ident) :
    table.functions.contains name = names.any (· == name) := by
  rw [Table.contains, Table.get?, Option.isSome_map, entries, grouped, List.find?_map,
    Option.isSome_map, Bool.eq_iff_iff, List.find?_isSome, List.any_eq_true]
  rfl

theorem filter_concat_same {signatures : List FunctionSignature} {last : FunctionSignature}
    {name : Ident} (same : (name == last.name) = true) :
    (signatures ++ [last]).filter (fun signature => signature.name == name) =
      (signatures.filter fun signature => signature.name == last.name) ++ [last] := by
  have sameTest : (fun signature : FunctionSignature => signature.name == name) =
      fun signature => signature.name == last.name := by
    funext signature
    rw [Bool.eq_iff_iff, Ident.beq_iff, Ident.beq_iff, Ident.beq_iff.mp same]
  simp [sameTest]

theorem filter_concat_other {signatures : List FunctionSignature} {last : FunctionSignature}
    {name : Ident} (other : (name == last.name) = false) :
    (signatures ++ [last]).filter (fun signature => signature.name == name) =
      signatures.filter fun signature => signature.name == name := by
  simp [BEq.comm.trans other]

/-- A table that signatures are added to one by one has them grouped by name. -/
theorem entries_foldl (signatures : List FunctionSignature) :
    (signatures.foldl addFunction {}).functions.entries =
      grouped (Ident.distinct (signatures.map FunctionSignature.name)) signatures := by
  induction signatures using List.reverseRecOn with
  | nil => rfl
  | append_singleton signatures last ih =>
      have declared : ((signatures.foldl addFunction {}).overloads? last.name).getD [] =
          signatures.filter fun signature => signature.name == last.name :=
        declarationsOf_foldl signatures last.name {}
      have isKnown := contains_grouped ih last.name
      rw [List.foldl_append, List.foldl_cons, List.foldl_nil, List.map_append, List.map_singleton,
        Ident.distinct_concat, addFunction, declared, Table.insert, isKnown]
      generalize Ident.distinct (signatures.map FunctionSignature.name) = names at ih
      cases known : names.any (· == last.name) with
      | true =>
          simp only [if_true, ih, grouped, List.map_map]
          refine List.map_congr_left fun name _ => ?_
          cases same : name == last.name with
          | true => simp [same, filter_concat_same same]
          | false => simp only [Function.comp_apply, same, filter_concat_other same,
              Bool.false_eq_true, if_false]
      | false =>
          simp only [Bool.false_eq_true, if_false, Table.push, ih, grouped, List.map_append,
            List.map_singleton, filter_concat_same BEq.rfl]
          congr 1
          refine List.map_congr_left fun name member => ?_
          have other := List.any_eq_false.mp known name member
          rw [filter_concat_other (Bool.eq_false_iff.mpr other)]

def standardNames : List Ident :=
  ["ADD", "MUL", "ABS", "SQRT", "EXPT", "AND", "OR", "XOR", "MAX", "MIN", "SEL", "LIMIT", "MUX"]

theorem distinct_functions :
    Ident.distinct ((Standard.functions false).map FunctionSignature.name) = standardNames := by
  have parts : Function.Injective fun name : Ident => (name.name, name.span) := by
    rintro ⟨name, span⟩ ⟨name', span'⟩ same
    cases same
    rfl
  exact List.map_injective_iff.mpr parts (by decide +kernel)

theorem eq_of_entries (table : FunctionTable) {entries : List (Ident × List FunctionSignature)}
    (same : table.functions.entries = entries) :
    table = { table with functions := { entries } } := by
  rw [← same]

/-- The table of the standard functions, but for conversions, with its entries in a form in
which a lookup is fast. -/
theorem standard_eq_grouped : standard false =
    { standard false with
      functions := { entries := grouped standardNames (Standard.functions false) } } := by
  have entries := entries_foldl (Standard.functions false)
  rw [distinct_functions] at entries
  exact eq_of_entries (standard false) entries

end FunctionTable

/-! ## Standard functions -/

def FunctionSignature.IsElementary (signature : FunctionSignature) : Prop :=
  signature.isStandard = true ∧
    ∀ parameter ∈ signature.parameters, ∃ type, parameter.type = .elementary type

namespace Standard

inductive TakesInputs : FunctionSignature → Prop where
  | plain (name : Ident) (returnType : DataType) (inputs : List Parameter)
      (areInputs : ∀ parameter ∈ inputs, ∃ label type, parameter = Parameter.input label type) :
      TakesInputs (.standard name returnType inputs)
  | grouped (name : Ident) (returnType : DataType) (inputs : List Parameter) (label : String)
      (type : Elementary)
      (areInputs : ∀ parameter ∈ inputs, ∃ label type, parameter = Parameter.input label type) :
      TakesInputs (.standard name returnType (inputs ++ [Parameter.extensible label type]))

theorem takesInputs_extensible {name : String} {types : List Elementary}
    {signature : FunctionSignature} (member : signature ∈ extensible name types) :
    TakesInputs signature := by
  obtain ⟨type, -, rfl⟩ := List.mem_map.mp member
  exact .grouped _ _ [] "IN" type (by simp)

theorem takesInputs_unary {name : String} {types : List Elementary}
    {signature : FunctionSignature} (member : signature ∈ unary name types) :
    TakesInputs signature := by
  obtain ⟨type, -, rfl⟩ := List.mem_map.mp member
  exact .plain _ _ _ (by simp)

theorem takesInputs_selection {type : Elementary} {signature : FunctionSignature}
    (member : signature ∈ selection type) : TakesInputs signature := by
  simp only [selection, List.mem_cons, List.not_mem_nil, or_false] at member
  rcases member with rfl | rfl | rfl
  · exact .plain _ _ _ (by simp)
  · exact .plain _ _ _ (by simp)
  · exact .grouped _ _ [.input "K" .int] "IN" type (by simp)

theorem takesInputs_conversions {signature : FunctionSignature}
    (member : signature ∈ conversions) : TakesInputs signature := by
  obtain ⟨source, -, member⟩ := List.mem_flatMap.mp member
  obtain ⟨target, -, rfl⟩ := List.mem_map.mp member
  exact .plain _ _ _ (by simp)

theorem takesInputs_functions {withConversions : Bool} {signature : FunctionSignature}
    (member : signature ∈ functions withConversions) : TakesInputs signature := by
  unfold functions at member
  simp only [List.mem_append] at member
  rcases member with ((((((((((family | family) | family) | family) | family) | family) | family) |
    family) | family) | family) | family) | family
  · exact takesInputs_extensible family
  · exact takesInputs_extensible family
  · exact takesInputs_unary family
  · exact takesInputs_unary family
  · obtain ⟨type, -, rfl⟩ := List.mem_map.mp family
    exact .plain _ _ _ (by simp)
  · exact takesInputs_extensible family
  · exact takesInputs_extensible family
  · exact takesInputs_extensible family
  · exact takesInputs_extensible family
  · exact takesInputs_extensible family
  · obtain ⟨type, -, family⟩ := List.mem_flatMap.mp family
    exact takesInputs_selection family
  · split at family
    · exact takesInputs_conversions family
    · cases family

theorem isElementary_of_takesInputs {signature : FunctionSignature}
    (shape : TakesInputs signature) : signature.IsElementary := by
  have ofInputs : ∀ {inputs : List Parameter},
      (∀ parameter ∈ inputs, ∃ label type, parameter = Parameter.input label type) →
      ∀ parameter ∈ inputs, ∃ type, parameter.type = .elementary type := by
    intro inputs areInputs parameter member
    obtain ⟨label, type, rfl⟩ := areInputs parameter member
    exact ⟨type, rfl⟩
  cases shape with
  | plain name returnType inputs areInputs =>
      refine ⟨rfl, fun parameter member => ?_⟩
      rcases List.mem_append.mp member with isImplicit | isInput
      · exact (Parameter.elementary_of_implicit isImplicit).2
      · exact ofInputs areInputs parameter isInput
  | grouped name returnType inputs label type areInputs =>
      refine ⟨rfl, fun parameter member => ?_⟩
      rcases List.mem_append.mp member with isImplicit | isExplicit
      · exact (Parameter.elementary_of_implicit isImplicit).2
      · rcases List.mem_append.mp isExplicit with isInput | isLast
        · exact ofInputs areInputs parameter isInput
        · rw [List.mem_singleton.mp isLast]
          exact ⟨type, rfl⟩

theorem isElementary_functions {withConversions : Bool} {signature : FunctionSignature}
    (member : signature ∈ functions withConversions) : signature.IsElementary :=
  isElementary_of_takesInputs (takesInputs_functions member)

end Standard

end StructuredText
