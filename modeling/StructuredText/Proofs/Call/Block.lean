import StructuredText.Proofs.Analysis.Resolved

/-!
# Where the signatures of function blocks come from

A function block of a resolved context is a standard one, or its signature was made of a
declaration of the library.  So the types of its parameters are elementary or types of
declared variables, and none of its parameters is extensible.
-/

set_option autoImplicit false

namespace StructuredText

namespace FunctionTable

variable {holds : BlockSignature → Prop} {types : TypeTable} {blocks : List Ident}

theorem all_addBlock {table after : FunctionTable} {signature : BlockSignature}
    (all : ∀ entry ∈ table.blocks.entries, holds entry.2) (isSo : holds signature)
    (added : table.addBlock signature = .ok after) :
    ∀ entry ∈ after.blocks.entries, holds entry.2 := by
  unfold addBlock at added
  split at added
  · cases added
  · cases added
    intro entry member
    rcases List.mem_append.mp member with old | isNew
    · exact all entry old
    · rw [List.mem_singleton.mp isNew]
      exact isSo

theorem Progress.all_step {progress : Progress} {element : Element}
    (all : ∀ entry ∈ progress.table.blocks.entries, holds entry.2)
    (adds : ∀ decl signature, element = .functionBlock decl →
      decl.signature types blocks = .ok signature → holds signature) :
    ∀ entry ∈ (progress.step types blocks element).table.blocks.entries, holds entry.2 := by
  cases element with
  | type decl | program decl | pragma decl => exact all
  | function decl =>
      rw [Progress.step]
      cases decl.signature types blocks <;> exact all
  | functionBlock decl =>
      rw [Progress.step]
      cases signed : decl.signature types blocks with
      | error faults => exact all
      | ok signature =>
          rw [ok_bind]
          cases added : progress.table.addBlock signature with
          | error fault => exact all
          | ok after => exact all_addBlock all (adds decl signature rfl signed) added

theorem Progress.all_foldl {elements : List Element}
    (adds : ∀ decl ∈ Library.functionBlocks { elements }, ∀ signature,
      decl.signature types blocks = .ok signature → holds signature) :
    ∀ {progress : Progress}, (∀ entry ∈ progress.table.blocks.entries, holds entry.2) →
      ∀ entry ∈ (elements.foldl (step types blocks) progress).table.blocks.entries,
        holds entry.2 := by
  induction elements with
  | nil => exact fun all => all
  | cons element elements ih =>
      intro progress all
      refine ih (fun decl member => ?_) (Progress.all_step all ?_)
      · obtain ⟨source, later, isBlock⟩ := List.mem_filterMap.mp member
        exact adds decl (List.mem_filterMap.mpr ⟨source, List.mem_cons_of_mem _ later, isBlock⟩)
      · rintro decl signature rfl signed
        refine adds decl (List.mem_filterMap.mpr ⟨_, List.mem_cons_self .., ?_⟩) signature signed
        rfl

/-- What holds of the standard function blocks and of those that the library declares holds
of every function block in a table. -/
theorem all_of_build (holds : BlockSignature → Prop) {withConversions : Bool}
    {library : Library} {table : FunctionTable}
    (built : build (standard withConversions) types library = .ok table)
    (standardSo : ∀ signature ∈ Standard.blocks, holds signature)
    (declaredSo : ∀ decl ∈ library.functionBlocks, ∀ signature,
      decl.signature types (blockNames library) = .ok signature → holds signature)
    {name : Ident} {signature : BlockSignature} (found : table.block? name = some signature) :
    holds signature := by
  unfold build at built
  dsimp only at built
  split at built
  · cases built
    obtain ⟨entry, member, rfl⟩ := Table.mem_of_get? found
    refine Progress.all_foldl declaredSo ?_ entry member
    intro entry isStandard
    obtain ⟨block, isBlock, rfl⟩ := List.mem_map.mp isStandard
    exact standardSo block isBlock
  · cases built

end FunctionTable

/-- The parameters of the standard function blocks have elementary types, and none of them is
extensible. -/
theorem Standard.parameter_of_blocks : ∀ signature ∈ Standard.blocks,
    ∀ parameter ∈ signature.parameters,
      parameter.isExtensible = false ∧ ∃ type, parameter.type = .elementary type := by
  simp [Standard.blocks, Standard.timer, Standard.counter, Standard.edge, Standard.latch,
    BlockSignature.standard, Parameter.implicit, Parameter.en, Parameter.eno, Parameter.input,
    Parameter.output]

/-- No parameter is extensible, and each has an elementary type or that of a declared
variable. -/
def BlockSignature.IsPlain (context : Context) (signature : BlockSignature) : Prop :=
  ∀ parameter ∈ signature.parameters, parameter.isExtensible = false ∧
    ((∃ type, parameter.type = .elementary type) ∨
      ∃ decl, context.typeOf decl = .ok parameter.type)

theorem Context.isPlain_block? {context : Context} {library : Library}
    {withConversions : Bool} (resolved : Context.resolve library withConversions = .ok context)
    {name : Ident} {signature : BlockSignature}
    (found : context.functions.block? name = some signature) : signature.IsPlain context := by
  obtain ⟨-, built, blocks⟩ := Context.resolve_ok resolved
  refine FunctionTable.all_of_build (BlockSignature.IsPlain context) built ?_ ?_ found
  · intro signature isStandard parameter member
    exact (Standard.parameter_of_blocks signature isStandard parameter member).imp_right .inl
  · intro decl _ signature signed parameter member
    obtain ⟨parameters, made, rfl⟩ := map_eq_ok signed
    rw [← blocks] at made
    refine (parameter_of_parametersOf made parameter member).imp_right (Or.imp_right ?_)
    rintro ⟨source, -, typed⟩
    exact ⟨source, typed⟩

end StructuredText
