import StructuredText.Proofs.Lowering.Names
import StructuredText.Proofs.Lowering.TypeOrder
import StructuredText.Proofs.Scope.Unit
import StructuredText.Tree.Build

/-!
# The order of declarations in generated code

The structures of the units come after all types, in source order.  A unit finds the types
of its variables declared, and the function blocks that the source declares before it.
-/

set_option autoImplicit false

namespace StructuredText

open Code (InOrder Settled Outline)

/-! ## Variables of units -/

theorem VarDecl.type_of_lowerMember {context : Context} {decl : VarDecl} {name : String}
    {member : Code.Member} (run : decl.lowerMember context name = .ok member) :
    ∃ type, context.typeOf decl = .ok type ∧ member.type = type.cName := by
  unfold VarDecl.lowerMember at run
  obtain ⟨type, typed, run⟩ := bind_eq_ok run
  refine ⟨type, typed, ?_⟩
  dsimp only at run
  split at run
  · obtain ⟨value, -, run⟩ := bind_eq_ok run
    cases run
    rfl
  · cases run
    rfl
  · split at run
    · cases run
      rfl
    · split at run
      · cases run
        rfl
      · obtain ⟨value, -, run⟩ := bind_eq_ok run
        cases run
        rfl

theorem VarDecl.type_of_lowerSlots {context : Context} {vars : List VarDecl} :
    ∀ {slots : List Code.Slot}, VarDecl.lowerSlots context vars = .ok slots →
      ∀ slot ∈ slots, ∃ decl ∈ vars, ∃ type, context.typeOf decl = .ok type ∧
        slot.member.type = type.cName := by
  induction vars with
  | nil =>
      intro slots run slot isSlot
      cases run
      cases isSlot
  | cons decl vars ih =>
      intro slots run slot isSlot
      have inRest : ∀ {rest : List Code.Slot}, VarDecl.lowerSlots context vars = .ok rest →
          slot ∈ rest → ∃ other ∈ decl :: vars, ∃ type, context.typeOf other = .ok type ∧
            slot.member.type = type.cName := by
        intro rest restRun isRest
        obtain ⟨other, isOther, typed⟩ := ih restRun slot isRest
        exact ⟨other, List.mem_cons_of_mem _ isOther, typed⟩
      rw [VarDecl.lowerSlots] at run
      split at run
      · exact inRest run isSlot
      · obtain ⟨member, memberRun, run⟩ := bind_eq_ok run
        obtain ⟨rest, restRun, run⟩ := bind_eq_ok run
        cases run
        rcases List.mem_cons.mp isSlot with rfl | isRest
        · obtain ⟨type, typed, same⟩ := VarDecl.type_of_lowerMember memberRun
          exact ⟨decl, List.mem_cons_self .., type, typed, same⟩
        · exact inRest restRun isRest

theorem outline_of_lowerUnit {context : Context} {isOn after : Bool} {kind : Code.UnitKind}
    {outer : Scope} {implicit : List Code.Slot} {name : Ident} {vars : List VarDecl}
    {body : List Stmt} {definition : Code.UnitDef}
    (run : lowerUnit context isOn kind outer implicit name vars body = .ok (definition, after)) :
    definition.outline.name = name.upper ∧ ∀ type ∈ definition.outline.types,
      (∃ slot ∈ implicit, slot.member.type = type) ∨
        ∃ decl ∈ vars, ∃ known, context.typeOf decl = .ok known ∧ type = known.cName := by
  unfold lowerUnit at run
  obtain ⟨scope, -, run⟩ := bind_eq_ok run
  obtain ⟨slots, slotsRun, run⟩ := bind_eq_ok run
  obtain ⟨lowered, -, run⟩ := bind_eq_ok run
  cases run
  refine ⟨rfl, fun type isUsed => ?_⟩
  obtain ⟨slot, isSlot, rfl⟩ := List.mem_map.mp isUsed
  rcases List.mem_append.mp isSlot with isImplicit | isDeclared
  · exact .inl ⟨slot, isImplicit, rfl⟩
  · exact .inr (VarDecl.type_of_lowerSlots slotsRun slot isDeclared)

/-- What is known once the elements `before` have come out, with the declarations `known`:
these are in order, variables find their types among them, and so do instances of the
function blocks that came out. -/
structure Library.IsKnown (library : Library) (context : Context) (before : List Element)
    (known : List Outline) : Prop where
  inOrder : InOrder library.RefersAhead known
  types : ∀ decl ∈ library.elements.flatMap Element.vars, ∀ type,
    context.typeOf decl = .ok type →
      (∃ block, decl.initializer.block? = some block ∧ context.blocks.contains block = true ∧
        type = .functionBlock block) ∨
      ∀ user, Settled (library.RefersAhead user) known type.cName
  blocks : ∀ block, .functionBlock block ∈ before →
    Code.isBuiltIn block.name.upper = true ∨ ∃ outline ∈ known, outline.name = block.name.upper

section Units

variable {library : Library} {context : Context} {before later : List Element}
  {element : Element} {known : List Outline}

namespace Library.IsKnown

variable (blocks : context.blocks = FunctionTable.blockNames library)
  (position : library.elements = before ++ element :: later)

include blocks position

/-- An instance of a function block is of one that comes with the support layer, of one that
has been declared, or of one that the unit refers to ahead. -/
theorem settled_of_block (isKnown : library.IsKnown context before known) {name block : Ident}
    {decl : VarDecl} (isUnit : element.unitName? = some name) (declares : decl ∈ element.vars)
    (refers : decl.initializer.block? = some block)
    (isBlock : context.blocks.contains block = true) :
    Settled (library.RefersAhead name.upper) known block.upper := by
  rw [blocks, FunctionTable.blockNames] at isBlock
  obtain ⟨found, isName, same⟩ := List.contains_iff_exists_mem_beq.mp isBlock
  rw [Ident.beq_iff_upper.mp same]
  rcases List.mem_append.mp isName with isDeclared | isStandard
  · obtain ⟨other, isOther, rfl⟩ := List.mem_map.mp isDeclared
    have isElement : Element.functionBlock other ∈ library.elements := by
      obtain ⟨found, member, same⟩ := List.mem_filterMap.mp isOther
      cases found <;> cases same
      exact member
    rw [position] at isElement
    rcases List.mem_append.mp isElement with isBefore | ahead
    · exact (isKnown.blocks other isBefore).imp_right .inl
    · exact .inr (.inr (.unit position ahead isUnit declares refers (BEq.symm same)))
  · obtain ⟨standard, member, rfl⟩ := List.mem_map.mp isStandard
    exact .inl (Code.isBuiltIn_block member)

theorem declare (isKnown : library.IsKnown context before known) {name : Ident}
    {isOn after : Bool} {kind : Code.UnitKind} {outer : Scope} {implicit : List Code.Slot}
    {body : List Stmt} {definition : Code.UnitDef} (isUnit : element.unitName? = some name)
    (builtIn : ∀ slot ∈ implicit, Code.isBuiltIn slot.member.type = true)
    (run : lowerUnit context isOn kind outer implicit name element.vars body =
      .ok (definition, after)) :
    library.IsKnown context (before ++ [element]) (known ++ [definition.outline]) := by
  obtain ⟨named, uses⟩ := outline_of_lowerUnit run
  refine ⟨isKnown.inOrder.concat fun type isUsed => ?_, fun decl isVar type typed => ?_,
    fun block isBlock => ?_⟩
  · rw [named]
    rcases uses type isUsed with ⟨slot, isSlot, rfl⟩ | ⟨decl, isVar, meaning, typed, rfl⟩
    · exact .inl (builtIn slot isSlot)
    · have inLibrary : decl ∈ library.elements.flatMap Element.vars := by
        rw [position]
        exact List.mem_flatMap.mpr
          ⟨element, List.mem_append_right _ (List.mem_cons_self ..), isVar⟩
      rcases isKnown.types decl inLibrary meaning typed with ⟨block, refers, isBlock, rfl⟩ | settled
      · exact isKnown.settled_of_block blocks position isUnit isVar refers isBlock
      · exact settled name.upper
  · exact (isKnown.types decl isVar type typed).imp_right
      fun settled user => (settled user).append _
  · rcases List.mem_append.mp isBlock with isBefore | isThis
    · refine (isKnown.blocks block isBefore).imp_right ?_
      exact fun ⟨outline, member, same⟩ => ⟨outline, List.mem_append_left _ member, same⟩
    · cases List.mem_singleton.mp isThis
      cases isUnit
      exact .inr ⟨_, List.mem_append_right _ (List.mem_singleton_self _), named⟩

end Library.IsKnown

end Units

end StructuredText
