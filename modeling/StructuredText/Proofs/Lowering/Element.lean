import StructuredText.Proofs.Analysis.References
import StructuredText.Proofs.Lowering.Sequence

/-!
# Units of lowered libraries

The code of a library is that of its units in order, with the text and the directives
that stand between them.  The code of a unit is its body, lowered in a scope of its own,
and, where the unit reaches its variables through accessors, the helpers of the calls in
the body.
-/

set_option autoImplicit false

namespace StructuredText

/-- A unit of a library whose body is lowered, in the scope that lowering makes for it. -/
structure LoweredUnit (context : Context) (library : Library) where
  before : List Element
  element : Element
  later : List Element
  position : library.elements = before ++ element :: later
  site : Site
  inContext : site.context = context
  inScope : element.rebuiltScope context (Library.functions { elements := before }) =
    .ok site.scope
  isOn : Bool
  lowered : LoweredBody
  run : site.lowerBody isOn element.body = .ok lowered

/-- The code of a unit has the lowered body; only the code of a function has no helpers. -/
inductive LoweredUnit.Gives {context : Context} {library : Library}
    (unit : LoweredUnit context library) : Code.Element → Prop where
  | function {definition : Code.FunctionDef} (isDirect : unit.site.style = .direct)
      (body : definition.body = unit.lowered.body) : Gives unit (.function definition)
  | unit {definition : Code.UnitDef} (isAccessor : unit.site.style = .accessor)
      (helpers : definition.helpers = unit.lowered.helpers)
      (body : definition.body = unit.lowered.body) : Gives unit (.unit definition)

/-- The code of an element is that of a unit, text of the program or a directive. -/
def Code.Element.IsOfUnit (context : Context) (library : Library) (code : Code.Element) : Prop :=
  (∃ unit : LoweredUnit context library, unit.Gives code) ∨
    (∃ text, code = .code text) ∨ ∃ on, code = .switch on

section Lower

variable {context : Context} {library : Library} {before later : List Element} {isOn after : Bool}

theorem FunctionDecl.isOfUnit_of_lower {decl : FunctionDecl} {signature : FunctionSignature}
    {definition : Code.FunctionDef}
    (position : library.elements = before ++ .function decl :: later)
    (found : context.declaredSignature? decl.name
      (((Library.functions { elements := before }).map FunctionDecl.name).count decl.name) =
        some signature)
    (run : decl.lower context isOn signature = .ok (definition, after)) :
    Code.Element.IsOfUnit context library (.function definition) := by
  unfold FunctionDecl.lower at run
  obtain ⟨scope, scopeMade, run⟩ := bind_eq_ok run
  obtain ⟨formals, -, run⟩ := bind_eq_ok run
  obtain ⟨locals, -, run⟩ := bind_eq_ok run
  obtain ⟨resultValue, -, run⟩ := bind_eq_ok run
  obtain ⟨lowered, bodyRun, run⟩ := bind_eq_ok run
  cases run
  have inScope : Element.rebuiltScope context (Library.functions { elements := before })
      (.function decl) = .ok scope := by
    rw [Element.rebuiltScope, found]
    exact scopeMade
  exact .inl ⟨⟨before, _, later, position, _, rfl, inScope, isOn, lowered, bodyRun⟩,
    .function rfl rfl⟩

theorem isOfUnit_of_lowerUnit {element : Element} {kind : Code.UnitKind} {outer : Scope}
    {implicit : List Code.Slot} {name : Ident} {definition : Code.UnitDef}
    (position : library.elements = before ++ element :: later)
    (rebuilt : element.rebuiltScope context (Library.functions { elements := before }) =
      unitScope context outer element.vars)
    (run : lowerUnit context isOn kind outer implicit name element.vars element.body =
      .ok (definition, after)) :
    Code.Element.IsOfUnit context library (.unit definition) := by
  unfold lowerUnit at run
  obtain ⟨scope, scopeMade, run⟩ := bind_eq_ok run
  obtain ⟨slots, -, run⟩ := bind_eq_ok run
  obtain ⟨lowered, bodyRun, run⟩ := bind_eq_ok run
  cases run
  exact .inl ⟨⟨before, _, later, position, _, rfl, rebuilt.trans scopeMade, isOn, lowered, bodyRun⟩,
    .unit rfl rfl rfl⟩

/-- The elements from a position on, where `before` are the elements before it. -/
theorem Context.isOfUnit_of_lowerElements {elements : List Element} :
    ∀ (before : List Element) (isOn : Bool) {codes : List Code.Element},
      library.elements = before ++ elements →
        context.lowerElements (Element.declaredNames before) isOn elements = .ok codes →
        ∀ code ∈ codes, code.IsOfUnit context library := by
  induction elements with
  | nil =>
      intro before isOn codes _ run
      cases run
      exact List.forall_mem_nil _
  | cons element elements ih =>
      intro before isOn codes position run
      obtain ⟨code, after, rest, turn, restRun, rfl⟩ := Context.lowerElements_cons_ok run
      have nextPosition : library.elements = (before ++ [element]) ++ elements := by
        rw [position, List.append_assoc, List.singleton_append]
      rw [← Element.declaredNames_append] at restRun
      have later := ih (before ++ [element]) after nextPosition restRun
      cases turn with
      | type | standardBlock isStandard => exact later
      | function found definitionRun =>
          rw [Element.declaredNames, List.count_reverse] at found
          exact List.forall_mem_cons.mpr
            ⟨FunctionDecl.isOfUnit_of_lower position found definitionRun, later⟩
      | functionBlock _ definitionRun | program definitionRun =>
          exact List.forall_mem_cons.mpr
            ⟨isOfUnit_of_lowerUnit position rfl definitionRun, later⟩
      | code => exact List.forall_mem_cons.mpr ⟨.inr (.inl ⟨_, rfl⟩), later⟩
      | enable | disable => exact List.forall_mem_cons.mpr ⟨.inr (.inr ⟨_, rfl⟩), later⟩

theorem Library.isOfUnit_of_lower {file : Code.File}
    (run : library.lower context = .ok file) :
    ∀ code ∈ file.elements, code.IsOfUnit context library :=
  Context.isOfUnit_of_lowerElements [] true rfl (Library.lower_ok run).2

end Lower

/-! ## Units of accepted libraries -/

/-- Where the body of an element is lowered, if analysis accepts the library and the body can
be lowered; `before` are the elements ahead of it. -/
def Library.site? (library : Library) (before : List Element) (element : Element) (style : Style)
    (name : String) : Option Site := do
  let context ← library.accepted?
  let scope ←
    (element.rebuiltScope context (Library.functions { elements := before })).toOption
  let site : Site := ⟨context, scope, style, name⟩
  let _ ← (site.lowerBody true element.body).toOption
  return site

theorem Library.unit_of_site? {library : Library} {before later : List Element} {element : Element}
    {style : Style} {name : String} {site : Site}
    (found : library.site? before element style name = some site)
    (position : library.elements = before ++ element :: later) :
    ∃ context notes, Context.resolve library = .ok context ∧ library.check context = .ok notes ∧
      ∃ unit : LoweredUnit context library, unit.element = element ∧ site = unit.site := by
  obtain ⟨context, accepted, found⟩ := Option.bind_eq_some_iff.mp found
  obtain ⟨resolved, notes, checked⟩ := Library.of_accepted? accepted
  obtain ⟨scope, inScope, found⟩ := Option.bind_eq_some_iff.mp found
  obtain ⟨lowered, run, found⟩ := Option.bind_eq_some_iff.mp found
  obtain rfl := Option.some.inj found
  exact ⟨context, notes, resolved, checked,
    ⟨before, element, later, position, _, rfl, eq_ok_of_toOption inScope, true, lowered,
      eq_ok_of_toOption run⟩, rfl, rfl⟩

end StructuredText
