import StructuredText.Compile
import StructuredText.Proofs.Outcome

/-!
# Elements lowered one after the other

The elements of a library are lowered in order, each behind the functions declared before it
and with the output on or off.  `Element.Turn` says all that one of them may do, and a run over
elements is the turn of the first one and a run over the others.  What holds of the code of a
library follows from its turns by induction on the elements.
-/

set_option autoImplicit false

namespace StructuredText

/-- The names of the functions in elements, the last one first, as lowering counts them. -/
def Element.declaredNames (elements : List Element) : List Ident :=
  ((Library.functions { elements }).map FunctionDecl.name).reverse

theorem Element.declaredNames_append (before after : List Element) :
    Element.declaredNames (before ++ after) =
      Element.declaredNames after ++ Element.declaredNames before := by
  simp only [Element.declaredNames, Library.functions, List.filterMap_append, List.map_append,
    List.reverse_append]

/-- What an element is lowered to behind functions of the names `declared`, if it gives code of
its own, and whether the output is on behind it. -/
inductive Element.Turn (context : Context) (declared : List Ident) (isOn : Bool) :
    Element → Option Code.Element → Bool → Prop where
  | type {decl : TypeDecl} : Turn context declared isOn (.type decl) none isOn
  | function {decl : FunctionDecl} {signature : FunctionSignature}
      {definition : Code.FunctionDef} {after : Bool}
      (found : context.declaredSignature? decl.name (declared.count decl.name) = some signature)
      (run : decl.lower context isOn signature = .ok (definition, after)) :
      Turn context declared isOn (.function decl) (some (.function definition)) after
  /-- The standard function blocks come with the support layer. -/
  | standardBlock {decl : FunctionBlockDecl} (isStandard : Standard.isBlock decl.name = true) :
      Turn context declared isOn (.functionBlock decl) none isOn
  | functionBlock {decl : FunctionBlockDecl} {definition : Code.UnitDef} {after : Bool}
      (isOwn : Standard.isBlock decl.name = false)
      (run : decl.lower context isOn = .ok (definition, after)) :
      Turn context declared isOn (.functionBlock decl) (some (.unit definition)) after
  | program {decl : ProgramDecl} {definition : Code.UnitDef} {after : Bool}
      (run : decl.lower context isOn = .ok (definition, after)) :
      Turn context declared isOn (.program decl) (some (.unit definition)) after
  | code {text : String} :
      Turn context declared isOn (.pragma (.code text)) (some (.code text)) isOn
  | enable : Turn context declared isOn (.pragma .enable) (some (.switch true)) true
  | disable : Turn context declared isOn (.pragma .disable) (some (.switch false)) false

/-- A run over elements is the turn of the first one and a run over the others. -/
theorem Context.lowerElements_cons_ok {context : Context} {declared : List Ident} {isOn : Bool}
    {element : Element} {elements : List Element} {codes : List Code.Element}
    (run : context.lowerElements declared isOn (element :: elements) = .ok codes) :
    ∃ code after rest, element.Turn context declared isOn code after ∧
      context.lowerElements (Element.declaredNames [element] ++ declared) after elements =
        .ok rest ∧
      codes = code.toList ++ rest := by
  cases element with
  | type decl => exact ⟨none, isOn, codes, .type, run, rfl⟩
  | function decl =>
      rw [lowerElements] at run
      split at run
      · cases run
      · next signature found =>
          obtain ⟨⟨definition, after⟩, definitionRun, run⟩ := bind_eq_ok run
          obtain ⟨rest, restRun, run⟩ := bind_eq_ok run
          cases run
          exact ⟨_, after, rest, .function found definitionRun, restRun, rfl⟩
  | functionBlock decl =>
      rw [lowerElements] at run
      split at run
      · next isStandard => exact ⟨none, isOn, codes, .standardBlock isStandard, run, rfl⟩
      · next isOwn =>
          obtain ⟨⟨definition, after⟩, definitionRun, run⟩ := bind_eq_ok run
          obtain ⟨rest, restRun, run⟩ := bind_eq_ok run
          cases run
          exact ⟨_, after, rest, .functionBlock (Bool.eq_false_iff.mpr isOwn) definitionRun,
            restRun, rfl⟩
  | program decl =>
      rw [lowerElements] at run
      obtain ⟨⟨definition, after⟩, definitionRun, run⟩ := bind_eq_ok run
      obtain ⟨rest, restRun, run⟩ := bind_eq_ok run
      cases run
      exact ⟨_, after, rest, .program definitionRun, restRun, rfl⟩
  | pragma directive =>
      cases directive with
      | code text =>
          obtain ⟨rest, restRun, run⟩ := bind_eq_ok run
          cases run
          exact ⟨_, isOn, rest, .code, restRun, rfl⟩
      | enable =>
          obtain ⟨rest, restRun, run⟩ := bind_eq_ok run
          cases run
          exact ⟨_, true, rest, .enable, restRun, rfl⟩
      | disable =>
          obtain ⟨rest, restRun, run⟩ := bind_eq_ok run
          cases run
          exact ⟨_, false, rest, .disable, restRun, rfl⟩

/-- A lowered library consists of its lowered types and its lowered elements. -/
theorem Library.lower_ok {library : Library} {context : Context} {file : Code.File}
    (run : library.lower context = .ok file) :
    library.lowerTypes context = .ok file.types ∧
      context.lowerElements [] true library.elements = .ok file.elements := by
  obtain ⟨types, typesRun, run⟩ := bind_eq_ok run
  obtain ⟨elements, elementsRun, run⟩ := bind_eq_ok run
  cases run
  exact ⟨typesRun, elementsRun⟩

end StructuredText
