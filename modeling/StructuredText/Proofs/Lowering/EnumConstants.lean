import StructuredText.Proofs.Lowering.Leaf
import StructuredText.Proofs.Lowering.Sequence
import StructuredText.Proofs.Lowering.TypeOrder
import StructuredText.Proofs.Scope.Unit

/-!
# Enumerated constants

Generated code names a value of an enumeration by a constant that the declaration of the
enumeration lists.  Expressions, labels and initial values take such constants from three
places.  Analysis looks a value up before an expression or a label may have it, and the first
value of an enumeration is one of its values; only what a declaration states its variable to
start with goes into the code without a look at the enumeration.
-/

set_option autoImplicit false

namespace StructuredText

/-! ## The constants of generated code -/

namespace Code

def Leaf.texts (leaves : List Leaf) : List String :=
  leaves.filterMap fun
    | .atom text => some text
    | .helper _ => none

theorem Leaf.mem_texts {leaves : List Leaf} {text : String} :
    text ∈ Leaf.texts leaves ↔ .atom text ∈ leaves := by
  simp only [Leaf.texts, List.mem_filterMap]
  constructor
  · rintro ⟨leaf, member, same⟩
    cases leaf with
    | helper name => cases same
    | atom other =>
        cases same
        exact member
  · exact fun member => ⟨_, member, rfl⟩

/-- The constants of a helper: what it names apart from what it binds itself. -/
def Helper.constants (helper : Helper) : List String :=
  (Leaf.texts helper.leaves).filter fun text => text ∉ helper.names

/-- The value that a variable of a function starts with, if the code states one. -/
def Local.value? : Local → Option String
  | .initialized _ _ value => some value
  | .copied .. | .cleared .. => none

/-- The value that a variable of a unit starts with, if the code states one. -/
def Member.value? : Member → Option String
  | .located _ _ _ _ value => value
  | .plain _ _ value _ => some value
  | .external .. | .block .. | .compound .. => none

/-- The constants of an element: the initial values of its variables, and what its helpers and
its body end in. -/
def Element.constants : Element → List String
  | .function definition =>
      definition.locals.filterMap Local.value? ++
        definition.resultValue :: Leaf.texts (Stmt.leavesList definition.body)
  | .unit definition =>
      (definition.slots.filterMap fun slot => slot.member.value?) ++
        definition.helpers.flatMap Helper.constants ++
        Leaf.texts (Stmt.leavesList definition.body)
  | .code _ | .switch _ => []

def TypeDecl.listed : TypeDecl → List String
  | .enumeration name values => values.map fun value => name ++ "__" ++ value
  | .string .. | .derived .. | .subrange .. | .array .. | .record .. => []

def File.Lists (file : File) (text : String) : Prop := ∃ decl ∈ file.types, text ∈ decl.listed

/-- The constant has nothing to do with an enumeration: lowering always writes it, or it is a
number, a constant of the source or the initial value of an elementary type. -/
inductive Literal.IsPlain : String → Prop where
  | fixed {text : String} (isFixed : text ∈ Leaf.fixed) : IsPlain text
  | number (value : Int) : IsPlain (toString value)
  | constant {value : Constant} {text : String} (written : Literal.constant value = .ok text) :
      IsPlain text
  | initial {type : Elementary} {text : String}
      (written : Literal.elementaryInitial type = .ok text) : IsPlain text

theorem Literal.isPlain_signed (token : SignedToken) : Literal.IsPlain (Literal.signed token) := by
  have written : Literal.constant (.integer token none) = .ok (Literal.signed token) := rfl
  exact .constant written

theorem Literal.isPlain_string {value : CharString} {text : String}
    (written : Literal.string value = .ok text) : Literal.IsPlain text := by
  rw [← Literal.constant] at written
  exact .constant written

/-- A variable starts with a plain constant, or with the first value of an enumeration. -/
theorem Literal.initial_cases {type : DataType} {text : String}
    (run : Literal.initial type = .ok text) :
    Literal.IsPlain text ∨ ∃ name value values,
      type.resolved = .enumeration name (value :: values) ∧
        text = Literal.enumerated name.upper value := by
  fun_induction Literal.initial type with
  | case1 type => exact .inl (.initial run)
  | case2 | case3 =>
      cases run
      exact .inl (.number 0)
  | case4 name base ih =>
      rw [DataType.resolved]
      exact ih run
  | case5 name base lower upper =>
      cases run
      exact .inl (.number lower)
  | case6 name value values =>
      cases run
      exact .inr ⟨name, value, values, rfl, rfl⟩
  | case7 | case8 => cases run

end Code

/-! ## The values of enumerations -/

def Library.Enumerates (library : Library) (text : String) : Prop :=
  ∃ name values, .enumeration name values ∈ library.typeDecls ∧
    ∃ value ∈ values, text = Code.Literal.enumerated name.upper value

theorem Library.enumerates_of_hasValue {library : Library} {type : DataType} {value : Ident}
    (declared : type.IsDeclaredIn library.typeDecls)
    (hasValue : TypeTable.hasValue value type.resolved = true) :
    library.Enumerates (Code.Literal.enumerated type.resolved.cName value) := by
  cases isEnum : type.resolved with
  | enumeration name values =>
      rw [isEnum] at hasValue
      obtain ⟨other, member, same⟩ := List.contains_iff_exists_mem_beq.mp hasValue
      refine ⟨name, values, declared name values isEnum, other, member, ?_⟩
      rw [Code.Literal.enumerated, Code.Literal.enumerated, Ident.beq_iff_upper.mp same]
      rfl
  | _ =>
      rw [isEnum] at hasValue
      cases hasValue

theorem Library.enumerates_or_isPlain_of_initial {library : Library} {type : DataType}
    {text : String} (declared : type.IsDeclaredIn library.typeDecls)
    (run : Code.Literal.initial type = .ok text) :
    library.Enumerates text ∨ Code.Literal.IsPlain text := by
  rcases Code.Literal.initial_cases run with isPlain | ⟨name, value, values, isEnum, rfl⟩
  · exact .inr isPlain
  · exact .inl ⟨name, _, declared _ _ isEnum, value, List.mem_cons_self .., rfl⟩

namespace Context

variable {context : Context} {library : Library} {withConversions : Bool}
  (resolved : resolve library withConversions = .ok context)

include resolved

theorem enumerates_of_enumeration? {value : EnumValue} {type : DataType}
    (found : context.enumeration? value = some type) :
    library.Enumerates (Code.Literal.enumerated type.resolved.cName value.value) := by
  obtain ⟨declared, -⟩ := types_declared resolved
  unfold enumeration? at found
  split at found
  · obtain ⟨isType, hasValue⟩ := Option.filter_eq_some_iff.mp found
    exact Library.enumerates_of_hasValue (declared.type? isType) hasValue
  · have member := List.mem_of_mem_head? (Option.mem_def.mpr found)
    rw [TypeTable.enumerationsWith, List.mem_mergeSort, List.mem_filter] at member
    obtain ⟨isType, hasValue⟩ := member
    obtain ⟨entry, isEntry, rfl⟩ := List.mem_map.mp isType
    refine Library.enumerates_of_hasValue (declared entry isEntry) ?_
    -- A type that has values itself is not behind another name.
    cases isEnum : entry.2 <;> rw [isEnum] at hasValue <;> first | exact hasValue | cases hasValue

/-- The type of the result of a declared function comes from the library. -/
theorem result_declared {name : Ident} {earlier : Nat} {signature : FunctionSignature}
    (found : context.declaredSignature? name earlier = some signature) :
    signature.returnType.IsDeclaredIn library.typeDecls := by
  obtain ⟨declared, -⟩ := types_declared resolved
  obtain ⟨signatures, signed, declarations⟩ := functions_declared resolved
  have member := List.mem_of_mem_drop (List.mem_of_mem_head? (Option.mem_def.mpr found))
  obtain ⟨isDeclared, notStandard⟩ := List.mem_filter.mp member
  rw [← FunctionTable.declarationsOf, declarations] at isDeclared
  rcases List.mem_append.mp isDeclared with standard | ofLibrary
  · have isStandard := (Standard.isElementary_functions (List.mem_filter.mp standard).1).1
    rw [isStandard] at notStandard
    cases notStandard
  · obtain ⟨decl, -, made⟩ := mem_signatures signed (List.mem_filter.mp ofLibrary).1
    exact declared.type? (FunctionDecl.signature_ok made).2.2.1

end Context

/-! ## The constants that a unit may write -/

/-- The name of an instance that the body of the element invokes, or the way to it. -/
def Element.Invokes (element : Element) (text : String) : Prop :=
  ∃ block arguments, .invoke block arguments ∈ Stmt.allList element.body ∧
    (text = block.upper ∨ text = selfHandle ++ block.upper)

/-- A constant of a value of an enumeration of the library, a plain one, or an instance. -/
def Element.MayWrite (library : Library) (element : Element) (text : String) : Prop :=
  library.Enumerates text ∨ Code.Literal.IsPlain text ∨ element.Invokes text

/-- True unless the declaration starts its variable with a value that the type of the variable
does not have. -/
def VarDecl.statesOwnValue (context : Context) (decl : VarDecl) : Bool :=
  match decl.initializer, context.typeOf decl with
  | .enumerated _ (some value), .ok type => TypeTable.hasValue value.value type.resolved
  | _, _ => true

/-- True if every variable that starts with an enumerated value has it from its own type. -/
def Library.statesOwnValues (library : Library) (context : Context) : Bool :=
  library.elements.all fun element => element.vars.all (VarDecl.statesOwnValue context)

theorem CaseLabel.isPlain_of_lowerRanges {labels : List CaseLabel} :
    ∀ bounds ∈ CaseLabel.lowerRanges labels,
      Code.Literal.IsPlain bounds.1 ∧ Code.Literal.IsPlain bounds.2 := by
  intro bounds member
  obtain ⟨label, -, written⟩ := List.mem_filterMap.mp member
  cases label with
  | range limits =>
      cases written
      exact ⟨Code.Literal.isPlain_signed _, Code.Literal.isPlain_signed _⟩
  | integer | enumerated => cases written

theorem VarDecl.value_of_lowerLocal {context : Context} {decl : VarDecl} {entry : Code.Local}
    {text : String} (run : decl.lowerLocal context = .ok (some entry))
    (isValue : entry.value? = some text) :
    ∃ type, context.typeOf decl = .ok type ∧ decl.initialValue type = .ok text := by
  unfold VarDecl.lowerLocal at run
  split at run
  · cases run
  · obtain ⟨type, typed, run⟩ := bind_eq_ok run
    refine ⟨type, typed, ?_⟩
    cases kind : decl.kind with
    | input | external | global =>
        rw [kind] at run
        cases run
    | inOut =>
        rw [kind] at run
        cases run
        cases isValue
    | output | var | temp =>
        rw [kind] at run
        dsimp only at run
        split at run
        · cases run
          cases isValue
        · obtain ⟨value, valueRun, run⟩ := bind_eq_ok run
          cases run
          cases isValue
          exact valueRun

/-- A variable of a unit starts with its initial value; one at a place of the hardware starts
with what its declaration states, if it states anything. -/
theorem VarDecl.value_of_lowerMember {context : Context} {decl : VarDecl} {name text : String}
    {member : Code.Member} (run : decl.lowerMember context name = .ok member)
    (isValue : member.value? = some text) :
    ∃ type, context.typeOf decl = .ok type ∧
      (decl.statedValue type = .ok (some text) ∨ decl.initialValue type = .ok text) := by
  unfold VarDecl.lowerMember at run
  obtain ⟨type, typed, run⟩ := bind_eq_ok run
  refine ⟨type, typed, ?_⟩
  dsimp only at run
  split at run
  · obtain ⟨stated, statedRun, run⟩ := bind_eq_ok run
    cases run
    cases isValue
    exact .inl statedRun
  · cases run
    cases isValue
  · split at run
    · cases run
      cases isValue
    · split at run
      · cases run
        cases isValue
      · obtain ⟨value, valueRun, run⟩ := bind_eq_ok run
        cases run
        cases isValue
        exact .inr valueRun

section Units

variable {context : Context} {library : Library} {withConversions : Bool}
  (resolved : Context.resolve library withConversions = .ok context)

include resolved

theorem Site.enumerates_of_enumerated {site : Site} (inContext : site.context = context)
    {value : EnumValue} {text : String} (run : site.enumerated value = .ok text) :
    library.Enumerates text := by
  unfold Site.enumerated at run
  split at run
  · next type found =>
      cases run
      rw [inContext] at found
      exact Context.enumerates_of_enumeration? resolved found
  · cases run

theorem CaseLabel.mayWrite_of_lowerSingles {site : Site} (inContext : site.context = context)
    {element : Element} {labels : List CaseLabel} :
    ∀ {texts : List String}, CaseLabel.lowerSingles site labels = .ok texts →
      ∀ text ∈ texts, element.MayWrite library text := by
  induction labels with
  | nil =>
      intro texts run
      cases run
      exact List.forall_mem_nil _
  | cons label labels ih =>
      intro texts run
      cases label with
      | range bounds => exact ih run
      | integer value =>
          obtain ⟨rest, restRun, run⟩ := bind_eq_ok run
          cases run
          exact List.forall_mem_cons.mpr
            ⟨.inr (.inl (Code.Literal.isPlain_signed value)), ih restRun⟩
      | enumerated value =>
          obtain ⟨label, labelRun, run⟩ := bind_eq_ok run
          obtain ⟨rest, restRun, run⟩ := bind_eq_ok run
          cases run
          exact List.forall_mem_cons.mpr
            ⟨.inl (Site.enumerates_of_enumerated resolved inContext labelRun), ih restRun⟩

theorem Site.allowsStmts_mayWrite {site : Site} (inContext : site.context = context)
    (element : Element) :
    site.AllowsStmts (Stmt.allList element.body) (element.MayWrite library) where
  fixed _ isFixed := .inr (.inl (.fixed isFixed))
  count number := .inr (.inl (.number number))
  constant _ written := .inr (.inl (.constant written))
  enumerated _ run := .inl (Site.enumerates_of_enumerated resolved inContext run)
  initial {function arguments resolution parameter text} _ found isParameter written := by
    obtain ⟨overloads, declared, isOverload, -⟩ := CallResolution.of?_eq_some found
    rw [inContext] at declared
    have member : resolution.signature ∈ context.functions.declarationsOf function := by
      rw [FunctionTable.declarationsOf, declared]
      exact isOverload
    -- An open parameter takes its own default, or else what variables of its type start with.
    have typeDeclared := Context.parameters_declared resolved member parameter isParameter
    have ofType : Code.Literal.initial parameter.type = .ok text →
        element.MayWrite library text := fun run =>
      (Library.enumerates_or_isPlain_of_initial typeDeclared run).imp_right .inl
    rcases written with isDefault | ofInitial
    · unfold Parameter.defaultValue at isDefault
      split at isDefault
      · exact .inr (.inl (.constant isDefault))
      · exact ofType isDefault
    · exact ofType ofInitial
  single _ _ run := CaseLabel.mayWrite_of_lowerSingles resolved inContext run
  range _ _ bounds member :=
    (CaseLabel.isPlain_of_lowerRanges bounds member).imp (fun isPlain => .inr (.inl isPlain))
      fun isPlain => .inr (.inl isPlain)
  handle {block arguments} isStmt := by
    refine .inr (.inr ⟨block, arguments, isStmt, ?_⟩)
    unfold InstanceAccess.handle
    split
    · exact .inl rfl
    · exact .inr rfl

/-! ## Initial values -/

/-- What a declaration states is a value of the type of its variable, or plain. -/
theorem VarDecl.enumerates_or_isPlain_of_statedValue {decl : VarDecl} {type : DataType}
    {text : String} (typed : context.typeOf decl = .ok type)
    (ownValue : decl.statesOwnValue context = true)
    (run : decl.statedValue type = .ok (some text)) :
    library.Enumerates text ∨ Code.Literal.IsPlain text := by
  obtain ⟨declared, -⟩ := Context.types_declared resolved
  unfold VarDecl.statedValue at run
  split at run
  · obtain ⟨_, written, same⟩ := map_eq_ok run
    cases same
    exact .inr (.constant written)
  · obtain ⟨_, written, same⟩ := map_eq_ok run
    cases same
    exact .inr (Code.Literal.isPlain_string written)
  · next name value isEnumerated =>
      cases run
      simp only [VarDecl.statesOwnValue, isEnumerated, typed] at ownValue
      exact .inl (Library.enumerates_of_hasValue (declared.varDecl typed) ownValue)
  · cases run

theorem VarDecl.enumerates_or_isPlain_of_initialValue {decl : VarDecl} {type : DataType}
    {text : String} (typed : context.typeOf decl = .ok type)
    (ownValue : decl.statesOwnValue context = true)
    (run : decl.initialValue type = .ok text) :
    library.Enumerates text ∨ Code.Literal.IsPlain text := by
  obtain ⟨stated, statedRun, run⟩ := bind_eq_ok run
  cases stated with
  | some value =>
      cases run
      exact decl.enumerates_or_isPlain_of_statedValue resolved typed ownValue statedRun
  | none =>
      obtain ⟨declared, -⟩ := Context.types_declared resolved
      exact Library.enumerates_or_isPlain_of_initial (declared.varDecl typed) run

theorem VarDecl.enumerates_or_isPlain_of_lowerLocals {vars : List VarDecl} :
    ∀ {locals : List Code.Local}, (∀ decl ∈ vars, decl.statesOwnValue context = true) →
      VarDecl.lowerLocals context vars = .ok locals →
      ∀ entry ∈ locals, ∀ text, entry.value? = some text →
        library.Enumerates text ∨ Code.Literal.IsPlain text := by
  induction vars with
  | nil =>
      intro locals _ run
      cases run
      exact List.forall_mem_nil _
  | cons decl vars ih =>
      intro locals ownValues run entry member text isValue
      obtain ⟨ownValue, ownValues⟩ := List.forall_mem_cons.mp ownValues
      obtain ⟨first, firstRun, run⟩ := bind_eq_ok run
      obtain ⟨rest, restRun, run⟩ := bind_eq_ok run
      cases run
      rcases List.mem_append.mp member with isFirst | inRest
      · obtain rfl := Option.mem_toList.mp isFirst
        obtain ⟨type, typed, valueRun⟩ := decl.value_of_lowerLocal firstRun isValue
        exact decl.enumerates_or_isPlain_of_initialValue resolved typed ownValue valueRun
      · exact ih ownValues restRun entry inRest text isValue

theorem VarDecl.enumerates_or_isPlain_of_lowerSlots {vars : List VarDecl} :
    ∀ {slots : List Code.Slot}, (∀ decl ∈ vars, decl.statesOwnValue context = true) →
      VarDecl.lowerSlots context vars = .ok slots →
      ∀ slot ∈ slots, ∀ text, slot.member.value? = some text →
        library.Enumerates text ∨ Code.Literal.IsPlain text := by
  induction vars with
  | nil =>
      intro slots _ run
      cases run
      exact List.forall_mem_nil _
  | cons decl vars ih =>
      intro slots ownValues run
      obtain ⟨ownValue, ownValues⟩ := List.forall_mem_cons.mp ownValues
      rw [VarDecl.lowerSlots] at run
      split at run
      · exact ih ownValues run
      · obtain ⟨first, firstRun, run⟩ := bind_eq_ok run
        obtain ⟨rest, restRun, run⟩ := bind_eq_ok run
        cases run
        refine List.forall_mem_cons.mpr ⟨fun text isValue => ?_, ih ownValues restRun⟩
        obtain ⟨type, typed, stated | initial⟩ := decl.value_of_lowerMember firstRun isValue
        · exact decl.enumerates_or_isPlain_of_statedValue resolved typed ownValue stated
        · exact decl.enumerates_or_isPlain_of_initialValue resolved typed ownValue initial

end Units

/-! ## Units -/

/-- The constants of a lowered body and of its helpers are allowed ones. -/
theorem LoweredBody.InOrder.constants {site : Site} {allowed : String → Prop} {on : Prop}
    {lowered : LoweredBody} (inOrder : lowered.InOrder site allowed on) :
    (∀ text ∈ lowered.helpers.flatMap Code.Helper.constants, allowed text) ∧
      ∀ text ∈ Code.Leaf.texts (Code.Stmt.leavesList lowered.body), allowed text := by
  refine ⟨fun text member => ?_, fun text member =>
    inOrder.known _ (Code.Leaf.mem_texts.mp member)⟩
  obtain ⟨helper, isHelper, member⟩ := List.mem_flatMap.mp member
  obtain ⟨isLeaf, notBound⟩ := List.mem_filter.mp member
  -- What the helper names is known where it stands; only its own variables are not.
  obtain ⟨earlier, later, split⟩ := List.append_of_mem isHelper
  have sound := inOrder.sound
  rw [split, Code.Helper.areSound_append] at sound
  rcases sound.2.1 _ (Code.Leaf.mem_texts.mp isLeaf) with isAllowed | ⟨name, isName, same⟩
  · exact isAllowed
  · cases same
    exact absurd isName (of_decide_eq_true notBound)

/-- What an element of a library is lowered to. -/
inductive Element.LowersTo (context : Context) : Element → Code.Element → Prop where
  | function {decl : FunctionDecl} {signature : FunctionSignature} {earlier : Nat}
      {isOn after : Bool} {definition : Code.FunctionDef}
      (found : context.declaredSignature? decl.name earlier = some signature)
      (run : decl.lower context isOn signature = .ok (definition, after)) :
      LowersTo context (.function decl) (.function definition)
  | functionBlock {decl : FunctionBlockDecl} {isOn after : Bool} {definition : Code.UnitDef}
      (run : decl.lower context isOn = .ok (definition, after)) :
      LowersTo context (.functionBlock decl) (.unit definition)
  | program {decl : ProgramDecl} {isOn after : Bool} {definition : Code.UnitDef}
      (run : decl.lower context isOn = .ok (definition, after)) :
      LowersTo context (.program decl) (.unit definition)
  | code {text : String} : LowersTo context (.pragma (.code text)) (.code text)
  | enable : LowersTo context (.pragma .enable) (.switch true)
  | disable : LowersTo context (.pragma .disable) (.switch false)

theorem Element.Turn.lowersTo {context : Context} {declared : List Ident} {isOn after : Bool}
    {element : Element} {code : Option Code.Element}
    (turn : element.Turn context declared isOn code after) :
    ∀ own ∈ code, element.LowersTo context own := by
  rintro own isOwn
  cases turn with
  | type | standardBlock => cases isOwn
  | function found run =>
      cases isOwn
      exact .function found run
  | functionBlock _ run =>
      cases isOwn
      exact .functionBlock run
  | program run =>
      cases isOwn
      exact .program run
  | code =>
      cases isOwn
      exact .code
  | enable =>
      cases isOwn
      exact .enable
  | disable =>
      cases isOwn
      exact .disable

theorem Context.lowersTo_of_lowerElements {context : Context} {elements : List Element} :
    ∀ (declared : List Ident) (isOn : Bool) {codes : List Code.Element},
      context.lowerElements declared isOn elements = .ok codes →
      ∀ code ∈ codes, ∃ element ∈ elements, element.LowersTo context code := by
  induction elements with
  | nil =>
      intro declared isOn codes run
      cases run
      exact List.forall_mem_nil _
  | cons element elements ih =>
      intro declared isOn codes run code member
      obtain ⟨first, after, rest, turn, restRun, rfl⟩ := Context.lowerElements_cons_ok run
      rcases List.mem_append.mp member with isFirst | inRest
      · exact ⟨element, List.mem_cons_self .., turn.lowersTo code (Option.mem_toList.mp isFirst)⟩
      · obtain ⟨other, isElement, lowers⟩ := ih _ after restRun code inRest
        exact ⟨other, List.mem_cons_of_mem _ isElement, lowers⟩

theorem isPlain_of_implicitSlots :
    ∀ slot ∈ implicitSlots, ∀ text, slot.member.value? = some text →
      Code.Literal.IsPlain text := by
  intro slot member text isValue
  obtain ⟨name, -, rfl⟩ := List.mem_map.mp member
  cases isValue
  exact .fixed (by decide)

section Elements

variable {context : Context} {library : Library} {withConversions : Bool} {element : Element}
  (resolved : Context.resolve library withConversions = .ok context)
  (ownValues : ∀ decl ∈ element.vars, decl.statesOwnValue context = true)

include resolved

theorem Element.mayWrite_of_lowerBody {site : Site} {isOn : Bool} {lowered : LoweredBody}
    (inContext : site.context = context)
    (run : site.lowerBody isOn element.body = .ok lowered) :
    lowered.InOrder site (element.MayWrite library) False :=
  Site.inOrder_of_lowerBody (Site.allowsStmts_mayWrite resolved inContext element)
    False.elim False.elim run

include ownValues

theorem Element.mayWrite_of_lowerUnit {kind : Code.UnitKind} {isOn after : Bool} {outer : Scope}
    {implicit : List Code.Slot} {name : Ident} {definition : Code.UnitDef}
    (isImplicit : implicit ⊆ implicitSlots)
    (run : lowerUnit context isOn kind outer implicit name element.vars element.body =
      .ok (definition, after)) :
    ∀ text ∈ Code.Element.constants (.unit definition), element.MayWrite library text := by
  unfold lowerUnit at run
  obtain ⟨scope, -, run⟩ := bind_eq_ok run
  obtain ⟨slots, slotsRun, run⟩ := bind_eq_ok run
  obtain ⟨lowered, bodyRun, run⟩ := bind_eq_ok run
  cases run
  have ofBody := (Element.mayWrite_of_lowerBody resolved rfl bodyRun).constants
  intro text member
  simp only [Code.Element.constants, List.filterMap_append, List.mem_append] at member
  rcases member with ((ofImplicit | ofVariable) | ofHelper) | inBody
  · obtain ⟨slot, isSlot, isValue⟩ := List.mem_filterMap.mp ofImplicit
    exact .inr (.inl (isPlain_of_implicitSlots slot (isImplicit isSlot) text isValue))
  · obtain ⟨slot, isSlot, isValue⟩ := List.mem_filterMap.mp ofVariable
    exact (VarDecl.enumerates_or_isPlain_of_lowerSlots resolved ownValues slotsRun slot isSlot
      text isValue).imp_right .inl
  · exact ofBody.1 text ofHelper
  · exact ofBody.2 text inBody

/-- Every constant of the code of an element is one that the element may write. -/
theorem Element.LowersTo.mayWrite {code : Code.Element}
    (lowers : element.LowersTo context code) :
    ∀ text ∈ code.constants, element.MayWrite library text := by
  cases lowers with
  | @function decl signature earlier isOn after definition found run =>
      unfold FunctionDecl.lower at run
      obtain ⟨scope, -, run⟩ := bind_eq_ok run
      obtain ⟨formals, -, run⟩ := bind_eq_ok run
      obtain ⟨locals, localsRun, run⟩ := bind_eq_ok run
      obtain ⟨resultValue, resultRun, run⟩ := bind_eq_ok run
      obtain ⟨lowered, bodyRun, run⟩ := bind_eq_ok run
      cases run
      have inOrder : lowered.InOrder _ (Element.MayWrite library (.function decl)) False :=
        Element.mayWrite_of_lowerBody resolved rfl bodyRun
      have ofBody := inOrder.constants
      have ofResult := Library.enumerates_or_isPlain_of_initial
        (Context.result_declared resolved found) resultRun
      intro text member
      rcases List.mem_append.mp member with isLocal | isOther
      · obtain ⟨entry, isEntry, isValue⟩ := List.mem_filterMap.mp isLocal
        exact (VarDecl.enumerates_or_isPlain_of_lowerLocals resolved ownValues localsRun entry
          isEntry text isValue).imp_right .inl
      · rcases List.mem_cons.mp isOther with rfl | inBody
        · exact ofResult.imp_right .inl
        · exact ofBody.2 text inBody
  | functionBlock run =>
      exact Element.mayWrite_of_lowerUnit resolved ownValues (List.Subset.refl _) run
  | program run => exact Element.mayWrite_of_lowerUnit resolved ownValues (List.nil_subset _) run
  | code | enable | disable => exact List.forall_mem_nil _

end Elements

/-! ## Declared enumerations -/

/-- Every enumeration of the library is declared in the code, with all of its values. -/
theorem Library.mem_lowerTypes_enumeration {library : Library} {context : Context}
    {types : List Code.TypeDecl} {name : Ident} {values : List Ident}
    (built : TypeTable.build TypeTable.elementary library.typeDecls = .ok context.types)
    (run : library.lowerTypes context = .ok types)
    (isDecl : .enumeration name values ∈ library.typeDecls) :
    .enumeration name.upper (values.map Ident.upper) ∈ types := by
  obtain ⟨first, next, turn, kept⟩ := DeclaredTypes.turn_of_lowerTypes built run isDecl
  cases turn
  exact kept.subset (List.mem_append_right _ (List.mem_singleton_self _))

/-! ## Compiled libraries -/

/-- In a compiled library whose variables start with enumerated values of their own types, every
enumerated constant is one that a declared enumeration lists: any other constant is plain or
the name of an instance that the body invokes. -/
theorem Library.enumerated_constants_listed {library : Library} {withConversions : Bool}
    {layout : Code.Layout} {text : String}
    (compiled : library.compile withConversions layout = .ok text) :
    ∃ context notes file, Context.resolve library withConversions = .ok context ∧
      library.check context = .ok notes ∧ library.lower context = .ok file ∧
      text = file.render layout ∧ (library.statesOwnValues context = true →
        ∀ code ∈ file.elements, ∃ element ∈ library.elements, element.LowersTo context code ∧
          ∀ constant ∈ code.constants,
            file.Lists constant ∨ Code.Literal.IsPlain constant ∨ element.Invokes constant) := by
  obtain ⟨context, notes, file, resolved, checked, lowered, rendered⟩ :=
    Library.compile_ok compiled
  obtain ⟨built, -, -⟩ := Context.resolve_ok resolved
  obtain ⟨typesRun, elementsRun⟩ := Library.lower_ok lowered
  refine ⟨context, notes, file, resolved, checked, lowered, rendered,
    fun ownValues code member => ?_⟩
  obtain ⟨element, isElement, lowers⟩ :=
    Context.lowersTo_of_lowerElements [] true elementsRun code member
  have ownValues := List.all_eq_true.mp (List.all_eq_true.mp ownValues element isElement)
  refine ⟨element, isElement, lowers, fun constant isConstant => ?_⟩
  refine (lowers.mayWrite resolved ownValues constant isConstant).imp_left ?_
  rintro ⟨name, values, isDecl, value, isValue, rfl⟩
  refine ⟨_, Library.mem_lowerTypes_enumeration built typesRun isDecl, ?_⟩
  exact List.mem_map.mpr ⟨value.upper, List.mem_map_of_mem isValue, rfl⟩

/-- A library in which enumerated constants come from a label, a value, an open parameter, a
result and an initial value, some of them under another name of the enumeration. -/
def painting : Library where
  elements :=
    [.type (.enumeration "Color" ["Red", "Green"]),
      .type (.synonym "Shade" "Color"),
      .function
        { name := "Mix", returnType := "Color"
          vars := [{ VarDecl.simple "First" "Shade" with kind := .input }]
          body := [.copy "Mix" "First"] },
      .program
        { name := "Main"
          vars :=
            [{ name := .symbol "paint"
               initializer := .enumerated "Shade" (some { value := "Green" }) }]
          body :=
            [.select (.named "paint")
              [.mk [.enumerated { type := some "Color", value := "Red" }]
                [.assign (.named "paint") (.call "Mix" [])]]
              [.assign (.named "paint") (.enumerated { type := some "Shade", value := "Red" })]] }]

theorem painting_compiles : (painting.compile false {}).isOk = true := by
  rw [Library.compile, Context.resolve, FunctionTable.standard_eq_grouped]
  decide +kernel

theorem painting_constants : ((Context.resolve painting false).toOption.bind fun context =>
    (painting.lower context).toOption.map fun file =>
      (painting.statesOwnValues context, file.elements.map Code.Element.constants)) =
      some (true, [["COLOR__RED"],
        ["COLOR__GREEN", "COLOR__RED", "__BOOL_LITERAL(TRUE)", "NULL", "COLOR__RED",
          "COLOR__RED"]]) := by
  rw [Context.resolve, FunctionTable.standard_eq_grouped]
  decide +kernel

theorem Library.enumerated_constants_listed_painting :
    ∃ text context file, painting.compile false {} = .ok text ∧
      Context.resolve painting = .ok context ∧ painting.lower context = .ok file ∧
      text = file.render {} ∧ painting.statesOwnValues context = true ∧
      ∀ code ∈ file.elements, ∃ element ∈ painting.elements, element.LowersTo context code ∧
        ∀ constant ∈ code.constants,
          file.Lists constant ∨ Code.Literal.IsPlain constant ∨ element.Invokes constant := by
  obtain ⟨text, compiled⟩ := exists_ok_of_isOk painting_compiles
  obtain ⟨context, notes, file, resolved, -, lowered, rendered, listed⟩ :=
    Library.enumerated_constants_listed compiled
  have constants := painting_constants
  rw [resolved] at constants
  simp only [Except.toOption, Option.bind_some, lowered, Option.map_some, Option.some.injEq,
    Prod.mk.injEq] at constants
  exact ⟨text, context, file, compiled, resolved, lowered, rendered, constants.1,
    listed constants.1⟩

/-- A program with a variable that starts with a value that its enumeration does not have. -/
def mispainting : Library where
  elements :=
    [.type (.enumeration "Color" ["Red", "Green"]),
      .program
        { name := "Main"
          vars :=
            [{ name := .symbol "paint"
               initializer := .enumerated "Color" (some { value := "Purple" }) }]
          body := [] }]

theorem mispainting_constants : (mispainting.accepted?.bind fun context =>
    (mispainting.lower context).toOption.map fun file =>
      (file.elements.map Code.Element.constants, file.types.map Code.TypeDecl.listed)) =
      some ([["COLOR__PURPLE"]], [["COLOR__RED", "COLOR__GREEN"]]) := by
  rw [Library.accepted?, Context.resolve, FunctionTable.standard_eq_grouped]
  decide +kernel

/-- The code of an accepted library may have an enumerated constant that no declaration of an
enumeration lists. -/
theorem Library.enumerated_constant_not_listed :
    ∃ context notes file, Context.resolve mispainting = .ok context ∧
      mispainting.check context = .ok notes ∧ mispainting.lower context = .ok file ∧
      (∃ code ∈ file.elements, Code.Literal.enumerated "COLOR" "Purple" ∈ code.constants) ∧
      ¬file.Lists (Code.Literal.enumerated "COLOR" "Purple") := by
  obtain ⟨context, accepted, found⟩ := Option.bind_eq_some_iff.mp mispainting_constants
  obtain ⟨resolved, notes, checked⟩ := Library.of_accepted? accepted
  obtain ⟨file, isFile, found⟩ := Option.map_eq_some_iff.mp found
  simp only [Prod.mk.injEq] at found
  obtain ⟨constants, types⟩ := found
  refine ⟨context, notes, file, resolved, checked, eq_ok_of_toOption isFile, ?_, ?_⟩
  · have isConstants : ["COLOR__PURPLE"] ∈ file.elements.map Code.Element.constants := by
      rw [constants]
      exact List.mem_singleton_self _
    obtain ⟨code, isCode, same⟩ := List.mem_map.mp isConstants
    refine ⟨code, isCode, ?_⟩
    rw [same]
    decide +kernel
  · rintro ⟨decl, isDecl, isListed⟩
    have listed := List.mem_map_of_mem (f := Code.TypeDecl.listed) isDecl
    rw [types, List.mem_singleton] at listed
    rw [listed] at isListed
    revert isListed
    decide +kernel

end StructuredText
