import StructuredText.Proofs.Call.Overloads

/-!
# What resolution guarantees

A context that was resolved from a library knows all types that the library declares,
and it knows the functions of the library under their own signatures: counting the
earlier declarations of a name leads from a declaration to the signature that was made
of it.
-/

set_option autoImplicit false

namespace StructuredText

/-- No function of the library claims to come with the compiler, as is the case for
every library without positions. -/
def Library.IsUserCode (library : Library) : Prop :=
  ∀ decl ∈ library.functions, decl.name.span.file.isBuiltIn = false

def Library.isAccepted (library : Library) (withConversions : Bool) : Bool :=
  match Context.resolve library withConversions with
  | .ok context => (library.check context).isOk
  | .error _ => false

theorem Library.exists_of_isAccepted {library : Library} {withConversions : Bool}
    (accepted : library.isAccepted withConversions = true) :
    ∃ context notes, Context.resolve library withConversions = .ok context ∧
      library.check context = .ok notes := by
  unfold Library.isAccepted at accepted
  split at accepted
  · next context resolved =>
      cases checked : library.check context with
      | ok notes => exact ⟨context, notes, resolved, checked⟩
      | error faults =>
          rw [checked] at accepted
          cases accepted
  · cases accepted

namespace Context

variable {context : Context} {library : Library} {withConversions : Bool}

theorem resolve_ok (resolved : resolve library withConversions = .ok context) :
    TypeTable.build TypeTable.elementary library.typeDecls = .ok context.types ∧
      FunctionTable.build (FunctionTable.standard withConversions) context.types library =
        .ok context.functions ∧
      context.blocks = FunctionTable.blockNames library := by
  obtain ⟨types, typesBuilt, resolved⟩ := bind_eq_ok resolved
  obtain ⟨functions, functionsBuilt, resolved⟩ := bind_eq_ok resolved
  cases resolved
  exact ⟨typesBuilt, functionsBuilt, rfl⟩

/-! ## Types -/

theorem types_declared (resolved : resolve library withConversions = .ok context) :
    context.types.AllDeclaredIn library.typeDecls ∧
      ∀ decl ∈ library.typeDecls, ∃ type, context.types.type? decl.name = some type := by
  obtain ⟨built, -, -⟩ := resolve_ok resolved
  obtain ⟨declared, known⟩ := TypeTable.build_ok TypeTable.allDeclaredIn_elementary built
  exact ⟨declared, fun decl member => TypeTable.type?_of_contains (known decl member)⟩

/-! ## Functions -/

/-- The signatures of the functions of a library, in source order, and what they add to
the declarations of each name. -/
theorem functions_declared (resolved : resolve library withConversions = .ok context) :
    ∃ signatures, List.Forall₂
        (fun decl signature =>
          FunctionDecl.signature context.types context.blocks decl = .ok signature)
        library.functions signatures ∧
      ∀ name, context.functions.declarationsOf name =
        (Standard.functions withConversions).filter (fun signature => signature.name == name) ++
          signatures.filter fun signature => signature.name == name := by
  obtain ⟨-, built, blocks⟩ := resolve_ok resolved
  obtain ⟨signatures, signed, declared⟩ := FunctionTable.build_ok built
  refine ⟨signatures, ?_, fun name => ?_⟩
  · rw [blocks]
    exact signed
  · rw [declared, FunctionTable.declarationsOf_standard]

theorem mem_signatures {types : TypeTable} {blocks : List Ident} {decls : List FunctionDecl}
    {signatures : List FunctionSignature}
    (signed : List.Forall₂
      (fun decl signature => FunctionDecl.signature types blocks decl = .ok signature)
      decls signatures) {signature : FunctionSignature} (member : signature ∈ signatures) :
    ∃ decl ∈ decls, FunctionDecl.signature types blocks decl = .ok signature := by
  induction signed with
  | nil => cases member
  | @cons decl first decls rest firstSigned _ ih =>
      rcases List.mem_cons.mp member with isFirst | inRest
      · subst isFirst
        exact ⟨decl, List.mem_cons_self .., firstSigned⟩
      · obtain ⟨other, otherMember, otherSigned⟩ := ih inRest
        exact ⟨other, List.mem_cons_of_mem _ otherMember, otherSigned⟩

/-- Every parameter of every declaration has a type that comes from the library. -/
theorem parameters_declared (resolved : resolve library withConversions = .ok context)
    {name : Ident} {signature : FunctionSignature}
    (member : signature ∈ context.functions.declarationsOf name) :
    ∀ parameter ∈ signature.parameters, parameter.type.IsDeclaredIn library.typeDecls := by
  obtain ⟨declared, -⟩ := types_declared resolved
  obtain ⟨signatures, signed, declarations⟩ := functions_declared resolved
  rw [declarations] at member
  intro parameter isParameter
  rcases List.mem_append.mp member with standard | ofLibrary
  · have elementary := Standard.isElementary_functions (List.mem_filter.mp standard).1
    obtain ⟨type, same⟩ := elementary.2 parameter isParameter
    rw [same]
    exact DataType.isDeclaredIn_elementary type
  · obtain ⟨decl, -, made⟩ := mem_signatures signed (List.mem_filter.mp ofLibrary).1
    obtain ⟨-, -, -, parametersMade⟩ := FunctionDecl.signature_ok made
    rcases (parameter_of_parametersOf parametersMade parameter isParameter).2 with
      ⟨type, same⟩ | ⟨source, -, typed⟩
    · rw [same]
      exact DataType.isDeclaredIn_elementary type
    · exact declared.varDecl typed

/-- There are as many signatures of a name as declarations of it. -/
theorem length_filter_signatures {types : TypeTable} {blocks : List Ident}
    {decls : List FunctionDecl} {signatures : List FunctionSignature}
    (signed : List.Forall₂
      (fun decl signature => FunctionDecl.signature types blocks decl = .ok signature)
      decls signatures) (name : Ident) :
    (signatures.filter fun signature => signature.name == name).length =
      (decls.map FunctionDecl.name).count name := by
  induction signed with
  | nil => rfl
  | @cons decl first decls rest firstSigned _ ih =>
      have sameName := (FunctionDecl.signature_ok firstSigned).1
      rw [List.map_cons, List.count_cons, List.filter_cons, sameName, ← ih]
      cases decl.name == name <;> rfl

/-- The signature made of a declaration, behind those of the earlier ones. -/
theorem signatures_split {types : TypeTable} {blocks : List Ident}
    {before after : List FunctionDecl} {decl : FunctionDecl} :
    ∀ {signatures : List FunctionSignature},
      List.Forall₂ (fun decl signature => FunctionDecl.signature types blocks decl = .ok signature)
        (before ++ decl :: after) signatures →
      ∃ earlier signature later, signatures = earlier ++ signature :: later ∧
        decl.signature types blocks = .ok signature ∧
        List.Forall₂
          (fun decl signature => FunctionDecl.signature types blocks decl = .ok signature)
          before earlier := by
  induction before with
  | nil =>
      intro signatures signed
      obtain ⟨signature, later, made, -, rfl⟩ := List.forall₂_cons_left_iff.mp signed
      exact ⟨[], signature, later, rfl, made, .nil⟩
  | cons first before ih =>
      intro signatures signed
      obtain ⟨firstSignature, rest, firstMade, restSigned, rfl⟩ :=
        List.forall₂_cons_left_iff.mp signed
      obtain ⟨earlier, signature, later, rfl, made, earlierSigned⟩ := ih restSigned
      exact ⟨firstSignature :: earlier, signature, later, rfl, made, .cons firstMade earlierSigned⟩

def ownDeclarations (context : Context) (name : Ident) : List FunctionSignature :=
  (context.functions.declarationsOf name).filter fun signature => !signature.isStandard

theorem ownDeclarations_congr (context : Context) {name other : Ident}
    (same : (name == other) = true) :
    context.ownDeclarations name = context.ownDeclarations other := by
  rw [ownDeclarations, FunctionTable.declarationsOf, FunctionTable.overloads?,
    Table.get?_congr context.functions.functions same]
  rfl

theorem declaredSignature?_eq (context : Context) (name : Ident) (earlier : Nat) :
    context.declaredSignature? name earlier = (context.ownDeclarations name)[earlier]? :=
  List.head?_drop

theorem ownDeclarations_eq {signatures : List FunctionSignature} {name : Ident}
    (declarations : context.functions.declarationsOf name =
      (Standard.functions withConversions).filter (fun signature => signature.name == name) ++
        signatures.filter fun signature => signature.name == name) :
    context.ownDeclarations name =
      (signatures.filter fun signature => signature.name == name).filter
        fun signature => !signature.isStandard := by
  have standardGone :
      ((Standard.functions withConversions).filter fun signature =>
        signature.name == name).filter (fun signature => !signature.isStandard) = [] := by
    rw [List.filter_eq_nil_iff]
    intro standard member
    have isStandard := (Standard.isElementary_functions (List.mem_filter.mp member).1).1
    simp [isStandard]
  rw [ownDeclarations, declarations, List.filter_append, standardGone, List.nil_append]

/-- The declaration of a function that comes after `before` has the signature that was
made of it. -/
theorem declaredSignature?_of_resolve (resolved : resolve library withConversions = .ok context)
    (userCode : library.IsUserCode) {before after : List FunctionDecl} {decl : FunctionDecl}
    (position : library.functions = before ++ decl :: after) :
    ∃ signature, decl.signature context.types context.blocks = .ok signature ∧
      signature ∈ context.functions.declarationsOf decl.name ∧
      context.declaredSignature? decl.name ((before.map FunctionDecl.name).count decl.name) =
        some signature := by
  obtain ⟨signatures, signed, declarations⟩ := functions_declared resolved
  have noneStandard : ∀ signature ∈ signatures, signature.isStandard = false := by
    intro signature member
    obtain ⟨source, isFunction, made⟩ := mem_signatures signed member
    obtain ⟨-, sameSpan, -, -⟩ := FunctionDecl.signature_ok made
    rw [FunctionSignature.isStandard, sameSpan]
    exact userCode source isFunction
  rw [position] at signed
  obtain ⟨earlier, signature, later, rfl, made, earlierSigned⟩ := signatures_split signed
  have sameName : (signature.name == decl.name) = true := by
    rw [(FunctionDecl.signature_ok made).1]
    exact ReflBEq.rfl
  have libraryStays : ∀ own ∈
      ((earlier ++ signature :: later).filter fun signature => signature.name == decl.name),
      (!own.isStandard) = true := by
    intro own member
    simp [noneStandard own (List.mem_filter.mp member).1]
  refine ⟨signature, made, ?_, ?_⟩
  · rw [declarations]
    refine List.mem_append_right _ (List.mem_filter.mpr ⟨?_, sameName⟩)
    exact List.mem_append_right _ (List.mem_cons_self ..)
  · rw [declaredSignature?_eq, ownDeclarations_eq (declarations _),
      List.filter_eq_self.mpr libraryStays, List.filter_append, List.filter_cons, if_pos sameName,
      ← length_filter_signatures earlierSigned, List.getElem?_append_right (Nat.le_refl _),
      Nat.sub_self]
    rfl

/-- Where every declaration of a function finds its signature, none is standard. -/
theorem isUserCode_of_ownDeclarations (resolved : resolve library withConversions = .ok context)
    (enough : ∀ name, (library.functions.map FunctionDecl.name).count name ≤
      (context.ownDeclarations name).length) : library.IsUserCode := by
  obtain ⟨signatures, signed, declarations⟩ := functions_declared resolved
  intro decl isFunction
  obtain ⟨before, after, position⟩ := List.append_of_mem isFunction
  have counted := enough decl.name
  rw [ownDeclarations_eq (declarations _), ← length_filter_signatures signed] at counted
  -- No signature of the name falls out, that of the declaration among them.
  have allStay := List.length_filter_eq_length_iff.mp
    (Nat.le_antisymm (List.length_filter_le ..) counted)
  rw [position] at signed
  obtain ⟨earlier, signature, later, rfl, made, -⟩ := signatures_split signed
  obtain ⟨sameName, sameSpan, -, -⟩ := FunctionDecl.signature_ok made
  have stays := allStay signature (List.mem_filter.mpr
    ⟨List.mem_append_right _ (List.mem_cons_self ..), by rw [sameName]; exact ReflBEq.rfl⟩)
  rwa [Bool.not_eq_true', FunctionSignature.isStandard, sameSpan] at stays

end Context

end StructuredText
