import StructuredText.Proofs.Lowering.InlineShape
import StructuredText.Proofs.Token.Integer
import StructuredText.Tree.Build
import Mathlib.Data.List.Forall2

/-!
# The cells that references lead to

A reference is lowered link by link.  Each link into an array has one subscript for every
dimension of the array type that the reference has led to so far, counted from the lower
bound of the dimension.  Offsets of indices within the bounds fit the lengths of the
dimensions, and different indices have different offsets; the declaration of the array has
these lengths if no other array of the library shares its name.
-/

set_option autoImplicit false

namespace StructuredText

/-! ## Links -/

/-- A step from a variable, or a part of it, to a part. -/
inductive Link where
  | field (name : Ident)
  | cell (array : ArrayEntry) (subscripts : List Expr)

/-- The links that a reference follows, and the type of what it refers to. -/
inductive Context.Leads (context : Context) (scope : Scope) :
    Reference → List Link → DataType → Prop where
  | named {name : Ident} {entry : VariableEntry} (found : scope.lookup name = some entry) :
      Leads context scope (.named name) [] entry.type
  | field {record : Reference} {links : List Link} {type inner : DataType} {name : Ident}
      (leads : Leads context scope record links type)
      (found : context.field? type name = some inner) :
      Leads context scope (.field record name) (links ++ [.field name]) inner
  | element {reference : Reference} {links : List Link} {type : DataType} {array : ArrayEntry}
      {subscripts : List Expr} (leads : Leads context scope reference links type)
      (isArray : type.resolved = array.type)
      (count : array.dimensions.length = subscripts.length) :
      Leads context scope (.element reference subscripts) (links ++ [.cell array subscripts])
        array.element

section Leads

variable {context : Context} {scope : Scope} {reference : Reference} {links : List Link}
  {type : DataType}

theorem Context.leads_of_referenceType
    (typed : context.referenceType scope reference = .ok type) :
    ∃ links, context.Leads scope reference links type := by
  induction reference using Reference.root.induct generalizing type with
  | case1 name =>
      rw [referenceType] at typed
      cases found : scope.lookup name with
      | none => rw [found] at typed; cases typed
      | some entry =>
          rw [found] at typed
          cases typed
          exact ⟨[], .named found⟩
  | case2 array subscripts ih =>
      obtain ⟨arrayType, name, dimensions, element, arrayTyped, isArray, count⟩ :=
        referenceType_array typed
      obtain ⟨links, leads⟩ := ih arrayTyped
      rw [referenceType, arrayTyped, ok_bind, isArray] at typed
      simp only [count, if_true] at typed
      cases typed
      have isEntry : arrayType.resolved = ArrayEntry.type ⟨name, dimensions, type⟩ := isArray
      exact ⟨_, .element leads isEntry count⟩
  | case3 record name ih =>
      rw [referenceType] at typed
      obtain ⟨recordType, recordTyped, typed⟩ := bind_eq_ok typed
      obtain ⟨links, leads⟩ := ih recordTyped
      cases found : context.field? recordType name with
      | none => rw [found] at typed; cases typed
      | some inner =>
          rw [found] at typed
          cases typed
          exact ⟨_, .field leads found⟩

theorem Context.Leads.referenceType (leads : context.Leads scope reference links type) :
    context.referenceType scope reference = .ok type := by
  induction leads with
  | named found => rw [Context.referenceType, found]
  | field _ found ih =>
      rw [Context.referenceType, ih, ok_bind]
      simp only [found]
  | element _ isArray count ih =>
      rw [Context.referenceType, ih, ok_bind, isArray]
      simp only [ArrayEntry.type, count, if_true]

theorem Context.Leads.count (leads : context.Leads scope reference links type)
    {array : ArrayEntry} {subscripts : List Expr} (isLink : .cell array subscripts ∈ links) :
    array.dimensions.length = subscripts.length := by
  induction leads with
  | named => cases isLink
  | field _ _ ih =>
      rcases List.mem_append.mp isLink with earlier | isLast
      · exact ih earlier
      · cases List.mem_singleton.mp isLast
  | element _ _ count ih =>
      rcases List.mem_append.mp isLink with earlier | isLast
      · exact ih earlier
      · cases List.mem_singleton.mp isLast
        exact count

end Leads

/-! ## Code of links -/

namespace Code

/-- A link in generated code: the name of a field, or subscripts with lower bounds. -/
inductive Link where
  | field (name : String)
  | cell (subscripts : List (Expr × Int))

/-- The text of a link in a statement at a depth. -/
def Link.print (depth : Nat) : Link → List Piece
  | .field name => [.text ("." ++ name)]
  | .cell subscripts =>
      .text ".table" :: subscripts.flatMap fun (value, lower) =>
        .text "[(" :: (value.print depth ++ [.text (") - (" ++ toString lower ++ ")]")])

def Path.extend (path : Path) : Link → Path
  | .field name => .field path name
  | .cell subscripts => .cell path (subscripts.map fun (value, lower) => .mk value lower)

def Path.ofLinks (links : List Link) : Path := links.foldl Path.extend .here

theorem Subscript.printList_map (depth : Nat) (subscripts : List (Expr × Int)) :
    Subscript.printList depth (subscripts.map fun (value, lower) => .mk value lower) =
      subscripts.flatMap fun (value, lower) =>
        .text "[(" :: (value.print depth ++ [.text (") - (" ++ toString lower ++ ")]")]) := by
  induction subscripts with
  | nil => rw [List.map_nil, Subscript.printList, List.flatMap_nil]
  | cons subscript subscripts ih =>
      rw [List.map_cons, Subscript.printList, ih, List.flatMap_cons]
      simp

theorem Path.print_extend (depth : Nat) (path : Path) (link : Link) :
    (path.extend link).print depth = path.print depth ++ link.print depth := by
  cases link with
  | field name => rw [extend, print, Link.print]
  | cell subscripts => rw [extend, print, Subscript.printList_map, Link.print]

/-- The text of a path is that of its links in order. -/
theorem Path.print_ofLinks (depth : Nat) (links : List Link) :
    (Path.ofLinks links).print depth = links.flatMap (Link.print depth) := by
  have general : ∀ path : Path, (links.foldl Path.extend path).print depth =
      path.print depth ++ links.flatMap (Link.print depth) := by
    induction links with
    | nil => exact fun path => by simp
    | cons link links ih =>
        intro path
        rw [List.foldl_cons, ih, print_extend, List.flatMap_cons, List.append_assoc]
  rw [ofLinks, general, print, List.nil_append]

end Code

/-- The code of a link: that of its subscripts in order, each with the lower bound of its
dimension. -/
def Link.lower (site : Site) (depth : Nat) : Link → Lower Code.Link
  | .field name => pure (.field name.upper)
  | .cell array subscripts => do
      let values ← subscripts.mapM (Expr.lower site depth)
      return .cell (values.zip (array.dimensions.map Dimension.lower))

section Lower

variable {site : Site} {reference : Reference} {links : List Link} {type : DataType}

theorem Context.dimension_of_leads {array : ArrayEntry} {context : Context} {scope : Scope}
    (leads : context.Leads scope reference links type) (isArray : type.resolved = array.type)
    (index : Nat) :
    context.dimension scope reference index =
      match array.dimensions[index]? with
      | some dimension => .ok dimension
      | none => .error (.internal .arrayDimensionUnresolved reference.span) := by
  rw [dimension, leads.referenceType, Except.map, isArray]
  rfl

theorem Expr.lowerSubscripts_of_leads {array : ArrayEntry}
    (leads : site.context.Leads site.scope reference links type)
    (isArray : type.resolved = array.type) (depth : Nat) {subscripts : List Expr} :
    ∀ {index : Nat} {dimensions : List Dimension},
      array.dimensions.drop index = dimensions → dimensions.length = subscripts.length →
      Expr.lowerSubscripts site depth reference index subscripts =
        (fun values => (values.zip (dimensions.map Dimension.lower)).map
          fun (value, lower) => Code.Subscript.mk value lower) <$>
          subscripts.mapM (Expr.lower site depth) := by
  induction subscripts with
  | nil =>
      intro index dimensions _ _
      rw [Expr.lowerSubscripts, List.mapM_nil, map_pure]
      rfl
  | cons subscript subscripts ih =>
      intro index dimensions rest count
      -- the dimension is looked up by its index; what is left of the dimensions starts with it
      cases dimensions with
      | nil => cases count
      | cons dimension dimensions =>
          have here : array.dimensions[index]? = some dimension := by
            rw [← List.head?_drop, rest, List.head?_cons]
          have later : array.dimensions.drop (index + 1) = dimensions := by
            rw [← List.tail_drop, rest, List.tail_cons]
          rw [Expr.lowerSubscripts, Context.dimension_of_leads leads isArray, here,
            ih later (Nat.succ.inj count), List.mapM_cons]
          simp only [map_eq_pure_bind, bind_assoc, pure_bind]
          rfl

/-- The path of a reference is lowered link by link, from the variable on. -/
theorem Reference.lowerPath_of_leads (leads : site.context.Leads site.scope reference links type)
    (depth : Nat) :
    reference.lowerPath site depth =
      Code.Path.ofLinks <$> links.mapM (Link.lower site depth) := by
  -- References grow at the end, and so do the links; `mapM` takes them from the front.
  have concat : ∀ (links : List Link) (link : Link),
      Code.Path.ofLinks <$> (links ++ [link]).mapM (Link.lower site depth) = (do
        let path ← Code.Path.ofLinks <$> links.mapM (Link.lower site depth)
        return path.extend (← link.lower site depth)) := by
    intro links link
    rw [List.mapM_append]
    simp [Code.Path.ofLinks]
  induction leads with
  | named found =>
      rw [lowerPath, List.mapM_nil, map_pure]
      rfl
  | field leads found ih =>
      rw [lowerPath, ih, concat]
      simp [Link.lower, Code.Path.extend]
  | element leads isArray count ih =>
      rw [lowerPath, ih, concat,
        Expr.lowerSubscripts_of_leads leads isArray depth List.drop_zero count]
      simp [Link.lower, Code.Path.extend]

end Lower

/-! ## Offsets -/

/-- The indices from the lower to the upper bound. -/
def Dimension.Contains (dimension : Dimension) (index : Int) : Prop :=
  dimension.lower ≤ index ∧ index ≤ dimension.upper

/-- What is left of indices without the lower bounds of their dimensions. -/
def Dimension.offsets (dimensions : List Dimension) (indices : List Int) : List Int :=
  List.zipWith (fun dimension index => index - dimension.lower) dimensions indices

section Offsets

variable {dimensions : List Dimension} {indices others : List Int}

/-- The bounds are values of tokens. -/
def Dimension.HasWidth (dimension : Dimension) : Prop :=
  (-2 ^ 127 < dimension.lower ∧ dimension.lower < 2 ^ 127) ∧
    -2 ^ 127 < dimension.upper ∧ dimension.upper < 2 ^ 127

/-- The length of a dimension that has indices wraps around only if the dimension counts as
empty then. -/
theorem Dimension.Contains.length_eq {dimension : Dimension} {index : Int}
    (contains : dimension.Contains index) (hasWidth : dimension.HasWidth)
    (notEmpty : dimension.isEmpty = false) :
    dimension.length = dimension.upper - dimension.lower + 1 := by
  obtain ⟨above, below⟩ := contains
  obtain ⟨⟨isLower, -⟩, -, isUpper⟩ := hasWidth
  have once : (dimension.upper - dimension.lower + 1) % ((2 ^ 128 : Nat) : Int) =
      dimension.upper - dimension.lower + 1 :=
    Int.emod_eq_of_lt (by omega) (by omega)
  rw [isEmpty, decide_eq_false_iff_not] at notEmpty
  simp only [length, Nat.pow_eq] at notEmpty ⊢
  rw [Int.bmod_def, once] at notEmpty ⊢
  split
  · rfl
  · next isFar =>
      rw [if_neg isFar] at notEmpty
      omega

theorem Dimension.offsets_fit (within : List.Forall₂ Dimension.Contains dimensions indices)
    (haveWidth : ∀ dimension ∈ dimensions, dimension.HasWidth)
    (notEmpty : ∀ dimension ∈ dimensions, dimension.isEmpty = false) :
    List.Forall₂ (fun length offset => 0 ≤ offset ∧ offset < length)
      (dimensions.map Dimension.length) (offsets dimensions indices) := by
  induction within with
  | nil => exact .nil
  | cons contains _ ih =>
      obtain ⟨hasWidth, restWidth⟩ := List.forall_mem_cons.mp haveWidth
      obtain ⟨firstNotEmpty, restNotEmpty⟩ := List.forall_mem_cons.mp notEmpty
      refine .cons ?_ (ih restWidth restNotEmpty)
      have exact := contains.length_eq hasWidth firstNotEmpty
      obtain ⟨above, below⟩ := contains
      dsimp only
      omega

theorem Dimension.offsets_injective (within : List.Forall₂ Dimension.Contains dimensions indices)
    (otherWithin : List.Forall₂ Dimension.Contains dimensions others)
    (same : offsets dimensions indices = offsets dimensions others) : indices = others := by
  induction within generalizing others with
  | nil =>
      cases otherWithin
      rfl
  | cons _ _ ih =>
      cases otherWithin with
      | cons _ otherWithin =>
          simp only [offsets, List.zipWith_cons_cons, List.cons.injEq] at same
          obtain ⟨sameHead, sameRest⟩ := same
          exact congrArg₂ List.cons (by omega) (ih otherWithin sameRest)

end Offsets

/-! ## Arrays of the library -/

section Known

variable {library : Library} {context : Context}

def Library.Knows (library : Library) (context : Context) (type : DataType) : Prop :=
  ∀ array : ArrayEntry, array.type.Within type → library.Mentions context array.type

theorem Library.knows_of_mentions {type : DataType} (mentioned : library.Mentions context type) :
    library.Knows context type :=
  fun _ isWithin => mentioned.within isWithin

theorem Library.knows_elementary (base : Elementary) :
    library.Knows context (.elementary base) := by
  intro array isWithin
  cases isWithin

theorem Library.Knows.within {inner outer : DataType} (knows : library.Knows context outer)
    (isWithin : inner.Within outer) : library.Knows context inner :=
  fun array inside => knows array (inside.trans isWithin)

def Scope.IsKnown (library : Library) (context : Context) (scope : Scope) : Prop :=
  ScopeStack.All (fun (entry : VariableEntry) => library.Knows context entry.type) scope

section Resolved

variable {withConversions : Bool}
  (resolved : Context.resolve library withConversions = .ok context)

include resolved

theorem Library.knows_type? {name : Ident} {type : DataType}
    (found : context.types.type? name = some type) : library.Knows context type := by
  obtain ⟨built, -, -⟩ := Context.resolve_ok resolved
  obtain ⟨base, rfl⟩ | ⟨decl, isDecl, names, -⟩ := TypeTable.cases_of_type? built found
  · exact knows_elementary base
  · exact knows_of_mentions
      (mentions_of_decl isDecl ((TypeTable.type?_congr _ names).trans found))

theorem Element.isKnown_innerScope {element : Element} (isElement : element ∈ library.elements) :
    (element.innerScope context ScopeStack.new).IsKnown library context := by
  refine Element.all_innerScope (Library.knows_elementary .bool)
    (fun _ _ => Library.knows_type? resolved) (fun decl isVar type typed => ?_) ScopeStack.all_new
  have inLibrary : decl ∈ library.elements.flatMap Element.vars :=
    List.mem_flatMap.mpr ⟨element, isElement, isVar⟩
  exact Library.knows_of_mentions (Library.mentions_of_var inLibrary typed)

theorem Library.knows_block {name : Ident} {signature : BlockSignature}
    (found : context.functions.block? name = some signature) :
    ∀ parameter ∈ signature.parameters, library.Knows context parameter.type := by
  obtain ⟨-, built, blocks⟩ := Context.resolve_ok resolved
  refine FunctionTable.all_of_build
    (fun signature => ∀ parameter ∈ signature.parameters, library.Knows context parameter.type)
    built ?_ ?_ found
  · intro signature isStandard parameter member
    obtain ⟨-, base, same⟩ := Standard.parameter_of_blocks signature isStandard parameter member
    rw [same]
    exact knows_elementary base
  · intro decl isBlock signature signed parameter member
    obtain ⟨parameters, made, rfl⟩ := map_eq_ok signed
    rw [← blocks] at made
    rcases (parameter_of_parametersOf made parameter member).2 with
      ⟨base, same⟩ | ⟨var, isVar, typed⟩
    · rw [same]
      exact knows_elementary base
    · refine knows_of_mentions (mentions_of_var ?_ typed)
      obtain ⟨element, isElement, same⟩ := List.mem_filterMap.mp isBlock
      refine List.mem_flatMap.mpr ⟨element, isElement, ?_⟩
      cases element <;> cases same
      exact isVar

theorem Library.knows_field {record inner : DataType} {name : Ident}
    (knows : library.Knows context record) (found : context.field? record name = some inner) :
    library.Knows context inner := by
  unfold Context.field? at found
  split at found
  · next isRecord =>
      obtain ⟨field, isField, rfl⟩ := Option.map_eq_some_iff.mp found
      refine (knows.within record.resolved_within).within ?_
      rw [isRecord]
      exact .record (List.mem_of_find?_eq_some isField) .here
  · obtain ⟨parameter, isParameter, rfl⟩ := Option.map_eq_some_iff.mp found
    obtain ⟨signature, isSignature, isParameter⟩ := Option.bind_eq_some_iff.mp isParameter
    exact knows_block resolved isSignature parameter (List.mem_of_find?_eq_some isParameter)
  · cases found

/-- What a reference leads to, and every array on the way, is known to the library. -/
theorem Context.Leads.mentions {scope : Scope} {reference : Reference} {links : List Link}
    {type : DataType} (leads : context.Leads scope reference links type)
    (isKnown : scope.IsKnown library context) :
    library.Knows context type ∧ ∀ array subscripts, .cell array subscripts ∈ links →
      library.Mentions context array.type := by
  induction leads with
  | named found => exact ⟨ScopeStack.All.lookup isKnown found, fun _ _ isLink => by cases isLink⟩
  | field _ found ih =>
      refine ⟨Library.knows_field resolved ih.1 found, fun array subscripts isLink => ?_⟩
      rcases List.mem_append.mp isLink with earlier | isLast
      · exact ih.2 array subscripts earlier
      · cases List.mem_singleton.mp isLast
  | @element _ _ type array _ _ isArray _ ih =>
      have mentioned : library.Mentions context array.type := by
        refine ih.1 array ?_
        rw [← isArray]
        exact type.resolved_within
      refine ⟨(Library.knows_of_mentions mentioned).within (.array .here), ?_⟩
      intro other subscripts isLink
      rcases List.mem_append.mp isLink with earlier | isLast
      · exact ih.2 other subscripts earlier
      · cases List.mem_singleton.mp isLast
        exact mentioned

end Resolved

end Known

/-! ## Addresses -/

/-- The library gives the name of the array to arrays of the same lengths only. -/
def ArrayEntry.IsUnshared (array : ArrayEntry) (library : Library) (context : Context) : Prop :=
  ∀ other : ArrayEntry, library.Mentions context other.type → (other.name == array.name) = true →
    other.dimensions.map Dimension.length = array.dimensions.map Dimension.length

/-- The one array that generated code declares under the name of an array has the lengths of
an array of the library with that name. -/
structure ArrayEntry.DeclaredAs (array : ArrayEntry) (library : Library) (context : Context)
    (types : List Code.TypeDecl) (element : String) (lengths : List Int) : Prop where
  declared : .array array.name.upper element lengths ∈ types
  once : ∀ otherElement otherLengths, .array array.name.upper otherElement otherLengths ∈ types →
    otherElement = element ∧ otherLengths = lengths
  origin : ∃ first : ArrayEntry, library.Mentions context first.type ∧
    (first.name == array.name) = true ∧ element = first.element.cName ∧
      lengths = first.dimensions.map Dimension.length

theorem ArrayEntry.DeclaredAs.lengths {array : ArrayEntry} {library : Library} {context : Context}
    {types : List Code.TypeDecl} {element : String} {lengths : List Int}
    (isDeclared : array.DeclaredAs library context types element lengths)
    (unshared : array.IsUnshared library context) :
    lengths = array.dimensions.map Dimension.length := by
  obtain ⟨first, mentioned, names, -, same⟩ := isDeclared.origin
  rw [same, unshared first mentioned names]

theorem ArrayEntry.declaredAs_of_mentions {array : ArrayEntry} {library : Library}
    {context : Context} {types : List Code.TypeDecl}
    (built : TypeTable.build TypeTable.elementary library.typeDecls = .ok context.types)
    (run : library.lowerTypes context = .ok types)
    (mentioned : library.Mentions context array.type) :
    ∃ element lengths, array.DeclaredAs library context types element lengths := by
  obtain ⟨entries, decls, distinct, known, all⟩ := Library.arrays_declared built run
  obtain ⟨first, isFirst, names⟩ := all array.name array.dimensions array.element mentioned
  have upper := Ident.beq_iff_upper.mp names
  have mem_iff : ∀ decl : Code.TypeDecl, decl.isArray = true →
      (decl ∈ types ↔ ∃ entry ∈ entries, entry.decl = decl) := by
    intro decl isArray
    rw [← List.mem_map, ← decls, List.mem_filter, and_iff_left isArray]
  refine ⟨first.element.cName, _, ?_, ?_, first, known first isFirst, names, rfl, rfl⟩
  · exact (mem_iff _ rfl).mpr ⟨first, isFirst, by rw [decl, upper]⟩
  · intro otherElement otherLengths isDecl
    obtain ⟨entry, isEntry, same⟩ := (mem_iff _ rfl).mp isDecl
    simp only [decl, Code.TypeDecl.array.injEq] at same
    obtain ⟨sameName, rfl, rfl⟩ := same
    have isSame : (entry.name == first.name) = true :=
      Ident.beq_iff_upper.mpr (sameName.trans upper.symm)
    rw [eq_of_distinct distinct isEntry isFirst isSame]
    exact ⟨rfl, rfl⟩

theorem Range.Means.hasWidth {range : Range} {dimension : Dimension}
    (means : range.Means dimension) : dimension.HasWidth := by
  have fits : ∀ {token : SignedToken} {value : Int}, token.value? = some value →
      -2 ^ 127 < value ∧ value < 2 ^ 127 := by
    intro token value found
    obtain ⟨magnitude, small, -, rfl⟩ := SignedToken.value?_eq_some_iff_magnitude.mp found
    split <;> omega
  exact ⟨fits means.1, fits means.2⟩

theorem ArrayEntry.haveWidth_of_mentions {array : ArrayEntry} {library : Library}
    {context : Context}
    (built : TypeTable.build TypeTable.elementary library.typeDecls = .ok context.types)
    (mentioned : library.Mentions context array.type) :
    ∀ dimension ∈ array.dimensions, dimension.HasWidth := by
  intro dimension member
  rcases (library.occurs_of_mentions built mentioned).array_cases built with
    ⟨shape, -, isShape⟩ | ⟨⟨shape, -, isShape⟩, -⟩
  · obtain ⟨range, -, means⟩ := exists_of_mem_right isShape.1 dimension member
    exact means.hasWidth
  · obtain ⟨range, -, means⟩ := exists_of_mem_right isShape.1 dimension member
    exact means.hasWidth

/-- Every reference with a type is lowered link by link.  Each link into an array has one
subscript for every dimension of the array, with the lower bound of the dimension; offsets of
indices within the bounds differ if the indices do, and fit the lengths of the dimensions if
none of these is empty.  In a library the array is declared once under its name, with these
lengths unless the library gives the name to arrays of other lengths too. -/
theorem Site.reference_addresses_cells {site : Site} {reference : Reference} {type : DataType}
    (typed : site.context.referenceType site.scope reference = .ok type) :
    ∃ links, site.context.Leads site.scope reference links type ∧
      (∀ depth, reference.lowerPath site depth =
        Code.Path.ofLinks <$> links.mapM (Link.lower site depth)) ∧
      (∀ depth parts, (Code.Path.ofLinks parts).print depth =
        parts.flatMap (Code.Link.print depth)) ∧
      ∀ array subscripts, .cell array subscripts ∈ links →
        array.dimensions.length = subscripts.length ∧
        (∀ indices, List.Forall₂ Dimension.Contains array.dimensions indices →
          ((∀ dimension ∈ array.dimensions,
              dimension.HasWidth ∧ dimension.isEmpty = false) →
            List.Forall₂ (fun length offset => 0 ≤ offset ∧ offset < length)
              (array.dimensions.map Dimension.length)
              (Dimension.offsets array.dimensions indices)) ∧
            ∀ others, List.Forall₂ Dimension.Contains array.dimensions others →
              Dimension.offsets array.dimensions indices =
                Dimension.offsets array.dimensions others → indices = others) ∧
        ∀ (library : Library) withConversions element types,
          Context.resolve library withConversions = .ok site.context →
          library.lowerTypes site.context = .ok types → element ∈ library.elements →
          site.scope = element.innerScope site.context ScopeStack.new →
          (∀ dimension ∈ array.dimensions, dimension.HasWidth) ∧
          ∃ elementName lengths,
            array.DeclaredAs library site.context types elementName lengths ∧
            (array.IsUnshared library site.context →
              lengths = array.dimensions.map Dimension.length) := by
  obtain ⟨links, leads⟩ := Context.leads_of_referenceType typed
  refine ⟨links, leads, Reference.lowerPath_of_leads leads, Code.Path.print_ofLinks,
    fun array subscripts isLink => ⟨leads.count isLink, fun indices within => ?_, ?_⟩⟩
  · refine ⟨fun fit => ?_, fun others => Dimension.offsets_injective within⟩
    exact Dimension.offsets_fit within (fun dimension member => (fit dimension member).1)
      fun dimension member => (fit dimension member).2
  · intro library withConversions element types resolved run isElement inScope
    have isKnown := Element.isKnown_innerScope resolved isElement
    rw [← inScope] at isKnown
    obtain ⟨built, -, -⟩ := Context.resolve_ok resolved
    have mentioned := (leads.mentions resolved isKnown).2 array subscripts isLink
    obtain ⟨elementName, lengths, isDeclared⟩ :=
      ArrayEntry.declaredAs_of_mentions built run mentioned
    exact ⟨ArrayEntry.haveWidth_of_mentions built mentioned, elementName, lengths, isDeclared,
      isDeclared.lengths⟩

def Code.TypeDecl.lengths? : Code.TypeDecl → Option (String × List Int)
  | .array name _ lengths => some (name, lengths)
  | _ => none

/-- A cell of an array in a record in an array, whose subscripts read an array. -/
def rackedCell : Reference :=
  .element (.field (.element (.named "racks") [.var (.elementOf "order" [.named "turn"])]) "Levels")
    [.ofInt 3, .named "turn"]

def racking : Library where
  elements :=
    [.type (.array "Levels"
        { ranges :=
            [{ start := .ofInt 2, stop := .ofInt 4 }, { start := .ofInt (-1), stop := .ofInt 1 }]
          element := "INT" }),
      .type (.record "Rack" [{ name := "Levels", initializer := .simple "Levels" none }]),
      .type (.synonym "Shelf" "Rack"),
      .program
        { name := "Main"
          vars :=
            [VarDecl.simple "turn" "INT",
              VarDecl.array "order" [{ start := .ofInt 1, stop := .ofInt 3 }] "INT",
              VarDecl.array "racks" [{ start := .ofInt 0, stop := .ofInt 9 }] "Shelf"]
          body := [.assign (.symbolic rackedCell) (.ofInt 0)] }]

def rackSite (context : Context) : Site :=
  { context, scope := Element.innerScope context ScopeStack.new racking.elements[3]
    style := .accessor, unit := "MAIN" }

theorem racking_runs : (racking.accepted?.bind fun context => do
    let site := rackSite context
    let type ← (context.referenceType site.scope rackedCell).toOption
    let (path, _) ← (rackedCell.lowerPath site 0 {}).toOption
    let types ← (racking.lowerTypes context).toOption
    return (type.cName, Code.Piece.renderAll 2 (path.print 0),
      types.filterMap Code.TypeDecl.lengths?)) =
      some ("INT",
        ".table[(__GET_VAR(data__->ORDER,.table[(__GET_VAR(data__->TURN)) - (1)])) - (0)]" ++
          ".LEVELS.table[(3) - (2)][(__GET_VAR(data__->TURN)) - (-1)]",
        [("LEVELS", [3, 3]), ("__ARRAY_OF_INT_3", [3]), ("__ARRAY_OF_SHELF_10", [10])]) := by
  decide +kernel

theorem Site.reference_addresses_cells_racking :
    ∃ context types type path after links,
      Context.resolve racking = .ok context ∧ racking.lowerTypes context = .ok types ∧
        context.referenceType (rackSite context).scope rackedCell = .ok type ∧
        context.Leads (rackSite context).scope rackedCell links type ∧
        rackedCell.lowerPath (rackSite context) 0 {} = .ok (path, after) ∧
        Code.Piece.renderAll 2 (path.print 0) =
          ".table[(__GET_VAR(data__->ORDER,.table[(__GET_VAR(data__->TURN)) - (1)])) - (0)]" ++
            ".LEVELS.table[(3) - (2)][(__GET_VAR(data__->TURN)) - (-1)]" ∧
        ∀ array subscripts, .cell array subscripts ∈ links →
          array.dimensions.length = subscripts.length ∧
          ∃ elementName lengths, array.DeclaredAs racking context types elementName lengths := by
  obtain ⟨context, isAccepted, found⟩ := Option.bind_eq_some_iff.mp racking_runs
  obtain ⟨resolved, -⟩ := Library.of_accepted? isAccepted
  obtain ⟨type, typed, found⟩ := Option.bind_eq_some_iff.mp found
  obtain ⟨⟨path, after⟩, run, found⟩ := Option.bind_eq_some_iff.mp found
  obtain ⟨types, typesRun, found⟩ := Option.bind_eq_some_iff.mp found
  have typed : (rackSite context).context.referenceType (rackSite context).scope rackedCell =
      .ok type := eq_ok_of_toOption typed
  have typesRun := eq_ok_of_toOption typesRun
  have shown := (Prod.mk.inj (Prod.mk.inj (Option.some.inj found)).2).1
  obtain ⟨links, leads, -, -, cells⟩ :=
    Site.reference_addresses_cells typed
  refine ⟨context, types, type, path, after, links, resolved, typesRun, typed, leads,
    eq_ok_of_toOption run, shown, fun array subscripts isLink => ?_⟩
  obtain ⟨count, -, declared⟩ := cells array subscripts isLink
  obtain ⟨-, elementName, lengths, isDeclared, -⟩ :=
    declared racking false racking.elements[3] types resolved typesRun (List.getElem_mem _) rfl
  exact ⟨count, elementName, lengths, isDeclared⟩

def stackedCell : Reference := .element (.named "b") [.ofInt 1, .ofInt 2]

/-- A program with two arrays that are written out, one over a type whose name ends like the
name of an array. -/
def stacking : Library where
  elements :=
    [.type (.synonym "INT_3" "INT"),
      .program
        { name := "Main"
          vars :=
            [VarDecl.array "a" [{ start := .ofInt 1, stop := .ofInt 4 }] "INT_3",
              VarDecl.array "b"
                [{ start := .ofInt 1, stop := .ofInt 3 }, { start := .ofInt 1, stop := .ofInt 4 }]
                "INT"]
          body := [.assign (.symbolic stackedCell) (.ofInt 0)] }]

def stackSite (context : Context) : Site :=
  { context, scope := Element.innerScope context ScopeStack.new stacking.elements[1]
    style := .accessor, unit := "MAIN" }

def Scope.array? (scope : Scope) (name : Ident) : Option ArrayEntry :=
  (scope.lookup name).bind fun entry =>
    match entry.type.resolved with
    | .array name dimensions element => some ⟨name, dimensions, element⟩
    | _ => none

theorem Scope.lookup_of_array? {scope : Scope} {name : Ident} {array : ArrayEntry}
    (found : scope.array? name = some array) :
    ∃ entry, scope.lookup name = some entry ∧ entry.type.resolved = array.type := by
  obtain ⟨entry, isEntry, found⟩ := Option.bind_eq_some_iff.mp found
  refine ⟨entry, isEntry, ?_⟩
  split at found
  · next isArray =>
      cases found
      exact isArray
  · cases found

theorem stacking_runs : (stacking.accepted?.bind fun context => do
    let array ← (stackSite context).scope.array? "b"
    let types ← (stacking.lowerTypes context).toOption
    return (array.name.upper, array.dimensions.map Dimension.length,
      types.filterMap Code.TypeDecl.lengths?)) =
      some ("__ARRAY_OF_INT_3_4", [3, 4], [("__ARRAY_OF_INT_3_4", [4])]) := by
  decide +kernel

/-- The array that an accepted reference leads into may be declared with other lengths than
those of its dimensions. -/
theorem Site.array_declared_otherwise :
    ∃ context notes types array links,
      Context.resolve stacking = .ok context ∧ stacking.check context = .ok notes ∧
        stacking.lowerTypes context = .ok types ∧
        context.Leads (stackSite context).scope stackedCell links array.element ∧
        .cell array [.ofInt 1, .ofInt 2] ∈ links ∧
        array.dimensions.map Dimension.length = [3, 4] ∧
        (array.name.upper, [4]) ∈ types.filterMap Code.TypeDecl.lengths? ∧
        ∀ element, .array array.name.upper element [3, 4] ∉ types := by
  obtain ⟨context, isAccepted, found⟩ := Option.bind_eq_some_iff.mp stacking_runs
  obtain ⟨resolved, notes, checked⟩ := Library.of_accepted? isAccepted
  obtain ⟨array, isArray, found⟩ := Option.bind_eq_some_iff.mp found
  obtain ⟨types, typesRun, found⟩ := Option.bind_eq_some_iff.mp found
  obtain ⟨entry, isEntry, sameType⟩ := Scope.lookup_of_array? isArray
  simp only [pure, Option.some.injEq, Prod.mk.injEq] at found
  obtain ⟨named, lengths, declared⟩ := found
  have count : array.dimensions.length = 2 := by
    rw [← List.length_map Dimension.length, lengths]
    rfl
  refine ⟨context, notes, types, array, _, resolved, checked, eq_ok_of_toOption typesRun,
    .element (.named isEntry) sameType count, List.mem_singleton_self _, lengths, ?_, ?_⟩
  · rw [declared, named]
    exact List.mem_singleton_self _
  · intro element isDecl
    have isListed : (array.name.upper, [3, 4]) ∈ types.filterMap Code.TypeDecl.lengths? :=
      List.mem_filterMap.mpr ⟨_, isDecl, rfl⟩
    rw [declared, named] at isListed
    cases List.mem_singleton.mp isListed

end StructuredText
