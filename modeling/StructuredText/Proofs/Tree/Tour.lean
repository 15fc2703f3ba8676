import Mathlib.Data.List.Basic
import StructuredText.Tree.Build
import StructuredText.Tree.Walk

/-!
# Walks as tours of a tree

A library is a tree: its nodes are the library, elements, statements, expressions and what
stands in them, and the parts of a node are numbered from left to right.  The way to a node is
the list of the numbers on it.  A tour goes to every leaf, in the order of the ways: depth
first and from left to right.  A walk calls the handler of a leaf just where the tour stops, and
a handler that fails ends the walk there.
-/

set_option autoImplicit false

namespace StructuredText

/-! ## The tree of a library -/

/-- A place in the tree of a library. -/
inductive Node where
  | leaf (found : Leaf)
  | reference (reference : Reference)
  | source (source : Variable)
  | expr (expr : Expr)
  | argument (argument : Argument)
  | stmt (stmt : Stmt)
  | elseIf (elseIf : ElseIf)
  | group (group : CaseGroup)
  | element (element : Element)
  | library (library : Library)

namespace Node

def unitParts (name : Ident) (vars : List VarDecl) (body : List Stmt) : List Node :=
  leaf (.ident name) :: (vars.map (leaf ∘ .declaration) ++ body.map stmt)

/-- The parts of a node, from left to right. -/
def parts : Node → List Node
  | leaf _ => []
  | reference (.named name) => [leaf (.ident name)]
  | reference (.element array subscripts) => reference array :: subscripts.map expr
  | reference (.field record name) => [reference record, leaf (.ident name)]
  | source (.direct address) => [leaf (.address address)]
  | source (.symbolic target) => [reference target]
  | expr (.compare _ left right) | expr (.arith _ left right) => [expr left, expr right]
  | expr (.unary _ term) => [expr term]
  | expr (.group inner) => [expr inner]
  | expr (.const value) => [leaf (.constant value)]
  | expr (.enumerated value) => [leaf (.enumerated value)]
  | expr (.var target) => [source target]
  | expr (.call function arguments) => leaf (.ident function) :: arguments.map argument
  | argument (.positional value) => [expr value]
  | argument (.named name value) => [leaf (.ident name), expr value]
  | argument (.output _ name target) => [leaf (.ident name), source target]
  | stmt (.assign target value) => [source target, expr value]
  | stmt (.invoke block arguments) => leaf (.ident block) :: arguments.map argument
  | stmt (.ifElse condition body elseIfs otherwise) =>
      expr condition :: (body.map stmt ++ (elseIfs.map elseIf ++ otherwise.map stmt))
  | stmt (.select selector groups otherwise) =>
      expr selector :: (groups.map group ++ otherwise.map stmt)
  | stmt (.forTo control first last step body) =>
      leaf (.ident control) :: expr first :: expr last ::
        (step.toList.map expr ++ body.map stmt)
  | stmt (.whileDo condition body) => expr condition :: body.map stmt
  | stmt (.repeatUntil body condition) => body.map stmt ++ [expr condition]
  | stmt .leaveUnit | stmt .leaveLoop => []
  | stmt (.pragma directive) => [leaf (.pragma directive)]
  | elseIf (.mk condition body) => expr condition :: body.map stmt
  | group (.mk labels body) => labels.map (leaf ∘ .label) ++ body.map stmt
  | element (.type decl) => [leaf (.type decl)]
  | element (.function ⟨name, _, vars, body⟩) => unitParts name vars body
  | element (.functionBlock ⟨name, vars, body⟩) => unitParts name vars body
  | element (.program ⟨name, vars, body⟩) => unitParts name vars body
  | element (.pragma directive) => [leaf (.pragma directive)]
  | library ⟨elements⟩ => elements.map element

/-- The leaf at the end of a way, which gives the number of the next part at each node. -/
def leafAt? : Node → List Nat → Option Leaf
  | leaf found, [] => some found
  | _, [] => none
  | node, index :: way => node.parts[index]?.bind fun part => part.leafAt? way

/-! ## The parts of a node are smaller -/

/-- The size of a node.  A leaf is smaller than every node that has parts. -/
noncomputable def weight : Node → Nat
  | leaf _ => 0
  | reference node => sizeOf node
  | source node => sizeOf node
  | expr node => sizeOf node
  | argument node => sizeOf node
  | stmt node => sizeOf node
  | elseIf node => sizeOf node
  | group node => sizeOf node
  | element node => sizeOf node
  | library node => sizeOf node

theorem sizeOf_lt {α : Type} [SizeOf α] {items : List α} {bound : Nat}
    (fits : sizeOf items ≤ bound) : ∀ item ∈ items, sizeOf item < bound :=
  fun _ member => Nat.lt_of_lt_of_le (List.sizeOf_lt_of_mem member) fits

theorem sizeOf_toList (step : Option Expr) : sizeOf step.toList ≤ sizeOf step + 1 := by
  cases step <;> simp

theorem weight_lt_of_mem_parts {node : Node} : ∀ part ∈ node.parts, part.weight < node.weight := by
  unfold parts
  split
  case h_22 control first last step body =>
    have stepFits := sizeOf_toList step
    simp only [List.forall_mem_cons, List.forall_mem_append, List.forall_mem_map, weight,
      Stmt.forTo.sizeOf_spec]
    exact ⟨by omega, by omega, by omega, sizeOf_lt (by omega), sizeOf_lt (by omega)⟩
  all_goals
    simp only [unitParts, List.forall_mem_cons, List.forall_mem_append, List.forall_mem_map,
      List.not_mem_nil, false_implies, implies_true, and_true, weight, Function.comp_apply]
    and_intros
  all_goals first
    | (refine sizeOf_lt ?_; simp <;> omega)
    | (simp <;> omega)

/-- A property of a node that follows from that of its parts holds of every node. -/
theorem induct {holds : Node → Prop}
    (step : ∀ node : Node, (∀ part ∈ node.parts, holds part) → holds node) (node : Node) :
    holds node :=
  step node fun part _ => induct step part
termination_by node.weight
decreasing_by exact weight_lt_of_mem_parts part ‹_›

/-! ## Tours -/

abbrev Stop := List Nat × Leaf

/-- A way comes before another one that goes to the right where the two part. -/
def Stop.Before (first second : Stop) : Prop := List.Lex (· < ·) first.1 second.1

/-- A tour from a node: all leaves under it, each once, in the order of the ways to them. -/
structure IsTour (node : Node) (stops : List Stop) : Prop where
  ordered : stops.Pairwise Stop.Before
  complete : ∀ way leaf, (way, leaf) ∈ stops ↔ node.leafAt? way = some leaf

/-- A tour from some parts of a node, which are numbered from `first` on. -/
structure IsTourFrom (first : Nat) (nodes : List Node) (stops : List Stop) : Prop where
  ordered : stops.Pairwise Stop.Before
  complete : ∀ way leaf, (way, leaf) ∈ stops ↔ ∃ index rest,
    way = (first + index) :: rest ∧ nodes[index]?.bind (·.leafAt? rest) = some leaf

theorem isTour_leaf (found : Leaf) : (leaf found).IsTour [([], found)] where
  ordered := List.pairwise_singleton ..
  complete way leaf := by
    cases way with
    | nil => simp [leafAt?, eq_comm]
    | cons index way => simp [leafAt?, parts]

theorem isTourFrom_nil (first : Nat) : IsTourFrom first [] [] where
  ordered := .nil
  complete way leaf := by simp

theorem IsTourFrom.cons {first : Nat} {node : Node} {nodes : List Node} {stops later : List Stop}
    (rest : IsTourFrom (first + 1) nodes later) (tour : node.IsTour stops) :
    IsTourFrom first (node :: nodes)
      (stops.map (fun stop => (first :: stop.1, stop.2)) ++ later) where
  ordered := by
    refine List.pairwise_append.mpr ⟨?_, rest.ordered, ?_⟩
    · exact List.pairwise_map.mpr (tour.ordered.imp fun before => .cons before)
    · rintro stop inFirst ⟨way, leaf⟩ inRest
      obtain ⟨inner, -, rfl⟩ := List.mem_map.mp inFirst
      obtain ⟨index, rest, rfl, -⟩ := (rest.complete way leaf).mp inRest
      exact .rel (by omega)
  complete way leaf := by
    rw [List.mem_append, rest.complete, List.mem_map]
    constructor
    · rintro (⟨⟨inner, found⟩, inside, same⟩ | ⟨index, rest, rfl, found⟩)
      · obtain ⟨rfl, rfl⟩ := Prod.mk.inj same
        exact ⟨0, inner, rfl, (tour.complete inner found).mp inside⟩
      · exact ⟨index + 1, rest, by rw [Nat.add_assoc, Nat.add_comm 1], found⟩
    · rintro ⟨_ | index, rest, rfl, found⟩
      · exact .inl ⟨(rest, leaf), (tour.complete rest leaf).mpr found, rfl⟩
      · exact .inr ⟨index, rest, by rw [Nat.add_assoc, Nat.add_comm 1], found⟩

theorem leafAt?_cons (node : Node) (index : Nat) (way : List Nat) :
    node.leafAt? (index :: way) = node.parts[index]?.bind (·.leafAt? way) := by
  cases node <;> rfl

/-- The tours from the parts of a node make up the tour from the node. -/
theorem IsTourFrom.isTour {node : Node} {stops : List Stop} (inner : node.leafAt? [] = none)
    (tour : IsTourFrom 0 node.parts stops) : node.IsTour stops where
  ordered := tour.ordered
  complete way leaf := by
    rw [tour.complete]
    cases way with
    | nil => simp [inner]
    | cons index way =>
        rw [leafAt?_cons]
        constructor
        · rintro ⟨other, rest, same, found⟩
          obtain ⟨rfl, rfl⟩ := List.cons.inj same
          rwa [Nat.zero_add]
        · exact fun found => ⟨index, way, by rw [Nat.zero_add], found⟩

/-! ## Walks -/

section Walk

variable {m : Type → Type} [Monad m] (visit : Leaf → m Unit)

def walk : Node → m Unit
  | leaf found => visit found
  | reference node => node.walk visit
  | source node => node.walk visit
  | expr node => node.walk visit
  | argument node => node.walk visit
  | stmt node => node.walk visit
  | elseIf (.mk condition body) => do
      condition.walk visit
      Stmt.walkList visit body
  | group (.mk labels body) => do
      labels.forM fun label => visit (.label label)
      Stmt.walkList visit body
  | element node => node.walk visit
  | library tree => tree.walk visit

theorem walk_exprs (exprs : List Expr) :
    Expr.walkList visit exprs = forM (exprs.map expr) (walk visit) := by
  induction exprs with
  | nil => rfl
  | cons first rest ih => rw [Expr.walkList, ih]; rfl

theorem walk_arguments (arguments : List Argument) :
    Argument.walkList visit arguments = forM (arguments.map argument) (walk visit) := by
  induction arguments with
  | nil => rfl
  | cons first rest ih => rw [Argument.walkList, ih]; rfl

theorem walk_stmts (stmts : List Stmt) :
    Stmt.walkList visit stmts = forM (stmts.map stmt) (walk visit) := by
  induction stmts with
  | nil => rfl
  | cons first rest ih => rw [Stmt.walkList, ih]; rfl

variable [LawfulMonad m]

theorem walk_elseIfs (elseIfs : List ElseIf) :
    ElseIf.walkList visit elseIfs = forM (elseIfs.map elseIf) (walk visit) := by
  induction elseIfs with
  | nil => rfl
  | cons first rest ih =>
      obtain ⟨condition, body⟩ := first
      rw [ElseIf.walkList, ih, List.map_cons, List.forM_cons, walk, bind_assoc]

theorem walk_groups (groups : List CaseGroup) :
    CaseGroup.walkList visit groups = forM (groups.map group) (walk visit) := by
  induction groups with
  | nil => rfl
  | cons first rest ih =>
      obtain ⟨labels, body⟩ := first
      rw [CaseGroup.walkList, ih, List.map_cons, List.forM_cons, walk, bind_assoc]

theorem walk_step (step : Option Expr) :
    Expr.walkOption visit step = forM (step.toList.map expr) (walk visit) := by
  cases step with
  | none => rfl
  | some step => exact (bind_pure_unit).symm

theorem walk_parts {node : Node} (inner : node.leafAt? [] = none) :
    node.walk visit = forM node.parts (walk visit) := by
  unfold parts
  split
  case h_1 => cases inner
  all_goals
    simp only [walk, Reference.walk, Variable.walk, Expr.walk, Argument.walk, Stmt.walk,
      Element.walk, walkUnit, unitParts, Library.walk, walk_exprs, walk_arguments, walk_stmts,
      walk_elseIfs, walk_groups, walk_step, List.forM_eq_forM, List.forM_cons,
      List.forM_append, List.forM_nil, List.forM_map, bind_pure_unit, Function.comp_apply]

end Walk

def WalksAlong (node : Node) (stops : List Stop) : Prop :=
  ∀ {m : Type → Type} [Monad m] [LawfulMonad m] (visit : Leaf → m Unit),
    node.walk visit = forM stops fun stop => visit stop.2

theorem exists_tourFrom {nodes : List Node} (first : Nat)
    (each : ∀ part ∈ nodes, ∃ stops, part.IsTour stops ∧ part.WalksAlong stops) :
    ∃ stops, IsTourFrom first nodes stops ∧
      ∀ {m : Type → Type} [Monad m] [LawfulMonad m] (visit : Leaf → m Unit),
        forM nodes (walk visit) = forM stops fun stop => visit stop.2 := by
  induction nodes generalizing first with
  | nil => exact ⟨[], isTourFrom_nil first, fun visit => rfl⟩
  | cons part nodes ih =>
      obtain ⟨⟨stops, tour, along⟩, others⟩ := List.forall_mem_cons.mp each
      obtain ⟨later, rest, alongRest⟩ := ih (first + 1) others
      refine ⟨_, rest.cons tour, fun visit => ?_⟩
      rw [List.forM_cons, along, alongRest, List.forM_append, List.forM_map]

/-- There is a tour from every node, and every walk goes along it. -/
theorem exists_tour (node : Node) : ∃ stops, node.IsTour stops ∧ node.WalksAlong stops := by
  induction node using induct with
  | step node ih =>
      cases leafHere : node.leafAt? [] with
      | some found =>
          cases node with
          | leaf => exact ⟨_, isTour_leaf _, fun visit => bind_pure_unit.symm⟩
          | _ => cases leafHere
      | none =>
          obtain ⟨stops, tour, along⟩ := exists_tourFrom 0 ih
          exact ⟨stops, tour.isTour leafHere,
            fun visit => (walk_parts visit leafHere).trans (along visit)⟩

end Node

/-! ## Handlers -/

/-- A handler of leaves.  It has a state of its own and may fail. -/
abbrev Handler (σ ε : Type) := Leaf → σ → Except ε Unit × σ

namespace Handler

variable {σ ε : Type} (handler : Handler σ ε)

def visit (leaf : Leaf) : ExceptT ε (StateM σ) Unit := ExceptT.mk (handler leaf)

/-- What comes of a walk that calls the handler: whether it fails, and the last state. -/
def walk (library : Library) (start : σ) : Except ε Unit × σ :=
  StateT.run (ExceptT.run (library.walk handler.visit)) start

/-- The handler with a record of the leaves that it was called for. -/
def recording : Handler (σ × List Leaf) ε := fun leaf (state, calls) =>
  ((handler leaf state).1, (handler leaf state).2, calls ++ [leaf])

/-- The handler fails at none of some leaves, which it meets one after the other. -/
inductive Succeeds : List Leaf → σ → σ → Prop where
  | done (state : σ) : Succeeds [] state state
  | next {leaf : Leaf} {leaves : List Leaf} {start middle final : σ}
      (goes : handler leaf start = (.ok (), middle)) (later : Succeeds leaves middle final) :
      Succeeds (leaf :: leaves) start final

def through (leaves : List Leaf) (start : σ) : Except ε Unit × σ :=
  StateT.run (ExceptT.run (forM leaves handler.visit)) start

theorem through_cons (leaf : Leaf) (leaves : List Leaf) (start : σ) :
    handler.through (leaf :: leaves) start =
      match handler leaf start with
      | (.ok (), middle) => handler.through leaves middle
      | (.error fault, final) => (.error fault, final) := by
  rw [through, List.forM_cons, ExceptT.run_bind, StateT.run_bind]
  have first : StateT.run (ExceptT.run (handler.visit leaf)) start = handler leaf start := rfl
  rw [first]
  rcases handler leaf start with ⟨_ | ⟨⟨⟩⟩, next⟩ <;> rfl

variable {handler}

theorem Succeeds.through {leaves : List Leaf} {start final : σ}
    (succeeds : handler.Succeeds leaves start final) (more : List Leaf) :
    handler.through (leaves ++ more) start = handler.through more final := by
  induction succeeds with
  | done => rfl
  | next goes _ ih =>
      rw [List.cons_append, through_cons, goes]
      exact ih

theorem Succeeds.recording {leaves : List Leaf} {start final : σ}
    (succeeds : handler.Succeeds leaves start final) (calls : List Leaf) :
    handler.recording.Succeeds leaves (start, calls) (final, calls ++ leaves) := by
  induction succeeds generalizing calls with
  | done state =>
      rw [List.append_nil]
      exact .done (state, calls)
  | @next leaf leaves start middle final goes _ ih =>
      have step : handler.recording leaf (start, calls) = (.ok (), (middle, calls ++ [leaf])) := by
        rw [Handler.recording, goes]
      have rest := ih (calls ++ [leaf])
      rw [List.append_assoc] at rest
      exact .next step rest

/-- A handler fails at the first of some leaves, or at none. -/
theorem succeeds_or_fails (leaves : List Leaf) (start : σ) :
    (∃ final, handler.Succeeds leaves start final) ∨
      ∃ before leaf after state fault final, leaves = before ++ leaf :: after ∧
        handler.Succeeds before start state ∧ handler leaf state = (.error fault, final) := by
  induction leaves generalizing start with
  | nil => exact .inl ⟨start, .done start⟩
  | cons leaf leaves ih =>
      rcases outcome : handler leaf start with ⟨fault | ⟨⟨⟩⟩, middle⟩
      · exact .inr ⟨[], leaf, leaves, start, fault, middle, rfl, .done start, outcome⟩
      · rcases ih middle with
          ⟨final, later⟩ | ⟨before, last, after, state, fault, final, rfl, later, fails⟩
        · exact .inl ⟨final, .next outcome later⟩
        · exact .inr
            ⟨leaf :: before, last, after, state, fault, final, rfl, .next outcome later, fails⟩

theorem walk_eq_through {library : Library} {stops : List Node.Stop}
    (along : (Node.library library).WalksAlong stops) (start : σ) :
    handler.walk library start = handler.through (stops.map Prod.snd) start := by
  have calls : library.walk handler.visit = forM (stops.map Prod.snd) handler.visit :=
    (along handler.visit).trans List.forM_map.symm
  rw [walk, calls, through]

theorem through_of_succeeds {leaves : List Leaf} {start final : σ}
    (succeeds : handler.Succeeds leaves start final) :
    handler.through leaves start = (.ok (), final) := by
  have run := succeeds.through []
  rwa [List.append_nil] at run

theorem through_of_fails {before after : List Leaf} {leaf : Leaf} {start state final : σ}
    {fault : ε} (succeeds : handler.Succeeds before start state)
    (fails : handler leaf state = (.error fault, final)) :
    handler.through (before ++ leaf :: after) start = (.error fault, final) := by
  rw [succeeds.through, through_cons, fails]

end Handler

/-- The default walk is a tour of the tree.  A handler that never fails is called for every leaf,
once and in the order of the tour; one that fails is called for the leaves up to the first at
which it does, and its failure is what comes of the walk. -/
theorem Library.walk_tours (library : Library) :
    ∃ stops, (Node.library library).IsTour stops ∧
      ∀ {σ ε : Type} (handler : Handler σ ε) (start : σ),
        ((∃ final, handler.Succeeds (stops.map Prod.snd) start final) ∨
          ∃ before leaf after state fault final, stops.map Prod.snd = before ++ leaf :: after ∧
            handler.Succeeds before start state ∧ handler leaf state = (.error fault, final)) ∧
        (∀ final, handler.Succeeds (stops.map Prod.snd) start final →
          handler.walk library start = (.ok (), final) ∧
            handler.recording.walk library (start, []) =
              (.ok (), (final, stops.map Prod.snd))) ∧
        (∀ before leaf after state fault final, stops.map Prod.snd = before ++ leaf :: after →
          handler.Succeeds before start state → handler leaf state = (.error fault, final) →
            handler.walk library start = (.error fault, final) ∧
              handler.recording.walk library (start, []) =
                (.error fault, (final, before ++ [leaf]))) := by
  obtain ⟨stops, tour, along⟩ := Node.exists_tour (.library library)
  refine ⟨stops, tour, fun handler start => ⟨Handler.succeeds_or_fails _ start, ?_, ?_⟩⟩
  · intro final succeeds
    rw [Handler.walk_eq_through along, Handler.walk_eq_through along]
    exact ⟨Handler.through_of_succeeds succeeds,
      Handler.through_of_succeeds (succeeds.recording [])⟩
  · intro before leaf after state fault final split succeeds fails
    have recorded : handler.recording leaf (state, [] ++ before) =
        (.error fault, (final, before ++ [leaf])) := by
      rw [Handler.recording, fails, List.nil_append]
    rw [Handler.walk_eq_through along, Handler.walk_eq_through along, split]
    exact ⟨Handler.through_of_fails succeeds fails,
      Handler.through_of_fails (succeeds.recording []) recorded⟩

def startingTimer : Library :=
  { elements := [.program { name := { name := "main" }, vars := [], body :=
      [.assign (.named { name := "a" }) (.named { name := "b" }),
        .ifElse (.named { name := "c" })
          [.invoke { name := "timer" } [.named { name := "IN" } (.named { name := "d" })]]
          [] []] }] }

def startingTimerLeaves : List Leaf :=
  ["main", "a", "b", "c", "timer", "IN", "d"].map fun name => .ident { name }

/-- A handler for a number of leaves, and no more. -/
def Handler.limited (limit : Nat) : Handler Nat String := fun _ count =>
  if count < limit then (.ok (), count + 1) else (.error "too many leaves", count)

theorem Handler.limited_succeeds (leaves : List Leaf) (start limit : Nat)
    (fits : start + leaves.length ≤ limit) :
    (Handler.limited limit).Succeeds leaves start (start + leaves.length) := by
  induction leaves generalizing start with
  | nil => exact .done start
  | cons leaf leaves ih =>
      rw [List.length_cons] at fits ⊢
      have rest := ih (start + 1) (by omega)
      rw [Nat.add_assoc, Nat.add_comm 1] at rest
      exact .next (if_pos (by omega)) rest

theorem Library.walk_tours_startingTimer :
    ∃ stops, (Node.library startingTimer).IsTour stops ∧
      stops.map Prod.snd = startingTimerLeaves ∧
      (Handler.limited 7).walk startingTimer 0 = (.ok (), 7) ∧
      (Handler.limited 3).recording.walk startingTimer (0, []) =
        (.error "too many leaves", (3, startingTimerLeaves.take 4)) := by
  obtain ⟨stops, tour, runs⟩ := Library.walk_tours startingTimer
  -- What is recorded on the walk shows which leaves the stops are at.
  have recorded : (Handler.limited 7).recording.walk startingTimer (0, []) =
      (.ok (), (7, startingTimerLeaves)) := rfl
  have leaves : stops.map Prod.snd = startingTimerLeaves := by
    rcases (runs (Handler.limited 7) 0).1 with ⟨final, succeeds⟩ |
      ⟨before, leaf, after, state, fault, final, split, succeeds, fails⟩
    · have run := ((runs (Handler.limited 7) 0).2.1 final succeeds).2
      rw [recorded] at run
      exact (Prod.mk.inj (Prod.mk.inj run).2).2.symm
    · have run := ((runs (Handler.limited 7) 0).2.2 before leaf after state fault final split
        succeeds fails).2
      rw [recorded] at run
      cases (Prod.mk.inj run).1
  have whole := ((runs (Handler.limited 7) 0).2.1 7
    (leaves ▸ Handler.limited_succeeds startingTimerLeaves 0 7 (by decide))).1
  have part := ((runs (Handler.limited 3) 0).2.2 (startingTimerLeaves.take 3)
    (.ident { name := "c" }) (startingTimerLeaves.drop 4) 3 "too many leaves" 3 leaves
    (Handler.limited_succeeds (startingTimerLeaves.take 3) 0 3 (by decide)) rfl).2
  exact ⟨stops, tour, leaves, whole, part⟩

end StructuredText
