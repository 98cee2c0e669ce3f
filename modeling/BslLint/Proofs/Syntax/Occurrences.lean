import BslLint.Proofs.Syntax.Descent
import BslLint.Proofs.Syntax.Places
import Mathlib.Data.List.Forall2
import Mathlib.Data.List.Perm.Basic
import Mathlib.Tactic.Common

/-!
The nodes of a module, each with the routine it belongs to, said without the walk.

`Module.occurrences` lists the statements and expressions of every routine at every depth, in
reading order. A routine is known by the regions around it, and its environments are those of the
module that every one of these regions and its own directives allow. The walk meets every executed
code and every invocation among the occurrences once, in the scope of its routine
(`Event.ofModule_perm`), and a declared method is found at its place with the same scope
(`Module.forall₂_declarations`).
-/

namespace BslLint

/-- A node in the syntax tree of a routine. -/
inductive Node where
  | statement (s : Statement)
  | expression (e : Expression)

namespace Node

def span : Node → Option Span
  | .statement s => s.span
  | .expression e => e.span

/-- Whether the node is executed code or an invocation. -/
def isCall : Node → Bool
  | .statement (.execute _ _) | .expression (.invocation _ _ _ _) => true
  | _ => false

end Node

namespace Expression

mutual

/-- The expression and its operands at every depth, in reading order. -/
def nodes : Expression → List Node
  | .literal value span => [.expression (.literal value span)]
  | .access name source span => .expression (.access name source span) :: nodesOption source
  | .invocation name receiver params span =>
    .expression (.invocation name receiver params span) ::
      (nodesOption receiver ++ nodesList params)
  | .binary op left right span =>
    .expression (.binary op left right span) :: (left.nodes ++ right.nodes)
  | .unary op operand span => .expression (.unary op operand span) :: operand.nodes

def nodesOption : Option Expression → List Node
  | none => []
  | some e => e.nodes

def nodesList : List (Option Expression) → List Node
  | [] => []
  | e :: es => nodesOption e ++ nodesList es

end

end Expression

mutual

/-- The statement, its expressions and the statements in it at every depth, in reading order: a
predicate comes before the statements it guards, and these before the next branch. -/
def Statement.nodes : Statement → List Node
  | .simple left right span =>
    .statement (.simple left right span) :: (left.nodes ++ Expression.nodesOption right)
  | .ifChain first elseIfs otherwise span =>
    .statement (.ifChain first elseIfs otherwise span) ::
      (first.nodes ++ Branch.nodesList elseIfs ++ Statement.nodesElse otherwise)
  | .whileLoop predicate body span =>
    .statement (.whileLoop predicate body span) :: (predicate.nodes ++ Statement.nodesList body)
  | .forEach loopVar collection body span =>
    .statement (.forEach loopVar collection body span) ::
      (collection.nodes ++ Statement.nodesList body)
  | .tryExcept body handler span =>
    .statement (.tryExcept body handler span) ::
      (Statement.nodesList body ++ Statement.nodesList handler)
  | .execute code span => .statement (.execute code span) :: code.nodes
  | .returnValue value span =>
    .statement (.returnValue value span) :: Expression.nodesOption value

def Branch.nodes : Branch → List Node
  | .mk predicate body => predicate.nodes ++ Statement.nodesList body

def Branch.nodesList : List Branch → List Node
  | [] => []
  | b :: bs => b.nodes ++ Branch.nodesList bs

def Statement.nodesElse : Option (List Statement) → List Node
  | none => []
  | some body => Statement.nodesList body

def Statement.nodesList : List Statement → List Node
  | [] => []
  | s :: ss => s.nodes ++ Statement.nodesList ss

end

/-- A routine of a module: a method with the regions around it, the outermost first, or the body of
the module, which stands in no region. -/
structure Routine where
  regions : List Region
  method : Option Method

namespace Routine

/-- The environments of a routine: those of the module that the condition of every region around it
and its own directives allow. -/
def environments (m : Module) (r : Routine) : EnvironmentSet :=
  let inRegions := r.regions.foldl (fun s g => s.inter g.condition.environments) m.environments
  match r.method with
  | none => inRegions
  | some f => inRegions.inter (Directive.environmentsOf f.directives)

/-- The scope of the nodes of a routine. -/
def scope (m : Module) (r : Routine) : Scope :=
  ⟨m, r.regions.getLast?, r.method, r.environments m⟩

lemma enterRegion_scope (m : Module) (regions : List Region) (g : Region) :
    (scope m ⟨regions, none⟩).enterRegion g = scope m ⟨regions ++ [g], none⟩ := by
  simp [scope, Scope.enterRegion, environments]

lemma enterMethod_scope (m : Module) (regions : List Region) (f : Method) :
    (scope m ⟨regions, none⟩).enterMethod f = scope m ⟨regions, some f⟩ := rfl

end Routine

namespace Item

mutual

/-- The methods of an item that stands in the given regions. -/
def routines (regions : List Region) : Item → List Routine
  | .method f => [⟨regions, some f⟩]
  | .region g items => routinesList (regions ++ [g]) items

def routinesList (regions : List Region) : List Item → List Routine
  | [] => []
  | item :: items => item.routines regions ++ routinesList regions items

end

end Item

/-- A node together with the scope of its routine. -/
structure Occurrence where
  scope : Scope
  node : Node

namespace Module

def methodScopes (m : Module) : List Scope :=
  (Item.routinesList [] m.items).map (Routine.scope m)

def routineScopes (m : Module) : List Scope := m.methodScopes ++ [Routine.scope m ⟨[], none⟩]

/-- Every node of a module with its scope, in reading order. -/
def occurrences (m : Module) : List Occurrence :=
  m.routineScopes.flatMap fun scope =>
    (Statement.nodesList scope.statements).map (Occurrence.mk scope)

end Module

/-! ### What the walk meets -/

/-- The calls among nodes, in the given scope. -/
def callsIn (scope : Scope) (nodes : List Node) : List Occurrence :=
  (nodes.filter Node.isCall).map (Occurrence.mk scope)

@[simp] lemma callsIn_append (scope : Scope) (a b : List Node) :
    callsIn scope (a ++ b) = callsIn scope a ++ callsIn scope b := by
  simp [callsIn]

lemma callsIn_flatMap {α : Type} (scope : Scope) (xs : List α) (f : α → List Node) :
    callsIn scope (xs.flatMap f) = xs.flatMap fun x => callsIn scope (f x) := by
  simp only [callsIn, List.filter_flatMap, List.map_flatMap]

namespace Expression

lemma nodesOption_eq_flatMap (e : Option Expression) :
    nodesOption e = e.toList.flatMap nodes := by
  cases e <;> simp [nodesOption]

lemma nodesList_eq_flatMap (es : List (Option Expression)) :
    nodesList es = (es.filterMap id).flatMap nodes := by
  induction es with
  | nil => rfl
  | cons e es ih => cases e <;> simp [nodesList, nodesOption, ih]

lemma nodes_eq (e : Expression) : e.nodes = .expression e :: e.children.flatMap nodes := by
  cases e <;> simp [nodes, children, nodesOption_eq_flatMap, nodesList_eq_flatMap]

lemma calls_eq_filter_nodes (e : Expression) :
    e.calls.map Node.expression = e.nodes.filter Node.isCall := by
  induction e using induction_children with
  | step e ih =>
    have hself : (if e.isInvocation then [e] else []).map Node.expression =
        [Node.expression e].filter Node.isCall := by
      cases e <;> rfl
    have hnodes : e.nodes = [.expression e] ++ e.children.flatMap nodes := e.nodes_eq
    rw [calls_eq, hnodes, List.map_append, hself, List.map_flatMap, List.filter_append,
      List.filter_flatMap]
    exact congrArg _ (List.flatMap_congr ih)

end Expression

namespace Statement

lemma nodesList_eq_flatMap (ss : List Statement) : nodesList ss = ss.flatMap nodes := by
  induction ss with
  | nil => rfl
  | cons s ss ih => rw [nodesList, ih, List.flatMap_cons]

/-- The nodes of a statement as the walk takes them: all its expressions before its bodies. -/
def nodesByParts (s : Statement) : List Node :=
  .statement s :: (s.expressions.flatMap Expression.nodes ++ s.bodies.flatMap nodesList)

end Statement

lemma perm_append_interchange {α : Type} (a b c d : List α) :
    (a ++ b ++ (c ++ d)).Perm (a ++ c ++ (b ++ d)) := by
  simp only [List.append_assoc]
  exact (List.perm_append_comm_assoc b c d).append_left a

lemma Branch.nodes_eq (b : Branch) :
    b.nodes = b.predicate.nodes ++ Statement.nodesList b.body := by
  cases b
  rfl

lemma Branch.nodesList_eq_flatMap (bs : List Branch) : Branch.nodesList bs = bs.flatMap nodes := by
  induction bs with
  | nil => rfl
  | cons b bs ih => rw [Branch.nodesList, ih, List.flatMap_cons]

lemma Branch.nodesList_perm (bs : List Branch) :
    ((bs.map predicate).flatMap Expression.nodes ++
      (bs.map body).flatMap Statement.nodesList).Perm (nodesList bs) := by
  induction bs with
  | nil => exact .refl _
  | cons b bs ih =>
    rw [List.map_cons, List.map_cons, List.flatMap_cons, List.flatMap_cons, nodesList, nodes_eq]
    exact (perm_append_interchange ..).trans (ih.append_left _)

namespace Statement

lemma nodes_ifChain (first : Branch) (elseIfs : List Branch) (otherwise : Option (List Statement))
    (span : Option Span) :
    (ifChain first elseIfs otherwise span).nodes =
      .statement (ifChain first elseIfs otherwise span) ::
      (Branch.nodesList (first :: elseIfs) ++ otherwise.toList.flatMap nodesList) := by
  cases otherwise <;> simp [nodes, Branch.nodesList, nodesElse]

/-- In a chain the walk changes the order, and nowhere else. -/
lemma nodes_eq_nodesByParts {s : Statement} (h : ∀ first elseIfs otherwise span,
    s ≠ ifChain first elseIfs otherwise span) : s.nodes = s.nodesByParts := by
  cases s with
  | ifChain first elseIfs otherwise span => exact absurd rfl (h first elseIfs otherwise span)
  | _ => simp [nodes, nodesByParts, expressions, bodies, Expression.nodesOption_eq_flatMap]

lemma nodesByParts_perm (s : Statement) : s.nodesByParts.Perm s.nodes := by
  by_cases h : ∃ first elseIfs otherwise span, s = ifChain first elseIfs otherwise span
  · obtain ⟨first, elseIfs, otherwise, span, rfl⟩ := h
    rw [nodes_ifChain, nodesByParts, expressions, bodies, List.flatMap_append, ← List.append_assoc]
    exact ((Branch.nodesList_perm _).append_right _).cons _
  · rw [nodes_eq_nodesByParts]
    simpa using h

lemma mem_nodes_iff {s : Statement} {n : Node} :
    n ∈ s.nodes ↔ n = .statement s ∨ (∃ e ∈ s.expressions, n ∈ e.nodes) ∨
      ∃ body ∈ s.bodies, ∃ t ∈ body, n ∈ t.nodes := by
  rw [← s.nodesByParts_perm.mem_iff]
  simp [nodesByParts, nodesList_eq_flatMap]

end Statement

namespace Event

/-- The call that an event brings to the visitor, with its scope. -/
def occurrence? : Event → Option Occurrence
  | .execute s scope => some ⟨scope, .statement s⟩
  | .call e scope => some ⟨scope, .expression e⟩
  | .method _ _ | .statement _ _ => none

/-- The calls among events. -/
def occurrences (events : List Event) : List Occurrence := events.filterMap occurrence?

@[simp] lemma occurrences_append (a b : List Event) :
    occurrences (a ++ b) = occurrences a ++ occurrences b := by
  simp [occurrences]

@[simp] lemma occurrences_statement (s : Statement) (scope : Scope) (events : List Event) :
    occurrences (.statement s scope :: events) = occurrences events := rfl

lemma occurrences_ofExpressions (scope : Scope) (es : List Expression) :
    occurrences (ofExpressions scope es) = callsIn scope (es.flatMap Expression.nodes) := by
  induction es with
  | nil => rfl
  | cons e es ih =>
    have he : occurrences (e.calls.map fun c => .call c scope) = callsIn scope e.nodes := by
      rw [callsIn, ← Expression.calls_eq_filter_nodes, occurrences, List.filterMap_map,
        List.map_map, ← List.filterMap_eq_map]
      rfl
    rw [List.flatMap_cons, callsIn_append, ← ih, ← he, ← occurrences_append]
    simp [ofExpressions]

lemma occurrences_ofStatements_eq_flatMap (scope : Scope) (ss : List Statement) :
    occurrences (ofStatements scope ss) =
      ss.flatMap fun s => occurrences (ofStatement scope s) := by
  rw [ofStatements_eq_flatMap, occurrences, List.filterMap_flatMap]
  rfl

lemma occurrences_ofStatement_eq (scope : Scope) (s : Statement) :
    occurrences (ofStatement scope s) =
      callsIn scope (.statement s :: s.expressions.flatMap Expression.nodes) ++
        s.bodies.flatMap fun body => occurrences (ofStatements scope body) := by
  have hself : occurrences (if s.isExecute then [.execute s scope] else []) =
      callsIn scope [.statement s] := by
    cases s <;> rfl
  rw [ofStatement_eq, occurrences_statement, occurrences_append, occurrences_append, hself,
    occurrences_ofExpressions, ← callsIn_append, List.singleton_append, occurrences,
    List.filterMap_flatMap]
  rfl

lemma callsIn_nodesByParts (scope : Scope) (s : Statement) :
    callsIn scope s.nodesByParts =
      callsIn scope (.statement s :: s.expressions.flatMap Expression.nodes) ++
        s.bodies.flatMap fun body => callsIn scope (Statement.nodesList body) := by
  rw [Statement.nodesByParts, ← List.cons_append, callsIn_append, callsIn_flatMap scope s.bodies]

/-- The walk meets every call of a statement once. -/
lemma ofStatement_perm (scope : Scope) (s : Statement) :
    (occurrences (ofStatement scope s)).Perm (callsIn scope s.nodes) := by
  induction s using Statement.induction_bodies with
  | step s ih =>
    have hparts : (callsIn scope s.nodesByParts).Perm (callsIn scope s.nodes) :=
      (s.nodesByParts_perm.filter _).map _
    refine .trans ?_ hparts
    rw [occurrences_ofStatement_eq, callsIn_nodesByParts]
    refine .append_left _ (.flatMap_left _ fun body hbody => ?_)
    rw [occurrences_ofStatements_eq_flatMap, Statement.nodesList_eq_flatMap, callsIn_flatMap]
    exact .flatMap_left _ (ih body hbody)

lemma ofStatements_perm (scope : Scope) (ss : List Statement) :
    (occurrences (ofStatements scope ss)).Perm (callsIn scope (Statement.nodesList ss)) := by
  rw [occurrences_ofStatements_eq_flatMap, Statement.nodesList_eq_flatMap, callsIn_flatMap]
  exact .flatMap_left _ fun s _ => ofStatement_perm scope s

/-- The calls of the routine with the given scope. -/
def callsOf (scope : Scope) : List Occurrence :=
  callsIn scope (Statement.nodesList scope.statements)

/-- What the walk shows of the routine with the given scope: the method, if it is one, and then its
statements. -/
def ofRoutine (scope : Scope) : List Event :=
  (scope.method.map fun f => .method f scope).toList ++ ofStatements scope scope.statements

lemma occurrences_ofRoutine (scope : Scope) :
    occurrences (ofRoutine scope) = occurrences (ofStatements scope scope.statements) := by
  unfold ofRoutine
  cases scope.method <;> rfl

-- The scope that the walk hands down is the one of a routine in the regions passed so far.
mutual

lemma ofItem_eq (m : Module) (regions : List Region) : ∀ item : Item,
    ofItem (Routine.scope m ⟨regions, none⟩) item =
      ((item.routines regions).map (Routine.scope m)).flatMap ofRoutine
  | .method f => by
    rw [ofItem, Routine.enterMethod_scope, Item.routines, List.map_singleton,
      List.flatMap_singleton]
    rfl
  | .region g items => by
    rw [ofItem, Routine.enterRegion_scope, Item.routines]
    exact ofItems_eq m (regions ++ [g]) items

lemma ofItems_eq (m : Module) (regions : List Region) : ∀ items : List Item,
    ofItems (Routine.scope m ⟨regions, none⟩) items =
      ((Item.routinesList regions items).map (Routine.scope m)).flatMap ofRoutine
  | [] => rfl
  | item :: items => by
    rw [ofItems, Item.routinesList, List.map_append, List.flatMap_append, ofItem_eq m regions item,
      ofItems_eq m regions items]

end

/-- **The walk goes through the routines**, one after the other. -/
theorem ofModule_eq (m : Module) : ofModule m = m.routineScopes.flatMap ofRoutine := by
  rw [Module.routineScopes, List.flatMap_append, List.flatMap_singleton]
  exact congrArg (· ++ _) (ofItems_eq m [] m.items)

lemma occurrences_ofModule (m : Module) :
    occurrences (ofModule m) =
      m.routineScopes.flatMap fun scope => occurrences (ofStatements scope scope.statements) := by
  simp only [ofModule_eq, occurrences, List.filterMap_flatMap]
  exact congrArg m.routineScopes.flatMap (funext occurrences_ofRoutine)

lemma filter_isCall_occurrences (m : Module) :
    m.occurrences.filter (fun o => o.node.isCall) = m.routineScopes.flatMap callsOf := by
  rw [Module.occurrences, List.filter_flatMap]
  simp only [List.filter_map]
  rfl

/-- **The walk meets every call of a module once**, in the scope of its routine. -/
theorem ofModule_perm (m : Module) :
    (occurrences (ofModule m)).Perm (m.occurrences.filter fun o => o.node.isCall) := by
  rw [filter_isCall_occurrences, occurrences_ofModule]
  exact List.Perm.flatMap_left _ fun scope _ => ofStatements_perm scope scope.statements

end Event

/-! ### Declared methods -/

namespace Item

/-- The scope is found at the place of the declaration, and it is the scope of its method. -/
def ScopedAt (m : Module) (d : Declaration) (s : Scope) : Prop :=
  scopeAt? (Scope.ofModule m) m.items d.path = some s ∧ s.module = m ∧ s.method = some d.method

-- The place read so far leads to the items of the innermost region, so that a step of the place
-- is an index into these.
mutual

lemma forall₂_declarations {m : Module} {place : List Nat} {regions : List Region}
    {all : List Item}
    (hplace : ∀ i path, scopeAt? (Scope.ofModule m) m.items (place.reverse ++ i :: path) =
      scopeAt? (Routine.scope m ⟨regions, none⟩) all (i :: path)) {index : Nat} :
    ∀ item : Item, all[index]? = some item →
      List.Forall₂ (ScopedAt m) (item.declarations (index :: place))
        ((item.routines regions).map (Routine.scope m))
  | .method f, hitem => by
    rw [declarations, routines, List.map_singleton]
    refine List.Forall₂.cons ⟨?_, rfl, rfl⟩ List.Forall₂.nil
    rw [List.reverse_cons, hplace, scopeAt?_method hitem, Routine.enterMethod_scope]
  | .region g items, hitem => by
    have hinner : ∀ i path,
        scopeAt? (Scope.ofModule m) m.items ((index :: place).reverse ++ i :: path) =
          scopeAt? (Routine.scope m ⟨regions ++ [g], none⟩) items (i :: path) := by
      intro i path
      rw [List.reverse_cons, List.append_assoc, List.singleton_append, hplace,
        scopeAt?_region hitem, Routine.enterRegion_scope]
    rw [declarations, routines]
    exact forall₂_declarationsFrom hinner items rfl

lemma forall₂_declarationsFrom {m : Module} {place : List Nat} {regions : List Region}
    {all : List Item}
    (hplace : ∀ i path, scopeAt? (Scope.ofModule m) m.items (place.reverse ++ i :: path) =
      scopeAt? (Routine.scope m ⟨regions, none⟩) all (i :: path)) {index : Nat} :
    ∀ items : List Item, all.drop index = items →
      List.Forall₂ (ScopedAt m) (declarationsFrom place index items)
        ((routinesList regions items).map (Routine.scope m))
  | [], _ => List.Forall₂.nil
  | item :: items, hitems => by
    have hitem : all[index]? = some item := by
      rw [← List.head?_drop, hitems, List.head?_cons]
    have hrest : all.drop (index + 1) = items := by
      rw [← List.tail_drop, hitems, List.tail_cons]
    rw [declarationsFrom, routinesList, List.map_append]
    exact List.rel_append (forall₂_declarations hplace item hitem)
      (forall₂_declarationsFrom hplace items hrest)

end

end Item

/-- The scope is the one that is looked up for the declaration. -/
structure Declaration.HasScope (m : Module) (d : Declaration) (s : Scope) : Prop where
  lookup : Scope.ofDeclaration m d = .ok s
  module_eq : s.module = m
  method_eq : s.method = some d.method

lemma Declaration.HasScope.unique {m : Module} {d : Declaration} {s s' : Scope}
    (h : d.HasScope m s) (h' : d.HasScope m s') : s = s' := by
  simpa using h.lookup.symm.trans h'.lookup

lemma Declaration.HasScope.scopeAt?_eq {m : Module} {d : Declaration} {s : Scope}
    (h : d.HasScope m s) : Item.scopeAt? (Scope.ofModule m) m.items d.path = some s := by
  have hlookup := h.lookup
  rw [Scope.ofDeclaration_eq] at hlookup
  split at hlookup
  · rename_i s' hs'
    rw [hs', Outcome.ok.inj hlookup]
  · cases hlookup

namespace Module

/-- **Every declared method is found at its place**, with the scope of its routine. -/
theorem forall₂_declarations (m : Module) :
    List.Forall₂ (Declaration.HasScope m) m.declarations m.methodScopes := by
  have hroot : ∀ i path, Item.scopeAt? (Scope.ofModule m) m.items ([].reverse ++ i :: path) =
      Item.scopeAt? (Routine.scope m ⟨[], none⟩) m.items (i :: path) := fun _ _ => rfl
  refine (Item.forall₂_declarationsFrom hroot m.items rfl).imp ?_
  rintro d s ⟨hplace, hmodule, hmethod⟩
  exact ⟨by rw [Scope.ofDeclaration_eq, hplace]; rfl, hmodule, hmethod⟩

lemma exists_mem_methodScopes {m : Module} {d : Declaration} (hd : d ∈ m.declarations) :
    ∃ s ∈ m.methodScopes, d.HasScope m s := by
  obtain ⟨i, rfl⟩ := List.mem_iff_get.1 hd
  have hlength := m.forall₂_declarations.length_eq
  exact ⟨_, List.get_mem _ _, m.forall₂_declarations.get i.isLt (hlength ▸ i.isLt)⟩

lemma exists_hasScope {m : Module} {d : Declaration} (hd : d ∈ m.declarations) :
    ∃ s, d.HasScope m s := by
  obtain ⟨s, -, hs⟩ := exists_mem_methodScopes hd
  exact ⟨s, hs⟩

end Module

end BslLint
