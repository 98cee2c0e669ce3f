import BslLint.Proofs.Syntax.Traversals
import Mathlib.Data.List.Flatten

/-!
The order of the walk and the order of reading.

A text is read branch by branch, but the walk shows the predicates of all branches of a chain before
the statements of any of them. The two orders differ exactly where this can be seen: a call in a
predicate is shown too early if a branch above it holds a call in its statements
(`Branch.Ordered`). Where no chain does that, the walk shows the calls of a module as they are read
(`Event.occurrences_ofModule_of_chainsInOrder`), and any chain that does it brings two calls the
wrong way round (`Event.exists_swapped`).
-/

namespace BslLint

/-! ### Chains in order -/

/-- No call stands among the nodes. -/
def CallFree (ns : List Node) : Prop := ∀ n ∈ ns, n.isCall = false

instance (ns : List Node) : Decidable (CallFree ns) :=
  inferInstanceAs (Decidable (∀ n ∈ ns, n.isCall = false))

lemma CallFree.callsIn_eq {ns : List Node} (h : CallFree ns) (scope : Scope) :
    callsIn scope ns = [] := by
  simpa [callsIn, CallFree] using h

lemma exists_isCall_of_not_callFree {ns : List Node} (h : ¬CallFree ns) :
    ∃ n ∈ ns, n.isCall = true := by
  simpa [CallFree] using h

/-- Of two branches of a chain the first holds no call in its statements, or the second none in its
predicate. -/
def Branch.Ordered (b b' : Branch) : Prop :=
  CallFree (Statement.nodesList b.body) ∨ CallFree b'.predicate.nodes

instance : DecidableRel Branch.Ordered := fun b b' =>
  inferInstanceAs (Decidable (CallFree (Statement.nodesList b.body) ∨ CallFree b'.predicate.nodes))

/-- If the node is a chain, any two of its branches are in order. -/
def Node.ChainInOrder : Node → Prop
  | .statement (.ifChain first elseIfs _ _) => (first :: elseIfs).Pairwise Branch.Ordered
  | _ => True

instance : DecidablePred Node.ChainInOrder
  | .statement (.ifChain first elseIfs _ _) =>
    inferInstanceAs (Decidable ((first :: elseIfs).Pairwise Branch.Ordered))
  | .statement (.simple _ _ _) | .statement (.whileLoop _ _ _) | .statement (.forEach _ _ _ _)
  | .statement (.tryExcept _ _ _) | .statement (.execute _ _) | .statement (.returnValue _ _)
  | .expression _ => inferInstanceAs (Decidable True)

/-- Every chain of the module is in order. -/
def Module.ChainsInOrder (m : Module) : Prop := ∀ o ∈ m.occurrences, o.node.ChainInOrder

instance (m : Module) : Decidable m.ChainsInOrder :=
  inferInstanceAs (Decidable (∀ o ∈ m.occurrences, o.node.ChainInOrder))

namespace Event

/-- In a chain in order the predicates may be read before all statements. -/
lemma callsIn_predicates_append {scope : Scope} {bs : List Branch}
    (h : bs.Pairwise Branch.Ordered) :
    callsIn scope ((bs.map Branch.predicate).flatMap Expression.nodes) ++
        callsIn scope ((bs.map Branch.body).flatMap Statement.nodesList) =
      callsIn scope (Branch.nodesList bs) := by
  induction bs with
  | nil => rfl
  | cons b bs ih =>
    obtain ⟨hb, hbs⟩ := List.pairwise_cons.1 h
    rw [List.map_cons, List.map_cons, List.flatMap_cons, List.flatMap_cons, Branch.nodesList,
      callsIn_append, callsIn_append, callsIn_append, ← ih hbs, b.nodes_eq, callsIn_append]
    by_cases hfree : CallFree (Statement.nodesList b.body)
    · simp [hfree.callsIn_eq]
    · have hlater : CallFree ((bs.map Branch.predicate).flatMap Expression.nodes) := by
        intro n hn
        obtain ⟨p, hp, hn⟩ := List.mem_flatMap.1 hn
        obtain ⟨b', hb', rfl⟩ := List.mem_map.1 hp
        exact (hb b' hb').resolve_left hfree n hn
      simp [hlater.callsIn_eq]

lemma callsIn_nodesByParts_of_chainInOrder (scope : Scope) {s : Statement}
    (h : Node.ChainInOrder (.statement s)) :
    callsIn scope s.nodesByParts = callsIn scope s.nodes := by
  by_cases hchain : ∃ first elseIfs otherwise span,
    s = Statement.ifChain first elseIfs otherwise span
  · obtain ⟨first, elseIfs, otherwise, span, rfl⟩ := hchain
    rw [Statement.nodes_ifChain, ← List.singleton_append, callsIn_append, callsIn_append,
      ← callsIn_predicates_append h, Statement.nodesByParts, Statement.expressions,
      Statement.bodies, List.flatMap_append, ← List.singleton_append]
    simp only [callsIn_append, List.append_assoc]
  · rw [Statement.nodes_eq_nodesByParts]
    simpa using hchain

/-! ### The walk in reading order -/

lemma occurrences_ofStatement (scope : Scope) {s : Statement}
    (h : ∀ n ∈ s.nodes, n.ChainInOrder) :
    occurrences (ofStatement scope s) = callsIn scope s.nodes := by
  induction s using Statement.induction_bodies with
  | step s ih =>
    rw [← callsIn_nodesByParts_of_chainInOrder scope (h _ (Statement.mem_nodes_iff.2 (Or.inl rfl))),
      callsIn_nodesByParts, occurrences_ofStatement_eq]
    refine congrArg _ (List.flatMap_congr fun body hbody => ?_)
    rw [occurrences_ofStatements_eq_flatMap, Statement.nodesList_eq_flatMap, callsIn_flatMap]
    refine List.flatMap_congr fun t ht => ih body hbody t ht fun n hn => h n ?_
    exact Statement.mem_nodes_iff.2 (Or.inr (Or.inr ⟨body, hbody, t, ht, hn⟩))

lemma occurrences_ofStatements (scope : Scope) {ss : List Statement}
    (h : ∀ n ∈ Statement.nodesList ss, n.ChainInOrder) :
    occurrences (ofStatements scope ss) = callsIn scope (Statement.nodesList ss) := by
  rw [Statement.nodesList_eq_flatMap] at h
  rw [occurrences_ofStatements_eq_flatMap, Statement.nodesList_eq_flatMap, callsIn_flatMap]
  exact List.flatMap_congr fun s hs =>
    occurrences_ofStatement scope fun n hn => h n (List.mem_flatMap.2 ⟨s, hs, hn⟩)

/-- **Where the chains of a module are in order, so is the walk**: it shows the calls as they are
read. -/
theorem occurrences_ofModule_of_chainsInOrder {m : Module} (h : m.ChainsInOrder) :
    occurrences (ofModule m) = m.occurrences.filter fun o => o.node.isCall := by
  rw [filter_isCall_occurrences, occurrences_ofModule]
  refine List.flatMap_congr fun scope hscope => ?_
  refine occurrences_ofStatements scope fun n hn => ?_
  exact h ⟨scope, n⟩ (List.mem_flatMap.2 ⟨scope, hscope, List.mem_map_of_mem hn⟩)

end Event

/-! ### Chains out of order -/

lemma Expression.not_mem_nodes (s : Statement) (e : Expression) : Node.statement s ∉ e.nodes := by
  induction e using induction_children with
  | step e ih =>
    rw [nodes_eq, List.mem_cons, List.mem_flatMap]
    rintro (h | ⟨c, hc, h⟩)
    · cases h
    · exact ih c hc h

lemma Statement.nodesList_sublist_of_mem_bodies {s : Statement} {body : List Statement}
    (h : body ∈ s.bodies) : (nodesList body).Sublist s.nodes := by
  by_cases hchain : ∃ first elseIfs otherwise span, s = ifChain first elseIfs otherwise span
  · obtain ⟨first, elseIfs, otherwise, span, rfl⟩ := hchain
    rw [nodes_ifChain, Branch.nodesList_eq_flatMap]
    refine .cons _ ?_
    rcases List.mem_append.1 h with h | h
    · obtain ⟨b, hb, rfl⟩ := List.mem_map.1 h
      have hsub : (nodesList b.body).Sublist b.nodes := b.nodes_eq ▸ List.sublist_append_right ..
      exact (hsub.trans (List.sublist_flatten_of_mem (List.mem_map_of_mem hb))).trans
        (List.sublist_append_left ..)
    · exact (List.sublist_flatten_of_mem (List.mem_map_of_mem h)).trans
        (List.sublist_append_right ..)
  · have hnodes : s.nodes = s.nodesByParts := nodes_eq_nodesByParts (by simpa using hchain)
    rw [hnodes, nodesByParts]
    exact ((List.sublist_flatten_of_mem (List.mem_map_of_mem h)).trans
      (List.sublist_append_right ..)).cons _

namespace Event

/-- The statement is read among the nodes and shown among the events as one piece. -/
structure Holds (scope : Scope) (s : Statement) (nodes : List Node) (events : List Event) :
    Prop where
  read : s.nodes.Sublist nodes
  shown : (ofStatement scope s).Sublist events

lemma holds_of_mem_nodes {scope : Scope} {s t : Statement} (h : .statement s ∈ t.nodes) :
    Holds scope s t.nodes (ofStatement scope t) := by
  induction t using Statement.induction_bodies with
  | step t ih =>
    rcases Statement.mem_nodes_iff.1 h with h | ⟨e, -, h⟩ | ⟨body, hbody, u, hu, h⟩
    · obtain rfl : s = t := Node.statement.inj h
      exact ⟨.refl _, .refl _⟩
    · exact absurd h (e.not_mem_nodes s)
    · obtain ⟨hread, hshown⟩ := ih body hbody u hu h
      constructor
      · have hinner : u.nodes.Sublist (Statement.nodesList body) := by
          rw [Statement.nodesList_eq_flatMap]
          exact List.sublist_flatten_of_mem (List.mem_map_of_mem hu)
        exact (hread.trans hinner).trans (Statement.nodesList_sublist_of_mem_bodies hbody)
      · have hinner : (ofStatement scope u).Sublist (ofStatements scope body) := by
          rw [ofStatements_eq_flatMap]
          exact List.sublist_flatten_of_mem (List.mem_map_of_mem hu)
        rw [ofStatement_eq scope t]
        refine .cons _ ((hshown.trans hinner).trans ?_)
        exact (List.sublist_flatten_of_mem (List.mem_map_of_mem hbody)).trans
          (List.sublist_append_right ..)

lemma holds_of_mem_nodesList {scope : Scope} {s : Statement} {ss : List Statement}
    (h : .statement s ∈ Statement.nodesList ss) :
    Holds scope s (Statement.nodesList ss) (ofStatements scope ss) := by
  rw [Statement.nodesList_eq_flatMap, ofStatements_eq_flatMap] at *
  obtain ⟨t, ht, h⟩ := List.mem_flatMap.1 h
  obtain ⟨hread, hshown⟩ : Holds scope s t.nodes (ofStatement scope t) := holds_of_mem_nodes h
  exact ⟨hread.trans (List.sublist_flatten_of_mem (List.mem_map_of_mem ht)),
    hshown.trans (List.sublist_flatten_of_mem (List.mem_map_of_mem ht))⟩

lemma sublist_callsIn {ns ns' : List Node} (h : ns.Sublist ns') (scope : Scope) :
    (callsIn scope ns).Sublist (callsIn scope ns') :=
  (h.filter _).map _

/-- Two branches of a chain that are not in order: a call in the statements of the first is read
before a call in the predicate of the second, and shown behind it. -/
lemma exists_swapped_of_branches (scope : Scope) {bs : List Branch} {b b' : Branch}
    (hbs : [b, b'].Sublist bs) (h : ¬b.Ordered b') :
    ∃ x y, [x, y].Sublist (callsIn scope (Branch.nodesList bs)) ∧
      [y, x].Sublist (occurrences (ofExpressions scope (bs.map Branch.predicate)) ++
        occurrences (ofBranches scope bs)) := by
  obtain ⟨hbody, hpredicate⟩ := not_or.1 h
  obtain ⟨x, hx, hxcall⟩ := exists_isCall_of_not_callFree hbody
  obtain ⟨y, hy, hycall⟩ := exists_isCall_of_not_callFree hpredicate
  refine ⟨⟨scope, x⟩, ⟨scope, y⟩, ?_, ?_⟩
  · have hpair : [x, y].Sublist (b.nodes ++ b'.nodes) := by
      refine (List.singleton_sublist.2 ?_).append (List.singleton_sublist.2 ?_)
      · cases b
        exact List.mem_append_right _ hx
      · cases b'
        exact List.mem_append_left _ hy
    have hall : [x, y].Sublist (Branch.nodesList bs) := by
      rw [Branch.nodesList_eq_flatMap]
      exact hpair.trans (by simpa using hbs.flatMap Branch.nodes)
    simpa [callsIn, hxcall, hycall] using sublist_callsIn hall scope
  · refine (List.singleton_sublist.2 ?_).append (List.singleton_sublist.2 ?_)
    · have hb' : b' ∈ bs := hbs.subset (by simp)
      rw [occurrences_ofExpressions, callsIn]
      refine List.mem_map_of_mem (List.mem_filter.2 ⟨?_, hycall⟩)
      exact List.mem_flatMap.2 ⟨_, List.mem_map_of_mem hb', hy⟩
    · have hb : b ∈ bs := hbs.subset (by simp)
      have hshown : ⟨scope, x⟩ ∈ occurrences (ofStatements scope b.body) := by
        refine (ofStatements_perm scope b.body).mem_iff.2 ?_
        exact List.mem_map_of_mem (List.mem_filter.2 ⟨hx, hxcall⟩)
      rw [ofBranches_eq_flatMap, occurrences, List.filterMap_flatMap]
      exact List.mem_flatMap.2 ⟨b.body, List.mem_map_of_mem hb, hshown⟩

/-- **A chain that is out of order is seen**: some call is read before another one and shown behind
it. -/
theorem exists_swapped {m : Module} (h : ¬m.ChainsInOrder) :
    ∃ x y, [x, y].Sublist (m.occurrences.filter fun o => o.node.isCall) ∧
      [y, x].Sublist (occurrences (ofModule m)) := by
  simp only [Module.ChainsInOrder, not_forall] at h
  obtain ⟨o, ho, hchain⟩ := h
  obtain ⟨scope, hscope, hnode⟩ := List.mem_flatMap.1 ho
  obtain ⟨n, hn, rfl⟩ := List.mem_map.1 hnode
  cases n with
  | expression e => exact absurd trivial hchain
  | statement s =>
    cases s with
    | ifChain first elseIfs otherwise span =>
      simp only [Node.ChainInOrder, List.pairwise_iff_forall_sublist, not_forall] at hchain
      obtain ⟨b, b', hbs, hout⟩ := hchain
      obtain ⟨x, y, hread, hshown⟩ := exists_swapped_of_branches scope hbs hout
      obtain ⟨hnodes, hevents⟩ : Holds scope _ _ (ofStatements scope scope.statements) :=
        holds_of_mem_nodesList hn
      refine ⟨x, y, ?_, ?_⟩
      · have hchain : (Branch.nodesList (first :: elseIfs)).Sublist
            (Statement.ifChain first elseIfs otherwise span).nodes := by
          rw [Statement.nodes, ← Branch.nodesList]
          exact (List.sublist_append_left _ _).cons _
        rw [filter_isCall_occurrences]
        exact (hread.trans (sublist_callsIn (hchain.trans hnodes) scope)).trans
          (List.sublist_flatten_of_mem (List.mem_map_of_mem hscope))
      · have hchain : (ofExpressions scope ((first :: elseIfs).map Branch.predicate) ++
            ofBranches scope (first :: elseIfs)).Sublist
            (ofStatement scope (.ifChain first elseIfs otherwise span)) := by
          rw [ofStatement, ofBranches, ← List.append_assoc]
          exact (List.sublist_append_left _ _).cons _
        rw [occurrences_ofModule]
        rw [← occurrences_append] at hshown
        exact (hshown.trans ((hchain.trans hevents).filterMap occurrence?)).trans
          (List.sublist_flatten_of_mem (List.mem_map_of_mem hscope))
    | _ => exact absurd trivial hchain

end Event

end BslLint
