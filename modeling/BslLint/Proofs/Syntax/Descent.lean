import BslLint.Syntax.Walk
import Mathlib.Tactic.Common

/-!
The way down a syntax tree, by the parts of a node: the operands of an expression, and the
expressions and bodies of a statement. The walk shows a statement, then the calls in its
expressions, then its bodies (`Event.ofStatement_eq`); so do the calls in an expression follow its
operands (`Expression.calls_eq`). What holds of a node as soon as it holds of its parts holds of
every node (`Expression.induction_children`, `Statement.induction_bodies`).
-/

namespace BslLint

namespace Expression

def isInvocation : Expression → Bool
  | .invocation _ _ _ _ => true
  | .literal _ _ | .access _ _ _ | .binary _ _ _ _ | .unary _ _ _ => false

lemma sizeOf_lt_of_mem_children {e c : Expression} (h : c ∈ e.children) : sizeOf c < sizeOf e := by
  cases e with
  | literal value span => cases h
  | access name source span =>
    obtain rfl := Option.mem_toList.1 h
    simp
    omega
  | invocation name receiver params span =>
    rcases List.mem_append.1 h with h | h
    · obtain rfl := Option.mem_toList.1 h
      simp
      omega
    · obtain ⟨p, hp, rfl⟩ := List.mem_filterMap.1 h
      have hlt := List.sizeOf_lt_of_mem hp
      simp at hlt ⊢
      omega
  | binary op left right span =>
    simp only [children, List.mem_cons, List.not_mem_nil, or_false] at h
    rcases h with rfl | rfl
    · simp
      omega
    · simp
      omega
  | unary op operand span =>
    obtain rfl := List.mem_singleton.1 h
    simp
    omega

theorem induction_children {P : Expression → Prop}
    (step : ∀ e : Expression, (∀ c ∈ e.children, P c) → P e) (e : Expression) : P e :=
  step e fun c _ => induction_children step c
termination_by sizeOf e
decreasing_by exact sizeOf_lt_of_mem_children ‹_›

lemma callsOption_eq_flatMap (e : Option Expression) :
    callsOption e = e.toList.flatMap calls := by
  cases e <;> simp [callsOption]

lemma callsList_eq_flatMap (es : List (Option Expression)) :
    callsList es = (es.filterMap id).flatMap calls := by
  induction es with
  | nil => rfl
  | cons e es ih => cases e <;> simp [callsList, callsOption, ih]

theorem calls_eq (e : Expression) :
    e.calls = (if e.isInvocation then [e] else []) ++ e.children.flatMap calls := by
  cases e <;>
    simp [calls, isInvocation, children, callsOption_eq_flatMap, callsList_eq_flatMap]

end Expression

namespace Statement

def isExecute : Statement → Bool
  | .execute _ _ => true
  | .simple _ _ _ | .ifChain _ _ _ _ | .whileLoop _ _ _ | .forEach _ _ _ _ | .tryExcept _ _ _
  | .returnValue _ _ => false

lemma sizeOf_lt_of_mem_bodies {s t : Statement} {body : List Statement} (hbody : body ∈ s.bodies)
    (ht : t ∈ body) : sizeOf t < sizeOf s := by
  have hlt := List.sizeOf_lt_of_mem ht
  have hmem : sizeOf body < sizeOf s := by
    cases s with
    | ifChain first elseIfs otherwise span =>
      rcases List.mem_append.1 hbody with h | h
      · obtain ⟨b, hb, rfl⟩ := List.mem_map.1 h
        have hb' := List.sizeOf_lt_of_mem hb
        cases b
        simp [Branch.body] at hb' ⊢
        omega
      · obtain rfl := Option.mem_toList.1 h
        simp
        omega
    | whileLoop predicate body span =>
      obtain rfl := List.mem_singleton.1 hbody
      simp
      omega
    | forEach loopVar collection body span =>
      obtain rfl := List.mem_singleton.1 hbody
      simp
      omega
    | tryExcept body handler span =>
      simp only [bodies, List.mem_cons, List.not_mem_nil, or_false] at hbody
      rcases hbody with rfl | rfl
      · simp
        omega
      · simp
        omega
    | _ => cases hbody
  omega

theorem induction_bodies {P : Statement → Prop}
    (step : ∀ s : Statement, (∀ body ∈ s.bodies, ∀ t ∈ body, P t) → P s) (s : Statement) : P s :=
  step s fun _ _ t _ => induction_bodies step t
termination_by sizeOf s
decreasing_by exact sizeOf_lt_of_mem_bodies ‹_› ‹_›

end Statement

namespace Event

lemma ofStatements_eq_flatMap (scope : Scope) (ss : List Statement) :
    ofStatements scope ss = ss.flatMap (ofStatement scope) := by
  induction ss with
  | nil => rfl
  | cons s ss ih => rw [ofStatements, ih, List.flatMap_cons]

lemma ofBranches_eq_flatMap (scope : Scope) (bs : List Branch) :
    ofBranches scope bs = (bs.map Branch.body).flatMap (ofStatements scope) := by
  induction bs with
  | nil => rfl
  | cons b bs ih =>
    cases b
    rw [ofBranches, ih, List.map_cons, List.flatMap_cons]
    rfl

/-- **The walk shows a statement by its parts**: the statement, again if it executes code, the calls
in its expressions, and what stands in its bodies. -/
theorem ofStatement_eq (scope : Scope) (s : Statement) :
    ofStatement scope s = .statement s scope ::
      ((if s.isExecute then [.execute s scope] else []) ++ ofExpressions scope s.expressions ++
        s.bodies.flatMap (ofStatements scope)) := by
  cases s with
  | ifChain first elseIfs otherwise span =>
    have hotherwise : ofElse scope otherwise = otherwise.toList.flatMap (ofStatements scope) := by
      cases otherwise <;> simp [ofElse]
    have hbranches : ofBranch scope first ++ ofBranches scope elseIfs =
        ((first :: elseIfs).map Branch.body).flatMap (ofStatements scope) := by
      rw [← ofBranches_eq_flatMap]
      rfl
    rw [Statement.bodies, List.flatMap_append, ← hbranches, ← hotherwise]
    simp [ofStatement, Statement.isExecute, Statement.expressions]
  | _ =>
    simp [ofStatement, ofExpressions, Statement.isExecute, Statement.expressions,
      Statement.bodies]

end Event

end BslLint
