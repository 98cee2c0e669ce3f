import BslLint.Guard
import Mathlib.Tactic.Common

/-!
What the search for the safe-mode guard finds.

The search folds a state over statements and over the branches of conditionals. Its meaning is said
without the fold: some statements are switches (`Statement.Switches`), and some are reached from a
list by going down into branches only (`Statement.Exposes`). The state tells of the switches that
are reached (`GuardState.Tells`), and the bodies of loops and tries could as well be empty
(`Statement.hollow`).
-/

namespace BslLint

/-! ### Switches that are reached -/

namespace Statement

/-- The statement switches the safe mode on or off: it is a call of the switch, without receiver and
without right side, and its only argument is the truth value. -/
inductive Switches (on : Bool) : Statement → Prop
  | call {name : Text} (hname : CallId.lookup? name = some .setSafeMode)
      (literal call span : Option Span) :
      Switches on
        (.simple (.invocation name none [some (.literal (.boolean on) literal)] call) none span)

lemma switches_call_iff {name : Text} (hname : CallId.lookup? name = some .setSafeMode)
    {argument : Expression} {call span : Option Span} {on : Bool} :
    (simple (.invocation name none [some argument] call) none span).Switches on ↔
      argument.boolean? = some on := by
  constructor
  · rintro ⟨⟩
    rfl
  · intro hvalue
    unfold Expression.boolean? at hvalue
    split at hvalue
    · cases hvalue
      exact .call hname _ _ _
    · cases hvalue

/-- The second statement is the first one, or it is reached from the first one by going down into
branches of conditionals only. -/
inductive Exposes : Statement → Statement → Prop
  | self (s : Statement) : Exposes s s
  | first {b : Branch} {elseIfs : List Branch} {otherwise : Option (List Statement)}
      {span : Option Span} {s t : Statement} :
      s ∈ b.body → Exposes s t → Exposes (.ifChain b elseIfs otherwise span) t
  | elseIf {first b : Branch} {elseIfs : List Branch} {otherwise : Option (List Statement)}
      {span : Option Span} {s t : Statement} :
      b ∈ elseIfs → s ∈ b.body → Exposes s t → Exposes (.ifChain first elseIfs otherwise span) t
  | otherwise {first : Branch} {elseIfs : List Branch} {body : List Statement}
      {span : Option Span} {s t : Statement} :
      s ∈ body → Exposes s t → Exposes (.ifChain first elseIfs (some body) span) t

/-- A statement that switches the safe mode on or off is reached from the statement. -/
def Reaches (on : Bool) (s : Statement) : Prop := ∃ t, s.Exposes t ∧ t.Switches on

/-- A statement that switches the safe mode on or off is in the list or reached from it. -/
def ListReaches (on : Bool) (ss : List Statement) : Prop := ∃ s ∈ ss, s.Reaches on

lemma reaches_iff_switches {s : Statement} {on : Bool}
    (h : ∀ first elseIfs otherwise span, s ≠ .ifChain first elseIfs otherwise span) :
    s.Reaches on ↔ s.Switches on := by
  constructor
  · rintro ⟨t, hexposes, hswitches⟩
    cases hexposes with
    | self => exact hswitches
    | first | elseIf | otherwise => exact absurd rfl (h _ _ _ _)
  · intro hswitches
    exact ⟨s, .self s, hswitches⟩

lemma reaches_ifChain_iff {first : Branch} {elseIfs : List Branch}
    {otherwise : Option (List Statement)} {span : Option Span} {on : Bool} :
    (ifChain first elseIfs otherwise span).Reaches on ↔
      (ListReaches on first.body ∨ ∃ b ∈ elseIfs, ListReaches on b.body) ∨
        ∃ body ∈ otherwise, ListReaches on body := by
  constructor
  · rintro ⟨t, hexposes, hswitches⟩
    cases hexposes with
    | self => cases hswitches
    | first hs hst => exact Or.inl (Or.inl ⟨_, hs, t, hst, hswitches⟩)
    | elseIf hb hs hst => exact Or.inl (Or.inr ⟨_, hb, _, hs, t, hst, hswitches⟩)
    | otherwise hs hst => exact Or.inr ⟨_, rfl, _, hs, t, hst, hswitches⟩
  · rintro ((⟨s, hs, t, hst, hswitches⟩ | ⟨b, hb, s, hs, t, hst, hswitches⟩) |
      ⟨body, rfl, s, hs, t, hst, hswitches⟩)
    · exact ⟨t, .first hs hst, hswitches⟩
    · exact ⟨t, .elseIf hb hs hst, hswitches⟩
    · exact ⟨t, .otherwise hs hst, hswitches⟩

end Statement

/-! ### What a state tells -/

namespace GuardState

/-- The state tells whether the safe mode is switched on, and whether it is switched at all. -/
structure Tells (state : GuardState) (switched : Bool → Prop) : Prop where
  enabled_iff : state = .enabled ↔ switched true
  unknown_iff : state = .unknown ↔ ¬switched true ∧ ¬switched false

variable {s t : GuardState} {P Q : Bool → Prop}

lemma Tells.disabled_iff (h : s.Tells P) : s = .disabled ↔ ¬P true ∧ P false := by
  have hcases : s = .disabled ↔ s ≠ .enabled ∧ s ≠ .unknown := by cases s <;> decide
  rw [hcases, Ne, Ne, h.enabled_iff, h.unknown_iff]
  tauto

lemma tells_unknown (h : ∀ on, ¬P on) : unknown.Tells P :=
  ⟨by simp [h], by simp [h]⟩

lemma Tells.merge (hs : s.Tells P) (ht : t.Tells Q) : (s.merge t).Tells fun on => P on ∨ Q on := by
  constructor
  · rw [← hs.enabled_iff, ← ht.enabled_iff]
    cases s <;> cases t <;> decide
  · have h : s.merge t = .unknown ↔ s = .unknown ∧ t = .unknown := by
      cases s <;> cases t <;> decide
    rw [h, hs.unknown_iff, ht.unknown_iff]
    tauto

lemma Tells.congr (hs : s.Tells P) (h : ∀ on, Q on ↔ P on) : s.Tells Q :=
  ⟨hs.enabled_iff.trans (h true).symm, by rw [hs.unknown_iff, h true, h false]⟩

lemma tells_ofCall (left : Expression) (span : Option Span) :
    (ofCall left).Tells fun on => (Statement.simple left none span).Switches on := by
  unfold ofCall
  split
  · rename_i name argument call
    split
    · rename_i hname
      refine Tells.congr ?_ fun on => Statement.switches_call_iff hname
      rcases argument.boolean? with _ | _ | _ <;> exact ⟨by simp, by simp⟩
    · rename_i hname
      refine tells_unknown ?_
      rintro on ⟨hswitch, -, -, -⟩
      exact hname hswitch
  · rename_i hshape
    refine tells_unknown ?_
    rintro on ⟨hswitch, literal, call, -⟩
    exact hshape _ _ _ rfl

lemma tells_nothing {s : Statement} (hstate : ofStatement s = .unknown)
    (hif : ∀ first elseIfs otherwise span, s ≠ .ifChain first elseIfs otherwise span)
    (hcall : ∀ left span, s ≠ .simple left none span) :
    (ofStatement s).Tells fun on => s.Reaches on := by
  rw [hstate]
  refine tells_unknown fun on hreaches => ?_
  cases (Statement.reaches_iff_switches hif).1 hreaches
  exact hcall _ _ rfl

-- One case per kind of statement; the statements of branches come by the lists they stand in.
mutual

lemma tells_ofStatement : ∀ s : Statement, (ofStatement s).Tells fun on => s.Reaches on
  | .simple left none span => by
    rw [ofStatement]
    exact (tells_ofCall left span).congr fun on => Statement.reaches_iff_switches (by simp)
  | .ifChain first elseIfs otherwise span => by
    rw [ofStatement]
    exact (((tells_ofBranch first).merge (tells_ofBranches elseIfs)).merge
      (tells_ofElse otherwise)).congr fun on => Statement.reaches_ifChain_iff
  | .simple _ (some _) _ => tells_nothing rfl (by simp) (by simp)
  | .whileLoop _ _ _ => tells_nothing rfl (by simp) (by simp)
  | .forEach _ _ _ _ => tells_nothing rfl (by simp) (by simp)
  | .tryExcept _ _ _ => tells_nothing rfl (by simp) (by simp)
  | .execute _ _ => tells_nothing rfl (by simp) (by simp)
  | .returnValue _ _ => tells_nothing rfl (by simp) (by simp)

lemma tells_ofBranch : ∀ b : Branch,
    (ofBranch b).Tells fun on => Statement.ListReaches on b.body
  | .mk predicate body => by
    rw [ofBranch]
    exact tells_ofStatements body

lemma tells_ofBranches : ∀ bs : List Branch,
    (ofBranches bs).Tells fun on => ∃ b ∈ bs, Statement.ListReaches on b.body
  | [] => tells_unknown (by simp)
  | b :: bs => by
    rw [ofBranches]
    exact ((tells_ofBranch b).merge (tells_ofBranches bs)).congr fun on => by simp

lemma tells_ofElse : ∀ otherwise : Option (List Statement),
    (ofElse otherwise).Tells fun on => ∃ body ∈ otherwise, Statement.ListReaches on body
  | none => tells_unknown (by simp)
  | some body => by
    rw [ofElse]
    exact (tells_ofStatements body).congr fun on => by simp

lemma tells_ofStatements : ∀ ss : List Statement,
    (ofStatements ss).Tells fun on => Statement.ListReaches on ss
  | [] => tells_unknown (by simp [Statement.ListReaches])
  | s :: ss => by
    rw [ofStatements]
    exact ((tells_ofStatement s).merge (tells_ofStatements ss)).congr fun on => by
      simp [Statement.ListReaches]

end

end GuardState

/-! ### Loops and tries -/

mutual

/-- The statement with nothing in the bodies of its loops and tries, at whatever depth of
branches. -/
def Statement.hollow : Statement → Statement
  | .ifChain first elseIfs otherwise span =>
    .ifChain first.hollow (Branch.hollowList elseIfs) (Statement.hollowElse otherwise) span
  | .whileLoop predicate _ span => .whileLoop predicate [] span
  | .forEach loopVar collection _ span => .forEach loopVar collection [] span
  | .tryExcept _ _ span => .tryExcept [] [] span
  | .simple left right span => .simple left right span
  | .execute code span => .execute code span
  | .returnValue value span => .returnValue value span

def Branch.hollow : Branch → Branch
  | .mk predicate body => .mk predicate (Statement.hollowList body)

def Branch.hollowList : List Branch → List Branch
  | [] => []
  | b :: bs => b.hollow :: Branch.hollowList bs

def Statement.hollowElse : Option (List Statement) → Option (List Statement)
  | none => none
  | some body => some (Statement.hollowList body)

def Statement.hollowList : List Statement → List Statement
  | [] => []
  | s :: ss => s.hollow :: Statement.hollowList ss

end

lemma Statement.length_hollowList (ss : List Statement) : (hollowList ss).length = ss.length := by
  induction ss with
  | nil => rfl
  | cons s ss ih => rw [hollowList, List.length_cons, List.length_cons, ih]

namespace GuardState

mutual

lemma ofStatement_hollow : ∀ s : Statement, ofStatement s.hollow = ofStatement s
  | .ifChain first elseIfs otherwise span => by
    rw [Statement.hollow, ofStatement, ofStatement, ofBranch_hollow first,
      ofBranches_hollow elseIfs, ofElse_hollow otherwise]
  | .simple left right span => by rw [Statement.hollow]
  | .whileLoop _ _ _ => rfl
  | .forEach _ _ _ _ => rfl
  | .tryExcept _ _ _ => rfl
  | .execute _ _ => rfl
  | .returnValue _ _ => rfl

lemma ofBranch_hollow : ∀ b : Branch, ofBranch b.hollow = ofBranch b
  | .mk predicate body => by
    rw [Branch.hollow, ofBranch, ofBranch, ofStatements_hollow body]

lemma ofBranches_hollow : ∀ bs : List Branch, ofBranches (Branch.hollowList bs) = ofBranches bs
  | [] => rfl
  | b :: bs => by
    rw [Branch.hollowList, ofBranches, ofBranches, ofBranch_hollow b, ofBranches_hollow bs]

lemma ofElse_hollow : ∀ otherwise : Option (List Statement),
    ofElse (Statement.hollowElse otherwise) = ofElse otherwise
  | none => rfl
  | some body => by
    rw [Statement.hollowElse, ofElse, ofElse, ofStatements_hollow body]

lemma ofStatements_hollow : ∀ ss : List Statement,
    ofStatements (Statement.hollowList ss) = ofStatements ss
  | [] => rfl
  | s :: ss => by
    rw [Statement.hollowList, ofStatements, ofStatements, ofStatement_hollow s,
      ofStatements_hollow ss]

end

/-! ### The scan -/

lemma merge_assoc (s t u : GuardState) : (s.merge t).merge u = s.merge (t.merge u) := by
  cases s <;> cases t <;> cases u <;> rfl

lemma unknown_merge (s : GuardState) : unknown.merge s = s := by cases s <;> rfl

lemma merge_unknown (s : GuardState) : s.merge unknown = s := by cases s <;> rfl

lemma scanFrom_of_uncancelled {c : Cancellation} (hc : ∀ n, c.polls ≤ n → c.answers n = false)
    (state : GuardState) (ss : List Statement) :
    scanFrom state ss c =
      (.ok (state.merge (ofStatements ss)), { c with polls := c.polls + ss.length }) := by
  induction ss generalizing state c with
  | nil => rw [scanFrom, ofStatements, merge_unknown]; rfl
  | cons s ss ih =>
    have hpoll : c.poll = (false, { c with polls := c.polls + 1 }) := by
      rw [Cancellation.poll, Cancellation.isRequested, hc c.polls (Nat.le_refl _)]
    have hlater : ∀ n, c.polls + 1 ≤ n → c.answers n = false := fun n hn => hc n (by omega)
    rw [scanFrom, hpoll]
    dsimp only
    rw [ih hlater, ofStatements, merge_assoc, List.length_cons, Nat.add_right_comm, Nat.add_assoc]

/-- **The search tells of the switches that are reached.** Without a request to cancel, the scan of
statements comes to a state. The safe mode is enabled if and only if a switch to on is in the list
or reached from it by going down into branches of conditionals, disabled if only switches to off
are, and unknown if none is. What stands in the bodies of loops and tries, at any depth, has no part
in it: any statements that are the same without these bodies have the same scan. -/
theorem scan_tells_reached (ss : List Statement) (c : Cancellation)
    (hc : ∀ n, c.polls ≤ n → c.answers n = false) :
    ∃ state c', scan ss c = (.ok state, c') ∧
      (state = .enabled ↔ Statement.ListReaches true ss) ∧
      (state = .disabled ↔ ¬Statement.ListReaches true ss ∧ Statement.ListReaches false ss) ∧
      (state = .unknown ↔ ¬Statement.ListReaches true ss ∧ ¬Statement.ListReaches false ss) ∧
      ∀ ss', Statement.hollowList ss' = Statement.hollowList ss → scan ss' c = (.ok state, c') := by
  have hscan (ss : List Statement) :
      scan ss c = (.ok (ofStatements ss), { c with polls := c.polls + ss.length }) := by
    rw [scan, scanFrom_of_uncancelled hc, unknown_merge]
  have htells := tells_ofStatements ss
  refine ⟨_, _, hscan ss, htells.enabled_iff, htells.disabled_iff, htells.unknown_iff, ?_⟩
  intro ss' hsame
  have hlength : ss'.length = ss.length := by
    rw [← Statement.length_hollowList ss', hsame, Statement.length_hollowList]
  rw [hscan, hlength, ← ofStatements_hollow ss', hsame, ofStatements_hollow]

/-- The else branch of a conditional in an else-if branch switches off; a loop in a branch and a try
switch on, and a third statement assigns to the switch. The state is disabled, also without what the
loop and the try hold. -/
theorem scan_tells_reached_nested :
    let flag : Expression := .access "А".toList none none
    let call (on : Bool) : Expression :=
      .invocation "setSafeMode".toList none [some (.literal (.boolean on) none)] none
    let statements (body : List Statement) : List Statement :=
      [.ifChain (.mk flag [.whileLoop flag body none])
          [.mk flag [.ifChain (.mk flag []) [] (some [.simple (call false) none none]) none]] none
          none,
        .tryExcept body [] none,
        .simple (call true) (some flag) none]
    let ss := statements [.simple (call true) none none]
    (scan ss .never).1 = .ok .disabled ∧ ¬Statement.ListReaches true ss ∧
      Statement.ListReaches false ss ∧ (scan (statements []) .never).1 = .ok .disabled := by
  intro flag call statements ss
  have hdisabled : (scan ss .never).1 = .ok .disabled := by decide +kernel
  obtain ⟨state, c', hscan, -, hdisabled_iff, -, hsame⟩ :=
    scan_tells_reached ss .never fun _ _ => rfl
  have hstate : state = .disabled := by
    rw [hscan] at hdisabled
    exact Except.ok.inj hdisabled
  obtain ⟨hon, hoff⟩ := hdisabled_iff.1 hstate
  exact ⟨hdisabled, hon, hoff, by rw [hsame (statements []) rfl, hstate]⟩

end GuardState

end BslLint
