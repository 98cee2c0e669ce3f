import BslLint.Proofs.Located
import BslLint.Proofs.Outline.Declaration
import Mathlib.Data.List.ReduceOption

/-!
Scripts of operations. An operation builds one node, and on the way it carries out the operations
that build the parts of the node, each from where the cursor then stands (`makeAll_moves`).
Wherever the cursor comes to stand during a script, at any depth, it is on a boundary of the text;
and every operation that begins there has a result, does not take the cursor back, and gives its
node spans that can be located.
-/

namespace BslLint.Outline

/-- An operation: what it is to place. -/
inductive Operation where
  | expression (o : ExpressionOutline)
  | statement (o : StatementOutline)
  | branch (o : BranchOutline)
  | elseBranch (body : List StatementOutline)
  | item (o : ItemOutline)

/-- What an operation builds. -/
inductive Node where
  | expression (e : Expression)
  | statement (s : Statement)
  | branch (b : Branch)
  | elseBranch (body : List Statement)
  | item (i : Item)

namespace Node

/-- The spans of a node and of everything in it. -/
def spans : Node → List Span
  | .expression e => e.spans
  | .statement s => s.spans
  | .branch b => b.spans
  | .elseBranch body => Statement.spansList body
  | .item i => i.spans

/-- The nodes that a node is directly put together from, in order. -/
def parts : Node → List Node
  | .expression (.literal _ _) => []
  | .expression (.access _ object _) => object.toList.map .expression
  | .expression (.invocation _ receiver params _) =>
    receiver.toList.map .expression ++ params.reduceOption.map .expression
  | .expression (.binary _ left right _) => [.expression left, .expression right]
  | .expression (.unary _ operand _) => [.expression operand]
  | .statement (.simple left right _) => .expression left :: right.toList.map .expression
  | .statement (.ifChain first elseIfs otherwise _) =>
    .branch first :: (elseIfs.map .branch ++ otherwise.toList.map .elseBranch)
  | .statement (.whileLoop predicate body _) => .expression predicate :: body.map .statement
  | .statement (.forEach _ collection body _) => .expression collection :: body.map .statement
  | .statement (.tryExcept body handler _) => body.map .statement ++ handler.map .statement
  | .statement (.execute code _) => [.expression code]
  | .statement (.returnValue value _) => value.toList.map .expression
  | .branch (.mk predicate body) => .expression predicate :: body.map .statement
  | .elseBranch body => body.map .statement
  | .item (.method m) => m.statements.map .statement
  | .item (.region _ items) => items.map .item

end Node

/-- Carries out an operation: the node it builds, and the cursor behind it. -/
def Operation.run (source : Text) (cursor : Nat) : Operation → Checked (Node × Nat)
  | .expression o => do
    let (e, cursor) ← o.place source cursor
    return (.expression e, cursor)
  | .statement o => do
    let (s, cursor) ← o.place source cursor
    return (.statement s, cursor)
  | .branch o => do
    let (b, cursor) ← StatementOutline.placeBranch source o cursor
    return (.branch b, cursor)
  | .elseBranch body => do
    let (body, cursor) ← StatementOutline.placeElse source (some body) cursor
    return (.elseBranch (body.getD []), cursor)
  | .item o => do
    let (i, cursor) ← o.place source cursor
    return (.item i, cursor)

/-- What an operation does to the cursor on its way. -/
inductive Move where
  /-- Goes behind the first of some words, if one is found. -/
  | seek (words : List Text)
  /-- Goes behind the opening parenthesis of a called name. -/
  | enterCall (name : Text)
  /-- Goes behind a word and a parenthesis that directly follows it. -/
  | enterWord (word : Spelling)
  /-- Goes behind the head of a method. -/
  | methodHead
  /-- Goes behind the head of a region. -/
  | regionHead
  /-- Carries out an operation. -/
  | run (o : Operation)

/-- The moves of an operation up to its last part, in order. -/
def Operation.moves : Operation → List Move
  | .expression (.member o _) => [.run (.expression o)]
  | .expression (.call name os) =>
    .enterCall name :: os.reduceOption.map fun o => .run (.expression o)
  | .expression (.methodCall o name os) =>
    .run (.expression o) :: .enterCall name :: os.reduceOption.map fun o => .run (.expression o)
  | .expression (.binary _ l r) => [.run (.expression l), .run (.expression r)]
  | .expression (.not o) => [.seek (spellings notWord), .run (.expression o)]
  | .expression _ => []
  | .statement (.simple o) => [.run (.expression o)]
  | .statement (.assign l r) => [.run (.expression l), .run (.expression r)]
  | .statement (.ifChain b bs body) =>
    .seek (spellings ifWord) :: .run (.branch b) :: ((bs.map fun b => .run (.branch b)) ++
      body.toList.map fun body => .run (.elseBranch body))
  | .statement (.whileLoop o os) =>
    .seek (spellings whileWord) :: .run (.expression o) :: .seek (spellings doWord) ::
      os.map fun o => .run (.statement o)
  | .statement (.forEach loopVar o os) =>
    .seek (spellings forWord) :: .seek [loopVar] :: .run (.expression o) ::
      .seek (spellings doWord) :: os.map fun o => .run (.statement o)
  | .statement (.tryExcept os os') =>
    .seek (spellings tryWord) :: ((os.map fun o => .run (.statement o)) ++
      .seek (spellings exceptWord) :: os'.map fun o => .run (.statement o))
  | .statement (.execute o) => [.enterWord executeWord, .run (.expression o)]
  | .statement (.returnValue o) =>
    .seek (spellings returnWord) :: o.toList.map fun o => .run (.expression o)
  | .branch (.mk o os) =>
    .run (.expression o) :: .seek (spellings thenWord) :: os.map fun o => .run (.statement o)
  | .elseBranch os => .seek (spellings elseWord) :: os.map fun o => .run (.statement o)
  | .item (.method os) => .methodHead :: os.map fun o => .run (.statement o)
  | .item (.region is) => .regionHead :: is.map fun i => .run (.item i)

/-- Makes a move: the nodes that are built by it, and the cursor behind it. -/
def Move.make (source : Text) (cursor : Nat) : Move → Checked (List Node × Nat)
  | .seek words => return ([], (Outline.seek source words cursor).2)
  | .enterCall name =>
    return ([], behind (openingParen source (search source [name] cursor)) cursor)
  | .enterWord word => do
    let (found, cursor) := seekWord source word cursor
    return ([], behind (← parenBehind source found) cursor)
  | .methodHead => return ([], (← readHead source cursor).cursor)
  | .regionHead => do
    let (found, cursor) := Outline.seek source (spellings regionWord) cursor
    return ([], (← readCondition source found cursor).cursor)
  | .run o => do
    let (node, cursor) ← o.run source cursor
    return ([node], cursor)

def makeAll (source : Text) : List Move → Nat → Checked (List Node × Nat)
  | [], cursor => return ([], cursor)
  | m :: ms, cursor => do
    let (ns, cursor) ← m.make source cursor
    let (ns', cursor) ← makeAll source ms cursor
    return (ns ++ ns', cursor)

/-- While the moves are made from a cursor, be it inside of an operation, the cursor comes to stand
where certain moves are still to be made. -/
inductive Reaches (source : Text) : List Move → Nat → List Move → Nat → Prop
  | here {ms : List Move} {c : Nat} : Reaches source ms c ms c
  | inside {o : Operation} {ms ms' : List Move} {c c' : Nat}
      (h : Reaches source o.moves c ms' c') : Reaches source (.run o :: ms) c ms' c'
  | later {m : Move} {ms ms' : List Move} {ns : List Node} {c c₁ c' : Nat}
      (hm : m.make source c = .ok (ns, c₁)) (h : Reaches source ms c₁ ms' c') :
      Reaches source (m :: ms) c ms' c'

variable {source : Text} {cursor : Nat}

/-! ### The parts of a node -/

lemma makeAll_append {ms ms' : List Move} {ns ns' : List Node} {a b c : Nat}
    (h : makeAll source ms a = .ok (ns, b)) (h' : makeAll source ms' b = .ok (ns', c)) :
    makeAll source (ms ++ ms') a = .ok (ns ++ ns', c) := by
  induction ms generalizing ns a with
  | nil =>
    cases h
    simpa using h'
  | cons m ms ih =>
    obtain ⟨⟨ns₁, c₁⟩, hm, h⟩ := Outcome.bind_eq_ok_iff.1 h
    obtain ⟨⟨ns₂, c₂⟩, hms, h⟩ := Outcome.bind_eq_ok_iff.1 h
    cases h
    simp [makeAll, hm, ih hms]

lemma makeAll_params {os : List (Option ExpressionOutline)} {es : List (Option Expression)}
    {c c' : Nat} (h : ExpressionOutline.placeParams source os c = .ok (es, c')) :
    makeAll source (os.reduceOption.map fun o => .run (.expression o)) c =
      .ok (es.reduceOption.map .expression, c') := by
  induction os generalizing es c with
  | nil =>
    cases h
    rfl
  | cons o os ih =>
    cases o with
    | none =>
      obtain ⟨⟨es₁, c₁⟩, hos, h⟩ := Outcome.bind_eq_ok_iff.1 h
      cases h
      simpa using ih hos
    | some o =>
      obtain ⟨⟨e, c₁⟩, ho, h⟩ := Outcome.bind_eq_ok_iff.1 h
      obtain ⟨⟨es₁, c₂⟩, hos, h⟩ := Outcome.bind_eq_ok_iff.1 h
      cases h
      simp [makeAll, Move.make, Operation.run, ho, ih hos]

/-- What places a list by placing its members in order makes the moves that carry out their
operations. -/
lemma makeAll_map {α β : Type} {f : α → Nat → Checked (β × Nat)}
    {fs : List α → Nat → Checked (List β × Nat)} {op : α → Operation} {node : β → Node}
    (hop : ∀ o c, (op o).run source c = f o c >>= fun r => .ok (node r.1, r.2))
    (hnil : ∀ c, fs [] c = .ok ([], c))
    (hcons : ∀ o os c, fs (o :: os) c =
      f o c >>= fun r => fs os r.2 >>= fun rs => .ok (r.1 :: rs.1, rs.2))
    {os : List α} {bs : List β} {c c' : Nat} (h : fs os c = .ok (bs, c')) :
    makeAll source (os.map fun o => .run (op o)) c = .ok (bs.map node, c') := by
  induction os generalizing bs c with
  | nil =>
    rw [hnil] at h
    cases h
    rfl
  | cons o os ih =>
    rw [hcons] at h
    obtain ⟨⟨b, c₁⟩, ho, h⟩ := Outcome.bind_eq_ok_iff.1 h
    obtain ⟨⟨bs₁, c₂⟩, hos, h⟩ := Outcome.bind_eq_ok_iff.1 h
    cases h
    simp [makeAll, Move.make, hop, ho, ih hos]

lemma makeAll_statements {os : List StatementOutline} {ss : List Statement} {c c' : Nat}
    (h : StatementOutline.placeList source os c = .ok (ss, c')) :
    makeAll source (os.map fun o => .run (.statement o)) c = .ok (ss.map .statement, c') :=
  makeAll_map (fun _ _ => rfl) (fun _ => rfl) (fun _ _ _ => rfl) h

lemma makeAll_branches {os : List BranchOutline} {bs : List Branch} {c c' : Nat}
    (h : StatementOutline.placeBranches source os c = .ok (bs, c')) :
    makeAll source (os.map fun o => .run (.branch o)) c = .ok (bs.map .branch, c') :=
  makeAll_map (fun _ _ => rfl) (fun _ => rfl) (fun _ _ _ => rfl) h

lemma makeAll_items {os : List ItemOutline} {is : List Item} {c c' : Nat}
    (h : ItemOutline.placeList source os c = .ok (is, c')) :
    makeAll source (os.map fun o => .run (.item o)) c = .ok (is.map .item, c') :=
  makeAll_map (fun _ _ => rfl) (fun _ => rfl) (fun _ _ _ => rfl) h

lemma makeAll_otherwise {body : Option (List StatementOutline)} {ss : Option (List Statement)}
    {c c' : Nat} (h : StatementOutline.placeElse source body c = .ok (ss, c')) :
    makeAll source (body.toList.map fun body => .run (.elseBranch body)) c =
      .ok (ss.toList.map .elseBranch, c') := by
  cases body with
  | none =>
    cases h
    rfl
  | some body =>
    have hbody := h
    obtain ⟨⟨ss', c₁⟩, -, h⟩ := Outcome.bind_eq_ok_iff.1 h
    cases h
    simp [makeAll, Move.make, Operation.run, hbody]

lemma makeAll_value {o : Option ExpressionOutline} {e : Option Expression} {c c' : Nat}
    (h : StatementOutline.placeValue source o c = .ok (e, c')) :
    makeAll source (o.toList.map fun o => .run (.expression o)) c =
      .ok (e.toList.map .expression, c') := by
  cases o with
  | none =>
    cases h
    rfl
  | some o =>
    obtain ⟨⟨e', c₁⟩, ho, h⟩ := Outcome.bind_eq_ok_iff.1 h
    cases h
    simp [makeAll, Move.make, Operation.run, ho]

lemma makeAll_cons {m : Move} {ms : List Move} {ns : List Node} {c c₁ c' : Nat}
    (hm : m.make source c = .ok ([], c₁)) (hms : makeAll source ms c₁ = .ok (ns, c')) :
    makeAll source (m :: ms) c = .ok (ns, c') := by
  simp [makeAll, hm, hms]

lemma makeAll_run {o : Operation} {ms : List Move} {n : Node} {ns : List Node} {c c₁ c' : Nat}
    (ho : o.run source c = .ok (n, c₁)) (hms : makeAll source ms c₁ = .ok (ns, c')) :
    makeAll source (.run o :: ms) c = .ok (n :: ns, c') := by
  simp [makeAll, Move.make, ho, hms]

lemma run_expression {o : ExpressionOutline} {e : Expression} {c c' : Nat}
    (h : o.place source c = .ok (e, c')) :
    (Operation.expression o).run source c = .ok (.expression e, c') := by
  rw [Operation.run, h]
  rfl

lemma run_branch {o : BranchOutline} {b : Branch} {c c' : Nat}
    (h : StatementOutline.placeBranch source o c = .ok (b, c')) :
    (Operation.branch o).run source c = .ok (.branch b, c') := by
  rw [Operation.run, h]
  rfl

/-- **The parts of an expression are built on its way.** -/
lemma makeAll_moves_expression {o : ExpressionOutline} {e : Expression} {c c' : Nat}
    (h : o.place source c = .ok (e, c')) :
    ∃ c₁, makeAll source (Operation.expression o).moves c =
      .ok ((Node.expression e).parts, c₁) := by
  cases o with
  | ident name | boolean text | number text | undefined text =>
    cases h
    exact ⟨c, rfl⟩
  | string text =>
    obtain ⟨_, -, h⟩ := Outcome.bind_eq_ok_iff.1 h
    cases h
    exact ⟨c, rfl⟩
  | member o name =>
    obtain ⟨⟨e, c₁⟩, ho, h⟩ := Outcome.bind_eq_ok_iff.1 h
    cases h
    exact ⟨_, makeAll_run (run_expression ho) rfl⟩
  | call name os =>
    obtain ⟨⟨es, c₁⟩, hos, h⟩ := Outcome.bind_eq_ok_iff.1 h
    cases h
    exact ⟨_, makeAll_cons rfl (makeAll_params hos)⟩
  | methodCall o name os =>
    obtain ⟨⟨e, c₁⟩, ho, h⟩ := Outcome.bind_eq_ok_iff.1 h
    obtain ⟨⟨es, c₂⟩, hos, h⟩ := Outcome.bind_eq_ok_iff.1 h
    cases h
    exact ⟨_, makeAll_run (run_expression ho) (makeAll_cons rfl (makeAll_params hos))⟩
  | binary op l r =>
    obtain ⟨⟨e, c₁⟩, hl, h⟩ := Outcome.bind_eq_ok_iff.1 h
    obtain ⟨⟨e', c₂⟩, hr, h⟩ := Outcome.bind_eq_ok_iff.1 h
    cases h
    exact ⟨_, makeAll_run (run_expression hl) (makeAll_run (run_expression hr) rfl)⟩
  | not o =>
    obtain ⟨⟨e, c₁⟩, ho, h⟩ := Outcome.bind_eq_ok_iff.1 h
    cases h
    exact ⟨_, makeAll_cons rfl (makeAll_run (run_expression ho) rfl)⟩

lemma makeAll_moves_statement {o : StatementOutline} {s : Statement} {c c' : Nat}
    (h : o.place source c = .ok (s, c')) :
    ∃ c₁, makeAll source (Operation.statement o).moves c =
      .ok ((Node.statement s).parts, c₁) := by
  cases o with
  | simple o =>
    obtain ⟨⟨e, c₁⟩, ho, h⟩ := Outcome.bind_eq_ok_iff.1 h
    obtain ⟨_, -, h⟩ := Outcome.bind_eq_ok_iff.1 h
    cases h
    exact ⟨_, makeAll_run (run_expression ho) rfl⟩
  | assign l r =>
    obtain ⟨⟨e, c₁⟩, hl, h⟩ := Outcome.bind_eq_ok_iff.1 h
    obtain ⟨⟨e', c₂⟩, hr, h⟩ := Outcome.bind_eq_ok_iff.1 h
    obtain ⟨_, -, h⟩ := Outcome.bind_eq_ok_iff.1 h
    cases h
    exact ⟨_, makeAll_run (run_expression hl) (makeAll_run (run_expression hr) rfl)⟩
  | ifChain b bs body =>
    obtain ⟨⟨b', c₁⟩, hb, h⟩ := Outcome.bind_eq_ok_iff.1 h
    obtain ⟨⟨bs', c₂⟩, hbs, h⟩ := Outcome.bind_eq_ok_iff.1 h
    obtain ⟨⟨ss, c₃⟩, hbody, h⟩ := Outcome.bind_eq_ok_iff.1 h
    obtain ⟨_, -, h⟩ := Outcome.bind_eq_ok_iff.1 h
    cases h
    exact ⟨_, makeAll_cons rfl (makeAll_run (run_branch hb)
      (makeAll_append (makeAll_branches hbs) (makeAll_otherwise hbody)))⟩
  | whileLoop o os =>
    obtain ⟨⟨e, c₁⟩, ho, h⟩ := Outcome.bind_eq_ok_iff.1 h
    obtain ⟨⟨ss, c₂⟩, hos, h⟩ := Outcome.bind_eq_ok_iff.1 h
    obtain ⟨_, -, h⟩ := Outcome.bind_eq_ok_iff.1 h
    cases h
    exact ⟨_, makeAll_cons rfl (makeAll_run (run_expression ho)
      (makeAll_cons rfl (makeAll_statements hos)))⟩
  | forEach loopVar o os =>
    obtain ⟨⟨e, c₁⟩, ho, h⟩ := Outcome.bind_eq_ok_iff.1 h
    obtain ⟨⟨ss, c₂⟩, hos, h⟩ := Outcome.bind_eq_ok_iff.1 h
    obtain ⟨_, -, h⟩ := Outcome.bind_eq_ok_iff.1 h
    cases h
    exact ⟨_, makeAll_cons rfl (makeAll_cons rfl (makeAll_run (run_expression ho)
      (makeAll_cons rfl (makeAll_statements hos))))⟩
  | tryExcept os os' =>
    obtain ⟨⟨ss, c₁⟩, hos, h⟩ := Outcome.bind_eq_ok_iff.1 h
    obtain ⟨⟨ss', c₂⟩, hos', h⟩ := Outcome.bind_eq_ok_iff.1 h
    obtain ⟨_, -, h⟩ := Outcome.bind_eq_ok_iff.1 h
    cases h
    exact ⟨_, makeAll_cons rfl (makeAll_append (makeAll_statements hos)
      (makeAll_cons rfl (makeAll_statements hos')))⟩
  | execute o =>
    obtain ⟨opening, hparen, h⟩ := Outcome.bind_eq_ok_iff.1 h
    obtain ⟨⟨e, c₁⟩, ho, h⟩ := Outcome.bind_eq_ok_iff.1 h
    obtain ⟨_, -, h⟩ := Outcome.bind_eq_ok_iff.1 h
    cases h
    have henter : (Move.enterWord executeWord).make source c =
        .ok ([], behind opening (seekWord source executeWord c).2) :=
      Outcome.bind_eq_ok_iff.2 ⟨opening, hparen, rfl⟩
    exact ⟨_, makeAll_cons henter (makeAll_run (run_expression ho) rfl)⟩
  | returnValue o =>
    obtain ⟨⟨e, c₁⟩, ho, h⟩ := Outcome.bind_eq_ok_iff.1 h
    obtain ⟨_, -, h⟩ := Outcome.bind_eq_ok_iff.1 h
    cases h
    exact ⟨_, makeAll_cons rfl (makeAll_value ho)⟩

lemma makeAll_moves_item {o : ItemOutline} {i : Item} {c c' : Nat}
    (h : o.place source c = .ok (i, c')) :
    ∃ c₁, makeAll source (Operation.item o).moves c = .ok ((Node.item i).parts, c₁) := by
  cases o with
  | method os =>
    obtain ⟨head, hhead, h⟩ := Outcome.bind_eq_ok_iff.1 h
    obtain ⟨⟨ss, c₁⟩, hos, h⟩ := Outcome.bind_eq_ok_iff.1 h
    cases h
    have hmove : Move.methodHead.make source c = .ok ([], head.cursor) :=
      Outcome.bind_eq_ok_iff.2 ⟨head, hhead, rfl⟩
    exact ⟨_, makeAll_cons hmove (makeAll_statements hos)⟩
  | region os =>
    obtain ⟨head, hhead, h⟩ := Outcome.bind_eq_ok_iff.1 h
    obtain ⟨⟨is, c₁⟩, hos, h⟩ := Outcome.bind_eq_ok_iff.1 h
    cases h
    have hmove : Move.regionHead.make source c = .ok ([], head.cursor) :=
      Outcome.bind_eq_ok_iff.2 ⟨head, hhead, rfl⟩
    exact ⟨_, makeAll_cons hmove (makeAll_items hos)⟩

/-- **The parts of a node are built on the way**, by the operations among the moves, in order. -/
lemma Operation.makeAll_moves {o : Operation} {n : Node} {c c' : Nat}
    (h : o.run source c = .ok (n, c')) :
    ∃ c₁, makeAll source o.moves c = .ok (n.parts, c₁) := by
  cases o with
  | expression o =>
    obtain ⟨r, ho, h⟩ := Outcome.bind_eq_ok_iff.1 h
    cases h
    exact makeAll_moves_expression ho
  | statement o =>
    obtain ⟨r, ho, h⟩ := Outcome.bind_eq_ok_iff.1 h
    cases h
    exact makeAll_moves_statement ho
  | branch o =>
    obtain ⟨r, ho, h⟩ := Outcome.bind_eq_ok_iff.1 h
    cases h
    cases o with
    | mk o os =>
      obtain ⟨⟨e, c₁⟩, he, h⟩ := Outcome.bind_eq_ok_iff.1 ho
      obtain ⟨⟨ss, c₂⟩, hos, h⟩ := Outcome.bind_eq_ok_iff.1 h
      cases h
      exact ⟨_, makeAll_run (run_expression he) (makeAll_cons rfl (makeAll_statements hos))⟩
  | elseBranch os =>
    obtain ⟨r, ho, h⟩ := Outcome.bind_eq_ok_iff.1 h
    cases h
    obtain ⟨⟨ss, c₁⟩, hos, h⟩ := Outcome.bind_eq_ok_iff.1 ho
    cases h
    exact ⟨_, makeAll_cons rfl (makeAll_statements hos)⟩
  | item o =>
    obtain ⟨r, ho, h⟩ := Outcome.bind_eq_ok_iff.1 h
    cases h
    exact makeAll_moves_item ho

/-! ### Soundness -/

/-- What an operation gets done from a cursor: it has a result, whose parts are built on the way;
the cursor moves on; the spans of the node lie on the text; and an expression with a span begins no
earlier than the cursor and ends where the cursor is left. -/
structure Operation.Sound (source : Text) (cursor : Nat) (o : Operation) (n : Node)
    (cursor' : Nat) : Prop where
  run : o.run source cursor = .ok (n, cursor')
  parts : ∃ c, makeAll source o.moves cursor = .ok (n.parts, c)
  advances : Advances source cursor cursor'
  spans : ∀ s ∈ n.spans, s.On source
  expression : ∀ e, n = .expression e → ∀ s ∈ e.span, cursor ≤ s.offset ∧ s.stop = cursor'

lemma Operation.Sound.of_carried {o : Operation} {n : Node} {c c' : Nat}
    (hrun : o.run source c = .ok (n, c')) (hcarried : Carried source c n.spans c')
    (hexpression : ∀ e, n = .expression e → ∀ s ∈ e.span, c ≤ s.offset ∧ s.stop = c') :
    o.Sound source c n c' :=
  ⟨hrun, o.makeAll_moves hrun, hcarried.advances, hcarried.spans, hexpression⟩

/-- **An operation from a boundary is sound.** -/
lemma Operation.exists_sound (h : Text.isBoundary source cursor = true) (o : Operation) :
    ∃ n c, o.Sound source cursor n c := by
  cases o with
  | expression o =>
    obtain ⟨⟨e, c⟩, ho, he⟩ := Outcome.safe_checked_iff.1 (o.place_safe h)
    refine ⟨.expression e, c, .of_carried (run_expression ho) he.carried ?_⟩
    rintro e ⟨⟩ s hs
    exact (he.sought.found s hs).2
  | statement o =>
    obtain ⟨⟨s, c⟩, ho, hs⟩ := Outcome.safe_checked_iff.1 (o.place_safe h)
    have hrun : (Operation.statement o).run source cursor = .ok (.statement s, c) :=
      Outcome.bind_eq_ok_iff.2 ⟨_, ho, rfl⟩
    exact ⟨_, c, .of_carried hrun hs nofun⟩
  | branch o =>
    obtain ⟨⟨b, c⟩, ho, hb⟩ := Outcome.safe_checked_iff.1 (StatementOutline.placeBranch_safe o h)
    exact ⟨_, c, .of_carried (run_branch ho) hb nofun⟩
  | elseBranch os =>
    obtain ⟨⟨ss, c⟩, ho, hss⟩ :=
      Outcome.safe_checked_iff.1 (StatementOutline.placeElse_safe (some os) h)
    have hrun : (Operation.elseBranch os).run source cursor = .ok (.elseBranch (ss.getD []), c) :=
      Outcome.bind_eq_ok_iff.2 ⟨_, ho, rfl⟩
    have hspans : Statement.spansElse ss = (Node.elseBranch (ss.getD [])).spans := by
      cases ss <;> rfl
    rw [hspans] at hss
    exact ⟨_, c, .of_carried hrun hss nofun⟩
  | item o =>
    obtain ⟨⟨i, c⟩, ho, hi⟩ := Outcome.safe_checked_iff.1 (o.place_safe h)
    have hrun : (Operation.item o).run source cursor = .ok (.item i, c) :=
      Outcome.bind_eq_ok_iff.2 ⟨_, ho, rfl⟩
    exact ⟨_, c, .of_carried hrun hi nofun⟩

lemma Move.make_advances (h : Text.isBoundary source cursor = true) (m : Move) :
    ∃ ns c, m.make source cursor = .ok (ns, c) ∧ Advances source cursor c := by
  cases m with
  | seek words => exact ⟨_, _, rfl, (seek_sought words h).advances⟩
  | enterCall name =>
    exact ⟨_, _, rfl, openingParen_advances h fun s hs => (exists_of_search hs).2⟩
  | enterWord word =>
    have hseek := seekWord_sought word h
    obtain ⟨opening, hparen, hadvance, -⟩ := Outcome.safe_checked_iff.1
      (parenBehind_safe hseek.advances.boundary fun s hs =>
        ⟨hseek.on s hs, (hseek.found s hs).2.2⟩)
    exact ⟨_, _, Outcome.bind_eq_ok_iff.2 ⟨_, hparen, rfl⟩, hseek.advances.trans hadvance⟩
  | methodHead =>
    obtain ⟨head, hread, hhead⟩ := Outcome.safe_checked_iff.1 (readHead_safe h)
    exact ⟨_, _, Outcome.bind_eq_ok_iff.2 ⟨_, hread, rfl⟩, hhead.carried.advances⟩
  | regionHead =>
    have hseek := seek_sought (spellings regionWord) h
    obtain ⟨head, hread, hhead⟩ := Outcome.safe_checked_iff.1 (readCondition_safe hseek)
    exact ⟨_, _, Outcome.bind_eq_ok_iff.2 ⟨_, hread, rfl⟩, hseek.advances.trans hhead.advances⟩
  | run o =>
    obtain ⟨n, c, ho⟩ := o.exists_sound h
    exact ⟨_, _, Outcome.bind_eq_ok_iff.2 ⟨_, ho.run, rfl⟩, ho.advances⟩

lemma exists_makeAll (h : Text.isBoundary source cursor = true) (ms : List Move) :
    ∃ ns c, makeAll source ms cursor = .ok (ns, c) := by
  induction ms generalizing cursor with
  | nil => exact ⟨[], cursor, rfl⟩
  | cons m ms ih =>
    obtain ⟨ns, c, hm, hadvance⟩ := m.make_advances h
    obtain ⟨ns', c', hms⟩ := ih hadvance.boundary
    exact ⟨ns ++ ns', c', by simp [makeAll, hm, hms]⟩

lemma Reaches.isBoundary {ms ms' : List Move} {c c' : Nat} (h : Reaches source ms c ms' c')
    (hc : Text.isBoundary source c = true) : Text.isBoundary source c' = true := by
  induction h with
  | here => exact hc
  | inside _ ih => exact ih hc
  | later hm _ ih =>
    obtain ⟨ns, c₁, hm', hadvance⟩ := Move.make_advances hc _
    cases Outcome.ok.inj (hm'.symm.trans hm)
    exact ih hadvance.boundary

lemma exists_locate {s : Span} (h : s.On source) (hlt : Text.byteLength source < offsetLimit) :
    ∃ t, locate source (some s) = .ok t := by
  have hstop := Text.le_byteLength_of_isBoundary h.stop
  have hle : s.offset ≤ s.stop := Nat.le_add_right _ _
  obtain ⟨raw, hraw⟩ := Text.exists_slice? hle h.offset h.stop
  have hfits : s.Fits := Nat.lt_of_le_of_lt hstop hlt
  exact ⟨_, by rw [locate, Span.checkedStop_of_fits hfits, Outcome.ok_bind, hraw]; rfl⟩

/-- **Scripts are sound.** A script of operations from the beginning of a text comes to an end.
Wherever the cursor stands meanwhile, it is on a boundary of the text; and an operation that is
carried out from there is sound, with spans in the text that can be located. -/
theorem script_sound (source : Text) (os : List Operation) :
    (∃ ns c, makeAll source (os.map .run) 0 = .ok (ns, c)) ∧
    ∀ ms c, Reaches source (os.map .run) 0 ms c →
      (Text.isBoundary source c = true ∧ c ≤ Text.byteLength source) ∧
      ∀ o ms', ms = .run o :: ms' → ∃ n c', o.Sound source c n c' ∧
        c' ≤ Text.byteLength source ∧
        ∀ s ∈ n.spans, s.stop ≤ Text.byteLength source ∧
          (Text.byteLength source < offsetLimit → ∃ t, locate source (some s) = .ok t) := by
  have hzero : Text.isBoundary source 0 = true := Text.isBoundary_iff.2 ⟨[], source, rfl, rfl⟩
  refine ⟨exists_makeAll hzero _, fun ms c hreach => ?_⟩
  have hc := hreach.isBoundary hzero
  refine ⟨⟨hc, Text.le_byteLength_of_isBoundary hc⟩, ?_⟩
  rintro o ms' rfl
  obtain ⟨n, c', ho⟩ := o.exists_sound hc
  refine ⟨n, c', ho, Text.le_byteLength_of_isBoundary ho.advances.boundary, fun s hs => ?_⟩
  have hon := ho.spans s hs
  exact ⟨Text.le_byteLength_of_isBoundary hon.stop, exists_locate hon⟩

/-- In `f() g` the argument `g` of the call `f` is found behind the call: the cursor stands at 2
before it. -/
theorem script_sound_argument_behind :
    Reaches ['f', '(', ')', ' ', 'g'] [.run (.expression (.call ['f'] [some (.ident ['g'])]))] 0
      [.run (.expression (.ident ['g']))] 2 ∧
    ∃ n c', Operation.Sound ['f', '(', ')', ' ', 'g'] 2 (.expression (.ident ['g'])) n c' := by
  have hreach : Reaches ['f', '(', ')', ' ', 'g']
      [.run (.expression (.call ['f'] [some (.ident ['g'])]))] 0
      [.run (.expression (.ident ['g']))] 2 := by
    have hbehind : behind (openingParen ['f', '(', ')', ' ', 'g']
        (search ['f', '(', ')', ' ', 'g'] [['f']] 0)) 0 = 2 := by decide +kernel
    have henter : (Move.enterCall ['f']).make ['f', '(', ')', ' ', 'g'] 0 = .ok ([], 2) := by
      rw [Move.make, hbehind, Outcome.pure_eq]
    exact .inside (.later henter .here)
  obtain ⟨-, h⟩ := script_sound ['f', '(', ')', ' ', 'g']
    [.expression (.call ['f'] [some (.ident ['g'])])]
  obtain ⟨-, hsound⟩ := h _ 2 hreach
  obtain ⟨n, c', hn, -⟩ := hsound _ [] rfl
  exact ⟨hreach, n, c', hn⟩

end BslLint.Outline
