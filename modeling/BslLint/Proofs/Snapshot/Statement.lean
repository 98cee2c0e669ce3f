import BslLint.Proofs.Snapshot.Expression
import BslLint.Snapshot.Statement

/-!
Statements that are written into a snapshot are read back, with their branches: an else branch
without statements stays apart from one that is absent.
-/

namespace BslLint

open Json (Keeps KeepsOption)

namespace Statement

lemma keeps_read? {n : Nat} {nested : Bool} {kind : String} {ms : List (String × Json)}
    {s : Statement} (hkind : kind ∈ kinds) (hkey : ∀ m ∈ ms, m.1 ≠ "kind")
    (hplain : ∀ m ∈ ms, m.2.Plain true)
    (h : ofFields? (read? n true) kind (.object ms) = some s) :
    Keeps (read? (n + 1) nested) (.object (("kind", .string kind) :: ms)) s :=
  Json.keeps_tagged nested hkind hkey hplain h rfl

lemma keeps_readExpression? {e : Expression} (h : ∀ s ∈ e.spans, s.Bounded) :
    Keeps readExpression? e.toJson e := e.keeps_ofJson? h true

lemma keepsOption_readExpression? {e : Option Expression}
    (h : ∀ s ∈ Expression.spansOption e, s.Bounded) :
    KeepsOption readExpression? (.ofOption Expression.toJson e) e :=
  Expression.keepsOption_ofJson? h true

/-- The statement is read back within any bound on its nesting. -/
def IsKept (s : Statement) : Prop :=
  (∀ x ∈ s.spans, x.Bounded) → ∀ {n : Nat} (nested : Bool), s.toJson.depth < n →
    Keeps (read? n nested) s.toJson s

def AreKept (ss : List Statement) : Prop :=
  (∀ x ∈ spansList ss, x.Bounded) → ∀ {n : Nat} (nested : Bool),
    Json.depthElements (listToJson ss) < n →
      List.Forall₂ (Keeps (read? n nested)) (listToJson ss) ss

def BranchIsKept (b : Branch) : Prop :=
  (∀ x ∈ b.spans, x.Bounded) → ∀ {n : Nat}, (branchToJson b).depth < n →
    Keeps (readBranch? (read? n true)) (branchToJson b) b

def BranchesAreKept (bs : List Branch) : Prop :=
  (∀ x ∈ Branch.spansList bs, x.Bounded) → ∀ {n : Nat}, Json.depthElements (branchesToJson bs) < n →
    List.Forall₂ (Keeps (readBranch? (read? n true))) (branchesToJson bs) bs

def ElseIsKept (body : Option (List Statement)) : Prop :=
  (∀ x ∈ spansElse body, x.Bounded) → ∀ {n : Nat}, (optionToJson body).depth < n →
    KeepsOption (Json.list? (read? n true)) (optionToJson body) body

lemma isKept_of_succ {s : Statement} (h : (∀ x ∈ s.spans, x.Bounded) → ∀ n nested,
    s.toJson.depth < n + 1 → Keeps (read? (n + 1) nested) s.toJson s) : IsKept s := by
  intro hspans n nested hdepth
  obtain ⟨k, rfl⟩ := Nat.exists_eq_add_one_of_ne_zero (Nat.ne_zero_of_lt hdepth)
  exact h hspans k nested hdepth

lemma isKept_simple (left : Expression) (right : Option Expression) (span : Option Span) :
    IsKept (.simple left right span) := by
  refine isKept_of_succ fun hspans n nested _ => ?_
  simp only [spans, List.forall_mem_append] at hspans
  obtain ⟨⟨hspan, hleft⟩, hright⟩ := hspans
  have hs := Span.keepsOption_toJson hspan
  have hl := keeps_readExpression? hleft
  have hr := keepsOption_readExpression? hright
  rw [toJson]
  refine keeps_read? (by simp [kinds]) (by simp) (by simp [hl.plain, hr.plain, hs.plain]) ?_
  simp [ofFields?, Json.fields?_object, Json.required?, hl.read_eq, hr.read_eq, hs.read_eq]

lemma isKept_ifChain {first : Branch} {elseIfs : List Branch}
    {otherwise : Option (List Statement)} (hfirstKept : BranchIsKept first)
    (helseIfsKept : BranchesAreKept elseIfs) (hotherwiseKept : ElseIsKept otherwise)
    (span : Option Span) : IsKept (.ifChain first elseIfs otherwise span) := by
  refine isKept_of_succ fun hspans n nested hdepth => ?_
  simp only [spans, List.forall_mem_append] at hspans
  obtain ⟨⟨⟨hspan, hfirst⟩, helseIfs⟩, hotherwise⟩ := hspans
  simp only [toJson, Json.depth, Json.depthMembers, Json.depthMember] at hdepth
  have hs := Span.keepsOption_toJson hspan
  have hf := hfirstKept hfirst (n := n) (by omega)
  have he := Json.keeps_array (helseIfsKept helseIfs (n := n) (by omega))
  have ho := hotherwiseKept hotherwise (n := n) (by omega)
  rw [toJson]
  refine keeps_read? (by simp [kinds]) (by simp)
    (by simp [hf.plain, he.plain, ho.plain, hs.plain]) ?_
  simp [ofFields?, Json.fields?_object, Json.required?, Json.defaulted?, hf.read_eq, he.read_eq,
    ho.read_eq, hs.read_eq]

lemma isKept_whileLoop (predicate : Expression) {body : List Statement} (hbodyKept : AreKept body)
    (span : Option Span) : IsKept (.whileLoop predicate body span) := by
  refine isKept_of_succ fun hspans n nested hdepth => ?_
  simp only [spans, List.forall_mem_append] at hspans
  obtain ⟨⟨hspan, hpredicate⟩, hbody⟩ := hspans
  simp only [toJson, Json.depth, Json.depthMembers, Json.depthMember] at hdepth
  have hs := Span.keepsOption_toJson hspan
  have hp := keeps_readExpression? hpredicate
  have hb := Json.keeps_array (hbodyKept hbody (n := n) true (by omega))
  rw [toJson]
  refine keeps_read? (by simp [kinds]) (by simp) (by simp [hp.plain, hb.plain, hs.plain]) ?_
  simp [ofFields?, Json.fields?_object, Json.required?, Json.defaulted?, hp.read_eq, hb.read_eq,
    hs.read_eq]

lemma isKept_forEach (loopVar : Text) (collection : Expression) {body : List Statement}
    (hbodyKept : AreKept body) (span : Option Span) :
    IsKept (.forEach loopVar collection body span) := by
  refine isKept_of_succ fun hspans n nested hdepth => ?_
  simp only [spans, List.forall_mem_append] at hspans
  obtain ⟨⟨hspan, hcollection⟩, hbody⟩ := hspans
  simp only [toJson, Json.depth, Json.depthMembers, Json.depthMember] at hdepth
  have hs := Span.keepsOption_toJson hspan
  have hv := Json.keeps_text loopVar
  have hc := keeps_readExpression? hcollection
  have hb := Json.keeps_array (hbodyKept hbody (n := n) true (by omega))
  rw [toJson]
  refine keeps_read? (by simp [kinds]) (by simp)
    (by simp [hv.plain, hc.plain, hb.plain, hs.plain]) ?_
  simp [ofFields?, Json.fields?_object, Json.required?, Json.defaulted?, hv.read_eq, hc.read_eq,
    hb.read_eq, hs.read_eq]

lemma isKept_tryExcept {body handler : List Statement} (hbodyKept : AreKept body)
    (hhandlerKept : AreKept handler) (span : Option Span) :
    IsKept (.tryExcept body handler span) := by
  refine isKept_of_succ fun hspans n nested hdepth => ?_
  simp only [spans, List.forall_mem_append] at hspans
  obtain ⟨⟨hspan, hbody⟩, hhandler⟩ := hspans
  simp only [toJson, Json.depth, Json.depthMembers, Json.depthMember] at hdepth
  have hs := Span.keepsOption_toJson hspan
  have hb := Json.keeps_array (hbodyKept hbody (n := n) true (by omega))
  have hh := Json.keeps_array (hhandlerKept hhandler (n := n) true (by omega))
  rw [toJson]
  refine keeps_read? (by simp [kinds]) (by simp) (by simp [hb.plain, hh.plain, hs.plain]) ?_
  simp [ofFields?, Json.fields?_object, Json.defaulted?, hb.read_eq, hh.read_eq, hs.read_eq]

lemma isKept_execute (code : Expression) (span : Option Span) : IsKept (.execute code span) := by
  refine isKept_of_succ fun hspans n nested _ => ?_
  simp only [spans, List.forall_mem_append] at hspans
  obtain ⟨hspan, hcode⟩ := hspans
  have hs := Span.keepsOption_toJson hspan
  have hc := keeps_readExpression? hcode
  rw [toJson]
  refine keeps_read? (by simp [kinds]) (by simp) (by simp [hc.plain, hs.plain]) ?_
  simp [ofFields?, Json.fields?_object, Json.required?, hc.read_eq, hs.read_eq]

lemma isKept_returnValue (value : Option Expression) (span : Option Span) :
    IsKept (.returnValue value span) := by
  refine isKept_of_succ fun hspans n nested _ => ?_
  simp only [spans, List.forall_mem_append] at hspans
  obtain ⟨hspan, hvalue⟩ := hspans
  have hs := Span.keepsOption_toJson hspan
  have hv := keepsOption_readExpression? hvalue
  rw [toJson]
  refine keeps_read? (by simp [kinds]) (by simp) (by simp [hv.plain, hs.plain]) ?_
  simp [ofFields?, Json.fields?_object, hv.read_eq, hs.read_eq]

lemma branchIsKept_mk (predicate : Expression) {body : List Statement} (hbodyKept : AreKept body) :
    BranchIsKept (.mk predicate body) := by
  intro hspans n hdepth
  simp only [Branch.spans, List.forall_mem_append] at hspans
  simp only [branchToJson, Json.depth, Json.depthMembers, Json.depthMember] at hdepth
  have hp := keeps_readExpression? hspans.1
  have hb := Json.keeps_array (hbodyKept hspans.2 (n := n) true (by omega))
  rw [branchToJson]
  refine ⟨.object (by simp [hp.plain, hb.plain]), ?_⟩
  simp [readBranch?, Json.fields?_object, Json.required?, Json.defaulted?, hp.read_eq, hb.read_eq]

lemma branchesAreKept_cons {b : Branch} {bs : List Branch} (hb : BranchIsKept b)
    (hbs : BranchesAreKept bs) : BranchesAreKept (b :: bs) := by
  intro hspans n hdepth
  simp only [Branch.spansList, List.forall_mem_append] at hspans
  rw [branchesToJson, Json.depthElements] at hdepth
  rw [branchesToJson]
  exact .cons (hb hspans.1 (by omega)) (hbs hspans.2 (by omega))

lemma elseIsKept_some {body : List Statement} (hbodyKept : AreKept body) :
    ElseIsKept (some body) := by
  intro hspans n hdepth
  rw [spansElse] at hspans
  rw [optionToJson, Json.depth] at hdepth
  rw [optionToJson]
  exact (Json.keeps_array (hbodyKept hspans true (by omega))).toOption (by simp)

lemma areKept_cons {s : Statement} {ss : List Statement} (hs : IsKept s) (hss : AreKept ss) :
    AreKept (s :: ss) := by
  intro hspans n nested hdepth
  simp only [spansList, List.forall_mem_append] at hspans
  rw [listToJson, Json.depthElements] at hdepth
  rw [listToJson]
  exact .cons (hs hspans.1 nested (by omega)) (hss hspans.2 nested (by omega))

mutual

lemma keeps_toJson : ∀ s : Statement, IsKept s
  | .simple left right span => isKept_simple left right span
  | .ifChain first elseIfs otherwise span =>
    isKept_ifChain (keeps_branchToJson first) (forall₂_branchesToJson elseIfs)
      (keepsOption_optionToJson otherwise) span
  | .whileLoop predicate body span => isKept_whileLoop predicate (forall₂_listToJson body) span
  | .forEach loopVar collection body span =>
    isKept_forEach loopVar collection (forall₂_listToJson body) span
  | .tryExcept body handler span =>
    isKept_tryExcept (forall₂_listToJson body) (forall₂_listToJson handler) span
  | .execute code span => isKept_execute code span
  | .returnValue value span => isKept_returnValue value span

lemma keeps_branchToJson : ∀ b : Branch, BranchIsKept b
  | .mk predicate body => branchIsKept_mk predicate (forall₂_listToJson body)

lemma forall₂_branchesToJson : ∀ bs : List Branch, BranchesAreKept bs
  | [] => fun _ _ _ => by
    rw [branchesToJson]
    exact .nil
  | b :: bs => branchesAreKept_cons (keeps_branchToJson b) (forall₂_branchesToJson bs)

lemma keepsOption_optionToJson : ∀ body : Option (List Statement), ElseIsKept body
  | none => fun _ _ _ => by
    rw [optionToJson]
    exact Json.keepsOption_null _
  | some body => elseIsKept_some (forall₂_listToJson body)

lemma forall₂_listToJson : ∀ ss : List Statement, AreKept ss
  | [] => fun _ _ _ _ => by
    rw [listToJson]
    exact .nil
  | s :: ss => areKept_cons (keeps_toJson s) (forall₂_listToJson ss)

end

/-- **Statements are read back.** -/
theorem keeps_list {ss : List Statement} (h : ∀ x ∈ spansList ss, x.Bounded) (nested : Bool) :
    Keeps (Json.list? (ofJson? nested)) (.array (listToJson ss)) ss := by
  refine Json.keeps_array ?_
  induction ss with
  | nil =>
    rw [listToJson]
    exact .nil
  | cons s ss ih =>
    simp only [spansList, List.forall_mem_append] at h
    have hs := keeps_toJson s h.1 nested (Nat.lt_succ_self s.toJson.depth)
    rw [listToJson]
    exact .cons ⟨hs.plain, hs.read_eq⟩ (ih h.2)

end Statement

end BslLint
