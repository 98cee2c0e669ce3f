import BslLint.Proofs.Json.Record
import BslLint.Proofs.Syntax.Spans
import BslLint.Snapshot.Expression

/-!
Expressions that are written into a snapshot are read back, provided their spans are made of
offsets. An expression is read with a bound on its nesting, which the nesting of what was written
keeps.
-/

namespace BslLint

open Json (Keeps KeepsOption)

namespace Span

/-- The offset and the length of the span are offsets, so that they can be written. -/
def Bounded (s : Span) : Prop := s.offset < offsetLimit ∧ s.length < offsetLimit

instance (s : Span) : Decidable s.Bounded := inferInstanceAs (Decidable (_ ∧ _))

lemma keeps_toJson {s : Span} (h : s.Bounded) : Keeps ofJson? s.toJson s where
  plain := .object (by simp [(Json.keeps_offset h.1).plain, (Json.keeps_offset h.2).plain])
  read_eq := by
    simp [toJson, ofJson?, Json.fields?_object, Json.required?, (Json.keeps_offset h.1).read_eq,
      (Json.keeps_offset h.2).read_eq]

lemma keepsOption_toJson {span : Option Span} (h : ∀ s ∈ span.toList, s.Bounded) :
    KeepsOption ofJson? (.ofOption toJson span) span :=
  Json.keepsOption_ofOption (fun s hs => keeps_toJson (h s (by simpa using hs))) (by simp [toJson])

end Span

lemma Literal.keeps_toJson (l : Literal) : Keeps ofJson? l.toJson l := by
  have htext : ∀ t : Text, (Json.ofText t).Plain true := fun t => (Json.keeps_text t).plain
  have hread : ∀ t : Text, Json.text? (.ofText t) = some t := fun t => (Json.keeps_text t).read_eq
  cases l with
  | boolean b => exact ⟨.object (by simp), rfl⟩
  | string t =>
    exact ⟨.object (by simp [htext]), by
      simp [toJson, ofJson?, Json.content?_object, types, ofContent?, hread]⟩
  | number t =>
    exact ⟨.object (by simp [htext]), by
      simp [toJson, ofJson?, Json.content?_object, types, ofContent?, hread]⟩
  | date t =>
    exact ⟨.object (by simp [htext]), by
      simp [toJson, ofJson?, Json.content?_object, types, ofContent?, hread]⟩
  | undefined => exact ⟨.object (by simp), rfl⟩
  | null => exact ⟨.object (by simp), rfl⟩

lemma BinaryOp.keeps_code (op : BinaryOp) (nested : Bool) :
    Keeps (Json.choice? all code nested) (.string op.code) op :=
  Json.keeps_choice (by cases op <;> rfl) nested

lemma UnaryOp.keeps_code (op : UnaryOp) (nested : Bool) :
    Keeps (Json.choice? all code nested) (.string op.code) op :=
  Json.keeps_choice (by cases op <;> rfl) nested

namespace Expression

lemma keeps_read? {n : Nat} {nested : Bool} {kind : String} {ms : List (String × Json)}
    {e : Expression} (hkind : kind ∈ kinds) (hkey : ∀ m ∈ ms, m.1 ≠ "kind")
    (hplain : ∀ m ∈ ms, m.2.Plain true)
    (h : ofFields? (read? n true) kind (.object ms) = some e) :
    Keeps (read? (n + 1) nested) (.object (("kind", .string kind) :: ms)) e :=
  Json.keeps_tagged nested hkind hkey hplain h rfl

lemma toJson_ne_null (e : Expression) : e.toJson ≠ .null := by
  cases e <;> simp [toJson]

/-- The expression is read back within any bound on its nesting. -/
def IsKept (e : Expression) : Prop :=
  (∀ s ∈ e.spans, s.Bounded) → ∀ {n : Nat} (nested : Bool), e.toJson.depth < n →
    Keeps (read? n nested) e.toJson e

def OptionIsKept (e : Option Expression) : Prop :=
  (∀ s ∈ spansOption e, s.Bounded) → ∀ {n : Nat}, (optionToJson e).depth < n →
    KeepsOption (read? n true) (optionToJson e) e

def AreKept (es : List (Option Expression)) : Prop :=
  (∀ s ∈ spansList es, s.Bounded) → ∀ {n : Nat}, Json.depthElements (listToJson es) < n →
    List.Forall₂ (KeepsOption (read? n true)) (listToJson es) es

/-- The operands are written one level deeper, so that the bound for them is smaller by one. -/
lemma isKept_of_succ {e : Expression} (h : (∀ s ∈ e.spans, s.Bounded) → ∀ n nested,
    e.toJson.depth < n + 1 → Keeps (read? (n + 1) nested) e.toJson e) : IsKept e := by
  intro hspans n nested hdepth
  obtain ⟨k, rfl⟩ := Nat.exists_eq_add_one_of_ne_zero (Nat.ne_zero_of_lt hdepth)
  exact h hspans k nested hdepth

lemma isKept_literal (value : Literal) (span : Option Span) : IsKept (.literal value span) := by
  refine isKept_of_succ fun hspans n nested _ => ?_
  simp only [spans] at hspans
  have hs := Span.keepsOption_toJson hspans
  have hv := value.keeps_toJson
  rw [toJson]
  refine keeps_read? (by simp [kinds]) (by simp) (by simp [hv.plain, hs.plain]) ?_
  simp [ofFields?, Json.fields?_object, Json.required?, hv.read_eq, hs.read_eq]

lemma isKept_access (name : Text) {source : Option Expression}
    (hsourceKept : OptionIsKept source) (span : Option Span) :
    IsKept (.access name source span) := by
  refine isKept_of_succ fun hspans n nested hdepth => ?_
  simp only [spans, List.forall_mem_append] at hspans
  obtain ⟨hspan, hsource⟩ := hspans
  simp only [toJson, Json.depth, Json.depthMembers, Json.depthMember] at hdepth
  have hs := Span.keepsOption_toJson hspan
  have hn := Json.keeps_text name
  have hv := hsourceKept hsource (n := n) (by omega)
  rw [toJson]
  refine keeps_read? (by simp [kinds]) (by simp) (by simp [hn.plain, hv.plain, hs.plain]) ?_
  simp [ofFields?, Json.fields?_object, Json.required?, hn.read_eq, hv.read_eq, hs.read_eq]

lemma isKept_invocation (name : Text) {receiver : Option Expression}
    {params : List (Option Expression)} (hreceiverKept : OptionIsKept receiver)
    (hparamsKept : AreKept params) (span : Option Span) :
    IsKept (.invocation name receiver params span) := by
  refine isKept_of_succ fun hspans n nested hdepth => ?_
  simp only [spans, List.forall_mem_append] at hspans
  obtain ⟨⟨hspan, hreceiver⟩, hparams⟩ := hspans
  simp only [toJson, Json.depth, Json.depthMembers, Json.depthMember] at hdepth
  have hs := Span.keepsOption_toJson hspan
  have hn := Json.keeps_text name
  have hr := hreceiverKept hreceiver (n := n) (by omega)
  have hp := Json.keeps_array (hparamsKept hparams (n := n) (by omega))
  rw [toJson]
  refine keeps_read? (by simp [kinds]) (by simp)
    (by simp [hn.plain, hr.plain, hp.plain, hs.plain]) ?_
  simp [ofFields?, Json.fields?_object, Json.required?, Json.defaulted?, hn.read_eq, hr.read_eq,
    hp.read_eq, hs.read_eq]

lemma isKept_binary (op : BinaryOp) {left right : Expression} (hleftKept : IsKept left)
    (hrightKept : IsKept right) (span : Option Span) : IsKept (.binary op left right span) := by
  refine isKept_of_succ fun hspans n nested hdepth => ?_
  simp only [spans, List.forall_mem_append] at hspans
  obtain ⟨⟨hspan, hleft⟩, hright⟩ := hspans
  simp only [toJson, Json.depth, Json.depthMembers, Json.depthMember] at hdepth
  have hs := Span.keepsOption_toJson hspan
  have hop := op.keeps_code true
  have hl := hleftKept hleft (n := n) true (by omega)
  have hr := hrightKept hright (n := n) true (by omega)
  rw [toJson]
  refine keeps_read? (by simp [kinds]) (by simp) (by simp [hl.plain, hr.plain, hs.plain]) ?_
  simp [ofFields?, Json.fields?_object, Json.required?, hop.read_eq, hl.read_eq, hr.read_eq,
    hs.read_eq]

lemma isKept_unary (op : UnaryOp) {operand : Expression} (hoperandKept : IsKept operand)
    (span : Option Span) : IsKept (.unary op operand span) := by
  refine isKept_of_succ fun hspans n nested hdepth => ?_
  simp only [spans, List.forall_mem_append] at hspans
  obtain ⟨hspan, hoperand⟩ := hspans
  simp only [toJson, Json.depth, Json.depthMembers, Json.depthMember] at hdepth
  have hs := Span.keepsOption_toJson hspan
  have hop := op.keeps_code true
  have hv := hoperandKept hoperand (n := n) true (by omega)
  rw [toJson]
  refine keeps_read? (by simp [kinds]) (by simp) (by simp [hv.plain, hs.plain]) ?_
  simp [ofFields?, Json.fields?_object, Json.required?, hop.read_eq, hv.read_eq, hs.read_eq]

lemma optionIsKept_some {e : Expression} (he : IsKept e) : OptionIsKept (some e) := by
  intro hspans n hdepth
  rw [spansOption] at hspans
  rw [optionToJson] at hdepth ⊢
  exact (he hspans true hdepth).toOption e.toJson_ne_null

lemma areKept_cons {e : Option Expression} {es : List (Option Expression)} (he : OptionIsKept e)
    (hes : AreKept es) : AreKept (e :: es) := by
  intro hspans n hdepth
  simp only [spansList, List.forall_mem_append] at hspans
  rw [listToJson, Json.depthElements] at hdepth
  rw [listToJson]
  exact .cons (he hspans.1 (by omega)) (hes hspans.2 (by omega))

mutual

lemma keeps_toJson : ∀ e : Expression, IsKept e
  | .literal value span => isKept_literal value span
  | .access name source span => isKept_access name (keepsOption_toJson source) span
  | .invocation name receiver params span =>
    isKept_invocation name (keepsOption_toJson receiver) (forall₂_listToJson params) span
  | .binary op left right span => isKept_binary op (keeps_toJson left) (keeps_toJson right) span
  | .unary op operand span => isKept_unary op (keeps_toJson operand) span

lemma keepsOption_toJson : ∀ e : Option Expression, OptionIsKept e
  | none => fun _ _ _ => by
    rw [optionToJson]
    exact Json.keepsOption_null _
  | some e => optionIsKept_some (keeps_toJson e)

lemma forall₂_listToJson : ∀ es : List (Option Expression), AreKept es
  | [] => fun _ _ _ => by
    rw [listToJson]
    exact .nil
  | e :: es => areKept_cons (keepsOption_toJson e) (forall₂_listToJson es)

end

/-- **An expression is read back.** -/
theorem keeps_ofJson? {e : Expression} (h : ∀ s ∈ e.spans, s.Bounded) (nested : Bool) :
    Keeps (ofJson? nested) e.toJson e := by
  have hkeeps := keeps_toJson e h nested (Nat.lt_succ_self e.toJson.depth)
  exact ⟨hkeeps.plain, hkeeps.read_eq⟩

lemma keepsOption_ofJson? {e : Option Expression} (h : ∀ s ∈ spansOption e, s.Bounded)
    (nested : Bool) : KeepsOption (ofJson? nested) (.ofOption toJson e) e := by
  refine Json.keepsOption_ofOption (fun a ha => ?_) toJson_ne_null
  cases ha
  exact keeps_ofJson? h nested

end Expression

end BslLint
