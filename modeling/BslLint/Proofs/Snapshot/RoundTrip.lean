import BslLint.Proofs.Environment
import BslLint.Proofs.Snapshot.Statement
import BslLint.Snapshot.Module

/-!
A module that is written into a snapshot is read back from it.

Each part of a module is read back from its own value (`Json.Keeps`), and the text of the whole
value is read back to the value as long as it is not nested too deep (`Json.parseRecord?_compact`).
-/

namespace BslLint

open Json (Keeps KeepsOption)

/-! ### Constants -/

lemma Environment.keeps_code (e : Environment) (nested : Bool) :
    Keeps (Json.choice? all code nested) (.string e.code) e :=
  Json.keeps_choice (by cases e <;> rfl) nested

lemma Symbol.keeps_code (s : Symbol) (nested : Bool) :
    Keeps (Json.choice? all code nested) (.string s.code) s :=
  Json.keeps_choice (by cases s <;> rfl) nested

lemma Directive.keeps_code (d : Directive) (nested : Bool) :
    Keeps (Json.choice? all code nested) (.string d.code) d :=
  Json.keeps_choice (by cases d <;> rfl) nested

lemma AnnotationKind.keeps_code (k : AnnotationKind) (nested : Bool) :
    Keeps (Json.choice? all code nested) (.string k.code) k :=
  Json.keeps_choice (by cases k <;> rfl) nested

lemma MethodKind.keeps_code (k : MethodKind) (nested : Bool) :
    Keeps (Json.choice? all code nested) (.string k.code) k :=
  Json.keeps_choice (by cases k <;> rfl) nested

/-! ### Conditions and environments -/

lemma EnvironmentSet.keeps_toJson {s : EnvironmentSet} (h : s.Clean) (nested : Bool) :
    Keeps (ofJson? nested) s.toJson s := by
  have hlist := Json.keeps_map fun e (_ : e ∈ s.toList) => e.keeps_code nested
  refine ⟨hlist.plain, ?_⟩
  rw [ofJson?, toJson, hlist.read_eq, Option.map_some, h.ofList_toList]

namespace Condition

lemma keeps_read? {n : Nat} {nested : Bool} {op : String} {v : Json} {c : Condition}
    (hop : op ∈ ops) (hplain : v.Plain true)
    (h : ofContent? (read? n nested) nested op v = some c) :
    Keeps (read? (n + 1) nested) (.object [("op", .string op), ("args", v)]) c where
  plain := .object (by simp [hplain])
  read_eq := by simp [read?, Json.content?_object nested hop, h]

mutual

lemma keeps_toJson : ∀ (c : Condition) {n : Nat} (nested : Bool), c.toJson.depth < n →
    Keeps (read? n nested) c.toJson c
  | _, 0, _, hdepth => by omega
  | .symbol s, n + 1, nested, _ => by
    have hs := s.keeps_code nested
    rw [toJson]
    exact keeps_read? (by simp [ops]) hs.plain (by simp [ofContent?, hs.read_eq])
  | .not c, n + 1, nested, hdepth => by
    simp only [toJson, Json.depth, Json.depthMembers, Json.depthMember] at hdepth
    have hc := keeps_toJson c (n := n) nested (by omega)
    rw [toJson]
    exact keeps_read? (by simp [ops]) hc.plain (by simp [ofContent?, hc.read_eq])
  | .and cs, n + 1, nested, hdepth => by
    simp only [toJson, Json.depth, Json.depthMembers, Json.depthMember] at hdepth
    have hcs := Json.keeps_array (forall₂_listToJson cs (n := n) nested (by omega))
    rw [toJson]
    exact keeps_read? (by simp [ops]) hcs.plain (by simp [ofContent?, hcs.read_eq])
  | .or cs, n + 1, nested, hdepth => by
    simp only [toJson, Json.depth, Json.depthMembers, Json.depthMember] at hdepth
    have hcs := Json.keeps_array (forall₂_listToJson cs (n := n) nested (by omega))
    rw [toJson]
    exact keeps_read? (by simp [ops]) hcs.plain (by simp [ofContent?, hcs.read_eq])

lemma forall₂_listToJson : ∀ (cs : List Condition) {n : Nat} (nested : Bool),
    Json.depthElements (listToJson cs) < n →
      List.Forall₂ (Keeps (read? n nested)) (listToJson cs) cs
  | [], n, _, _ => by
    rw [listToJson]
    exact .nil
  | c :: cs, n, nested, hdepth => by
    rw [listToJson, Json.depthElements] at hdepth
    rw [listToJson]
    exact .cons (keeps_toJson c nested (by omega)) (forall₂_listToJson cs nested (by omega))

end

lemma keeps_ofJson? (c : Condition) (nested : Bool) : Keeps (ofJson? nested) c.toJson c := by
  have hkeeps := c.keeps_toJson nested (Nat.lt_succ_self c.toJson.depth)
  exact ⟨hkeeps.plain, hkeeps.read_eq⟩

end Condition

/-! ### Methods and items -/

lemma Annotation.keeps_toJson {a : Annotation} (h : ∀ s ∈ a.span.toList, s.Bounded) :
    Keeps ofJson? a.toJson a := by
  have hk := a.kind.keeps_code true
  have ht := Json.keeps_text a.target
  have hs := Span.keepsOption_toJson h
  refine ⟨.object (by simp [ht.plain, hs.plain]), ?_⟩
  simp [ofJson?, toJson, Json.fields?_object, Json.required?, hk.read_eq, ht.read_eq, hs.read_eq]

lemma Method.keeps_toFields {m : Method} (h : ∀ s ∈ m.spans, s.Bounded) :
    Keeps ofFields? (.object m.toFields) m := by
  simp only [spans, List.forall_mem_append, List.forall_mem_flatMap] at h
  obtain ⟨⟨⟨⟨hspan, hnameSpan⟩, hdoc⟩, hmarks⟩, hbody⟩ := h
  have hname := Json.keeps_text m.name
  have hkind := m.kind.keeps_code true
  have hexport := Json.keeps_bool m.isExport
  have hdirectives := Json.keeps_map fun d (_ : d ∈ m.directives) => d.keeps_code true
  have hannotations := Json.keeps_map fun a ha => Annotation.keeps_toJson (hmarks a ha)
  have hstatements := Statement.keeps_list hbody true
  have hs := Span.keepsOption_toJson hspan
  have hn := Span.keepsOption_toJson hnameSpan
  have hd := Span.keepsOption_toJson hdoc
  constructor
  · refine .object ?_
    simp [toFields, hname.plain, hdirectives.plain, hannotations.plain, hstatements.plain, hs.plain,
      hn.plain, hd.plain]
  · simp [ofFields?, toFields, Json.fields?_object, Json.required?, Json.defaulted?, hname.read_eq,
      hkind.read_eq, hexport.read_eq, hdirectives.read_eq, hannotations.read_eq,
      hstatements.read_eq, hs.read_eq, hn.read_eq, hd.read_eq]

namespace Item

lemma keeps_read? {n : Nat} {nested : Bool} {kind : String} {ms : List (String × Json)}
    {item : Item} (hkind : kind ∈ kinds) (hkey : ∀ m ∈ ms, m.1 ≠ "item")
    (hplain : ∀ m ∈ ms, m.2.Plain true)
    (h : ofFields? (read? n true) kind (.object ms) = some item) :
    Keeps (read? (n + 1) nested) (.object (("item", .string kind) :: ms)) item :=
  Json.keeps_tagged nested hkind hkey hplain h rfl

mutual

lemma keeps_toJson : ∀ {item : Item}, (∀ s ∈ item.spans, s.Bounded) → ∀ {n : Nat} (nested : Bool),
    item.toJson.depth < n → Keeps (read? n nested) item.toJson item
  | _, _, 0, _, hdepth => by omega
  | .method m, hspans, n + 1, nested, _ => by
    rw [spans] at hspans
    have hm := Method.keeps_toFields hspans
    rw [toJson]
    refine keeps_read? (by simp [kinds]) (by simp [Method.toFields]) hm.plain.members ?_
    simp [ofFields?, hm.read_eq]
  | .region head items, hspans, n + 1, nested, hdepth => by
    simp only [spans, List.forall_mem_append] at hspans
    obtain ⟨⟨hspan, hconditionSpan⟩, hitems⟩ := hspans
    simp only [toJson, Json.depth, Json.depthMembers, Json.depthMember] at hdepth
    have hc := head.condition.keeps_ofJson? true
    have hcs := Span.keepsOption_toJson hconditionSpan
    have hi := Json.keeps_array (forall₂_listToJson hitems (n := n) true (by omega))
    have hs := Span.keepsOption_toJson hspan
    rw [toJson]
    refine keeps_read? (by simp [kinds]) (by simp)
      (by simp [hc.plain, hcs.plain, hi.plain, hs.plain]) ?_
    simp [ofFields?, Json.fields?_object, Json.required?, Json.defaulted?, hc.read_eq, hcs.read_eq,
      hi.read_eq, hs.read_eq]

lemma forall₂_listToJson : ∀ {items : List Item}, (∀ s ∈ spansList items, s.Bounded) →
    ∀ {n : Nat} (nested : Bool), Json.depthElements (listToJson items) < n →
      List.Forall₂ (Keeps (read? n nested)) (listToJson items) items
  | [], _, n, _, _ => by
    rw [listToJson]
    exact .nil
  | item :: items, hspans, n, nested, hdepth => by
    simp only [spansList, List.forall_mem_append] at hspans
    rw [listToJson, Json.depthElements] at hdepth
    rw [listToJson]
    exact .cons (keeps_toJson hspans.1 nested (by omega))
      (forall₂_listToJson hspans.2 nested (by omega))

end

lemma keeps_list {items : List Item} (h : ∀ s ∈ spansList items, s.Bounded) (nested : Bool) :
    Keeps (Json.list? (ofJson? nested)) (.array (listToJson items)) items := by
  refine Json.keeps_array ?_
  induction items with
  | nil =>
    rw [listToJson]
    exact .nil
  | cons item items ih =>
    simp only [spansList, List.forall_mem_append] at h
    have hi := keeps_toJson h.1 nested (Nat.lt_succ_self item.toJson.depth)
    rw [listToJson]
    exact .cons ⟨hi.plain, hi.read_eq⟩ (ih h.2)

end Item

/-! ### Modules -/

namespace Module

/-- The module as the text of a snapshot. -/
def toSnapshot (m : Module) : Text := m.toJson.compact.toList

variable {m : Module}

lemma keeps_toJson (hspans : ∀ s ∈ m.spans, s.Bounded) (henvironments : m.environments.Clean) :
    Keeps ofJson? m.toJson m := by
  simp only [spans, List.forall_mem_append] at hspans
  have hname := Json.keeps_text m.name
  have hsource := Json.keeps_text m.source
  have henv := EnvironmentSet.keeps_toJson henvironments false
  have hitems := Item.keeps_list hspans.1 false
  have hstatements := Statement.keeps_list hspans.2 false
  constructor
  · refine .object ?_
    simp [hname.plain, hsource.plain, henv.plain, hitems.plain, hstatements.plain]
  · simp [ofJson?, toJson, fieldNames, Json.fields?_object, Json.required?, Json.defaulted?,
      hname.read_eq, hsource.read_eq, henv.read_eq, hitems.read_eq, hstatements.read_eq]

/-- **A module is read back from its snapshot** if it has a name and is nested at most as deep as
the reader follows. Offsets and lengths are 64-bit numbers, and the set of environments has no bits
but theirs. -/
theorem ofSnapshot_toSnapshot (m : Module) (hname : Text.trim m.name ≠ [])
    (hdepth : m.toJson.depth ≤ 127) (hspans : ∀ s ∈ m.spans, s.Bounded)
    (henvironments : m.environments.Clean) : ofSnapshot m.toSnapshot = .ok m := by
  have hkeeps := keeps_toJson hspans henvironments
  have hparse : Json.parseRecord? fieldNames.contains m.toSnapshot = some m.toJson :=
    Json.parseRecord?_compact hkeeps.plain hdepth (by simp [fieldNames])
  simp [ofSnapshot, hparse, hkeeps.read_eq, named, hname]

/-- A module with every kind of item, condition, statement, expression and literal, with quotes and
control characters in its texts, an absent and an empty else branch, an omitted argument, and a span
at the last offset. -/
theorem ofSnapshot_toSnapshot_every_kind :
    let last : Span := ⟨18446744073709551615, 0⟩
    let quoted : Expression :=
      .literal (.string ("\"\\\n".toList ++ [Char.ofNat 1, Char.ofNat 2])) none
    let call : Expression := .invocation "Вызов".toList
      (some (.access "Поле".toList (some (.access "Х".toList none none)) (some last)))
      [none, some (.literal (.number "1.50".toList) none), none] (some last)
    let comparison : Expression := .binary .lessEq
      (.unary .neg (.literal (.date "20240101".toList) none) none) (.literal .undefined none) none
    let body : List Statement := [
      .simple call (some quoted) none,
      .ifChain (.mk (.literal (.boolean false) none) []) [.mk comparison [.returnValue none none]]
        (some []) (some last),
      .ifChain (.mk (.literal .null none) []) [] none none,
      .whileLoop comparison [.execute call (some ⟨3, 4⟩)] none,
      .forEach "Э".toList call [.tryExcept [.returnValue (some comparison) none] [] none] none]
    let m : Module := {
      name := " М\t".toList
      source := "😀\r".toList
      environments := .ofList [.mobileStandaloneServer, .webClient]
      items := [
        .region ⟨.or [.not (.symbol .atServer), .and []], some last, none⟩ [
          .region ⟨.symbol .externalConnection, none, some ⟨0, 0⟩⟩ [],
          .method ⟨"Ф".toList, .function, true, [.atServerNoContext, .atClient],
            [⟨.changeAndValidate, "Б".toList, some last⟩], body, some ⟨1, 2⟩, none, some last⟩]]
      statements := body }
    Text.trim m.name ≠ [] ∧ m.toJson.depth ≤ 127 ∧ (∀ s ∈ m.spans, s.Bounded) ∧
      m.environments.Clean ∧ ofSnapshot m.toSnapshot = .ok m := by
  intro last quoted call comparison body m
  have hname : Text.trim m.name ≠ [] := by decide +kernel
  have hdepth : m.toJson.depth ≤ 127 := by decide +kernel
  have hspans : ∀ s ∈ m.spans, s.Bounded := by decide +kernel
  have henvironments : m.environments.Clean := by decide +kernel
  exact ⟨hname, hdepth, hspans, henvironments,
    ofSnapshot_toSnapshot m hname hdepth hspans henvironments⟩

end Module

end BslLint
