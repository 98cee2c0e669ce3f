import BslLint.Json.Record
import BslLint.Proofs.Json.RoundTrip
import Mathlib.Data.List.Forall2
import Mathlib.Data.List.Nodup

/-!
Typed values that are written and read back: constants, lists, values that may be absent, and
records whose members are the fields that are asked for. `Json.Keeps read v a` says of a value `v`
that it is one which can be written and that `a` is read from it.
-/

namespace BslLint.Json

variable {α : Type}

attribute [simp] Plain.null Plain.bool Plain.string

lemma Plain.elements {strict : Bool} {vs : List Json} (h : (Json.array vs).Plain strict) :
    ∀ v ∈ vs, v.Plain strict := by
  cases h with
  | array hvs => exact hvs

lemma Plain.members {strict : Bool} {ms : List (String × Json)}
    (h : (Json.object ms).Plain strict) :
    ∀ m ∈ ms, m.2.Plain strict := by
  cases h with
  | object hms => exact hms

/-- The value can be written, and the given one is read from it. -/
structure Keeps (read : Json → Option α) (v : Json) (a : α) : Prop where
  plain : v.Plain true
  read_eq : read v = some a

abbrev KeepsOption (read : Json → Option α) (v : Json) (o : Option α) : Prop :=
  Keeps (fun v => optional? read (some v)) v o

lemma keeps_bool (b : Bool) : Keeps bool? (.bool b) b := ⟨.bool b, rfl⟩

lemma keeps_text (t : Text) : Keeps text? (.ofText t) t :=
  ⟨.string _, by simp [ofText, text?, string?]⟩

lemma keeps_offset {n : Nat} (h : n < offsetLimit) : Keeps offset? (.natural n) n :=
  ⟨.natural fun _ => h, by simp [offset?, h]⟩

lemma keeps_choice {all : List α} {name : α → String} {a : α}
    (h : all.find? (fun b => name b == name a) = some a) (nested : Bool) :
    Keeps (choice? all name nested) (.string (name a)) a :=
  ⟨.string _, h⟩

lemma isNull_iff {v : Json} : v.isNull = true ↔ v = .null := by
  cases v <;> simp [isNull]

lemma Keeps.toOption {read : Json → Option α} {v : Json} {a : α} (h : Keeps read v a)
    (hv : v ≠ .null) : KeepsOption read v (some a) := by
  have hnull : v.isNull = false := by simpa [← isNull_iff] using hv
  refine ⟨h.plain, ?_⟩
  simp only [optional?, hnull, Bool.false_eq_true, if_false, h.read_eq, Option.map_some]

lemma keepsOption_null (read : Json → Option α) : KeepsOption read .null none := ⟨.null, rfl⟩

lemma keepsOption_ofOption {read : Json → Option α} {write : α → Json} {o : Option α}
    (h : ∀ a ∈ o, Keeps read (write a) a) (hnull : ∀ a, write a ≠ .null) :
    KeepsOption read (.ofOption write o) o := by
  cases o with
  | none => exact keepsOption_null read
  | some a => exact (h a rfl).toOption (hnull a)

lemma keeps_array {read : Json → Option α} {vs : List Json} {as : List α}
    (h : List.Forall₂ (Keeps read) vs as) : Keeps (list? read) (.array vs) as := by
  induction h with
  | nil => exact ⟨.array (by simp), rfl⟩
  | @cons v a vs as hv _ ih =>
    have hread : vs.mapM read = some as := ih.read_eq
    exact ⟨.array (List.forall_mem_cons.2 ⟨hv.plain, ih.plain.elements⟩),
      by simp [list?, List.mapM_cons, hv.read_eq, hread]⟩

lemma keeps_map {read : Json → Option α} {write : α → Json} {as : List α}
    (h : ∀ a ∈ as, Keeps read (write a) a) : Keeps (list? read) (.array (as.map write)) as := by
  exact keeps_array (List.forall₂_map_left_iff.2 (List.forall₂_same.2 h))

/-! ### Records -/

lemma member?_of_mem {ms : List (String × Json)} (hkeys : (ms.map Prod.fst).Nodup)
    {m : String × Json} (hm : m ∈ ms) : member? m.1 ms = some (some m.2) := by
  have honly : ms.filter (·.1 == m.1) = [m] := by
    induction ms with
    | nil => simp at hm
    | cons n ms ih =>
      rw [List.map_cons, List.nodup_cons] at hkeys
      rcases List.mem_cons.1 hm with rfl | hm
      · have hrest : ms.filter (·.1 == m.1) = [] := by
          refine List.filter_eq_nil_iff.2 fun n hn heq => hkeys.1 ?_
          exact (beq_iff_eq.1 heq) ▸ List.mem_map_of_mem hn
        rw [List.filter_cons_of_pos (by simp), hrest]
      · have hne : n.1 ≠ m.1 := by
          intro heq
          exact hkeys.1 (heq ▸ List.mem_map_of_mem hm)
        rw [List.filter_cons_of_neg (by simpa using hne), ih hkeys.2 hm]
  rw [member?, honly]

lemma fields?_object {names : List String} {ms : List (String × Json)}
    (hnames : ms.map Prod.fst = names) (hkeys : names.Nodup) :
    fields? names (.object ms) = some (ms.map fun m => some m.2) := by
  subst hnames
  have hall : ∀ l : List (String × Json), l ⊆ ms →
      (l.map Prod.fst).mapM (fun name => member? name ms) = some (l.map fun m => some m.2) := by
    intro l hl
    induction l with
    | nil => rfl
    | cons m l ih =>
      obtain ⟨hm, hl⟩ := List.cons_subset.1 hl
      simp [List.mapM_cons, member?_of_mem hkeys hm, ih hl]
  exact hall ms (List.Subset.refl _)

lemma tagged?_object {key tag : String} {names : List String} (nested : Bool)
    {ms : List (String × Json)} (htag : tag ∈ names)
    (hkey : ∀ m ∈ ms, m.1 ≠ key) :
    tagged? key names nested (.object ((key, .string tag) :: ms)) = some (tag, .object ms) := by
  have hother : ms.filter (·.1 == key) = [] :=
    List.filter_eq_nil_iff.2 fun m hm heq => hkey m hm (beq_iff_eq.1 heq)
  have hrest : ms.filter (·.1 != key) = ms :=
    List.filter_eq_self.2 fun m hm => by simp [hkey m hm]
  simp [tagged?, member?, hother, hrest, variantName?, htag]

lemma keeps_tagged {key tag : String} {names : List String} (nested : Bool)
    {ms : List (String × Json)} {read : Json → Option α} {ofFields : String → Json → Option α}
    {a : α} (htag : tag ∈ names) (hkey : ∀ m ∈ ms, m.1 ≠ key) (hplain : ∀ m ∈ ms, m.2.Plain true)
    (h : ofFields tag (.object ms) = some a)
    (hread : read (.object ((key, .string tag) :: ms)) =
      (tagged? key names nested (.object ((key, .string tag) :: ms))).bind
        fun r => ofFields r.1 r.2) :
    Keeps read (.object ((key, .string tag) :: ms)) a := by
  refine ⟨.object (List.forall_mem_cons.2 ⟨.string tag, hplain⟩), ?_⟩
  rw [hread, tagged?_object nested htag hkey, Option.bind_some, h]

lemma content?_object {tagKey contentKey tag : String} {names : List String} (nested : Bool)
    {v : Json} (htag : tag ∈ names) (hkeys : tagKey ≠ contentKey) :
    content? tagKey contentKey names nested
        (.object [(tagKey, .string tag), (contentKey, v)]) =
      some (tag, ⟨some v, nested⟩) := by
  have hfind : names.find? (· == tag) = some tag := by
    cases hname : names.find? (· == tag) with
    | none => exact absurd (List.find?_eq_none.1 hname tag htag) (by simp)
    | some name =>
      have hsame := List.find?_some hname
      rw [beq_iff_eq.1 hsame]
  have hbefore : (tagKey == contentKey) = false := beq_false_of_ne hkeys
  simp [content?, member?, choice?, hfind, standsBefore, hkeys.symm, hbefore]

end BslLint.Json
