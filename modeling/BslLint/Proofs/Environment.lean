import BslLint.Environment.Directive
import Mathlib.Data.Fintype.Basic
import Mathlib.Tactic.Common

/-!
Environment sets as sets.

A mask has more bits than there are environments. The tests on masks agree with the sets as long as
no other bit is set (`EnvironmentSet.Clean`); what a routine's directives leave is always clean. In
a message a set is listed by the names of its members, and these can be read off it
(`EnvironmentSet.namedIn_label_iff`).
-/

namespace BslLint

instance : Fintype Environment := ⟨⟨Environment.all, by decide⟩, Environment.mem_all⟩

namespace EnvironmentSet

variable {s t : EnvironmentSet}

instance : HasSubset EnvironmentSet := ⟨fun s t => ∀ e ∈ s, e ∈ t⟩

instance (s t : EnvironmentSet) : Decidable (s ⊆ t) :=
  inferInstanceAs (Decidable (∀ e, e ∈ s → e ∈ t))

lemma exists_mem_diff_of_not_subset (h : ¬s ⊆ t) : ∃ e, e ∈ s.diff t := by
  by_contra hnone
  refine h fun e he => ?_
  by_contra hlacks
  exact hnone ⟨e, mem_diff.2 ⟨he, hlacks⟩⟩

lemma inter_right_comm (s t u : EnvironmentSet) : (s.inter t).inter u = (s.inter u).inter t := by
  simp only [inter, BitVec.and_assoc, BitVec.and_comm t.mask]

lemma inter_subset_inter_right_iff {u : EnvironmentSet} :
    s.inter u ⊆ t.inter u ↔ s.inter u ⊆ t := by
  constructor
  · intro h e he
    exact (mem_inter.1 (h e he)).1
  · intro h e he
    exact mem_inter.2 ⟨h e he, (mem_inter.1 he).2⟩

/-- No bit is set but those of environments. -/
def Clean (s : EnvironmentSet) : Prop :=
  ∀ i : Fin 16, s.mask.getLsbD i = true → ∃ e : Environment, e.index = i

instance (s : EnvironmentSet) : Decidable s.Clean :=
  inferInstanceAs (Decidable (∀ _ : Fin 16, _ → _))

lemma Clean.union (hs : s.Clean) (ht : t.Clean) : (s.union t).Clean := by
  intro i hi
  rw [EnvironmentSet.union, BitVec.getLsbD_or, Bool.or_eq_true] at hi
  exact hi.elim (hs i) (ht i)

lemma Clean.inter_right (ht : t.Clean) : (s.inter t).Clean := by
  intro i hi
  rw [EnvironmentSet.inter, BitVec.getLsbD_and, Bool.and_eq_true] at hi
  exact ht i hi.2

lemma Clean.diff (hs : s.Clean) : (s.diff t).Clean := by
  intro i hi
  rw [EnvironmentSet.diff, BitVec.getLsbD_and, Bool.and_eq_true] at hi
  exact hs i hi.1

lemma Clean.ext (hs : s.Clean) (ht : t.Clean) (h : ∀ e, e ∈ s ↔ e ∈ t) : s = t := by
  have hmask : s.mask = t.mask := by
    refine BitVec.eq_of_getLsbD_eq fun i hi => Bool.eq_iff_iff.2 ⟨fun hbit => ?_, fun hbit => ?_⟩
    · obtain ⟨e, rfl⟩ := hs ⟨i, hi⟩ hbit
      exact (h e).1 hbit
    · obtain ⟨e, rfl⟩ := ht ⟨i, hi⟩ hbit
      exact (h e).2 hbit
  cases s
  cases t
  exact congrArg EnvironmentSet.mk hmask

lemma clean_only (e : Environment) : (only e).Clean := by
  cases e <;> decide

lemma clean_foldl_union {α : Type} (f : α → EnvironmentSet) (hf : ∀ a, (f a).Clean) (l : List α)
    (hs : s.Clean) : (l.foldl (fun s a => s.union (f a)) s).Clean := by
  induction l generalizing s with
  | nil => exact hs
  | cons a l ih => exact ih (hs.union (hf a))

lemma clean_ofList (es : List Environment) : (ofList es).Clean :=
  clean_foldl_union only clean_only es (by decide)

lemma mem_foldl_union {α : Type} {f : α → EnvironmentSet} {l : List α} {e : Environment} :
    e ∈ l.foldl (fun s a => s.union (f a)) s ↔ e ∈ s ∨ ∃ a ∈ l, e ∈ f a := by
  induction l generalizing s with
  | nil => simp
  | cons a l ih => simp [ih, or_assoc]

lemma Clean.ofList_toList (hs : s.Clean) : ofList s.toList = s := by
  refine (clean_ofList _).ext hs fun e => ?_
  simp only [ofList, mem_foldl_union, not_mem_empty, false_or, mem_only, exists_eq_right', toList,
    List.mem_filter, Environment.mem_all, true_and]
  exact Iff.rfl

lemma Clean.isEmpty_iff (hs : s.Clean) : s.isEmpty = true ↔ ∀ e, ¬e ∈ s := by
  have hmask : s.isEmpty = true ↔ s.mask = 0 := by simp [EnvironmentSet.isEmpty]
  rw [hmask]
  constructor
  · intro h e he
    rw [mem_iff, contains, h] at he
    simp at he
  · intro h
    refine BitVec.eq_of_getLsbD_eq fun i hi => ?_
    by_contra hne
    have hbit : s.mask.getLsbD i = true := by simpa using hne
    obtain ⟨e, he⟩ := hs ⟨i, hi⟩ hbit
    refine h e ?_
    rwa [mem_iff, contains, he]

lemma Clean.isSubset_iff (hs : s.Clean) : s.isSubset t = true ↔ s ⊆ t := by
  have hdiff : s.isSubset t = (s.diff t).isEmpty := rfl
  rw [hdiff, hs.diff.isEmpty_iff]
  exact forall_congr' fun e => by simp

end EnvironmentSet

lemma Directive.clean_environments (d : Directive) : d.environments.Clean := by
  cases d <;> decide

lemma Directive.clean_environmentsOf (ds : List Directive) : (environmentsOf ds).Clean := by
  cases ds with
  | nil => exact (by decide : EnvironmentSet.all.Clean)
  | cons d ds =>
    exact EnvironmentSet.clean_foldl_union environments clean_environments (d :: ds)
      (by decide : EnvironmentSet.empty.Clean)

lemma Directive.mem_environmentsOf {ds : List Directive} {e : Environment} :
    e ∈ environmentsOf ds ↔ ds = [] ∨ ∃ d ∈ ds, e ∈ d.environments := by
  cases ds with
  | nil => simp [environmentsOf]
  | cons d ds =>
    have hfold : environmentsOf (d :: ds) =
        (d :: ds).foldl (fun s d => s.union d.environments) .empty := rfl
    rw [hfold, EnvironmentSet.mem_foldl_union]
    simp

/-! ### Names in messages -/

/-- The texts one after the other, with a comma and a space in front of each and behind the last. -/
def Text.separated (ts : List Text) : Text := ts.flatMap ([',', ' '] ++ ·) ++ [',', ' ']

namespace Text

lemma separated_cons (t : Text) (ts : List Text) :
    separated (t :: ts) = ',' :: (' ' :: t ++ separated ts) := by
  simp [separated]

lemma exists_separated (ts : List Text) : ∃ t, separated ts = ',' :: ' ' :: t := by
  cases ts with
  | nil => exact ⟨[], rfl⟩
  | cons t ts => exact ⟨t ++ separated ts, by simp [separated_cons]⟩

lemma eq_of_append_comma {t u a b : Text} (ht : ',' ∉ t) (hu : ',' ∉ u)
    (h : t ++ ',' :: a = u ++ ',' :: b) : t = u := by
  rcases List.append_eq_append_iff.1 h with ⟨z, rfl, hz⟩ | ⟨z, rfl, hz⟩
  · cases z <;> simp_all
  · cases z <;> simp_all

lemma infix_separated_of_mem {x : Text} {ts : List Text} (h : x ∈ ts) :
    separated [x] <:+: separated ts := by
  obtain ⟨front, behind, rfl⟩ := List.append_of_mem h
  obtain ⟨rest, hrest⟩ := exists_separated behind
  refine ⟨front.flatMap ([',', ' '] ++ ·), rest, ?_⟩
  simp [separated] at hrest ⊢
  simp [hrest]

-- By induction on the parts: an occurrence begins with a comma, and no part holds one.
lemma mem_of_infix_separated {x : Text} {ts : List Text} (hx : ',' ∉ x) (hts : ∀ t ∈ ts, ',' ∉ t)
    (h : separated [x] <:+: separated ts) : x ∈ ts := by
  have hone : separated [x] = ',' :: (' ' :: x ++ [',', ' ']) := by simp [separated]
  rw [hone] at h
  obtain ⟨front, behind, h⟩ := h
  induction ts generalizing front with
  | nil =>
    have hlength := congrArg List.length h
    simp [separated] at hlength
    omega
  | cons t ts ih =>
    obtain ⟨ht, hts⟩ := List.forall_mem_cons.1 hts
    obtain ⟨rest, hrest⟩ := exists_separated ts
    rw [separated_cons] at h
    cases front with
    | nil =>
      have hcut : x ++ ',' :: (' ' :: behind) = t ++ ',' :: (' ' :: rest) := by
        simpa [hrest] using h
      rw [eq_of_append_comma hx ht hcut]
      exact List.mem_cons_self
    | cons c front =>
      have htail : front ++ (',' :: (' ' :: x ++ [',', ' ']) ++ behind) =
          ' ' :: t ++ separated ts := by
        simpa using (List.cons.inj h).2
      rcases List.append_eq_append_iff.1 htail with ⟨z, hz, hrest⟩ | ⟨z, -, hz⟩
      · cases z with
        | nil => exact List.mem_cons_of_mem t (ih hts [] (by simpa using hrest))
        | cons d z =>
          obtain rfl : ',' = d := (List.cons.inj hrest).1
          have hmem : ',' ∈ ' ' :: t := hz ▸ by simp
          simp [ht] at hmem
      · exact List.mem_cons_of_mem t (ih hts z (by simpa using hz.symm))

lemma infix_separated_iff {x : Text} {ts : List Text} (hx : ',' ∉ x) (hts : ∀ t ∈ ts, ',' ∉ t) :
    separated [x] <:+: separated ts ↔ x ∈ ts :=
  ⟨mem_of_infix_separated hx hts, infix_separated_of_mem⟩

lemma separated_singleton_intercalate {ts : List Text} (h : ts ≠ []) :
    separated [[',', ' '].intercalate ts] = separated ts := by
  induction ts with
  | nil => exact absurd rfl h
  | cons t ts ih =>
    cases ts with
    | nil => simp [separated]
    | cons t' ts =>
      have ih := ih (by simp)
      rw [separated_cons t, ← ih, List.intercalate_cons_cons]
      simp [separated]

end Text

namespace Environment

/-- The text lists the environment: its name stands there between commas or at an end. -/
def NamedIn (e : Environment) (text : String) : Prop :=
  Text.separated [e.label.toList] <:+: Text.separated [text.toList]

instance (e : Environment) (text : String) : Decidable (e.NamedIn text) :=
  inferInstanceAs (Decidable (_ <:+: _))

lemma label_eq_iff {e f : Environment} : e.label.toList = f.label.toList ↔ e = f := by
  cases e <;> cases f <;> decide

lemma comma_not_mem_label (e : Environment) : ',' ∉ e.label.toList := by
  cases e <;> decide

end Environment

namespace EnvironmentSet

variable {s t : EnvironmentSet}

/-- **The label of a set names its members** and no other environments. -/
lemma namedIn_label_iff {e : Environment} : e.NamedIn s.label ↔ e ∈ s := by
  have hlabels : ∀ t ∈ s.toList.map fun f => f.label.toList, ',' ∉ t := by
    simp [Environment.comma_not_mem_label]
  have hmem : e.label.toList ∈ s.toList.map (fun f => f.label.toList) ↔ e ∈ s := by
    simp [Environment.label_eq_iff, toList, mem_iff, Environment.mem_all]
  unfold label
  split
  · rename_i hempty
    have hmask : s.mask = 0 := by simpa [isEmpty] using hempty
    have hnone : ¬e ∈ s := by simp [mem_iff, contains, hmask]
    have hnotNamed : ¬e.NamedIn "none" := by cases e <;> decide
    exact iff_of_false hnotNamed hnone
  · rw [← hmem, ← Text.infix_separated_iff e.comma_not_mem_label hlabels]
    cases hlist : s.toList with
    | nil => cases e <;> decide
    | cons f fs =>
      rw [Environment.NamedIn, String.toList_intercalate, List.map_map]
      exact iff_of_eq (congrArg _ (Text.separated_singleton_intercalate (by simp)))

lemma namedIn_label_diff_iff (e : Environment) :
    e.NamedIn (s.diff t).label ↔ e ∈ s ∧ ¬e ∈ t :=
  namedIn_label_iff.trans mem_diff

end EnvironmentSet

end BslLint
