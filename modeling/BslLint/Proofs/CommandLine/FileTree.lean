import BslLint.CommandLine.FileTree
import Mathlib.Tactic.Common

/-!
What a written file changes. A text is put only where no directory stands, so the directories of
the tree stay as they are; hence every path leads where it led before, and what is read there is the
same unless it is the place that was written.
-/

namespace BslLint.FileTree

variable {tree tree' : FileTree} {place place' : Place} {p q : Path} {t content : Text}

/-! ### What reading and writing come to -/

lemma find_eq_ok_iff {e : Entry} :
    tree.find p = .ok (place, e) ↔ tree.place p = .ok place ∧ tree.entry? place = some e := by
  unfold find
  cases tree.place p with
  | error err => simp [bind, Except.bind]
  | ok found =>
    simp only [bind, Except.bind, Except.ok.injEq]
    split
    · rename_i e' he
      simp only [pure, Except.pure, Except.ok.injEq, Prod.mk.injEq]
      constructor
      · rintro ⟨rfl, rfl⟩
        exact ⟨rfl, he⟩
      · rintro ⟨rfl, he'⟩
        exact ⟨rfl, Option.some.inj (he.symm.trans he')⟩
    · rename_i he
      simp only [reduceCtorEq, false_iff, not_and]
      rintro rfl
      simp [he]

lemma read_eq_ok_iff :
    tree.read p = .ok t ↔
      ∃ place, tree.place p = .ok place ∧ tree.entry? place = some (.text t) := by
  simp only [← find_eq_ok_iff]
  unfold read
  cases tree.find p with
  | error err => simp [bind, Except.bind]
  | ok found =>
    obtain ⟨place, e⟩ := found
    cases e <;> simp [bind, Except.bind, pure, Except.pure]

lemma write_eq_ok_iff :
    tree.write p content = .ok tree' ↔ ∃ place, tree.place p = .ok place ∧
      tree.entry? place ≠ some .directory ∧ tree' = tree.put place (.text content) := by
  unfold write
  cases tree.place p with
  | error err => simp [bind, Except.bind]
  | ok place =>
    simp only [bind, Except.bind, Except.ok.injEq, exists_eq_left']
    split
    · rename_i he
      simp [he]
    · rename_i he
      simp only [pure, Except.pure, Except.ok.injEq, eq_comm]
      exact ⟨fun h => ⟨fun hdir => he hdir, h⟩, fun h => h.2⟩

/-! ### After writing -/

lemma lookup_put_of_ne {e : Entry} (h : place' ≠ place) :
    entry? (tree.put place e) place' = tree.entry? place' := by
  have hlookup (entries : List (Place × Entry)) :
      (entries.filter (·.1 != place)).lookup place' = entries.lookup place' := by
    induction entries with
    | nil => rfl
    | cons entry entries ih =>
      by_cases hentry : entry.1 = place
      · have hmiss : (place' == entry.1) = false := by simp [hentry, h]
        rw [List.filter_cons_of_neg (by simp [hentry]), ih, List.lookup_cons, hmiss]
      · rw [List.filter_cons_of_pos (by simp [hentry]), List.lookup_cons, List.lookup_cons, ih]
  have hmiss : (place' == place) = false := by simp [h]
  unfold entry?
  rw [put, List.lookup_cons, hmiss, hlookup]

lemma directory_put_iff (h : tree.entry? place ≠ some .directory) :
    entry? (tree.put place (.text content)) place' = some .directory ↔
      tree.entry? place' = some .directory := by
  by_cases hplace : place' = place
  · subst hplace
    have hroot : place'.isEmpty = false := by
      by_contra hempty
      exact h (if_pos (by simpa using hempty))
    have hwritten : entry? (tree.put place' (.text content)) place' = some (.text content) := by
      unfold entry?
      rw [hroot, put, List.lookup_cons, beq_self_eq_true]
      rfl
    simp [hwritten, h]
  · rw [lookup_put_of_ne hplace]

lemma follow_cons_eq_ok_iff {part : Text} {parts : List Text} :
    tree.follow place (part :: parts) = .ok place' ↔ tree.entry? place = some .directory ∧
      tree.follow (if part == [] || part == ['.'] then place
        else if part == ['.', '.'] then place.dropLast else place ++ [part]) parts =
        .ok place' := by
  rw [follow]
  cases tree.entry? place with
  | none => simp
  | some e =>
    cases e with
    | directory => split_ifs <;> simp
    | text content => simp
    | binary => simp

lemma follow_put_eq_ok_iff (h : tree.entry? place ≠ some .directory) {start : Place}
    {parts : List Text} :
    (tree.put place (.text content)).follow start parts = .ok place' ↔
      tree.follow start parts = .ok place' := by
  induction parts generalizing start with
  | nil => rfl
  | cons part parts ih =>
    rw [follow_cons_eq_ok_iff, follow_cons_eq_ok_iff, directory_put_iff h, ih]

/-- **Paths lead where they led before.** -/
lemma place_eq_ok_iff_of_write (h : tree.write q content = .ok tree') :
    tree'.place p = .ok place ↔ tree.place p = .ok place := by
  obtain ⟨target, -, hfree, rfl⟩ := write_eq_ok_iff.1 h
  unfold FileTree.place
  split
  · rfl
  · exact follow_put_eq_ok_iff hfree

/-- The two paths do not lead to the same place. -/
def Apart (tree : FileTree) (p q : Path) : Prop :=
  ∀ place, tree.place p = .ok place → tree.place q ≠ .ok place

lemma Apart.of_write {r : Path} (h : tree.Apart p q) (hwrite : tree.write r content = .ok tree') :
    tree'.Apart p q := by
  intro place hp hq
  rw [place_eq_ok_iff_of_write hwrite] at hp hq
  exact h place hp hq

/-- **Files apart from the one that is written stay as they are.** -/
lemma read_of_write (hwrite : tree.write q content = .ok tree') (hapart : tree.Apart q p)
    (h : tree.read p = .ok t) : tree'.read p = .ok t := by
  obtain ⟨place, hplace, hentry⟩ := read_eq_ok_iff.1 h
  refine read_eq_ok_iff.2 ⟨place, (place_eq_ok_iff_of_write hwrite).2 hplace, ?_⟩
  obtain ⟨target, htarget, -, rfl⟩ := write_eq_ok_iff.1 hwrite
  have hne : place ≠ target := by
    rintro rfl
    exact hapart place htarget hplace
  rw [lookup_put_of_ne hne, hentry]

end BslLint.FileTree
