import BslLint.Lint.Settings
import Mathlib.Data.List.Induction
import Mathlib.Data.List.Nodup

/-!
The last setting of a lint counts, whichever of its names is used.

Levels are only ever stored under the first names of lints (`Canonical`), so that looking a name up
as it is given never finds more than looking up the first name. What a change does to the level of a
lint is said by whether it mentions the lint under any of its names (`Change.Mentions`): if so, the
level is that of the change, and if not, it stays.
-/

namespace BslLint

lemma resolveLintAlias_resolveLintAlias (name : String) :
    resolveLintAlias (resolveLintAlias name) = resolveLintAlias name := by
  have hfirst : ∀ a ∈ lintAliases, resolveLintAlias a.2 = a.2 := by decide
  cases hfind : lintAliases.find? fun a => a.1 == name with
  | none =>
    have hname : resolveLintAlias name = name := by rw [resolveLintAlias, hfind]
    rw [hname, hname]
  | some a =>
    have hname : resolveLintAlias name = a.2 := by rw [resolveLintAlias, hfind]
    rw [hname, hfirst a (List.mem_of_find?_eq_some hfind)]

namespace LintSettings

/-- A way to change settings: a set of levels, or names of lints to switch off. -/
inductive Change where
  | levels (levels : List (String × LintLevel))
  | disabled (names : List String)
deriving DecidableEq, Repr

/-- The settings behind a change. -/
def Change.apply (s : LintSettings) : Change → LintSettings
  | levels ls => s.withLevels ls
  | disabled names => s.disable names

def ofChanges (changes : List Change) : LintSettings := changes.foldl Change.apply {}

def Change.names : Change → List String
  | levels ls => ls.map Prod.fst
  | disabled names => names

/-- Some name in the change stands for the lint with the given first name. -/
def Change.Mentions (lint : String) (c : Change) : Prop :=
  ∃ name ∈ c.names, resolveLintAlias name = lint

instance (lint : String) : DecidablePred (Change.Mentions lint) :=
  fun c => inferInstanceAs (Decidable (∃ name ∈ c.names, _))

/-- The change gives the lint with the given first name the level. -/
def Change.Sets (lint : String) (level : LintLevel) : Change → Prop
  | levels ls => ∃ name, (name, level) ∈ ls ∧ resolveLintAlias name = lint
  | disabled names => level = .allow ∧ ∃ name ∈ names, resolveLintAlias name = lint

/-- No two names of one set of levels stand for the same lint. -/
def Change.Unambiguous : Change → Prop
  | levels ls => (ls.map fun l => resolveLintAlias l.1).Nodup
  | disabled _ => True

instance : DecidablePred Change.Unambiguous
  | .levels ls => inferInstanceAs (Decidable (ls.map fun l => resolveLintAlias l.1).Nodup)
  | .disabled _ => isTrue trivial

/-- The last change that mentions the lint with the given first name gives it the level. -/
def LastSets (changes : List Change) (lint : String) (level : LintLevel) : Prop :=
  ∃ before c after, changes = before ++ c :: after ∧ c.Sets lint level ∧
    ∀ c' ∈ after, ¬c'.Mentions lint

/-! ### What one change does -/

variable {s : LintSettings} {lint : String} {level : LintLevel}

lemma lookup_set (s : LintSettings) (name lint : String) (level : LintLevel) :
    (s.set name level).levels.lookup lint =
      if resolveLintAlias name = lint then some level else s.levels.lookup lint := by
  by_cases h : resolveLintAlias name = lint
  · simp [set, h]
  · have hne : (lint == resolveLintAlias name) = false :=
      beq_eq_false_iff_ne.2 (Ne.symm h)
    simp only [set, List.lookup_cons, hne, if_neg h]

lemma lookup_withLevels_of_forall_ne {ls : List (String × LintLevel)}
    (h : ∀ l ∈ ls, resolveLintAlias l.1 ≠ lint) :
    (s.withLevels ls).levels.lookup lint = s.levels.lookup lint := by
  induction ls generalizing s with
  | nil => rfl
  | cons l ls ih =>
    obtain ⟨hl, hls⟩ := List.forall_mem_cons.1 h
    have hstep : s.withLevels (l :: ls) = (s.set l.1 l.2).withLevels ls := rfl
    rw [hstep, ih hls, lookup_set, if_neg hl]

lemma lookup_withLevels_of_mem {ls : List (String × LintLevel)} {name : String}
    (hmem : (name, level) ∈ ls) (hname : resolveLintAlias name = lint)
    (hall : ∀ l ∈ ls, resolveLintAlias l.1 = lint → l.2 = level) :
    (s.withLevels ls).levels.lookup lint = some level := by
  induction ls using List.reverseRecOn with
  | nil => simp at hmem
  | append_singleton ls l ih =>
    have hstep : s.withLevels (ls ++ [l]) = (s.withLevels ls).set l.1 l.2 := by
      simp [withLevels]
    rw [hstep, lookup_set]
    split
    case isTrue hl => rw [hall l (by simp) hl]
    case isFalse hl =>
      refine ih ?_ fun l' hl' => hall l' (by simp [hl'])
      rcases List.mem_append.1 hmem with h | h
      · exact h
      · obtain rfl := List.mem_singleton.1 h
        exact absurd hname hl

lemma disable_eq_withLevels (s : LintSettings) (names : List String) :
    s.disable names = s.withLevels (names.map fun name => (name, .allow)) := by
  rw [disable, withLevels, List.foldl_map]

lemma lookup_apply_of_sets {c : Change} (hc : c.Unambiguous) (h : c.Sets lint level) :
    (c.apply s).levels.lookup lint = some level := by
  cases c with
  | levels ls =>
    obtain ⟨name, hmem, hname⟩ := h
    refine lookup_withLevels_of_mem hmem hname fun l hl heq => ?_
    have hsame : l = (name, level) :=
      List.inj_on_of_nodup_map hc hl hmem (heq.trans hname.symm)
    rw [hsame]
  | disabled names =>
    obtain ⟨rfl, name, hmem, hname⟩ := h
    rw [Change.apply, disable_eq_withLevels]
    exact lookup_withLevels_of_mem (List.mem_map.2 ⟨name, hmem, rfl⟩) hname (by simp)

lemma lookup_apply_of_not_mentions {c : Change} (h : ¬c.Mentions lint) :
    (c.apply s).levels.lookup lint = s.levels.lookup lint := by
  cases c with
  | levels ls =>
    exact lookup_withLevels_of_forall_ne fun l hl heq =>
      h ⟨l.1, List.mem_map.2 ⟨l, hl, rfl⟩, heq⟩
  | disabled names =>
    rw [Change.apply, disable_eq_withLevels]
    refine lookup_withLevels_of_forall_ne fun l hl heq => ?_
    obtain ⟨name, hname, rfl⟩ := List.mem_map.1 hl
    exact h ⟨name, hname, heq⟩

/-! ### First names only -/

lemma levelFor_of_resolveLintAlias_eq {name : String} (hname : resolveLintAlias name = name) :
    s.levelFor name = (s.levels.lookup name).getD .warn := by
  unfold levelFor
  rw [hname]
  split
  case h_1 level hlookup => rw [hlookup, Option.getD_some]
  case h_2 => rfl

/-- Levels are stored under first names. -/
def Canonical (s : LintSettings) : Prop := ∀ l ∈ s.levels, resolveLintAlias l.1 = l.1

lemma Canonical.withLevels (hs : s.Canonical) (ls : List (String × LintLevel)) :
    (s.withLevels ls).Canonical := by
  induction ls generalizing s with
  | nil => exact hs
  | cons l ls ih =>
    exact ih (List.forall_mem_cons.2 ⟨resolveLintAlias_resolveLintAlias l.1, hs⟩)

lemma Canonical.apply (hs : s.Canonical) (c : Change) : (c.apply s).Canonical := by
  cases c with
  | levels ls => exact hs.withLevels ls
  | disabled names =>
    rw [Change.apply, disable_eq_withLevels]
    exact hs.withLevels _

lemma Canonical.levelFor_eq (hs : s.Canonical) (name : String) :
    s.levelFor name = (s.levels.lookup (resolveLintAlias name)).getD .warn := by
  unfold levelFor
  split
  case h_1 level hlookup =>
    -- What is stored under the name is stored under a first name.
    obtain ⟨before, after, hlevels, -⟩ := List.lookup_eq_some_iff.1 hlookup
    have hfirst : resolveLintAlias name = name := hs (name, level) (by simp [hlevels])
    rw [hfirst, hlookup, Option.getD_some]
  case h_2 => rfl

/-! ### Sequences of changes -/

lemma canonical_foldl (hs : s.Canonical) (changes : List Change) :
    (changes.foldl Change.apply s).Canonical := by
  induction changes generalizing s with
  | nil => exact hs
  | cons c changes ih => exact ih (hs.apply c)

lemma canonical_ofChanges (changes : List Change) : (ofChanges changes).Canonical :=
  canonical_foldl (by simp [Canonical]) changes

lemma lookup_foldl_of_not_mentions {changes : List Change}
    (h : ∀ c ∈ changes, ¬c.Mentions lint) :
    (changes.foldl Change.apply s).levels.lookup lint = s.levels.lookup lint := by
  induction changes generalizing s with
  | nil => rfl
  | cons c changes ih =>
    obtain ⟨hc, hchanges⟩ := List.forall_mem_cons.1 h
    rw [List.foldl_cons, ih hchanges, lookup_apply_of_not_mentions hc]

lemma lookup_ofChanges_of_lastSets {changes : List Change}
    (hchanges : ∀ c ∈ changes, c.Unambiguous) (h : LastSets changes lint level) :
    (ofChanges changes).levels.lookup lint = some level := by
  obtain ⟨before, c, after, rfl, hsets, hafter⟩ := h
  rw [ofChanges, List.foldl_append, List.foldl_cons, lookup_foldl_of_not_mentions hafter,
    lookup_apply_of_sets (hchanges c (by simp)) hsets]

/-- **The last setting of a lint counts.** Whatever changes are made to the default settings, as
long as no set of levels has two names of one lint: under every name, a lint has the level that the
last change gives it that mentions it under any of its names, and it is a warning if no change does.
In particular all names of a lint have the same level. -/
theorem levelFor_last_change {changes : List Change} (hchanges : ∀ c ∈ changes, c.Unambiguous)
    (query : String) :
    (∀ level, LastSets changes (resolveLintAlias query) level →
      (ofChanges changes).levelFor query = level) ∧
    ((∀ c ∈ changes, ¬c.Mentions (resolveLintAlias query)) →
      (ofChanges changes).levelFor query = .warn) ∧
    ∀ name, resolveLintAlias name = resolveLintAlias query →
      (ofChanges changes).levelFor name = (ofChanges changes).levelFor query := by
  have hlevel := (canonical_ofChanges changes).levelFor_eq
  refine ⟨fun level hlast => ?_, fun hnone => ?_, fun name hname => ?_⟩
  · rw [hlevel, lookup_ofChanges_of_lastSets hchanges hlast, Option.getD_some]
  · rw [hlevel, ofChanges, lookup_foldl_of_not_mentions hnone]
    rfl
  · rw [hlevel, hlevel, hname]

/-- A lint is switched off by its second name, and then made an error by its first one. -/
theorem levelFor_last_change_renamed :
    let changes : List Change := [.disabled ["link-part-comment-space", "link_part_comment_space"],
      .levels [("dont-use-modality-mode", .allow), ("link_part_comment_space", .error)],
      .disabled ["dont_use_modality_mode"]]
    (∀ c ∈ changes, c.Unambiguous) ∧
      (ofChanges changes).levelFor "link-part-comment-space" = .error ∧
      (ofChanges changes).levelFor "link_part_comment_space" = .error ∧
      (ofChanges changes).levelFor "extension_method_visible_mode" = .warn := by
  intro changes
  have hchanges : ∀ c ∈ changes, c.Unambiguous := by decide
  obtain ⟨hlast, -, hsame⟩ := levelFor_last_change hchanges "link-part-comment-space"
  obtain ⟨-, hnone, -⟩ := levelFor_last_change hchanges "extension_method_visible_mode"
  have herror : (ofChanges changes).levelFor "link-part-comment-space" = .error := by
    exact hlast .error ⟨[_], _, [_], rfl, ⟨"link_part_comment_space", by simp, by decide⟩,
      by decide⟩
  exact ⟨hchanges, herror, (hsame _ (by decide)).trans herror, hnone (by decide)⟩

end LintSettings

end BslLint
