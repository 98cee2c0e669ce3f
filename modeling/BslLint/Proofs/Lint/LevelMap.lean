import BslLint.Config
import BslLint.Proofs.Lint.Levels
import BslLint.Proofs.Lint.Settings

/-!
Levels as a map. The entries of a map have no order, and settings take them one after the other, in
whichever order they are enumerated.

Two names of one lint are two keys of the map, but the settings keep one level for both. So the
order does not matter exactly if the names of one lint are given one level (`Consistent`): then what
is stored afterwards can be said without the order (`lookup_withLevels_perm`), and otherwise the
last of the entries that disagree decides.
-/

namespace BslLint

namespace LintSettings

/-- Names of one lint are given one level. -/
def Consistent (levels : List (String × LintLevel)) : Prop :=
  ∀ l ∈ levels, ∀ l' ∈ levels, resolveLintAlias l.1 = resolveLintAlias l'.1 → l.2 = l'.2

instance : DecidablePred Consistent :=
  fun levels => inferInstanceAs (Decidable (∀ l ∈ levels, ∀ l' ∈ levels, _))

variable {s t : LintSettings} {levels first second : List (String × LintLevel)}

/-! ### Settings that store the same -/

/-- The settings store the same levels under all names. -/
def Agree (s t : LintSettings) : Prop := ∀ name, s.levels.lookup name = t.levels.lookup name

lemma Agree.levelFor_eq (h : Agree s t) (name : String) : s.levelFor name = t.levelFor name := by
  unfold levelFor
  rw [h name, h (resolveLintAlias name)]

lemma Agree.withLevels (h : Agree s t) (levels : List (String × LintLevel)) :
    Agree (s.withLevels levels) (t.withLevels levels) := by
  induction levels generalizing s t with
  | nil => exact h
  | cons l levels ih =>
    refine ih fun name => ?_
    rw [lookup_set, lookup_set, h name]

lemma Agree.disable (h : Agree s t) (names : List String) :
    Agree (s.disable names) (t.disable names) := by
  rw [disable_eq_withLevels, disable_eq_withLevels]
  exact h.withLevels _

lemma Agree.grade_eq (h : Agree s t) : s.grade = t.grade := by
  funext ds
  refine List.filterMap_congr fun d _ => ?_
  rw [grade?, grade?, h.levelFor_eq]

lemma Agree.lintModule_eq (h : Agree s t) (input : LintInput) (c : Cancellation)
    {rules : List Rule} (hrules : ∀ r ∈ rules, r ∈ defaultRules) :
    lintModule rules (input.withSettings s) c = lintModule rules (input.withSettings t) c := by
  rw [lintModule_withSettings input s c hrules, lintModule_withSettings input t c hrules,
    h.grade_eq]

/-! ### Orders of a map -/

lemma lookup_withLevels_perm (hlevels : Consistent levels) (hfirst : first.Perm levels)
    (name : String) :
    (s.withLevels first).levels.lookup name = (s.withLevels levels).levels.lookup name := by
  by_cases h : ∃ l ∈ levels, resolveLintAlias l.1 = name
  · obtain ⟨l, hl, hname⟩ := h
    have hall : ∀ l' ∈ levels, resolveLintAlias l'.1 = name → l'.2 = l.2 :=
      fun l' hl' hname' => hlevels l' hl' l hl (hname'.trans hname.symm)
    rw [lookup_withLevels_of_mem (hfirst.mem_iff.2 hl) hname
        fun l' hl' => hall l' (hfirst.mem_iff.1 hl'),
      lookup_withLevels_of_mem hl hname hall]
  · push Not at h
    rw [lookup_withLevels_of_forall_ne fun l hl => h l (hfirst.mem_iff.1 hl),
      lookup_withLevels_of_forall_ne h]

lemma agree_of_perm (hlevels : Consistent levels) (hfirst : first.Perm levels)
    (hsecond : second.Perm levels) : Agree (s.withLevels first) (s.withLevels second) :=
  fun name => (lookup_withLevels_perm hlevels hfirst name).trans
    (lookup_withLevels_perm hlevels hsecond name).symm

lemma exists_perm_levelFor {l : String × LintLevel} (hl : l ∈ levels) (s : LintSettings) :
    ∃ order, order.Perm levels ∧
      (s.withLevels order).levelFor (resolveLintAlias l.1) = l.2 := by
  refine ⟨levels.erase l ++ [l], ?_, ?_⟩
  · exact List.perm_append_singleton l _ |>.trans (List.perm_cons_erase hl).symm
  · have hstep : s.withLevels (levels.erase l ++ [l]) =
        (s.withLevels (levels.erase l)).set l.1 l.2 := by
      simp [withLevels]
    rw [levelFor_of_resolveLintAlias_eq (resolveLintAlias_resolveLintAlias l.1), hstep, lookup_set,
      if_pos rfl, Option.getD_some]

/-- **When the order of a map of levels does not matter.** Whatever the settings were before: all
orders of the entries give every name the same level if and only if the names of one lint are given
one level. Then a run of any of the rules, with any lints switched off after that, comes to the same
in all orders. -/
theorem levelFor_withLevels_perm_iff (s : LintSettings) (levels : List (String × LintLevel)) :
    ((∀ first second, first.Perm levels → second.Perm levels → ∀ name,
        (s.withLevels first).levelFor name = (s.withLevels second).levelFor name) ↔
      Consistent levels) ∧
    (Consistent levels → ∀ first second, first.Perm levels → second.Perm levels →
      ∀ (disabled : List String) (rules : List Rule) (input : LintInput) (c : Cancellation),
        (∀ r ∈ rules, r ∈ defaultRules) →
          lintModule rules (input.withSettings ((s.withLevels first).disable disabled)) c =
            lintModule rules (input.withSettings ((s.withLevels second).disable disabled)) c) := by
  refine ⟨⟨fun horder l hl l' hl' hname => ?_, fun hlevels first second hfirst hsecond => ?_⟩,
    fun hlevels first second hfirst hsecond disabled rules input c hrules => ?_⟩
  · -- Of two entries for one lint each comes last in some order.
    obtain ⟨first, hfirst, hlevel⟩ := exists_perm_levelFor hl s
    obtain ⟨second, hsecond, hlevel'⟩ := exists_perm_levelFor hl' s
    rw [← hlevel, ← hlevel', ← hname]
    exact horder first second hfirst hsecond _
  · exact (agree_of_perm hlevels hfirst hsecond).levelFor_eq
  · exact ((agree_of_perm hlevels hfirst hsecond).disable disabled).lintModule_eq input c hrules

/-- One lint is given one level under both of its names, and another one is switched off in between:
the entries may as well be taken backwards. -/
theorem levelFor_withLevels_perm_iff_renamed :
    let levels := [("link-part-comment-space", LintLevel.error),
      ("dont_use_modality_mode", .allow), ("link_part_comment_space", .error)]
    let m : Module := {
      name := "М".toList
      source := "//См.Б".toList
      items := [.method ⟨"А".toList, .procedure, false, [], [], [], none, none, some ⟨0, 9⟩⟩] }
    let input : LintInput := ⟨m, {}, {}, none⟩
    let s : LintSettings := ⟨[("link_part_comment_space", .warn)]⟩
    Consistent levels ∧
      (s.withLevels levels.reverse).levelFor "link-part-comment-space" = .error ∧
      lintModule defaultRules (input.withSettings (s.withLevels levels.reverse)) .never =
        lintModule defaultRules (input.withSettings (s.withLevels levels)) .never := by
  intro levels m input s
  obtain ⟨hiff, hrun⟩ := levelFor_withLevels_perm_iff s levels
  have hlevels : Consistent levels := by decide
  have hbackwards : levels.reverse.Perm levels := levels.reverse_perm
  have hlevel : (s.withLevels levels).levelFor "link-part-comment-space" = .error := by decide
  exact ⟨hlevels, (hiff.2 hlevels _ _ hbackwards (.refl _) _).trans hlevel,
    hrun hlevels _ _ hbackwards (.refl _) [] defaultRules input .never fun _ hr => hr⟩

/-- A configuration file that gives one lint two levels, one under each of its names: which of them
counts depends on the order in which the entries are taken. -/
theorem levelFor_withLevels_order_matters :
    let file := "[lints]\nlink-part-comment-space = \"error\"\nlink_part_comment_space = \"allow\""
    let levels :=
      [("link-part-comment-space", LintLevel.error), ("link_part_comment_space", .allow)]
    (Config.parse? file.toList).map Config.levels = some levels ∧
      (levels.map Prod.fst).Nodup ∧ levels.reverse.Perm levels ∧
      (withLevels {} levels).levelFor "link_part_comment_space" = .allow ∧
      (withLevels {} levels.reverse).levelFor "link_part_comment_space" = .error := by
  intro file levels
  refine ⟨?_, by decide, levels.reverse_perm, by decide, by decide⟩
  decide +kernel

end LintSettings

end BslLint
