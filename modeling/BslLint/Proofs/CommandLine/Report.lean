import BslLint.CommandLine.Report
import BslLint.Proofs.Json.RoundTrip
import Mathlib.Data.Prod.Lex
import Mathlib.Data.String.Basic
import Mathlib.Order.Compare

/-!
What a report says as a whole: the order of its findings, the records that JSON output holds, and
the exit code.

Findings are compared part by part. That comes to the lexicographic order of their keys, and so
sorting them gives a list in that order with the same members. The exit code is counted by each
format in its own way, and comes to the same in all of them.
-/

namespace BslLint

/-! ### The order of texts -/

namespace Component

lemma compareText_eq_lt_iff {s t : Text} : compareText s t = .lt ↔ s < t := by
  induction s generalizing t with
  | nil => cases t <;> simp [compareText]
  | cons c s ih =>
    cases t with
    | nil => simp [compareText]
    | cons d t =>
      rw [compareText, Ordering.then_eq_lt, compare_lt_iff_lt, compare_eq_iff_eq, ih,
        List.cons_lt_cons_iff, Char.toNat_inj]
      rfl

lemma compareText_eq_eq_iff {s t : Text} : compareText s t = .eq ↔ s = t := by
  induction s generalizing t with
  | nil => cases t <;> simp [compareText]
  | cons c s ih =>
    cases t with
    | nil => simp [compareText]
    | cons d t =>
      rw [compareText, Ordering.then_eq_eq, compare_eq_iff_eq, ih, Char.toNat_inj,
        List.cons.injEq]

end Component

namespace Report

namespace Finding

lemma compareStrings_eq_lt_iff {s t : String} : compareStrings s t = .lt ↔ s < t := by
  rw [compareStrings, Component.compareText_eq_lt_iff, String.lt_iff_toList_lt]

lemma compareStrings_eq_eq_iff {s t : String} : compareStrings s t = .eq ↔ s = t := by
  rw [compareStrings, Component.compareText_eq_eq_iff, String.toList_inj]

lemma isLE_compareStrings_iff {s t : String} : (compareStrings s t).isLE = true ↔ s ≤ t := by
  rw [Ordering.isLE_iff_eq_lt_or_eq_eq, compareStrings_eq_lt_iff, compareStrings_eq_eq_iff,
    le_iff_lt_or_eq]

/-! ### The order of findings -/

/-- What findings are ordered by: file, row, column and lint. -/
def key (f : Finding) : String ×ₗ ℕ ×ₗ ℕ ×ₗ String :=
  toLex (f.file, toLex (f.diagnostic.extent.first.row,
    toLex (f.diagnostic.extent.first.column, f.diagnostic.lint.name)))

lemma le_iff {a b : Finding} : le a b = true ↔ a.key ≤ b.key := by
  simp only [le, compare, Ordering.then_assoc, Ordering.isLE_then_iff_or, key,
    Prod.Lex.toLex_le_toLex, compareStrings_eq_lt_iff, compareStrings_eq_eq_iff,
    isLE_compareStrings_iff, compare_lt_iff_lt, compare_eq_iff_eq]

lemma sorted_spec (fs : List Finding) :
    (sorted fs).Perm fs ∧ (sorted fs).Pairwise fun a b => a.key ≤ b.key := by
  refine ⟨List.mergeSort_perm fs le, ?_⟩
  have htrans : ∀ a b c : Finding, le a b = true → le b c = true → le a c = true := by
    intro a b c hab hbc
    exact le_iff.2 ((le_iff.1 hab).trans (le_iff.1 hbc))
  have htotal : ∀ a b : Finding, (le a b || le b a) = true := by
    intro a b
    rw [Bool.or_eq_true, le_iff, le_iff]
    exact le_total a.key b.key
  exact (List.pairwise_mergeSort htrans htotal fs).imp le_iff.1

/-! ### Records -/

def ShowsEdit (e : Edit) (v : Json) : Prop :=
  v.get? "offset" = some (.natural e.anchor) ∧ v.get? "length" = some (.natural e.length) ∧
    v.get? "replacement" = some (.string (String.ofList e.replacement))

/-- The record shows the finding. The name of a level tells the level; help and a fix are there if
the finding has them. -/
structure Shows (f : Finding) (v : Json) : Prop where
  file_eq : v.get? "file" = some (.string f.file)
  row_eq : v.get? "row" = some (.natural f.diagnostic.extent.first.row)
  column_eq : v.get? "column" = some (.natural f.diagnostic.extent.first.column)
  endRow_eq : v.get? "end_row" = some (.natural f.diagnostic.extent.last.row)
  endColumn_eq : v.get? "end_column" = some (.natural f.diagnostic.extent.last.column)
  level_eq : ∃ name, v.get? "level" = some (.string name) ∧
    ∀ l : LintLevel, l.label = name ↔ l = f.diagnostic.level
  lint_eq : v.get? "lint" = some (.string f.diagnostic.lint.name)
  message_eq : v.get? "message" = some (.string f.diagnostic.message)
  help_eq : v.get? "help" = f.diagnostic.help.map Json.string
  fix_rel : Option.Rel ShowsEdit (f.diagnostic.suggestion.map Suggestion.edit) (v.get? "fix")

lemma label_eq_iff {l l' : LintLevel} : l.label = l'.label ↔ l = l' := by
  cases l <;> cases l' <;> decide

lemma shows_toJson (f : Finding) : f.Shows f.toJson where
  file_eq := rfl
  row_eq := rfl
  column_eq := rfl
  endRow_eq := rfl
  endColumn_eq := rfl
  level_eq := ⟨f.diagnostic.level.label, rfl, fun _ => label_eq_iff⟩
  lint_eq := rfl
  message_eq := rfl
  help_eq := by
    obtain ⟨file, lint, level, place, extent, message, help, suggestion⟩ := f
    cases help <;> cases suggestion <;> rfl
  fix_rel := by
    obtain ⟨file, lint, level, place, extent, message, help, suggestion⟩ := f
    cases suggestion with
    | none => cases help <;> exact .none
    | some s =>
      have hedit : ShowsEdit s.edit (fixRecord s.edit) := ⟨rfl, rfl, rfl⟩
      cases help <;> exact .some hedit

lemma forall₂_shows (fs : List Finding) : List.Forall₂ Shows fs (fs.map toJson) :=
  List.forall₂_map_right_iff.2 (List.forall₂_same.2 fun f _ => shows_toJson f)

lemma plain_toJson (f : Finding) : f.toJson.Plain false := by
  have hnumber (n : Nat) : (Json.natural n).Plain false := .natural (by simp)
  have hfix (e : Edit) : (fixRecord e).Plain false := by
    refine .object ?_
    simp [hnumber, Json.Plain.string]
  refine .object ?_
  simp only [List.forall_mem_append, List.forall_mem_cons, List.not_mem_nil, false_imp_iff,
    implies_true, hnumber, Json.Plain.string, true_and, Option.mem_toList, Option.map_eq_some_iff]
  constructor
  · rintro _ ⟨help, -, rfl⟩
    exact .string help
  · rintro _ ⟨s, -, rfl⟩
    exact hfix s.edit

end Finding

lemma jsonDocument_of_pairwise {rs : List FileReport}
    (h : (Finding.ofReports rs).Pairwise fun a b => Finding.le a b = true) :
    jsonDocument rs = line (Json.pretty (.array ((Finding.ofReports rs).map Finding.toJson))) := by
  rw [jsonDocument, Finding.sorted, List.mergeSort_of_pairwise h]

/-- **The JSON document is read back** as the list of the records. -/
theorem anyValue?_jsonDocument (rs : List FileReport) :
    Json.anyValue? (jsonDocument rs).toList =
      some (.array ((Finding.sorted (Finding.ofReports rs)).map Finding.toJson)) := by
  rw [jsonDocument, line, String.toList_append]
  refine Json.anyValue?_pretty (.array ?_) (Json.gap_cons rfl Json.gap_nil)
  rintro v hv
  obtain ⟨f, -, rfl⟩ := List.mem_map.1 hv
  exact f.plain_toJson

/-! ### The exit code -/

/-- Some finding of some file is an error, or there is a finding and warnings are denied. -/
def Fails (denyWarnings : Bool) (rs : List FileReport) : Prop :=
  (∃ r ∈ rs, ∃ d ∈ r.diagnostics, d.level = .error) ∨
    denyWarnings = true ∧ ∃ r ∈ rs, r.diagnostics ≠ []

instance (denyWarnings : Bool) (rs : List FileReport) : Decidable (Fails denyWarnings rs) :=
  inferInstanceAs (Decidable (_ ∨ _ ∧ _))

lemma exitCode_eq (format : OutputFormat) (denyWarnings : Bool) (rs : List FileReport) :
    exitCode format denyWarnings rs = if Fails denyWarnings rs then 1 else 0 := by
  have hfound : (rs.flatMap FileReport.diagnostics).isEmpty = false ↔
      ∃ r ∈ rs, r.diagnostics ≠ [] := by
    simp [← Bool.not_eq_true]
  have herror : (∃ d ∈ rs.flatMap FileReport.diagnostics,
      countsAsError format denyWarnings d = true) → Fails denyWarnings rs := by
    rintro ⟨d, hd, hcounts⟩
    obtain ⟨r, hr, hd⟩ := List.mem_flatMap.1 hd
    have hcases : d.level = .error ∨ denyWarnings = true := by
      cases format with
      | pretty | json => exact .inl (by simpa [countsAsError] using hcounts)
      | github =>
        have hnote : d.level = .error ∨ denyWarnings = true ∧ d.level = .warn := by
          simpa [countsAsError, isErrorNote] using hcounts
        exact hnote.imp_right And.left
    rcases hcases with hlevel | hdeny
    · exact .inl ⟨r, hr, d, hd, hlevel⟩
    · exact .inr ⟨hdeny, r, hr, List.ne_nil_of_mem hd⟩
  have hlevel : (∃ r ∈ rs, ∃ d ∈ r.diagnostics, d.level = .error) →
      ∃ d ∈ rs.flatMap FileReport.diagnostics, countsAsError format denyWarnings d = true := by
    rintro ⟨r, hr, d, hd, hlevel⟩
    refine ⟨d, List.mem_flatMap.2 ⟨r, hr, hd⟩, ?_⟩
    cases format <;> simp [countsAsError, isErrorNote, hlevel]
  have hiff : ((rs.flatMap FileReport.diagnostics).any (countsAsError format denyWarnings) ||
      (denyWarnings && !(rs.flatMap FileReport.diagnostics).isEmpty)) = true ↔
      Fails denyWarnings rs := by
    rw [Bool.or_eq_true, Bool.and_eq_true, List.any_eq_true, Bool.not_eq_true', hfound]
    constructor
    · rintro (h | h)
      · exact herror h
      · exact .inr h
    · rintro (h | h)
      · exact .inl (hlevel h)
      · exact .inr h
  simp only [exitCode, hiff]

end Report

end BslLint
