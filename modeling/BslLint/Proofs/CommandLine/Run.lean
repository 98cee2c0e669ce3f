import BslLint.CommandLine.Run
import BslLint.Proofs.CommandLine.Report
import BslLint.Proofs.Lint.SafeFix

/-!
Lint runs. What the files of a run are checked with and which files these are does not depend on the
format, and the reports of the files do not either. So the format only decides how the reports are
printed, and the run ends in the same way in all formats.
-/

namespace BslLint

/-! ### Sessions -/

namespace Session

lemma rules_sublist_of_start {tree : FileTree} {a : LintArguments} {s : Session}
    (h : start tree a = .ok s) : s.rules.Sublist defaultRules := by
  obtain ⟨config, -, h⟩ := Outcome.bind_eq_ok_iff.1 h
  split at h
  · cases h
  · rename_i rules hrules
    obtain ⟨paths, -, h⟩ := Outcome.bind_eq_ok_iff.1 h
    obtain ⟨base, -, h⟩ := Outcome.bind_eq_ok_iff.1 h
    cases h
    rw [RuleFilter.rules] at hrules
    split at hrules
    · cases hrules
    · cases hrules
      exact List.filter_sublist

lemma mem_defaultRules_of_start {tree : FileTree} {a : LintArguments} {s : Session}
    (h : start tree a = .ok s) : ∀ r ∈ s.rules, r ∈ defaultRules :=
  fun _ hr => (rules_sublist_of_start h).subset hr

lemma exists_lint {ε : Type} {s : Session} (hrules : ∀ r ∈ s.rules, r ∈ defaultRules)
    (hbase : ∀ m ∈ s.base.modules, m.SpansFit) (p : Path) {m : Module} (hm : m.SpansFit) :
    ∃ ds, (s.lint p m : Outcome ε (List Diagnostic)) = .ok ds := by
  let input : LintInput :=
    { module := m, settings := s.settings, project := s.project, base := some s.base }
  have hinput : ∀ b ∈ input.base, ∀ m ∈ b.modules, m.SpansFit := by simpa [input] using hbase
  obtain ⟨ds, hds, -⟩ := exists_lintModule .never hrules hm hinput
  exact ⟨_, by rw [lint, hds]; rfl⟩

/-- The report of a file: what the session finds in the module that it holds. -/
def Reports (s : Session) (p : Path) (m : Module) (r : FileReport) : Prop :=
  r.path = p ∧ (s.lint p m : Step (List Diagnostic)) = .ok r.diagnostics

end Session

section Files

variable {tree : FileTree} {s : Session} {files : List (Path × Module)}

lemma lintFiles_eq_ok {reports : List FileReport}
    (hread : ∀ f ∈ files, readModule tree f.1 = .ok f.2)
    (hreports : List.Forall₂ (fun f r => s.Reports f.1 f.2 r) files reports) :
    lintFiles tree s (files.map Prod.fst) = (reports, .ok ()) := by
  induction hreports with
  | nil => rfl
  | @cons f r files reports hr hreports ih =>
    obtain ⟨hf, hfiles⟩ := List.forall_mem_cons.1 hread
    obtain ⟨hpath, hlint⟩ := hr
    have hstep : (do s.lint f.1 (← readModule tree f.1) : Step (List Diagnostic)) =
        .ok r.diagnostics := by
      rw [hf, Outcome.ok_bind, hlint]
    rw [List.map_cons, lintFiles, hstep]
    simp only [ih hfiles, ← hpath]

lemma exists_reports (hrules : ∀ r ∈ s.rules, r ∈ defaultRules)
    (hbase : ∀ m ∈ s.base.modules, m.SpansFit) (hfiles : ∀ f ∈ files, f.2.SpansFit) :
    ∃ reports, List.Forall₂ (fun f r => s.Reports f.1 f.2 r) files reports := by
  induction files with
  | nil => exact ⟨[], .nil⟩
  | cons f files ih =>
    obtain ⟨hf, hfiles⟩ := List.forall_mem_cons.1 hfiles
    obtain ⟨ds, hds⟩ := Session.exists_lint (ε := CommandError) hrules hbase f.1 hf
    obtain ⟨reports, hreports⟩ := ih hfiles
    exact ⟨⟨f.1, ds⟩ :: reports, .cons ⟨rfl, hds⟩ hreports⟩

end Files

/-! ### Runs -/

/-- The format changes nothing about how a run is prepared, so that it stays open here. -/
lemma runLint_of_ok {tree : FileTree} {a : LintArguments} {s : Session} {paths : List Path}
    {reports : List FileReport} (hstart : Session.start tree a = .ok s)
    (hcollect : collect tree a.paths = .ok paths)
    (hfiles : lintFiles tree s paths = (reports, .ok ())) (format : OutputFormat) :
    runLint tree { a with format := some format } =
      { output := Report.render format a.denyWarnings reports
        ending := .exit (Report.exitCode format a.denyWarnings reports), tree } := by
  have hstart' : Session.start tree { a with format := some format } = .ok s := hstart
  have hprepared : (do
      let session ← Session.start tree { a with format := some format }
      return (session, ← collect tree a.paths) : Step (Session × List Path)) = .ok (s, paths) := by
    rw [hstart', Outcome.ok_bind, hcollect]
    rfl
  simp only [runLint, hprepared, hfiles, Option.getD_some]

lemma ending_runLint (tree : FileTree) (a : LintArguments) (f g : OutputFormat) :
    (runLint tree { a with format := some f }).ending =
      (runLint tree { a with format := some g }).ending := by
  have hstart : Session.start tree { a with format := some f } =
      Session.start tree { a with format := some g } := rfl
  simp only [runLint, hstart]
  split
  · rfl
  · rfl
  · split
    · rw [Report.exitCode_eq, Report.exitCode_eq]
    · rfl
    · rfl

/-- **The exit code does not depend on the format.** Whatever a lint run comes to, it ends in the
same way in all formats. Where all files are read and the checks of their modules come to reports,
it ends with code 1 if some finding of some file is an error, or warnings are denied and there is a
finding, and with code 0 otherwise; and in JSON it prints a text that is read as the list of the
records of all findings of all files, ordered by file, row, column and lint. The checks come to
reports whenever the spans of the modules end at offsets. -/
theorem run_lint_ending (tree : FileTree) (a : LintArguments) (s : Session)
    (files : List (Path × Module)) (hpaths : a.paths ≠ []) (hfix : a.fix = false)
    (hstart : Session.start tree a = .ok s)
    (hcollect : collect tree a.paths = .ok (files.map Prod.fst))
    (hread : ∀ f ∈ files, readModule tree f.1 = .ok f.2) :
    (∀ f g : OutputFormat,
      (Command.run tree (.lint { a with format := some f })).ending =
        (Command.run tree (.lint { a with format := some g })).ending) ∧
    (∀ reports, List.Forall₂ (fun f r => s.Reports f.1 f.2 r) files reports →
      (∀ f : OutputFormat, (Command.run tree (.lint { a with format := some f })).ending =
        .exit (if Report.Fails a.denyWarnings reports then 1 else 0)) ∧
      ∃ (found : List Report.Finding) (records : List Json),
        found.Perm (reports.flatMap fun r =>
          r.diagnostics.map fun d => ⟨d.file.getD r.path.toString, d⟩) ∧
        found.Pairwise (fun a b => a.key ≤ b.key) ∧
        List.Forall₂ Report.Finding.Shows found records ∧
        Json.anyValue? (Command.run tree (.lint { a with format := some .json })).output.toList =
          some (.array records)) ∧
    ((∀ f ∈ files, f.2.SpansFit) → (∀ m ∈ s.base.modules, m.SpansFit) →
      ∃ reports, List.Forall₂ (fun f r => s.Reports f.1 f.2 r) files reports) := by
  have hrun (f : OutputFormat) : Command.run tree (.lint { a with format := some f }) =
      runLint tree { a with format := some f } := by
    simp [Command.run, hpaths, hfix]
  simp only [hrun]
  refine ⟨ending_runLint tree a, fun reports hreports => ?_, fun hfiles hbase => ?_⟩
  · have hlint := lintFiles_eq_ok hread hreports
    refine ⟨fun f => ?_, ?_⟩
    · rw [runLint_of_ok hstart hcollect hlint, Report.exitCode_eq]
    · obtain ⟨hperm, hsorted⟩ := Report.Finding.sorted_spec (Report.Finding.ofReports reports)
      refine ⟨_, _, hperm, hsorted, Report.Finding.forall₂_shows _, ?_⟩
      rw [runLint_of_ok hstart hcollect hlint]
      exact Report.anyValue?_jsonDocument reports
  · exact exists_reports (Session.mem_defaultRules_of_start hstart) hbase hfiles

/-- Two warnings in the comment of a method, with warnings denied: the run fails in all formats, and
both of them are printed. -/
theorem run_lint_ending_denied :
    let snapshot : Text := "[\"М\", \"//См.Б //См.В\", [], [".toList ++
      "\x7b\"item\": \"method\", ".toList ++ "\"name\": \"А\", ".toList ++
      "\"kind\": \"procedure\", ".toList ++ "\"doc_comment\": [0, 19]\x7d]]".toList
    let p : Path := Path.ofString "m.json"
    let tree : FileTree := { entries := [(["m.json".toList], .text snapshot)] }
    let a : LintArguments := { paths := [p], denyWarnings := true }
    let record (first last offset : String) : String :=
      "  \x7b\n    \"file\": \"m.json\",\n    \"row\": 1,\n    \"column\": " ++ first ++
        ",\n    \"end_row\": 1,\n    \"end_column\": " ++ last ++
        ",\n    \"level\": \"warning\",\n    \"lint\": \"link_part_comment_space\",\n" ++
        "    \"message\": \"Link keyword must be followed by a space\",\n" ++
        "    \"help\": \"separate the link with a space\",\n" ++
        "    \"fix\": \x7b\n      \"offset\": " ++ offset ++
        ",\n      \"length\": 0,\n      \"replacement\": \" \"\n    \x7d\n  \x7d"
    ∃ s m r, Session.start tree a = .ok s ∧ collect tree a.paths = .ok [p] ∧
      readModule tree p = .ok m ∧ s.Reports p m r ∧
      (∀ f : OutputFormat,
        (Command.run tree (.lint { a with format := some f })).ending = .exit 1) ∧
      (Command.run tree (.lint { a with format := some .json })).output =
        "[\n" ++ record "5" "7" "7" ++ ",\n" ++ record "12" "14" "17" ++ "\n]\n" ∧
      ∃ (found : List Report.Finding) (records : List Json),
        found.Perm (r.diagnostics.map fun d => ⟨d.file.getD p.toString, d⟩) ∧
        List.Forall₂ Report.Finding.Shows found records ∧
        Json.anyValue? (Command.run tree (.lint { a with format := some .json })).output.toList =
          some (.array records) := by
  intro snapshot p tree a record
  obtain ⟨s, hstart⟩ : (Session.start tree a).Succeeds := by decide +kernel
  obtain ⟨m, hread⟩ : (readModule tree p).Succeeds := by decide +kernel
  have hcollect : collect tree a.paths = .ok [p] := by decide +kernel
  have hfit : (match readModule tree p with
      | .ok m => decide m.SpansFit
      | _ => false) = true := by decide +kernel
  rw [hread, decide_eq_true_eq] at hfit
  have hbase : (match Session.start tree a with
      | .ok s => s.base.modules.isEmpty
      | _ => false) = true := by decide +kernel
  rw [hstart, List.isEmpty_iff] at hbase
  obtain ⟨hsame, hcode, hreports⟩ := run_lint_ending tree a s [(p, m)] (by simp [a]) rfl hstart
    hcollect (by simpa using hread)
  obtain ⟨reports, hreports⟩ := hreports (by simpa using hfit) (by simp [hbase])
  obtain ⟨-, found, records, hperm, -, hshows, houtput⟩ := hcode reports hreports
  have hfails : (Command.run tree (.lint { a with format := some .github })).ending = .exit 1 := by
    decide +kernel
  have hlint := lintFiles_eq_ok (by simpa using hread) hreports
  obtain ⟨⟨q, ds⟩, _, ⟨rfl, hds⟩, hnil, rfl⟩ := List.forall₂_cons_left_iff.1 hreports
  obtain rfl := List.forall₂_nil_left_iff.1 hnil
  -- The findings stand in their order already, so that sorting need not be computed.
  have hcomputed : (match Session.start tree a, readModule tree p with
      | .ok s, .ok m => match (s.lint p m : Step (List Diagnostic)) with
        | .ok ds => decide (((Report.Finding.ofReports [⟨p, ds⟩]).Pairwise fun a b =>
            Report.Finding.le a b = true) ∧
          Report.line (Json.pretty (.array ((Report.Finding.ofReports [⟨p, ds⟩]).map
            Report.Finding.toJson))) =
              "[\n" ++ record "5" "7" "7" ++ ",\n" ++ record "12" "14" "17" ++ "\n]\n")
        | _ => false
      | _, _ => false) = true := by decide +kernel
  rw [hstart, hread] at hcomputed
  simp only [hds, decide_eq_true_eq] at hcomputed
  have hprinted : (Command.run tree (.lint { a with format := some .json })).output =
      Report.jsonDocument [⟨p, ds⟩] :=
    congrArg RunResult.output (runLint_of_ok hstart hcollect hlint .json)
  rw [List.flatMap_singleton] at hperm
  exact ⟨s, m, ⟨p, ds⟩, hstart, hcollect, hread, ⟨rfl, hds⟩,
    fun f => (hsame f .github).trans hfails,
    hprinted.trans ((Report.jsonDocument_of_pairwise hcomputed.1).trans hcomputed.2), found,
    records, hperm, hshows, houtput⟩

end BslLint
