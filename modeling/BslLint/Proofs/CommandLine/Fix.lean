import BslLint.Proofs.CommandLine.FileTree
import BslLint.Proofs.CommandLine.Run
import BslLint.Proofs.Diff.Patch
import Mathlib.Algebra.GroupWithZero.Nat

/-!
Fixing runs, and the dry runs that announce them. Both go over the same files and come to the same
results; a dry run shows what would change, and a run proper writes it. So both count the same, up
to the number of files: a run proper names those that it changes, and a dry run names all of them.
-/

namespace BslLint

/-- The lines of two texts can be numbered, with those around them that a diff shows. -/
def Diff.Numbered (old new : Text) : Prop :=
  defaultContext + max (Text.lines old).length (Text.lines new).length < offsetLimit

instance (old new : Text) : Decidable (Diff.Numbered old new) := inferInstanceAs (Decidable (_ < _))

/-- What the fix of a module comes to: nothing without suggestions. -/
def Session.Fixes (s : Session) (allowUnsafe : Bool) (f : Path × Module) (r : Option FixResult) :
    Prop :=
  fixModule s allowUnsafe f.1 f.2 = .ok r

/-- The run ends well, and its summary names the numbers of the tally. -/
def RunResult.Reports (result : RunResult) (dryRun : Bool) (t : FixTally) : Prop :=
  result.ending = .exit 0 ∧ ∃ shown, result.output = shown ++ t.summary dryRun t.modified

/-! ### Results -/

lemma exists_applySuggestions (source : Text) {ds : List Diagnostic} {allowUnsafe : Bool}
    (hlt : ∀ e ∈ eligibleEdits allowUnsafe (ds.filterMap Diagnostic.suggestion),
      e.stop < offsetLimit)
    (htouch : (eligibleEdits allowUnsafe (ds.filterMap Diagnostic.suggestion)).Pairwise
      fun d e => ¬d.Touches e) : ∃ r, applySuggestions source ds allowUnsafe = .ok r := by
  obtain ⟨sel, hsel, hsound, hsub⟩ := FixSelection.exists_of (ε := EditError) source hlt
  obtain ⟨fixed, -, hrun⟩ :=
    Edit.exists_spliced_inOrder (ε := EditError) hsound.lt hsound.compatible
  have happly : Edit.applyAll source sel.accepted = .ok fixed := by
    rw [Edit.applyAll_of_compatible hsound.lt hsound.compatible,
      Edit.fromLast_eq hsound.compatible.apart (htouch.sublist hsub), hrun]
  exact ⟨_, by rw [applySuggestions, hsel, Outcome.ok_bind, happly]; rfl⟩

lemma Session.exists_fixes {s : Session} (hrules : s.rules.Sublist defaultRules)
    (hbase : ∀ m ∈ s.base.modules, m.SpansFit) {f : Path × Module} (hm : f.2.SpansFit) :
    ∃ r, s.Fixes false f r := by
  let input : LintInput :=
    { module := f.2, settings := s.settings, project := s.project, base := some s.base }
  have hinput : ∀ b ∈ input.base, ∀ m ∈ b.modules, m.SpansFit := by simpa [input] using hbase
  obtain ⟨ds, hlint, hlt⟩ := exists_lintModule .never (fun r hr => hrules.subset hr) hm hinput
  have htouch := pairwise_not_touches (pairwise_precedes hrules hlint)
  -- The name of the file is added to the findings; their suggestions stay.
  obtain ⟨found, hfound, hsuggestions⟩ : ∃ found : List Diagnostic,
      (s.lint f.1 f.2 : Step (List Diagnostic)) = .ok found ∧
        found.filterMap Diagnostic.suggestion = ds.filterMap Diagnostic.suggestion :=
    ⟨_, by rw [lint, hlint]; rfl, by rw [List.filterMap_map]; rfl⟩
  rw [← hsuggestions] at hlt htouch
  obtain ⟨r, hr⟩ := exists_applySuggestions f.2.source (hlt false) htouch
  unfold Fixes fixModule
  rw [hfound, Outcome.ok_bind]
  split
  · exact ⟨none, rfl⟩
  · exact ⟨some r, by rw [hr]; rfl⟩

/-! ### Numbers -/

namespace FixTally

/-- The numbers after one more file, which may have no suggestions. -/
def addResult (dryRun : Bool) (t : FixTally) (r : Option FixResult) : FixTally :=
  r.elim t (t.add dryRun)

def isModified (r : Option FixResult) : Bool := r.any fun fix => fix.applied != 0

lemma foldl_addResult (dryRun : Bool) (t : FixTally) (results : List (Option FixResult)) :
    results.foldl (addResult dryRun) t =
      { applied := t.applied + (results.map (·.elim 0 FixResult.applied)).sum
        modified := t.modified + if dryRun then 0 else results.countP isModified
        skippedUnsafe := t.skippedUnsafe + (results.map (·.elim 0 FixResult.skippedUnsafe)).sum
        skippedOther := t.skippedOther + (results.map (·.elim 0 FixResult.skippedOther)).sum } := by
  induction results generalizing t with
  | nil => simp
  | cons r results ih =>
    rw [List.foldl_cons, ih]
    cases r with
    | none => simp [addResult, isModified]
    | some fix =>
      simp only [addResult, Option.elim_some, add, List.map_cons, List.sum_cons, List.countP_cons,
        isModified, Option.any_some, FixTally.mk.injEq]
      refine ⟨by omega, ?_, by omega, by omega⟩
      cases dryRun with
      | true => simp
      | false =>
        by_cases happlied : fix.applied = 0
        · simp [happlied]
        · simp [happlied, Nat.add_assoc, Nat.add_comm 1]

end FixTally

/-! ### Steps -/

lemma fileStep_eq_ok_iff {α : Type} {wrap : FileError → CommandError} {x : Except FileError α}
    {b : α} : fileStep wrap x = .ok b ↔ x = .ok b := by
  cases x <;> simp [fileStep]

lemma readModule_of_write {tree tree' : FileTree} {p q : Path} {content : Text} {m : Module}
    (hwrite : tree.write q content = .ok tree') (hapart : tree.Apart q p)
    (h : readModule tree p = .ok m) : readModule tree' p = .ok m := by
  obtain ⟨text, htext, h⟩ := Outcome.bind_eq_ok_iff.1 h
  rw [readModule, FileTree.read_of_write hwrite hapart (fileStep_eq_ok_iff.1 htext)]
  exact h

namespace FixRun

variable {run run' : FixRun} {s : Session} {a : LintArguments} {p : Path} {m : Module}

/-- The files hold the modules when their turn comes. -/
def Reads (run : FixRun) (s : Session) (a : LintArguments) : List (Path × Module) → Prop
  | [] => True
  | f :: files => readModule run.tree f.1 = .ok f.2 ∧
    ∀ run', run.fixFile s a f.1 = .ok run' → run'.Reads s a files

lemma deliver_cases (run : FixRun) (dryRun : Bool) (p : Path) {r : FixResult}
    (h : Diff.Numbered m.source r.source) :
    (∃ run', run.deliver dryRun p m r = .ok run') ∨
      (dryRun = false ∧ ∃ e, run.deliver dryRun p m r = .error (.unwritable p.fixedSource e)) := by
  unfold deliver
  split
  · exact Or.inl ⟨run, rfl⟩
  · cases dryRun with
    | true =>
      obtain ⟨text, -, hformat, -⟩ := Diff.exists_format (ε := CommandError) p.toString h
      exact Or.inl ⟨_, by rw [if_pos rfl, hformat]; rfl⟩
    | false =>
      cases hwrite : run.tree.write p.fixedSource r.source with
      | ok tree => exact Or.inl ⟨{ run with tree }, by simp [hwrite, fileStep]⟩
      | error e => exact Or.inr ⟨rfl, e, by simp [hwrite, fileStep]⟩

/-- **One file** is fixed and counted, unless its fixed text cannot be written. -/
lemma fixFile_cases {r : Option FixResult} (hread : readModule run.tree p = .ok m)
    (hfix : s.Fixes a.unsafeFixes (p, m) r)
    (hnumbered : ∀ fix ∈ r, Diff.Numbered m.source fix.source) :
    (∃ run', run.fixFile s a p = .ok run' ∧ run'.tally = run.tally.addResult a.diff r) ∨
      (a.diff = false ∧ ∃ e, run.fixFile s a p = .error (.unwritable p.fixedSource e)) := by
  have hfix : fixModule s a.unsafeFixes p m = .ok r := hfix
  rw [fixFile, hread, Outcome.ok_bind, hfix, Outcome.ok_bind]
  cases r with
  | none => exact Or.inl ⟨run, rfl, rfl⟩
  | some fix =>
    rcases deliver_cases run a.diff p (hnumbered fix rfl) with
      ⟨run', hdeliver⟩ | ⟨hdiff, e, hdeliver⟩
    · exact Or.inl ⟨{ run' with tally := run.tally.add a.diff fix }, by simp [hdeliver], rfl⟩
    · exact Or.inr ⟨hdiff, e, by simp [hdeliver]⟩

lemma exists_fixes_of_fixFile (hread : readModule run.tree p = .ok m)
    (h : run.fixFile s a p = .ok run') : ∃ r, s.Fixes a.unsafeFixes (p, m) r := by
  rw [fixFile, hread, Outcome.ok_bind] at h
  obtain ⟨r, hr, -⟩ := Outcome.bind_eq_ok_iff.1 h
  exact ⟨r, hr⟩

/-- A dry run writes nothing, and a run proper at most the fixed text of the file. -/
lemma tree_of_fixFile (h : run.fixFile s a p = .ok run') :
    run'.tree = run.tree ∨
      a.diff = false ∧ ∃ content, run.tree.write p.fixedSource content = .ok run'.tree := by
  obtain ⟨m, -, h⟩ := Outcome.bind_eq_ok_iff.1 h
  obtain ⟨r, -, h⟩ := Outcome.bind_eq_ok_iff.1 h
  cases r with
  | none =>
    cases h
    exact Or.inl rfl
  | some fix =>
    obtain ⟨delivered, hdeliver, h⟩ := Outcome.bind_eq_ok_iff.1 h
    cases h
    unfold deliver at hdeliver
    split at hdeliver
    · cases hdeliver
      exact Or.inl rfl
    · split at hdeliver
      · obtain ⟨diff, -, hdeliver⟩ := Outcome.bind_eq_ok_iff.1 hdeliver
        cases hdeliver
        exact Or.inl rfl
      · rename_i hdiff
        obtain ⟨tree, hwrite, hdeliver⟩ := Outcome.bind_eq_ok_iff.1 hdeliver
        cases hdeliver
        exact Or.inr ⟨by simpa using hdiff, fix.source, fileStep_eq_ok_iff.1 hwrite⟩

/-! ### Runs -/

variable {files : List (Path × Module)}

/-- **The files of a run** are fixed and counted one after the other, unless a fixed text cannot be
written. -/
lemma fixFiles_cases {results : List (Option FixResult)} (hreads : run.Reads s a files)
    (hresults : List.Forall₂ (s.Fixes a.unsafeFixes) files results)
    (hnumbered : ∀ f ∈ files, ∀ fix, s.Fixes a.unsafeFixes f (some fix) →
      Diff.Numbered f.2.source fix.source) :
    (∃ run', run.fixFiles s a (files.map Prod.fst) = (run', .ok ()) ∧
        run'.tally = results.foldl (FixTally.addResult a.diff) run.tally) ∨
      (a.diff = false ∧ ∃ f ∈ files, ∃ e,
        (run.fixFiles s a (files.map Prod.fst)).2 = .error (.unwritable f.1.fixedSource e)) := by
  induction hresults generalizing run with
  | nil => exact Or.inl ⟨run, rfl, rfl⟩
  | @cons f r files results hfix hresults ih =>
    obtain ⟨hread, hreads⟩ := hreads
    obtain ⟨hfirst, hrest⟩ := List.forall_mem_cons.1 hnumbered
    rw [List.map_cons, fixFiles, List.foldl_cons]
    rcases fixFile_cases hread hfix fun fix hr => hfirst fix (by rwa [← hr]) with
      ⟨run₁, hstep, htally⟩ | ⟨hdiff, e, hstep⟩
    · rw [hstep, ← htally]
      refine (ih (hreads run₁ hstep) hrest).imp_right ?_
      rintro ⟨hdiff, g, hg, e, herror⟩
      exact ⟨hdiff, g, List.mem_cons_of_mem f hg, e, herror⟩
    · rw [hstep]
      exact Or.inr ⟨hdiff, f, List.mem_cons_self, e, rfl⟩

lemma exists_fixes_of_fixFiles (hreads : run.Reads s a files)
    (h : (run.fixFiles s a (files.map Prod.fst)).2 = .ok ()) :
    ∃ results, List.Forall₂ (s.Fixes a.unsafeFixes) files results := by
  induction files generalizing run with
  | nil => exact ⟨[], .nil⟩
  | cons f files ih =>
    obtain ⟨hread, hreads⟩ := hreads
    rw [List.map_cons, fixFiles] at h
    split at h
    · rename_i run₁ hstep
      obtain ⟨r, hr⟩ := exists_fixes_of_fixFile hread hstep
      obtain ⟨results, hresults⟩ := ih (hreads run₁ hstep) h
      exact ⟨r :: results, .cons hr hresults⟩
    · cases h
    · cases h

/-- Files that hold modules at the start are read by a dry run, and by a run proper that writes no
fixed text in the place of a file that is still to come. -/
lemma reads_of_apart (hread : ∀ f ∈ files, readModule run.tree f.1 = .ok f.2)
    (hapart : a.diff = false →
      files.Pairwise fun f g => run.tree.Apart f.1.fixedSource g.1) : run.Reads s a files := by
  induction files generalizing run with
  | nil => trivial
  | cons f files ih =>
    obtain ⟨hfirst, hrest⟩ := List.forall_mem_cons.1 hread
    refine ⟨hfirst, fun run' hstep => ?_⟩
    rcases tree_of_fixFile hstep with htree | ⟨hdiff, content, hwrite⟩
    · refine ih (htree ▸ hrest) fun hdiff => ?_
      rw [htree]
      exact (List.pairwise_cons.1 (hapart hdiff)).2
    · obtain ⟨hbefore, hlater⟩ := List.pairwise_cons.1 (hapart hdiff)
      exact ih (fun g hg => readModule_of_write hwrite (hbefore g hg) (hrest g hg))
        fun _ => hlater.imp fun hfg => hfg.of_write hwrite

end FixRun

section

variable {tree : FileTree} {a : LintArguments} {s : Session} {paths : List Path}

lemma collect_of_files (hfiles : ∀ p ∈ paths, tree.isFile p = true)
    (hsorted : paths.Pairwise fun p q => p.le q = true) :
    collect tree paths = .ok (dropRepeated paths) := by
  have hfound : (Outcome.mapList (fun p => if tree.isFile p then return [p]
      else fileStep (.unwalkable p) (tree.snapshotsBelow p)) paths : Step (List (List Path))) =
      .ok (paths.map fun p => [p]) :=
    Outcome.mapList_of_forall fun p hp => if_pos (hfiles p hp)
  rw [collect, hfound, Outcome.ok_bind, ← List.flatMap_def, List.flatMap_singleton',
    List.mergeSort_of_pairwise hsorted]
  rfl

lemma runFix_prepared (hstart : Session.start tree a = .ok s)
    (hcollect : collect tree a.paths = .ok paths) (dryRun : Bool) :
    (do
      let session ← Session.start tree { a with diff := dryRun }
      return (session, ← collect tree a.paths) : Step (Session × List Path)) = .ok (s, paths) := by
  have hstart' : Session.start tree { a with diff := dryRun } = .ok s := hstart
  rw [hstart', Outcome.ok_bind, hcollect]
  rfl

lemma reports_runFix (hstart : Session.start tree a = .ok s)
    (hcollect : collect tree a.paths = .ok paths) {dryRun : Bool} {run : FixRun}
    (hfiles : FixRun.fixFiles { tree } s { a with diff := dryRun } paths = (run, .ok ())) :
    (runFix tree { a with diff := dryRun }).Reports dryRun
      { run.tally with modified := if dryRun then paths.length else run.tally.modified } := by
  have hresult : runFix tree { a with diff := dryRun } =
      { output := run.output ++ run.tally.summary dryRun paths.length
        ending := .exit 0, tree := run.tree } := by
    simp only [runFix, runFix_prepared hstart hcollect, hfiles]
  rw [hresult]
  exact ⟨rfl, run.output, by cases dryRun <;> rfl⟩

lemma ending_runFix (hstart : Session.start tree a = .ok s)
    (hcollect : collect tree a.paths = .ok paths) (dryRun : Bool) :
    (runFix tree { a with diff := dryRun }).ending = Ending.ofStep (do
      (FixRun.fixFiles { tree } s { a with diff := dryRun } paths).2
      return 0) := by
  simp only [runFix, runFix_prepared hstart hcollect]
  cases (FixRun.fixFiles { tree } s { a with diff := dryRun } paths).2 <;> rfl

end

/-- **A dry run announces what a run does, but for the number of files.** Take files whose modules
are read by both. Where the fix of each module has a result, the dry run ends with its summary, and
the run proper with its own, unless it meets a file that it cannot write. Both summaries name the
same number of fixes, and the same two numbers of suggestions that are left out. But the dry run
names the number of all files, and the run proper that of the files it changes; the two are the same
exactly if some fix is applied to each file. Where one of the fixes has no result, neither run ends
well. And safe fixes have results whenever the spans of the modules end at offsets. -/
theorem run_fix_numbers (tree : FileTree) (a : LintArguments) (s : Session)
    (files : List (Path × Module)) (hpaths : a.paths ≠ []) (hfix : a.fix = true)
    (hstart : Session.start tree a = .ok s)
    (hcollect : collect tree a.paths = .ok (files.map Prod.fst))
    (hreads : ∀ dryRun, FixRun.Reads { tree } s { a with diff := dryRun } files)
    (hnumbered : ∀ f ∈ files, ∀ fix, s.Fixes a.unsafeFixes f (some fix) →
      Diff.Numbered f.2.source fix.source) :
    (∀ results, List.Forall₂ (s.Fixes a.unsafeFixes) files results →
      ∃ planned taken : FixTally,
        (Command.run tree (.lint { a with diff := true })).Reports true planned ∧
        ((Command.run tree (.lint { a with diff := false })).Reports false taken ∨
          ∃ f ∈ files, ∃ e, (Command.run tree (.lint { a with diff := false })).ending =
            .failure (.unwritable f.1.fixedSource e)) ∧
        planned.applied = taken.applied ∧ planned.skippedUnsafe = taken.skippedUnsafe ∧
        planned.skippedOther = taken.skippedOther ∧
        planned.modified = files.length ∧ taken.modified = results.countP FixTally.isModified ∧
        (planned.modified = taken.modified ↔ ∀ r ∈ results, FixTally.isModified r)) ∧
    (∀ dryRun code, (Command.run tree (.lint { a with diff := dryRun })).ending = .exit code →
      ∃ results, List.Forall₂ (s.Fixes a.unsafeFixes) files results) ∧
    (a.unsafeFixes = false → (∀ f ∈ files, f.2.SpansFit) → (∀ m ∈ s.base.modules, m.SpansFit) →
      ∃ results, List.Forall₂ (s.Fixes a.unsafeFixes) files results) := by
  have hrun (dryRun : Bool) : Command.run tree (.lint { a with diff := dryRun }) =
      runFix tree { a with diff := dryRun } := by
    simp [Command.run, hpaths, hfix]
  simp only [hrun]
  refine ⟨fun results hresults => ?_, fun dryRun code hexit => ?_, fun hsafe hfit hbase => ?_⟩
  · refine ⟨{ results.foldl (FixTally.addResult true) {} with modified := files.length },
      results.foldl (FixTally.addResult false) {}, ?planned, ?taken, ?_⟩
    case planned =>
      rcases FixRun.fixFiles_cases (hreads true) hresults hnumbered with
        ⟨run, hfiles, htally⟩ | ⟨hdiff, -⟩
      · have hreports := reports_runFix hstart hcollect hfiles
        rwa [htally, if_pos rfl, List.length_map] at hreports
      · cases hdiff
    case taken =>
      rcases FixRun.fixFiles_cases (hreads false) hresults hnumbered with
        ⟨run, hfiles, htally⟩ | ⟨-, f, hf, e, herror⟩
      · have hreports := reports_runFix hstart hcollect hfiles
        rw [htally] at hreports
        exact Or.inl hreports
      · refine Or.inr ⟨f, hf, e, ?_⟩
        rw [ending_runFix hstart hcollect, herror]
        rfl
    simp only [FixTally.foldl_addResult, Nat.zero_add, Bool.false_eq_true, if_false, true_and]
    rw [hresults.length_eq, eq_comm, List.countP_eq_length]
  · rw [ending_runFix hstart hcollect] at hexit
    have hend : (FixRun.fixFiles { tree } s { a with diff := dryRun } (files.map Prod.fst)).2 =
        .ok () := by
      cases hfiles : (FixRun.fixFiles { tree } s { a with diff := dryRun }
        (files.map Prod.fst)).2 with
      | ok u => rfl
      | error e => simp [hfiles, Ending.ofStep] at hexit
      | abort c => simp [hfiles, Ending.ofStep] at hexit
    exact FixRun.exists_fixes_of_fixFiles (a := { a with diff := dryRun }) (hreads dryRun) hend
  · have hfixes : ∀ f ∈ files, ∃ r, s.Fixes a.unsafeFixes f r := fun f hf =>
      hsafe ▸ Session.exists_fixes (Session.rules_sublist_of_start hstart) hbase (hfit f hf)
    choose! result hresult using hfixes
    exact ⟨files.map result, List.forall₂_map_right_iff.2 (List.forall₂_same.2 hresult)⟩

/-- Two methods with one comment, whose link is fixed once, and a module with nothing to fix: the
numbers of fixes and of suggestions left out are the same, and the numbers of files are not. -/
theorem run_fix_numbers_unchanged_file :
    let method : Text := "\x7b\"item\": \"method\", ".toList ++ "\"name\": \"А\", ".toList ++
      "\"kind\": \"procedure\", ".toList ++ "\"doc_comment\": [0, 9]\x7d".toList
    let p : Path := Path.ofString "a.json"
    let q : Path := Path.ofString "b.json"
    let tree : FileTree := { entries := [
      (["a.json".toList],
        .text ("[\"А\", \"//См.Б\", [], [".toList ++ method ++ [','] ++ method ++ "]]".toList)),
      (["b.json".toList], .text "[\"Б\", \"\"]".toList)] }
    let a : LintArguments := { paths := [p, q], fix := true }
    ∃ s m n, Session.start tree a = .ok s ∧ collect tree a.paths = .ok [p, q] ∧
      (∀ dryRun, FixRun.Reads { tree } s { a with diff := dryRun } [(p, m), (q, n)]) ∧
      ∃ planned taken : FixTally,
        (Command.run tree (.lint { a with diff := true })).Reports true planned ∧
        (Command.run tree (.lint { a with diff := false })).Reports false taken ∧
        planned.applied = taken.applied ∧ planned.skippedUnsafe = taken.skippedUnsafe ∧
        planned.skippedOther = taken.skippedOther ∧ planned.modified = 2 ∧ taken.modified = 1 := by
  intro method p q tree a
  obtain ⟨s, hstart⟩ : (Session.start tree a).Succeeds := by decide +kernel
  obtain ⟨m, hm⟩ : (readModule tree p).Succeeds := by decide +kernel
  obtain ⟨n, hn⟩ : (readModule tree q).Succeeds := by decide +kernel
  have hcollect : collect tree a.paths = .ok [p, q] :=
    collect_of_files (by decide +kernel) (by decide +kernel)
  have hapart : tree.Apart p.fixedSource q := by
    have hp : tree.place p.fixedSource = .ok ["a.bsl".toList] := by decide +kernel
    have hq : tree.place q = .ok ["b.json".toList] := by decide +kernel
    intro place hplace
    rw [hp] at hplace
    cases hplace
    rw [hq]
    decide
  have hreads (dryRun : Bool) :
      FixRun.Reads { tree } s { a with diff := dryRun } [(p, m), (q, n)] :=
    FixRun.reads_of_apart (by simp [hm, hn]) fun _ => by simpa using hapart
  let fix : FixResult := ⟨"//См. Б".toList, 1, 0, 1⟩
  have hcomputed : (match Session.start tree a, readModule tree p, readModule tree q with
      | .ok s, .ok m, .ok n => decide (fixModule s false p m = .ok (some fix) ∧
          fixModule s false q n = .ok none ∧ Diff.Numbered m.source fix.source ∧
          (FixRun.fixFiles { tree } s { a with diff := false } [p, q]).2 = .ok ())
      | _, _, _ => false) = true := by decide +kernel
  rw [hstart, hm, hn, decide_eq_true_eq] at hcomputed
  obtain ⟨hfixed, hclean, hlines, hend⟩ := hcomputed
  have hnumbered : ∀ f ∈ [(p, m), (q, n)], ∀ fix, s.Fixes a.unsafeFixes f (some fix) →
      Diff.Numbered f.2.source fix.source := by
    simp only [List.forall_mem_cons, List.not_mem_nil, false_imp_iff, implies_true, and_true]
    refine ⟨fun fix' hfix' => ?_, fun fix' hfix' => ?_⟩
    · cases hfixed.symm.trans hfix'
      exact hlines
    · cases hclean.symm.trans hfix'
  obtain ⟨hnumbers, -⟩ := run_fix_numbers tree a s [(p, m), (q, n)] (by simp [a]) rfl hstart
    hcollect hreads hnumbered
  obtain ⟨planned, taken, hplanned, htaken, happlied, hunsafe, hother, hall, hsome, -⟩ :=
    hnumbers [some fix, none] (.cons hfixed (.cons hclean .nil))
  have hends : (Command.run tree (.lint { a with diff := false })).ending = .exit 0 := by
    have hrun := ending_runFix hstart hcollect false
    rwa [hend] at hrun
  refine ⟨s, m, n, hstart, hcollect, hreads, planned, taken, hplanned, ?_, happlied, hunsafe,
    hother, hall, hsome⟩
  refine htaken.resolve_right ?_
  rintro ⟨f, -, e, hfailed⟩
  rw [hends] at hfailed
  cases hfailed

/-- **A dry run names files that a run proper leaves alone**, as a module with nothing to fix. -/
theorem run_fix_numbers_differ :
    let tree : FileTree := { entries := [(["m.json".toList], .text "[\"М\", \"\"]".toList)] }
    let a : LintArguments := { paths := [Path.ofString "m.json"], fix := true }
    (Command.run tree (.lint { a with diff := true })).output =
        "\n0 fix(es) would be applied to 1 file(s)\n" ∧
      (Command.run tree (.lint { a with diff := false })).output =
        "Applied 0 fix(es) to 0 file(s)\n" := by
  decide +kernel

end BslLint
