import BslLint.Proofs.Lint.LinkSpacing.Pieces

/-!
What is found in a fixed comment.

A keyword in the fixed comment is made of characters that stand side by side in the comment already,
for in all other places there now is white space. What follows it is as before, or it is white space
and nothing is wrong with it. So a keyword that is found in the fixed comment was there, and what
kept it from being reported is that it stood directly behind a letter: it continued the word `See`,
and the pass put a space in between (`Reopened`).
-/

namespace BslLint.LinkSpacing

open Text

lemma Mending.not_isBlank {k : Keyword} {run new kept rest t : Text} {c : Char}
    (h : Mending k run new kept rest) (ht : run ++ kept ++ rest = c :: t) : isBlank c = false := by
  have hseparator : ∀ d, isSeparator d = true → isBlank d = false := by
    intro d hd
    simp only [isSeparator, Bool.or_eq_true, beq_iff_eq] at hd
    rcases hd with rfl | rfl <;> decide +kernel
  cases h with
  | attached start =>
    obtain ⟨rfl, -⟩ := List.cons.inj ht
    simpa using not_isBlank_of_isIdentifier start
  | doubled nonempty separators =>
    obtain ⟨d, run, rfl⟩ := List.exists_cons_of_ne_nil nonempty
    obtain ⟨rfl, -⟩ := List.cons.inj ht
    exact hseparator d (separators d (by simp))
  | separated nonempty separators =>
    obtain ⟨d, run, rfl⟩ := List.exists_cons_of_ne_nil nonempty
    obtain ⟨rfl, -⟩ := List.cons.inj ht
    exact hseparator d (separators d (by simp))

namespace Cut

variable {before : Option Char} {ps : List Piece}

/-! ### From the fixed comment back to the comment -/

lemma exists_source_cons (h : Cut before ps) {c : Char} {t : Text} (ht : result ps = c :: t) :
    ∃ t', source ps = c :: t' := by
  cases h with
  | nil => cases ht
  | plain silent rest =>
    obtain ⟨rfl, -⟩ := List.cons.inj ht
    exact ⟨_, rfl⟩
  | mended apart spells mending rest =>
    obtain ⟨d, m, rfl, -⟩ := spells.exists_cons
    obtain ⟨rfl, -⟩ := List.cons.inj ht
    exact ⟨_, rfl⟩

lemma exists_rest_of_silent (h : Cut before ps) {u t : Text} (hu : Silent before u)
    (ht : result ps = u ++ t) :
    ∃ ps', source ps = u ++ source ps' ∧ result ps' = t ∧ Cut (u.getLast?.or before) ps' := by
  induction u generalizing before ps with
  | nil => exact ⟨ps, rfl, ht, h⟩
  | cons c u ih =>
    obtain ⟨hc, hu⟩ := hu
    cases h with
    | nil => cases ht
    | plain silent rest =>
      obtain ⟨rfl, hrest⟩ := List.cons.inj ht
      obtain ⟨ps', hsource, hresult, hcut⟩ := ih rest hu hrest
      refine ⟨ps', congrArg (_ :: ·) hsource, hresult, ?_⟩
      rwa [getLast?_cons_or]
    | mended apart spells mending rest =>
      obtain ⟨d, m, rfl, hd⟩ := spells.exists_cons
      obtain ⟨rfl, -⟩ := List.cons.inj ht
      simp [apart, hd] at hc

lemma mem_link_of_mem_link (h : Cut before ps) {c : Char}
    (hc : c ∈ (result ps).takeWhile fun c => !isBlank c) :
    c ∈ (source ps).takeWhile fun c => !isBlank c := by
  induction h with
  | nil => exact hc
  | @plain before d ps silent rest ih =>
    simp only [source_cons, result_cons, Piece.source, Piece.result, List.singleton_append,
      List.takeWhile_cons] at *
    split at hc
    case isTrue hd =>
      rw [if_pos hd]
      exact (List.mem_cons.1 hc).elim (fun heq => by simp [heq]) fun hmem =>
        List.mem_cons_of_mem d (ih hmem)
    case isFalse => cases hc
  | @mended before k m run new kept ps apart spells mending rest ih =>
    have hm : ∀ d ∈ m, (!isBlank d) = true := fun d hd => by simp [spells.not_isBlank d hd]
    obtain ⟨d, hnew, hblank⟩ := mending.exists_blank
    have hresult : result (.mended k m run new kept :: ps) = m ++ d :: result ps := by
      rw [result_cons, Piece.result, List.append_assoc m, hnew, List.append_assoc]
      rfl
    rw [hresult, List.takeWhile_append_of_pos hm, List.takeWhile_cons,
      (isBlank_of_space_or_tab hblank).1] at hc
    rw [source_cons, Piece.source, List.append_assoc, List.append_assoc,
      List.takeWhile_append_of_pos hm]
    exact List.mem_append_left _ (by simpa using hc)

lemma exists_mending (h : Cut before ps) {k : Keyword} {run new kept rest : Text}
    (hmending : Mending k run new kept rest) (ht : result ps = run ++ kept ++ rest) :
    ∃ rest', source ps = run ++ kept ++ rest' ∧ Mending k run new kept rest' := by
  have hsilent : Silent before (run ++ kept) := silent_of_forall hmending.not_isAlphabetic
  obtain ⟨ps', hsource, hresult, hcut⟩ := h.exists_rest_of_silent hsilent ht
  refine ⟨source ps', hsource, ?_⟩
  cases hmending with
  | attached start plain qualified =>
    obtain ⟨t', ht'⟩ := hcut.exists_source_cons hresult
    have hlink := fun hk => hcut.mem_link_of_mem_link (hresult ▸ qualified hk)
    rw [ht'] at hlink ⊢
    exact .attached start plain hlink
  | doubled nonempty separators blank => exact .doubled nonempty separators blank _
  | separated nonempty separators start plain =>
    obtain ⟨t', ht'⟩ := hcut.exists_source_cons hresult
    rw [ht']
    exact .separated nonempty separators start plain

lemma reported_of_result {c : Char} (h : Cut (some c) ps) {before' : Option Char}
    (hreported : Reported before' (c :: result ps)) (hbefore : before.any isAlphabetic = false) :
    Reported before (c :: source ps) := by
  obtain ⟨-, k, m, run, new, kept, rest, ht, hm, hmending⟩ := hreported
  obtain ⟨d, m, rfl, -⟩ := hm.exists_cons
  obtain ⟨rfl, hrest⟩ := List.cons.inj ht
  have hsilent : Silent (some c) m := by simpa using hm.silent (u := []) (by simp)
  obtain ⟨ps', hsource, hresult, hcut⟩ := h.exists_rest_of_silent hsilent hrest
  obtain ⟨rest', hrest', hmending'⟩ := hcut.exists_mending hmending hresult
  exact ⟨hbefore, k, c :: m, run, new, kept, rest', by rw [hsource, hrest']; rfl, hm, hmending'⟩

/-! ### What is found behind a mended keyword -/

lemma issuesFrom_mended {k : Keyword} {m run new kept rest : Text} (hm : k.Spells m)
    (hmending : Mending k run new kept rest) {c : Char} (hc : new ++ kept = [c])
    (before : Option Char) (pos : Nat) (t : Text) :
    issuesFrom before pos (m ++ new ++ kept ++ t) =
      issuesFrom (some c) (pos + byteLength (m ++ new ++ kept)) t := by
  obtain ⟨d, hd, hblank⟩ := hmending.exists_blank
  obtain rfl : d = c := by simpa using hd.symm.trans hc
  have hnone : ¬Reported before (m ++ d :: t) := by
    rintro ⟨-, k', m', run', new', kept', rest', ht, hm', hmending'⟩
    obtain ⟨-, -, hrest⟩ := hm.unique hm' ht
    have hnot := hmending'.not_isBlank hrest.symm
    rw [(isBlank_of_space_or_tab hblank).1] at hnot
    cases hnot
  have hassoc : m ++ new ++ kept ++ t = m ++ d :: t := by
    rw [List.append_assoc m, hc, List.append_assoc]
    rfl
  have hlength : byteLength (m ++ new ++ kept) = byteLength (m ++ [d]) := by
    rw [List.append_assoc, hc]
  rw [hassoc, hlength]
  obtain ⟨x, m, rfl, -⟩ := hm.exists_cons
  have hsilent : Silent (some x) (m ++ [d]) :=
    hm.silent (by simpa using (isBlank_of_space_or_tab hblank).2.2.2)
  have hsplit : x :: m ++ d :: t = x :: (m ++ [d] ++ t) := by simp
  have hnone' : issueAt before pos (x :: (m ++ [d] ++ t)) = none :=
    issueAt_eq_none_iff.2 (hsplit ▸ hnone)
  rw [hsplit, issuesFrom, hnone', issuesFrom_append hsilent, List.getLast?_concat,
    List.cons_append, byteLength_cons, Nat.add_assoc]
  rfl

/-- The one mending behind which a letter stands in the comment is that of an ordinary word with the
link attached. -/
lemma attached_of_isAlphabetic {k : Keyword} {m run new kept rest : Text} (hm : k.Spells m)
    (hmending : Mending k run new kept rest)
    (h : (m ++ run ++ kept).getLast?.any isAlphabetic = true) :
    k.isOrdinary = true ∧ run = [] ∧ new = [' '] ∧ kept = [] := by
  have hall := hmending.not_isAlphabetic
  obtain hnil | ⟨init, c, hc⟩ := List.eq_nil_or_concat (run ++ kept)
  · obtain ⟨init, last, rfl, -, -, hlast, -⟩ := hm.parts
    obtain ⟨rfl, rfl⟩ := List.append_eq_nil_iff.1 hnil
    cases hmending with
    | attached =>
      simp only [List.append_nil, List.getLast?_concat, Option.any_some] at h
      exact ⟨hlast ▸ h, rfl, rfl, rfl⟩
    | separated nonempty => exact absurd rfl nonempty
  · rw [List.append_assoc, hc, List.concat_eq_append, ← List.append_assoc, List.getLast?_concat,
      Option.any_some, hall c (by simp [hc])] at h
    cases h

/-- **What is found in the fixed text** stands directly behind a space that was put in behind an
ordinary word, unless it is at the front and not behind a letter any more. -/
lemma exists_of_mem_issuesFrom_result (h : Cut before ps) {before' : Option Char} {pos : Nat}
    {j : Issue} (hj : j ∈ issuesFrom before' pos (result ps)) :
    (before.any isAlphabetic = true ∧ issueAt before' pos (result ps) = some j) ∨
      ∃ ps₁ k m ps₂, ps = ps₁ ++ .mended k m [] [' '] [] :: ps₂ ∧ k.isOrdinary = true ∧
        issueAt (some ' ') (pos + byteLength (result ps₁ ++ m ++ [' '])) (result ps₂) = some j := by
  induction h generalizing before' pos with
  | nil => cases hj
  | @plain before c ps silent rest ih =>
    have hresult : result (.plain c :: ps) = c :: result ps := rfl
    rw [hresult, issuesFrom, List.mem_append, Option.mem_toList] at hj
    rcases hj with hj | hj
    · refine Or.inl ⟨?_, hj⟩
      by_contra hbefore
      have hreported : Reported before' (c :: result ps) := by
        by_contra hnot
        rw [issueAt_eq_none_iff.2 hnot] at hj
        cases hj
      exact silent (rest.reported_of_result hreported (by simpa using hbefore))
    · rcases ih hj with ⟨hletter, hissue⟩ | ⟨ps₁, k, m, ps₂, rfl, hk, hissue⟩
      · rw [(exists_spells_of_issueAt hissue).1] at hletter
        cases hletter
      · refine Or.inr ⟨.plain c :: ps₁, k, m, ps₂, rfl, hk, ?_⟩
        simpa [Piece.result, Nat.add_assoc] using hissue
  | @mended before k m run new kept ps apart spells mending rest ih =>
    obtain ⟨c, hc, hblank⟩ := mending.exists_blank
    rw [result_cons, Piece.result, issuesFrom_mended spells mending hc] at hj
    rcases ih hj with ⟨hletter, hissue⟩ | ⟨ps₁, k', m', ps₂, rfl, hk, hissue⟩
    · obtain ⟨hk, rfl, rfl, rfl⟩ := attached_of_isAlphabetic spells mending hletter
      obtain rfl : ' ' = c := by simpa using hc
      exact Or.inr ⟨[], k, m, ps, rfl, hk, by simpa [result] using hissue⟩
    · refine Or.inr ⟨.mended k m run new kept :: ps₁, k', m', ps₂, rfl, hk, ?_⟩
      simpa [Piece.result, Nat.add_assoc] using hissue

lemma edits_eq_nil_of_result_eq (h : Cut before ps) (heq : result ps = source ps) (pos : Nat) :
    edits pos ps = [] := by
  induction h generalizing pos with
  | nil => rfl
  | plain silent rest ih => exact ih (List.cons.inj heq).2 _
  | @mended before k m run new kept ps apart spells mending rest ih =>
    obtain ⟨c, hc, hblank⟩ := mending.exists_blank
    have htail : run ++ kept ++ source ps = c :: result ps := by
      simp only [source_cons, result_cons, Piece.source, Piece.result, List.append_assoc,
        List.append_cancel_left_eq] at heq
      rw [List.append_assoc, ← heq, ← List.append_assoc, hc]
      rfl
    have hnot := mending.not_isBlank htail
    rw [(isBlank_of_space_or_tab hblank).1] at hnot
    cases hnot

end Cut

/-! ### The second pass -/

/-- An issue of the fixed comment that the pass has brought about. A link was attached to an
ordinary word and got a space in front. The link begins with a keyword, which was no keyword before,
directly behind the letters of the word, and is one now, and it is badly separated in turn. -/
def Reopened (comment fixed : Text) (j : Issue) : Prop :=
  ∃ k front m link front' link', Occurs comment k front m link ∧ k.isOrdinary = true ∧
    Edit.insert (byteLength (front ++ m)) [' '] ∈ fixes comment ∧
    (∃ k' : Keyword, ∃ m' rest, link = m' ++ rest ∧ k'.Spells m') ∧
    fixed = front' ++ m ++ [' '] ++ link' ∧
    byteLength front' = Edit.shift (fixes comment) (byteLength front) ∧
    issueAt (some ' ') (byteLength (front' ++ m ++ [' '])) link' = some j

lemma mem_issues_of_issueAt {front rest : Text} {j : Issue}
    (h : issueAt front.getLast? (byteLength front) rest = some j) : j ∈ issues (front ++ rest) := by
  refine mem_issuesFrom_append ?_ (by simpa using h)
  rintro rfl
  obtain ⟨-, k, m, tail, ht, hm, -⟩ := exists_spells_of_issueAt h
  obtain ⟨c, m, rfl, -⟩ := hm.exists_cons
  cases ht

lemma applyAll_fixes_eq_self_iff {comment : Text} :
    Edit.applyAll comment (fixes comment) = .ok comment ↔ issues comment = [] := by
  constructor
  · intro h
    obtain ⟨⟨⟩, hvalid, -⟩ := Outcome.bind_eq_ok_iff.1 h
    obtain ⟨ps, hcut, rfl, hfixes, happly⟩ := exists_fixed (Edit.validateAll_eq_ok_iff.1 hvalid).1
    have hresult : result ps = source ps := Outcome.ok.inj (happly.symm.trans h)
    rw [hcut.edits_eq_nil_of_result_eq hresult] at hfixes
    exact List.map_eq_nil_iff.1 hfixes
  · intro h
    rw [fixes, h, List.map_nil]
    exact Edit.applyAll_of_spliced (by simp) (by simp) .nil (.nil 0 comment)

/-- A keyword that is found behind a space that was put in was there before. -/
lemma Cut.reopened {k : Keyword} {m : Text} {ps₁ ps₂ : List Piece} {j : Issue}
    (h : Cut none (ps₁ ++ .mended k m [] [' '] [] :: ps₂)) (hk : k.isOrdinary = true)
    (hj : issueAt (some ' ') (byteLength (result ps₁ ++ m ++ [' '])) (result ps₂) = some j) :
    Reopened (source (ps₁ ++ .mended k m [] [' '] [] :: ps₂))
      (result (ps₁ ++ .mended k m [] [' '] [] :: ps₂)) j := by
  have hfixes := h.map_edit_issuesFrom 0
  refine ⟨k, source ps₁, m, source ps₂, result ps₁, result ps₂, h.occurs, hk, ?_, ?_, ?_, ?_, hj⟩
  · rw [fixes, issues, hfixes, edits_append]
    simp [edits, Piece.edits, Edit.insert]
  · obtain ⟨-, k', m', tail, htail, hm', -⟩ := exists_spells_of_issueAt hj
    cases h.append with
    | mended apart spells mending rest =>
      obtain ⟨init, last, rfl, -, -, hlast, -⟩ := spells.parts
      obtain ⟨c, m', rfl, -⟩ := hm'.exists_cons
      have hsilent : Silent (init ++ [last] ++ [] ++ []).getLast? (c :: m') :=
        ⟨Or.inl (by simp [hlast, hk]), by simpa using hm'.silent (u := []) (by simp)⟩
      obtain ⟨ps', hsource, -, -⟩ := rest.exists_rest_of_silent hsilent htail
      exact ⟨k', c :: m', source ps', hsource, hm'⟩
  · simp [result_append, Piece.result]
  · rw [fixes, issues, hfixes, h.byteLength_front]

/-- **What a second pass finds.** The edits of a comment are carried out, and what is found in the
fixed comment are the keywords that were uncovered by a space put in behind an ordinary word, and
nothing else. Fixing the fixed comment gives the same text again exactly if there are none. -/
theorem mem_issues_fixed_iff {comment : Text} (hlt : byteLength comment < offsetLimit) :
    ∃ fixed, Edit.applyAll comment (fixes comment) = .ok fixed ∧
      (∀ j, j ∈ issues fixed ↔ Reopened comment fixed j) ∧
      (Edit.applyAll fixed (fixes fixed) = .ok fixed ↔ ∀ j, ¬Reopened comment fixed j) := by
  obtain ⟨ps, hcut, rfl, -, happly⟩ := exists_fixed (stop_lt_of_mem_fixes hlt)
  have hiff : ∀ j, j ∈ issues (result ps) ↔ Reopened (source ps) (result ps) j := by
    intro j
    constructor
    · intro hj
      obtain ⟨hletter, -⟩ | ⟨ps₁, k, m, ps₂, rfl, hk, hissue⟩ :=
        hcut.exists_of_mem_issuesFrom_result hj
      · cases hletter
      · exact hcut.reopened hk (by simpa using hissue)
    · rintro ⟨k, front, m, link, front', link', -, -, -, -, hfixed, -, hissue⟩
      rw [hfixed]
      exact mem_issues_of_issueAt (by simpa using hissue)
  refine ⟨result ps, happly, hiff, ?_⟩
  rw [applyAll_fixes_eq_self_iff, List.eq_nil_iff_forall_not_mem]
  exact forall_congr' fun j => not_congr (hiff j)

/-- One keyword is attached to the word `See` and comes to light by the pass, and another one is
attached to a keyword that ends with a point and is mended together with it. -/
theorem mem_issues_fixed_iff_uncovered :
    byteLength "SeeСм.А.Б См.SeeВ.Г".toList < offsetLimit ∧
      Edit.applyAll "SeeСм.А.Б См.SeeВ.Г".toList (fixes "SeeСм.А.Б См.SeeВ.Г".toList) =
        .ok "See См.А.Б См. See В.Г".toList ∧
      Reopened "SeeСм.А.Б См.SeeВ.Г".toList "See См.А.Б См. See В.Г".toList
        ⟨8, 3, Edit.insert 9 [' ']⟩ := by
  have hlt : byteLength "SeeСм.А.Б См.SeeВ.Г".toList < offsetLimit := by decide +kernel
  obtain ⟨fixed, happly, hiff, -⟩ := mem_issues_fixed_iff hlt
  have hrun : Edit.applyAll "SeeСм.А.Б См.SeeВ.Г".toList (fixes "SeeСм.А.Б См.SeeВ.Г".toList) =
      .ok "See См.А.Б См. See В.Г".toList := by
    rw [Edit.applyAll, Edit.Listed.fromLast_eq (by decide +kernel)]
    decide +kernel
  obtain rfl := Outcome.ok.inj (happly.symm.trans hrun)
  exact ⟨hlt, hrun, (hiff _).1 (by decide +kernel)⟩

/-- The fixed comment is not clean, and another pass changes it again. -/
theorem issues_fixed_not_empty :
    Edit.applyAll "SeeSeeM.X".toList (fixes "SeeSeeM.X".toList) = .ok "See SeeM.X".toList ∧
      issues "See SeeM.X".toList = [⟨6, 2, Edit.insert 7 [' ']⟩] ∧
      Edit.applyAll "See SeeM.X".toList (fixes "See SeeM.X".toList) = .ok "See See M.X".toList := by
  decide +kernel

end BslLint.LinkSpacing
