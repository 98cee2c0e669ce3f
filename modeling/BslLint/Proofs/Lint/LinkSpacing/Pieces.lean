import BslLint.Proofs.Edit.Shift
import BslLint.Proofs.Lint.LinkSpacing.Keyword

/-!
The edits of a comment are carried out together.

A comment is taken apart into pieces: characters that stay, and badly separated keywords together
with what is replaced behind them (`Cut`). The edits, the fixed comment and the places of both are
read off the pieces. The pieces are cut by the run over the comment itself: within the piece of a
keyword no other one begins.
-/

namespace BslLint.LinkSpacing

open Text

/-- The edits that mend a comment. -/
def fixes (comment : Text) : List Edit := (issues comment).map Issue.edit

/-- A keyword stands in the comment, apart from what is before it. -/
structure Occurs (comment : Text) (k : Keyword) (front m rest : Text) : Prop where
  split : comment = front ++ m ++ rest
  spells : k.Spells m
  apart : front.getLast?.any isAlphabetic = false

/-- What a comment says, apart from how keywords are separated from links. -/
def isContent (c : Char) : Bool := c != ' ' && !isSeparator c

lemma Mending.not_isContent {k : Keyword} {run new kept rest : Text}
    (h : Mending k run new kept rest) :
    (∀ c ∈ run, ¬isContent c = true) ∧ ∀ c ∈ new, ¬isContent c = true := by
  cases h with
  | attached => simp [isContent]
  | doubled _ separators => simpa [isContent] using fun c hc _ => separators c hc
  | separated _ separators =>
    exact ⟨fun c hc => by simp [isContent, separators c hc], by simp [isContent]⟩

/-! ### Pieces -/

/-- A piece of a comment: a character that stays, or a keyword as it is spelled, the run behind it,
what takes its place, and the white space that is kept behind the run. -/
inductive Piece where
  | plain (c : Char)
  | mended (k : Keyword) (m run new kept : Text)

namespace Piece

def source : Piece → Text
  | plain c => [c]
  | mended _ m run _ kept => m ++ run ++ kept

def result : Piece → Text
  | plain c => [c]
  | mended _ m _ new kept => m ++ new ++ kept

def edits (pos : Nat) : Piece → List Edit
  | plain _ => []
  | mended _ m run new _ => [⟨pos + byteLength m, byteLength run, new⟩]

end Piece

def source (ps : List Piece) : Text := ps.flatMap Piece.source

def result (ps : List Piece) : Text := ps.flatMap Piece.result

def edits : Nat → List Piece → List Edit
  | _, [] => []
  | pos, p :: ps => p.edits pos ++ edits (pos + byteLength p.source) ps

@[simp] lemma source_cons (p : Piece) (ps : List Piece) :
    source (p :: ps) = p.source ++ source ps := rfl

@[simp] lemma result_cons (p : Piece) (ps : List Piece) :
    result (p :: ps) = p.result ++ result ps := rfl

lemma source_append (ps qs : List Piece) : source (ps ++ qs) = source ps ++ source qs :=
  List.flatMap_append

lemma result_append (ps qs : List Piece) : result (ps ++ qs) = result ps ++ result qs :=
  List.flatMap_append

lemma edits_append (pos : Nat) (ps qs : List Piece) :
    edits pos (ps ++ qs) = edits pos ps ++ edits (pos + byteLength (source ps)) qs := by
  induction ps generalizing pos with
  | nil => rfl
  | cons p ps ih => simp [edits, ih, Nat.add_assoc]

/-- The text behind the given character is cut into pieces: a character stays if no keyword is
reported at it, and a keyword that is reported is mended. -/
inductive Cut : Option Char → List Piece → Prop
  | nil (before : Option Char) : Cut before []
  | plain {before : Option Char} {c : Char} {ps : List Piece}
      (silent : ¬Reported before (c :: source ps)) (rest : Cut (some c) ps) :
      Cut before (.plain c :: ps)
  | mended {before : Option Char} {k : Keyword} {m run new kept : Text} {ps : List Piece}
      (apart : before.any isAlphabetic = false) (spells : k.Spells m)
      (mending : Mending k run new kept (source ps)) (rest : Cut (m ++ run ++ kept).getLast? ps) :
      Cut before (.mended k m run new kept :: ps)

lemma exists_cut (before : Option Char) (t : Text) : ∃ ps, Cut before ps ∧ source ps = t := by
  -- The piece of a keyword is taken in one step, so the induction is on the length.
  induction hlen : t.length using Nat.strongRecOn generalizing before t with
  | ind n ih =>
    cases t with
    | nil => exact ⟨[], .nil before, rfl⟩
    | cons c t =>
      by_cases hreported : Reported before (c :: t)
      · obtain ⟨hbefore, k, m, run, new, kept, rest, ht, hm, hmending⟩ := hreported
        obtain ⟨d, m', rfl, -⟩ := hm.exists_cons
        have hless : rest.length < n := by
          rw [← hlen, ht]
          simp only [List.length_append, List.length_cons]
          omega
        obtain ⟨ps, hps, rfl⟩ := ih rest.length hless (d :: m' ++ run ++ kept).getLast? rest rfl
        exact ⟨_, .mended hbefore hm hmending hps, by simp [ht, Piece.source]⟩
      · obtain ⟨ps, hps, rfl⟩ := ih t.length (by simp [← hlen]) (some c) t rfl
        exact ⟨_, .plain hreported hps, rfl⟩

namespace Cut

variable {before : Option Char} {ps qs : List Piece}

lemma append (h : Cut before (ps ++ qs)) : Cut ((source ps).getLast?.or before) qs := by
  induction ps generalizing before with
  | nil => exact h
  | cons p ps ih =>
    have hlast : (source (p :: ps)).getLast?.or before =
        (source ps).getLast?.or (p.source.getLast?.or before) := by
      rw [source_cons, List.getLast?_append, Option.or_assoc]
    rw [hlast]
    cases h with
    | plain silent rest => exact ih rest
    | mended apart spells mending rest =>
      obtain ⟨c, m, rfl, -⟩ := spells.exists_cons
      refine ih ?_
      rwa [Option.or_of_isSome (by simp [Piece.source])]

/-- **The run over a comment follows the pieces.** -/
lemma map_edit_issuesFrom (h : Cut before ps) (pos : Nat) :
    (issuesFrom before pos (source ps)).map Issue.edit = edits pos ps := by
  induction h generalizing pos with
  | nil => rfl
  | @plain before c ps silent rest ih =>
    have hc : source (.plain c :: ps) = c :: source ps := rfl
    rw [hc, issuesFrom, issueAt_eq_none_iff.2 silent]
    simpa [edits, Piece.edits, Piece.source] using ih (pos + c.utf8Size)
  | @mended before k m run new kept ps apart spells mending rest ih =>
    obtain ⟨i, hi, hedit⟩ := mending.exists_issueBehind m pos
    rw [← issueAt_append spells apart] at hi
    obtain ⟨c, m, rfl, -⟩ := spells.exists_cons
    have hsilent : Silent (some c) (m ++ (run ++ kept)) :=
      spells.silent (mending.not_isAlphabetic)
    have hsource : source (.mended k (c :: m) run new kept :: ps) =
        c :: (m ++ (run ++ kept) ++ source ps) := by simp [Piece.source]
    have hi : issueAt before pos (c :: (m ++ (run ++ kept) ++ source ps)) = some i := by
      simpa using hi
    have hlast : (m ++ (run ++ kept)).getLast?.or (some c) = (c :: m ++ run ++ kept).getLast? := by
      rw [List.append_assoc, List.cons_append, List.getLast?_cons, Option.or_some]
    have hlength : pos + c.utf8Size + byteLength (m ++ (run ++ kept)) =
        pos + byteLength (c :: m ++ run ++ kept) := by
      simp only [byteLength_append, byteLength_cons]
      omega
    rw [hsource, issuesFrom, hi, issuesFrom_append hsilent, hlast, hlength, List.map_append, ih]
    simp [edits, Piece.edits, Piece.source, hedit]

lemma lt_anchor (h : Cut before ps) (pos : Nat) : ∀ e ∈ edits pos ps, pos < e.anchor := by
  induction h generalizing pos with
  | nil => simp [edits]
  | plain silent rest ih =>
    intro e he
    exact Nat.lt_of_le_of_lt (Nat.le_add_right _ _) (ih _ e he)
  | @mended before k m run new kept ps apart spells mending rest ih =>
    obtain ⟨c, m, rfl, -⟩ := spells.exists_cons
    have hpos := c.utf8Size_pos
    refine List.forall_mem_cons.2 ⟨?_, fun e he => ?_⟩
    · simp only [byteLength_cons]
      omega
    · exact Nat.lt_of_le_of_lt (Nat.le_add_right _ _) (ih _ e he)

lemma listed (h : Cut before ps) (pos : Nat) : Edit.Listed (edits pos ps) := by
  induction h generalizing pos with
  | nil => exact List.Pairwise.nil
  | @plain before c ps silent rest ih => exact ih _
  | @mended before k m run new kept ps apart spells mending rest ih =>
    refine List.pairwise_cons.2 ⟨fun e he => ?_, ih _⟩
    have hanchor := rest.lt_anchor _ e he
    simp only [Piece.source, byteLength_append, Edit.stop] at *
    omega

lemma filter_isContent (h : Cut before ps) :
    (result ps).filter isContent = (source ps).filter isContent := by
  induction h with
  | nil => rfl
  | plain silent rest ih =>
    simp only [source_cons, result_cons, Piece.source, Piece.result, List.filter_append, ih]
  | @mended before k m run new kept ps apart spells mending rest ih =>
    obtain ⟨hrun, hnew⟩ := mending.not_isContent
    simp only [source_cons, result_cons, Piece.source, Piece.result, List.filter_append, ih,
      List.filter_eq_nil_iff.2 hrun, List.filter_eq_nil_iff.2 hnew]

end Cut

lemma spliced_edits (pos : Nat) (ps : List Piece) :
    Edit.Spliced pos (edits pos ps) (source ps) (result ps) := by
  induction ps generalizing pos with
  | nil => exact .nil pos []
  | cons p ps ih =>
    cases p with
    | plain c => exact (ih (pos + byteLength [c])).prepend [c]
    | mended k m run new kept =>
      have hrest := ih (pos + byteLength (m ++ run ++ kept))
      simp only [source_cons, result_cons, Piece.source, Piece.result, List.append_assoc]
      rw [← List.append_assoc m, ← List.append_assoc m]
      refine .cons m run rfl rfl (.prepend kept ?_)
      simpa [Piece.source, Edit.stop, Nat.add_assoc] using hrest

lemma byteLength_result (pos : Nat) (ps : List Piece) :
    byteLength (result ps) + ((edits pos ps).map Edit.length).sum =
      byteLength (source ps) + ((edits pos ps).map fun e => byteLength e.replacement).sum := by
  induction ps generalizing pos with
  | nil => rfl
  | cons p ps ih =>
    have hrest := ih (pos + byteLength p.source)
    cases p with
    | plain c =>
      simp only [source_cons, result_cons, edits, Piece.edits, Piece.source, Piece.result,
        List.nil_append, byteLength_append] at *
      omega
    | mended k m run new kept =>
      simp only [source_cons, result_cons, edits, Piece.edits, Piece.source, Piece.result,
        List.singleton_append, List.map_cons, List.sum_cons, byteLength_append] at *
      omega

lemma stop_le_of_mem_edits (pos : Nat) (ps : List Piece) :
    ∀ e ∈ edits pos ps, e.stop ≤ pos + byteLength (source ps) := by
  induction ps generalizing pos with
  | nil => simp [edits]
  | cons p ps ih =>
    intro e he
    rw [source_cons, byteLength_append]
    rcases List.mem_append.1 he with he | he
    · cases p with
      | plain c => simp [Piece.edits] at he
      | mended k m run new kept =>
        obtain rfl := List.mem_singleton.1 he
        simp only [Piece.source, byteLength_append, Edit.stop]
        omega
    · have hstop := ih _ e he
      omega

lemma exists_piece_of_mem_edits {pos : Nat} {ps : List Piece} {e : Edit} (h : e ∈ edits pos ps) :
    ∃ ps₁ k m run new kept ps₂, ps = ps₁ ++ .mended k m run new kept :: ps₂ ∧
      e = ⟨pos + byteLength (source ps₁) + byteLength m, byteLength run, new⟩ := by
  induction ps generalizing pos with
  | nil => simp [edits] at h
  | cons p ps ih =>
    rcases List.mem_append.1 h with h | h
    · cases p with
      | plain c => simp [Piece.edits] at h
      | mended k m run new kept =>
        exact ⟨[], k, m, run, new, kept, ps, rfl, by simpa [Piece.edits, source] using h⟩
    · obtain ⟨ps₁, k, m, run, new, kept, ps₂, rfl, rfl⟩ := ih h
      exact ⟨p :: ps₁, k, m, run, new, kept, ps₂, rfl, by simp [Nat.add_assoc]⟩

/-! ### The keywords of the pieces -/

section Keywords

variable {k : Keyword} {m run new kept : Text} {ps₁ ps₂ : List Piece}

lemma Cut.occurs (h : Cut none (ps₁ ++ .mended k m run new kept :: ps₂)) :
    Occurs (source (ps₁ ++ .mended k m run new kept :: ps₂)) k (source ps₁) m
      (run ++ kept ++ source ps₂) := by
  cases h.append with
  | mended apart spells mending rest =>
    exact ⟨by simp [source_append, Piece.source], spells, by simpa using apart⟩

lemma Cut.exists_blank (h : Cut none (ps₁ ++ .mended k m run new kept :: ps₂)) :
    ∃ c, new ++ kept = [c] ∧ (c = ' ' ∨ c = '\t') := by
  cases h.append with
  | mended apart spells mending rest => exact mending.exists_blank

lemma Cut.byteLength_front (h : Cut none (ps₁ ++ .mended k m run new kept :: ps₂)) :
    byteLength (result ps₁) =
      Edit.shift (edits 0 (ps₁ ++ .mended k m run new kept :: ps₂)) (byteLength (source ps₁)) := by
  have hbefore : ∀ e ∈ edits 0 ps₁, e.stop ≤ byteLength (source ps₁) := by
    simpa using stop_le_of_mem_edits 0 ps₁
  have hafter : ∀ e ∈ edits (0 + byteLength (source ps₁)) (.mended k m run new kept :: ps₂),
      byteLength (source ps₁) < e.stop := fun e he => by
    have hanchor := h.append.lt_anchor _ e he
    unfold Edit.stop
    omega
  have hlength := byteLength_result 0 ps₁
  rw [edits_append, Edit.shift_append hbefore hafter]
  omega

end Keywords

/-! ### The edits of a comment -/

lemma validate_of_mem_fixes {comment : Text} {e : Edit} (he : e ∈ fixes comment)
    (hlt : e.stop < offsetLimit) : e.validate comment = .ok () := by
  obtain ⟨i, hi, rfl⟩ := List.mem_map.1 he
  obtain ⟨m, hm⟩ := (placed_of_mem_issues hi).edit
  exact Edit.validate_of_slice? hm hlt

/-- **The fixed comment** consists of the results of the pieces. -/
lemma exists_fixed {comment : Text} (hlt : ∀ e ∈ fixes comment, e.stop < offsetLimit) :
    ∃ ps, Cut none ps ∧ source ps = comment ∧ fixes comment = edits 0 ps ∧
      Edit.applyAll comment (fixes comment) = .ok (result ps) := by
  obtain ⟨ps, hcut, rfl⟩ := exists_cut none comment
  have hfixes : fixes (source ps) = edits 0 ps := hcut.map_edit_issuesFrom 0
  have hfits : ∀ e ∈ fixes (source ps), e.Fits (source ps) := fun e he =>
    (Edit.validate_eq_ok_iff.1 (validate_of_mem_fixes he (hlt e he))).2
  refine ⟨ps, hcut, rfl, hfixes, ?_⟩
  rw [hfixes] at hlt hfits ⊢
  exact Edit.applyAll_of_spliced hlt hfits (hcut.listed 0) (spliced_edits 0 ps)

lemma stop_lt_of_mem_fixes {comment : Text} (hlt : byteLength comment < offsetLimit) :
    ∀ e ∈ fixes comment, e.stop < offsetLimit := by
  intro e he
  obtain ⟨i, hi, rfl⟩ := List.mem_map.1 he
  obtain ⟨m, hm⟩ := (placed_of_mem_issues hi).edit
  exact Nat.lt_of_le_of_lt (byteLength_of_slice? hm).2 hlt

/-- **The edits of a comment are carried out together, and only touch separators.** In a comment
whose length is an offset, each of them passes the check, they are listed one behind the other, and
together they have a result, which says what the comment said. Behind every keyword that was
reported, a space or a tab stands at the place where it comes to lie. -/
theorem applyAll_fixes {comment : Text} (hlt : byteLength comment < offsetLimit) :
    (∀ e ∈ fixes comment, e.validate comment = .ok ()) ∧ Edit.Listed (fixes comment) ∧
      ∃ fixed, Edit.applyAll comment (fixes comment) = .ok fixed ∧
        fixed.filter isContent = comment.filter isContent ∧
        ∀ i ∈ issues comment, ∃ k front m rest front' c rest', Occurs comment k front m rest ∧
          i.edit.anchor = byteLength (front ++ m) ∧ fixed = front' ++ m ++ c :: rest' ∧
          byteLength front' = Edit.shift (fixes comment) (byteLength front) ∧
          (c = ' ' ∨ c = '\t') := by
  have hstop := stop_lt_of_mem_fixes hlt
  obtain ⟨ps, hcut, rfl, hfixes, happly⟩ := exists_fixed hstop
  refine ⟨fun e he => validate_of_mem_fixes he (hstop e he), by rw [hfixes]; exact hcut.listed 0,
    _, happly, hcut.filter_isContent, fun i hi => ?_⟩
  have hmem : i.edit ∈ edits 0 ps := by
    rw [← hfixes]
    exact List.mem_map_of_mem hi
  obtain ⟨ps₁, k, m, run, new, kept, ps₂, rfl, hedit⟩ := exists_piece_of_mem_edits hmem
  obtain ⟨c, hc, hblank⟩ := hcut.exists_blank
  refine ⟨k, _, m, _, result ps₁, c, result ps₂, hcut.occurs, ?_, ?_, ?_, hblank⟩
  · simp [hedit]
  · calc result (ps₁ ++ .mended k m run new kept :: ps₂)
        = result ps₁ ++ m ++ (new ++ kept ++ result ps₂) := by
          simp [result_append, Piece.result]
      _ = result ps₁ ++ m ++ c :: result ps₂ := by rw [hc, List.singleton_append]
  · rw [hfixes, hcut.byteLength_front]

/-- A keyword that another one is attached to, separators that are replaced, and separators that are
removed in front of a tab. -/
theorem applyAll_fixes_mixed :
    byteLength "См.sEE:_А СМ.:\tБ".toList < offsetLimit ∧
      fixes "См.sEE:_А СМ.:\tБ".toList = [⟨5, 0, [' ']⟩, ⟨8, 2, [' ']⟩, ⟨18, 1, []⟩] ∧
      Edit.applyAll "См.sEE:_А СМ.:\tБ".toList (fixes "См.sEE:_А СМ.:\tБ".toList) =
        .ok "См. sEE А СМ.\tБ".toList ∧
      "См. sEE А СМ.\tБ".toList.filter isContent = "См.sEE:_А СМ.:\tБ".toList.filter isContent := by
  have hlt : byteLength "См.sEE:_А СМ.:\tБ".toList < offsetLimit := by decide +kernel
  obtain ⟨-, hlisted, fixed, happly, hcontent, -⟩ := applyAll_fixes hlt
  have hrun : Edit.applyAll "См.sEE:_А СМ.:\tБ".toList (fixes "См.sEE:_А СМ.:\tБ".toList) =
      .ok "См. sEE А СМ.\tБ".toList := by
    rw [Edit.applyAll, hlisted.fromLast_eq]
    decide +kernel
  obtain rfl := Outcome.ok.inj (happly.symm.trans hrun)
  exact ⟨hlt, by decide +kernel, hrun, hcontent⟩

end BslLint.LinkSpacing
