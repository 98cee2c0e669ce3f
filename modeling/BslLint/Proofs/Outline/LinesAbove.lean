import BslLint.Proofs.Outline.Declaration
import Mathlib.Data.List.TakeWhile

/-!
The lines above a declaration. A text before an offset is a sequence of lines, each ended by a line
feed, and the beginning of the line of the offset. Reading it backwards from the offset gives these
lines with their offsets, the nearest first, without carriage returns at their ends. A carriage
return is white space, and so what a line says and where it says it does not depend on it.
-/

namespace BslLint

namespace Text

/-- The text without carriage returns at its end. -/
def dropReturns (t : Text) : Text := (t.reverse.dropWhile (· == '\r')).reverse

lemma exists_dropReturns (t : Text) : ∃ r, t = dropReturns t ++ r ∧ ∀ c ∈ r, c = '\r' := by
  refine ⟨(t.reverse.takeWhile (· == '\r')).reverse, ?_, fun c hc => ?_⟩
  · rw [dropReturns, ← List.reverse_append, List.takeWhile_append_dropWhile, List.reverse_reverse]
  · simpa using List.mem_takeWhile_imp (List.mem_reverse.1 hc)

lemma isBlank_return : isBlank '\r' = true := by decide

section Returns

variable {s r : Text}

lemma trimStart_append (hs : trimStart s ≠ []) : trimStart (s ++ r) = trimStart s ++ r := by
  have hempty : (s.dropWhile isBlank).isEmpty = false := by simpa [trimStart] using hs
  rw [trimStart, List.dropWhile_append, hempty]
  rfl

lemma takeWhile_isBlank_append (hs : trimStart s ≠ []) :
    (s ++ r).takeWhile isBlank = s.takeWhile isBlank := by
  obtain ⟨c, hc, hblank⟩ : ∃ c ∈ s, isBlank c ≠ true := by
    by_contra hall
    push Not at hall
    exact hs (List.dropWhile_eq_nil_iff.2 hall)
  rw [List.takeWhile_append, if_neg]
  intro hlen
  have hself := List.takeWhile_prefix isBlank (l := s) |>.eq_of_length hlen
  exact hblank (List.takeWhile_eq_self_iff.1 hself c hc)

lemma trimStart_append_of_blank (hs : trimStart s = []) (hr : ∀ c ∈ r, isBlank c = true) :
    trimStart (s ++ r) = [] := by
  have hs' := List.dropWhile_eq_nil_iff.1 hs
  refine List.dropWhile_eq_nil_iff.2 fun c hc => ?_
  exact (List.mem_append.1 hc).elim (hs' c) (hr c)

lemma trimEnd_append (hr : ∀ c ∈ r, isBlank c = true) : trimEnd (s ++ r) = trimEnd s := by
  have hr' : r.reverse.dropWhile isBlank = [] :=
    List.dropWhile_eq_nil_iff.2 fun c hc => hr c (List.mem_reverse.1 hc)
  rw [trimEnd, List.reverse_append, List.dropWhile_append, hr']
  rfl

lemma trimEnd_append_of_ne_nil (hr : trimEnd r ≠ []) : trimEnd (s ++ r) = s ++ trimEnd r := by
  have hempty : (r.reverse.dropWhile isBlank).isEmpty = false := by simpa [trimEnd] using hr
  rw [trimEnd, List.reverse_append, List.dropWhile_append, hempty]
  simp [trimEnd]

lemma trim_append (hr : ∀ c ∈ r, isBlank c = true) : trim (s ++ r) = trim s := by
  by_cases hs : trimStart s = []
  · rw [trim, trim, trimStart_append_of_blank hs hr, hs]
  · rw [trim, trim, trimStart_append hs, trimEnd_append hr]

end Returns

lemma takeWhile_append_trim {t : Text} (h : trim t ≠ []) :
    t.takeWhile isBlank ++ trim t = trimEnd t :=
  calc
    t.takeWhile isBlank ++ trim t = trimEnd (t.takeWhile isBlank ++ trimStart t) :=
      (trimEnd_append_of_ne_nil h).symm
    _ = trimEnd t := by rw [trimStart, List.takeWhile_append_dropWhile]

lemma isBlank_of_returns {r : Text} (hr : ∀ c ∈ r, c = '\r') : ∀ c ∈ r, isBlank c = true :=
  fun c hc => hr c hc ▸ isBlank_return

lemma trim_dropReturns (t : Text) : trim (dropReturns t) = trim t := by
  obtain ⟨r, ht, hr⟩ := exists_dropReturns t
  conv_rhs => rw [ht]
  rw [trim_append (isBlank_of_returns hr)]

lemma trimEnd_dropReturns (t : Text) : trimEnd (dropReturns t) = trimEnd t := by
  obtain ⟨r, ht, hr⟩ := exists_dropReturns t
  conv_rhs => rw [ht]
  rw [trimEnd_append (isBlank_of_returns hr)]

/-- Of the text behind the white space at the start only carriage returns at the end get lost. -/
lemma exists_trimStart_dropReturns (t : Text) :
    ∃ r, trimStart t = trimStart (dropReturns t) ++ r ∧ ∀ c ∈ r, c = '\r' := by
  obtain ⟨r, ht, hr⟩ := exists_dropReturns t
  by_cases hs : trimStart (dropReturns t) = []
  · have hnil : trimStart t = [] := by
      rw [ht]
      exact trimStart_append_of_blank hs (isBlank_of_returns hr)
    exact ⟨[], by rw [hnil, hs]; rfl, by simp⟩
  · refine ⟨r, ?_, hr⟩
    conv_lhs => rw [ht]
    rw [trimStart_append hs]

lemma takeWhile_isBlank_dropReturns {t : Text} (h : trimStart t ≠ []) :
    (dropReturns t).takeWhile isBlank = t.takeWhile isBlank := by
  obtain ⟨r, ht, hr⟩ := exists_dropReturns t
  have hs : trimStart (dropReturns t) ≠ [] := by
    intro hnil
    rw [ht] at h
    exact h (trimStart_append_of_blank hnil (isBlank_of_returns hr))
  conv_rhs => rw [ht]
  rw [takeWhile_isBlank_append hs]

end Text

namespace Outline

/-! ### Lines without carriage returns -/

namespace Line

/-- The line as it is read: without carriage returns at its end. -/
def cut (l : Line) : Line := ⟨l.start, Text.dropReturns l.text⟩

/-- The offset behind the last character that is no white space. -/
def trimmedStop (l : Line) : ℕ := l.start + Text.byteLength (Text.trimEnd l.text)

lemma isMark_iff {l : Line} : l.isMark = true ↔ (Text.trim l.text).head? = some '&' := by
  rw [isMark, beq_iff_eq]

lemma isComment_iff {l : Line} : l.isComment = true ↔ ['/', '/'] <+: Text.trimStart l.text := by
  rw [isComment, List.isPrefixOf_iff_prefix]

lemma trim_ne_nil_of_isMark {l : Line} (h : l.isMark = true) : Text.trim l.text ≠ [] := by
  intro hnil
  rw [isMark_iff, hnil] at h
  cases h

lemma trim_ne_nil_of_isComment {l : Line} (h : l.isComment = true) : Text.trim l.text ≠ [] := by
  intro hnil
  have hblank : ∀ c ∈ (Text.trimStart l.text).reverse, Text.isBlank c = true :=
    List.dropWhile_eq_nil_iff.1 (List.reverse_eq_nil_iff.1 hnil)
  have hslash := (isComment_iff.1 h).subset (List.mem_cons_self ..)
  exact absurd (hblank _ (List.mem_reverse.2 hslash)) (by decide)

lemma slice?_trim {source : Text} {l : Line} (h : Text.trim l.text ≠ [])
    (hl : Text.slice? source l.start (l.start + Text.byteLength l.text) = some l.text) :
    Text.slice? source l.lead l.trimmedStop = some (Text.trim l.text) := by
  obtain ⟨b, hb⟩ := Text.exists_trim l.text
  refine Text.slice?_trans hl (Text.slice?_eq_some_iff.2 ⟨_, b, hb, rfl, ?_⟩)
  rw [← Text.takeWhile_append_trim h, Text.byteLength_append]

@[simp] lemma isMark_cut (l : Line) : l.cut.isMark = l.isMark := by
  rw [isMark, isMark, cut, Text.trim_dropReturns]

lemma slashes_prefix_of_append {t r : Text} (hr : ∀ c ∈ r, c = '\r')
    (h : ['/', '/'] <+: t ++ r) : ['/', '/'] <+: t := by
  have hslash : ∀ rest, r ≠ '/' :: rest := by
    rintro rest rfl
    exact absurd (hr '/' (by simp)) (by decide)
  obtain ⟨rest, hrest⟩ := h
  rcases t with _ | ⟨c, _ | ⟨d, t⟩⟩
  · exact absurd hrest.symm (hslash _)
  · exact absurd (List.cons.inj hrest).2.symm (hslash _)
  · obtain ⟨rfl, htail⟩ := List.cons.inj hrest
    obtain ⟨rfl, -⟩ := List.cons.inj htail
    exact ⟨t, rfl⟩

@[simp] lemma isComment_cut (l : Line) : l.cut.isComment = l.isComment := by
  obtain ⟨r, ht, hr⟩ := Text.exists_trimStart_dropReturns l.text
  rw [Bool.eq_iff_iff, isComment_iff, isComment_iff, ht, cut]
  exact ⟨fun h => h.trans (List.prefix_append _ _), slashes_prefix_of_append hr⟩

lemma lead_cut {l : Line} (h : Text.trimStart l.text ≠ []) : l.cut.lead = l.lead := by
  rw [lead, lead, cut, Text.takeWhile_isBlank_dropReturns h]

lemma trimStart_ne_nil {l : Line} (h : Text.trim l.text ≠ []) : Text.trimStart l.text ≠ [] := by
  intro hnil
  rw [Text.trim, hnil] at h
  exact h rfl

lemma trimmedStop_cut (l : Line) : l.cut.trimmedStop = l.trimmedStop := by
  rw [trimmedStop, trimmedStop, cut, Text.trimEnd_dropReturns]

lemma ofLine?_cut {l : Line} (h : l.isMark = true) : Mark.ofLine? l.cut = Mark.ofLine? l := by
  have htrim : Text.trim l.cut.text = Text.trim l.text := Text.trim_dropReturns l.text
  simp only [Mark.ofLine?, htrim, lead_cut (trimStart_ne_nil (trim_ne_nil_of_isMark h))]

end Line

/-! ### The lines of a text -/

def joined (ls : List Text) : Text := ls.flatMap (· ++ ['\n'])

@[simp] lemma joined_nil : joined [] = [] := rfl

@[simp] lemma joined_cons (l : Text) (ls : List Text) :
    joined (l :: ls) = l ++ '\n' :: joined ls := by
  simp [joined]

lemma joined_append (ls ms : List Text) : joined (ls ++ ms) = joined ls ++ joined ms :=
  List.flatMap_append

/-- Lines that follow one another from an offset on, with the offsets they start at. -/
def linesAt (start : ℕ) : List Text → List Line
  | [] => []
  | l :: ls => ⟨start, l⟩ :: linesAt (start + Text.byteLength l + 1) ls

lemma linesAt_append (start : ℕ) (ls ms : List Text) :
    linesAt start (ls ++ ms) =
      linesAt start ls ++ linesAt (start + Text.byteLength (joined ls)) ms := by
  induction ls generalizing start with
  | nil => rfl
  | cons l ls ih =>
    have hsize : Char.utf8Size '\n' = 1 := rfl
    rw [List.cons_append, linesAt, ih, linesAt, List.cons_append, joined_cons,
      Text.byteLength_append, Text.byteLength_cons, hsize]
    simp only [Nat.add_assoc]

@[simp] lemma map_text_linesAt (start : ℕ) (ls : List Text) :
    (linesAt start ls).map Line.text = ls := by
  induction ls generalizing start with
  | nil => rfl
  | cons l ls ih => rw [linesAt, List.map_cons, ih]

lemma slice?_of_mem_linesAt {source a b : Text} {ls : List Text} {l : Line}
    (hsource : source = a ++ joined ls ++ b) (hl : l ∈ linesAt (Text.byteLength a) ls) :
    Text.slice? source l.start (l.start + Text.byteLength l.text) = some l.text := by
  induction ls generalizing a with
  | nil => cases hl
  | cons t ls ih =>
    have hnext :
        Text.byteLength (a ++ t ++ ['\n']) = Text.byteLength a + Text.byteLength t + 1 := by
      simp [Nat.add_assoc]
      rfl
    rcases List.mem_cons.1 hl with rfl | hl
    · exact Text.slice?_eq_some_iff.2 ⟨a, '\n' :: joined ls ++ b, by simp [hsource], rfl, rfl⟩
    · refine ih (a := a ++ t ++ ['\n']) (by simp [hsource]) ?_
      rwa [hnext]

lemma exists_joined (t : Text) :
    ∃ ls rest, t = joined ls ++ rest ∧ (∀ l ∈ ls, '\n' ∉ l) ∧ '\n' ∉ rest := by
  induction t with
  | nil => exact ⟨[], [], rfl, by simp, by simp⟩
  | cons c t ih =>
    obtain ⟨ls, rest, rfl, hls, hrest⟩ := ih
    by_cases hc : c = '\n'
    · subst hc
      exact ⟨[] :: ls, rest, by simp, by simpa using hls, hrest⟩
    · -- The character goes in front of the first line, which may be the beginning of one.
      cases ls with
      | nil => exact ⟨[], c :: rest, by simp, by simp, by simpa [Ne.symm hc] using hrest⟩
      | cons l ls =>
        refine ⟨(c :: l) :: ls, rest, by simp, ?_, hrest⟩
        obtain ⟨hl, hls⟩ := List.forall_mem_cons.1 hls
        exact List.forall_mem_cons.2 ⟨by simpa [Ne.symm hc] using hl, hls⟩

/-! ### Reading the lines -/

lemma linesFrom_of_not_mem {rest : Text} (hrest : '\n' ∉ rest) (start : ℕ) (line : List Char) :
    linesFrom start line rest = [⟨start, line.reverse ++ rest⟩] := by
  induction rest generalizing line with
  | nil => simp [linesFrom]
  | cons c rest ih =>
    obtain ⟨hc, hrest⟩ := not_or.1 (mt List.mem_cons.2 hrest)
    rw [linesFrom, if_neg (Ne.symm hc), ih hrest]
    simp

lemma linesFrom_append {l : Text} (hl : '\n' ∉ l) (start : ℕ) (line : List Char) (t : Text) :
    linesFrom start line (l ++ '\n' :: t) =
      Line.cut ⟨start, line.reverse ++ l⟩ ::
        linesFrom (start + Text.byteLength (line.reverse ++ l) + 1) [] t := by
  induction l generalizing line with
  | nil => simp [linesFrom, Line.cut, Text.dropReturns]
  | cons c l ih =>
    obtain ⟨hc, hl⟩ := not_or.1 (mt List.mem_cons.2 hl)
    rw [List.cons_append, linesFrom, if_neg (Ne.symm hc), ih hl]
    simp

lemma linesFrom_joined {ls : List Text} {rest : Text} (hls : ∀ l ∈ ls, '\n' ∉ l)
    (hrest : '\n' ∉ rest) (start : ℕ) :
    linesFrom start [] (joined ls ++ rest) =
      (linesAt start ls).map Line.cut ++ [⟨start + Text.byteLength (joined ls), rest⟩] := by
  induction ls generalizing start with
  | nil => exact linesFrom_of_not_mem hrest start []
  | cons l ls ih =>
    obtain ⟨hl, hls⟩ := List.forall_mem_cons.1 hls
    have hsize : Char.utf8Size '\n' = 1 := rfl
    have htext : joined (l :: ls) ++ rest = l ++ '\n' :: (joined ls ++ rest) := by simp
    rw [htext, linesFrom_append hl, List.reverse_nil, List.nil_append, ih hls, linesAt,
      List.map_cons, List.cons_append, joined_cons, Text.byteLength_append, Text.byteLength_cons,
      hsize]
    simp only [Nat.add_assoc]

/-- **The lines above an offset** are those before it, read from the nearest one on. -/
lemma linesAbove_eq {source rest : Text} {ls : List Text} {pos : ℕ}
    (hfront : Text.take? source pos = some (joined ls ++ rest)) (hls : ∀ l ∈ ls, '\n' ∉ l)
    (hrest : '\n' ∉ rest) :
    linesAbove source pos = .ok ((linesAt 0 ls).map Line.cut).reverse := by
  obtain ⟨behind, hsource, hpos⟩ := Text.take?_eq_some_iff.1 hfront
  have hslice : Text.slice? source 0 pos = some (joined ls ++ rest) :=
    Text.slice?_eq_some_iff.2 ⟨[], behind, hsource, rfl, by rw [hpos, Nat.zero_add]⟩
  have hcut : sliceAt source 0 pos = .ok (joined ls ++ rest) := by rw [sliceAt, hslice]; rfl
  rw [linesAbove, hcut, Outcome.ok_bind, linesFrom_joined hls hrest, List.dropLast_concat]
  rfl

end Outline

end BslLint
