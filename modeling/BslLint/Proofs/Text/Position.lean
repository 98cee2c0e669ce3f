import BslLint.Proofs.Text.Slice
import BslLint.Span
import Mathlib.Data.List.Induction
import Mathlib.Data.Nat.Find
import Mathlib.Data.Prod.Lex
import Mathlib.Order.Bounds.Basic

/-!
Positions are faithful to offsets. The place behind a piece of text depends on where the piece
begins and on the piece alone (`Position.behind`), and every character moves it on in the order of
rows and columns. So between two boundaries the place moves on, and an offset that is no boundary
has the place of the last boundary before it.
-/

namespace BslLint

namespace Position

/-- Places in the order in which they are read: by row, and in a row by column. -/
def key (p : Position) : ℕ ×ₗ ℕ := toLex (p.row, p.column)

def next (p : Position) (c : Char) : Position :=
  if c = '\n' then ⟨p.row + 1, 1⟩ else ⟨p.row, p.column + 1⟩

def behind (p : Position) (t : Text) : Position := t.foldl next p

@[simp] lemma behind_nil (p : Position) : p.behind [] = p := rfl

@[simp] lemma behind_cons (p : Position) (c : Char) (t : Text) :
    p.behind (c :: t) = (p.next c).behind t := rfl

lemma behind_append (p : Position) (a b : Text) : p.behind (a ++ b) = (p.behind a).behind b :=
  List.foldl_append

/-- The place behind a text counts its line feeds, and its characters behind the last of them. -/
lemma behind_start (t : Text) :
    behind ⟨1, 1⟩ t = ⟨t.count '\n' + 1, (t.reverse.takeWhile (· != '\n')).length + 1⟩ := by
  induction t using List.reverseRecOn with
  | nil => rfl
  | append_singleton t c ih =>
    rw [behind_append, ih, behind_cons, behind_nil, next, List.count_append]
    by_cases hc : c = '\n'
    · subst hc
      simp
    · simp [hc]

lemma key_lt_key_next (p : Position) (c : Char) : p.key < (p.next c).key := by
  unfold next
  split
  · exact Prod.Lex.toLex_lt_toLex.2 (.inl (Nat.lt_succ_self _))
  · exact Prod.Lex.toLex_lt_toLex.2 (.inr ⟨rfl, Nat.lt_succ_self _⟩)

lemma key_lt_key_behind (p : Position) {t : Text} (ht : t ≠ []) : p.key < (p.behind t).key := by
  induction t generalizing p with
  | nil => exact absurd rfl ht
  | cons c t ih =>
    have hc := p.key_lt_key_next c
    by_cases hrest : t = []
    · subst hrest
      exact hc
    · exact hc.trans (ih (p.next c) hrest)

end Position

namespace Text

variable {t : Text} {m n b : ℕ}

/-! ### Line feeds and bytes -/

lemma lineFeedByte_mem_utf8EncodeChar {c : Char} :
    lineFeedByte ∈ String.utf8EncodeChar c ↔ c = '\n' := by
  constructor
  · intro h
    have hbyte : lineFeedByte.toNat = 10 := rfl
    unfold String.utf8EncodeChar at h
    dsimp only at h
    split_ifs at h with h₁ h₂ h₃
    · have hval : c.val.toNat = 10 := by
        have heq := congrArg UInt8.toNat (List.mem_singleton.1 h)
        rw [hbyte, UInt8.toNat_ofNat'] at heq
        omega
      exact Char.ext (UInt32.toNat_inj.1 hval)
    all_goals
      simp only [List.mem_cons, List.not_mem_nil, or_false, ← UInt8.toNat_inj, hbyte,
        UInt8.toNat_ofNat'] at h
      omega
  · rintro rfl
    decide

lemma count_lineFeedByte_utf8EncodeChar (c : Char) :
    (String.utf8EncodeChar c).count lineFeedByte = if c = '\n' then 1 else 0 := by
  split
  case isTrue h =>
    subst h
    decide
  case isFalse h => exact List.count_eq_zero.2 (mt lineFeedByte_mem_utf8EncodeChar.1 h)

lemma bytes_append (a b : Text) : bytes (a ++ b) = bytes a ++ bytes b :=
  List.flatMap_append

lemma length_bytes (t : Text) : (bytes t).length = byteLength t := by
  induction t with
  | nil => rfl
  | cons c t ih =>
    rw [bytes, List.flatMap_cons, List.length_append, String.length_utf8EncodeChar, byteLength_cons]
    exact congrArg _ ih

lemma count_lineFeedByte_bytes (t : Text) : (bytes t).count lineFeedByte = t.count '\n' := by
  induction t with
  | nil => rfl
  | cons c t ih =>
    have hrest : (t.flatMap String.utf8EncodeChar).count lineFeedByte = t.count '\n' := ih
    rw [bytes, List.flatMap_cons, List.count_append, count_lineFeedByte_utf8EncodeChar, hrest,
      List.count_cons, Nat.add_comm]
    simp only [beq_iff_eq]

/-! ### The text before an offset -/

/-- The last boundary at or before an offset, the end of the text for an offset past the end. -/
def IsLastBoundary (t : Text) (n b : ℕ) : Prop :=
  IsGreatest {b | isBoundary t b = true ∧ b ≤ min n (byteLength t)} b

lemma lastBoundary_le (t : Text) (n : ℕ) : lastBoundary t n ≤ n := by
  fun_induction lastBoundary t n with
  | case1 => exact le_rfl
  | case2 n h => exact le_rfl
  | case3 n h ih => exact Nat.le_succ_of_le ih

lemma le_lastBoundary (hb : isBoundary t b = true) (hle : b ≤ n) : b ≤ lastBoundary t n := by
  fun_induction lastBoundary t n with
  | case1 => exact hle
  | case2 n h => exact hle
  | case3 n h ih =>
    have hne : b ≠ n + 1 := by
      rintro rfl
      exact h hb
    exact ih (by omega)

lemma isLastBoundary_lastBoundary (t : Text) (n : ℕ) :
    IsLastBoundary t n (lastBoundary t (min n (byteLength t))) :=
  ⟨⟨isBoundary_lastBoundary t _, lastBoundary_le t _⟩, fun _ h => le_lastBoundary h.1 h.2⟩

lemma IsLastBoundary.take?_eq (h : IsLastBoundary t n b) : take? t b = some (before t n) := by
  rw [h.unique (isLastBoundary_lastBoundary t n)]
  exact (Option.some_get _).symm

lemma isLastBoundary_self (h : isBoundary t b = true) : IsLastBoundary t b b :=
  ⟨⟨h, le_min le_rfl (le_byteLength_of_isBoundary h)⟩, fun _ h => h.2.trans (min_le_left _ _)⟩

lemma before_append (a rest : Text) : before (a ++ rest) (byteLength a) = a := by
  have hlast := isLastBoundary_self (isBoundary_iff.2 ⟨a, rest, rfl, rfl⟩)
  simpa [eq_comm] using hlast.take?_eq

lemma IsLastBoundary.mono {b' : ℕ} (h : IsLastBoundary t m b) (h' : IsLastBoundary t n b')
    (hle : m ≤ n) : b ≤ b' :=
  h'.2 ⟨h.1.1, le_min ((h.1.2.trans (min_le_left _ _)).trans hle)
    (h.1.2.trans (min_le_right _ _))⟩

/-! ### Rows -/

lemma rowAt_append (a rest : Text) : rowAt (a ++ rest) (byteLength a) = a.count '\n' + 1 := by
  have hmin : min (byteLength a) (byteLength (a ++ rest)) = (bytes a).length := by
    rw [byteLength_append, length_bytes]
    omega
  rw [rowAt, hmin, bytes_append, List.take_left, count_lineFeedByte_bytes]

lemma count_lineFeedByte_take {c : Char} {k : ℕ} (h : k < c.utf8Size) (rest : Text) :
    ((bytes (c :: rest)).take k).count lineFeedByte = 0 := by
  have hinside : (bytes (c :: rest)).take k = (String.utf8EncodeChar c).take k := by
    rw [bytes, List.flatMap_cons, List.take_append_of_le_length]
    rw [String.length_utf8EncodeChar]
    exact h.le
  rw [hinside, List.count_eq_zero]
  intro hmem
  obtain rfl := lineFeedByte_mem_utf8EncodeChar.1 (List.mem_of_mem_take hmem)
  have hsize : Char.utf8Size '\n' = 1 := rfl
  obtain rfl : k = 0 := by omega
  simp at hmem

/-- Until the next boundary the row stays. -/
lemma IsLastBoundary.rowAt_eq (h : IsLastBoundary t n b) : rowAt t n = rowAt t b := by
  obtain ⟨⟨hb, hle⟩, hlast⟩ := h
  obtain ⟨a, rest, rfl, rfl⟩ := isBoundary_iff.1 hb
  obtain ⟨k, hk⟩ := Nat.exists_eq_add_of_le hle
  have hinside : ((bytes rest).take k).count lineFeedByte = 0 := by
    cases rest with
    | nil => simp [bytes]
    | cons c rest =>
      -- The end of the next character is a boundary, and so the offset stands before it.
      have hend : isBoundary (a ++ c :: rest) (byteLength (a ++ [c])) = true :=
        isBoundary_iff.2 ⟨a ++ [c], rest, by simp, rfl⟩
      refine count_lineFeedByte_take ?_ rest
      by_contra hlt
      have hback := hlast ⟨hend, by rw [hk, byteLength_append]; simpa using hlt⟩
      have hc := c.utf8Size_pos
      simp only [byteLength_append, byteLength_cons, byteLength_nil] at hback
      omega
  rw [rowAt_append, rowAt, hk, ← length_bytes, bytes_append, List.take_length_add_append,
    List.count_append, hinside, count_lineFeedByte_bytes, Nat.add_zero]

/-! ### Places -/

lemma length_lastLine (t : Text) :
    (lastLine t).length = (t.reverse.takeWhile (· != '\n')).length := by
  obtain ⟨a, b, hcut, hlength, hb, ha⟩ := exists_lineStart t
  have hline : lastLine t = b :=
    Option.some.inj ((Option.some_get _).trans (drop?_eq_some_iff.2 ⟨a, hcut, hlength⟩))
  have hall : ∀ c ∈ b.reverse, (c != '\n') = true := fun c hc => by
    simpa using ne_of_mem_of_not_mem (List.mem_reverse.1 hc) hb
  have hfront : a.reverse.takeWhile (· != '\n') = [] := by
    cases hlast : a.getLast? with
    | none => rw [List.getLast?_eq_none_iff.1 hlast]; rfl
    | some c =>
      obtain ⟨front, rfl⟩ := List.getLast?_eq_some_iff.1 hlast
      simp [ha c hlast]
  rw [hline, hcut, List.reverse_append, List.takeWhile_append_of_pos hall, hfront,
    List.append_nil, List.length_reverse]

lemma positionAt_eq (t : Text) (n : ℕ) :
    positionAt t n = Position.behind ⟨1, 1⟩ (before t n) := by
  obtain ⟨rest, hcut, -⟩ := take?_eq_some_iff.1 (isLastBoundary_lastBoundary t n).take?_eq
  have hrow : rowAt t (byteLength (before t n)) = (before t n).count '\n' + 1 := by
    have hrow := rowAt_append (before t n) rest
    rwa [← hcut] at hrow
  rw [positionAt, hrow, length_lastLine, Position.behind_start]

lemma positionAt_append (a rest : Text) :
    positionAt (a ++ rest) (byteLength a) = Position.behind ⟨1, 1⟩ a := by
  rw [positionAt_eq, before_append]

lemma IsLastBoundary.positionAt_eq (h : IsLastBoundary t n b) :
    positionAt t n = positionAt t b := by
  have hsame := h.take?_eq.symm.trans (isLastBoundary_self h.1.1).take?_eq
  rw [Text.positionAt_eq, Text.positionAt_eq, Option.some.inj hsame]

lemma key_positionAt_lt (hm : isBoundary t m = true) (hn : isBoundary t n = true) (h : m < n) :
    (positionAt t m).key < (positionAt t n).key := by
  obtain ⟨a, rest, rfl, rfl⟩ := isBoundary_iff.1 hm
  obtain ⟨c, d, hcut, rfl⟩ := isBoundary_iff.1 hn
  obtain ⟨piece, rfl, -⟩ := exists_between hcut h.le
  have hpiece : piece ≠ [] := by
    rintro rfl
    simp at h
  rw [positionAt_append, hcut, positionAt_append, Position.behind_append]
  exact Position.key_lt_key_behind _ hpiece

lemma key_positionAt_mono (t : Text) : Monotone fun n => (positionAt t n).key := by
  intro m n hle
  have hb := isLastBoundary_lastBoundary t m
  have hb' := isLastBoundary_lastBoundary t n
  simp only [hb.positionAt_eq, hb'.positionAt_eq]
  rcases (hb.mono hb' hle).eq_or_lt with heq | hlt
  · exact (congrArg (fun b => (positionAt t b).key) heq).le
  · exact (key_positionAt_lt hb.1.1 hb'.1.1 hlt).le

lemma row_positionAt (t : Text) (n : ℕ) : (positionAt t n).row = rowAt t n := by
  have hlast := isLastBoundary_lastBoundary t n
  obtain ⟨-, -, hlength⟩ := take?_eq_some_iff.1 hlast.take?_eq
  rw [hlast.rowAt_eq, ← hlength]
  rfl

/-- **Positions are faithful to offsets.** Behind a text the row counts its line feeds, and the
column its characters behind the last of them. At every offset, also inside a character or past the
end, the row is that of the offset itself, and the place is that of the last boundary at or before
it. From boundary to boundary the place moves on in the order of rows and columns, so that two
boundaries never have the same place. So the extent of a byte range, whenever its end is an offset,
starts where its offset lies, ends where its end lies, and the start does not come behind the
end. -/
theorem positionAt_faithful (t : Text) :
    (∀ a rest, t = a ++ rest → positionAt t (byteLength a) =
      ⟨a.count '\n' + 1, (a.reverse.takeWhile (· != '\n')).length + 1⟩) ∧
    (∀ n, (positionAt t n).row = rowAt t n) ∧
    (∀ n, ∃ b, IsGreatest {b | isBoundary t b = true ∧ b ≤ min n (byteLength t)} b ∧
      positionAt t n = positionAt t b) ∧
    StrictMonoOn (fun n => toLex ((positionAt t n).row, (positionAt t n).column))
      {n | isBoundary t n = true} ∧
    Set.InjOn (positionAt t) {n | isBoundary t n = true} ∧
    ∀ (ε : Type) (offset length : ℕ), offset + length < offsetLimit →
      ∃ first last, (Extent.of t offset length : Outcome ε Extent) =
          .ok ⟨offset, length, first, last⟩ ∧
        first = positionAt t offset ∧ last = positionAt t (offset + length) ∧
        toLex (first.row, first.column) ≤ toLex (last.row, last.column) := by
  have hstrict : StrictMonoOn (fun n => (positionAt t n).key) {n | isBoundary t n = true} :=
    fun m hm n hn h => key_positionAt_lt hm hn h
  refine ⟨?_, fun n => ?_, fun n => ?_, hstrict, fun m hm n hn h => ?_,
    fun ε offset length hlt => ?_⟩
  · rintro a rest rfl
    rw [positionAt_append, Position.behind_start]
  · exact row_positionAt t n
  · have hlast := isLastBoundary_lastBoundary t n
    exact ⟨_, hlast, hlast.positionAt_eq⟩
  · exact hstrict.injOn hm hn (congrArg Position.key h)
  · refine ⟨_, _, ?_, rfl, rfl, key_positionAt_mono t (Nat.le_add_right offset length)⟩
    rw [Extent.of, addOffsets_of_lt hlt]
    rfl

/-- An offset inside the second character of the second row, and a range from there past the end. -/
theorem positionAt_faithful_inside :
    let t : Text := "\nЖя\n".toList
    positionAt t 4 = ⟨2, 2⟩ ∧ positionAt t 4 = positionAt t 3 ∧
      (positionAt t 1).key < (positionAt t 5).key ∧
      ∃ first last, (Extent.of t 4 9 : Outcome Empty Extent) = .ok ⟨4, 9, first, last⟩ ∧
        first = ⟨2, 2⟩ ∧ last = ⟨3, 1⟩ ∧
        toLex (first.row, first.column) ≤ toLex (last.row, last.column) := by
  intro t
  obtain ⟨-, -, hlast, hstrict, -, hextent⟩ := positionAt_faithful t
  obtain ⟨first, last, hof, hfirst, hend, hle⟩ := hextent Empty 4 9 (by decide)
  have hplace : positionAt t 4 = ⟨2, 2⟩ := by decide
  refine ⟨hplace, ?_, hstrict (by decide : isBoundary t 1 = true) (by decide) (by decide),
    first, last, hof, hfirst.trans hplace, hend.trans (by decide), hle⟩
  obtain ⟨b, ⟨⟨hb, hb'⟩, hgreatest⟩, heq⟩ := hlast 4
  have hthree : 3 ≤ b := hgreatest ⟨by decide, by decide⟩
  have hfour : b ≤ 4 := hb'.trans (min_le_left _ _)
  have hne : b ≠ 4 := by
    rintro rfl
    exact absurd hb (by decide)
  obtain rfl : b = 3 := by omega
  exact heq

end Text

end BslLint
