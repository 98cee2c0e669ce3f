import BslLint.Diff
import BslLint.Proofs.Json.RoundTrip

/-!
The hunks of a printed diff can be read off it.

A diff is printed row by row. The first character of a row inside a hunk says to which of the texts
its line belongs, and a row that starts with none of the three marks is the header of a hunk, so the
rows are read from the last to the first: what has been read when a header is met are the lines of
its hunk (`readRows`). A line of a text holds no line feed, so nothing in it is taken for a row of
its own.
-/

namespace BslLint

namespace Text

lemma mem_of_mem_dropCarriageReturn {line : Text} {c : Char} (h : c ∈ dropCarriageReturn line) :
    c ∈ line := by
  unfold dropCarriageReturn at h
  split at h
  · exact List.dropLast_subset line h
  · exact h

lemma lineFeed_not_mem_linesAfter {read t : Text} (hread : '\n' ∉ read) :
    ∀ line ∈ linesAfter read t, '\n' ∉ line := by
  fun_induction linesAfter read t with
  | case1 => simp
  | case2 read hne => simpa using hread
  | case3 read t ih =>
    refine List.forall_mem_cons.2 ⟨fun h => hread ?_, ih (by simp)⟩
    simpa using mem_of_mem_dropCarriageReturn h
  | case4 read c t hc ih => exact ih (by simpa [eq_comm, hread] using hc)

lemma lineFeed_not_mem_lines (t : Text) : ∀ line ∈ lines t, '\n' ∉ line :=
  lineFeed_not_mem_linesAfter (by simp)

lemma splitOnAfter_append {separator : Char} {t : Text} (h : separator ∉ t) (part rest : Text) :
    splitOnAfter separator part (t ++ separator :: rest) =
      (part.reverse ++ t) :: splitOn separator rest := by
  induction t generalizing part with
  | nil => simp [splitOnAfter, splitOn]
  | cons c t ih =>
    obtain ⟨hc, ht⟩ := not_or.1 (mt List.mem_cons.2 h)
    rw [List.cons_append, splitOnAfter, if_neg (Ne.symm hc), ih ht]
    simp

def rows (t : Text) : List Text := (splitOn '\n' t).dropLast

lemma rows_flatMap {rs : List Text} (h : ∀ row ∈ rs, '\n' ∉ row) :
    rows (rs.flatMap (· ++ ['\n'])) = rs := by
  have hsplit : splitOn '\n' (rs.flatMap (· ++ ['\n'])) = rs ++ [[]] := by
    induction rs with
    | nil => rfl
    | cons row rs ih =>
      obtain ⟨hrow, hrs⟩ := List.forall_mem_cons.1 h
      rw [List.flatMap_cons, List.append_assoc, List.singleton_append, splitOn,
        splitOnAfter_append hrow, ih hrs]
      rfl
  rw [rows, hsplit, List.dropLast_concat]

/-- What stands behind a beginning of the text. -/
def behind? : Text → Text → Option Text
  | [], t => some t
  | _ :: _, [] => none
  | c :: cs, d :: t => if c = d then behind? cs t else none

@[simp] lemma behind?_append (s t : Text) : behind? s (s ++ t) = some t := by
  induction s with
  | nil => simp [behind?]
  | cons c s ih => simpa [behind?] using ih

def number? (t : Text) : Option (Nat × Text) :=
  match t.takeWhile Char.isDigit with
  | [] => none
  | digits => some (Decimal.ofDigits digits, t.dropWhile Char.isDigit)

lemma number?_toDigits (n : Nat) {c : Char} (hc : c.isDigit = false) (rest : Text) :
    number? (Nat.toDigits 10 n ++ c :: rest) = some (n, c :: rest) := by
  have hdigits : (Nat.toDigits 10 n ++ c :: rest).takeWhile Char.isDigit = Nat.toDigits 10 n := by
    simp [List.takeWhile_append_of_pos (Json.isDigit_toDigits n), hc]
  have hbehind : (Nat.toDigits 10 n ++ c :: rest).dropWhile Char.isDigit = c :: rest := by
    simp [List.dropWhile_append_of_pos (Json.isDigit_toDigits n), hc]
  unfold number?
  rw [hdigits, hbehind]
  split
  · exact absurd ‹_› Nat.toDigits_ne_nil
  · rw [Decimal.ofDigits_toDigits]

end Text

namespace Diff

open Text

/-! ### Rows -/

namespace Line

def mark : Line → Char
  | kept _ => ' '
  | removed _ => '-'
  | added _ => '+'

def text : Line → Text
  | kept t => t
  | removed t => t
  | added t => t

/-- The line of a diff that a row shows, by its mark. -/
def ofRow? : Text → Option Line
  | ' ' :: t => some (kept t)
  | '-' :: t => some (removed t)
  | '+' :: t => some (added t)
  | _ => none

lemma ofRow?_row (l : Line) : ofRow? (l.mark :: l.text) = some l := by
  cases l <;> rfl

lemma toList_render (l : Line) : l.render.toList = (l.mark :: l.text) ++ ['\n'] := by
  cases l <;> simp [render, mark, text]

lemma lineFeed_not_mem_row {l : Line} (h : '\n' ∉ l.text) : '\n' ∉ l.mark :: l.text := by
  cases l <;> simpa [mark] using h

end Line

namespace Hunk

def header (h : Hunk) : Text :=
  ['@', '@', ' ', '-'] ++ (Nat.toDigits 10 (h.start + 1) ++ ',' :: (Nat.toDigits 10 h.oldCount ++
    ' ' :: '+' :: (Nat.toDigits 10 (h.start + 1) ++ ',' :: (Nat.toDigits 10 h.newCount ++
      [' ', '@', '@']))))

def rows (h : Hunk) : List Text := h.header :: h.lines.map fun l => l.mark :: l.text

/-- The hunk with a header, given its lines. -/
def ofHeader? (row : Text) (lines : List Line) : Option Hunk := do
  let (start, t) ← number? (← behind? ['@', '@', ' ', '-'] row)
  let (oldCount, t) ← number? (← behind? [','] t)
  let (start', t) ← number? (← behind? [' ', '+'] t)
  let (newCount, t) ← number? (← behind? [','] t)
  if t = [' ', '@', '@'] ∧ start' = start ∧ 0 < start then
    return ⟨start - 1, oldCount, newCount, lines⟩
  else none

lemma ofHeader?_header (h : Hunk) : ofHeader? h.header h.lines = some h := by
  have hcomma (n : Nat) (t : Text) := number?_toDigits n (c := ',') (by decide) t
  have hspace (n : Nat) (t : Text) := number?_toDigits n (c := ' ') (by decide) t
  simp [ofHeader?, header, behind?, hcomma, hspace]

lemma lineFeed_not_mem_header (h : Hunk) : '\n' ∉ h.header := by
  have hdigits : ∀ n : Nat, '\n' ∉ Nat.toDigits 10 n := fun n hn =>
    absurd (Json.isDigit_toDigits n _ hn) (by decide)
  simp [header, hdigits]

lemma toList_render (h : Hunk) : h.render.toList = h.rows.flatMap (· ++ ['\n']) := by
  -- Written out: unfolding the name would evaluate the texts that are joined.
  have hrender : h.render = "@@ -" ++ toString (h.start + 1) ++ "," ++ toString h.oldCount ++
      " +" ++ toString (h.start + 1) ++ "," ++ toString h.newCount ++ " @@\n" ++
      String.join (h.lines.map Line.render) := rfl
  simp [hrender, rows, header, String.toList_join, List.flatMap_map, Line.toList_render]

end Hunk

/-- The lines of a diff in front of the first header and the hunks behind. -/
def readRows : List Text → Option (List Line × List Hunk)
  | [] => some ([], [])
  | row :: rows => do
    let (lines, hunks) ← readRows rows
    match Line.ofRow? row with
    | some line => return (line :: lines, hunks)
    | none => return ([], (← Hunk.ofHeader? row lines) :: hunks)

/-- The rows that name the file in front of the hunks. -/
def title (path : String) : Text := ("--- a/" ++ path ++ "\n+++ b/" ++ path ++ "\n").toList

/-- The hunks of a printed diff; no text is no hunks. -/
def read? (path text : String) : Option (List Hunk) :=
  if text = "" then some [] else do
    let t ← behind? (title path) text.toList
    match ← readRows (Text.rows t) with
    | ([], hunks) => return hunks
    | _ => none

lemma readRows_lines (ls : List Line) {rows : List Text} {lines : List Line} {hunks : List Hunk}
    (h : readRows rows = some (lines, hunks)) :
    readRows (ls.map (fun l => l.mark :: l.text) ++ rows) = some (ls ++ lines, hunks) := by
  induction ls with
  | nil => exact h
  | cons l ls ih => simp [readRows, ih, Line.ofRow?_row]

lemma ofRow?_header (h : Hunk) : Line.ofRow? h.header = none := rfl

lemma readRows_rows (hs : List Hunk) : readRows (hs.flatMap Hunk.rows) = some ([], hs) := by
  induction hs with
  | nil => rfl
  | cons h hs ih =>
    rw [List.flatMap_cons, Hunk.rows, List.cons_append, readRows, readRows_lines h.lines ih]
    simp [ofRow?_header, Hunk.ofHeader?_header]

lemma toList_render (path : String) (h : Hunk) (hs : List Hunk) :
    (render path (h :: hs)).toList =
      title path ++ ((h :: hs).flatMap Hunk.rows).flatMap (· ++ ['\n']) := by
  simp [render, title, String.toList_join, List.flatMap_map, Hunk.toList_render, List.flatMap_assoc]

lemma render_eq_empty_iff (path : String) (hs : List Hunk) : render path hs = "" ↔ hs = [] := by
  cases hs with
  | nil => simp [render]
  | cons h hs => simp [← String.toList_inj, toList_render, title]

/-- **The hunks are read back** off a diff whose lines hold no line feeds. -/
lemma read?_render (path : String) {hs : List Hunk}
    (hlines : ∀ h ∈ hs, ∀ l ∈ h.lines, '\n' ∉ l.text) :
    read? path (render path hs) = some hs := by
  cases hs with
  | nil => rfl
  | cons h hs =>
    have hrows : ∀ row ∈ (h :: hs).flatMap Hunk.rows, '\n' ∉ row := by
      intro row hrow
      obtain ⟨h', hh', hrow⟩ := List.mem_flatMap.1 hrow
      obtain rfl | hrow := List.mem_cons.1 hrow
      · exact h'.lineFeed_not_mem_header
      · obtain ⟨l, hl, rfl⟩ := List.mem_map.1 hrow
        exact Line.lineFeed_not_mem_row (hlines h' hh' l hl)
    rw [read?, if_neg (by simp [render_eq_empty_iff]), toList_render, behind?_append]
    simp only [Option.bind_eq_bind, Option.bind_some, rows_flatMap hrows, readRows_rows,
      Option.pure_def]

end Diff

end BslLint
