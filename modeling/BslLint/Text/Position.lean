import BslLint.Text.Basic

/-!
Rows and columns. Both count from one; a column counts characters, not bytes. An offset inside a
character counts as the start of that character, and one past the end as the end. The cuts that this
takes are made at boundaries and never fail.
-/

namespace BslLint

/-- A place in a text: row and character column, both counted from one. -/
structure Position where
  row : Nat
  column : Nat
deriving DecidableEq, Repr

namespace Text

def bytes (t : Text) : List UInt8 := t.flatMap String.utf8EncodeChar

def lineFeedByte : UInt8 := 10

/-- The row of a byte offset: one more than the line feeds among the bytes before it. -/
def rowAt (t : Text) (n : Nat) : Nat :=
  ((bytes t).take (min n (byteLength t))).count lineFeedByte + 1

/-- The last boundary at or before an offset. -/
def lastBoundary (t : Text) : Nat → Nat
  | 0 => 0
  | n + 1 => if isBoundary t (n + 1) then n + 1 else lastBoundary t n

theorem isBoundary_lastBoundary (t : Text) (n : Nat) : isBoundary t (lastBoundary t n) = true := by
  fun_induction lastBoundary t n with
  | case1 => simp [isBoundary]
  | case2 n h => exact h
  | case3 n h ih => exact ih

def lastOffset? (c : Char) : Text → Option Nat
  | [] => none
  | d :: t =>
    match lastOffset? c t with
    | some n => some (d.utf8Size + n)
    | none => if d = c then some 0 else none

def lineStart (t : Text) : Nat :=
  match lastOffset? '\n' t with
  | some n => n + 1
  | none => 0

theorem lastOffset?_eq_none {c : Char} {t : Text} (h : lastOffset? c t = none) : c ∉ t := by
  induction t with
  | nil => exact List.not_mem_nil
  | cons d t ih =>
    rw [lastOffset?] at h
    split at h
    · cases h
    case h_2 hrest =>
      split at h
      · cases h
      case isFalse hd => exact List.not_mem_cons_of_ne_of_not_mem (Ne.symm hd) (ih hrest)

theorem lastOffset?_eq_some {c : Char} {t : Text} {n : Nat} (h : lastOffset? c t = some n) :
    ∃ a b, t = a ++ c :: b ∧ byteLength a = n ∧ c ∉ b := by
  induction t generalizing n with
  | nil => cases h
  | cons d t ih =>
    rw [lastOffset?] at h
    split at h
    case h_1 k hk =>
      cases h
      obtain ⟨a, b, rfl, rfl, hb⟩ := ih hk
      exact ⟨d :: a, b, rfl, rfl, hb⟩
    case h_2 hrest =>
      split at h
      case isTrue hd =>
        cases h
        exact ⟨[], t, by rw [hd]; rfl, rfl, lastOffset?_eq_none hrest⟩
      · cases h

theorem exists_lineStart (t : Text) :
    ∃ a b, t = a ++ b ∧ byteLength a = lineStart t ∧ '\n' ∉ b ∧ ∀ c ∈ a.getLast?, c = '\n' := by
  unfold lineStart
  split
  case h_1 n h =>
    obtain ⟨a, b, rfl, rfl, hb⟩ := lastOffset?_eq_some h
    exact ⟨a ++ ['\n'], b, by simp, by simp; rfl, hb, by simp⟩
  case h_2 h => exact ⟨[], t, rfl, rfl, lastOffset?_eq_none h, by simp⟩

theorem isSome_take?_lastBoundary (t : Text) (n : Nat) :
    (take? t (lastBoundary t n)).isSome = true := by
  rw [take?, Option.isSome_map]
  exact isBoundary_lastBoundary t n

theorem isSome_drop?_lineStart (t : Text) : (drop? t (lineStart t)).isSome = true := by
  obtain ⟨a, b, hcut, hlength, -⟩ := exists_lineStart t
  rw [drop?, splitAt?_eq_some_iff.2 ⟨hcut, hlength⟩]
  rfl

/-- The text up to the last boundary at or before an offset. -/
def before (t : Text) (n : Nat) : Text :=
  (take? t (lastBoundary t (min n (byteLength t)))).get (isSome_take?_lastBoundary t _)

def lastLine (t : Text) : Text := (drop? t (lineStart t)).get (isSome_drop?_lineStart t)

def positionAt (t : Text) (n : Nat) : Position :=
  ⟨rowAt t (byteLength (before t n)), (lastLine (before t n)).length + 1⟩

end Text

end BslLint
