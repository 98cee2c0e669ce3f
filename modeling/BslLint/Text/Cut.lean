import BslLint.Outcome
import BslLint.Text.Basic

/-!
Cuts at offsets that were found in a text. To cut a text anywhere but at a boundary breaks the
computation off.
-/

namespace BslLint.Text

/-- The parts of a text around an offset, which must be a boundary. -/
def cut {ε : Type} (t : Text) (n : Nat) : Outcome ε (Text × Text) :=
  match splitAt? t n with
  | some parts => .ok parts
  | none => .abort .offBoundary

@[simp] theorem cut_append {ε : Type} (a b : Text) :
    (cut (a ++ b) (byteLength a) : Outcome ε (Text × Text)) = .ok (a, b) := by
  simp [cut]

def findOffset? (p : Char → Bool) : Text → Option Nat
  | [] => none
  | c :: t => if p c then some 0 else (findOffset? p t).map (c.utf8Size + ·)

/-- The length of a text up to the first character with a property. -/
def lengthUntil (p : Char → Bool) (t : Text) : Nat := (findOffset? p t).getD (byteLength t)

theorem lengthUntil_eq (p : Char → Bool) (t : Text) :
    lengthUntil p t = byteLength (t.takeWhile fun c => !p c) := by
  induction t with
  | nil => rfl
  | cons c t ih =>
    unfold lengthUntil at ih
    rw [lengthUntil, findOffset?]
    cases hc : p c with
    | true => simp [hc]
    | false =>
      rw [List.takeWhile_cons_of_pos (by simp [hc]), byteLength_cons, byteLength_cons, ← ih]
      cases findOffset? p t <;> rfl

theorem cut_lengthUntil {ε : Type} (p : Char → Bool) (t : Text) :
    (cut t (lengthUntil p t) : Outcome ε (Text × Text)) =
      .ok (t.takeWhile fun c => !p c, t.dropWhile fun c => !p c) := by
  have h := cut_append (ε := ε) (t.takeWhile fun c => !p c) (t.dropWhile fun c => !p c)
  rwa [List.takeWhile_append_dropWhile, ← lengthUntil_eq] at h

/-- The offset of the character with the given index, the end of the text if there is none. -/
def offsetOfIndex : Nat → Text → Nat
  | _, [] => 0
  | 0, _ :: _ => 0
  | index + 1, c :: t => c.utf8Size + offsetOfIndex index t

theorem offsetOfIndex_eq (index : Nat) (t : Text) :
    offsetOfIndex index t = byteLength (t.take index) := by
  fun_induction offsetOfIndex index t with
  | case1 => simp
  | case2 => rfl
  | case3 index c t ih => simp [ih]

/-- The offsets of the characters of the rest of a text, the rest itself starting at `pos`. -/
def offsetsFrom (pos : Nat) : Text → List Nat
  | [] => []
  | c :: t => pos :: offsetsFrom (pos + c.utf8Size) t

end BslLint.Text
