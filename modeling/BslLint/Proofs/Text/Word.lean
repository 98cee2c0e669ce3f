import BslLint.Text.Word
import BslLint.Proofs.Text.Slice

/-!
What the search for a whole word finds: a place where the text has a slice of the length of the
word that is the word up to case and that stands apart from its neighbours.
-/

namespace BslLint.Text

lemma startsWithWord_iff {word t : Text} {before : Option Char} :
    startsWithWord word before t = true ↔
      ∃ m rest, t = m ++ rest ∧ byteLength m = byteLength word ∧ sameName m word = true ∧
        endsWord before = true ∧ endsWord rest.head? = true := by
  unfold startsWithWord
  constructor
  · intro h
    split at h
    · simp at h
    · rename_i m rest hcut
      obtain ⟨ht, hm⟩ := splitAt?_eq_some_iff.1 hcut
      simp only [Bool.and_eq_true, and_assoc] at h
      exact ⟨m, rest, ht, hm, h⟩
  · rintro ⟨m, rest, rfl, hm, h⟩
    rw [← hm, splitAt?_append]
    simpa [and_assoc] using h

lemma exists_of_findWordFrom {word t : Text} {before : Option Char} {pos n : Nat}
    (h : findWordFrom word before pos t = some n) :
    ∃ a rest, t = a ++ rest ∧ pos + byteLength a = n ∧
      startsWithWord word (a.getLast?.or before) rest = true := by
  induction t generalizing before pos with
  | nil => simp [findWordFrom] at h
  | cons c t ih =>
    rw [findWordFrom] at h
    split at h
    · rename_i hstart
      cases h
      exact ⟨[], c :: t, rfl, rfl, hstart⟩
    · obtain ⟨a, rest, rfl, hn, hstart⟩ := ih h
      refine ⟨c :: a, rest, rfl, by simp only [byteLength_cons]; omega, ?_⟩
      rwa [getLast?_cons_or]

/-- **The found word** is a slice of the text. -/
lemma exists_of_findWord? {t word : Text} {start n : Nat} (h : findWord? t word start = some n) :
    ∃ a m b, t = a ++ m ++ b ∧ byteLength a = n ∧ byteLength m = byteLength word ∧
      sameName m word = true ∧ endsWord a.getLast? = true ∧ endsWord b.head? = true := by
  obtain ⟨⟨front, rest⟩, hcut, hfind⟩ := Option.bind_eq_some_iff.1 h
  obtain ⟨rfl, hfront⟩ := splitAt?_eq_some_iff.1 hcut
  obtain ⟨a, rest, rfl, hn, hstart⟩ := exists_of_findWordFrom hfind
  obtain ⟨m, b, rfl, hm, hname, hbefore, hafter⟩ := startsWithWord_iff.1 hstart
  refine ⟨front ++ a, m, b, by simp, by simp [hfront, hn], hm, hname, ?_, hafter⟩
  rwa [List.getLast?_append]

/-! ### Where the search ends at the latest -/

lemma exists_findWordFrom {word a rest : Text} {before : Option Char} (hrest : rest ≠ [])
    (h : startsWithWord word (a.getLast?.or before) rest = true) (pos : Nat) :
    ∃ n, findWordFrom word before pos (a ++ rest) = some n ∧ n ≤ pos + byteLength a := by
  induction a generalizing before pos with
  | nil =>
    obtain ⟨c, rest, rfl⟩ := List.exists_cons_of_ne_nil hrest
    exact ⟨pos, if_pos h, Nat.le_refl _⟩
  | cons c a ih =>
    rw [List.cons_append, findWordFrom]
    split
    · exact ⟨pos, rfl, Nat.le_add_right _ _⟩
    · have hnext : startsWithWord word (a.getLast?.or (some c)) rest = true := by
        rwa [getLast?_cons_or] at h
      obtain ⟨n, hn, hle⟩ := ih hnext (pos + c.utf8Size)
      exact ⟨n, hn, by rwa [byteLength_cons, ← Nat.add_assoc]⟩

/-- **A word that is there is found**, or another occurrence in front of it. -/
lemma exists_findWord? {word front a rest : Text} (hrest : rest ≠ [])
    (h : startsWithWord word (front ++ a).getLast? rest = true) :
    ∃ n, findWord? (front ++ a ++ rest) word (byteLength front) = some n ∧
      n ≤ byteLength (front ++ a) := by
  rw [List.getLast?_append] at h
  rw [findWord?, List.append_assoc, splitAt?_append, Option.bind_some, byteLength_append]
  exact exists_findWordFrom hrest h _

end BslLint.Text
