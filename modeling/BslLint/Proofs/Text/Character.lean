import BslLint.Text.Blank
import BslLint.Text.Word
import Mathlib.Tactic.Common

/-!
Identifiers, and how the classes of characters exclude each other: white space is no part of an
identifier, trimming leaves an identifier alone, and a sign that stands before the letters in the
table of characters is the lowercase form of itself only.
-/

namespace BslLint.Text

/-- The text is an identifier: it is not empty, and all its characters may stand in one. -/
def IsName (t : Text) : Prop := t ≠ [] ∧ ∀ c ∈ t, isIdentifier c = true

-- The characters of the text are looked up, not all characters.
instance (t : Text) : Decidable t.IsName :=
  @instDecidableAnd _ _ _ (List.decidableBAll (fun c => isIdentifier c = true) t)

lemma isIdentifier_of_isBlank {c : Char} (h : isBlank c = true) : isIdentifier c = false := by
  -- The ranges of white space hold few code points, which are looked up one by one.
  have hall : ∀ r ∈ blankRanges, ∀ k ∈ List.range (r.2 - r.1 + 1),
      isIdentifier (Char.ofNat (r.1 + k)) = false := by decide +kernel
  obtain ⟨r, hr, hlo, hhi⟩ := exists_of_inRanges h
  have hc := hall r hr (c.toNat - r.1) (List.mem_range.2 (by omega))
  rwa [Nat.add_sub_cancel' hlo, Char.ofNat_toNat] at hc

lemma isIdentifier_of_isAlphabetic {c : Char} (h : isAlphabetic c = true) :
    isIdentifier c = true := by
  simp [isIdentifier, isAlphanumeric, h]

lemma isIdentifier_of_isDigit {c : Char} (h : c.isDigit = true) : isIdentifier c = true := by
  have hall : ∀ k ∈ List.range 10, isIdentifier (Char.ofNat (48 + k)) = true := by
    decide +kernel
  have hcode : 48 ≤ c.toNat ∧ c.toNat ≤ 57 := by
    simp only [Char.isDigit, Bool.and_eq_true, decide_eq_true_eq] at h
    exact h
  have hc := hall (c.toNat - 48) (List.mem_range.2 (by omega))
  rwa [Nat.add_sub_cancel' hcode.1, Char.ofNat_toNat] at hc

lemma not_isBlank_of_isIdentifier {c : Char} (h : isIdentifier c = true) : ¬ isBlank c = true := by
  intro hblank
  rw [isIdentifier_of_isBlank hblank] at h
  cases h

lemma dropWhile_isBlank {t : Text} (h : ∀ c ∈ t, isIdentifier c = true) :
    t.dropWhile isBlank = t := by
  cases t with
  | nil => rfl
  | cons c t => exact List.dropWhile_cons_of_neg (not_isBlank_of_isIdentifier (h c (by simp)))

lemma trim_of_isIdentifier {t : Text} (h : ∀ c ∈ t, isIdentifier c = true) : trim t = t := by
  have hreverse : ∀ c ∈ t.reverse, isIdentifier c = true := by simpa using h
  rw [trim, trimStart, dropWhile_isBlank h, trimEnd, dropWhile_isBlank hreverse,
    List.reverse_reverse]

/-! ### Lowercase forms -/

/-- A code point stays as it is, or goes to a small letter. -/
lemma lowerCode_eq_or_le {runs : List CaseRun} (h : ∀ r ∈ runs, 0x61 ≤ r.target) (n : Nat) :
    lowerCode n runs = n ∨ 0x61 ≤ lowerCode n runs := by
  induction runs with
  | nil => exact Or.inl rfl
  | cons r runs ih =>
    have hr := h r (by simp)
    rw [lowerCode]
    split
    · exact Or.inl rfl
    · split
      · exact Or.inr (by omega)
      · exact ih fun r' hr' => h r' (by simp [hr'])

lemma toNat_ofNat_eq {n : Nat} (h : 0 < (Char.ofNat n).toNat) : (Char.ofNat n).toNat = n := by
  by_cases hn : n.isValidChar
  · have heq : Char.ofNat n = Char.ofNatAux n hn := dif_pos hn
    rw [heq]
    rfl
  · have heq : Char.ofNat n = ⟨0, by decide⟩ := dif_neg hn
    rw [heq] at h
    cases h

/-- The code points whose lowercase form the table may give as the code point. -/
def sourceCodes (code : Nat) (runs : List CaseRun) : List Nat :=
  code :: (runs.filter fun r => r.target ≤ code ∧ code - r.target ≤ r.last - r.first).map
    fun r => r.first + (code - r.target)

lemma mem_sourceCodes {n code : Nat} {runs : List CaseRun} :
    n ∈ sourceCodes code runs ↔ n = code ∨ ∃ r ∈ runs,
      (r.target ≤ code ∧ code - r.target ≤ r.last - r.first) ∧
        r.first + (code - r.target) = n := by
  simp [sourceCodes, and_assoc]

lemma mem_sourceCodes_lowerCode (n : Nat) (runs : List CaseRun) :
    n ∈ sourceCodes (lowerCode n runs) runs := by
  rw [mem_sourceCodes]
  induction runs with
  | nil => exact Or.inl rfl
  | cons r runs ih =>
    rw [lowerCode]
    split
    · exact Or.inl rfl
    · split
      · rename_i hfirst hrun
        simp only [Bool.and_eq_true, decide_eq_true_eq] at hrun
        exact Or.inr ⟨r, List.mem_cons_self, by omega, by omega⟩
      · exact ih.imp_right fun ⟨r', hr', h⟩ => ⟨r', List.mem_cons_of_mem r hr', h⟩

/-- The characters that can have the same lowercase form as the given one. -/
def caseVariants (c : Char) : List Char :=
  (sourceCodes (lowerCode c.toNat caseRuns) caseRuns).map Char.ofNat

lemma mem_caseVariants {c d : Char} (hd : d.toNat ≠ 0x130)
    (hpos : 0 < (Char.ofNat (lowerCode d.toNat caseRuns)).toNat)
    (h : lowerChar c = lowerChar d) : c ∈ caseVariants d := by
  rw [lowerChar, lowerChar, if_neg hd] at h
  split at h
  · simp at h
  · have hform : Char.ofNat (lowerCode c.toNat caseRuns) =
        Char.ofNat (lowerCode d.toNat caseRuns) := by simpa using h
    have hcode : lowerCode c.toNat caseRuns = lowerCode d.toNat caseRuns := by
      rw [← toNat_ofNat_eq hpos, ← hform, toNat_ofNat_eq (hform ▸ hpos)]
    have hmem := mem_sourceCodes_lowerCode c.toNat caseRuns
    rw [hcode] at hmem
    exact List.mem_map.2 ⟨c.toNat, hmem, Char.ofNat_toNat c⟩

/-- A sign that stands before the letters in the table of characters is the lowercase form of no
other character. -/
lemma eq_of_head?_lowercase {c x : Char} {t : Text} (hpos : 0 < c.toNat) (hlt : c.toNat < 0x61)
    (h : (lowercase (x :: t)).head? = some c) : x = c := by
  rw [lowercase, lowercaseAfter] at h
  split at h
  · have hsigma : lowerSigma [] t = c := by simpa using h
    rw [← hsigma, lowerSigma] at hlt
    split at hlt <;> simp at hlt
  · rw [lowerChar] at h
    split at h
    · obtain rfl : 'i' = c := by simpa using h
      simp at hlt
    · obtain rfl : Char.ofNat (lowerCode x.toNat caseRuns) = c := by simpa using h
      have hcode := toNat_ofNat_eq hpos
      rw [hcode] at hlt
      have htarget : ∀ r ∈ caseRuns, 0x61 ≤ r.target := by decide +kernel
      rcases lowerCode_eq_or_le htarget x.toNat with heq | hle
      · rw [heq, Char.ofNat_toNat]
      · omega

lemma head?_lowercase {c : Char} (h : c.toNat < 0x41) (t : Text) :
    (lowercase (c :: t)).head? = some c := by
  have hsigma : c ≠ 'Σ' := by
    rintro rfl
    simp at h
  have hcode : lowerCode c.toNat caseRuns = c.toNat := if_pos h
  rw [lowercase, lowercaseAfter, if_neg hsigma, lowerChar, if_neg (by omega), hcode,
    Char.ofNat_toNat]
  rfl

lemma eq_of_sameName_cons {c x : Char} {s t : Text} (hpos : 0 < c.toNat) (hlt : c.toNat < 0x41)
    (h : sameName (c :: s) (x :: t) = true) : x = c := by
  have hlower : lowercase (c :: s) = lowercase (x :: t) := by simpa [sameName] using h
  have hhead : (lowercase (x :: t)).head? = some c := by rw [← hlower, head?_lowercase hlt]
  exact eq_of_head?_lowercase hpos (by omega) hhead

end BslLint.Text
