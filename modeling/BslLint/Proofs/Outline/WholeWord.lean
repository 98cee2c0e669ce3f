import BslLint.Proofs.Outline.Search
import BslLint.Proofs.Text.Word
import Mathlib.Order.Bounds.Basic

/-!
Whole words in a text, and the two searches for them.

An outline is placed by one search and the name of a call is found again by another one. Both stop
at the first place where the word stands as a whole word; only that the first one passes over what
belongs to a preprocessor instruction, a word behind a `#`. So the two agree exactly where the
second one does not stop behind a `#`.
-/

namespace BslLint

namespace Text

def charBefore? (t : Text) (p : Nat) : Option Char := (take? t p).bind List.getLast?

def charAt? (t : Text) (p : Nat) : Option Char := (drop? t p).bind List.head?

@[simp] lemma charBefore?_append (a b : Text) :
    charBefore? (a ++ b) (byteLength a) = a.getLast? := by simp [charBefore?]

@[simp] lemma charAt?_append (a b : Text) : charAt? (a ++ b) (byteLength a) = b.head? := by
  simp [charAt?]

/-- The word stands at an offset of the text: what begins there and has its length is the word up to
case, and neither neighbour is an identifier character. -/
structure WholeWordAt (t word : Text) (p : Nat) : Prop where
  same : ∃ m ∈ slice? t p (p + byteLength word), sameName m word = true
  before : endsWord (charBefore? t p) = true
  behind : endsWord (charAt? t (p + byteLength word)) = true

lemma wholeWordAt_iff {t word : Text} {p : Nat} :
    WholeWordAt t word p ↔ ∃ a rest, t = a ++ rest ∧ byteLength a = p ∧
      startsWithWord word a.getLast? rest = true := by
  constructor
  · rintro ⟨⟨m, hm, hname⟩, hbefore, hbehind⟩
    obtain ⟨a, b, rfl, rfl, hlength⟩ := slice?_eq_some_iff.1 hm
    rw [← hlength, ← byteLength_append, charAt?_append] at hbehind
    rw [List.append_assoc, charBefore?_append] at hbefore
    exact ⟨a, m ++ b, by simp, rfl,
      startsWithWord_iff.2 ⟨m, b, rfl, by omega, hname, hbefore, hbehind⟩⟩
  · rintro ⟨a, rest, rfl, rfl, hstart⟩
    obtain ⟨m, b, rfl, hlength, hname, hbefore, hbehind⟩ := startsWithWord_iff.1 hstart
    refine ⟨⟨m, slice?_eq_some_iff.2 ⟨a, b, by simp, rfl, by omega⟩, hname⟩, by simpa, ?_⟩
    rwa [← hlength, ← byteLength_append, ← List.append_assoc, charAt?_append]

instance (t word : Text) (p : Nat) : Decidable (WholeWordAt t word p) :=
  decidable_of_iff (((slice? t p (p + byteLength word)).any (sameName · word) = true) ∧
      endsWord (charBefore? t p) = true ∧ endsWord (charAt? t (p + byteLength word)) = true)
    ⟨fun ⟨h, hbefore, hbehind⟩ => ⟨(Option.any_eq_true _ _).1 h, hbefore, hbehind⟩,
      fun ⟨h, hbefore, hbehind⟩ => ⟨(Option.any_eq_true _ _).2 h, hbefore, hbehind⟩⟩

lemma ne_nil_of_startsWithWord {word rest : Text} {before : Option Char} (hword : word ≠ [])
    (h : startsWithWord word before rest = true) : rest ≠ [] := by
  rintro rfl
  obtain ⟨m, b, hnil, hlength, -⟩ := startsWithWord_iff.1 h
  rw [(List.append_eq_nil_iff.1 hnil.symm).1, byteLength_nil] at hlength
  exact hword (byteLength_eq_zero_iff.1 hlength.symm)

lemma WholeWordAt.le_byteLength {t word : Text} {p : Nat} (h : WholeWordAt t word p) :
    p ≤ byteLength t := by
  obtain ⟨a, rest, rfl, rfl, -⟩ := wholeWordAt_iff.1 h
  rw [byteLength_append]
  exact Nat.le_add_right _ _

/-! ### First places -/

lemma eq_some_iff_isLeast {found : Option Nat} {valid : Prop} {places : Set Nat}
    (hmem : ∀ n ∈ found, valid ∧ n ∈ places)
    (hle : valid → ∀ p ∈ places, ∃ n ∈ found, n ≤ p) {n : Nat} :
    found = some n ↔ valid ∧ IsLeast places n := by
  constructor
  · intro h
    obtain ⟨hvalid, hn⟩ := hmem n h
    refine ⟨hvalid, hn, fun p hp => ?_⟩
    obtain ⟨n', hn', hle'⟩ := hle hvalid p hp
    obtain rfl := Option.some.inj (h.symm.trans hn')
    exact hle'
  · rintro ⟨hvalid, hn, hleast⟩
    obtain ⟨n', hn', hle'⟩ := hle hvalid n hn
    obtain rfl := Nat.le_antisymm hle' (hleast (hmem n' hn').2)
    exact hn'

section

variable {t word : Text} {start n p : Nat}

lemma wholeWordAt_of_findWord? (h : findWord? t word start = some n) :
    isBoundary t start = true ∧ start ≤ n ∧ WholeWordAt t word n := by
  obtain ⟨⟨front, rest⟩, hcut, hfind⟩ := Option.bind_eq_some_iff.1 h
  obtain ⟨rfl, rfl⟩ := splitAt?_eq_some_iff.1 hcut
  obtain ⟨a, rest, rfl, rfl, hstart⟩ := exists_of_findWordFrom hfind
  refine ⟨isBoundary_iff.2 ⟨front, a ++ rest, rfl, rfl⟩, Nat.le_add_right _ _,
    wholeWordAt_iff.2 ⟨front ++ a, rest, by simp, by simp, ?_⟩⟩
  rwa [List.getLast?_append]

lemma exists_findWord?_le (hword : word ≠ []) (hstart : isBoundary t start = true)
    (hle : start ≤ p) (h : WholeWordAt t word p) : ∃ n ∈ findWord? t word start, n ≤ p := by
  obtain ⟨c, rest, rfl, rfl, hmatch⟩ := wholeWordAt_iff.1 h
  obtain ⟨front, _, hcut, rfl⟩ := isBoundary_iff.1 hstart
  obtain ⟨a, rfl, -⟩ := exists_between hcut.symm hle
  exact exists_findWord? (ne_nil_of_startsWithWord hword hmatch) hmatch

/-- **The search for a name** stops at the first place where the word stands. -/
lemma findWord?_eq_some_iff (hword : word ≠ []) :
    findWord? t word start = some n ↔
      isBoundary t start = true ∧ IsLeast {p | start ≤ p ∧ WholeWordAt t word p} n :=
  eq_some_iff_isLeast (fun _ hn => wholeWordAt_of_findWord? hn)
    fun hstart _ hp => exists_findWord?_le hword hstart hp.1 hp.2

lemma findWord?_eq_none_iff (hword : word ≠ []) :
    findWord? t word start = none ↔
      isBoundary t start = false ∨ ∀ p, start ≤ p → ¬WholeWordAt t word p := by
  constructor
  · intro hnone
    by_contra hsome
    simp only [not_or, not_forall, not_not, Bool.not_eq_false] at hsome
    obtain ⟨hstart, p, hle, hat⟩ := hsome
    obtain ⟨n, hn, -⟩ := exists_findWord?_le hword hstart hle hat
    rw [hnone] at hn
    cases hn
  · intro hnone
    refine Option.eq_none_iff_forall_not_mem.2 fun n hn => ?_
    obtain ⟨hstart, hle, hat⟩ := wholeWordAt_of_findWord? hn
    rcases hnone with hstart' | hnone
    · rw [hstart] at hstart'
      cases hstart'
    · exact hnone n hle hat

end

end Text

namespace Outline

open Text

variable {source word : Text} {start p : Nat} {s : Span}

/-- A place that belongs to no preprocessor instruction, unless the word does. -/
def Admits (source word : Text) (p : Nat) : Prop :=
  charBefore? source p = some '#' → word.head? = some '#'

lemma matchesWord_iff_startsWithWord {t : Text} {before : Option Char} :
    matchesWord word before t = true ↔
      startsWithWord word before t = true ∧ (before = some '#' → word.head? = some '#') := by
  rw [matchesWord_iff, startsWithWord_iff]
  constructor
  · rintro ⟨m, rest, rfl, hlength, hname, hstart, hends⟩
    obtain ⟨hbefore, hhash⟩ := startsWord_iff.1 hstart
    exact ⟨⟨m, rest, rfl, hlength, hname, hbefore, hends⟩, hhash⟩
  · rintro ⟨⟨m, rest, rfl, hlength, hname, hbefore, hends⟩, hhash⟩
    exact ⟨m, rest, rfl, hlength, hname, startsWord_iff.2 ⟨hbefore, hhash⟩, hends⟩

lemma wholeWordAt_of_search (h : search source [word] start = some s) :
    s.length = byteLength word ∧ isBoundary source start = true ∧ start ≤ s.offset ∧
      WholeWordAt source word s.offset ∧ Admits source word s.offset := by
  obtain ⟨⟨front, rest⟩, hcut, hfrom⟩ := Option.bind_eq_some_iff.1 h
  obtain ⟨rfl, rfl⟩ := splitAt?_eq_some_iff.1 hcut
  obtain ⟨_, hmem, a, rest, rfl, rfl, hmatch⟩ := exists_of_searchFrom hfrom
  obtain rfl := List.mem_singleton.1 hmem
  rw [← List.getLast?_append, matchesWord_iff_startsWithWord] at hmatch
  refine ⟨rfl, isBoundary_iff.2 ⟨front, a ++ rest, rfl, rfl⟩, Nat.le_add_right _ _,
    wholeWordAt_iff.2 ⟨front ++ a, rest, by simp, by simp, hmatch.1⟩, ?_⟩
  rw [Admits, ← List.append_assoc, ← byteLength_append, charBefore?_append]
  exact hmatch.2

lemma exists_search_le (hword : word ≠ []) (hstart : isBoundary source start = true)
    (hle : start ≤ p) (hat : WholeWordAt source word p) (hadmits : Admits source word p) :
    ∃ s ∈ search source [word] start, s.offset ≤ p := by
  obtain ⟨c, rest, rfl, rfl, hmatch⟩ := wholeWordAt_iff.1 hat
  obtain ⟨front, _, hcut, rfl⟩ := isBoundary_iff.1 hstart
  obtain ⟨a, rfl, -⟩ := exists_between hcut.symm hle
  rw [Admits, charBefore?_append] at hadmits
  have hfirst := matchesWord_iff_startsWithWord.2 ⟨hmatch, hadmits⟩
  rw [List.getLast?_append] at hfirst
  obtain ⟨s, hs, hsle⟩ := exists_searchFrom (List.mem_singleton_self word)
    (ne_nil_of_startsWithWord hword hmatch) hfirst (byteLength front)
  refine ⟨s, ?_, by rwa [byteLength_append]⟩
  rw [Option.mem_def, search, List.append_assoc, splitAt?_append, Option.bind_some]
  exact hs

/-- **The search of an outline** stops at the first place where the word stands and that is not
behind a `#`, unless the word has a `#` of its own. -/
lemma search_eq_some_iff (hword : word ≠ []) :
    search source [word] start = some s ↔ s.length = byteLength word ∧
      isBoundary source start = true ∧
      IsLeast {p | start ≤ p ∧ WholeWordAt source word p ∧ Admits source word p} s.offset := by
  have hoffset : (search source [word] start).map Span.offset = some s.offset ↔
      isBoundary source start = true ∧
        IsLeast {p | start ≤ p ∧ WholeWordAt source word p ∧ Admits source word p} s.offset :=
    eq_some_iff_isLeast (by simpa using fun s hs => (wholeWordAt_of_search hs).2)
      fun hstart p hp => by simpa using exists_search_le hword hstart hp.1 hp.2.1 hp.2.2
  rw [← hoffset, Option.map_eq_some_iff]
  constructor
  · intro h
    exact ⟨(wholeWordAt_of_search h).1, s, h, rfl⟩
  · rintro ⟨hlength, s', hs', hsame⟩
    obtain ⟨offset, length⟩ := s
    obtain ⟨offset', length'⟩ := s'
    obtain rfl : offset' = offset := hsame
    obtain rfl : length' = length := (wholeWordAt_of_search hs').1.trans hlength.symm
    exact hs'

lemma search_eq_map_findWord?_iff (hword : word ≠ []) (hhash : word.head? ≠ some '#') :
    search source [word] start =
        (findWord? source word start).map (fun p => ⟨p, byteLength word⟩) ↔
      ∀ p ∈ findWord? source word start, charBefore? source p ≠ some '#' := by
  constructor
  · intro hsame p hp hbefore
    rw [hp, Option.map_some] at hsame
    obtain ⟨-, -, -, -, hadmits⟩ := wholeWordAt_of_search hsame
    exact hhash (hadmits hbefore)
  · intro hclear
    cases hfind : findWord? source word start with
    | none =>
      refine Option.eq_none_iff_forall_not_mem.2 fun s hs => ?_
      obtain ⟨-, hstart, hle, hat, -⟩ := wholeWordAt_of_search hs
      obtain ⟨n, hn, -⟩ := exists_findWord?_le hword hstart hle hat
      rw [hfind] at hn
      cases hn
    | some p =>
      obtain ⟨hstart, ⟨hle, hat⟩, hleast⟩ := (findWord?_eq_some_iff hword).1 hfind
      have hadmits : Admits source word p := fun hbefore => absurd hbefore (hclear p hfind)
      exact (search_eq_some_iff hword).2
        ⟨rfl, hstart, ⟨hle, hat, hadmits⟩, fun q hq => hleast ⟨hq.1, hq.2.1⟩⟩

/-- **The two searches agree.** Take a word that is not empty and does not begin with a `#`, and an
offset behind which it never stands directly behind a `#`. Then both searches stop at the same
place, the least one at or after the offset where the word stands as a whole word, and the first one
also gives its length; and both find nothing exactly if there is no such place or the offset is no
boundary of the text. -/
theorem whole_word_searches_agree (source word : Text) (start : Nat) (hword : word ≠ [])
    (hhash : word.head? ≠ some '#')
    (hclear : ∀ p, start ≤ p → WholeWordAt source word p → charBefore? source p ≠ some '#') :
    search source [word] start =
        (findWord? source word start).map (fun p => ⟨p, byteLength word⟩) ∧
      (∀ p, findWord? source word start = some p ↔
        isBoundary source start = true ∧ IsLeast {p | start ≤ p ∧ WholeWordAt source word p} p) ∧
      (findWord? source word start = none ↔
        isBoundary source start = false ∨ ∀ p, start ≤ p → ¬WholeWordAt source word p) := by
  refine ⟨(search_eq_map_findWord?_iff hword hhash).2 fun p hp => ?_,
    fun p => findWord?_eq_some_iff hword, findWord?_eq_none_iff hword⟩
  obtain ⟨-, hle, hat⟩ := wholeWordAt_of_findWord? hp
  exact hclear p hle hat

/-- The word stands behind a `#`, but in front of the offset; then in a longer word; and then with
capital letters, three bytes for one and twice two bytes for three. -/
theorem whole_word_searches_agree_capitals :
    let source := "#kⱥⱥ kⱥⱥs \u212AȺȺ".toList
    let word := "kⱥⱥ".toList
    word ≠ [] ∧ word.head? ≠ some '#' ∧
      (∀ p, 2 ≤ p → WholeWordAt source word p → charBefore? source p ≠ some '#') ∧
      search source [word] 2 = some ⟨18, 7⟩ ∧ findWord? source word 2 = some 18 ∧
      IsLeast {p | 2 ≤ p ∧ WholeWordAt source word p} 18 := by
  intro source word
  have hclear (p : Nat) (hle : 2 ≤ p) (hat : WholeWordAt source word p) :
      charBefore? source p ≠ some '#' := by
    have hlt : p < 26 := Nat.lt_succ_of_le hat.le_byteLength
    have hplaces : ∀ p < 26, 2 ≤ p → WholeWordAt source word p →
        charBefore? source p ≠ some '#' := by decide +kernel
    exact hplaces p hlt hle hat
  obtain ⟨hsame, hfound, -⟩ :=
    whole_word_searches_agree source word 2 (by decide) (by decide) hclear
  have hfind : findWord? source word 2 = some 18 := by decide +kernel
  refine ⟨by decide, by decide, hclear, ?_, hfind, ((hfound 18).1 hfind).2⟩
  rw [hsame, hfind]
  rfl

end Outline

end BslLint
