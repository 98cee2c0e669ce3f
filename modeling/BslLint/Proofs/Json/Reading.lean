import BslLint.Json.Reader
import BslLint.Json.Writer
import BslLint.Outcome
import Mathlib.Data.List.DropRight
import Mathlib.Tactic.Common

/-!
What the reader makes of a written text, whatever white space stands between the tokens.

`Json.Written` says which texts write a value; numbers are written without a fraction, and strings
as the writer quotes them. The reader takes the value and stops behind it, at white space, a comma,
a closing bracket or the end (`Json.Ended`); a number would not stop before anything else. No
character is read twice, so that the length of the text is a bound on the steps of the reader, by
which the induction goes.
-/

namespace BslLint

namespace Json

/-! ### Strings -/

lemma hex4?_hexChar : ∀ n < 0x20, hex4? '0' '0' (hexChar (n / 16)) (hexChar (n % 16)) = some n := by
  decide

lemma escapeChar_cases (c : Char) :
    (escapeChar c = [c] ∧ c ≠ '"' ∧ c ≠ '\\' ∧ ¬c.toNat < 0x20) ∨
      (∃ x, escapeChar c = ['\\', x] ∧ x ≠ 'u' ∧ escaped? x = some c) ∨
      (escapeChar c = ['\\', 'u', '0', '0', hexChar (c.toNat / 16), hexChar (c.toNat % 16)] ∧
        c.toNat < 0x20) := by
  unfold escapeChar
  split
  case h_8 =>
    split
    · exact Or.inr (Or.inr ⟨rfl, ‹_›⟩)
    · exact Or.inl ⟨rfl, by assumption, by assumption, by assumption⟩
  all_goals simp [escaped?]

lemma readChars_plain {strict : Bool} {acc rest : Text} {c : Char} (hquote : c ≠ '"')
    (hslash : c ≠ '\\') (hcontrol : ¬c.toNat < 0x20) :
    readChars strict acc (c :: rest) = readChars strict (c :: acc) rest := by
  rw [readChars]
  · rw [if_neg hcontrol]
  all_goals simp_all

lemma readChars_escaped {strict : Bool} {acc rest : Text} {x c : Char} (hx : x ≠ 'u')
    (hc : escaped? x = some c) :
    readChars strict acc ('\\' :: x :: rest) = readChars strict (c :: acc) rest := by
  rw [readChars]
  · rw [hc]
  all_goals simp_all

/-- Behind an escape by a number another one may follow; then the two are looked at together, and
the second must be one as well. -/
def Resumes (t : Text) : Prop :=
  ∀ a b c d rest, t = '\\' :: 'u' :: a :: b :: c :: d :: rest → ∃ n, hex4? a b c d = some n

lemma readChars_numbered {strict : Bool} {acc rest : Text} {a b c d : Char} {n : Nat}
    (hn : hex4? a b c d = some n) (hcontrol : n < 0x20) (hrest : Resumes rest) :
    readChars strict acc ('\\' :: 'u' :: a :: b :: c :: d :: rest) =
      readChars strict (Char.ofNat n :: acc) rest := by
  have hhigh : isHighSurrogate n = false := by
    simp only [isHighSurrogate, Bool.and_eq_false_iff, decide_eq_false_iff_not]
    omega
  have hlow : isLowSurrogate n = false := by
    simp only [isLowSurrogate, Bool.and_eq_false_iff, decide_eq_false_iff_not]
    omega
  by_cases hpair : ∃ e f g h tail, rest = '\\' :: 'u' :: e :: f :: g :: h :: tail
  · obtain ⟨e, f, g, h, tail, rfl⟩ := hpair
    obtain ⟨m, hm⟩ := hrest e f g h tail rfl
    rw [readChars]
    simp [hn, hm, hhigh, hlow]
  · rw [readChars]
    · simp [hn, hhigh, hlow]
    · rintro e f g h tail rfl
      exact hpair ⟨e, f, g, h, tail, rfl⟩

lemma resumes_escaped (s rest : Text) : Resumes (s.flatMap escapeChar ++ '"' :: rest) := by
  intro a b c d tail h
  cases s with
  | nil => simp at h
  | cons x s =>
    rw [List.flatMap_cons] at h
    rcases escapeChar_cases x with ⟨hx, -, hslash, -⟩ | ⟨y, hx, hy, -⟩ | ⟨hx, hcontrol⟩
    · simp [hx, hslash] at h
    · simp [hx, hy] at h
    · simp only [hx, List.cons_append, List.nil_append, List.cons.injEq, true_and] at h
      obtain ⟨rfl, rfl, rfl, rfl, -⟩ := h
      exact ⟨_, hex4?_hexChar _ hcontrol⟩

/-- **A string is read back** up to its closing quote. -/
theorem readChars_escape (strict : Bool) (acc s rest : Text) :
    readChars strict acc (s.flatMap escapeChar ++ '"' :: rest) = some (acc.reverse ++ s, rest) := by
  induction s generalizing acc with
  | nil =>
    rw [List.flatMap_nil, List.nil_append, readChars, List.append_nil]
  | cons c s ih =>
    -- What follows a character matters only behind an escape by its number.
    have hrest := resumes_escaped s rest
    rw [List.flatMap_cons, List.append_assoc]
    have hstep : readChars strict acc (escapeChar c ++ (s.flatMap escapeChar ++ '"' :: rest)) =
        readChars strict (c :: acc) (s.flatMap escapeChar ++ '"' :: rest) := by
      rcases escapeChar_cases c with ⟨hc, hquote, hslash, hcontrol⟩ | ⟨x, hc, hx, hescaped⟩ |
        ⟨hc, hcontrol⟩
      · rw [hc]
        exact readChars_plain hquote hslash hcontrol
      · rw [hc]
        exact readChars_escaped hx hescaped
      · rw [hc]
        exact (readChars_numbered (hex4?_hexChar _ hcontrol) hcontrol hrest).trans
          (by rw [Char.ofNat_toNat])
    rw [hstep, ih, List.reverse_cons, List.append_assoc, List.singleton_append]

/-! ### Numbers -/

/-- What stands behind a value: nothing, white space, a comma or a closing bracket. -/
def Ended (t : Text) : Prop := ∀ c ∈ t.head?, isGap c = true ∨ c = ',' ∨ c = ']' ∨ c = '}'

lemma ended_cons {c : Char} (h : isGap c = true ∨ c = ',' ∨ c = ']' ∨ c = '}') (rest : Text) :
    Ended (c :: rest) := by
  rintro _ ⟨⟩
  exact h

lemma eq_of_isGap {c : Char} (h : isGap c = true) : c = ' ' ∨ c = '\t' ∨ c = '\n' ∨ c = '\r' := by
  simpa [isGap, or_assoc] using h

lemma Ended.cases {t : Text} (h : Ended t) :
    t = [] ∨ ∃ c rest, t = c :: rest ∧ c.isDigit = false ∧ c ≠ '.' ∧ c ≠ 'e' ∧ c ≠ 'E' := by
  cases t with
  | nil => exact Or.inl rfl
  | cons c rest =>
    refine Or.inr ⟨c, rest, rfl, ?_⟩
    rcases h c rfl with hgap | rfl | rfl | rfl
    · rcases eq_of_isGap hgap with rfl | rfl | rfl | rfl <;> decide
    all_goals decide

lemma Ended.takeWhile_isDigit {t : Text} (h : Ended t) : t.takeWhile Char.isDigit = [] := by
  rcases h.cases with rfl | ⟨c, rest, rfl, hdigit, -⟩
  · rfl
  · simp [hdigit]

lemma Ended.dropWhile_isDigit {t : Text} (h : Ended t) : t.dropWhile Char.isDigit = t := by
  rcases h.cases with rfl | ⟨c, rest, rfl, hdigit, -⟩
  · rfl
  · simp [hdigit]

lemma Ended.readFraction_eq {t : Text} (h : Ended t) : readFraction t = some ([], t) := by
  rcases h.cases with rfl | ⟨c, rest, rfl, -, hpoint, -⟩
  · rfl
  · unfold readFraction
    split
    · rename_i heq
      exact absurd (List.cons.inj heq).1 hpoint
    · rfl

lemma Ended.readExponent_eq {t : Text} (h : Ended t) : readExponent t = some (none, t) := by
  rcases h.cases with rfl | ⟨c, rest, rfl, -, -, hsmall, hlarge⟩
  · rfl
  · simp [readExponent, hsmall, hlarge]

end Json

namespace Decimal

lemma ofDigits_toDigits (n : Nat) : ofDigits (Nat.toDigits 10 n) = n := by
  have h := Nat.ofDigitChars_toDigits (b := 10) (n := n) (by omega) (by omega)
  rw [Nat.ofDigitChars_eq_foldl] at h
  simpa only [ofDigits, Nat.mul_comm] using h

lemma le_foldl_digits (digits : Text) (n : Nat) :
    n ≤ digits.foldl (fun n c => n * 10 + (c.toNat - '0'.toNat)) n := by
  induction digits generalizing n with
  | nil => exact Nat.le_refl _
  | cons c digits ih =>
    rw [List.foldl_cons]
    have h := ih (n * 10 + (c.toNat - '0'.toNat))
    omega

lemma extend_eq {digits : Text} {n : Nat}
    (h : digits.foldl (fun n c => n * 10 + (c.toNat - '0'.toNat)) n < 18446744073709551616) :
    extend n digits = (digits.foldl (fun n c => n * 10 + (c.toNat - '0'.toNat)) n, []) := by
  induction digits generalizing n with
  | nil => rfl
  | cons c digits ih =>
    rw [List.foldl_cons] at h ⊢
    have hle := le_foldl_digits digits (n * 10 + (c.toNat - '0'.toNat))
    rw [extend, if_pos (Nat.lt_of_le_of_lt hle h), ih h]

lemma scalesWhenCut_natural {digits : Text} (h : ofDigits digits < offsetLimit) :
    scalesWhenCut ⟨digits, [], 0, 0⟩ = true := by
  unfold scalesWhenCut
  rw [extend_eq h]
  simp [extend, scalesToDouble]

end Decimal

namespace Json

lemma head?_toDigits_ne {n : Nat} (h : n ≠ 0) : (Nat.toDigits 10 n).head? ≠ some '0' := by
  induction n using Nat.strongRecOn with
  | ind n ih =>
    rw [Nat.toDigits_eq_if (by omega)]
    split
    · rename_i hlt
      have hdigit : ∀ n < 10, n ≠ 0 → n.digitChar ≠ '0' := by decide
      simpa using hdigit n hlt h
    · have hfront : (Nat.toDigits 10 (n / 10)).head? ≠ some '0' := ih (n / 10) (by omega) (by omega)
      cases hdigits : Nat.toDigits 10 (n / 10) with
      | nil => exact absurd hdigits Nat.toDigits_ne_nil
      | cons c digits =>
        rw [hdigits] at hfront
        simpa using hfront

lemma isDigit_toDigits (n : Nat) : ∀ c ∈ Nat.toDigits 10 n, c.isDigit = true :=
  fun _ => Nat.isDigit_of_mem_toDigits (by omega) (by omega)

/-- **A number is read back** in front of anything that a value may stand before. -/
theorem readNumber_toDigits {strict : Bool} {n : Nat} (hn : strict = true → n < offsetLimit)
    {rest : Text} (hrest : Ended rest) :
    readNumber strict (Nat.toDigits 10 n ++ rest) = some (.natural n, rest) := by
  have hdigits : (Nat.toDigits 10 n ++ rest).takeWhile Char.isDigit = Nat.toDigits 10 n := by
    rw [List.takeWhile_append_of_pos (isDigit_toDigits n), hrest.takeWhile_isDigit,
      List.append_nil]
  have hbehind : (Nat.toDigits 10 n ++ rest).dropWhile Char.isDigit = rest := by
    rw [List.dropWhile_append_of_pos (isDigit_toDigits n), hrest.dropWhile_isDigit]
  have hsign : ∀ t : Text, Nat.toDigits 10 n ++ rest ≠ '-' :: t := by
    intro t h
    rw [h] at hdigits
    exact Nat.toDigits_ne_nil (hdigits.symm.trans (by simp))
  have hzero : ((Nat.toDigits 10 n).isEmpty ||
      ((Nat.toDigits 10 n).head? == some '0' && 1 < (Nat.toDigits 10 n).length)) = false := by
    by_cases hn0 : n = 0
    · simp [hn0]
    · simp [head?_toDigits_ne hn0]
  have hscales : (strict && !Decimal.scalesWhenCut ⟨Nat.toDigits 10 n, [], 0, 0⟩) = false := by
    cases strict with
    | false => rfl
    | true => simp [Decimal.scalesWhenCut_natural ((Decimal.ofDigits_toDigits n).symm ▸ hn rfl)]
  unfold readNumber
  split
  rename_i hunsigned
  split at hunsigned
  · exact absurd ‹_› (hsign _)
  · cases hunsigned
    simp only [hdigits, hbehind, hzero, hrest.readFraction_eq, hrest.readExponent_eq,
      Option.bind_eq_bind, Option.bind_some, hscales]
    simp [Decimal.ofDigits_toDigits]

/-! ### White space -/

/-- White space between tokens. -/
def Gap (g : Text) : Prop := ∀ c ∈ g, isGap c = true

lemma gap_nil : Gap [] := fun _ h => absurd h List.not_mem_nil

lemma gap_cons {c : Char} {g : Text} (hc : isGap c = true) (hg : Gap g) : Gap (c :: g) :=
  List.forall_mem_cons.2 ⟨hc, hg⟩

lemma gap_append {g g' : Text} (hg : Gap g) (hg' : Gap g') : Gap (g ++ g') :=
  List.forall_mem_append.2 ⟨hg, hg'⟩

lemma skipGaps_cons {c : Char} (h : isGap c = false) (t : Text) : skipGaps (c :: t) = c :: t := by
  simp [skipGaps, h]

lemma skipGaps_append {g : Text} (hg : Gap g) (t : Text) : skipGaps (g ++ t) = skipGaps t :=
  List.dropWhile_append_of_pos hg

lemma skipGaps_skipGaps (t : Text) : skipGaps (skipGaps t) = skipGaps t :=
  List.dropWhile_idempotent ..

lemma Ended.of_gap {g rest : Text} (hg : Gap g) (hrest : Ended rest) : Ended (g ++ rest) := by
  cases g with
  | nil => exact hrest
  | cons c g => exact ended_cons (Or.inl (hg c List.mem_cons_self)) _

lemma readKey_skipGaps (strict : Bool) (t : Text) :
    readKey strict (skipGaps t) = readKey strict t := by
  unfold readKey
  rw [skipGaps_skipGaps]

lemma readValue_skipGaps (strict : Bool) (steps depth : Nat) (t : Text) :
    readValue strict steps depth (skipGaps t) = readValue strict steps depth t := by
  cases steps with
  | zero => rfl
  | succ steps => rw [readValue, readValue, skipGaps_skipGaps]

lemma readElements_skipGaps (strict : Bool) (steps depth : Nat) (t : Text) :
    readElements strict steps depth (skipGaps t) = readElements strict steps depth t := by
  cases steps with
  | zero => rfl
  | succ steps => rw [readElements, readElements, readValue_skipGaps]

lemma readMembers_skipGaps (strict : Bool) (steps depth : Nat) (t : Text) :
    readMembers strict steps depth (skipGaps t) = readMembers strict steps depth t := by
  cases steps with
  | zero => rfl
  | succ steps => rw [readMembers, readMembers, readKey_skipGaps]

/-! ### Values -/

lemma toList_quote (s : String) :
    (quote s).toList = '"' :: (s.toList.flatMap escapeChar ++ ['"']) := by
  simp [quote]

mutual

/-- The text writes the value, for a reader that has so much nesting left. Only a strict reader
minds the nesting and the size of numbers. -/
inductive Written (strict : Bool) : Nat → Json → Text → Prop
  | null (depth : Nat) : Written strict depth .null "null".toList
  | bool (depth : Nat) (b : Bool) :
    Written strict depth (.bool b) (if b then "true".toList else "false".toList)
  | natural (depth : Nat) {n : Nat} (h : strict = true → n < offsetLimit) :
    Written strict depth (.natural n) (Nat.toDigits 10 n)
  | string (depth : Nat) (s : String) : Written strict depth (.string s) (quote s).toList
  | array {depth : Nat} {vs : List Json} {t : Text} (hdepth : strict = true → depth ≠ 0)
    (h : WrittenElements strict (depth - 1) vs t) :
    Written strict depth (.array vs) ('[' :: (t ++ [']']))
  | object {depth : Nat} {ms : List (String × Json)} {t : Text} (hdepth : strict = true → depth ≠ 0)
    (h : WrittenMembers strict (depth - 1) ms t) :
    Written strict depth (.object ms) ('{' :: (t ++ ['}']))

/-- The text writes the value, with white space around it. -/
inductive Spaced (strict : Bool) : Nat → Json → Text → Prop
  | mk {depth : Nat} {v : Json} {g t g' : Text} (hg : Gap g) (h : Written strict depth v t)
    (hg' : Gap g') : Spaced strict depth v (g ++ (t ++ g'))

inductive WrittenElements (strict : Bool) : Nat → List Json → Text → Prop
  | none (depth : Nat) {g : Text} (hg : Gap g) : WrittenElements strict depth [] g
  | last {depth : Nat} {v : Json} {t : Text} (h : Spaced strict depth v t) :
    WrittenElements strict depth [v] t
  | more {depth : Nat} {v w : Json} {vs : List Json} {t t' : Text} (h : Spaced strict depth v t)
    (h' : WrittenElements strict depth (w :: vs) t') :
    WrittenElements strict depth (v :: w :: vs) (t ++ ',' :: t')

inductive WrittenMember (strict : Bool) : Nat → String × Json → Text → Prop
  | mk {depth : Nat} (key : String) {v : Json} {g g' t : Text} (hg : Gap g) (hg' : Gap g')
    (h : Spaced strict depth v t) :
    WrittenMember strict depth (key, v) (g ++ ((quote key).toList ++ (g' ++ ':' :: t)))

inductive WrittenMembers (strict : Bool) : Nat → List (String × Json) → Text → Prop
  | none (depth : Nat) {g : Text} (hg : Gap g) : WrittenMembers strict depth [] g
  | last {depth : Nat} {m : String × Json} {t : Text} (h : WrittenMember strict depth m t) :
    WrittenMembers strict depth [m] t
  | more {depth : Nat} {m n : String × Json} {ms : List (String × Json)} {t t' : Text}
    (h : WrittenMember strict depth m t) (h' : WrittenMembers strict depth (n :: ms) t') :
    WrittenMembers strict depth (m :: n :: ms) (t ++ ',' :: t')

end

variable {strict : Bool} {depth : Nat}

lemma Spaced.of_written {v : Json} {t : Text} (h : Written strict depth v t) :
    Spaced strict depth v t := by
  have hspaced := Spaced.mk gap_nil h gap_nil
  rwa [List.append_nil, List.nil_append] at hspaced

lemma Spaced.prepend {v : Json} {g t : Text} (h : Spaced strict depth v t) (hg : Gap g) :
    Spaced strict depth v (g ++ t) := by
  cases h with
  | mk hg₁ h hg₂ =>
    rw [← List.append_assoc]
    exact .mk (gap_append hg hg₁) h hg₂

lemma Spaced.append {v : Json} {g t : Text} (h : Spaced strict depth v t) (hg : Gap g) :
    Spaced strict depth v (t ++ g) := by
  cases h with
  | mk hg₁ h hg₂ =>
    rw [List.append_assoc, List.append_assoc]
    exact .mk hg₁ h (gap_append hg₂ hg)

lemma WrittenMember.of_spaced (key : String) {v : Json} {g t : Text} (hg : Gap g)
    (h : Spaced strict depth v t) :
    WrittenMember strict depth (key, v) (g ++ ((quote key).toList ++ ':' :: t)) := by
  have hm := WrittenMember.mk key hg gap_nil h
  rwa [List.nil_append] at hm

lemma WrittenMember.append {m : String × Json} {g t : Text} (h : WrittenMember strict depth m t)
    (hg : Gap g) : WrittenMember strict depth m (t ++ g) := by
  cases h with
  | mk key hg₁ hg₂ h =>
    simp only [List.append_assoc, List.cons_append]
    exact .mk key hg₁ hg₂ (h.append hg)

lemma exists_digit_toDigits (n : Nat) :
    ∃ c t, Nat.toDigits 10 n = c :: t ∧ c.isDigit = true := by
  cases h : Nat.toDigits 10 n with
  | nil => exact absurd h Nat.toDigits_ne_nil
  | cons c t => exact ⟨c, t, rfl, isDigit_toDigits n c (by simp [h])⟩

lemma not_isGap_of_isDigit {c : Char} (h : c.isDigit = true) : isGap c = false := by
  by_contra hgap
  rcases eq_of_isGap (by simpa using hgap) with rfl | rfl | rfl | rfl <;> simp at h

/-- A value starts with no white space and with no closing bracket. -/
lemma Written.exists_first {v : Json} {t : Text} (h : Written strict depth v t) :
    ∃ c u, t = c :: u ∧ isGap c = false ∧ c ≠ ']' := by
  cases h with
  | null => exact ⟨'n', _, rfl, rfl, by decide⟩
  | bool _ b =>
    cases b
    · exact ⟨'f', _, rfl, rfl, by decide⟩
    · exact ⟨'t', _, rfl, rfl, by decide⟩
  | @natural _ n _ =>
    obtain ⟨c, t, hdigits, hc⟩ := exists_digit_toDigits n
    refine ⟨c, t, hdigits, not_isGap_of_isDigit hc, ?_⟩
    rintro rfl
    simp at hc
  | string _ s => exact ⟨'"', _, toList_quote s, rfl, by decide⟩
  | array _ _ => exact ⟨'[', _, rfl, rfl, by decide⟩
  | object _ _ => exact ⟨'{', _, rfl, rfl, by decide⟩

lemma Spaced.exists_first {v : Json} {t : Text} (h : Spaced strict depth v t) (rest : Text) :
    ∃ c u, skipGaps (t ++ rest) = c :: u ∧ c ≠ ']' := by
  cases h with
  | @mk _ _ g t g' hg h hg' =>
    obtain ⟨c, u, rfl, hgap, hc⟩ := h.exists_first
    refine ⟨c, u ++ g' ++ rest, ?_, hc⟩
    rw [List.append_assoc, skipGaps_append hg]
    simp [skipGaps_cons hgap]

lemma WrittenElements.exists_first {v : Json} {vs : List Json} {t : Text}
    (h : WrittenElements strict depth (v :: vs) t) (rest : Text) :
    ∃ c u, skipGaps (t ++ rest) = c :: u ∧ c ≠ ']' := by
  cases h with
  | last h => exact h.exists_first rest
  | @more _ _ _ _ t t' h _ =>
    rw [List.append_assoc]
    exact h.exists_first _

lemma WrittenMember.exists_first {m : String × Json} {t : Text}
    (h : WrittenMember strict depth m t) (rest : Text) :
    ∃ u, skipGaps (t ++ rest) = '"' :: u := by
  cases h with
  | @mk _ key v g g' t hg hg' h =>
    rw [List.append_assoc, skipGaps_append hg, toList_quote, List.cons_append, List.cons_append,
      skipGaps_cons rfl]
    exact ⟨_, rfl⟩

lemma WrittenMembers.exists_first {m : String × Json} {ms : List (String × Json)} {t : Text}
    (h : WrittenMembers strict depth (m :: ms) t) (rest : Text) :
    ∃ u, skipGaps (t ++ rest) = '"' :: u := by
  cases h with
  | last h => exact h.exists_first rest
  | @more _ _ _ _ t t' h _ =>
    rw [List.append_assoc]
    exact h.exists_first _

/-! ### The reader -/

/-- The reader in so many steps reads what is written with no more characters. -/
structure ReadsWithin (strict : Bool) (steps : Nat) : Prop where
  value : ∀ {depth : Nat} {v : Json} {t : Text} (rest : Text), Written strict depth v t →
    t.length ≤ steps → Ended rest → readValue strict steps depth (t ++ rest) = some (v, rest)
  elements : ∀ {depth : Nat} {v : Json} {vs : List Json} {t : Text} (rest : Text),
    WrittenElements strict depth (v :: vs) t → t.length < steps →
    readElements strict steps depth (t ++ ']' :: rest) = some (v :: vs, rest)
  members : ∀ {depth : Nat} {m : String × Json} {ms : List (String × Json)} {t : Text}
    (rest : Text), WrittenMembers strict depth (m :: ms) t → t.length < steps →
    readMembers strict steps depth (t ++ '}' :: rest) = some (m :: ms, rest)

lemma readValue_natural {steps n : Nat} (hn : strict = true → n < offsetLimit) {rest : Text}
    (hrest : Ended rest) :
    readValue strict (steps + 1) depth (Nat.toDigits 10 n ++ rest) = some (.natural n, rest) := by
  obtain ⟨c, t, hdigits, hc⟩ := exists_digit_toDigits n
  rw [← readNumber_toDigits hn hrest, hdigits, List.cons_append, readValue,
    skipGaps_cons (not_isGap_of_isDigit hc)]
  split
  case h_7 => rfl
  all_goals
    rename_i heq
    obtain ⟨rfl, -⟩ := List.cons.inj heq
    simp at hc

lemma isOpen_of_ne_zero (hdepth : strict = true → depth ≠ 0) : (strict && depth == 0) = false := by
  cases strict with
  | false => rfl
  | true => simpa using hdepth rfl

lemma readValue_array {steps : Nat} (hdepth : strict = true → depth ≠ 0) {vs : List Json}
    {t rest : Text} (hfirst : ∃ c u, skipGaps t = c :: u ∧ c ≠ ']')
    (h : readElements strict steps (depth - 1) t = some (vs, rest)) :
    readValue strict (steps + 1) depth ('[' :: t) = some (.array vs, rest) := by
  obtain ⟨c, u, hskip, hc⟩ := hfirst
  rw [← readElements_skipGaps, hskip] at h
  rw [readValue, skipGaps_cons rfl]
  simp only [isOpen_of_ne_zero hdepth, Bool.false_eq_true, if_false, hskip]
  split
  · rename_i heq
    exact absurd (List.cons.inj heq).1 hc
  · simp [h]

lemma readValue_object {steps : Nat} (hdepth : strict = true → depth ≠ 0)
    {ms : List (String × Json)} {t rest : Text} (hfirst : ∃ u, skipGaps t = '"' :: u)
    (h : readMembers strict steps (depth - 1) t = some (ms, rest)) :
    readValue strict (steps + 1) depth ('{' :: t) = some (.object ms, rest) := by
  obtain ⟨u, hskip⟩ := hfirst
  rw [← readMembers_skipGaps, hskip] at h
  rw [readValue, skipGaps_cons rfl]
  simp only [isOpen_of_ne_zero hdepth, Bool.false_eq_true, if_false, hskip]
  simp [h]

lemma readKey_quote (strict : Bool) (key : String) {g g' : Text} (hg : Gap g) (hg' : Gap g')
    (rest : Text) :
    readKey strict (g ++ ((quote key).toList ++ (g' ++ ':' :: rest))) = some (key, rest) := by
  have hchars := readChars_escape strict [] key.toList (g' ++ ':' :: rest)
  have hcolon : skipGaps (g' ++ ':' :: rest) = ':' :: rest :=
    (skipGaps_append hg' _).trans (skipGaps_cons rfl _)
  rw [readKey, skipGaps_append hg, toList_quote, List.cons_append, skipGaps_cons rfl]
  simp [hchars, hcolon]

namespace ReadsWithin

variable {steps : Nat}

lemma readValue_written (h : ReadsWithin strict steps) {v : Json} {t rest : Text}
    (hv : Written strict depth v t) (hlength : t.length ≤ steps + 1) (hrest : Ended rest) :
    readValue strict (steps + 1) depth (t ++ rest) = some (v, rest) := by
  cases hv with
  | null => simp [readValue, skipGaps, isGap]
  | bool _ b => cases b <;> simp [readValue, skipGaps, isGap]
  | natural _ hn => exact readValue_natural hn hrest
  | string _ s =>
    have hs := readChars_escape strict [] s.toList rest
    rw [toList_quote, List.cons_append, readValue, skipGaps_cons rfl]
    simp [hs]
  | @array _ vs t hdepth hvs =>
    simp only [List.length_cons, List.length_append] at hlength
    rw [List.cons_append, List.append_assoc, List.singleton_append]
    cases vs with
    | nil =>
      cases hvs with
      | none _ hg =>
        rw [readValue, skipGaps_cons rfl]
        simp only [isOpen_of_ne_zero hdepth, Bool.false_eq_true, if_false, skipGaps_append hg]
        rfl
    | cons v vs =>
      exact readValue_array hdepth (hvs.exists_first _) (h.elements rest hvs (by omega))
  | @object _ ms t hdepth hms =>
    simp only [List.length_cons, List.length_append] at hlength
    rw [List.cons_append, List.append_assoc, List.singleton_append]
    cases ms with
    | nil =>
      cases hms with
      | none _ hg =>
        rw [readValue, skipGaps_cons rfl]
        simp only [isOpen_of_ne_zero hdepth, Bool.false_eq_true, if_false, skipGaps_append hg]
        rfl
    | cons m ms =>
      exact readValue_object hdepth (hms.exists_first _) (h.members rest hms (by omega))

lemma readValue_spaced (h : ReadsWithin strict steps) {v : Json} {t rest : Text}
    (hv : Spaced strict depth v t) (hlength : t.length ≤ steps) (hrest : Ended rest) :
    ∃ rest', readValue strict steps depth (t ++ rest) = some (v, rest') ∧
      skipGaps rest' = skipGaps rest := by
  cases hv with
  | @mk _ _ g t g' hg hv hg' =>
    rw [List.length_append, List.length_append] at hlength
    refine ⟨g' ++ rest, ?_, skipGaps_append hg' rest⟩
    rw [List.append_assoc, List.append_assoc, ← readValue_skipGaps, skipGaps_append hg,
      readValue_skipGaps]
    exact h.value (g' ++ rest) hv (by omega) (hrest.of_gap hg')

lemma readElements_written (h : ReadsWithin strict steps) {v : Json} {vs : List Json}
    {t rest : Text} (hvs : WrittenElements strict depth (v :: vs) t)
    (hlength : t.length < steps + 1) :
    readElements strict (steps + 1) depth (t ++ ']' :: rest) = some (v :: vs, rest) := by
  cases hvs with
  | last hv =>
    obtain ⟨rest', hread, hskip⟩ := h.readValue_spaced hv (by omega)
      (ended_cons (by simp) rest : Ended (']' :: rest))
    rw [skipGaps_cons rfl] at hskip
    simp [readElements, hread, hskip]
  | @more _ _ w vs t t' hv hvs =>
    rw [List.length_append, List.length_cons] at hlength
    rw [List.append_assoc, List.cons_append]
    obtain ⟨rest', hread, hskip⟩ := h.readValue_spaced hv (by omega)
      (ended_cons (by simp) (t' ++ ']' :: rest) : Ended (',' :: (t' ++ ']' :: rest)))
    rw [skipGaps_cons rfl] at hskip
    simp [readElements, hread, hskip, h.elements rest hvs (by omega)]

lemma readMember_written (h : ReadsWithin strict steps) {m : String × Json} {t rest : Text}
    (hm : WrittenMember strict depth m t) (hlength : t.length ≤ steps) (hrest : Ended rest) :
    ∃ behind rest', readKey strict (t ++ rest) = some (m.1, behind) ∧
      readValue strict steps depth behind = some (m.2, rest') ∧
      skipGaps rest' = skipGaps rest := by
  cases hm with
  | @mk _ key v g g' t hg hg' hv =>
    simp only [List.length_append, List.length_cons] at hlength
    obtain ⟨rest', hread, hskip⟩ := h.readValue_spaced hv (by omega) hrest
    refine ⟨t ++ rest, rest', ?_, hread, hskip⟩
    simpa using readKey_quote strict key hg hg' (t ++ rest)

lemma readMembers_written (h : ReadsWithin strict steps) {m : String × Json}
    {ms : List (String × Json)} {t rest : Text} (hms : WrittenMembers strict depth (m :: ms) t)
    (hlength : t.length < steps + 1) :
    readMembers strict (steps + 1) depth (t ++ '}' :: rest) = some (m :: ms, rest) := by
  cases hms with
  | last hm =>
    obtain ⟨behind, rest', hkey, hread, hskip⟩ := h.readMember_written hm (by omega)
      (ended_cons (by simp) rest : Ended ('}' :: rest))
    rw [skipGaps_cons rfl] at hskip
    simp [readMembers, hkey, hread, hskip]
  | @more _ _ n ms t t' hm hms =>
    rw [List.length_append, List.length_cons] at hlength
    rw [List.append_assoc, List.cons_append]
    obtain ⟨behind, rest', hkey, hread, hskip⟩ := h.readMember_written hm (by omega)
      (ended_cons (by simp) (t' ++ '}' :: rest) : Ended (',' :: (t' ++ '}' :: rest)))
    rw [skipGaps_cons rfl] at hskip
    simp [readMembers, hkey, hread, hskip, h.members rest hms (by omega)]

end ReadsWithin

/-- **What is written is read**, in no more steps than the text has characters. -/
theorem readsWithin (strict : Bool) (steps : Nat) : ReadsWithin strict steps := by
  induction steps with
  | zero =>
    refine ⟨fun rest hv hlength _ => ?_, by simp, by simp⟩
    obtain ⟨c, u, rfl, -⟩ := hv.exists_first
    simp at hlength
  | succ steps ih =>
    exact ⟨fun _ => ih.readValue_written, fun _ => ih.readElements_written,
      fun _ => ih.readMembers_written⟩

theorem whole?_of_spaced {v : Json} {t : Text} (h : Spaced strict depth v t) :
    whole? (readValue strict (stepsFor t) depth t) = some v := by
  obtain ⟨rest, hread, hskip⟩ := (readsWithin strict (stepsFor t)).readValue_spaced h
    (by unfold stepsFor; omega) (by simp [Ended] : Ended [])
  rw [List.append_nil] at hread
  rw [hread, whole?, hskip]
  rfl

end Json

end BslLint
