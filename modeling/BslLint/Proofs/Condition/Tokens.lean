import BslLint.Environment.Condition.Parse
import BslLint.Proofs.Text.Character

/-!
The tokens of a condition's text. A word is a run of identifier characters that cannot be made
longer on either side, a parenthesis is a token of its own, and everything else only separates. The
scan of the text, which collects the letters of a word backwards, yields exactly these tokens.
-/

namespace BslLint.Condition

/-- The text consists of the tokens in order, with separators around them. -/
inductive Cuts : Text → List Token → Prop
  | nil : Cuts [] []
  | separator {c : Char} {t : Text} {ts : List Token} (hword : Text.isIdentifier c = false)
      (hopening : c ≠ '(') (hclosing : c ≠ ')') (rest : Cuts t ts) : Cuts (c :: t) ts
  | opening {t : Text} {ts : List Token} (rest : Cuts t ts) : Cuts ('(' :: t) (.opening :: ts)
  | closing {t : Text} {ts : List Token} (rest : Cuts t ts) : Cuts (')' :: t) (.closing :: ts)
  | word {w t : Text} {ts : List Token} (hw : w.IsName) (hend : Text.endsWord t.head? = true)
      (rest : Cuts t ts) : Cuts (w ++ t) (.word w :: ts)

lemma not_isIdentifier_opening : Text.isIdentifier '(' = false := by decide +kernel

lemma not_isIdentifier_closing : Text.isIdentifier ')' = false := by decide +kernel

@[simp] lemma tokens_nil : tokens [] = [] := rfl

lemma tokensAfter_append {w : Text} (hw : ∀ c ∈ w, Text.isIdentifier c = true) (read : List Char)
    (t : Text) : tokensAfter read (w ++ t) = tokensAfter (w.reverse ++ read) t := by
  induction w generalizing read with
  | nil => rfl
  | cons c w ih =>
    have hc : Text.isIdentifier c = true := hw c (by simp)
    rw [List.cons_append, tokensAfter, if_pos hc, ih fun d hd => hw d (by simp [hd])]
    simp

lemma tokensAfter_of_endsWord (read : List Char) {t : Text} (h : Text.endsWord t.head? = true) :
    tokensAfter read t = Token.flush read (tokens t) := by
  cases t with
  | nil => rfl
  | cons c t =>
    have hc : Text.isIdentifier c = false := by simpa [Text.endsWord] using h
    simp only [tokens, tokensAfter, hc, Bool.false_eq_true, if_false]
    split
    · rfl
    · split <;> rfl

lemma tokens_append_of_endsWord {w : Text} (hw : w.IsName) {t : Text}
    (h : Text.endsWord t.head? = true) : tokens (w ++ t) = .word w :: tokens t := by
  rw [tokens, tokensAfter_append hw.2, tokensAfter_of_endsWord _ h, List.append_nil]
  cases hread : w.reverse with
  | nil => exact absurd (List.reverse_eq_nil_iff.1 hread) hw.1
  | cons c read => rw [Token.flush, ← hread, List.reverse_reverse]

lemma tokens_opening (t : Text) : tokens ('(' :: t) = .opening :: tokens t := by
  simp [tokens, tokensAfter, not_isIdentifier_opening, Token.flush]

lemma tokens_closing (t : Text) : tokens (')' :: t) = .closing :: tokens t := by
  simp [tokens, tokensAfter, not_isIdentifier_closing, Token.flush]

lemma tokens_separator {c : Char} (hword : Text.isIdentifier c = false) (hopening : c ≠ '(')
    (hclosing : c ≠ ')') (t : Text) : tokens (c :: t) = tokens t := by
  simp [tokens, tokensAfter, hword, hopening, hclosing, Token.flush]

lemma Cuts.tokens_eq {t : Text} {ts : List Token} (h : Cuts t ts) : tokens t = ts := by
  induction h with
  | nil => rfl
  | separator hword hopening hclosing _ ih => rw [tokens_separator hword hopening hclosing, ih]
  | opening _ ih => rw [tokens_opening, ih]
  | closing _ ih => rw [tokens_closing, ih]
  | word hw hend _ ih => rw [tokens_append_of_endsWord hw hend, ih]

lemma Cuts.flush {read : List Char} (hread : ∀ c ∈ read, Text.isIdentifier c = true) {t : Text}
    {ts : List Token} (hend : Text.endsWord t.head? = true) (h : Cuts t ts) :
    Cuts (read.reverse ++ t) (Token.flush read ts) := by
  cases read with
  | nil => exact h
  | cons c read =>
    have hw : Text.IsName (c :: read).reverse := ⟨by simp, by simpa [or_comm] using hread⟩
    exact .word hw hend h

-- The scan carries the word that is being read; it is put back in front of the rest.
lemma cuts_tokensAfter (t : Text) (read : List Char)
    (hread : ∀ c ∈ read, Text.isIdentifier c = true) :
    Cuts (read.reverse ++ t) (tokensAfter read t) := by
  induction t generalizing read with
  | nil => exact Cuts.nil.flush hread rfl
  | cons c t ih =>
    rw [tokensAfter]
    split
    · rename_i hc
      have hread' : ∀ d ∈ c :: read, Text.isIdentifier d = true := by simpa [hc] using hread
      simpa using ih (c :: read) hread'
    · rename_i hc
      have hend : Text.endsWord (c :: t).head? = true := by simp [Text.endsWord, hc]
      have hrest : Cuts t (tokensAfter [] t) := ih [] (by simp)
      split
      · rename_i hopening
        subst hopening
        exact (Cuts.opening hrest).flush hread hend
      · rename_i hopening
        split
        · rename_i hclosing
          subst hclosing
          exact (Cuts.closing hrest).flush hread hend
        · rename_i hclosing
          exact (Cuts.separator (by simpa using hc) hopening hclosing hrest).flush hread hend

/-- **The scan is exact**: the tokens of a text are the ones it consists of. -/
theorem cuts_iff {t : Text} {ts : List Token} : Cuts t ts ↔ ts = tokens t := by
  constructor
  · intro h
    exact h.tokens_eq.symm
  · rintro rfl
    exact cuts_tokensAfter t [] (by simp)

lemma isIdentifier_of_word_mem {t w : Text} (h : Token.word w ∈ tokens t) :
    ∀ c ∈ w, Text.isIdentifier c = true := by
  have hcuts : Cuts t (tokens t) := cuts_iff.2 rfl
  generalize tokens t = ts at h hcuts
  induction hcuts with
  | nil => simp at h
  | separator _ _ _ _ ih => exact ih h
  | opening _ ih | closing _ ih => exact ih (by simpa using h)
  | word hw _ _ ih =>
    rcases List.mem_cons.1 h with heq | h
    · cases heq
      exact hw.2
    · exact ih h

lemma tokens_append_cons {c : Char} (hc : Text.isIdentifier c = false) (s t : Text) :
    tokens (s ++ c :: t) = tokens s ++ tokens (c :: t) := by
  have hend : ∀ r : Text, Text.endsWord (r ++ c :: t).head? = Text.endsWord r.head? := by
    intro r
    cases r <;> simp [Text.endsWord, hc]
  have hs : Cuts s (tokens s) := cuts_iff.2 rfl
  generalize tokens s = ts at hs
  induction hs with
  | nil => rfl
  | separator hword hopening hclosing _ ih =>
    rw [List.cons_append, tokens_separator hword hopening hclosing, ih]
  | opening _ ih => rw [List.cons_append, tokens_opening, ih, List.cons_append]
  | closing _ ih => rw [List.cons_append, tokens_closing, ih, List.cons_append]
  | word hw hword _ ih =>
    rw [List.append_assoc, tokens_append_of_endsWord hw ((hend _).trans hword), ih,
      List.cons_append]

end BslLint.Condition
