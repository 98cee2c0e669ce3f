import BslLint.Call.Site
import BslLint.Proofs.Outcome
import BslLint.Proofs.Text.Slice

/-!
Located texts: what resolving a span against the text of a module gives. The text that is found
behind a span is a slice of the module's text, and its end is an offset; a span whose end is an
offset is resolved, or refused, without breaking off.
-/

namespace BslLint

/-- The end of the span is an offset. -/
def Span.Fits (s : Span) : Prop := s.stop < offsetLimit

instance (s : Span) : Decidable s.Fits := inferInstanceAs (Decidable (_ < _))

/-- The end of the span, if there is one, is an offset. -/
def SpanFits (span : Option Span) : Prop := ∀ s ∈ span, s.Fits

/-- What stands in the source at the place of the text is the text itself. -/
structure SourceText.Located (source : Text) (t : SourceText) : Prop where
  slice : Text.slice? source t.start t.stop = some t.raw
  lt : t.stop < offsetLimit

lemma Span.checkedStop_of_fits {ε : Type} {s : Span} (h : s.Fits) :
    (s.checkedStop : Outcome ε Nat) = .ok s.stop := addOffsets_of_lt h

lemma Span.fits_of_checkedStop {ε : Type} {s : Span} {n : Nat}
    (h : (s.checkedStop : Outcome ε Nat) = .ok n) : s.Fits ∧ n = s.stop :=
  Outcome.addOffsets_eq_ok_iff.1 h

lemma located_of_locate {source : Text} {span : Option Span} {t : SourceText}
    (h : locate source span = .ok t) : t.Located source := by
  cases span with
  | none => simp [locate] at h
  | some s =>
    obtain ⟨n, hn, h⟩ := Outcome.bind_eq_ok_iff.1 h
    obtain ⟨hfits, rfl⟩ := Span.fits_of_checkedStop hn
    split at h
    · cases h
    · rename_i raw hraw
      cases h
      exact ⟨hraw, hfits⟩

lemma locate_safe {source : Text} {span : Option Span} (h : SpanFits span) :
    (locate source span).Safe fun t => t.Located source := by
  cases hloc : locate source span with
  | ok t => exact located_of_locate hloc
  | error e => trivial
  | abort c =>
    -- The one sum of the computation stays in the range of offsets.
    cases span with
    | none => simp [locate] at hloc
    | some s =>
      rw [locate, Span.checkedStop_of_fits (h s rfl), Outcome.ok_bind] at hloc
      split at hloc <;> cases hloc

lemma span_eq_of_locate {source : Text} {span : Option Span} {t : SourceText}
    (h : locate source span = .ok t) : span = some ⟨t.start, t.length⟩ := by
  cases span with
  | none => simp [locate] at h
  | some s =>
    obtain ⟨n, -, h⟩ := Outcome.bind_eq_ok_iff.1 h
    split at h <;> cases h
    rfl

lemma locate_ne_cancelled {source : Text} {span : Option Span} :
    locate source span ≠ .error .cancelled := by
  cases span with
  | none => simp [locate]
  | some s =>
    refine Outcome.bind_ne_error Outcome.addOffsets_ne_error fun stop => ?_
    split <;> simp

lemma locate_cases (source : Text) {span : Option Span} (h : SpanFits span) :
    (∃ t, locate source span = .ok t) ∨
      ∃ e, locate source span = .error e ∧ e ≠ .cancelled := by
  have hsafe : (locate source span).Safe fun t => t.Located source := locate_safe h
  cases hloc : locate source span with
  | ok t => exact Or.inl ⟨t, rfl⟩
  | error e => exact Or.inr ⟨e, rfl, fun he => locate_ne_cancelled (he ▸ hloc)⟩
  | abort c => simp [hloc] at hsafe

namespace SourceText.Located

variable {source : Text} {t : SourceText}

lemma exists_around (h : t.Located source) :
    ∃ a b, source = a ++ t.raw ++ b ∧ Text.byteLength a = t.start ∧
      t.start + Text.byteLength t.raw = t.stop :=
  Text.slice?_eq_some_iff.1 h.slice

lemma slice_of_raw (h : t.Located source) {m : Text} {i k : Nat}
    (hm : Text.slice? t.raw i (i + k) = some m) :
    Text.slice? source (t.start + i) (t.start + i + k) = some m ∧
      t.start + i + k < offsetLimit := by
  have hk := (Text.byteLength_of_slice? hm).2
  have ht := (Text.byteLength_of_slice? h.slice).1
  have hlt := h.lt
  rw [Nat.add_assoc]
  exact ⟨Text.slice?_trans h.slice hm, by omega⟩

end SourceText.Located

namespace CallSite

lemma exists_receiverEndIn {call : SourceText} {receiver : Option Expression}
    (h : SpanFits (receiver.bind Expression.span)) :
    ∃ stop, receiverEndIn call receiver = .ok stop := by
  unfold receiverEndIn
  split
  · exact ⟨none, rfl⟩
  · rename_i s hs
    rw [Span.checkedStop_of_fits (h s hs)]
    exact ⟨_, rfl⟩

lemma receiverEndIn_safe {call : SourceText} {receiver : Option Expression}
    (h : SpanFits (receiver.bind Expression.span)) :
    (receiverEndIn call receiver).Safe fun _ => True := by
  obtain ⟨stop, hstop⟩ : ∃ stop, receiverEndIn call receiver = .ok stop := exists_receiverEndIn h
  rw [hstop]
  trivial

lemma located_of_ofInvocation {scope : Scope} {e : Expression} {site : CallSite}
    (h : ofInvocation scope e = .ok site) :
    site.text.Located scope.module.source := by
  cases e with
  | invocation name receiver params span =>
    obtain ⟨text, htext, h⟩ := Outcome.bind_eq_ok_iff.1 h
    obtain ⟨receiverEnd, -, h⟩ := Outcome.bind_eq_ok_iff.1 h
    cases h
    exact located_of_locate htext
  | _ => cases h

end CallSite

end BslLint
