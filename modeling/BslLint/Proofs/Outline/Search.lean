import BslLint.Outline.Statement
import BslLint.Proofs.Outcome
import BslLint.Proofs.Text.Slice

/-!
Where the searches of an outline end up. Whatever is found lies at or after the place where the
search began, and begins and ends at boundaries of the text; so a cursor that is moved behind it
stays on a boundary and never goes back.
-/

namespace BslLint

/-- Both ends of the span are boundaries of the text. -/
structure Span.On (source : Text) (s : Span) : Prop where
  offset : Text.isBoundary source s.offset = true
  stop : Text.isBoundary source s.stop = true

lemma Span.on_of_append {a m b : Text} :
    Span.On (a ++ m ++ b) ⟨Text.byteLength a, Text.byteLength m⟩ where
  offset := Text.isBoundary_iff.2 ⟨a, m ++ b, by simp, rfl⟩
  stop := Text.isBoundary_iff.2 ⟨a ++ m, b, by simp, by simp [Span.stop]⟩

lemma Span.on_between {source : Text} {start stop : Nat}
    (hstart : Text.isBoundary source start = true) (hstop : Text.isBoundary source stop = true) :
    (Span.between start stop).On source := by
  refine ⟨hstart, ?_⟩
  rcases Nat.le_total start stop with hle | hle
  · rwa [Span.stop, Span.between, Nat.add_sub_cancel' hle]
  · rwa [Span.stop, Span.between, Nat.sub_eq_zero_of_le hle]

lemma Span.stop_between {start stop : Nat} (h : start ≤ stop) :
    (Span.between start stop).stop = stop := by
  rw [Span.stop, Span.between, Nat.add_sub_cancel' h]

namespace Outline

/-- The cursor moves on, to a boundary of the text. -/
structure Advances (source : Text) (cursor cursor' : Nat) : Prop where
  le : cursor ≤ cursor'
  boundary : Text.isBoundary source cursor' = true

namespace Advances

variable {source : Text} {a b c : Nat}

lemma refl (h : Text.isBoundary source a = true) : Advances source a a := ⟨Nat.le_refl a, h⟩

lemma trans (h : Advances source a b) (h' : Advances source b c) : Advances source a c :=
  ⟨Nat.le_trans h.le h'.le, h'.boundary⟩

lemma to_max (h : Text.isBoundary source a = true) (h' : Text.isBoundary source b = true) :
    Advances source a (max a b) := by
  refine ⟨Nat.le_max_left a b, ?_⟩
  rcases Nat.le_total a b with hle | hle
  · rwa [Nat.max_eq_right hle]
  · rwa [Nat.max_eq_left hle]

end Advances

/-- What is sought from the cursor on, if it is found, begins no earlier than the cursor and ends
where the cursor is afterwards. -/
structure Sought (source : Text) (cursor : Nat) (found : Option Span) (cursor' : Nat) : Prop where
  advances : Advances source cursor cursor'
  found : ∀ s ∈ found, s.On source ∧ cursor ≤ s.offset ∧ s.stop = cursor'

namespace Sought

variable {source : Text} {found : Option Span}

lemma none {a b : Nat} (h : Advances source a b) : Sought source a none b := ⟨h, by simp⟩

lemma join {first last : Option Span} {a b c : Nat} (h : Sought source a first b)
    (h' : Sought source b last c) : Sought source a (Span.join first last) c := by
  refine ⟨h.advances.trans h'.advances, ?_⟩
  intro s hs
  obtain ⟨s₁, hs₁, hs⟩ := Option.bind_eq_some_iff.1 hs
  obtain ⟨s₂, hs₂, hs⟩ := Option.bind_eq_some_iff.1 hs
  cases hs
  obtain ⟨hon, hle, hstop⟩ := h.found s₁ hs₁
  obtain ⟨hon', hle', hstop'⟩ := h'.found s₂ hs₂
  have horder : s₁.offset ≤ s₂.stop := by
    simp only [Span.stop] at hstop ⊢
    omega
  exact ⟨Span.on_between hon.offset hon'.stop, hle, by rw [Span.stop_between horder, hstop']⟩

lemma on {a b : Nat} (h : Sought source a found b) : ∀ s ∈ found, s.On source :=
  fun s hs => (h.found s hs).1

lemma isBoundary_offset {a b : Nat} (h : Sought source a found b) :
    ∀ p ∈ found.map Span.offset, Text.isBoundary source p = true := by
  intro p hp
  obtain ⟨s, hs, rfl⟩ := Option.map_eq_some_iff.1 hp
  exact (h.on s hs).offset

end Sought

/-- The cursor moves on, and the spans that were found on the way lie on the text. -/
structure Carried (source : Text) (cursor : Nat) (spans : List Span) (cursor' : Nat) : Prop where
  advances : Advances source cursor cursor'
  spans : ∀ s ∈ spans, s.On source

namespace Carried

variable {source : Text} {a b c : Nat} {ss ss' : List Span}

lemma nil (h : Text.isBoundary source a = true) : Carried source a [] a := ⟨.refl h, by simp⟩

lemma trans (h : Carried source a ss b) (h' : Carried source b ss' c) :
    Carried source a (ss ++ ss') c := by
  refine ⟨h.advances.trans h'.advances, fun s hs => ?_⟩
  rcases List.mem_append.1 hs with hs | hs
  · exact h.spans s hs
  · exact h'.spans s hs

lemma behind (h : Carried source b ss c) (h' : Advances source a b) : Carried source a ss c :=
  ⟨h'.trans h.advances, h.spans⟩

lemma mono (h : Carried source a ss b) (hsub : ss' ⊆ ss) : Carried source a ss' b :=
  ⟨h.advances, fun s hs => h.spans s (hsub hs)⟩

end Carried

/-! ### Words -/

lemma matchesWord_iff {word t : Text} {before : Option Char} :
    matchesWord word before t = true ↔
      ∃ m rest, t = m ++ rest ∧ Text.byteLength m = Text.byteLength word ∧
        Text.sameName m word = true ∧ startsWord word before = true ∧
          Text.endsWord rest.head? = true := by
  unfold matchesWord
  constructor
  · intro h
    split at h
    · cases h
    · rename_i m rest hcut
      obtain ⟨ht, hm⟩ := Text.splitAt?_eq_some_iff.1 hcut
      simp only [Bool.and_eq_true, and_assoc] at h
      exact ⟨m, rest, ht, hm, h⟩
  · rintro ⟨m, rest, rfl, hm, h⟩
    rw [← hm, Text.splitAt?_append]
    simpa [and_assoc] using h

lemma startsWord_iff {word : Text} {before : Option Char} :
    startsWord word before = true ↔
      Text.endsWord before = true ∧ (before = some '#' → word.head? = some '#') := by
  cases before with
  | none => simp [startsWord, Text.endsWord]
  | some c => simp [startsWord, Text.endsWord, imp_iff_not_or]

lemma exists_of_searchFrom {words : List Text} {before : Option Char} {pos : Nat} {t : Text}
    {s : Span} (h : searchFrom words before pos t = some s) :
    ∃ word ∈ words, ∃ a rest, t = a ++ rest ∧
      s = ⟨pos + Text.byteLength a, Text.byteLength word⟩ ∧
        matchesWord word (a.getLast?.or before) rest = true := by
  induction t generalizing before pos with
  | nil => cases h
  | cons c t ih =>
    rw [searchFrom] at h
    split at h
    · rename_i word hword
      cases h
      have hmatch : matchesWord word before (c :: t) = true :=
        List.find?_some (p := fun word => matchesWord word before (c :: t)) hword
      exact ⟨word, List.mem_of_find?_eq_some hword, [], c :: t, rfl, rfl, hmatch⟩
    · obtain ⟨word, hword, a, rest, rfl, rfl, hmatch⟩ := ih h
      refine ⟨word, hword, c :: a, rest, rfl, by rw [Text.byteLength_cons, Nat.add_assoc], ?_⟩
      rwa [Text.getLast?_cons_or]

/-- **The found word** is a slice of the text. -/
lemma exists_word_of_search {source : Text} {words : List Text} {start : Nat} {s : Span}
    (h : search source words start = some s) :
    ∃ word ∈ words, ∃ a m b, source = a ++ m ++ b ∧
      s = ⟨Text.byteLength a, Text.byteLength m⟩ ∧ start ≤ Text.byteLength a ∧
        Text.byteLength m = Text.byteLength word ∧ Text.sameName m word = true ∧
          startsWord word a.getLast? = true ∧ Text.endsWord b.head? = true := by
  obtain ⟨⟨front, rest⟩, hcut, hfrom⟩ := Option.bind_eq_some_iff.1 h
  obtain ⟨rfl, rfl⟩ := Text.splitAt?_eq_some_iff.1 hcut
  obtain ⟨word, hword, a, rest, rfl, rfl, hmatch⟩ := exists_of_searchFrom hfrom
  obtain ⟨m, b, rfl, hm, hname, hbefore, hafter⟩ := matchesWord_iff.1 hmatch
  refine ⟨word, hword, front ++ a, m, b, by simp, by simp [hm], by simp, hm, hname, ?_, hafter⟩
  rwa [List.getLast?_append]

lemma exists_of_search {source : Text} {words : List Text} {start : Nat} {s : Span}
    (h : search source words start = some s) : s.On source ∧ start ≤ s.offset := by
  obtain ⟨-, -, a, m, b, rfl, rfl, hle, -⟩ := exists_word_of_search h
  exact ⟨Span.on_of_append, hle⟩

/-- The search stops no later than where a word matches. -/
lemma exists_searchFrom {words : List Text} {word a rest : Text} {before : Option Char}
    (hword : word ∈ words) (hrest : rest ≠ [])
    (h : matchesWord word (a.getLast?.or before) rest = true) (pos : Nat) :
    ∃ s, searchFrom words before pos (a ++ rest) = some s ∧
      s.offset ≤ pos + Text.byteLength a := by
  induction a generalizing before pos with
  | nil =>
    obtain ⟨c, rest, rfl⟩ := List.exists_cons_of_ne_nil hrest
    have hsome : (words.find? fun word => matchesWord word before (c :: rest)).isSome = true :=
      List.find?_isSome.2 ⟨word, hword, h⟩
    obtain ⟨found, hfound⟩ := Option.isSome_iff_exists.1 hsome
    exact ⟨⟨pos, Text.byteLength found⟩, by rw [List.nil_append, searchFrom, hfound],
      Nat.le_refl _⟩
  | cons c a ih =>
    rw [List.cons_append, searchFrom]
    split
    · exact ⟨_, rfl, Nat.le_add_right _ _⟩
    · have hnext : matchesWord word (a.getLast?.or (some c)) rest = true := by
        rwa [Text.getLast?_cons_or] at h
      obtain ⟨s, hs, hle⟩ := ih hnext (pos + c.utf8Size)
      exact ⟨s, hs, by rwa [Text.byteLength_cons, ← Nat.add_assoc]⟩

lemma seek_sought {source : Text} (words : List Text) {cursor : Nat}
    (h : Text.isBoundary source cursor = true) :
    Sought source cursor (seek source words cursor).1 (seek source words cursor).2 := by
  unfold seek
  split
  · rename_i s hs
    obtain ⟨hon, hle⟩ := exists_of_search hs
    refine ⟨.to_max h hon.stop, ?_⟩
    rintro s' ⟨⟩
    have hstop : cursor ≤ s.stop := Nat.le_trans hle (Nat.le_add_right _ _)
    exact ⟨hon, hle, (Nat.max_eq_right hstop).symm⟩
  · exact .none (.refl h)

/-! ### Texts and characters -/

lemma restAt_eq {source : Text} {pos : Nat} (h : Text.isBoundary source pos = true) :
    ∃ a rest, source = a ++ rest ∧ Text.byteLength a = pos ∧ restAt source pos = .ok rest := by
  obtain ⟨a, rest, rfl, rfl⟩ := Text.isBoundary_iff.1 h
  exact ⟨a, rest, rfl, rfl, by simp [restAt]⟩

lemma exists_of_findText {needle t : Text} {pos n : Nat} (h : findText needle pos t = some n) :
    ∃ a b, t = a ++ needle ++ b ∧ n = pos + Text.byteLength a := by
  induction t generalizing pos with
  | nil =>
    rw [findText] at h
    split at h
    · rename_i hempty
      cases h
      exact ⟨[], [], by simpa using hempty.symm, rfl⟩
    · cases h
  | cons c t ih =>
    rw [findText] at h
    split at h
    · rename_i hprefix
      cases h
      obtain ⟨b, hb⟩ := List.isPrefixOf_iff_prefix.1 hprefix
      exact ⟨[], b, hb.symm, rfl⟩
    · obtain ⟨a, b, rfl, rfl⟩ := ih h
      exact ⟨c :: a, b, rfl, by rw [Text.byteLength_cons, Nat.add_assoc]⟩

lemma seekText_safe {source text : Text} {cursor : Nat}
    (h : Text.isBoundary source cursor = true) :
    (seekText source text cursor).Safe fun r => Sought source cursor r.1 r.2 := by
  obtain ⟨front, rest, rfl, rfl, hrest⟩ := restAt_eq h
  rw [seekText, hrest, Outcome.ok_bind]
  split
  · rename_i n hn
    obtain ⟨a, b, rfl, rfl⟩ := exists_of_findText hn
    have hon := Span.on_of_append (a := front ++ a) (m := text) (b := b)
    simp only [Text.byteLength_append, List.append_assoc] at hon
    simp only [Outcome.pure_eq, Outcome.safe_ok, List.append_assoc]
    refine ⟨.to_max (by simpa using h) hon.stop, ?_⟩
    rintro s ⟨⟩
    refine ⟨hon, Nat.le_add_right _ _, ?_⟩
    rw [Span.stop, Nat.max_eq_right (by omega)]
  · exact .none (.refl h)

lemma exists_of_findCharFrom {needle : Char} {t : Text} {pos n : Nat}
    (h : findCharFrom needle pos t = some n) :
    ∃ a b, t = a ++ needle :: b ∧ n = pos + Text.byteLength a := by
  induction t generalizing pos with
  | nil => cases h
  | cons c t ih =>
    rw [findCharFrom] at h
    split at h
    · rename_i hc
      cases h
      exact ⟨[], t, by rw [hc]; rfl, rfl⟩
    · obtain ⟨a, b, rfl, rfl⟩ := ih h
      exact ⟨c :: a, b, rfl, by rw [Text.byteLength_cons, Nat.add_assoc]⟩

lemma isBoundary_succ {a b : Text} {c : Char} (hc : c.utf8Size = 1) :
    Text.isBoundary (a ++ c :: b) (Text.byteLength a + 1) = true :=
  Text.isBoundary_iff.2 ⟨a ++ [c], b, by simp, by simp [hc]⟩

lemma exists_of_closingParen {depth : Nat} {inString : Bool} {t : Text} {pos n : Nat}
    (h : closingParen depth inString pos t = some n) :
    ∃ a b, t = a ++ ')' :: b ∧ n = pos + Text.byteLength a := by
  induction t generalizing depth inString pos with
  | nil => cases h
  | cons c t ih =>
    have hstep : ∀ {depth : Nat} {inString : Bool},
        closingParen depth inString (pos + c.utf8Size) t = some n →
        ∃ a b, c :: t = a ++ ')' :: b ∧ n = pos + Text.byteLength a := by
      intro depth inString h
      obtain ⟨a, b, rfl, rfl⟩ := ih h
      exact ⟨c :: a, b, rfl, by rw [Text.byteLength_cons, Nat.add_assoc]⟩
    rw [closingParen] at h
    split at h
    · exact hstep h
    · split at h
      · exact hstep h
      · split at h
        · rename_i hclosing
          split at h
          · cases h
          · split at h
            · cases h
              exact ⟨[], t, by rw [hclosing.1]; rfl, rfl⟩
            · exact hstep h
        · exact hstep h

lemma exists_of_openingParen {source : Text} {name : Option Span} {opening : Nat}
    (h : openingParen source name = some opening) :
    ∃ s, name = some s ∧ s.stop ≤ opening ∧
      ∃ a b, source = a ++ '(' :: b ∧ Text.byteLength a = opening := by
  obtain ⟨s, hs, hfind⟩ := Option.bind_eq_some_iff.1 h
  obtain ⟨rest, hrest, hfrom⟩ := Option.bind_eq_some_iff.1 hfind
  obtain ⟨a, rfl, ha⟩ := Text.drop?_eq_some_iff.1 hrest
  obtain ⟨a', b, rfl, rfl⟩ := exists_of_findCharFrom hfrom
  exact ⟨s, hs, Nat.le_add_right _ _, a ++ a', b, by simp, by simp [ha]⟩

lemma openingParen_advances {source : Text} {name : Option Span} {cursor : Nat}
    (h : Text.isBoundary source cursor = true) (hname : ∀ s ∈ name, cursor ≤ s.offset) :
    Advances source cursor (behind (openingParen source name) cursor) := by
  cases hopening : openingParen source name with
  | none => exact .refl h
  | some opening =>
    obtain ⟨s, hs, hle, a, b, rfl, rfl⟩ := exists_of_openingParen hopening
    have hcursor := hname s hs
    refine ⟨?_, isBoundary_succ rfl⟩
    simp only [behind, Span.stop] at hle ⊢
    omega

lemma exists_of_matchingParen {source : Text} {opening closing : Nat}
    (h : matchingParen source opening = some closing) :
    opening ≤ closing ∧ ∃ a b, source = a ++ ')' :: b ∧ Text.byteLength a = closing := by
  obtain ⟨rest, hrest, hclose⟩ := Option.bind_eq_some_iff.1 h
  obtain ⟨a, rfl, rfl⟩ := Text.drop?_eq_some_iff.1 hrest
  obtain ⟨a', b, rfl, rfl⟩ := exists_of_closingParen hclose
  exact ⟨Nat.le_add_right _ _, a ++ a', b, by simp, by simp⟩

lemma matchingParen_advances {source : Text} {opening closing : Nat}
    (h : matchingParen source opening = some closing) : Advances source opening (closing + 1) := by
  obtain ⟨hle, a, b, rfl, rfl⟩ := exists_of_matchingParen h
  exact ⟨by omega, isBoundary_succ rfl⟩

lemma on_of_matchingParen {source : Text} {opening closing : Nat}
    (h : matchingParen source opening = some closing) : Span.On source ⟨closing, 1⟩ := by
  obtain ⟨-, a, b, rfl, rfl⟩ := exists_of_matchingParen h
  exact ⟨Text.isBoundary_iff.2 ⟨a, _, rfl, rfl⟩, isBoundary_succ rfl⟩

/-! ### White space -/

lemma skipBlanks_advances {source : Text} {pos : Nat} (h : Text.isBoundary source pos = true) :
    Advances source pos (skipBlanks source pos) := by
  obtain ⟨a, rest, rfl, rfl⟩ := Text.isBoundary_iff.1 h
  have hrest : rest.takeWhile Text.isBlank ++ rest.dropWhile Text.isBlank = rest :=
    List.takeWhile_append_dropWhile
  refine ⟨Nat.le_add_right _ _, Text.isBoundary_iff.2 ?_⟩
  refine ⟨a ++ rest.takeWhile Text.isBlank, rest.dropWhile Text.isBlank, ?_, ?_⟩
  · rw [List.append_assoc, hrest]
  · simp [skipBlanks]

lemma standsAt_safe {source : Text} {c : Char} {pos : Nat} (hc : c.utf8Size = 1)
    (h : Text.isBoundary source pos = true) :
    (standsAt source c pos).Safe fun b => b = true → Text.isBoundary source (pos + 1) = true := by
  obtain ⟨a, rest, rfl, rfl, hrest⟩ := restAt_eq h
  rw [standsAt, hrest, Outcome.ok_bind, Outcome.pure_eq, Outcome.safe_ok]
  intro hhead
  cases rest with
  | nil => cases hhead
  | cons d rest =>
    obtain rfl : d = c := by simpa using hhead
    exact isBoundary_succ hc

end Outline

end BslLint
