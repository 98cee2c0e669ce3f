import BslLint.Outline.Program
import BslLint.Proofs.Outline.Soundness

/-!
Placing methods and regions is sound. What the head of a declaration is read from, the lines above
it included, are stretches of the text, so that the name, the annotations, the documentation comment
and the condition of a region get spans that lie on the text.
-/

namespace BslLint

namespace Text

@[simp] lemma byteLength_reverse (t : Text) : byteLength t.reverse = byteLength t := by
  induction t with
  | nil => rfl
  | cons c t ih => simp [ih, Nat.add_comm]

lemma exists_trimEnd (t : Text) : ∃ b, t = trimEnd t ++ b := by
  refine ⟨(t.reverse.takeWhile isBlank).reverse, ?_⟩
  rw [trimEnd, ← List.reverse_append, List.takeWhile_append_dropWhile, List.reverse_reverse]

lemma exists_trim (t : Text) : ∃ b, t = t.takeWhile isBlank ++ trim t ++ b := by
  obtain ⟨b, hb⟩ := exists_trimEnd (trimStart t)
  refine ⟨b, ?_⟩
  calc
    t = t.takeWhile isBlank ++ trimStart t := List.takeWhile_append_dropWhile.symm
    _ = t.takeWhile isBlank ++ (trim t ++ b) := by rw [trim, ← hb]
    _ = t.takeWhile isBlank ++ trim t ++ b := (List.append_assoc ..).symm

end Text

namespace Outline

variable {source : Text}

lemma sliceAt_eq {start stop : Nat} (hle : start ≤ stop)
    (hstart : Text.isBoundary source start = true) (hstop : Text.isBoundary source stop = true) :
    ∃ a m b, source = a ++ m ++ b ∧ Text.byteLength a = start ∧ start + Text.byteLength m = stop ∧
      sliceAt source start stop = .ok m := by
  obtain ⟨m, hm⟩ := Text.exists_slice? hle hstart hstop
  obtain ⟨a, b, hsource, ha, hlen⟩ := Text.slice?_eq_some_iff.1 hm
  exact ⟨a, m, b, hsource, ha, hlen, by simp [sliceAt, hm]⟩

/-! ### The lines above a declaration -/

/-- The line is a stretch of the text. -/
def Line.On (source : Text) (l : Line) : Prop :=
  ∃ a b, source = a ++ l.text ++ b ∧ Text.byteLength a = l.start

namespace Line.On

variable {l : Line}

lemma trimmed (h : l.On source) : Span.On source ⟨l.lead, Text.byteLength (Text.trim l.text)⟩ := by
  obtain ⟨a, b, rfl, ha⟩ := h
  obtain ⟨b', hb'⟩ := Text.exists_trim l.text
  have hon := Span.on_of_append (a := a ++ l.text.takeWhile Text.isBlank)
    (m := Text.trim l.text) (b := b' ++ b)
  rw [Text.byteLength_append, ha] at hon
  have hsource : a ++ l.text.takeWhile Text.isBlank ++ Text.trim l.text ++ (b' ++ b) =
      a ++ l.text ++ b := by
    conv_rhs => rw [hb']
    simp only [List.append_assoc]
  rwa [hsource] at hon

lemma lead (h : l.On source) : Text.isBoundary source l.lead = true := h.trimmed.offset

lemma isBoundary_trimEnd (h : l.On source) :
    Text.isBoundary source (l.start + Text.byteLength (Text.trimEnd l.text)) = true := by
  obtain ⟨a, b, rfl, ha⟩ := h
  obtain ⟨b', hb'⟩ := Text.exists_trimEnd l.text
  refine Text.isBoundary_iff.2 ⟨a ++ Text.trimEnd l.text, b' ++ b, ?_, by simp [ha]⟩
  conv_lhs => rw [hb']
  simp only [List.append_assoc]

end Line.On

-- The first line carries what was read of it so far; it is put back in front of the rest.
lemma exists_of_mem_linesFrom {t : Text} {start : Nat} {line : List Char} {l : Line}
    (h : l ∈ linesFrom start line t) :
    ∃ a b, line.reverse ++ t = a ++ l.text ++ b ∧ start + Text.byteLength a = l.start := by
  induction t generalizing start line with
  | nil =>
    obtain rfl : l = ⟨start, line.reverse⟩ := by simpa [linesFrom] using h
    exact ⟨[], [], by simp, rfl⟩
  | cons c t ih =>
    rw [linesFrom] at h
    split at h
    · rename_i hc
      subst hc
      rcases List.mem_cons.1 h with rfl | h
      · -- Carriage returns at the end belong to what follows the line.
        refine ⟨[], (line.takeWhile (· == '\r')).reverse ++ '\n' :: t, ?_, rfl⟩
        simp only [List.nil_append, ← List.append_assoc, ← List.reverse_append,
          List.takeWhile_append_dropWhile]
      · obtain ⟨a, b, ht, hstart⟩ := ih h
        refine ⟨line.reverse ++ '\n' :: a, b, ?_, ?_⟩
        · have ht' : t = a ++ l.text ++ b := by simpa using ht
          rw [ht']
          simp
        · have hsize : Char.utf8Size '\n' = 1 := rfl
          simp only [Text.byteLength_append, Text.byteLength_reverse, Text.byteLength_cons, hsize]
          omega
    · obtain ⟨a, b, ht, hstart⟩ := ih h
      exact ⟨a, b, by simpa using ht, hstart⟩

lemma linesAbove_safe {pos : Nat} (h : Text.isBoundary source pos = true) :
    (linesAbove source pos).Safe fun above => ∀ l ∈ above, l.On source := by
  have hzero : Text.isBoundary source 0 = true := Text.isBoundary_iff.2 ⟨[], source, rfl, rfl⟩
  obtain ⟨a, m, b, rfl, ha, -, hslice⟩ := sliceAt_eq (Nat.zero_le pos) hzero h
  obtain rfl : a = [] := Text.byteLength_eq_zero_iff.1 ha
  rw [linesAbove, hslice]
  intro l hl
  have hl' : l ∈ linesFrom 0 [] m := (List.dropLast_sublist _).subset (List.mem_reverse.1 hl)
  obtain ⟨a, b', hm, hstart⟩ := exists_of_mem_linesFrom hl'
  refine ⟨a, b' ++ b, ?_, by omega⟩
  rw [List.reverse_nil, List.nil_append] at hm
  rw [List.nil_append, hm, List.append_assoc]

variable {above : List Line}

lemma mem_of_mem_markLines {l : Line} (h : l ∈ markLines above) : l ∈ above :=
  (List.takeWhile_sublist _).subset h

lemma mem_of_mem_commentLines {l : Line} (h : l ∈ commentLines above) : l ∈ above :=
  (List.dropWhile_sublist _).subset ((List.takeWhile_sublist _).subset h)

lemma declarationStart_isBoundary (habove : ∀ l ∈ above, l.On source) {keyword : Nat}
    (h : Text.isBoundary source keyword = true) :
    Text.isBoundary source (declarationStart above keyword) = true := by
  unfold declarationStart
  split
  · rename_i top htop
    exact (habove top (mem_of_mem_markLines (List.mem_of_getLast? htop))).lead
  · exact h

lemma docComment_on (habove : ∀ l ∈ above, l.On source) :
    ∀ s ∈ docComment above, s.On source := by
  intro s hs
  simp only [docComment] at hs
  split at hs
  · rename_i top bottom htop hbottom
    cases hs
    have h₁ := habove top (mem_of_mem_commentLines (List.mem_of_getLast? htop))
    have h₂ := habove bottom (mem_of_mem_commentLines (List.mem_of_head? hbottom))
    exact Span.on_between h₁.lead h₂.isBoundary_trimEnd
  · cases hs

lemma annotations_on (habove : ∀ l ∈ above, l.On source) {x : Annotation}
    (hx : x ∈ (marksAbove above).filterMap Mark.extending?) : ∀ s ∈ x.span, s.On source := by
  obtain ⟨mark, hmark, hx⟩ := List.mem_filterMap.1 hx
  obtain ⟨l, hl, hof⟩ := List.mem_filterMap.1 hmark
  have hon := (habove l (mem_of_mem_markLines (by simpa using hl))).trimmed
  simp only [Mark.ofLine?] at hof
  split at hof
  · cases hof
    cases hx
  · obtain ⟨kind, -, rfl⟩ := Option.map_eq_some_iff.1 hof
    cases hx
    rintro s ⟨⟩
    exact hon

/-! ### Heads -/

lemma seekExport_safe {cursor : Nat} (h : Text.isBoundary source cursor = true) :
    (seekExport source cursor).Safe fun r => Advances source cursor r.2 := by
  obtain ⟨a, rest, hsource, ha, hrest⟩ := restAt_eq h
  rw [seekExport, lineStop, hrest]
  simp only [Outcome.ok_bind, Outcome.pure_eq]
  split
  · rename_i found hfound
    obtain ⟨hon, hle⟩ := exists_of_search hfound
    split
    · exact ⟨Nat.le_trans hle (Nat.le_add_right _ _), hon.stop⟩
    · exact .refl h
  · exact .refl h

/-- The head of a method: its spans lie on the text, and the declaration starts at a boundary. -/
structure MethodHead.Placed (source : Text) (cursor : Nat) (head : MethodHead) : Prop where
  carried : Carried source cursor head.method.spans head.cursor
  start : ∀ p ∈ head.start, Text.isBoundary source p = true

lemma name_on (a rest : Text) (test : Char → Bool) :
    Span.On (a ++ rest) ⟨Text.byteLength a, Text.byteLength (rest.takeWhile test)⟩ := by
  have hon := Span.on_of_append (a := a) (m := rest.takeWhile test) (b := rest.dropWhile test)
  rwa [List.append_assoc, List.takeWhile_append_dropWhile] at hon

lemma MethodHead.placed {keyword cursor c : Nat} {nameSpan : Span}
    (habove : ∀ l ∈ above, l.On source) (hkeyword : Text.isBoundary source keyword = true)
    (hname : nameSpan.On source) (hc : Advances source cursor c) (name : Text) (kind : MethodKind)
    (isExport : Bool) :
    MethodHead.Placed source cursor
      ⟨⟨name, kind, isExport, (marksAbove above).filterMap Mark.directive?,
          (marksAbove above).filterMap Mark.extending?, [], none, some nameSpan, docComment above⟩,
        some (declarationStart above keyword), c⟩ := by
  refine ⟨⟨hc, fun s hs => ?_⟩, ?_⟩
  · simp only [Method.spans, Statement.spansList, List.append_nil, List.mem_append,
      List.mem_flatMap, Option.mem_toList, Option.toList_none, List.not_mem_nil, false_or,
      Option.some.injEq] at hs
    rcases hs with (rfl | hs) | ⟨x, hx, hs⟩
    · exact hname
    · exact docComment_on habove s hs
    · exact annotations_on habove hx s hs
  · rintro p ⟨⟩
    exact declarationStart_isBoundary habove hkeyword

lemma readHead_safe {cursor : Nat} (h : Text.isBoundary source cursor = true) :
    (readHead source cursor).Safe fun head => head.Placed source cursor := by
  unfold readHead
  split
  · exact ⟨(Carried.nil h).mono (by simp [Method.spans, Statement.spansList]), by simp⟩
  · rename_i keyword hkeyword
    obtain ⟨hon, hle⟩ := exists_of_search hkeyword
    have hstop : keyword.offset ≤ keyword.stop := Nat.le_add_right _ _
    obtain ⟨_, word, _, -, -, -, hword⟩ := sliceAt_eq hstop hon.offset hon.stop
    have hnext := skipBlanks_advances hon.stop
    obtain ⟨a, rest, hsource, ha, hrest⟩ := restAt_eq hnext.boundary
    have hname := name_on a rest Text.isIdentifier
    rw [← hsource, ha] at hname
    have hcursor : Advances source cursor (Span.stop ⟨skipBlanks source keyword.stop,
        Text.byteLength (rest.takeWhile Text.isIdentifier)⟩) := by
      refine ⟨?_, hname.stop⟩
      have hskip := hnext.le
      simp only [Span.stop] at hstop hskip ⊢
      omega
    simp only [hword, hrest, Outcome.ok_bind]
    split
    · rename_i closing hclosing
      obtain ⟨opening, hopening, hmatch⟩ := Option.bind_eq_some_iff.1 hclosing
      obtain ⟨s, hs, hparen, -⟩ := exists_of_openingParen hopening
      cases hs
      have hclose := matchingParen_advances hmatch
      have hbehind : Advances source cursor (closing + 1) :=
        ⟨Nat.le_trans hcursor.le (Nat.le_trans hparen hclose.le), hclose.boundary⟩
      refine (seekExport_safe hclose.boundary).bind fun seen hc => ?_
      obtain ⟨isExport, c⟩ := seen
      refine (linesAbove_safe hon.offset).bind fun above habove => ?_
      exact MethodHead.placed habove hon.offset hname (hbehind.trans hc) ..
    · refine (linesAbove_safe hon.offset).bind fun above habove => ?_
      exact MethodHead.placed habove hon.offset hname hcursor ..

lemma readCondition_safe {opening : Option Span} {cursor first : Nat}
    (h : Sought source first opening cursor) :
    (readCondition source opening cursor).Safe fun head =>
      Carried source cursor head.span.toList head.cursor := by
  unfold readCondition
  split
  · exact .nil h.advances.boundary
  · rename_i opening
    obtain ⟨hon, -, rfl⟩ := h.found opening rfl
    split
    · exact .nil hon.stop
    · rename_i closing hclosing
      obtain ⟨hon', hle⟩ := exists_of_search hclosing
      obtain ⟨a, raw, b, rfl, ha, -, hraw⟩ := sliceAt_eq hle hon.stop hon'.offset
      obtain ⟨b', hb'⟩ := Text.exists_trim raw
      have hspan := Span.on_of_append (a := a ++ raw.takeWhile Text.isBlank)
        (m := Text.trim raw) (b := b' ++ b)
      have hsource : a ++ raw.takeWhile Text.isBlank ++ Text.trim raw ++ (b' ++ b) =
          a ++ raw ++ b := by
        conv_rhs => rw [hb']
        simp only [List.append_assoc]
      rw [hsource, Text.byteLength_append, ha] at hspan
      rw [hraw, Outcome.ok_bind]
      have hadvance : Advances (a ++ raw ++ b) opening.stop closing.stop :=
        ⟨Nat.le_trans hle (Nat.le_add_right _ _), hon'.stop⟩
      exact ⟨hadvance, by simpa using hspan⟩

end Outline

namespace ItemOutline

open Outline

variable {source : Text}

mutual

/-- **Placing an item is sound.** -/
lemma place_safe : ∀ (o : ItemOutline) {cursor : Nat}, Text.isBoundary source cursor = true →
    (o.place source cursor).Safe fun r => Carried source cursor r.1.spans r.2
  | .method body, cursor, h => by
    refine (readHead_safe h).bind fun head hhead => ?_
    refine (StatementOutline.placeList_safe body hhead.carried.advances.boundary).bind
      fun ⟨ss, c⟩ hss => ?_
    have hlast := seek_sought (spellings endProcedureWord ++ spellings endFunctionWord)
      hss.advances.boundary
    -- The declaration starts above its keyword, and so before the cursor.
    have hspan : ∀ s ∈ Span.join (head.start.map fun pos => ⟨pos, 0⟩)
        (seek source (spellings endProcedureWord ++ spellings endFunctionWord) c).1,
        s.On source := by
      intro s hs
      obtain ⟨s₁, hs₁, hs⟩ := Option.bind_eq_some_iff.1 hs
      obtain ⟨s₂, hs₂, hs⟩ := Option.bind_eq_some_iff.1 hs
      cases hs
      obtain ⟨p, hp, rfl⟩ := Option.map_eq_some_iff.1 hs₁
      exact Span.on_between (hhead.start p hp) (hlast.on s₂ hs₂).stop
    have hparts := hhead.carried.trans hss
    refine ⟨hparts.advances.trans hlast.advances, fun s hs => ?_⟩
    simp only [Item.spans, Method.spans, List.mem_append, Option.mem_toList] at hs
    rcases hs with (((hs | hs) | hs) | hs) | hs
    · exact hspan s hs
    all_goals exact hparts.spans s (by simp [Method.spans, hs])
  | .region items, cursor, h => by
    have hopening := seek_sought (spellings regionWord) h
    refine (readCondition_safe hopening).bind fun head hhead => ?_
    refine (placeList_safe items hhead.advances.boundary).bind fun ⟨is, c⟩ his => ?_
    have hclosing := seek_sought (spellings endRegionWord) his.advances.boundary
    have hparts := hhead.trans his
    have hadvance := hparts.advances.trans hclosing.advances
    refine ⟨hopening.advances.trans hadvance, fun s hs => ?_⟩
    simp only [Item.spans, List.mem_append, Option.mem_toList] at hs
    rcases hs with (hs | hs) | hs
    · obtain ⟨s₁, hs₁, hs⟩ := Option.bind_eq_some_iff.1 hs
      obtain ⟨s₂, hs₂, hs⟩ := Option.bind_eq_some_iff.1 hs
      cases hs
      exact Span.on_between (hopening.on s₁ hs₁).offset (hclosing.on s₂ hs₂).stop
    all_goals exact hparts.spans s (by simp [hs])

lemma placeList_safe : ∀ (os : List ItemOutline) {cursor : Nat},
    Text.isBoundary source cursor = true →
      (placeList source os cursor).Safe fun r => Carried source cursor (Item.spansList r.1) r.2
  | [], cursor, h => .nil h
  | o :: os, cursor, h => by
    refine (o.place_safe h).bind fun ⟨i, c⟩ hi => ?_
    exact (placeList_safe os hi.advances.boundary).bind fun ⟨is, c'⟩ his => hi.trans his

end

end ItemOutline

end BslLint
