import BslLint.Proofs.Json.Reading
import Mathlib.Data.List.Forall2

/-!
What is written is read back, on one line and on several lines. Both layouts write the same parts;
they differ in the white space around these, and a reader passes over it. Values are taken that hold
no numbers but natural ones (`Json.Plain`).
-/

namespace BslLint

namespace Json

/-- The value holds no numbers but natural ones, which are offsets if the reader is strict. -/
inductive Plain (strict : Bool) : Json → Prop
  | null : Plain strict .null
  | bool (b : Bool) : Plain strict (.bool b)
  | natural {n : Nat} (h : strict = true → n < offsetLimit) : Plain strict (.natural n)
  | string (s : String) : Plain strict (.string s)
  | array {vs : List Json} (h : ∀ v ∈ vs, Plain strict v) : Plain strict (.array vs)
  | object {ms : List (String × Json)} (h : ∀ m ∈ ms, Plain strict m.2) : Plain strict (.object ms)

variable {strict : Bool} {depth : Nat}

/-! ### Parts with commas between them -/

def listed (parts : List Text) : Text := [','].intercalate parts

lemma listed_singleton (part : Text) : listed [part] = part := by
  simp [listed]

lemma listed_cons_cons (part part' : Text) (parts : List Text) :
    listed (part :: part' :: parts) = part ++ ',' :: listed (part' :: parts) := by
  simp [listed, List.intercalate_cons_cons]

lemma writtenElements_listed {vs : List Json} {ts : List Text} {g : Text}
    (h : List.Forall₂ (Spaced strict depth) vs ts) (hg : Gap g) :
    WrittenElements strict depth vs (listed ts ++ g) := by
  induction h with
  | nil => exact .none depth hg
  | @cons v t vs ts hv hvs ih =>
    cases hvs with
    | nil =>
      rw [listed_singleton]
      exact .last (hv.append hg)
    | cons _ _ =>
      rw [listed_cons_cons, List.append_assoc, List.cons_append]
      exact .more hv ih

lemma writtenMembers_listed {ms : List (String × Json)} {ts : List Text} {g : Text}
    (h : List.Forall₂ (WrittenMember strict depth) ms ts) (hg : Gap g) :
    WrittenMembers strict depth ms (listed ts ++ g) := by
  induction h with
  | nil => exact .none depth hg
  | @cons m t ms ts hm hms ih =>
    cases hms with
    | nil =>
      rw [listed_singleton]
      exact .last (hm.append hg)
    | cons _ _ =>
      rw [listed_cons_cons, List.append_assoc, List.cons_append]
      exact .more hm ih

/-! ### Nesting -/

lemma depth_le_depthElements {v : Json} {vs : List Json} (h : v ∈ vs) :
    v.depth ≤ depthElements vs := by
  induction vs with
  | nil => cases h
  | cons w vs ih =>
    rw [depthElements]
    rcases List.mem_cons.1 h with rfl | h
    · exact Nat.le_max_left ..
    · exact (ih h).trans (Nat.le_max_right ..)

lemma depth_le_depthMembers {m : String × Json} {ms : List (String × Json)} (h : m ∈ ms) :
    m.2.depth ≤ depthMembers ms := by
  induction ms with
  | nil => cases h
  | cons n ms ih =>
    rw [depthMembers, depthMember]
    rcases List.mem_cons.1 h with rfl | h
    · exact Nat.le_max_left ..
    · exact (ih h).trans (Nat.le_max_right ..)

lemma depth_of_array {vs : List Json} (h : strict = true → (array vs).depth ≤ depth) :
    (strict = true → depth ≠ 0) ∧ ∀ v ∈ vs, strict = true → v.depth ≤ depth - 1 := by
  simp only [Json.depth] at h
  refine ⟨fun hs => ?_, fun v hv hs => ?_⟩
  · have := h hs
    omega
  · have hle := depth_le_depthElements hv
    have := h hs
    omega

lemma depth_of_object {ms : List (String × Json)}
    (h : strict = true → (object ms).depth ≤ depth) :
    (strict = true → depth ≠ 0) ∧ ∀ m ∈ ms, strict = true → m.2.depth ≤ depth - 1 := by
  simp only [Json.depth] at h
  refine ⟨fun hs => ?_, fun m hm hs => ?_⟩
  · have := h hs
    omega
  · have hle := depth_le_depthMembers hm
    have := h hs
    omega

/-! ### On one line -/

lemma compactElements_eq_map (vs : List Json) : compactElements vs = vs.map compact := by
  induction vs with
  | nil => rfl
  | cons v vs ih => rw [compactElements, ih, List.map_cons]

lemma compactMembers_eq_map (ms : List (String × Json)) :
    compactMembers ms = ms.map compactMember := by
  induction ms with
  | nil => rfl
  | cons m ms ih => rw [compactMembers, ih, List.map_cons]

lemma toList_compact_array (vs : List Json) : (compact (.array vs)).toList =
    '[' :: (listed (vs.map fun v => (compact v).toList) ++ [']']) := by
  simp [compact, compactElements_eq_map, listed, Function.comp_def]

lemma toList_compact_object (ms : List (String × Json)) : (compact (.object ms)).toList =
    '{' :: (listed (ms.map fun m => (compactMember m).toList) ++ ['}']) := by
  simp [compact, compactMembers_eq_map, listed, Function.comp_def]

/-- **A value on one line** is written. -/
lemma written_compact {v : Json} (hv : v.Plain strict) {depth : Nat}
    (hdepth : strict = true → v.depth ≤ depth) : Written strict depth v (compact v).toList := by
  induction hv generalizing depth with
  | null => exact .null depth
  | bool b => cases b <;> exact .bool depth _
  | @natural n hn =>
    have hdigits : (compact (.natural n)).toList = Nat.toDigits 10 n := by simp [compact]
    rw [hdigits]
    exact .natural depth hn
  | string s => exact .string depth s
  | @array vs _ ih =>
    obtain ⟨hopen, hdepth⟩ := depth_of_array hdepth
    rw [toList_compact_array, ← List.append_nil (listed _)]
    refine .array hopen
      (writtenElements_listed (List.forall₂_map_right_iff.2 (List.forall₂_same.2 ?_)) gap_nil)
    intro v hv
    exact .of_written (ih v hv (hdepth v hv))
  | @object ms _ ih =>
    obtain ⟨hopen, hdepth⟩ := depth_of_object hdepth
    rw [toList_compact_object, ← List.append_nil (listed _)]
    refine .object hopen
      (writtenMembers_listed (List.forall₂_map_right_iff.2 (List.forall₂_same.2 ?_)) gap_nil)
    rintro ⟨key, v⟩ hm
    have hmember : (compactMember (key, v)).toList =
        [] ++ ((quote key).toList ++ ':' :: (compact v).toList) := by
      simp [compactMember]
    have hv : Spaced strict (depth - 1) v (compact v).toList :=
      .of_written (ih (key, v) hm (hdepth (key, v) hm))
    rw [hmember]
    exact .of_spaced key gap_nil hv

/-! ### On several lines -/

lemma prettyElements_eq_map (indent : String) (vs : List Json) :
    prettyElements indent vs = vs.map (prettyAt indent) := by
  induction vs with
  | nil => rfl
  | cons v vs ih => rw [prettyElements, ih, List.map_cons]

lemma prettyMembers_eq_map (indent : String) (ms : List (String × Json)) :
    prettyMembers indent ms = ms.map (prettyMember indent) := by
  induction ms with
  | nil => rfl
  | cons m ms ih => rw [prettyMembers, ih, List.map_cons]

lemma append_intercalate (g : Text) {ts : List Text} (h : ts ≠ []) :
    g ++ (',' :: g).intercalate ts = listed (ts.map (g ++ ·)) := by
  induction ts with
  | nil => exact absurd rfl h
  | cons t ts ih =>
    cases ts with
    | nil => simp [listed]
    | cons t' ts =>
      rw [List.map_cons, List.map_cons, listed_cons_cons, ← List.map_cons, ← ih (by simp),
        List.intercalate_cons_cons]
      simp

lemma exists_block (opening closing : Char) {indent : String} (hindent : Gap indent.toList)
    (parts : List String) :
    ∃ g, Gap g ∧ (block (String.singleton opening) (String.singleton closing) indent parts).toList =
      opening :: (listed (parts.map fun p => '\n' :: (indent ++ "  ").toList ++ p.toList) ++ g ++
        [closing]) := by
  cases parts with
  | nil => exact ⟨[], gap_nil, by simp [block, listed]⟩
  | cons p parts =>
    refine ⟨'\n' :: indent.toList, gap_cons rfl hindent, ?_⟩
    have hlines : (p :: parts).map (fun p => (indent ++ "  ").toList ++ p.toList) ≠ [] := by simp
    have hparts := append_intercalate ['\n'] hlines
    have hshape : ((p :: parts).map fun p => '\n' :: (indent ++ "  ").toList ++ p.toList) =
        ((p :: parts).map fun p => (indent ++ "  ").toList ++ p.toList).map (['\n'] ++ ·) := by
      simp
    rw [hshape, ← hparts]
    have hblock : (block (String.singleton opening) (String.singleton closing) indent
        (p :: parts)).toList = [opening] ++ ['\n'] ++ [',', '\n'].intercalate
          ((p :: parts).map fun p => (indent ++ "  ").toList ++ p.toList) ++ ['\n'] ++
          indent.toList ++ [closing] := by
      simp only [block, String.toList_append, String.toList_intercalate, List.map_map,
        Function.comp_def, String.toList_singleton]
      rfl
    rw [hblock]
    simp only [List.append_assoc, List.cons_append, List.nil_append]

lemma gap_indent {indent : String} (h : Gap indent.toList) : Gap (indent ++ "  ").toList := by
  rw [String.toList_append]
  exact gap_append h (gap_cons rfl (gap_cons rfl gap_nil))

/-- **A value on several lines** is written. -/
lemma written_prettyAt {v : Json} (hv : v.Plain strict) {depth : Nat} {indent : String}
    (hindent : Gap indent.toList) (hdepth : strict = true → v.depth ≤ depth) :
    Written strict depth v (prettyAt indent v).toList := by
  induction hv generalizing depth indent with
  | null => exact .null depth
  | bool b => cases b <;> exact .bool depth _
  | @natural n hn =>
    have hdigits : (prettyAt indent (.natural n)).toList = Nat.toDigits 10 n := by simp [prettyAt]
    rw [hdigits]
    exact .natural depth hn
  | string s => exact .string depth s
  | @array vs _ ih =>
    obtain ⟨hopen, hdepth⟩ := depth_of_array hdepth
    obtain ⟨g, hg, htext⟩ := exists_block '[' ']' hindent (prettyElements (indent ++ "  ") vs)
    rw [prettyElements_eq_map, List.map_map] at htext
    have hinner := gap_indent hindent
    rw [prettyAt, prettyElements_eq_map]
    refine htext ▸ .array hopen
      (writtenElements_listed (List.forall₂_map_right_iff.2 (List.forall₂_same.2 ?_)) hg)
    intro v hv
    exact (Spaced.of_written (ih v hv hinner (hdepth v hv))).prepend (gap_cons rfl hinner)
  | @object ms _ ih =>
    obtain ⟨hopen, hdepth⟩ := depth_of_object hdepth
    obtain ⟨g, hg, htext⟩ := exists_block '{' '}' hindent (prettyMembers (indent ++ "  ") ms)
    rw [prettyMembers_eq_map, List.map_map] at htext
    have hinner := gap_indent hindent
    rw [prettyAt, prettyMembers_eq_map]
    refine htext ▸ .object hopen
      (writtenMembers_listed (List.forall₂_map_right_iff.2 (List.forall₂_same.2 ?_)) hg)
    rintro ⟨key, v⟩ hm
    have hmember : '\n' :: (indent ++ "  ").toList ++
        (prettyMember (indent ++ "  ") (key, v)).toList = '\n' :: (indent ++ "  ").toList ++
          ((quote key).toList ++ ':' :: ([' '] ++ (prettyAt (indent ++ "  ") v).toList)) := by
      simp [prettyMember]
    have hv : Spaced strict (depth - 1) v ([' '] ++ (prettyAt (indent ++ "  ") v).toList) :=
      (Spaced.of_written (ih (key, v) hm hinner (hdepth (key, v) hm))).prepend
        (gap_cons rfl gap_nil)
    rw [Function.comp_apply, hmember]
    exact .of_spaced key (gap_cons rfl hinner) hv

/-! ### Whole texts -/

lemma gap_empty : Gap "".toList := by simp [Gap]

/-- The value that a text writes, with numbers of any size and any nesting. -/
def anyValue? (t : Text) : Option Json := whole? (readValue false (stepsFor t) 0 t)

/-- **A text on several lines is read back** with the white space behind it, whatever its numbers
and its nesting. -/
theorem anyValue?_pretty {v : Json} (hv : v.Plain false) {g : Text} (hg : Gap g) :
    anyValue? ((pretty v).toList ++ g) = some v :=
  whole?_of_spaced ((Spaced.of_written (written_prettyAt hv gap_empty (by simp))).append hg)

/-- **A text on several lines is parsed back** if its numbers are offsets and it is not nested too
deeply. -/
theorem parse?_pretty {v : Json} (hv : v.Plain true) (hdepth : v.depth ≤ maxDepth) :
    parse? (pretty v).toList = some v :=
  whole?_of_spaced (Spaced.of_written (written_prettyAt hv gap_empty fun _ => hdepth))

/-! ### Records -/

lemma readWanted_of_readMembers {wanted : String → Bool} {steps depth : Nat} {t rest : Text}
    {ms : List (String × Json)} (h : readMembers true steps depth t = some (ms, rest))
    (hwanted : ∀ m ∈ ms, wanted m.1 = true) :
    readWanted wanted steps depth t = some (ms, rest) := by
  induction steps generalizing t rest ms with
  | zero => simp [readMembers] at h
  | succ steps ih =>
    simp only [readMembers, Option.bind_eq_bind, Option.bind_eq_some_iff] at h
    obtain ⟨⟨key, t₁⟩, hkey, ⟨v, t₂⟩, hv, h⟩ := h
    simp only [readWanted, Option.bind_eq_bind, hkey, Option.bind_some]
    split at h
    · rename_i t₃ hend
      cases h
      rw [hwanted (key, v) (by simp), hv]
      simp [hend]
    · rename_i t₃ hcomma
      obtain ⟨⟨ms', t₄⟩, hms, h⟩ := Option.bind_eq_some_iff.1 h
      cases h
      have hrest := ih hms fun m hm => hwanted m (List.mem_cons_of_mem _ hm)
      rw [hwanted (key, v) (by simp), hv]
      simp [hcomma, hrest]
    · cases h

/-- **A record is read** if it has no members but those that are wanted. -/
theorem parseRecord?_of_written {wanted : String → Bool} {ms : List (String × Json)} {t : Text}
    (h : Written true maxDepth (.object ms) t) (hwanted : ∀ m ∈ ms, wanted m.1 = true) :
    parseRecord? wanted t = some (.object ms) := by
  cases h with
  | @object _ _ t _ hms =>
    rw [parseRecord?, skipGaps_cons rfl]
    cases ms with
    | nil =>
      cases hms with
      | none _ hg =>
        simp only [skipGaps_append hg, skipGaps_cons (c := '}') rfl]
        rfl
    | cons m ms =>
      obtain ⟨u, hskip⟩ := hms.exists_first ['}']
      have hread := (readsWithin true (stepsFor ('{' :: (t ++ ['}'])))).members [] hms
        (by simp only [stepsFor, List.length_cons, List.length_append]; omega)
      rw [← readMembers_skipGaps, hskip] at hread
      have hwhole := readWanted_of_readMembers hread hwanted
      simp only [hskip]
      simp [hwhole, whole?, skipGaps]

/-- **A record on one line is read back.** -/
theorem parseRecord?_compact {wanted : String → Bool} {ms : List (String × Json)}
    (hplain : (object ms).Plain true) (hdepth : (object ms).depth ≤ maxDepth)
    (hwanted : ∀ m ∈ ms, wanted m.1 = true) :
    parseRecord? wanted (compact (.object ms)).toList = some (.object ms) :=
  parseRecord?_of_written (written_compact hplain fun _ => hdepth) hwanted

end Json

end BslLint
