import BslLint.Proofs.Lint.LinkSpacing
import BslLint.Proofs.Text.Character
import Mathlib.Data.List.TakeWhile

/-!
Where a keyword can stand, and what it takes to report it.

A keyword is spelled with letters up to its last character (`Keyword.Spells.parts`). So no other
keyword begins inside it, and none begins in separators or white space (`Silent`): a run over a
comment passes such a text at once. What is reported is a keyword that stands apart from what is
before it and is badly separated from what is behind it (`Mending`).
-/

namespace BslLint.LinkSpacing

open Text

/-! ### Spellings -/

/-- The text is the keyword, each character up to case. -/
structure Keyword.Spells (k : Keyword) (m : Text) : Prop where
  mem : k ∈ keywords
  length : m.length = k.text.length
  folds : startsWithFold k.text m = true

lemma length_le_of_startsWithFold {p t : Text} (h : startsWithFold p t = true) :
    p.length ≤ t.length := by
  induction p generalizing t with
  | nil => exact Nat.zero_le _
  | cons q p ih =>
    cases t with
    | nil => simp [startsWithFold] at h
    | cons c t =>
      simp only [startsWithFold, Bool.and_eq_true] at h
      simpa using ih h.2

lemma startsWithFold_append {p m : Text} (h : p.length ≤ m.length) (t : Text) :
    startsWithFold p (m ++ t) = startsWithFold p m := by
  induction p generalizing m with
  | nil => simp [startsWithFold]
  | cons q p ih =>
    cases m with
    | nil => simp at h
    | cons c m => simp [startsWithFold, ih (m := m) (by simpa using h)]

lemma startsWithFold_concat {p m : Text} {q : Char} (h : startsWithFold (p ++ [q]) m = true)
    (hlength : m.length = p.length + 1) :
    ∃ init last, m = init ++ [last] ∧ startsWithFold p init = true ∧ init.length = p.length ∧
      lowerChar last = lowerChar q := by
  induction p generalizing m with
  | nil =>
    obtain ⟨c, rfl⟩ := List.length_eq_one_iff.1 hlength
    exact ⟨[], c, rfl, rfl, rfl, by simpa [startsWithFold] using h⟩
  | cons q' p ih =>
    obtain ⟨c, m, rfl⟩ := List.exists_cons_of_length_eq_add_one hlength
    rw [List.cons_append, startsWithFold, Bool.and_eq_true] at h
    obtain ⟨init, last, rfl, hinit, hl, hlast⟩ := ih h.2 (by simpa using hlength)
    exact ⟨c :: init, last, rfl, by simp [startsWithFold, hinit, h.1], by simp [hl], hlast⟩

lemma exists_lowerChar_eq {p m : Text} (h : startsWithFold p m = true)
    (hlength : m.length = p.length) {c : Char} (hc : c ∈ m) :
    ∃ q ∈ p, lowerChar c = lowerChar q := by
  induction p generalizing m with
  | nil =>
    obtain rfl := List.length_eq_zero_iff.1 hlength
    simp at hc
  | cons q p ih =>
    obtain ⟨d, m, rfl⟩ := List.exists_cons_of_length_eq_add_one hlength
    rw [startsWithFold, Bool.and_eq_true, beq_iff_eq] at h
    rcases List.mem_cons.1 hc with rfl | hc
    · exact ⟨q, by simp, h.1⟩
    · obtain ⟨q', hq', heq⟩ := ih h.2 (by simpa using hlength) hc
      exact ⟨q', by simp [hq'], heq⟩

/-- What the case variants of the characters of a keyword are: letters up to the last character,
which is a letter just in an ordinary word and never white space. -/
lemma keyword_variants : ∀ k ∈ keywords, ∃ p q, k.text = p ++ [q] ∧ p ≠ [] ∧
    (k.text.all fun d => d.toNat ≠ 0x130 ∧ 0 < (Char.ofNat (lowerCode d.toNat caseRuns)).toNat) ∧
    (p.all fun d => (caseVariants d).all isAlphabetic) ∧
    (caseVariants q).all fun c => isAlphabetic c = k.isOrdinary ∧ isBlank c = false := by
  -- The tests are `List.all`, so that they run over these lists and not over all characters.
  intro k hk
  simp only [keywords, List.mem_cons, List.not_mem_nil, or_false] at hk
  rcases hk with rfl | rfl
  · exact ⟨['С', 'м'], '.', by decide +kernel⟩
  · exact ⟨['S', 'e'], 'e', by decide +kernel⟩

/-- **How a keyword is spelled**: with letters, and with a last character that is a letter just in
an ordinary word. -/
lemma Keyword.Spells.parts {k : Keyword} {m : Text} (h : k.Spells m) :
    ∃ init last, m = init ++ [last] ∧ init ≠ [] ∧ (∀ c ∈ init, isAlphabetic c = true) ∧
      isAlphabetic last = k.isOrdinary ∧ isBlank last = false := by
  obtain ⟨p, q, htext, hp, hcodes, hletters, hlast⟩ := keyword_variants k h.mem
  simp only [List.all_eq_true, decide_eq_true_eq] at hcodes hletters hlast
  have hvariant : ∀ c d, d ∈ k.text → lowerChar c = lowerChar d → c ∈ caseVariants d :=
    fun c d hd => mem_caseVariants (hcodes d hd).1 (hcodes d hd).2
  obtain ⟨init, last, rfl, hinit, hlength, heq⟩ :=
    startsWithFold_concat (htext ▸ h.folds) (by rw [h.length, htext, List.length_append]; rfl)
  refine ⟨init, last, rfl, ?_, fun c hc => ?_, hlast last (hvariant last q (by simp [htext]) heq)⟩
  · rintro rfl
    exact hp (List.length_eq_zero_iff.1 hlength.symm)
  · obtain ⟨d, hd, hcd⟩ := exists_lowerChar_eq hinit hlength hc
    exact hletters d hd c (hvariant c d (by simp [htext, hd]) hcd)

lemma Keyword.Spells.not_isBlank {k : Keyword} {m : Text} (h : k.Spells m) :
    ∀ c ∈ m, isBlank c = false := by
  obtain ⟨init, last, rfl, -, hletters, -, hlast⟩ := h.parts
  intro c hc
  rcases List.mem_append.1 hc with hc | hc
  · simpa using not_isBlank_of_isIdentifier (isIdentifier_of_isAlphabetic (hletters c hc))
  · rwa [List.mem_singleton.1 hc]

lemma Keyword.Spells.exists_cons {k : Keyword} {m : Text} (h : k.Spells m) :
    ∃ c t, m = c :: t ∧ isAlphabetic c = true := by
  obtain ⟨init, last, rfl, hne, hletters, -⟩ := h.parts
  obtain ⟨c, t, rfl⟩ := List.exists_cons_of_ne_nil hne
  exact ⟨c, t ++ [last], rfl, hletters c (by simp)⟩

lemma Keyword.Spells.unique {k k' : Keyword} {m m' t t' : Text} (h : k.Spells m)
    (h' : k'.Spells m') (heq : m ++ t = m' ++ t') : k = k' ∧ m = m' ∧ t = t' := by
  have hlengths : ∀ k ∈ keywords, ∀ k' ∈ keywords, k.text.length = k'.text.length := by decide
  have hheads : ∀ k ∈ keywords, ∀ k' ∈ keywords,
      k.text.head?.map lowerChar = k'.text.head?.map lowerChar → k = k' := by decide +kernel
  obtain ⟨rfl, rfl⟩ :=
    List.append_inj heq (by rw [h.length, h'.length, hlengths k h.mem k' h'.mem])
  refine ⟨hheads k h.mem k' h'.mem ?_, rfl, rfl⟩
  have hhead : ∀ {p : Text}, m.length = p.length → startsWithFold p m = true →
      p.head?.map lowerChar = m.head?.map lowerChar := by
    intro p hlength hfolds
    cases p with
    | nil => rw [List.length_eq_zero_iff.1 hlength]
    | cons q p =>
      obtain ⟨c, m, rfl⟩ := List.exists_cons_of_length_eq_add_one hlength
      simp only [startsWithFold, Bool.and_eq_true, beq_iff_eq] at hfolds
      simp [hfolds.1]
  rw [hhead h.length h.folds, hhead h'.length h'.folds]

lemma find?_keywords_eq_some_iff {t : Text} {k : Keyword} :
    (keywords.find? fun k => startsWithFold k.text t) = some k ↔
      ∃ m tail, t = m ++ tail ∧ k.Spells m := by
  have hspells : ∀ {k}, (keywords.find? fun k => startsWithFold k.text t) = some k →
      k.Spells (t.take k.text.length) := fun {k} hfind => by
    have hfolds : startsWithFold k.text t = true := by
      simpa using List.find?_some hfind
    have hlength := length_le_of_startsWithFold hfolds
    refine ⟨List.mem_of_find?_eq_some hfind, by rw [List.length_take]; omega, ?_⟩
    rwa [← startsWithFold_append (by rw [List.length_take]; omega) (t.drop k.text.length),
      List.take_append_drop]
  constructor
  · intro hfind
    exact ⟨_, _, (List.take_append_drop k.text.length t).symm, hspells hfind⟩
  · rintro ⟨m, tail, rfl, hm⟩
    cases hfind : keywords.find? fun k => startsWithFold k.text (m ++ tail) with
    | none =>
      have hfolds := List.find?_eq_none.1 hfind k hm.mem
      rw [startsWithFold_append (Nat.le_of_eq hm.length.symm), hm.folds] at hfolds
      exact absurd rfl hfolds
    | some k' =>
      rw [(hm.unique (hspells hfind) (List.take_append_drop _ _).symm).1]

/-! ### What is reported -/

/-- What is wrong behind a keyword, and how it is mended: `run` stands between the keyword and white
space (`kept`) or a link (at the front of `rest`), and `new` takes its place. An ordinary word
counts without separators only in front of a qualified name. -/
inductive Mending (k : Keyword) : Text → Text → Text → Text → Prop
  | attached {c : Char} {t : Text} (start : isIdentifier c = true) (plain : isSeparator c = false)
      (qualified : k.isOrdinary = true → '.' ∈ (c :: t).takeWhile fun c => !isBlank c) :
      Mending k [] [' '] [] (c :: t)
  | doubled {run : Text} {c : Char} (nonempty : run ≠ [])
      (separators : ∀ c ∈ run, isSeparator c = true) (blank : c = ' ' ∨ c = '\t') (t : Text) :
      Mending k run [] [c] t
  | separated {run : Text} {c : Char} {t : Text} (nonempty : run ≠ [])
      (separators : ∀ c ∈ run, isSeparator c = true) (start : isIdentifier c = true)
      (plain : isSeparator c = false) : Mending k run [' '] [] (c :: t)

lemma Mending.exists_blank {k : Keyword} {run new kept rest : Text}
    (h : Mending k run new kept rest) : ∃ c, new ++ kept = [c] ∧ (c = ' ' ∨ c = '\t') := by
  cases h with
  | attached => exact ⟨' ', rfl, Or.inl rfl⟩
  | @doubled _ c _ _ blank => exact ⟨c, rfl, blank⟩
  | separated => exact ⟨' ', rfl, Or.inl rfl⟩

lemma isBlank_of_space_or_tab {c : Char} (h : c = ' ' ∨ c = '\t') :
    isBlank c = true ∧ isSeparator c = false ∧ isIdentifier c = false ∧ isAlphabetic c = false := by
  rcases h with rfl | rfl <;> decide +kernel

lemma not_isAlphabetic_of_isSeparator {c : Char} (h : isSeparator c = true) :
    isAlphabetic c = false := by
  simp only [isSeparator, Bool.or_eq_true, beq_iff_eq] at h
  rcases h with rfl | rfl <;> decide +kernel

lemma Mending.not_isAlphabetic {k : Keyword} {run new kept rest : Text}
    (h : Mending k run new kept rest) : ∀ c ∈ run ++ kept, isAlphabetic c = false := by
  cases h with
  | attached => simp
  | doubled _ separators blank =>
    intro c hc
    rcases List.mem_append.1 hc with hc | hc
    · exact not_isAlphabetic_of_isSeparator (separators c hc)
    · rw [List.mem_singleton.1 hc]
      exact (isBlank_of_space_or_tab blank).2.2.2
  | separated _ separators =>
    simpa using fun c hc => not_isAlphabetic_of_isSeparator (separators c hc)

lemma takeWhile_isSeparator {run : Text} (hrun : ∀ c ∈ run, isSeparator c = true) (rest : Text)
    (hrest : ∀ c ∈ rest.head?, isSeparator c = false) :
    (run ++ rest).takeWhile isSeparator = run ∧ (run ++ rest).dropWhile isSeparator = rest := by
  rw [List.takeWhile_append_of_pos hrun, List.dropWhile_append_of_pos hrun]
  cases rest with
  | nil => simp
  | cons c t =>
    have hc : isSeparator c = false := hrest c rfl
    simp [hc]

lemma Mending.exists_issueBehind {k : Keyword} {run new kept rest : Text}
    (h : Mending k run new kept rest) (m : Text) (pos : Nat) :
    ∃ i, issueBehind k m pos (run ++ kept ++ rest) = some i ∧
      i.edit = ⟨pos + byteLength m, byteLength run, new⟩ := by
  cases h with
  | attached start plain qualified =>
    simp only [issueBehind, List.nil_append, List.takeWhile_cons, List.dropWhile_cons, plain]
    cases hk : k.isOrdinary with
    | false => simp [start, Edit.insert]
    | true =>
      have hlink := qualified hk
      simp_all [Edit.insert]
  | @doubled _ c nonempty separators blank t =>
    obtain ⟨htake, hdrop⟩ := takeWhile_isSeparator separators ([c] ++ rest)
      (by simpa using (isBlank_of_space_or_tab blank).2.1)
    have hempty : run.isEmpty = false := by simpa using nonempty
    rw [List.append_assoc]
    simp only [issueBehind, htake, hdrop, hempty]
    rcases blank with rfl | rfl <;> simp [Edit.delete, Edit.replace]
  | @separated _ c t nonempty separators start plain =>
    obtain ⟨htake, hdrop⟩ := takeWhile_isSeparator separators (c :: t) (by simpa using plain)
    have hempty : run.isEmpty = false := by simpa using nonempty
    have hblank : ¬(c = ' ' ∨ c = '\t') := fun hblank => by
      simp [(isBlank_of_space_or_tab hblank).2.2.1] at start
    rw [List.append_nil]
    simp only [issueBehind, htake, hdrop, hempty]
    simp [start, hblank, Edit.replace]

lemma exists_mending {k : Keyword} {m tail : Text} {pos : Nat} {i : Issue}
    (h : issueBehind k m pos tail = some i) :
    ∃ run new kept rest, tail = run ++ kept ++ rest ∧ Mending k run new kept rest := by
  have htail : tail.takeWhile isSeparator ++ tail.dropWhile isSeparator = tail :=
    List.takeWhile_append_dropWhile
  have hall : ∀ c ∈ tail.takeWhile isSeparator, isSeparator c = true := fun c hc =>
    List.mem_takeWhile_imp hc
  unfold issueBehind at h
  dsimp only at h
  split at h
  case isTrue => cases h
  case isFalse hlink =>
  split at h
  case h_1 => cases h
  case h_2 c t hafter =>
    have hplain : isSeparator c = false := by
      have hhead := List.head?_dropWhile_not isSeparator tail
      rwa [hafter] at hhead
    rw [hafter] at htail hlink
    split at h
    case isTrue hrun =>
      have hnil := List.isEmpty_iff.1 hrun
      split at h
      case isTrue hstart =>
        cases h
        refine ⟨[], [' '], [], c :: t, by rw [← htail, hnil]; rfl, .attached hstart hplain ?_⟩
        simpa [hrun] using hlink
      case isFalse => cases h
    case isFalse hrun =>
      have hne : tail.takeWhile isSeparator ≠ [] := by simpa using hrun
      split at h
      case isTrue hblank =>
        cases h
        refine ⟨_, [], [c], t, ?_, .doubled hne hall (by simpa using hblank) t⟩
        rw [List.append_assoc]
        exact htail.symm
      case isFalse =>
        split at h
        case isTrue hstart =>
          cases h
          refine ⟨_, [' '], [], c :: t, ?_, .separated hne hall hstart hplain⟩
          rw [List.append_nil]
          exact htail.symm
        case isFalse => cases h

/-- A keyword stands at the front of the text, apart from what is before it, and it is badly
separated from what is behind it. -/
def Reported (before : Option Char) (t : Text) : Prop :=
  before.any isAlphabetic = false ∧ ∃ k m run new kept rest, t = m ++ (run ++ kept ++ rest) ∧
    k.Spells m ∧ Mending k run new kept rest

lemma issueAt_append {k : Keyword} {m : Text} (hm : k.Spells m) {before : Option Char}
    (hbefore : before.any isAlphabetic = false) (pos : Nat) (tail : Text) :
    issueAt before pos (m ++ tail) = issueBehind k m pos tail := by
  have hfind := find?_keywords_eq_some_iff.2 ⟨m, tail, rfl, hm⟩
  unfold issueAt
  rw [hfind]
  simp [hbefore, ← hm.length]

lemma exists_spells_of_issueAt {before : Option Char} {pos : Nat} {t : Text} {i : Issue}
    (h : issueAt before pos t = some i) :
    before.any isAlphabetic = false ∧ ∃ k m tail, t = m ++ tail ∧ k.Spells m ∧
      issueBehind k m pos tail = some i := by
  have hbefore : before.any isAlphabetic = false := by
    unfold issueAt at h
    split at h
    · cases h
    · split at h
      · cases h
      · simp_all
  cases hfind : keywords.find? fun k => startsWithFold k.text t with
  | none =>
    unfold issueAt at h
    rw [hfind] at h
    cases h
  | some k =>
    obtain ⟨m, tail, rfl, hm⟩ := find?_keywords_eq_some_iff.1 hfind
    rw [issueAt_append hm hbefore] at h
    exact ⟨hbefore, k, m, tail, rfl, hm, h⟩

lemma issueAt_eq_none_iff {before : Option Char} {pos : Nat} {t : Text} :
    issueAt before pos t = none ↔ ¬Reported before t := by
  rw [← not_iff_not, not_not, ← ne_eq, Option.ne_none_iff_exists']
  constructor
  · rintro ⟨i, hi⟩
    obtain ⟨hbefore, k, m, tail, rfl, hm, hissue⟩ := exists_spells_of_issueAt hi
    obtain ⟨run, new, kept, rest, rfl, hmending⟩ := exists_mending hissue
    exact ⟨hbefore, k, m, run, new, kept, rest, rfl, hm, hmending⟩
  · rintro ⟨hbefore, k, m, run, new, kept, rest, rfl, hm, hmending⟩
    obtain ⟨i, hi, -⟩ := hmending.exists_issueBehind m pos
    exact ⟨i, by rw [issueAt_append hm hbefore, hi]⟩

/-! ### Where no keyword begins -/

/-- Every character of the text stands behind a letter or is none itself. -/
def Silent : Option Char → Text → Prop
  | _, [] => True
  | before, c :: t => (before.any isAlphabetic = true ∨ isAlphabetic c = false) ∧ Silent (some c) t

lemma not_reported_of_silent {before : Option Char} {c : Char} {t : Text}
    (h : before.any isAlphabetic = true ∨ isAlphabetic c = false) : ¬Reported before (c :: t) := by
  rintro ⟨hbefore, k, m, run, new, kept, rest, ht, hm, -⟩
  obtain ⟨d, m, rfl, hd⟩ := hm.exists_cons
  obtain ⟨rfl, -⟩ := List.cons.inj ht
  simp [hbefore, hd] at h

lemma silent_of_forall {before : Option Char} {u : Text} (h : ∀ c ∈ u, isAlphabetic c = false) :
    Silent before u := by
  induction u generalizing before with
  | nil => trivial
  | cons c u ih =>
    obtain ⟨hc, hu⟩ := List.forall_mem_cons.1 h
    exact ⟨Or.inr hc, ih hu⟩

/-- Behind the first character of a keyword no other one begins, nor in what follows it without
letters. -/
lemma Keyword.Spells.silent {k : Keyword} {c : Char} {m u : Text} (h : k.Spells (c :: m))
    (hu : ∀ c ∈ u, isAlphabetic c = false) : Silent (some c) (m ++ u) := by
  obtain ⟨init, last, heq, -, hletters, -⟩ := h.parts
  have hletters : ∀ d ∈ (c :: m).dropLast, isAlphabetic d = true := by
    rwa [heq, List.dropLast_concat]
  clear h heq
  induction m generalizing c with
  | nil => exact silent_of_forall hu
  | cons d m ih =>
    rw [List.dropLast_cons_cons, List.forall_mem_cons] at hletters
    exact ⟨Or.inl (by simpa using hletters.1), ih hletters.2⟩

lemma issuesFrom_append {before : Option Char} {u : Text} (h : Silent before u) (pos : Nat)
    (t : Text) :
    issuesFrom before pos (u ++ t) = issuesFrom (u.getLast?.or before) (pos + byteLength u) t := by
  induction u generalizing before pos with
  | nil => rfl
  | cons c u ih =>
    obtain ⟨hc, hu⟩ := h
    rw [List.cons_append, issuesFrom, issueAt_eq_none_iff.2 (not_reported_of_silent hc), ih hu,
      getLast?_cons_or, byteLength_cons, Nat.add_assoc]
    rfl

lemma mem_issuesFrom_append {before : Option Char} {pos : Nat} {u t : Text} {i : Issue}
    (ht : t ≠ []) (h : issueAt (u.getLast?.or before) (pos + byteLength u) t = some i) :
    i ∈ issuesFrom before pos (u ++ t) := by
  induction u generalizing before pos with
  | nil =>
    obtain ⟨c, t, rfl⟩ := List.exists_cons_of_ne_nil ht
    have hi : issueAt before pos (c :: t) = some i := h
    rw [List.nil_append, issuesFrom, hi]
    simp
  | cons c u ih =>
    rw [List.cons_append, issuesFrom]
    refine List.mem_append_right _ (ih ?_)
    rwa [getLast?_cons_or, byteLength_cons, ← Nat.add_assoc] at h

end BslLint.LinkSpacing
