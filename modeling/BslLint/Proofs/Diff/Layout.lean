import BslLint.Diff
import BslLint.Proofs.Outcome
import Mathlib.Data.List.Basic

/-!
Where the hunks of a diff lie.

Every difference has its surroundings, the line numbers within the context (`Range.around`). Going
through the differences in order, one whose surroundings reach the open group joins it, and any
other closes it. What comes of this are ranges in order, with a gap between every two of them, that
cover just the surroundings of the differences (`Layout`). A group holds the differences of its
range and no others, so that its hunk shows what the line pairs show (`Grouped.ofGroup_eq`).
-/

namespace BslLint.Diff

/-! ### Lines side by side -/

lemma length_pairs (os fs : List Text) : (pairs os fs).length = max os.length fs.length := by
  fun_induction pairs os fs with
  | case1 fs => simp
  | case2 os hne => simp
  | case3 o os f fs ih => simp [ih]

lemma getElem?_pairs {os fs : List Text} {i : Nat} (h : i < max os.length fs.length) :
    (pairs os fs)[i]? = some ⟨os[i]?, fs[i]?⟩ := by
  fun_induction pairs os fs generalizing i with
  | case1 fs => simp_all
  | case2 os hne => simp_all
  | case3 o os f fs ih =>
    cases i with
    | zero => rfl
    | succ i => simpa using ih (by simpa using h)

lemma mem_changesFrom {ps : List Pair} {index : Nat} {c : Change} :
    c ∈ changesFrom index ps ↔
      index ≤ c.index ∧ ps[c.index - index]? = some c.pair ∧ c.pair.isChange := by
  induction ps generalizing index with
  | nil => simp [changesFrom]
  | cons p ps ih =>
    obtain ⟨i, q⟩ := c
    have hlater : ⟨i, q⟩ ∈ changesFrom (index + 1) ps ↔
        index < i ∧ (p :: ps)[i - index]? = some q ∧ q.isChange := by
      rw [ih]
      refine and_congr_right fun (hi : index + 1 ≤ i) => ?_
      obtain ⟨k, rfl⟩ : ∃ k, i = index + 1 + k := ⟨i - (index + 1), by omega⟩
      have hk : index + 1 + k - index = k + 1 := by omega
      simp [hk]
    have hfirst : index ≤ i ↔ i = index ∨ index < i := by omega
    rw [hfirst, or_and_right, ← hlater, changesFrom]
    by_cases hp : p.isChange
    · rw [if_pos hp, List.mem_cons, Change.mk.injEq]
      refine or_congr_left ?_
      constructor
      · rintro ⟨rfl, rfl⟩
        simpa using hp
      · rintro ⟨rfl, hq, -⟩
        simpa [eq_comm] using hq
    · rw [if_neg hp, iff_or_self]
      rintro ⟨rfl, hq, hchange⟩
      obtain rfl : p = q := by simpa using hq
      exact absurd hchange hp

def differences (os fs : List Text) : List Nat := (changesFrom 0 (pairs os fs)).map Change.index

lemma mem_differences {os fs : List Text} {i : Nat} :
    i ∈ differences os fs ↔ os[i]? ≠ fs[i]? := by
  have hmem : i ∈ differences os fs ↔ ∃ p, (pairs os fs)[i]? = some p ∧ p.isChange := by
    simp only [differences, List.mem_map, mem_changesFrom]
    exact ⟨fun ⟨⟨_, p⟩, ⟨_, hp, hchange⟩, heq⟩ => ⟨p, heq ▸ hp, hchange⟩,
      fun ⟨p, hp, hchange⟩ => ⟨⟨i, p⟩, ⟨Nat.zero_le i, hp, hchange⟩, rfl⟩⟩
  rw [hmem]
  by_cases hi : i < max os.length fs.length
  · simp [getElem?_pairs hi, Pair.isChange]
  · have hos : os[i]? = none := List.getElem?_eq_none (by omega)
    have hfs : fs[i]? = none := List.getElem?_eq_none (by omega)
    have hps : (pairs os fs)[i]? = none :=
      List.getElem?_eq_none (by rw [length_pairs]; omega)
    simp [hos, hfs, hps]

lemma lt_of_mem_changesFrom_pairs {os fs : List Text} {c : Change}
    (h : c ∈ changesFrom 0 (pairs os fs)) : c.index < max os.length fs.length := by
  obtain ⟨-, hp, -⟩ := mem_changesFrom.1 h
  simpa only [Nat.sub_zero, length_pairs] using (List.getElem?_eq_some_iff.1 hp).1

lemma lt_of_mem_differences {os fs : List Text} {i : Nat} (h : i ∈ differences os fs) :
    i < max os.length fs.length := by
  obtain ⟨c, hc, rfl⟩ := List.mem_map.1 h
  exact lt_of_mem_changesFrom_pairs hc

lemma changesFrom_sorted (index : Nat) (ps : List Pair) :
    (changesFrom index ps).Pairwise (·.index < ·.index) := by
  induction ps generalizing index with
  | nil => exact List.Pairwise.nil
  | cons p ps ih =>
    rw [changesFrom]
    split
    · exact List.Pairwise.cons (fun c hc => (mem_changesFrom.1 hc).1) (ih (index + 1))
    · exact ih (index + 1)

/-! ### Ranges -/

namespace Range

/-- The line number is in the range. -/
def Covers (r : Range) (i : Nat) : Prop := r.start ≤ i ∧ i < r.stop

/-- The line numbers around a difference, no further than the given number of lines. -/
def around (context total change : Nat) : Range :=
  ⟨change - context, min (change + context + 1) total⟩

lemma covers_around {context total change i : Nat} :
    (around context total change).Covers i ↔
      i < total ∧ i ≤ change + context ∧ change ≤ i + context := by
  simp only [Covers, around]
  omega

lemma covers_around_self {total change : Nat} (context : Nat) (h : change < total) :
    (around context total change).Covers change :=
  covers_around.2 ⟨h, by omega, by omega⟩

lemma around_nonempty {total change : Nat} (context : Nat) (h : change < total) :
    (around context total change).start < (around context total change).stop := by
  simp only [around]
  omega

/-- The open range starts and ends no later than the surroundings of a difference that is still to
come. -/
structure Precedes (context total : Nat) (current : Range) (change : Nat) : Prop where
  start_le : current.start ≤ (around context total change).start
  stop_le : current.stop ≤ (around context total change).stop

lemma around_precedes {context total change change' : Nat} (h : change < change') :
    (around context total change).Precedes context total change' := by
  constructor <;> simp only [around] <;> omega

/-- Surroundings that reach the open range extend it: nothing lies between the two. -/
lemma covers_extend {context total change i : Nat} {current : Range}
    (hprecedes : current.Precedes context total change)
    (hreach : (around context total change).start ≤ current.stop) :
    Covers ⟨current.start, (around context total change).stop⟩ i ↔
      current.Covers i ∨ (around context total change).Covers i := by
  have hstart := hprecedes.start_le
  have hstop := hprecedes.stop_le
  simp only [Covers]
  omega

end Range

lemma surroundings_eq {ε : Type} {context total change : Nat} (hchange : change < total)
    (hlimit : context + total < offsetLimit) :
    (surroundings context total change : Outcome ε Range) =
      .ok (Range.around context total change) := by
  rw [surroundings, addOffsets_of_lt (by omega), Outcome.ok_bind, addOffsets_of_lt (by omega)]
  rfl

/-- The differences of the group lie in its range. -/
def Group.Sound (g : Group) : Prop := ∀ c ∈ g.changes, g.range.Covers c.index

lemma Group.Sound.extend {context total : Nat} {current : Group} {change : Change}
    (h : current.Sound) (hchange : change.index < total)
    (hprecedes : current.range.Precedes context total change.index) :
    Group.Sound ⟨⟨current.range.start, (Range.around context total change.index).stop⟩,
      current.changes ++ [change]⟩ := by
  intro c hc
  rcases List.mem_append.1 hc with hc | hc
  · exact ⟨(h c hc).1, Nat.lt_of_lt_of_le (h c hc).2 hprecedes.stop_le⟩
  · obtain rfl := List.mem_singleton.1 hc
    have hself := Range.covers_around_self context hchange
    exact ⟨Nat.le_trans hprecedes.start_le hself.1, hself.2⟩

/-- The groups that come of an open group and of further differences. -/
structure Spread (context total : Nat) (current : Group) (changes : List Change)
    (gs : List Group) : Prop where
  apart : gs.Pairwise fun g g' => g.range.stop < g'.range.start
  nonempty : ∀ g ∈ gs, g.range.start < g.range.stop
  start_le : ∀ g ∈ gs, current.range.start ≤ g.range.start
  covers_iff : ∀ i, (∃ g ∈ gs, g.range.Covers i) ↔
    current.range.Covers i ∨
      ∃ change ∈ changes, (Range.around context total change.index).Covers i
  sound : ∀ g ∈ gs, g.Sound
  changes_eq : gs.flatMap Group.changes = current.changes ++ changes

namespace Spread

variable {context total : Nat} {current : Group} {change : Change} {changes : List Change}
  {gs : List Group}

lemma extend (hprecedes : current.range.Precedes context total change.index)
    (hreach : (Range.around context total change.index).start ≤ current.range.stop)
    (h : Spread context total
      ⟨⟨current.range.start, (Range.around context total change.index).stop⟩,
        current.changes ++ [change]⟩ changes gs) :
    Spread context total current (change :: changes) gs where
  apart := h.apart
  nonempty := h.nonempty
  start_le := h.start_le
  covers_iff i := by
    rw [h.covers_iff, Range.covers_extend hprecedes hreach, or_assoc]
    simp
  sound := h.sound
  changes_eq := by simp [h.changes_eq]

lemma close (hcurrent : current.range.start < current.range.stop) (hsound : current.Sound)
    (hgap : current.range.stop < (Range.around context total change.index).start)
    (h : Spread context total ⟨Range.around context total change.index, [change]⟩ changes gs) :
    Spread context total current (change :: changes) (current :: gs) := by
  have hafter : ∀ g ∈ gs, current.range.stop < g.range.start := fun g hg =>
    Nat.lt_of_lt_of_le hgap (h.start_le g hg)
  have hstart : ∀ g ∈ gs, current.range.start ≤ g.range.start := fun g hg =>
    Nat.le_of_lt (Nat.lt_trans hcurrent (hafter g hg))
  exact {
    apart := List.Pairwise.cons hafter h.apart
    nonempty := List.forall_mem_cons.2 ⟨hcurrent, h.nonempty⟩
    start_le := List.forall_mem_cons.2 ⟨Nat.le_refl _, hstart⟩
    covers_iff i := by simp [h.covers_iff]
    sound := List.forall_mem_cons.2 ⟨hsound, h.sound⟩
    changes_eq := by simp [h.changes_eq] }

end Spread

/-- **The differences in order spread out into groups**: one whose surroundings reach the open group
joins it, and any other closes it. -/
lemma exists_groupsFrom {ε : Type} {context total : Nat} (hlimit : context + total < offsetLimit)
    {changes : List Change} (current : Group) (hsorted : changes.Pairwise (·.index < ·.index))
    (hlt : ∀ change ∈ changes, change.index < total)
    (hcurrent : current.range.start < current.range.stop) (hsound : current.Sound)
    (hprecedes : ∀ change ∈ changes, current.range.Precedes context total change.index) :
    ∃ gs, (groupsFrom context total current changes : Outcome ε (List Group)) = .ok gs ∧
      Spread context total current changes gs := by
  induction changes generalizing current with
  | nil =>
    exact ⟨[current], rfl, by simp, by simpa using hcurrent, by simp, by simp,
      by simpa using hsound, by simp⟩
  | cons change changes ih =>
    obtain ⟨hchange, hsorted⟩ := List.pairwise_cons.1 hsorted
    obtain ⟨hlt, hlts⟩ := List.forall_mem_cons.1 hlt
    obtain ⟨hfirst, hprecedes⟩ := List.forall_mem_cons.1 hprecedes
    have hnext : ∀ change' ∈ changes,
        (Range.around context total change.index).Precedes context total change'.index :=
      fun change' h => Range.around_precedes (hchange change' h)
    rw [groupsFrom, surroundings_eq hlt hlimit, Outcome.ok_bind]
    split
    case isTrue hreach =>
      have hopen : current.range.start < (Range.around context total change.index).stop :=
        Nat.lt_of_lt_of_le hcurrent hfirst.stop_le
      obtain ⟨gs, hgs, hspread⟩ := ih
        ⟨⟨current.range.start, (Range.around context total change.index).stop⟩,
          current.changes ++ [change]⟩
        hsorted hlts hopen (hsound.extend hlt hfirst) fun change' h =>
          ⟨(hprecedes change' h).start_le, (hnext change' h).stop_le⟩
      exact ⟨gs, hgs, hspread.extend hfirst hreach⟩
    case isFalse hgap =>
      have hopen := Range.around_nonempty context hlt
      have hself : Group.Sound ⟨Range.around context total change.index, [change]⟩ := by
        simpa [Group.Sound] using Range.covers_around_self context hlt
      obtain ⟨gs, hgs, hspread⟩ := ih _ hsorted hlts hopen hself hnext
      exact ⟨current :: gs, by rw [hgs]; rfl,
        hspread.close hcurrent hsound (Nat.lt_of_not_le hgap)⟩

/-- Ranges in order, with a gap between every two of them, that cover the line numbers within the
context of a difference. -/
structure Layout (context total : Nat) (changes : List Nat) (rs : List Range) : Prop where
  apart : rs.Pairwise fun r r' => r.stop < r'.start
  nonempty : ∀ r ∈ rs, r.start < r.stop
  covers_iff : ∀ i, (∃ r ∈ rs, r.Covers i) ↔
    i < total ∧ ∃ change ∈ changes, i ≤ change + context ∧ change ≤ i + context

/-- Groups that hold all differences, each of them in its range, which are laid out around them. -/
structure Grouped (context total : Nat) (changes : List Change) (gs : List Group) : Prop where
  layout : Layout context total (changes.map Change.index) (gs.map Group.range)
  sound : ∀ g ∈ gs, g.Sound
  changes_eq : gs.flatMap Group.changes = changes

lemma exists_groups {ε : Type} {context total : Nat} (hlimit : context + total < offsetLimit)
    {changes : List Change} (hsorted : changes.Pairwise (·.index < ·.index))
    (hlt : ∀ change ∈ changes, change.index < total) :
    ∃ gs, (groups context total changes : Outcome ε (List Group)) = .ok gs ∧
      Grouped context total changes gs := by
  cases changes with
  | nil => exact ⟨[], rfl, ⟨List.Pairwise.nil, by simp, by simp⟩, by simp, rfl⟩
  | cons change changes =>
    obtain ⟨hchange, hsorted⟩ := List.pairwise_cons.1 hsorted
    obtain ⟨hlt, hlts⟩ := List.forall_mem_cons.1 hlt
    have hopen := Range.around_nonempty context hlt
    have hself : Group.Sound ⟨Range.around context total change.index, [change]⟩ := by
      simpa [Group.Sound] using Range.covers_around_self context hlt
    obtain ⟨gs, hgs, hspread⟩ := exists_groupsFrom (ε := ε) hlimit _ hsorted hlts hopen hself
      fun change' h => Range.around_precedes (hchange change' h)
    refine ⟨gs, by rw [groups, surroundings_eq hlt hlimit, Outcome.ok_bind, hgs],
      ⟨List.pairwise_map.2 hspread.apart, by simpa using hspread.nonempty, fun i => ?_⟩,
      hspread.sound, hspread.changes_eq⟩
    have hcovers := hspread.covers_iff i
    simp only [Range.covers_around] at hcovers
    simp only [List.mem_map, exists_exists_and_eq_and, hcovers, List.mem_cons]
    grind

lemma Layout.stop_le {context total : Nat} {changes : List Nat} {rs : List Range}
    (h : Layout context total changes rs) : ∀ r ∈ rs, r.stop ≤ total := by
  intro r hr
  have hnonempty := h.nonempty r hr
  obtain ⟨hlt, -⟩ := (h.covers_iff (r.stop - 1)).1 ⟨r, hr, by omega, by omega⟩
  omega

lemma Layout.eq_or_apart {context total : Nat} {changes : List Nat} {rs : List Range}
    (h : Layout context total changes rs) {r r' : Range} (hr : r ∈ rs) (hr' : r' ∈ rs) :
    r = r' ∨ r.stop < r'.start ∨ r'.stop < r.start := by
  have hapart := List.pairwise_iff_getElem.1 h.apart
  obtain ⟨i, hi, rfl⟩ := List.getElem_of_mem hr
  obtain ⟨j, hj, rfl⟩ := List.getElem_of_mem hr'
  rcases Nat.lt_trichotomy i j with hij | rfl | hji
  · exact Or.inr (Or.inl (hapart i j hi hj hij))
  · exact Or.inl rfl
  · exact Or.inr (Or.inr (hapart j i hj hi hji))

lemma Layout.eq_nil_iff {context total : Nat} {changes : List Nat} {rs : List Range}
    (h : Layout context total changes rs) (hlt : ∀ change ∈ changes, change < total) :
    rs = [] ↔ changes = [] := by
  constructor
  · rintro rfl
    refine List.eq_nil_iff_forall_not_mem.2 fun change hchange => ?_
    have hcovered := (h.covers_iff change).2
      ⟨hlt change hchange, change, hchange, by omega, by omega⟩
    simp at hcovered
  · rintro rfl
    refine List.eq_nil_iff_forall_not_mem.2 fun r hr => ?_
    have hcovered := (h.covers_iff r.start).1 ⟨r, hr, Nat.le_refl _, h.nonempty r hr⟩
    simp at hcovered

/-! ### The lines of a hunk -/

def Pair.lines (p : Pair) : List Line :=
  if p.isChange then (p.old.map Line.removed).toList ++ (p.new.map Line.added).toList
  else (p.old.map Line.kept).toList

/-- The hunk of a range, with its lines taken from the line pairs. -/
def Hunk.ofRange (os fs : List Text) (r : Range) : Hunk where
  start := r.start
  oldCount := min r.stop os.length - r.start
  newCount := min r.stop fs.length - r.start
  lines := (((pairs os fs).drop r.start).take (r.stop - r.start)).flatMap Pair.lines

variable {os fs : List Text} {context : Nat} {gs : List Group}

lemma take_drop_pairs (os fs : List Text) {start stop : Nat}
    (hstop : stop ≤ max os.length fs.length) :
    ((pairs os fs).drop start).take (stop - start) =
      (List.range' start (stop - start)).map fun i => ⟨os[i]?, fs[i]?⟩ := by
  refine List.ext_getElem? fun k => ?_
  by_cases hk : k < stop - start
  · rw [List.getElem?_take_of_lt hk, List.getElem?_drop, getElem?_pairs (by omega),
      List.getElem?_map, List.getElem?_range' hk]
    simp
  · rw [List.getElem?_eq_none (by rw [List.length_take]; omega),
      List.getElem?_eq_none (by simp; omega)]

lemma Grouped.eq_of_covers {total : Nat} {changes : List Change}
    (h : Grouped context total changes gs) {g g' : Group} (hg : g ∈ gs) (hg' : g' ∈ gs) {i : Nat}
    (hi : g.range.Covers i) (hi' : g'.range.Covers i) : g = g' := by
  have hapart := List.pairwise_iff_getElem.1 (List.pairwise_map.1 h.layout.apart)
  simp only [Range.Covers] at hi hi'
  obtain ⟨k, hk, rfl⟩ := List.getElem_of_mem hg
  obtain ⟨k', hk', rfl⟩ := List.getElem_of_mem hg'
  rcases Nat.lt_trichotomy k k' with hlt | rfl | hlt
  · have hgap := hapart k k' hk hk' hlt
    omega
  · rfl
  · have hgap := hapart k' k hk' hk hlt
    omega

lemma Grouped.linesAt_eq
    (h : Grouped context (max os.length fs.length) (changesFrom 0 (pairs os fs)) gs)
    {g : Group} (hg : g ∈ gs) {i : Nat} (hi : g.range.Covers i) {p : Pair}
    (hp : (pairs os fs)[i]? = some p) : g.linesAt os i = p.lines := by
  have hlt : i < max os.length fs.length := by
    rw [← length_pairs]
    exact (List.getElem?_eq_some_iff.1 hp).1
  obtain rfl : ⟨os[i]?, fs[i]?⟩ = p := Option.some.inj ((getElem?_pairs hlt).symm.trans hp)
  unfold Group.linesAt Pair.lines
  split
  case h_1 c hc =>
    obtain rfl : c.index = i := by simpa using List.find?_some hc
    have hmem : c ∈ changesFrom 0 (pairs os fs) := by
      rw [← h.changes_eq]
      exact List.mem_flatMap.2 ⟨g, hg, List.mem_of_find?_eq_some hc⟩
    obtain ⟨-, hpair, hchange⟩ := mem_changesFrom.1 hmem
    obtain heq : c.pair = _ := Option.some.inj (hpair.symm.trans hp)
    rw [← heq, if_pos hchange]
  case h_2 hnone =>
    rw [if_neg]
    intro hchange
    -- A difference here is one of some group, and of no other group than this one.
    have hmem : ⟨i, ⟨os[i]?, fs[i]?⟩⟩ ∈ gs.flatMap Group.changes := by
      rw [h.changes_eq]
      exact mem_changesFrom.2 ⟨Nat.zero_le i, hp, hchange⟩
    obtain ⟨g', hg', hc⟩ := List.mem_flatMap.1 hmem
    obtain rfl := h.eq_of_covers hg hg' hi (h.sound g' hg' _ hc)
    simpa using List.find?_eq_none.1 hnone _ hc

/-- Looking the differences up shows what the line pairs show. -/
lemma Grouped.ofGroup_eq
    (h : Grouped context (max os.length fs.length) (changesFrom 0 (pairs os fs)) gs)
    {g : Group} (hg : g ∈ gs) : Hunk.ofGroup os fs g = Hunk.ofRange os fs g.range := by
  have hstop := h.layout.stop_le g.range (List.mem_map_of_mem hg)
  rw [Hunk.ofGroup, Hunk.ofRange, take_drop_pairs os fs hstop, List.flatMap_map]
  congr 1
  refine List.flatMap_congr fun i hi => ?_
  obtain ⟨hstart, hi⟩ := List.mem_range'_1.1 hi
  have hcovers : g.range.Covers i := ⟨hstart, by omega⟩
  exact h.linesAt_eq hg hcovers (getElem?_pairs (Nat.lt_of_lt_of_le hcovers.2 hstop))

/-- **The hunks of a diff** are those of ranges that cover what lies within the context of a
difference. -/
lemma exists_hunks {ε : Type} {old new : Text} {context : Nat}
    (hlimit : context + max (Text.lines old).length (Text.lines new).length < offsetLimit) :
    ∃ rs, (hunks old new context : Outcome ε (List Hunk)) =
        .ok (rs.map (Hunk.ofRange (Text.lines old) (Text.lines new))) ∧
      Layout context (max (Text.lines old).length (Text.lines new).length)
        (differences (Text.lines old) (Text.lines new)) rs := by
  obtain ⟨gs, hgs, hgrouped⟩ := exists_groups (ε := ε) hlimit (changesFrom_sorted 0 _)
    fun _ => lt_of_mem_changesFrom_pairs
  refine ⟨gs.map Group.range, ?_, hgrouped.layout⟩
  have hofGroup : gs.map (Hunk.ofGroup (Text.lines old) (Text.lines new)) =
      (gs.map Group.range).map (Hunk.ofRange (Text.lines old) (Text.lines new)) := by
    rw [List.map_map]
    exact List.map_congr_left fun g hg => hgrouped.ofGroup_eq hg
  simp only [hunks, length_pairs, hgs, ← hofGroup]
  rfl

end BslLint.Diff
