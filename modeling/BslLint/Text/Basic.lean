/-!
Texts and the byte offsets that address them.

A text is its list of characters; an offset counts the bytes of the UTF-8 form. Cutting a text at
an offset succeeds exactly on the character boundaries (`splitAt?_eq_some_iff`).
-/

namespace BslLint

/-- A text: its characters in order. Offsets into a text count the bytes of its UTF-8 form. -/
abbrev Text := List Char

namespace Text

def byteLength : Text → Nat
  | [] => 0
  | c :: cs => c.utf8Size + byteLength cs

@[simp] theorem byteLength_nil : byteLength [] = 0 := rfl

@[simp] theorem byteLength_cons (c : Char) (t : Text) :
    byteLength (c :: t) = c.utf8Size + byteLength t := rfl

@[simp] theorem byteLength_append (s t : Text) :
    byteLength (s ++ t) = byteLength s + byteLength t := by
  induction s with
  | nil => simp
  | cons c s ih => simp [ih, Nat.add_assoc]

theorem byteLength_eq_zero_iff {t : Text} : byteLength t = 0 ↔ t = [] := by
  cases t with
  | nil => simp
  | cons c t =>
    have := c.utf8Size_pos
    simp
    omega

/-- The two parts of a text around a byte offset; nothing when the offset lies inside a character
or past the end. -/
def splitAt? : Text → Nat → Option (Text × Text)
  | [], n => if n = 0 then some ([], []) else none
  | c :: cs, n =>
    if n = 0 then some ([], c :: cs)
    else if n < c.utf8Size then none
    else (splitAt? cs (n - c.utf8Size)).map fun parts => (c :: parts.1, parts.2)

@[simp] theorem splitAt?_zero (t : Text) : splitAt? t 0 = some ([], t) := by
  cases t <;> simp [splitAt?]

/-- **Cutting is exact**: the parts make up the text and the first one has the asked length. -/
theorem splitAt?_eq_some_iff {t : Text} {n : Nat} {a b : Text} :
    splitAt? t n = some (a, b) ↔ t = a ++ b ∧ byteLength a = n := by
  induction t generalizing n a b with
  | nil =>
    rw [splitAt?]
    split
    · subst_vars
      constructor
      · rintro h
        cases h
        simp
      · rintro ⟨h, -⟩
        simp_all
    · constructor
      · simp
      · rintro ⟨h, hn⟩
        simp_all
  | cons c t ih =>
    have hc := c.utf8Size_pos
    rw [splitAt?]
    split
    · subst_vars
      rw [byteLength_eq_zero_iff]
      constructor
      · intro h
        cases h
        simp
      · rintro ⟨h, rfl⟩
        simpa using h
    · split
      · constructor
        · simp
        · rintro ⟨h, hn⟩
          cases a with
          | nil => simp_all
          | cons d a =>
            simp only [List.cons_append, List.cons.injEq] at h
            simp only [byteLength_cons, ← h.1] at hn
            omega
      · simp only [Option.map_eq_some_iff, Prod.exists, Prod.mk.injEq]
        constructor
        · rintro ⟨a', b', h, rfl, rfl⟩
          obtain ⟨rfl, hl⟩ := ih.1 h
          simp
          omega
        · rintro ⟨h, hn⟩
          cases a with
          | nil => simp_all
          | cons d a =>
            simp only [List.cons_append, List.cons.injEq] at h
            obtain ⟨rfl, rfl⟩ := h
            simp only [byteLength_cons] at hn
            exact ⟨a, b, ih.2 ⟨rfl, by omega⟩, rfl, rfl⟩

@[simp] theorem splitAt?_append (a b : Text) : splitAt? (a ++ b) (byteLength a) = some (a, b) :=
  splitAt?_eq_some_iff.2 ⟨rfl, rfl⟩

/-- Whether an offset lies between two characters, or at an end of the text. -/
def isBoundary (t : Text) (n : Nat) : Bool := (splitAt? t n).isSome

def take? (t : Text) (n : Nat) : Option Text := (splitAt? t n).map Prod.fst

def drop? (t : Text) (n : Nat) : Option Text := (splitAt? t n).map Prod.snd

/-- The text between two offsets; nothing unless both are boundaries, the first not after the
second. -/
def slice? (t : Text) (start stop : Nat) : Option Text :=
  if stop < start then none
  else (drop? t start).bind fun rest => take? rest (stop - start)

/-- **Slicing is exact**: the slice is what stands between texts of the two lengths. -/
theorem slice?_eq_some_iff {t : Text} {start stop : Nat} {m : Text} :
    slice? t start stop = some m ↔
      ∃ a b, t = a ++ m ++ b ∧ byteLength a = start ∧ start + byteLength m = stop := by
  unfold slice? take? drop?
  constructor
  · intro h
    split at h
    · simp at h
    · simp only [Option.bind_eq_some_iff, Option.map_eq_some_iff, Prod.exists] at h
      obtain ⟨rest, ⟨a, r, ha, rfl⟩, m', b, hm, rfl⟩ := h
      obtain ⟨rfl, rfl⟩ := splitAt?_eq_some_iff.1 ha
      obtain ⟨rfl, hl⟩ := splitAt?_eq_some_iff.1 hm
      exact ⟨a, b, by simp, rfl, by omega⟩
  · rintro ⟨a, b, rfl, rfl, rfl⟩
    rw [if_neg (by omega)]
    simp [List.append_assoc]

/-- The parts of a text between separators, given the characters of its first part read so far,
backwards. -/
def splitOnAfter (separator : Char) : List Char → Text → List Text
  | part, [] => [part.reverse]
  | part, c :: cs =>
    if c = separator then part.reverse :: splitOnAfter separator [] cs
    else splitOnAfter separator (c :: part) cs

def splitOn (separator : Char) (t : Text) : List Text := splitOnAfter separator [] t

end Text

end BslLint
