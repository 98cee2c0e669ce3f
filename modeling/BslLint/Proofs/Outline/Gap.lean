import BslLint.Outline.Expression
import BslLint.Proofs.Text.Character
import BslLint.Proofs.Text.Slice

/-!
Searches over a gap. Where only separators stand between the cursor and the next node, nothing
before the node can be taken for it, and a name, a string or a call is found exactly where it
stands. The scan for a closing parenthesis passes over every text whose parentheses match, strings
apart.
-/

namespace BslLint.Outline

/-- A word can begin behind the text. -/
def Opens (before : Text) : Prop :=
  ∀ c ∈ before.getLast?, Text.isIdentifier c = false ∧ c ≠ '#'

/-- A word that stands before the text ends there. -/
def Closes (after : Text) : Prop := ∀ c ∈ after.head?, Text.isIdentifier c = false

/-- A character that can stand between the cursor and the next node. -/
def Separates (c : Char) : Prop := c = ',' ∨ c = ' ' ∨ c = '.'

instance (c : Char) : Decidable (Separates c) := inferInstanceAs (Decidable (_ ∨ _))

/-- A text with every quote doubled. -/
def doubled (t : Text) : Text := t.flatMap fun c => if c = '"' then ['"', '"'] else [c]

/-- A string literal with the given value. -/
def quoted (value : Text) : Text := '"' :: (doubled value ++ ['"'])

lemma doubled_cons (c : Char) (t : Text) :
    doubled (c :: t) = (if c = '"' then ['"', '"'] else [c]) ++ doubled t := rfl

variable {before gap after name : Text}

/-! ### Words behind a gap -/

lemma Opens.startsWord (h : Opens before) (name : Text) :
    startsWord name before.getLast? = true := by
  cases hlast : before.getLast? with
  | none => rfl
  | some c =>
    obtain ⟨hc, hhash⟩ := h c hlast
    simp [Outline.startsWord, hc, hhash]

lemma Closes.endsWord (h : Closes after) : Text.endsWord after.head? = true := by
  cases hhead : after.head? with
  | none => rfl
  | some c => simp [Text.endsWord, h c hhead]

lemma not_isIdentifier_of_separates {c : Char} (h : Separates c) : Text.isIdentifier c = false := by
  rcases h with rfl | rfl | rfl <;> decide +kernel

/-- No name begins at a separator: the two differ in their first character, whatever its case. -/
lemma matchesWord_of_separates {c : Char} (hc : Separates c) (hname : name.IsName)
    (last : Option Char) (t : Text) : matchesWord name last (c :: t) = false := by
  rw [matchesWord]
  split
  · rfl
  · rename_i m b hcut
    obtain ⟨ht, hm⟩ := Text.splitAt?_eq_some_iff.1 hcut
    obtain ⟨x, w, rfl⟩ := List.exists_cons_of_ne_nil hname.1
    have hsame : Text.sameName m (x :: w) = false := by
      cases m with
      | nil =>
        have hx := x.utf8Size_pos
        simp only [Text.byteLength_nil, Text.byteLength_cons] at hm
        omega
      | cons d m =>
        obtain ⟨rfl, -⟩ := List.cons.inj ht
        by_contra hne
        have hcode : 0 < c.toNat ∧ c.toNat < 0x41 := by
          rcases hc with rfl | rfl | rfl <;> decide
        have hxc : x = c := Text.eq_of_sameName_cons hcode.1 hcode.2 (by simpa using hne)
        have hx : Text.isIdentifier x = true := hname.2 x (by simp)
        rw [hxc, not_isIdentifier_of_separates hc] at hx
        cases hx
    rw [hsame, Bool.false_and, Bool.false_and]

lemma matchesWord_self {last : Option Char} (hlast : startsWord name last = true)
    (hafter : Closes after) : matchesWord name last (name ++ after) = true := by
  rw [matchesWord, Text.splitAt?_append]
  simp [Text.sameName, hlast, hafter.endsWord]

-- By induction on the gap, which is taken over by the text before it character by character.
lemma searchFrom_gap (hgap : ∀ c ∈ gap, Separates c) (hname : name.IsName)
    (hopens : Opens (before ++ gap)) (hafter : Closes after) (pos : Nat) :
    searchFrom [name] before.getLast? pos (gap ++ (name ++ after)) =
      some ⟨pos + Text.byteLength gap, Text.byteLength name⟩ := by
  induction gap generalizing before pos with
  | nil =>
    rw [List.append_nil] at hopens
    have hmatch := matchesWord_self (hopens.startsWord name) hafter
    obtain ⟨x, w, rfl⟩ := List.exists_cons_of_ne_nil hname.1
    have hfind : [x :: w].find? (fun word => matchesWord word before.getLast?
        (x :: (w ++ after))) = some (x :: w) := List.find?_cons_of_pos hmatch
    rw [List.nil_append, List.cons_append, searchFrom, hfind]
    rfl
  | cons c gap ih =>
    have hmiss := matchesWord_of_separates (hgap c (by simp)) hname before.getLast?
      (gap ++ (name ++ after))
    rw [List.append_cons] at hopens
    have hrest := ih (fun d hd => hgap d (by simp [hd])) hopens (pos + c.utf8Size)
    rw [List.getLast?_concat] at hrest
    rw [List.cons_append, searchFrom, List.find?_cons_of_neg (by simp [hmiss]), List.find?_nil]
    rw [hrest, Text.byteLength_cons, Nat.add_assoc]

lemma search_front (hname : name ≠ []) (hafter : Closes after) :
    search (name ++ after) [name] 0 = some ⟨0, Text.byteLength name⟩ := by
  have hmatch : matchesWord name none (name ++ after) = true := matchesWord_self rfl hafter
  obtain ⟨x, w, rfl⟩ := List.exists_cons_of_ne_nil hname
  have hfind : [x :: w].find? (fun word => matchesWord word none (x :: (w ++ after))) =
      some (x :: w) := List.find?_cons_of_pos hmatch
  rw [search, Text.splitAt?_zero, Option.bind_some, List.cons_append]
  simp only [List.getLast?_nil, searchFrom, hfind]

/-- **A name is found behind a gap.** -/
lemma search_gap {source : Text} (hsource : source = before ++ gap ++ name ++ after)
    (hgap : ∀ c ∈ gap, Separates c) (hname : name.IsName) (hopens : Opens (before ++ gap))
    (hafter : Closes after) :
    search source [name] (Text.byteLength before) =
      some ⟨Text.byteLength (before ++ gap), Text.byteLength name⟩ := by
  have hcut : Text.splitAt? source (Text.byteLength before) =
      some (before, gap ++ (name ++ after)) := by
    rw [hsource, List.append_assoc, List.append_assoc, Text.splitAt?_append]
  calc search source [name] (Text.byteLength before)
      = searchFrom [name] before.getLast? (Text.byteLength before) (gap ++ (name ++ after)) := by
        rw [search, hcut]
        rfl
    _ = some ⟨Text.byteLength before + Text.byteLength gap, Text.byteLength name⟩ :=
        searchFrom_gap hgap hname hopens hafter _
    _ = some ⟨Text.byteLength (before ++ gap), Text.byteLength name⟩ := by
        rw [Text.byteLength_append]

lemma seek_gap {source : Text} (hsource : source = before ++ gap ++ name ++ after)
    (hgap : ∀ c ∈ gap, Separates c) (hname : name.IsName) (hopens : Opens (before ++ gap))
    (hafter : Closes after) :
    seek source [name] (Text.byteLength before) =
      (some ⟨Text.byteLength (before ++ gap), Text.byteLength name⟩,
        Text.byteLength (before ++ gap ++ name)) := by
  have hle : Text.byteLength before ≤ Text.byteLength (before ++ gap ++ name) := by
    simp only [Text.byteLength_append]
    omega
  rw [seek, search_gap hsource hgap hname hopens hafter]
  simp only [Span.stop, ← Text.byteLength_append, Nat.max_eq_right hle]

/-! ### Strings behind a gap -/

lemma findText_gap (hgap : ∀ c ∈ gap, Separates c) (t : Text) (pos : Nat) :
    findText ('"' :: t) pos (gap ++ ('"' :: t ++ after)) = some (pos + Text.byteLength gap) := by
  induction gap generalizing pos with
  | nil =>
    have hprefix : ('"' :: t).isPrefixOf ('"' :: t ++ after) = true :=
      List.isPrefixOf_iff_prefix.2 (List.prefix_append _ _)
    rw [List.cons_append] at hprefix
    rw [List.nil_append, List.cons_append, findText, if_pos hprefix]
    rfl
  | cons c gap ih =>
    have hquote : c ≠ '"' := by
      rcases hgap c (by simp) with rfl | rfl | rfl <;> decide
    have hprefix : ¬ ('"' :: t).isPrefixOf (c :: (gap ++ ('"' :: t ++ after))) = true := by
      rw [List.isPrefixOf_iff_prefix]
      intro h
      exact hquote (List.cons_prefix_cons.1 h).1.symm
    rw [List.cons_append, findText, if_neg hprefix, ih fun d hd => hgap d (by simp [hd]),
      Text.byteLength_cons, Nat.add_assoc]

/-- **A string is found behind a gap.** -/
lemma seekText_gap {source t : Text} (hsource : source = before ++ gap ++ '"' :: t ++ after)
    (hgap : ∀ c ∈ gap, Separates c) :
    seekText source ('"' :: t) (Text.byteLength before) =
      .ok (some ⟨Text.byteLength (before ++ gap), Text.byteLength ('"' :: t)⟩,
        Text.byteLength (before ++ gap ++ '"' :: t)) := by
  have hle : Text.byteLength before ≤ Text.byteLength (before ++ gap ++ '"' :: t) := by
    simp only [Text.byteLength_append]
    omega
  subst hsource
  rw [seekText, restAt, List.append_assoc, List.append_assoc, Text.drop?_append]
  simp only [Outcome.pure_eq, Outcome.ok_bind]
  rw [findText_gap hgap]
  simp only [← Text.byteLength_append, Nat.max_eq_right hle]

/-! ### The values of strings -/

lemma undouble_doubled (v : Text) : undouble (doubled v) = v := by
  induction v with
  | nil => rfl
  | cons c v ih =>
    rw [doubled_cons]
    split
    · rename_i hquote
      rw [hquote]
      simp [undouble, ih]
    · rename_i hquote
      simp [undouble, hquote, ih]

/-- **A string literal has its value.** -/
lemma stringValue_quoted (v : Text) : stringValue (quoted v) = v := by
  have hinner : unquote? (quoted v) = some (doubled v) := by simp [unquote?, quoted]
  rw [stringValue, hinner, Option.getD_some, undouble_doubled]

/-! ### Closing parentheses -/

/-- A scan for a closing parenthesis passes over the text. -/
def Balanced (t : Text) : Prop := ∀ (depth pos : Nat) (rest : Text),
  closingParen (depth + 1) false pos (t ++ rest) =
    closingParen (depth + 1) false (pos + Text.byteLength t) rest

lemma balanced_nil : Balanced [] := fun _ _ _ => rfl

lemma Balanced.append {s t : Text} (hs : Balanced s) (ht : Balanced t) : Balanced (s ++ t) := by
  intro depth pos rest
  rw [List.append_assoc, hs, ht, Text.byteLength_append, Nat.add_assoc]

lemma balanced_singleton {c : Char} (hquote : c ≠ '"') (hopening : c ≠ '(') (hclosing : c ≠ ')') :
    Balanced [c] := by
  intro depth pos rest
  rw [List.singleton_append, closingParen, if_neg hquote, if_neg (by simp [hopening]),
    if_neg (by simp [hclosing])]
  rfl

lemma balanced_of_forall {t : Text} (h : ∀ c ∈ t, c ≠ '"' ∧ c ≠ '(' ∧ c ≠ ')') : Balanced t := by
  induction t with
  | nil => exact balanced_nil
  | cons c t ih =>
    obtain ⟨hquote, hopening, hclosing⟩ := h c (by simp)
    exact (balanced_singleton hquote hopening hclosing).append (ih fun d hd => h d (by simp [hd]))

lemma balanced_point : Balanced ['.'] := balanced_singleton (by decide) (by decide) (by decide)

lemma closingParen_opening (depth pos : Nat) (rest : Text) :
    closingParen depth false pos ('(' :: rest) = closingParen (depth + 1) false (pos + 1) rest := by
  have hsize : '('.utf8Size = 1 := rfl
  simp [closingParen, hsize]

lemma Balanced.parenthesized {t : Text} (h : Balanced t) : Balanced ('(' :: (t ++ [')'])) := by
  intro depth pos rest
  have hsize : ')'.utf8Size = 1 := rfl
  have hclosing : ∀ pos, closingParen (depth + 1 + 1) false pos (')' :: rest) =
      closingParen (depth + 1) false (pos + 1) rest := by
    intro pos
    simp [closingParen, hsize]
  have hlength : pos + 1 + Text.byteLength t + 1 =
      pos + Text.byteLength ('(' :: (t ++ [')'])) := by
    have hsize' : '('.utf8Size = 1 := rfl
    simp only [Text.byteLength_cons, Text.byteLength_append, Text.byteLength_nil, hsize, hsize']
    omega
  rw [List.cons_append, List.append_assoc, List.singleton_append, closingParen_opening, h, hclosing,
    hlength]

/-- Inside of a string the scan waits for a quote, and a doubled quote is two of them. -/
lemma closingParen_doubled (v : Text) (depth pos : Nat) (rest : Text) :
    closingParen depth true pos (doubled v ++ rest) =
      closingParen depth true (pos + Text.byteLength (doubled v)) rest := by
  induction v generalizing pos with
  | nil => rfl
  | cons c v ih =>
    rw [doubled_cons]
    split
    · simp [closingParen, ih, Nat.add_assoc]
    · rename_i hquote
      simp [closingParen, hquote, ih, Nat.add_assoc]

lemma balanced_quoted (v : Text) : Balanced (quoted v) := by
  intro depth pos rest
  simp [quoted, closingParen, closingParen_doubled, Nat.add_assoc]

/-- Reads a text from a depth of open parentheses on, and from inside or outside of a string: how
many are open behind it, and whether a string is. A quote opens or closes a string; parentheses in
strings do not count, and the depth must not become negative. -/
def depthBehind : Nat → Bool → Text → Option (Nat × Bool)
  | depth, inString, [] => some (depth, inString)
  | depth, inString, c :: cs =>
    if c = '"' then depthBehind depth (!inString) cs
    else if inString then depthBehind depth inString cs
    else if c = '(' then depthBehind (depth + 1) inString cs
    else if c = ')' then if depth = 0 then none else depthBehind (depth - 1) inString cs
    else depthBehind depth inString cs

lemma closingParen_of_depthBehind {t : Text} {depth depth' : Nat} {inString inString' : Bool}
    (h : depthBehind depth inString t = some (depth', inString')) (below pos : Nat) (rest : Text) :
    closingParen (depth + (below + 1)) inString pos (t ++ rest) =
      closingParen (depth' + (below + 1)) inString' (pos + Text.byteLength t) rest := by
  induction t generalizing depth inString pos with
  | nil =>
    cases h
    rfl
  | cons c t ih =>
    rw [depthBehind] at h
    have hnext : pos + Text.byteLength (c :: t) = pos + c.utf8Size + Text.byteLength t := by
      rw [Text.byteLength_cons, Nat.add_assoc]
    rw [List.cons_append, closingParen, hnext]
    by_cases hquote : c = '"'
    · rw [if_pos hquote] at h ⊢
      exact ih h _
    · rw [if_neg hquote] at h ⊢
      cases inString with
      | true => simpa using ih h _
      | false =>
        rw [if_neg Bool.false_ne_true] at h
        by_cases hopening : c = '('
        · rw [if_pos hopening] at h
          rw [if_pos (by simp [hopening]), ← ih h]
          congr 1
          omega
        · rw [if_neg hopening] at h
          rw [if_neg (by simp [hopening])]
          by_cases hclosing : c = ')'
          · rw [if_pos hclosing] at h
            split at h
            · cases h
            · rename_i hdepth
              rw [if_pos (by simp [hclosing]), if_neg (by omega), if_neg (by omega), ← ih h]
              congr 1
              omega
          · rw [if_neg hclosing] at h
            rw [if_neg (by simp [hclosing])]
            exact ih h _

lemma balanced_of_depthBehind {t : Text} (h : depthBehind 0 false t = some (0, false)) :
    Balanced t := by
  intro depth pos rest
  simpa using closingParen_of_depthBehind h depth pos rest

/-- **The closing parenthesis is found** behind what a scan passes over. -/
lemma matchingParen_eq {source t : Text} (hsource : source = before ++ '(' :: (t ++ ')' :: after))
    (h : Balanced t) :
    matchingParen source (Text.byteLength before) =
      some (Text.byteLength (before ++ '(' :: t)) := by
  have hsize : '('.utf8Size = 1 := rfl
  have hlast : ∀ pos, closingParen (0 + 1) false pos (')' :: after) = some pos := by
    intro pos
    simp [closingParen]
  rw [matchingParen, hsource, Text.drop?_append, Option.bind_some, closingParen_opening, h, hlast]
  rw [Text.byteLength_append, Text.byteLength_cons, hsize, Nat.add_assoc]

/-! ### The neighbours of a node -/

lemma closes_cons {c : Char} (h : Text.isIdentifier c = false) (t : Text) : Closes (c :: t) := by
  rintro d ⟨⟩
  exact h

lemma closes_point (t : Text) : Closes ('.' :: t) := closes_cons (by decide +kernel) t

lemma closes_opening (t : Text) : Closes ('(' :: t) := closes_cons (by decide +kernel) t

lemma closes_closing (t : Text) : Closes (')' :: t) := closes_cons (by decide +kernel) t

lemma opens_concat {c : Char} (h : Text.isIdentifier c = false ∧ c ≠ '#') (t : Text) :
    Opens (t ++ [c]) := by
  intro d hd
  rw [List.getLast?_concat] at hd
  cases hd
  exact h

lemma opens_point (t : Text) : Opens (t ++ ['.']) := opens_concat (by decide +kernel) t

lemma openingParen_eq {source rest : Text} (hsource : source = before ++ name ++ '(' :: rest) :
    openingParen source (some ⟨Text.byteLength before, Text.byteLength name⟩) =
      some (Text.byteLength (before ++ name)) := by
  have hstop : Span.stop ⟨Text.byteLength before, Text.byteLength name⟩ =
      Text.byteLength (before ++ name) := (Text.byteLength_append _ _).symm
  rw [openingParen, Option.bind_some, hstop, findChar, hsource, Text.drop?_append,
    Option.bind_some, findCharFrom, if_pos rfl]

/-- **A called name is found behind a gap**, with both of its parentheses. -/
lemma call_gap {source args : Text}
    (hsource : source = before ++ gap ++ name ++ '(' :: (args ++ ')' :: after))
    (hgap : ∀ c ∈ gap, Separates c) (hname : name.IsName) (hopens : Opens (before ++ gap))
    (hargs : Balanced args) :
    search source [name] (Text.byteLength before) =
        some ⟨Text.byteLength (before ++ gap), Text.byteLength name⟩ ∧
      openingParen source (some ⟨Text.byteLength (before ++ gap), Text.byteLength name⟩) =
        some (Text.byteLength (before ++ gap ++ name)) ∧
      matchingParen source (Text.byteLength (before ++ gap ++ name)) =
        some (Text.byteLength (before ++ gap ++ name ++ '(' :: args)) := by
  exact ⟨search_gap hsource hgap hname hopens (closes_opening _), openingParen_eq hsource,
    matchingParen_eq hsource hargs⟩

end BslLint.Outline
