import BslLint.Proofs.Condition.Tokens
import BslLint.Proofs.Text.Character
import Mathlib.Data.List.Nodup
import Mathlib.Data.List.Pairwise

/-!
The grammar of conditions, and that the reader accepts exactly what it derives:

    disjunction ::= conjunction | conjunction OR disjunction
    conjunction ::= operand | operand AND conjunction
    operand     ::= NOT operand | '(' disjunction ')' | symbol

A derivation is a tree with the tokens at its leaves. Its value is a condition in which a chain of
one operand is the operand itself and a longer chain is one flat list. The reader finds every
derivation (`parse?_of_tokens`) and nothing else (`exists_derivation`), and no tokens have two
derivations (`Derivation.eq_of_tokens`): each rule begins with tokens that no other rule begins
with, and a chain goes on exactly at its joining word.
-/

namespace BslLint

namespace Spelling

def lowered (word : Spelling) : List Text :=
  [Text.lowercase word.primary.toList, Text.lowercase word.alternate.toList]

lemma covers_iff {word : Spelling} {name : Text} :
    word.covers name = true ↔ Text.lowercase name ∈ word.lowered := by
  simp only [covers, lowered, Text.sameName, Bool.or_eq_true, beq_iff_eq, List.mem_cons,
    List.not_mem_nil, or_false]
  exact or_congr eq_comm eq_comm

end Spelling

namespace Condition

/-! ### The words of the grammar -/

/-- The words that mean something in a condition. -/
def vocabulary : List Spelling :=
  notWord :: andWord :: orWord :: Symbol.all.map Symbol.spelling

-- A literal is turned into its characters by rewriting; to evaluate it would decode its bytes.
lemma nodup_lowered_vocabulary : (vocabulary.flatMap Spelling.lowered).Nodup := by
  simp only [vocabulary, notWord, andWord, orWord, Symbol.all, Symbol.spelling, List.map_cons,
    List.map_nil, List.flatMap_cons, List.flatMap_nil, Spelling.lowered]
  repeat rw [String.toList_ofList]
  decide +kernel

lemma eq_of_covers {v w : Spelling} (hv : v ∈ vocabulary) (hw : w ∈ vocabulary) {name : Text}
    (h : v.covers name = true) (h' : w.covers name = true) : v = w := by
  by_contra hne
  have hsymm : Std.Symm (Function.onFun List.Disjoint Spelling.lowered) :=
    ⟨fun _ _ h _ ha hb => h hb ha⟩
  have hapart : List.Disjoint v.lowered w.lowered :=
    (List.nodup_flatMap.1 nodup_lowered_vocabulary).2.forall hv hw hne
  exact hapart (Spelling.covers_iff.1 h) (Spelling.covers_iff.1 h')

lemma spelling_mem_vocabulary (s : Symbol) : s.spelling ∈ vocabulary := by
  simp only [vocabulary, List.mem_cons, List.mem_map]
  exact Or.inr (Or.inr (Or.inr ⟨s, s.mem_all, rfl⟩))

lemma spelling_injective {s s' : Symbol} (h : s.spelling = s'.spelling) : s = s' := by
  have hall : ∀ s ∈ Symbol.all, ∀ s' ∈ Symbol.all, s.spelling.alternate = s'.spelling.alternate →
      s = s' := by decide
  exact hall s s.mem_all s' s'.mem_all (congrArg Spelling.alternate h)

lemma symbol_eq_of_covers {s s' : Symbol} {name : Text} (h : s.spelling.covers name = true)
    (h' : s'.spelling.covers name = true) : s = s' :=
  spelling_injective
    (eq_of_covers (spelling_mem_vocabulary s) (spelling_mem_vocabulary s') h h')

lemma notWord_mem_vocabulary : notWord ∈ vocabulary := by simp [vocabulary]

lemma not_covers_notWord {s : Symbol} {name : Text} (h : s.spelling.covers name = true) :
    notWord.covers name = false := by
  by_contra hnot
  have heq := eq_of_covers (spelling_mem_vocabulary s) notWord_mem_vocabulary h
    (by simpa using hnot)
  have hne : ∀ s ∈ Symbol.all, s.spelling.alternate ≠ notWord.alternate := by decide
  exact hne s s.mem_all (congrArg Spelling.alternate heq)

lemma ofName?_eq_some_iff {name : Text} (hname : ∀ c ∈ name, Text.isIdentifier c = true)
    {s : Symbol} : Symbol.ofName? name = some s ↔ s.spelling.covers name = true := by
  rw [Symbol.ofName?, Text.trim_of_isIdentifier hname]
  constructor
  · intro h
    exact List.find?_some (p := fun s : Symbol => s.spelling.covers name) h
  · intro h
    obtain ⟨s', hs'⟩ : ∃ s', Symbol.all.find? (fun s => s.spelling.covers name) = some s' :=
      Option.isSome_iff_exists.1 (List.find?_isSome.2 ⟨s, s.mem_all, h⟩)
    have hcovers : s'.spelling.covers name = true :=
      List.find?_some (p := fun s : Symbol => s.spelling.covers name) hs'
    rw [hs', symbol_eq_of_covers hcovers h]

/-! ### Derivations -/

/-- The two ways to join operands. -/
inductive Connective where
  | and
  | or
deriving DecidableEq

namespace Connective

def word : Connective → Spelling
  | and => andWord
  | or => orWord

def connect : Connective → List Condition → Condition
  | and => .and
  | or => .or

end Connective

/-- The levels of the grammar. -/
inductive Level where
  | operand
  | chain (k : Connective)

/-- The level of what a connective joins. -/
def Connective.operand : Connective → Level
  | and => .operand
  | or => .chain .and

/-- A derivation of the grammar. The words of a derivation are in either spelling and any case. -/
inductive Derivation : Level → Type
  | symbol (name : Text) (s : Symbol) (h : s.spelling.covers name = true) : Derivation .operand
  | negation (name : Text) (h : notWord.covers name = true) (d : Derivation .operand) :
      Derivation .operand
  | group (d : Derivation (.chain .or)) : Derivation .operand
  | last (k : Connective) (d : Derivation k.operand) : Derivation (.chain k)
  | more (k : Connective) (d : Derivation k.operand) (name : Text)
      (h : k.word.covers name = true) (rest : Derivation (.chain k)) : Derivation (.chain k)

namespace Derivation

variable {l : Level}

def tokens : {l : Level} → Derivation l → List Token
  | _, symbol name _ _ => [.word name]
  | _, negation name _ d => .word name :: d.tokens
  | _, group d => .opening :: (d.tokens ++ [.closing])
  | _, last _ d => d.tokens
  | _, more _ d name _ rest => d.tokens ++ .word name :: rest.tokens

mutual

def value : {l : Level} → Derivation l → Condition
  | _, symbol _ s _ => .symbol s
  | _, negation _ _ d => .not d.value
  | _, group d => d.value
  | _, last _ d => d.value
  | _, more k d _ _ rest => k.connect (d.value :: rest.operands)

def operands : {l : Level} → Derivation l → List Condition
  | _, last _ d => [d.value]
  | _, more _ d _ _ rest => d.value :: rest.operands
  | _, symbol .. | _, negation .. | _, group .. => []

end

lemma operands_ne_nil {k : Connective} (d : Derivation (.chain k)) : d.operands ≠ [] := by
  cases d <;> simp [operands]

lemma joined_operands {k : Connective} (c : Condition) (d : Derivation (.chain k)) :
    joined k.connect c d.operands = k.connect (c :: d.operands) := by
  cases hd : d.operands with
  | nil => exact absurd hd d.operands_ne_nil
  | cons c' cs => rfl

end Derivation

/-! ### What the reader accepts -/

/-- The words among the tokens are identifiers, as those of a text are. -/
def Plain (ts : List Token) : Prop :=
  ∀ name, Token.word name ∈ ts → ∀ c ∈ name, Text.isIdentifier c = true

lemma plain_tokens (t : Text) : Plain (tokens t) := fun _ h => isIdentifier_of_word_mem h

lemma Plain.of_subset {ts ts' : List Token} (h : Plain ts) (hsub : ts' ⊆ ts) : Plain ts' :=
  fun name hname => h name (hsub hname)

/-- What the reader reads has a derivation of the level. -/
def Reader.Sound (read : Reader) (l : Level) : Prop :=
  ∀ ⦃ts : List Token⦄ ⦃c : Condition⦄ ⦃rest : List Token⦄, Plain ts → read ts = some (c, rest) →
    ∃ d : Derivation l, d.tokens ++ rest = ts ∧ d.value = c

lemma Token.exists_word_of_is {t : Token} {w : Spelling} (h : t.is w = true) :
    ∃ name, t = .word name ∧ w.covers name = true := by
  cases t with
  | word name => exact ⟨name, rfl, h⟩
  | opening | closing => cases h

lemma Reader.Sound.furtherOperands {read : Reader} {k : Connective}
    (hread : read.Sound k.operand) {n : Nat} {ts : List Token} {cs : List Condition}
    {rest : List Token} (hts : Plain ts)
    (h : furtherOperands read k.word n ts = some (cs, rest)) :
    (cs = [] ∧ ts = rest) ∨ ∃ name, k.word.covers name = true ∧
      ∃ d : Derivation (.chain k), .word name :: (d.tokens ++ rest) = ts ∧ d.operands = cs := by
  induction n generalizing ts cs with
  | zero =>
    cases h
    exact Or.inl ⟨rfl, rfl⟩
  | succ n ih =>
    cases ts with
    | nil =>
      cases h
      exact Or.inl ⟨rfl, rfl⟩
    | cons t ts =>
      rw [Condition.furtherOperands] at h
      split at h
      · rename_i hjoin
        obtain ⟨name, rfl, hname⟩ := Token.exists_word_of_is hjoin
        obtain ⟨⟨c, ts'⟩, hc, h⟩ := Option.bind_eq_some_iff.1 h
        obtain ⟨⟨cs', rest'⟩, hcs, h⟩ := Option.bind_eq_some_iff.1 h
        cases h
        obtain ⟨d, rfl, rfl⟩ := hread (hts.of_subset (by simp)) hc
        refine Or.inr ⟨name, hname, ?_⟩
        rcases ih (hts.of_subset fun t ht => by simp [ht]) hcs with ⟨rfl, rfl⟩ | hmore
        · exact ⟨.last k d, rfl, rfl⟩
        · obtain ⟨name', hname', d', rfl, rfl⟩ := hmore
          exact ⟨.more k d name' hname' d', by simp [Derivation.tokens], rfl⟩
      · cases h
        exact Or.inl ⟨rfl, rfl⟩

lemma Reader.Sound.chain {read : Reader} {k : Connective} (hread : read.Sound k.operand) :
    Reader.Sound (chain read k.word k.connect) (.chain k) := by
  intro ts c rest hts h
  obtain ⟨⟨first, ts'⟩, hfirst, h⟩ := Option.bind_eq_some_iff.1 h
  obtain ⟨⟨cs, rest'⟩, hcs, h⟩ := Option.bind_eq_some_iff.1 h
  cases h
  obtain ⟨d, rfl, rfl⟩ := hread hts hfirst
  rcases hread.furtherOperands (hts.of_subset (by simp)) hcs with ⟨rfl, rfl⟩ | hmore
  · exact ⟨.last k d, rfl, rfl⟩
  · obtain ⟨name, hname, d', rfl, rfl⟩ := hmore
    exact ⟨.more k d name hname d', by simp [Derivation.tokens],
      (Derivation.joined_operands _ _).symm⟩

lemma sound_disjunction {read : Reader} (hread : read.Sound .operand) :
    Reader.Sound (disjunction read) (.chain .or) :=
  Reader.Sound.chain (k := .or) (Reader.Sound.chain (k := .and) hread)

/-- **Soundness**: an operand that is read, however deeply nested, is derived. -/
lemma sound_operand (n : Nat) : Reader.Sound (operand n) .operand := by
  induction n with
  | zero =>
    intro ts c rest _ h
    cases h
  | succ n ih =>
    intro ts c rest hts h
    cases ts with
    | nil => cases h
    | cons t ts =>
      have hrest : Plain ts := hts.of_subset (by simp)
      cases t with
      | word name =>
        rw [operand] at h
        split at h
        · rename_i hname
          obtain ⟨⟨c', rest'⟩, hc, h⟩ := Option.map_eq_some_iff.1 h
          cases h
          obtain ⟨d, rfl, rfl⟩ := ih hrest hc
          exact ⟨.negation name hname d, rfl, rfl⟩
        · obtain ⟨s, hs, h⟩ := Option.map_eq_some_iff.1 h
          cases h
          have hname := (ofName?_eq_some_iff (hts name (by simp))).1 hs
          exact ⟨.symbol name s hname, rfl, rfl⟩
      | opening =>
        simp only [operand, Token.is, Bool.false_eq_true, if_false] at h
        split at h
        · rename_i c' rest' hc
          cases h
          obtain ⟨d, rfl, rfl⟩ := sound_disjunction ih hrest hc
          exact ⟨.group d, by simp [Derivation.tokens], rfl⟩
        · cases h
      | closing => simp [operand, Token.is] at h

/-! ### What is derived is accepted -/

/-- The connectives at whose words a piece of the level goes on. -/
def Level.joins : Level → List Connective
  | .operand => []
  | .chain .and => [.and]
  | .chain .or => [.and, .or]

/-- A piece of the level ends in front of the tokens. -/
def Level.EndsBefore (l : Level) (ts : List Token) : Prop :=
  ∀ k ∈ l.joins, ∀ t ∈ ts.head?, t.is k.word = false

lemma Level.endsBefore_nil (l : Level) : l.EndsBefore [] := by simp [EndsBefore]

lemma Level.endsBefore_closing (l : Level) (ts : List Token) : l.EndsBefore (.closing :: ts) := by
  simp [EndsBefore, Token.is]

lemma Level.EndsBefore.operand {k : Connective} {ts : List Token}
    (h : Level.EndsBefore (.chain k) ts) : k.operand.EndsBefore ts := by
  intro j hj
  cases k with
  | and => simp [Connective.operand, joins] at hj
  | or => exact h j (by simp_all [Connective.operand, joins])

lemma Level.EndsBefore.is_word {k : Connective} {t : Token} {ts : List Token}
    (h : Level.EndsBefore (.chain k) (t :: ts)) : t.is k.word = false :=
  h k (by cases k <;> simp [joins]) t rfl

lemma Level.endsBefore_word {k : Connective} {name : Text} (hname : k.word.covers name = true)
    (ts : List Token) : k.operand.EndsBefore (.word name :: ts) := by
  intro j hj t ht
  cases ht
  cases k with
  | and => simp [Connective.operand, joins] at hj
  | or =>
    obtain rfl : j = .and := by simpa [Connective.operand, joins] using hj
    by_contra hand
    have heq : orWord = andWord :=
      eq_of_covers (by simp [vocabulary]) (by simp [vocabulary]) hname (Bool.not_eq_false _ ▸ hand)
    exact absurd heq (by decide)

/-- What is derived with at most the given number of tokens is read, up to where it ends. -/
def Reader.Complete (read : Reader) (n : Nat) (l : Level) : Prop :=
  ∀ (d : Derivation l) (rest : List Token), Plain d.tokens → d.tokens.length ≤ n →
    l.EndsBefore rest → read (d.tokens ++ rest) = some (d.value, rest)

lemma furtherOperands_of_endsBefore {read : Reader} {k : Connective} {ts : List Token}
    (h : Level.EndsBefore (.chain k) ts) (m : Nat) :
    furtherOperands read k.word m ts = some ([], ts) := by
  cases m with
  | zero => rfl
  | succ m =>
    cases ts with
    | nil => rfl
    | cons t ts => rw [furtherOperands, if_neg (by simp [h.is_word])]

-- By recursion on the chain. The bound on the number of operands only has to reach its tokens.
lemma Reader.Complete.furtherOperands {read : Reader} {n : Nat} {k : Connective}
    (hread : read.Complete n k.operand) {name : Text} (hname : k.word.covers name = true) :
    ∀ (d : Derivation (.chain k)) (rest : List Token) (m : Nat), Plain d.tokens →
      d.tokens.length ≤ n → Level.EndsBefore (.chain k) rest → d.tokens.length ≤ m →
      Condition.furtherOperands read k.word (m + 1) (.word name :: (d.tokens ++ rest)) =
        some (d.operands, rest)
  | .last _ d, rest, m, hplain, hn, hrest, hm => by
    rw [Condition.furtherOperands, if_pos (show Token.is k.word (.word name) = true from hname)]
    simp only [Derivation.tokens] at hplain hn ⊢
    rw [hread d rest hplain hn hrest.operand]
    simp [furtherOperands_of_endsBefore hrest, Derivation.operands]
  | .more _ d name' hname' d', rest, m, hplain, hn, hrest, hm => by
    simp only [Derivation.tokens, List.length_append, List.length_cons] at hplain hn hm ⊢
    obtain ⟨m, rfl⟩ : ∃ m', m = m' + 1 := ⟨m - 1, by omega⟩
    have hfirst := hread d (.word name' :: (d'.tokens ++ rest)) (hplain.of_subset (by simp))
      (by omega) (Level.endsBefore_word hname' _)
    have hmore := hread.furtherOperands hname' d' rest m
      (hplain.of_subset fun t ht => by simp [ht]) (by omega) hrest (by omega)
    rw [Condition.furtherOperands, if_pos (show Token.is k.word (.word name) = true from hname),
      List.append_assoc, List.cons_append, hfirst]
    simp [hmore, Derivation.operands]

lemma Reader.Complete.chain {read : Reader} {n : Nat} {k : Connective}
    (hread : read.Complete n k.operand) :
    Reader.Complete (chain read k.word k.connect) n (.chain k) := by
  intro d rest hplain hn hrest
  cases d with
  | last _ d =>
    simp only [Derivation.tokens] at hplain hn ⊢
    rw [Condition.chain, hread d rest hplain hn hrest.operand]
    simp [furtherOperands_of_endsBefore hrest, Derivation.value, joined]
  | more _ d name hname d' =>
    simp only [Derivation.tokens, List.length_append, List.length_cons] at hplain hn ⊢
    have hfirst := hread d (.word name :: (d'.tokens ++ rest)) (hplain.of_subset (by simp))
      (by omega) (Level.endsBefore_word hname _)
    have hmore := hread.furtherOperands hname d' rest (d'.tokens ++ rest).length
      (hplain.of_subset fun t ht => by simp [ht]) (by omega) hrest (by simp)
    rw [Condition.chain, List.append_assoc, List.cons_append, hfirst]
    simp only [Option.bind_eq_bind, Option.bind_some, List.length_cons, hmore, Derivation.value,
      Derivation.joined_operands, Option.pure_def]

lemma complete_disjunction {read : Reader} {n : Nat} (hread : read.Complete n .operand) :
    Reader.Complete (disjunction read) n (.chain .or) :=
  Reader.Complete.chain (k := .or) (Reader.Complete.chain (k := .and) hread)

/-- **Completeness**: a derived operand is read, whatever stands behind it. -/
lemma complete_operand (n : Nat) : Reader.Complete (operand n) n .operand := by
  induction n with
  | zero =>
    intro d rest _ hn _
    cases d <;> simp [Derivation.tokens] at hn
  | succ n ih =>
    intro d rest hplain hn _
    cases d with
    | symbol name s hname =>
      have hs : Symbol.ofName? name = some s :=
        (ofName?_eq_some_iff (hplain name (by simp [Derivation.tokens]))).2 hname
      simp [Derivation.tokens, Derivation.value, operand, Token.is, not_covers_notWord hname, hs]
    | negation name hname d =>
      simp only [Derivation.tokens, List.length_cons] at hplain hn ⊢
      have hd := ih d rest (hplain.of_subset (by simp)) (by omega)
        (by simp [Level.EndsBefore, Level.joins])
      have hword : Token.is notWord (.word name) = true := hname
      rw [List.cons_append, operand, if_pos hword, hd]
      rfl
    | group d =>
      simp only [Derivation.tokens, List.length_cons, List.length_append, List.length_nil]
        at hplain hn ⊢
      have hd := complete_disjunction ih d (.closing :: rest)
        (hplain.of_subset fun t ht => by simp [ht]) (by omega) (Level.endsBefore_closing _ _)
      simp [operand, Token.is, hd, Derivation.value]

/-! ### One derivation at most -/

namespace Derivation

-- Two derivations over one list of tokens agree on the first rule, and then piece by piece.
lemma eq_of_tokens_append : ∀ {l : Level} (d d' : Derivation l) {rest rest' : List Token},
    d.tokens ++ rest = d'.tokens ++ rest' → l.EndsBefore rest → l.EndsBefore rest' →
      d = d' ∧ rest = rest'
  | _, .symbol name s h, .symbol name' s' h', rest, rest', heq, _, _ => by
    simp only [tokens, List.cons_append, List.nil_append, List.cons.injEq, Token.word.injEq] at heq
    obtain ⟨rfl, rfl⟩ := heq
    obtain rfl : s = s' := symbol_eq_of_covers h h'
    exact ⟨rfl, rfl⟩
  | _, .symbol name s h, .negation name' h' d', rest, rest', heq, _, _ => by
    simp only [tokens, List.cons_append, List.nil_append, List.cons.injEq, Token.word.injEq] at heq
    obtain ⟨rfl, -⟩ := heq
    simp [not_covers_notWord h] at h'
  | _, .negation name h d, .symbol name' s' h', rest, rest', heq, _, _ => by
    simp only [tokens, List.cons_append, List.nil_append, List.cons.injEq, Token.word.injEq] at heq
    obtain ⟨rfl, -⟩ := heq
    simp [not_covers_notWord h'] at h
  | _, .negation name h d, .negation name' h' d', rest, rest', heq, hr, hr' => by
    simp only [tokens, List.cons_append, List.cons.injEq, Token.word.injEq] at heq
    obtain ⟨rfl, heq⟩ := heq
    obtain ⟨rfl, rfl⟩ := eq_of_tokens_append d d' heq hr hr'
    exact ⟨rfl, rfl⟩
  | _, .group d, .group d', rest, rest', heq, _, _ => by
    simp only [tokens, List.cons_append, List.cons.injEq, true_and, List.append_assoc,
      List.nil_append] at heq
    obtain ⟨rfl, hrest⟩ := eq_of_tokens_append d d' heq (Level.endsBefore_closing _ _)
      (Level.endsBefore_closing _ _)
    exact ⟨rfl, (List.cons.inj hrest).2⟩
  | _, .symbol .., .group _, _, _, heq, _, _ => by simp [tokens] at heq
  | _, .group _, .symbol .., _, _, heq, _, _ => by simp [tokens] at heq
  | _, .negation .., .group _, _, _, heq, _, _ => by simp [tokens] at heq
  | _, .group _, .negation .., _, _, heq, _, _ => by simp [tokens] at heq
  | _, .last _ d, .last _ d', rest, rest', heq, hr, hr' => by
    obtain ⟨rfl, rfl⟩ := eq_of_tokens_append d d' heq hr.operand hr'.operand
    exact ⟨rfl, rfl⟩
  | _, .last k d, .more _ d' name h tail, rest, rest', heq, hr, _ => by
    simp only [tokens, List.append_assoc, List.cons_append] at heq
    obtain ⟨-, rfl⟩ := eq_of_tokens_append d d' heq hr.operand (Level.endsBefore_word h _)
    exact absurd h (by simpa [Token.is] using hr.is_word)
  | _, .more _ d name h tail, .last _ d', rest, rest', heq, _, hr' => by
    simp only [tokens, List.append_assoc, List.cons_append] at heq
    obtain ⟨-, rfl⟩ := eq_of_tokens_append d d' heq (Level.endsBefore_word h _) hr'.operand
    exact absurd h (by simpa [Token.is] using hr'.is_word)
  | _, .more _ d name h tail, .more _ d' name' h' tail', rest, rest', heq, hr, hr' => by
    simp only [tokens, List.append_assoc, List.cons_append] at heq
    obtain ⟨rfl, htail⟩ := eq_of_tokens_append d d' heq (Level.endsBefore_word h _)
      (Level.endsBefore_word h' _)
    simp only [List.cons.injEq, Token.word.injEq] at htail
    obtain ⟨rfl, htail⟩ := htail
    obtain ⟨rfl, rfl⟩ := eq_of_tokens_append tail tail' htail hr hr'
    exact ⟨rfl, rfl⟩

/-- **No ambiguity**: no tokens have two derivations. -/
lemma eq_of_tokens {l : Level} {d d' : Derivation l} (h : d.tokens = d'.tokens) : d = d' :=
  (eq_of_tokens_append d d' (congrArg (· ++ []) h) l.endsBefore_nil l.endsBefore_nil).1

end Derivation

/-! ### Whole texts -/

/-- Every conjunction and every disjunction in the condition has two operands or more. -/
inductive Proper : Condition → Prop
  | symbol (s : Symbol) : Proper (.symbol s)
  | not {c : Condition} (h : Proper c) : Proper (.not c)
  | and {parts : List Condition} (hlen : 2 ≤ parts.length) (h : ∀ c ∈ parts, Proper c) :
      Proper (.and parts)
  | or {parts : List Condition} (hlen : 2 ≤ parts.length) (h : ∀ c ∈ parts, Proper c) :
      Proper (.or parts)

lemma Proper.connect (k : Connective) {parts : List Condition} (hlen : 2 ≤ parts.length)
    (h : ∀ c ∈ parts, Proper c) : Proper (k.connect parts) := by
  cases k with
  | and => exact .and hlen h
  | or => exact .or hlen h

lemma Derivation.proper_value : ∀ {l : Level} (d : Derivation l),
    d.value.Proper ∧ ∀ c ∈ d.operands, c.Proper
  | _, .symbol _ s _ => ⟨.symbol s, by simp [operands]⟩
  | _, .negation _ _ d => ⟨.not d.proper_value.1, by simp [operands]⟩
  | _, .group d => ⟨d.proper_value.1, by simp [operands]⟩
  | _, .last _ d => ⟨d.proper_value.1, by simpa [operands] using d.proper_value.1⟩
  | _, .more k d _ _ rest => by
    have hparts : ∀ c ∈ d.value :: rest.operands, c.Proper := by
      simpa using ⟨d.proper_value.1, rest.proper_value.2⟩
    have hlen : 2 ≤ (d.value :: rest.operands).length := by
      have := List.length_pos_iff.2 rest.operands_ne_nil
      rw [List.length_cons]
      omega
    exact ⟨.connect k hlen hparts, hparts⟩

lemma parse?_of_tokens {t : Text} {d : Derivation (.chain .or)} (h : d.tokens = tokens t) :
    parse? t = some d.value := by
  have hread := complete_disjunction (complete_operand d.tokens.length) d []
    (h ▸ plain_tokens t) (Nat.le_refl _) (Level.endsBefore_nil _)
  rw [List.append_nil, h] at hread
  rw [parse?, hread]

lemma exists_derivation {t : Text} {c : Condition} (h : parse? t = some c) :
    ∃ d : Derivation (.chain .or), d.tokens = tokens t ∧ d.value = c := by
  rw [parse?] at h
  split at h
  · rename_i c' hread
    cases h
    obtain ⟨d, hd, hvalue⟩ := sound_disjunction (sound_operand _) (plain_tokens t) hread
    exact ⟨d, by simpa using hd, hvalue⟩
  · cases h

/-- **The reader accepts exactly the grammar.** A text is cut into tokens in one way, `ts`; it is
read as a condition exactly when a derivation has these tokens and that value; there is at most one
such derivation; and no list of operands in a condition that is read is shorter than two. -/
theorem parse?_accepts_grammar (t : Text) :
    ∃ ts : List Token, (∀ ts', Cuts t ts' ↔ ts' = ts) ∧
      (∀ c, parse? t = some c ↔ ∃ d : Derivation (.chain .or), d.tokens = ts ∧ d.value = c) ∧
      (∀ d d' : Derivation (.chain .or), d.tokens = ts → d'.tokens = ts → d = d') ∧
      ∀ c, parse? t = some c → c.Proper := by
  refine ⟨tokens t, fun ts' => cuts_iff, fun c => ?_, fun d d' hd hd' => ?_, fun c hc => ?_⟩
  · constructor
    · exact exists_derivation
    · rintro ⟨d, hd, rfl⟩
      exact parse?_of_tokens hd
  · exact Derivation.eq_of_tokens (hd.trans hd'.symm)
  · obtain ⟨d, -, rfl⟩ := exists_derivation hc
    exact d.proper_value.1

end Condition

end BslLint
