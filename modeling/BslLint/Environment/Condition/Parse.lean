import BslLint.Text.Word
import BslLint.Environment.Condition

/-!
Reading a preprocessor condition from its text. A disjunction joins conjunctions, a conjunction
joins operands, and an operand is a symbol, a negated operand or a condition in parentheses. A
single operand stands for itself; two or more make one flat list.
-/

namespace BslLint.Condition

/-- A piece of a condition's text: a run of identifier characters or a parenthesis. All other
characters separate. -/
inductive Token where
  | word (text : Text)
  | opening
  | closing
deriving DecidableEq, Repr

/-- The word read so far, backwards, as a token, in front of the tokens that follow it. -/
def Token.flush : List Char → List Token → List Token
  | [], rest => rest
  | c :: cs, rest => .word (c :: cs).reverse :: rest

/-- The tokens of the rest of a text, given the word read so far, backwards. -/
def tokensAfter : List Char → Text → List Token
  | word, [] => Token.flush word []
  | word, c :: cs =>
    if Text.isIdentifier c then tokensAfter (c :: word) cs
    else if c = '(' then Token.flush word (.opening :: tokensAfter [] cs)
    else if c = ')' then Token.flush word (.closing :: tokensAfter [] cs)
    else Token.flush word (tokensAfter [] cs)

def tokens (t : Text) : List Token := tokensAfter [] t

def notWord : Spelling := ⟨"НЕ", "NOT"⟩

def andWord : Spelling := ⟨"И", "AND"⟩

def orWord : Spelling := ⟨"ИЛИ", "OR"⟩

def Token.is (word : Spelling) : Token → Bool
  | .word t => word.covers t
  | _ => false

/-- Reads a condition from the front of the tokens and leaves the rest. -/
abbrev Reader := List Token → Option (Condition × List Token)

/-- The further operands of a chain, each after the joining word; at most as many as the first
argument says. -/
def furtherOperands (operand : Reader) (join : Spelling) :
    Nat → List Token → Option (List Condition × List Token)
  | 0, ts => some ([], ts)
  | _, [] => some ([], [])
  | n + 1, t :: ts =>
    if t.is join then do
      let (c, rest) ← operand ts
      let (cs, rest) ← furtherOperands operand join n rest
      return (c :: cs, rest)
    else some ([], t :: ts)

/-- One operand, or the list of two and more under the given connective. -/
def joined (connective : List Condition → Condition) (first : Condition) :
    List Condition → Condition
  | [] => first
  | rest => connective (first :: rest)

def chain (operand : Reader) (join : Spelling) (connective : List Condition → Condition) :
    Reader := fun ts => do
  let (c, rest) ← operand ts
  let (cs, rest) ← furtherOperands operand join rest.length rest
  return (joined connective c cs, rest)

def disjunction (operand : Reader) : Reader :=
  chain (chain operand andWord .and) orWord .or

/-- An operand nested at most as deep as the first argument says. -/
def operand : Nat → Reader
  | 0, _ => none
  | _, [] => none
  | n + 1, t :: ts =>
    if t.is notWord then (operand n ts).map fun (c, rest) => (.not c, rest)
    else match t with
      | .opening =>
        match disjunction (operand n) ts with
        | some (c, .closing :: rest) => some (c, rest)
        | _ => none
      | .closing => none
      | .word name => (Symbol.ofName? name).map fun s => (.symbol s, ts)

/-- The condition that a text writes; nothing when the text is none. No operand is nested deeper
than there are tokens. -/
def parse? (t : Text) : Option Condition :=
  match disjunction (operand (tokens t).length) (tokens t) with
  | some (c, []) => some c
  | _ => none

end BslLint.Condition
