import BslLint.Decimal
import BslLint.Json.Reader

/-!
The spellings of TOML numbers and dates. Whether a text spells a number (`isInteger`, `isFloat`) and
whether the number it spells can be held (`isHeld`) are two questions: the second is asked only of
the numbers that somebody looks at.
-/

namespace BslLint.Toml

/-- Whether a character is a digit in a base up to sixteen. -/
def isDigitIn (base : Nat) (c : Char) : Bool := (Json.hexDigit? c).any (· < base)

/-- Whether the underscores of a number stand between digits: each part but the first starts with a
digit, and each but the last ends with one. -/
def separatorsFit (isDigit : Char → Bool) (t : Text) : Bool :=
  let parts := Text.splitOn '_' t
  parts.tail.all (·.head?.any isDigit) && parts.dropLast.all (·.getLast?.any isDigit)

def withoutSeparators (t : Text) : Text := t.filter (· != '_')

def splitSign : Text → Bool × Text
  | '-' :: rest => (true, rest)
  | '+' :: rest => (false, rest)
  | t => (false, t)

/-- The base that the mark at the front of an integer names, and what follows the mark. -/
def splitBase? : Text → Option (Nat × Text)
  | '0' :: 'x' :: rest => some (16, rest)
  | '0' :: 'o' :: rest => some (8, rest)
  | '0' :: 'b' :: rest => some (2, rest)
  | _ => none

/-- Whether a character shows that a text is no integer: a point, an exponent or a blank. -/
def isForeignMark (c : Char) : Bool := c == '.' || c == 'e' || c == 'E' || c == ' '

/-- Whether a text is taken for a decimal integer without a sign: digits without a leading zero,
perhaps cut by underscores. Behind the first underscore only the marks of other numbers count. -/
def looksDecimal (t : Text) : Bool :=
  let rest := t.dropWhile Char.isDigit
  t == ['0'] || (t.head?.any Char.isDigit && t.head? != some '0' &&
    (rest.isEmpty || (rest.head? == some '_' && rest.all (!isForeignMark ·))))

def isInteger (t : Text) : Bool :=
  match splitBase? t with
  | some (base, digits) =>
    digits.all (fun c => isDigitIn base c || c == '_') && separatorsFit (isDigitIn 16) digits
  | none => looksDecimal (splitSign t).2 && separatorsFit (isDigitIn 16) t

/-- Whether a text that spells an integer spells one of at most 128 bits. -/
def isHeldInteger (t : Text) : Bool :=
  match splitBase? t with
  | some (base, digits) =>
    let values := (withoutSeparators digits).filterMap Json.hexDigit?
    !values.isEmpty && values.foldl (fun n d => n * base + d) 0 < Nat.pow 2 128
  | none =>
    let (negative, t) := splitSign t
    let digits := withoutSeparators t
    let value := Decimal.ofDigits digits
    digits.all Char.isDigit && (if negative then value ≤ Nat.pow 2 127 else value < Nat.pow 2 128)

/-- The digits of a run of digits and underscores at the front of a text, and what follows; nothing
without a digit. -/
def readRun (t : Text) : Option (Text × Text) :=
  let run := t.takeWhile fun c => c.isDigit || c == '_'
  let digits := withoutSeparators run
  if digits.isEmpty then none else some (digits, t.drop run.length)

def readFraction : Text → Option (Text × Text)
  | '.' :: rest => readRun rest
  | t => some ([], t)

/-- The exponent with its mark, as how far it raises and how far it lowers a number. -/
def readExponent : Text → Option ((Nat × Nat) × Text)
  | [] => some ((0, 0), [])
  | mark :: rest =>
    if mark == 'e' || mark == 'E' then do
      let (negative, rest) := splitSign rest
      let (digits, rest) ← readRun rest
      let size := Decimal.ofDigits digits
      return (if negative then (0, size) else (size, 0), rest)
    else none

/-- The number that a text without a sign writes with a fraction or an exponent. -/
def decimal? (t : Text) : Option Decimal := do
  let (whole, rest) ← readRun t
  let (fraction, final) ← readFraction rest
  let ((up, down), final) ← readExponent final
  if rest.isEmpty || !final.isEmpty || (1 < whole.length && t.head? == some '0') then none
  else return ⟨whole, fraction, up, down⟩

/-- Whether a text without a sign names infinity or no number at all. -/
def isSpecial (t : Text) : Bool := t == "inf".toList || t == "nan".toList

/-- Whether a text spells a number with a fraction or an exponent. -/
def isFloat (t : Text) : Bool :=
  let unsigned := (splitSign t).2
  isSpecial unsigned || ((decimal? unsigned).isSome && separatorsFit Char.isDigit t)

/-- Whether a text that spells a number with a fraction or an exponent spells one that is rounded to
a double. -/
def isHeldFloat (t : Text) : Bool :=
  let unsigned := (splitSign t).2
  isSpecial unsigned || (decimal? unsigned).any Decimal.roundsToDouble

/-- Whether a text that spells a number spells one that can be held. -/
def isHeld (t : Text) : Bool := if isInteger t then isHeldInteger t else isHeldFloat t

def twoDigits? (a b : Char) : Option Nat :=
  if a.isDigit && b.isDigit then some (Decimal.ofDigits [a, b]) else none

def daysIn (year month : Nat) : Nat :=
  if month == 2 then
    if year % 4 == 0 && (year % 100 != 0 || year % 400 == 0) then 29 else 28
  else if [4, 6, 9, 11].contains month then 30 else 31

/-- What follows a date at the front of a text. -/
def dropDate? : Text → Option Text
  | y₁ :: y₂ :: y₃ :: y₄ :: '-' :: m₁ :: m₂ :: '-' :: d₁ :: d₂ :: rest => do
    let year := (← twoDigits? y₁ y₂) * 100 + (← twoDigits? y₃ y₄)
    let month ← twoDigits? m₁ m₂
    let day ← twoDigits? d₁ d₂
    if 1 ≤ month ∧ month ≤ 12 ∧ 1 ≤ day ∧ day ≤ daysIn year month then some rest else none
  | _ => none

/-- What follows the seconds of a time, with their fraction, at the front of a text; a time may do
without them. -/
def dropSeconds? : Text → Option Text
  | ':' :: s₁ :: s₂ :: rest => do
    if (← twoDigits? s₁ s₂) ≤ 60 then
      match rest with
      | '.' :: fraction =>
        if fraction.head?.any Char.isDigit then some (fraction.dropWhile Char.isDigit) else none
      | rest => some rest
    else none
  | t => some t

/-- What follows a time at the front of a text. -/
def dropTime? : Text → Option Text
  | h₁ :: h₂ :: ':' :: m₁ :: m₂ :: rest => do
    if (← twoDigits? h₁ h₂) ≤ 23 ∧ (← twoDigits? m₁ m₂) ≤ 59 then dropSeconds? rest else none
  | _ => none

/-- Whether a text is an offset from universal time, or nothing. -/
def isTimeOffset : Text → Bool
  | [] | ['Z'] | ['z'] => true
  | [sign, h₁, h₂, ':', m₁, m₂] =>
    (sign == '+' || sign == '-') && (twoDigits? h₁ h₂).any (· ≤ 23) &&
      (twoDigits? m₁ m₂).any (· ≤ 59)
  | _ => false

/-- Whether a text writes a date, a time or both. -/
def isMoment (t : Text) : Bool :=
  match dropDate? t with
  | some [] => true
  | some (separator :: time) =>
    (separator == 'T' || separator == 't' || separator == ' ') &&
      (dropTime? time).any isTimeOffset
  | none => (dropTime? t).any List.isEmpty

end BslLint.Toml
