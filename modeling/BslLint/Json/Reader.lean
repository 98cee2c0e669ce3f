import BslLint.Decimal
import BslLint.Json.Basic

/-!
The strict reader of JSON texts: no comments, no commas at the end, no control characters in
strings, nothing but white space around the value. Values are read with a bound on their nesting;
a number must fit a double, and a string must be a text.

A value that nobody will look at is read leniently: its nesting has no bound, its numbers may be of
any size, and half a surrogate pair in a string does no harm.
-/

namespace BslLint.Json

/-- Arrays and objects are nested at most this deep. -/
def maxDepth : Nat := 127

def isGap (c : Char) : Bool := c == ' ' || c == '\t' || c == '\n' || c == '\r'

def skipGaps (t : Text) : Text := t.dropWhile isGap

def hexDigit? (c : Char) : Option Nat :=
  if '0' ≤ c ∧ c ≤ '9' then some (c.toNat - '0'.toNat)
  else if 'a' ≤ c ∧ c ≤ 'f' then some (c.toNat - 'a'.toNat + 10)
  else if 'A' ≤ c ∧ c ≤ 'F' then some (c.toNat - 'A'.toNat + 10)
  else none

def hex4? (a b c d : Char) : Option Nat := do
  return (((← hexDigit? a) * 16 + (← hexDigit? b)) * 16 + (← hexDigit? c)) * 16 + (← hexDigit? d)

def escaped? : Char → Option Char
  | '"' => some '"'
  | '\\' => some '\\'
  | '/' => some '/'
  | 'b' => some '\x08'
  | 'f' => some '\x0c'
  | 'n' => some '\n'
  | 'r' => some '\r'
  | 't' => some '\t'
  | _ => none

def isHighSurrogate (n : Nat) : Bool := 0xD800 ≤ n && n ≤ 0xDBFF

def isLowSurrogate (n : Nat) : Bool := 0xDC00 ≤ n && n ≤ 0xDFFF

def ofSurrogates (high low : Nat) : Char :=
  Char.ofNat (0x10000 + (high - 0xD800) * 0x400 + (low - 0xDC00))

/-- The characters of a string up to its closing quote, given those read so far, backwards. -/
def readChars (strict : Bool) : List Char → Text → Option (Text × Text)
  | _, [] => none
  | acc, '"' :: rest => some (acc.reverse, rest)
  | acc, '\\' :: 'u' :: a :: b :: c :: d :: '\\' :: 'u' :: e :: f :: g :: h :: rest =>
    match hex4? a b c d, hex4? e f g h with
    | some n, some m =>
      if isHighSurrogate n && isLowSurrogate m then readChars strict (ofSurrogates n m :: acc) rest
      else if isHighSurrogate n || isLowSurrogate n then
        if strict then none
        else readChars strict ('?' :: acc) ('\\' :: 'u' :: e :: f :: g :: h :: rest)
      else readChars strict (Char.ofNat n :: acc) ('\\' :: 'u' :: e :: f :: g :: h :: rest)
    | _, _ => none
  | acc, '\\' :: 'u' :: a :: b :: c :: d :: rest =>
    match hex4? a b c d with
    | some n =>
      if isHighSurrogate n || isLowSurrogate n then
        if strict then none else readChars strict ('?' :: acc) rest
      else readChars strict (Char.ofNat n :: acc) rest
    | none => none
  | acc, '\\' :: c :: rest =>
    match escaped? c with
    | some x => readChars strict (x :: acc) rest
    | none => none
  | acc, c :: rest => if c.toNat < 0x20 then none else readChars strict (c :: acc) rest

/-- The digits of a fraction behind its point; nothing when the point has none. -/
def readFraction : Text → Option (Text × Text)
  | '.' :: rest =>
    let digits := rest.takeWhile Char.isDigit
    if digits.isEmpty then none else some (digits, rest.dropWhile Char.isDigit)
  | t => some ([], t)

/-- The sign and the digits of an exponent: whether it is there, whether it is negative, and its
size; nothing when its mark has no digits. -/
def readExponent (t : Text) : Option (Option (Bool × Nat) × Text) :=
  match t with
  | [] => some (none, t)
  | e :: rest =>
    if e == 'e' || e == 'E' then
      let (negative, rest) := match rest with
        | '-' :: rest => (true, rest)
        | '+' :: rest => (false, rest)
        | rest => (false, rest)
      let digits := rest.takeWhile Char.isDigit
      if digits.isEmpty then none
      else some (some (negative, Decimal.ofDigits digits), rest.dropWhile Char.isDigit)
    else some (none, t)

def readNumber (strict : Bool) (t : Text) : Option (Json × Text) := do
  let (negative, unsigned) := match t with
    | '-' :: rest => (true, rest)
    | rest => (false, rest)
  let whole := unsigned.takeWhile Char.isDigit
  if whole.isEmpty || (whole.head? == some '0' && 1 < whole.length) then none
  else
    let (fraction, rest) ← readFraction (unsigned.dropWhile Char.isDigit)
    let (exponent, rest) ← readExponent rest
    let (up, down) := match exponent with
      | some (true, n) => (0, n)
      | some (false, n) => (n, 0)
      | none => (0, 0)
    if strict && !Decimal.scalesWhenCut ⟨whole, fraction, up, down⟩ then none
    else if !negative && fraction.isEmpty && exponent.isNone then
      return (.natural (Decimal.ofDigits whole), rest)
    else return (.decimal (String.ofList (t.take (t.length - rest.length))), rest)

def readKey (strict : Bool) (t : Text) : Option (String × Text) :=
  match skipGaps t with
  | '"' :: rest => do
    let (key, rest) ← readChars strict [] rest
    match skipGaps rest with
    | ':' :: rest => return (String.ofList key, rest)
    | _ => none
  | _ => none

mutual

/-- A value at the front of the text, with a bound on the steps taken and one on the nesting that
is left. -/
def readValue (strict : Bool) : Nat → Nat → Text → Option (Json × Text)
  | 0, _, _ => none
  | steps + 1, depth, t =>
    match skipGaps t with
    | '{' :: rest =>
      if strict && depth == 0 then none
      else match skipGaps rest with
        | '}' :: rest => some (.object [], rest)
        | rest => do
          let (members, rest) ← readMembers strict steps (depth - 1) rest
          return (.object members, rest)
    | '[' :: rest =>
      if strict && depth == 0 then none
      else match skipGaps rest with
        | ']' :: rest => some (.array [], rest)
        | rest => do
          let (elements, rest) ← readElements strict steps (depth - 1) rest
          return (.array elements, rest)
    | '"' :: rest => do
      let (s, rest) ← readChars strict [] rest
      return (.string (String.ofList s), rest)
    | 'n' :: 'u' :: 'l' :: 'l' :: rest => some (.null, rest)
    | 't' :: 'r' :: 'u' :: 'e' :: rest => some (.bool true, rest)
    | 'f' :: 'a' :: 'l' :: 's' :: 'e' :: rest => some (.bool false, rest)
    | t => readNumber strict t

def readMembers (strict : Bool) : Nat → Nat → Text → Option (List (String × Json) × Text)
  | 0, _, _ => none
  | steps + 1, depth, t => do
    let (key, rest) ← readKey strict t
    let (v, rest) ← readValue strict steps depth rest
    match skipGaps rest with
    | '}' :: rest => return ([(key, v)], rest)
    | ',' :: rest =>
      let (members, rest) ← readMembers strict steps depth rest
      return ((key, v) :: members, rest)
    | _ => none

def readElements (strict : Bool) : Nat → Nat → Text → Option (List Json × Text)
  | 0, _, _ => none
  | steps + 1, depth, t => do
    let (v, rest) ← readValue strict steps depth t
    match skipGaps rest with
    | ']' :: rest => return ([v], rest)
    | ',' :: rest =>
      let (elements, rest) ← readElements strict steps depth rest
      return (v :: elements, rest)
    | _ => none

end

/-- The members of an object up to its closing brace, where only the values under the wanted keys
are read strictly. -/
def readWanted (wanted : String → Bool) : Nat → Nat → Text → Option (List (String × Json) × Text)
  | 0, _, _ => none
  | steps + 1, depth, t => do
    let (key, rest) ← readKey true t
    let (v, rest) ← readValue (wanted key) steps depth rest
    match skipGaps rest with
    | '}' :: rest => return ([(key, v)], rest)
    | ',' :: rest =>
      let (members, rest) ← readWanted wanted steps depth rest
      return ((key, v) :: members, rest)
    | _ => none

/-- More steps than reading a text takes: two for each character. -/
def stepsFor (t : Text) : Nat := 2 * t.length + 2

/-- The value, provided nothing but white space follows it. -/
def whole? (read : Option (Json × Text)) : Option Json :=
  match read with
  | some (v, rest) => if (skipGaps rest).isEmpty then some v else none
  | none => none

def parse? (t : Text) (depth : Nat := maxDepth) : Option Json :=
  whole? (readValue true (stepsFor t) depth t)

/-- The record that a text writes: a value of which, if it is an object, only the wanted members
are looked at. -/
def parseRecord? (wanted : String → Bool) (t : Text) : Option Json :=
  match skipGaps t with
  | '{' :: rest =>
    match skipGaps rest with
    | '}' :: rest => whole? (some (.object [], rest))
    | rest => whole? do
      let (members, rest) ← readWanted wanted (stepsFor t) (maxDepth - 1) rest
      return (.object members, rest)
  | _ => parse? t

end BslLint.Json
