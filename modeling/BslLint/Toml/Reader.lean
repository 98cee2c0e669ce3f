import BslLint.Toml.Basic
import BslLint.Toml.Scalar

/-!
Reading TOML texts. A document is a sequence of lines, each empty, a table header or an entry, and
each with a comment at its end if need be.
-/

namespace BslLint.Toml

/-- The deepest nesting of arrays and inline tables, and the largest number of parts of a key. -/
def maxDepth : Nat := 80

def isGap (c : Char) : Bool := c == ' ' || c == '\t'

def skipGaps (t : Text) : Text := t.dropWhile isGap

def isControl (c : Char) : Bool := (c.toNat < 0x20 && c != '\t') || c.toNat == 0x7F

/-- The text behind a line break at its front. -/
def dropBreak? : Text → Option Text
  | '\n' :: rest => some rest
  | '\r' :: '\n' :: rest => some rest
  | _ => none

/-- The text behind a comment, if there is one; the line break stays. -/
def skipComment : Text → Option Text
  | '#' :: rest =>
    let rest := rest.dropWhile (!isControl ·)
    if rest.isEmpty || (dropBreak? rest).isSome then some rest else none
  | t => some t

/-- The text behind the end of a line: blanks, a comment and the line break. -/
def dropLineEnd? (t : Text) : Option Text := do
  let t ← skipComment (skipGaps t)
  if t.isEmpty then return t else dropBreak? t

/-- The text from its next part on, where line breaks and comments separate too. -/
def skipLines : Nat → Text → Option Text
  | 0, t => some t
  | fuel + 1, t => do
    let t ← skipComment (skipGaps t)
    match dropBreak? t with
    | some rest => skipLines fuel rest
    | none => return t

/-- The character that digits in base sixteen name. -/
def unicode? (digits : Text) : Option Char := do
  let values ← digits.mapM Json.hexDigit?
  let code := values.foldl (fun n d => n * 16 + d) 0
  if h : code.isValidChar then some (Char.ofNatAux code h) else none

/-- The character that so many digits in base sixteen name at the front of a text. -/
def readUnicode (digits : Nat) (t : Text) : Option (Char × Text) :=
  if t.length < digits then none else do return (← unicode? (t.take digits), t.drop digits)

/-- An escape behind its backslash. -/
def readEscape : Text → Option (Char × Text)
  | 'x' :: rest => readUnicode 2 rest
  | 'u' :: rest => readUnicode 4 rest
  | 'U' :: rest => readUnicode 8 rest
  | 'e' :: rest => some ('\x1b', rest)
  | '/' :: _ => none
  | c :: rest => do return (← Json.escaped? c, rest)
  | [] => none

/-- The rest of a string on one line, given its characters so far, backwards. -/
def readBasic : Nat → List Char → Text → Option (Text × Text)
  | 0, _, _ => none
  | fuel + 1, acc, t =>
    match t with
    | '"' :: rest => some (acc.reverse, rest)
    | '\\' :: rest => do
      let (c, rest) ← readEscape rest
      readBasic fuel (c :: acc) rest
    | c :: rest => if isControl c then none else readBasic fuel (c :: acc) rest
    | [] => none

def readLiteral (t : Text) : Option (Text × Text) :=
  let s := t.takeWhile fun c => c != '\'' && !isControl c
  match t.drop s.length with
  | '\'' :: rest => some (s, rest)
  | _ => none

def skipBlank : Text → Text
  | [] => []
  | '\r' :: '\n' :: rest => skipBlank rest
  | c :: rest => if isGap c || c == '\n' then skipBlank rest else c :: rest

/-- The text behind a backslash that joins lines: blanks, a line break, and all blanks and line
breaks that follow. -/
def dropJoin? (t : Text) : Option Text := (dropBreak? (skipGaps t)).map skipBlank

/-- The quotes that end a string over several lines: three close it, and up to two before them
belong to it. -/
def closing? (quote : Char) (t : Text) : Option (Text × Text) :=
  let quotes := t.takeWhile (· == quote)
  if 3 ≤ quotes.length ∧ quotes.length ≤ 5 then
    some (quotes.drop 3, t.drop quotes.length)
  else none

/-- The rest of a string over several lines, given its characters so far, backwards. Line breaks are
kept as they are. -/
def readMultiline (quote : Char) : Nat → List Char → Text → Option (Text × Text)
  | 0, _, _ => none
  | fuel + 1, acc, t =>
    match t with
    | [] => none
    | c :: rest =>
      if c == quote then
        match closing? quote t with
        | some (last, rest) => some (acc.reverse ++ last, rest)
        | none => if (t.takeWhile (· == quote)).length ≤ 2 then
            readMultiline quote fuel (c :: acc) rest else none
      else if c == '\\' && quote == '"' then
        match dropJoin? rest with
        | some rest => readMultiline quote fuel acc rest
        | none => do
          let (c, rest) ← readEscape rest
          readMultiline quote fuel (c :: acc) rest
      else if isControl c && (dropBreak? t).isNone then none
      else readMultiline quote fuel (c :: acc) rest

def skipBreak (t : Text) : Text := (dropBreak? t).getD t

/-- Whether a character may stand in a key without quotes. -/
def isBare (c : Char) : Bool := c.isAlphanum || c == '_' || c == '-'

def readKeyPart (t : Text) : Option (String × Text) :=
  match t with
  | '"' :: rest =>
    (readBasic (rest.length + 1) [] rest).map fun (s, rest) => (String.ofList s, rest)
  | '\'' :: rest => (readLiteral rest).map fun (s, rest) => (String.ofList s, rest)
  | t =>
    let name := t.takeWhile isBare
    if name.isEmpty then none else some (String.ofList name, t.dropWhile isBare)

def readKey : Nat → Text → Option (List String × Text)
  | 0, _ => none
  | fuel + 1, t => do
    let (part, rest) ← readKeyPart (skipGaps t)
    match skipGaps rest with
    | '.' :: rest =>
      let (parts, rest) ← readKey fuel rest
      return (part :: parts, rest)
    | rest => return ([part], rest)

def isScalar (c : Char) : Bool := isBare c || c == '+' || c == '.' || c == ':'

/-- The spelling of a number, a date or a truth value at the front of a text. One blank may stand
between a date and a time. -/
def scalarText (t : Text) : Text :=
  let first := t.takeWhile isScalar
  match dropDate? first, t.drop first.length with
  | some [], ' ' :: rest =>
    if rest.head?.any Char.isDigit then first ++ ' ' :: rest.takeWhile isScalar
    else first
  | _, _ => first

/-- A number, a date or a truth value. -/
def ofScalar? (t : Text) : Option Toml :=
  if t == "true".toList then some (.boolean true)
  else if t == "false".toList then some (.boolean false)
  else if isInteger t || isFloat t then some (.number (String.ofList t))
  else if isMoment t then some (.moment (String.ofList t))
  else none

mutual

def readValue : Nat → Nat → Text → Option (Toml × Text)
  | 0, _, _ => none
  | fuel + 1, depth, t =>
    match t with
    | '"' :: '"' :: '"' :: rest => do
      let (s, rest) ← readMultiline '"' (rest.length + 1) [] (skipBreak rest)
      return (.string (String.ofList s), rest)
    | '"' :: rest => do
      let (s, rest) ← readBasic (rest.length + 1) [] rest
      return (.string (String.ofList s), rest)
    | '\'' :: '\'' :: '\'' :: rest => do
      let (s, rest) ← readMultiline '\'' (rest.length + 1) [] (skipBreak rest)
      return (.string (String.ofList s), rest)
    | '\'' :: rest => do
      let (s, rest) ← readLiteral rest
      return (.string (String.ofList s), rest)
    | '[' :: rest =>
      if depth = 0 then none else do
        let (elements, rest) ← readElements fuel (depth - 1) rest
        return (.array elements, rest)
    | '{' :: rest =>
      if depth = 0 then none else do
        let (t, rest) ← readEntries fuel (depth - 1) (.table .header []) rest
        match t with
        | .table _ entries => return (.table .inline entries, rest)
        | _ => none
    | t => do
      let spelling := scalarText t
      return (← ofScalar? spelling, t.drop spelling.length)

def readElements : Nat → Nat → Text → Option (List Toml × Text)
  | 0, _, _ => none
  | fuel + 1, depth, t => do
    match ← skipLines (t.length + 1) t with
    | ']' :: rest => return ([], rest)
    | t =>
      let (v, rest) ← readValue fuel depth t
      match ← skipLines (rest.length + 1) rest with
      | ',' :: rest =>
        let (vs, rest) ← readElements fuel depth rest
        return (v :: vs, rest)
      | ']' :: rest => return ([v], rest)
      | _ => none

/-- The entries of an inline table up to its closing brace, added to those before. -/
def readEntries : Nat → Nat → Toml → Text → Option (Toml × Text)
  | 0, _, _, _ => none
  | fuel + 1, depth, made, t => do
    match ← skipLines (t.length + 1) t with
    | '}' :: rest => return (made, rest)
    | t =>
      let (keys, rest) ← readKey maxDepth t
      match ← skipLines (rest.length + 1) rest with
      | '=' :: rest =>
        let (v, rest) ← readValue fuel depth (← skipLines (rest.length + 1) rest)
        let made ← Toml.insert keys v made
        match ← skipLines (rest.length + 1) rest with
        | ',' :: rest => readEntries fuel depth made rest
        | '}' :: rest => return (made, rest)
        | _ => none
      | _ => none

end

/-- A document read so far, and the keys of the table that entries go to. -/
structure Draft where
  document : Toml := .empty
  current : List String := []

namespace Draft

def openTable (d : Draft) (keys : List String) : Option Draft := do
  let key ← keys.getLast?
  return ⟨← changeAt false (define key) keys.dropLast d.document, keys⟩

def openElement (d : Draft) (keys : List String) : Option Draft := do
  let key ← keys.getLast?
  return ⟨← changeAt false (appendTable key) keys.dropLast d.document, keys⟩

def enter (d : Draft) (keys : List String) (value : Toml) : Option Draft := do
  return { d with document := ← changeAt false (Toml.insert keys value) d.current d.document }

end Draft

/-- Reads one line that is not empty. -/
def readLine (d : Draft) (t : Text) : Option (Draft × Text) :=
  match t with
  | '[' :: '[' :: rest => do
    let (keys, rest) ← readKey maxDepth rest
    match skipGaps rest with
    | ']' :: ']' :: rest => return (← d.openElement keys, rest)
    | _ => none
  | '[' :: rest => do
    let (keys, rest) ← readKey maxDepth rest
    match skipGaps rest with
    | ']' :: rest => return (← d.openTable keys, rest)
    | _ => none
  | t => do
    let (keys, rest) ← readKey maxDepth t
    match skipGaps rest with
    | '=' :: rest =>
      let (v, rest) ← readValue (2 * rest.length + 2) maxDepth (skipGaps rest)
      return (← d.enter keys v, rest)
    | _ => none

def readDocument : Nat → Draft → Text → Option Toml
  | 0, _, _ => none
  | fuel + 1, d, t => do
    let t ← skipLines (t.length + 1) t
    if t.isEmpty then return d.document
    else
      let (d, rest) ← readLine d t
      readDocument fuel d (← dropLineEnd? rest)

def parse? (t : Text) : Option Toml :=
  let t := if t.head? == some '\uFEFF' then t.tail else t
  readDocument (t.length + 1) {} t

end BslLint.Toml
