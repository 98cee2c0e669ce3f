import BslLint.Json.Basic
import BslLint.Text.Basic

/-!
JSON values as text, on one line or indented by two spaces. Only quotes, backslashes and control
characters are escaped.
-/

namespace BslLint.Json

def hexChar (n : Nat) : Char :=
  if n < 10 then Char.ofNat ('0'.toNat + n) else Char.ofNat ('a'.toNat + (n - 10))

def escapeChar (c : Char) : Text :=
  match c with
  | '"' => ['\\', '"']
  | '\\' => ['\\', '\\']
  | '\x08' => ['\\', 'b']
  | '\x0c' => ['\\', 'f']
  | '\n' => ['\\', 'n']
  | '\r' => ['\\', 'r']
  | '\t' => ['\\', 't']
  | c =>
    if c.toNat < 0x20 then
      ['\\', 'u', '0', '0', hexChar (c.toNat / 16), hexChar (c.toNat % 16)]
    else [c]

def quote (s : String) : String :=
  "\"" ++ String.ofList (s.toList.flatMap escapeChar) ++ "\""

mutual

def compact : Json → String
  | .null => "null"
  | .bool true => "true"
  | .bool false => "false"
  | .natural n => toString n
  | .decimal s => s
  | .string s => quote s
  | .array elements => "[" ++ ",".intercalate (compactElements elements) ++ "]"
  | .object members => "\x7b" ++ ",".intercalate (compactMembers members) ++ "\x7d"

def compactElements : List Json → List String
  | [] => []
  | v :: vs => compact v :: compactElements vs

def compactMembers : List (String × Json) → List String
  | [] => []
  | m :: ms => compactMember m :: compactMembers ms

def compactMember : String × Json → String
  | (key, v) => quote key ++ ":" ++ compact v

end

/-- Parts between brackets, each on a line of its own; nothing stands between the brackets of an
empty list. -/
def block (opening closing indent : String) : List String → String
  | [] => opening ++ closing
  | parts =>
    opening ++ "\n" ++ ",\n".intercalate (parts.map fun p => indent ++ "  " ++ p) ++ "\n" ++
      indent ++ closing

mutual

/-- The value on several lines, the further ones behind the given indentation. -/
def prettyAt (indent : String) : Json → String
  | .array elements => block "[" "]" indent (prettyElements (indent ++ "  ") elements)
  | .object members => block "\x7b" "\x7d" indent (prettyMembers (indent ++ "  ") members)
  | .null => "null"
  | .bool true => "true"
  | .bool false => "false"
  | .natural n => toString n
  | .decimal s => s
  | .string s => quote s

def prettyElements (indent : String) : List Json → List String
  | [] => []
  | v :: vs => prettyAt indent v :: prettyElements indent vs

def prettyMembers (indent : String) : List (String × Json) → List String
  | [] => []
  | m :: ms => prettyMember indent m :: prettyMembers indent ms

def prettyMember (indent : String) : String × Json → String
  | (key, v) => quote key ++ ": " ++ prettyAt indent v

end

def pretty (v : Json) : String := prettyAt "" v

end BslLint.Json
