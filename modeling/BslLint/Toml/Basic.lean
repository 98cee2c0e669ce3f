/-!
TOML documents. A table remembers how it came about, because that decides what may still be added to
it: a header defines a table once, dotted keys extend only tables that dotted keys made, and an
inline table is closed.
-/

namespace BslLint

/-- How a table came about. -/
inductive TableOrigin where
  /-- By a header of its own. -/
  | header
  /-- On the way to a table with a header. -/
  | implied
  /-- By a dotted key. -/
  | dotted
  /-- Written inline. -/
  | inline
deriving DecidableEq, Repr

/-- A TOML value. Numbers and dates keep their spelling. -/
inductive Toml where
  | string (value : String)
  | boolean (value : Bool)
  | number (spelling : String)
  | moment (spelling : String)
  | array (elements : List Toml)
  | tables (elements : List Toml)
  | table (origin : TableOrigin) (entries : List (String × Toml))

namespace Toml

def empty : Toml := .table .header []

def replace (key : String) (value : Toml) (entries : List (String × Toml)) :
    List (String × Toml) :=
  entries.map fun e => if e.1 == key then (key, value) else e

/-- Whether the way of a key may lead through a value. Dotted keys do not reach into tables with a
header. -/
def isPassable (byDots : Bool) : Toml → Bool
  | .table origin _ =>
    match origin with
    | .header => !byDots
    | .implied | .dotted => true
    | .inline => false
  | .tables _ => true
  | _ => false

/-- Changes a table, or the last one of an array of tables. -/
def changeLast (change : Toml → Option Toml) : Toml → Option Toml
  | .tables elements => do
    let last ← elements.getLast?
    return .tables (elements.dropLast ++ [← change last])
  | t => change t

/-- Changes the table that keys lead to; tables that are missing on the way are made. -/
def changeAt (byDots : Bool) (change : Toml → Option Toml) : List String → Toml → Option Toml
  | [], t => change t
  | key :: keys, .table origin entries =>
    match entries.lookup key with
    | none => do
      let made := .table (if byDots then .dotted else .implied) []
      return .table origin (entries ++ [(key, ← changeAt byDots change keys made)])
    | some child =>
      if child.isPassable byDots then do
        let child ← changeLast (changeAt byDots change keys) child
        return .table origin (replace key child entries)
      else none
  | _, _ => none

def define (key : String) : Toml → Option Toml
  | .table origin entries =>
    match entries.lookup key with
    | none => some (.table origin (entries ++ [(key, .table .header [])]))
    | some (.table .implied inner) =>
      some (.table origin (replace key (.table .header inner) entries))
    | some _ => none
  | _ => none

def appendTable (key : String) : Toml → Option Toml
  | .table origin entries =>
    match entries.lookup key with
    | none => some (.table origin (entries ++ [(key, .tables [.table .header []])]))
    | some (.tables elements) =>
      some (.table origin (replace key (.tables (elements ++ [.table .header []])) entries))
    | some _ => none
  | _ => none

/-- Adds an entry to a table that has none under its key. A dotted key ends in a table that dotted
keys made. -/
def assign (isDotted : Bool) (key : String) (value : Toml) : Toml → Option Toml
  | .table origin entries =>
    if (origin == .dotted) != isDotted || (entries.lookup key).isSome then none
    else some (.table origin (entries ++ [(key, value)]))
  | _ => none

def insert (keys : List String) (value : Toml) (t : Toml) : Option Toml := do
  let key ← keys.getLast?
  let way := keys.dropLast
  changeAt true (assign (!way.isEmpty) key value) way t

end Toml

end BslLint
