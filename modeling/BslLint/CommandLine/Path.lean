import BslLint.Text.Basic

/-!
File paths as they are written. Repeated separators, inner dots and a separator at the end do not
matter: a path is known by its components.
-/

namespace BslLint

/-- A component of a path. Components are ordered as they are listed here, names among themselves
by their characters. -/
inductive Component where
  | root
  | current
  | parent
  | name (text : Text)
deriving DecidableEq, Repr

namespace Component

def rank : Component → Nat
  | root => 0
  | current => 1
  | parent => 2
  | name _ => 3

def compareText : Text → Text → Ordering
  | [], [] => .eq
  | [], _ :: _ => .lt
  | _ :: _, [] => .gt
  | c :: cs, d :: ds => (compare c.toNat d.toNat).then (compareText cs ds)

def compare : Component → Component → Ordering
  | name s, name t => compareText s t
  | a, b => Ord.compare a.rank b.rank

end Component

structure Path where
  text : Text
deriving DecidableEq, Repr

namespace Path

def ofString (s : String) : Path := ⟨s.toList⟩

def toString (p : Path) : String := String.ofList p.text

def segments (p : Path) : List Text := Text.splitOn '/' p.text

def isAbsolute (p : Path) : Bool := p.text.head? == some '/'

/-- The component of a part of a path behind its first component. -/
def innerComponent? : Text → Option Component
  | [] => none
  | ['.'] => none
  | ['.', '.'] => some .parent
  | t => some (.name t)

def components (p : Path) : List Component :=
  match p.segments with
  | [] => []
  | first :: rest =>
    let front := if p.isAbsolute then [Component.root]
      else if first == ['.'] then [.current] else (innerComponent? first).toList
    front ++ rest.filterMap innerComponent?

def compareComponents : List Component → List Component → Ordering
  | [], [] => .eq
  | [], _ :: _ => .lt
  | _ :: _, [] => .gt
  | a :: as, b :: bs => (a.compare b).then (compareComponents as bs)

def le (p q : Path) : Bool := (compareComponents p.components q.components).isLE

def same (p q : Path) : Bool := p.components == q.components

/-- A path read backwards without separators and dots at its end. -/
def trimTail : List Char → List Char
  | ['/'] => ['/']
  | '/' :: rest => trimTail rest
  | '.' :: '/' :: rest => trimTail ('/' :: rest)
  | t => t

/-- What stands before the last component of the path, separator included, and the component;
nothing when there is none but the root. -/
def splitLast? (p : Path) : Option (Text × Text) :=
  match trimTail p.text.reverse with
  | [] | ['/'] => none
  | t => some ((t.dropWhile (· != '/')).reverse, (t.takeWhile (· != '/')).reverse)

def parent? (p : Path) : Option Path :=
  p.splitLast?.map fun (before, _) => ⟨(trimTail before.reverse).reverse⟩

/-- The name that the path ends in. -/
def fileName? (p : Path) : Option Text := do
  let (_, last) ← p.splitLast?
  if last == ['.'] || last == ['.', '.'] then none else return last

/-- A file name without its extension, and the extension. The dot of a hidden file starts none. -/
def splitExtension (name : Text) : Text × Option Text :=
  let extension := (name.reverse.takeWhile (· != '.')).reverse
  match name.reverse.dropWhile (· != '.') with
  | [] | ['.'] => (name, none)
  | _ :: stem => (stem.reverse, some extension)

def extension? (p : Path) : Option Text := p.fileName?.bind fun name => (splitExtension name).2

/-- The path with the extension of its file name replaced; the same path without a file name. -/
def setExtension (p : Path) (extension : Text) : Path :=
  match p.fileName?, p.splitLast? with
  | some name, some (before, _) =>
    ⟨before ++ (splitExtension name).1 ++ ['.'] ++ extension⟩
  | _, _ => p

def withExtension (p : Path) (extension : Text) : Path :=
  match p.extension? with
  | none => p.setExtension extension
  | some old => (Path.mk (p.text.take (p.text.length - old.length))).setExtension extension

def join (p : Path) (name : Text) : Path :=
  if p.text.isEmpty then ⟨name⟩
  else if p.text.getLast? == some '/' then ⟨p.text ++ name⟩
  else ⟨p.text ++ ['/'] ++ name⟩

/-- Where the fixed text of a snapshot is written. -/
def fixedSource (snapshot : Path) : Path := snapshot.withExtension "bsl".toList

end Path

end BslLint
