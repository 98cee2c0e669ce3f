import BslLint.Outline.Item

/-!
Described programs: expressions, statements and items in document order, and the module that they
make up over a text.
-/

namespace BslLint

inductive PieceOutline where
  | expression (e : ExpressionOutline)
  | statement (s : StatementOutline)
  | item (i : ItemOutline)

inductive Piece where
  | expression (e : Expression)
  | statement (s : Statement)
  | item (i : Item)

namespace Piece

def statement? : Piece → Option Statement
  | .statement s => some s
  | _ => none

def item? : Piece → Option Item
  | .item i => some i
  | _ => none

end Piece

namespace PieceOutline

def place (source : Text) : PieceOutline → Nat → Checked (Piece × Nat)
  | .expression e, cursor => do
    let (e, cursor) ← e.place source cursor
    return (.expression e, cursor)
  | .statement s, cursor => do
    let (s, cursor) ← s.place source cursor
    return (.statement s, cursor)
  | .item i, cursor => do
    let (i, cursor) ← i.place source cursor
    return (.item i, cursor)

def placeAll (source : Text) : List PieceOutline → Nat → Checked (List (Piece × Nat))
  | [], _ => return []
  | p :: ps, cursor => do
    let placed ← p.place source cursor
    return placed :: (← placeAll source ps placed.2)

end PieceOutline

namespace Module

/-- The module of the given pieces, compiled for every environment. Expressions on their own are no
part of it. -/
def ofPieces (name source : Text) (pieces : List Piece) : Module :=
  { name, source, items := pieces.filterMap Piece.item?,
    statements := pieces.filterMap Piece.statement? }

end Module

end BslLint
