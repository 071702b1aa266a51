import TemplateScopes.Scope.Block

/-!
# Cutting blocks out of a text

`cut` removes blocks from a text and keeps the pieces with their offsets
in the whole text.  `reinsert` puts pieces back, the one with the smallest
offset first, so that each offset is right when its turn comes.
-/

namespace TemplateScopes

/-- A piece of text with its offset in the whole. -/
abbrev Piece := Nat × Text

namespace Excision

/-- What is left of a text from the offset `position` on without the given
blocks, and the pieces. -/
def cutFrom (code : Text) (position : Nat) : List Block → Text × List Piece
  | [] => (code.drop position, [])
  | b :: rest =>
    let (residual, pieces) := cutFrom code b.stop rest
    (code.slice position b.start ++ residual, (b.start, b.outer) :: pieces)

/-- What is left of a text without the given blocks, and the pieces in the
order of their offsets. -/
def cut (code : Text) (blocks : List Block) : Text × List Piece :=
  cutFrom code 0 (blocks.mergeSort fun a b => decide (a.start ≤ b.start))

/-- Whether a piece goes in before another one. -/
def precedes (a b : Piece) : Bool :=
  a.1 < b.1 || (a.1 == b.1 && decide (a.2 ≤ b.2))

/-- The text with a piece put in at its offset. -/
def insertPiece (t : Text) (piece : Piece) : Text :=
  t.take piece.1 ++ piece.2 ++ t.drop piece.1

/-- The text with all pieces put back. -/
def reinsert (residual : Text) (pieces : List Piece) : Text :=
  (pieces.mergeSort precedes).foldl insertPiece residual

end Excision

end TemplateScopes
