import TemplateScopes.Scope.Usage
import TemplateScopes.Text.Quoted

/-!
# Blocks

A block is a stretch of a text, with an opening tag at its beginning and
room for a closing tag at its end.

* `outer`, `inner` and `own` are its contents: with its tags, without
  them, and with the blocks inside it masked as well.  A mask keeps the
  length, and normalised text never holds the mask.
* `Scope` is a block at its place among others: its identifier is the
  offset where it starts, and it names its parent and its children by
  their identifiers.
-/

namespace TemplateScopes

/-- A stretch of a text between two tags. -/
structure Block where
  /-- The text that the block is a part of. -/
  source : Text
  start : Nat
  stop : Nat
  kind : Kind
  name : Text
  /-- The opening tag. -/
  opening : Text
  /-- How many characters the closing tag takes. -/
  closingLength : Nat
deriving DecidableEq, Repr

namespace Block

/-! ## Contents -/

/-- The character that masks the blocks inside a block. -/
def maskChar : CodePoint := '\n'

/-- Where the contents start, behind the opening tag. -/
def innerStart (b : Block) : Nat :=
  b.start + b.opening.length

/-- Where the contents stop, before the closing tag. -/
def innerStop (b : Block) : Nat :=
  b.stop - b.closingLength

/-- The text of the block with its tags. -/
def outer (b : Block) : Text :=
  b.source.slice b.start b.stop

/-- The text of the block between its tags. -/
def inner (b : Block) : Text :=
  b.source.slice b.innerStart b.innerStop

/-- Masks a stretch of a text whose first character stands at the offset
`origin`. -/
def mask (origin : Nat) (t : Text) (child : Block) : Text :=
  t.take (child.start - origin) ++ List.replicate (child.stop - child.start) maskChar ++
    t.drop (child.stop - origin)

/-- The text of the block between its tags with its children masked.  The
text of a root has no children in it. -/
def own (b : Block) (children : List Block) : Text :=
  if b.kind = .root then b.inner else children.foldl (mask b.innerStart) b.inner

/-! ## Usage -/

/-- Whether one of the blocks has the given name. -/
def anyNamed (blocks : List Block) (name : Text) : Bool :=
  blocks.any fun b => b.name = name

/-- The first of the blocks that has the given name. -/
def named? (blocks : List Block) (name : Text) : Option Block :=
  blocks.find? fun b => b.name = name

/-- The variables of a block with the given own text and conditions. -/
def variableTypes (b : Block) (ctx : Context) (children : List Block)
    (conditions : List Text) (own : Text) : OrderedMap Text :=
  Usage.variableTypes ctx b.kind (anyNamed children) conditions own

/-! ## Description -/

/-- The block in words: its kind, its name in quotes and where it
starts. -/
def describe (b : Block) : Text :=
  "Block(" ++ b.kind.toText ++ " " ++ b.name.quoted ++ " @" ++ Text.ofNat b.start ++ ")"

/-- How far the block starts behind its parent. -/
def relativeOffset (b : Block) (parent : Option Nat) : Int :=
  match parent with
  | some start => (b.start : Int) - start
  | none => b.start

end Block

/-- A block at its place among others. -/
structure Scope extends Block where
  parent : Option Nat
  children : List Nat
deriving DecidableEq, Repr

/-- The identifier of a scope: where it starts. -/
def Scope.id (s : Scope) : Nat :=
  s.start

end TemplateScopes
