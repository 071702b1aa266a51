import TemplateScopes.Scope.Excision
import TemplateScopes.Scope.Forest

/-!
# Outlines

The outline of a template is the result of its analysis: the forest of its
blocks, and a root scope over the text that is left when the top-level
blocks are cut out.  The root lists these blocks as its children, so that
a name of one of them counts as the block there and not as a variable.
-/

namespace TemplateScopes

/-- The analysis of one template in one context. -/
structure Outline where
  /-- The normalised text. -/
  code : Text
  context : Context
  /-- How many opening tags the text has. -/
  openCount : Nat
  forest : Forest

namespace Outline

/-- The outline of a template. -/
def ofText (t : Text) (ctx : Context) : Except AnalysisFault Outline :=
  let code := normalize t
  match Forest.ofText code ctx with
  | .error fault => .error fault
  | .ok forest => .ok ⟨code, ctx, (Markup.openTags code).length, forest⟩

/-! ## Scopes -/

/-- All addressable blocks in the order of their offsets. -/
def scopes (o : Outline) : List Scope :=
  o.forest.scopes

/-- The blocks that stand in no other block. -/
def topLevel (o : Outline) : List Scope :=
  o.forest.topLevel

/-- The blocks of one kind. -/
def ofKind (o : Outline) (kind : Kind) : List Scope :=
  o.scopes.filter fun s => s.kind = kind

/-- The block that starts at the given offset. -/
def byId? (o : Outline) (id : Nat) : Option Scope :=
  o.forest.scope? id

/-- The first block with the given name. -/
def byName? (o : Outline) (name : Text) : Option Scope :=
  o.scopes.find? fun s => s.name = name

/-- Whether a block has the given name. -/
def hasName (o : Outline) (name : Text) : Bool :=
  o.forest.hasName name

/-- The first block of the given name directly inside a scope. -/
def childNamed? (o : Outline) (s : Scope) (name : Text) : Option Scope :=
  (o.forest.kids s).find? fun child => child.name = name

/-! ## The root -/

/-- The text outside the top-level blocks, and these blocks as pieces. -/
def cut (o : Outline) : Text × List Piece :=
  Excision.cut o.code (o.topLevel.map Scope.toBlock)

/-- The text outside the top-level blocks. -/
def residual (o : Outline) : Text :=
  o.cut.1

/-- The top-level blocks with their offsets. -/
def pieces (o : Outline) : List Piece :=
  o.cut.2

/-- The root scope over a text with the given children. -/
def rootOver (residual : Text) (children : List Nat) : Scope where
  source := residual
  start := 0
  stop := residual.length
  kind := .root
  name := "Root"
  opening := []
  closingLength := 0
  parent := none
  children := children

/-- The scope of everything outside the top-level blocks. -/
def root (o : Outline) : Scope :=
  rootOver o.residual (o.topLevel.map Scope.id)

/-- The normalised text, put together again from the root and the
pieces. -/
def reassemble (o : Outline) : Text :=
  Excision.reinsert (o.forest.own o.root) o.pieces

/-! ## Analysis -/

/-- The text that belongs to a scope alone. -/
def own (o : Outline) (s : Scope) : Text :=
  o.forest.own s

/-- The names that a scope uses as conditions. -/
def conditions (o : Outline) (s : Scope) : List Text :=
  o.forest.conditions o.context o.hasName s

/-- The variables of a scope with their types. -/
def varTypes (o : Outline) (s : Scope) : OrderedMap Text :=
  o.forest.varTypes o.context o.hasName s

/-- The summaries of the top-level blocks. -/
def summaries (o : Outline) : List Summary :=
  o.forest.summaries o.context o.hasName

end Outline

end TemplateScopes
