import TemplateScopes.Scope.Block
import TemplateScopes.Markup.Span

/-!
# Forests of scopes

The spans of a text become scopes that know their parents and children.
A block that is named after a global accessor is left out, and its text
stays with the scope around it.  A block directly inside such a block has
no parent to belong to, which is a fault.

* `Forest.ofSpans` builds the forest of a text.
* `Forest.own`, `conditions` and `variables` analyse one scope.
* `Summary` is a scope with all that was found out about it and about the
  scopes inside it.
-/

namespace TemplateScopes

/-- Why a template has no outline. -/
inductive AnalysisFault where
  /-- Its tags do not pair up. -/
  | malformed (fault : TagFault)
  /-- A block stands directly in a block that was left out. -/
  | unresolvedParent (block parent : Nat) (parentName : Text)
deriving DecidableEq, Repr

/-- The scopes of a text in the order of their offsets, and the spans of
the blocks that are left out. -/
structure Forest where
  scopes : List Scope
  excluded : List Span

namespace Forest

/-! ## Building -/

/-- No scope yet. -/
def empty : Forest := ⟨[], []⟩

/-- The scope with the given identifier. -/
def scope? (f : Forest) (id : Nat) : Option Scope :=
  f.scopes.find? fun s => s.start = id

/-- The block that a span of the text stands for. -/
def blockOf (code : Text) (s : Span) : Block where
  source := code
  start := s.start
  stop := s.stop
  kind := Kind.ofKeyword s.opener.keyword
  name := s.opener.name
  opening := s.opener.raw
  closingLength := Closing.length

/-- Adds a child to the scope `parent`, unless it is among the children
already. -/
def adopt (parent child : Nat) (scopes : List Scope) : List Scope :=
  scopes.map fun s =>
    if s.start = parent ∧ child ∉ s.children then { s with children := s.children ++ [child] }
    else s

/-- The name of the block whose span starts at the given offset. -/
def nameAt (spans : List Span) (start : Nat) : Text :=
  match spans.find? fun s => s.start = start with
  | some s => s.opener.name
  | none => []

/-- Takes in the next one of the spans of a text. -/
def add (code : Text) (ctx : Context) (spans : List Span) (f : Forest) (s : Span) :
    Except AnalysisFault Forest :=
  if ctx.isGlobalAccessor s.opener.name then
    .ok { f with excluded := f.excluded ++ [s] }
  else
    let scope : Scope := { blockOf code s with parent := s.parent, children := [] }
    match s.parent with
    | none => .ok { f with scopes := f.scopes ++ [scope] }
    | some parent =>
      match f.scope? parent with
      | some _ => .ok { f with scopes := adopt parent s.start f.scopes ++ [scope] }
      | none => .error (.unresolvedParent s.start parent (nameAt spans parent))

/-- Takes in spans of a text one after the other. -/
def addAll (code : Text) (ctx : Context) (spans : List Span) (f : Forest) :
    List Span → Except AnalysisFault Forest
  | [] => .ok f
  | s :: rest =>
    match f.add code ctx spans s with
    | .ok next => next.addAll code ctx spans rest
    | .error fault => .error fault

/-- The forest of the spans of a text. -/
def ofSpans (code : Text) (ctx : Context) (spans : List Span) : Except AnalysisFault Forest :=
  empty.addAll code ctx spans spans

/-- The forest of a text. -/
def ofText (code : Text) (ctx : Context) : Except AnalysisFault Forest :=
  match scanTags code with
  | .error fault => .error (.malformed fault)
  | .ok (opens, closes) =>
    match pairTags opens closes with
    | .error fault => .error (.malformed fault)
    | .ok spans => ofSpans code ctx spans

/-! ## Questions -/

/-- The scopes that no scope holds. -/
def topLevel (f : Forest) : List Scope :=
  f.scopes.filter fun s => s.parent.isNone

/-- The scopes with the given identifiers. -/
def named (f : Forest) (ids : List Nat) : List Scope :=
  ids.filterMap f.scope?

/-- The scopes that a scope holds directly. -/
def kids (f : Forest) (s : Scope) : List Scope :=
  f.named s.children

/-- The blocks that a scope holds directly. -/
def kidBlocks (f : Forest) (s : Scope) : List Block :=
  (f.kids s).map Scope.toBlock

/-- Whether a scope has the given name. -/
def hasName (f : Forest) (name : Text) : Bool :=
  f.scopes.any fun s => s.name = name

/-! ## Analysis -/

/-- The text that belongs to a scope alone. -/
def own (f : Forest) (s : Scope) : Text :=
  s.toBlock.own (f.kidBlocks s)

/-- The names that a scope uses as conditions. -/
def conditions (f : Forest) (ctx : Context) (isBlockName : Text → Bool) (s : Scope) :
    List Text :=
  Usage.conditionNames ctx isBlockName (f.own s)

/-- The variables of a scope with their types. -/
def varTypes (f : Forest) (ctx : Context) (isBlockName : Text → Bool) (s : Scope) :
    OrderedMap Text :=
  s.toBlock.variableTypes ctx (f.kidBlocks s) (f.conditions ctx isBlockName s) (f.own s)

end Forest

/-! ## Summaries -/

/-- What was found out about one scope. -/
structure Facts where
  id : Nat
  name : Text
  kind : Kind
  parent : Option Nat
  varTypes : OrderedMap Text
  conditions : List Text
deriving DecidableEq, Repr

/-- What was found out about a scope and the scopes inside it. -/
inductive Summary where
  | mk (facts : Facts) (children : List Summary)

namespace Summary

/-- What was found out about the scope itself. -/
def facts : Summary → Facts
  | mk facts _ => facts

/-- The scopes directly inside it. -/
def children : Summary → List Summary
  | mk _ children => children

mutual

/-- How many levels a scope goes down with the scopes inside it. -/
def levels : Summary → Nat
  | mk _ children => levelsAll children + 1

/-- How many levels the deepest of some scopes goes down. -/
def levelsAll : List Summary → Nat
  | [] => 0
  | s :: rest => max s.levels (levelsAll rest)

end

end Summary

namespace Forest

/-- What was found out about one scope. -/
def facts (f : Forest) (ctx : Context) (isBlockName : Text → Bool) (s : Scope) : Facts where
  id := s.id
  name := s.name
  kind := s.kind
  parent := s.parent
  varTypes := f.varTypes ctx isBlockName s
  conditions := f.conditions ctx isBlockName s

/-- The summary of a scope, with the given number of levels below it. -/
def summary (f : Forest) (ctx : Context) (isBlockName : Text → Bool) :
    Nat → Scope → Summary
  | 0, s => ⟨f.facts ctx isBlockName s, []⟩
  | levels + 1, s =>
    ⟨f.facts ctx isBlockName s, (f.kids s).map (f.summary ctx isBlockName levels)⟩

/-- The summaries of the scopes that no scope holds.  No chain of scopes
is longer than their number. -/
def summaries (f : Forest) (ctx : Context) (isBlockName : Text → Bool) : List Summary :=
  f.topLevel.map (f.summary ctx isBlockName f.scopes.length)

end Forest

end TemplateScopes
