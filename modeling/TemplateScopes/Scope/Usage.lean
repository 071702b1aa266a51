import TemplateScopes.Lookup.Context
import TemplateScopes.Markup.Condition
import TemplateScopes.Markup.Variable
import TemplateScopes.Scope.Kind

/-!
# What a scope uses

The names that the text of one scope uses, each with its likely type.

* `conditionNames` lists the names that stand as conditions and are data.
* `variableTypes` maps every variable to a type.  A dotted variable tells
  the type by its method, or by the name of a known class, or else counts
  as a relation.  A plain variable has the type that its name suggests.
  A name whose plain uses are all conditions is a flag.
-/

namespace TemplateScopes.Usage

/-! ## Conditions -/

/-- Whether the label of a condition is data: no accessor, no method of
lists and no name of a block. -/
def isConditionName (ctx : Context) (isBlockName : Text → Bool) (label : Text) : Bool :=
  !ctx.isGlobalAccessor label && !ctx.isCollectionMethod label && !isBlockName label

/-- The names that the text uses as conditions, each where it first
stands. -/
def conditionNames (ctx : Context) (isBlockName : Text → Bool) (text : Text) : List Text :=
  ((Condition.labels text).filter (isConditionName ctx isBlockName)).eraseDups

/-! ## Variables -/

/-- The types found so far, and how many plain uses of each name are not
yet accounted for. -/
structure Found where
  types : OrderedMap Text
  uses : OrderedMap Int

/-- Nothing found. -/
def Found.none : Found := ⟨[], []⟩

/-- The type of a name that has a member. -/
def relationType (ctx : Context) (relation member : Text) : Text :=
  match ctx.fieldType? member with
  | some type => type
  | none => if ctx.isKnownType relation then relation else ctx.relationType

/-- Whether a plain name belongs to the framework: in a loop the methods
of lists, elsewhere the accessors. -/
def isFrameworkName (ctx : Context) (kind : Kind) (label : Text) : Bool :=
  if kind = .loop then ctx.isCollectionMethod label else ctx.isGlobalAccessor label

/-- Takes in one more variable. -/
def note (ctx : Context) (kind : Kind) (hasChild : Text → Bool) (found : Found) :
    List Text → Found
  | [] => found
  | [label] =>
    let uses := found.uses.insert label ((found.uses.get? label).getD 0 + 1)
    if found.types.has label || hasChild label || isFrameworkName ctx kind label then
      { found with uses }
    else
      ⟨found.types.insert label (ctx.infer label), uses⟩
  | relation :: member :: _ =>
    if ctx.isGlobalAccessor relation then found
    else { found with types := found.types.insert relation (relationType ctx relation member) }

/-- Takes one plain use of a name as its use in a condition.  When no
other use is left, the name is a flag. -/
def flag (ctx : Context) (found : Found) (name : Text) : Found :=
  match found.uses.get? name with
  | Option.none => found
  | some n =>
    let uses := found.uses.insert name (n - 1)
    if n - 1 = 0 then ⟨found.types.insert name ctx.booleanType, uses⟩
    else { found with uses }

/-- What the variables of a text say before conditions are looked at. -/
def scanVariables (ctx : Context) (kind : Kind) (hasChild : Text → Bool) (text : Text) : Found :=
  (Variable.paths text).foldl (note ctx kind hasChild) Found.none

/-- The variables of a text with their types, given the names that it uses
as conditions. -/
def variableTypes (ctx : Context) (kind : Kind) (hasChild : Text → Bool)
    (conditions : List Text) (text : Text) : OrderedMap Text :=
  (conditions.foldl (flag ctx) (scanVariables ctx kind hasChild text)).types

end TemplateScopes.Usage
