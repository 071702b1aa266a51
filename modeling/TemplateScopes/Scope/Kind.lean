import TemplateScopes.Markup.Tag

/-!
# Kinds of scope

A scope is the body of a loop, the body of a with block or the root of a
template.  A caller may label a scope in its own words.
-/

namespace TemplateScopes

/-- What kind of scope a part of a template is. -/
inductive Kind where
  | loop
  | within
  | root
  | other (label : Text)
deriving DecidableEq, Repr

namespace Kind

/-- The kind of the block that a keyword opens. -/
def ofKeyword : Keyword → Kind
  | .loop => loop
  | .within => within

/-- The word for a kind. -/
def toText : Kind → Text
  | loop => Keyword.loop.toText
  | within => Keyword.within.toText
  | root => "root"
  | other label => label

/-- The kind that a word stands for. -/
def ofText (label : Text) : Kind :=
  if label = loop.toText then loop
  else if label = within.toText then within
  else if label = root.toText then root
  else other label

end Kind

end TemplateScopes
