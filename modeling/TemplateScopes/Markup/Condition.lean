import TemplateScopes.Markup.Tag

/-!
# Conditions

A condition tag is `<% if $Path … %>` or `<% if not $Path … %>` on one
line.  Its label is the leading path.  Whatever follows the path up to the
nearest ` %>` belongs to the tag, even if other tags begin in it.
-/

namespace TemplateScopes

/-- Whether a character can stand in the path of a condition. -/
def isPathChar (c : CodePoint) : Bool :=
  isNameChar c || c = '.'

namespace Condition

/-- A condition tag from its path on: the label, and how many characters
the tag still takes. -/
def path? (t : Text) : Option (Text × Nat) :=
  let label := t.takeWhile isPathChar
  if label.isEmpty then none
  else
    match Text.upTo? Markup.closer (Text.startsWith "\n") (t.drop label.length) with
    | some tail => some (label, label.length + tail.length + Markup.closer.length)
    | none => none

/-- A condition tag behind its keywords: the label, and how many
characters the tag still takes. -/
def body? : Text → Option (Text × Nat)
  | '$' :: t => (path? t).map fun found => (found.1, found.2 + 1)
  | t => path? t

/-- A condition tag that begins with the given keywords. -/
def after? (keywords t : Text) : Option (Text × Nat) :=
  match Text.after? keywords t with
  | some rest => (body? rest).map fun found => (found.1, keywords.length + found.2)
  | none => none

/-- Recognises a condition tag and gives its label.  The word `not` is the
label itself where no path follows it. -/
def here? : Text.Recogniser Text := fun t =>
  match after? "<% if not " t with
  | some found => some found
  | none => after? "<% if " t

/-- The labels of the condition tags of a text, in their order. -/
def labels (t : Text) : List Text :=
  (Text.findAll here? t).map Prod.snd

end Condition

end TemplateScopes
