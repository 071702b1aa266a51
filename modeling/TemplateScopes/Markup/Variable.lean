import TemplateScopes.Markup.Tag

/-!
# Variables

A variable is `$` with a path of names behind it, such as `$Title` or
`$Created.Nice`.  A dot belongs to the path only if a name follows it, and
arguments in brackets are never part of it.
-/

namespace TemplateScopes

namespace Variable

/-- The longest path of names at the beginning of a text, empty if no name
stands there. -/
def pathAt : Text → List Text
  | [] => []
  | c :: '.' :: rest =>
    if isNameChar c then [c] :: pathAt rest else []
  | c :: rest =>
    if isNameChar c then
      match pathAt rest with
      | [] => [[c]]
      | name :: more => (c :: name) :: more
    else []

/-- How many characters a path takes, with the dots between its names. -/
def pathLength (path : List Text) : Nat :=
  (Text.join "." path).length

/-- Recognises a variable and gives its path. -/
def here? : Text.Recogniser (List Text) := fun t =>
  match t with
  | '$' :: rest =>
    match pathAt rest with
    | [] => none
    | path => some (path, 1 + pathLength path)
  | _ => none

/-- The paths of the variables of a text, in their order. -/
def paths (t : Text) : List (List Text) :=
  (Text.findAll here? t).map Prod.snd

end Variable

end TemplateScopes
