import TemplateScopes.Text.Basic

/-!
# Searching a text

A recogniser looks at what is left of a text and says whether its pattern
starts right there, what it found and how many characters that took.
`findAll` runs a recogniser over a whole text and lists the leftmost
matches that do not overlap, each with its offset.
-/

namespace TemplateScopes.Text

/-- What a pattern that starts right here gives, with its length. -/
abbrev Recogniser (α : Type) := Text → Option (α × Nat)

/-- The matches in a text that starts at `offset`, of which the first
`skip` characters belong to the match before. -/
def findFrom {α : Type} (here? : Recogniser α) (offset skip : Nat) :
    Text → List (Nat × α)
  | [] => []
  | c :: t =>
    match skip with
    | skip + 1 => findFrom here? (offset + 1) skip t
    | 0 =>
      match here? (c :: t) with
      | some (found, length) =>
        (offset, found) :: findFrom here? (offset + 1) (length - 1) t
      | none => findFrom here? (offset + 1) 0 t

/-- The leftmost matches of a pattern that do not overlap, with their
offsets. -/
def findAll {α : Type} (here? : Recogniser α) (t : Text) : List (Nat × α) :=
  findFrom here? 0 0 t

/-- The shortest beginning that `closer` follows.  The beginning must not
reach a place where `barrier` holds. -/
def upTo? (closer : Text) (barrier : Text → Bool) : Text → Option Text
  | [] => if closer.isEmpty then some [] else none
  | c :: t =>
    if startsWith closer (c :: t) then some []
    else if barrier (c :: t) then none
    else (upTo? closer barrier t).map (c :: ·)

end TemplateScopes.Text
