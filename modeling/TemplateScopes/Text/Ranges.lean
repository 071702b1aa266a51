import TemplateScopes.Text.CodePoint

/-!
# Ranges of code points

A property of code points is a list of ranges of code points, both ends
included.
-/

namespace TemplateScopes.Text

/-- Ranges of code points with both their ends. -/
abbrev Ranges := List (Nat × Nat)

/-- Whether a code point lies in one of the ranges. -/
def Ranges.has (ranges : Ranges) (c : CodePoint) : Bool :=
  ranges.any fun range => range.1 ≤ c.toNat && c.toNat ≤ range.2

end TemplateScopes.Text
