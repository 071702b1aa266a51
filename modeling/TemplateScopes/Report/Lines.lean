import TemplateScopes.Graph.Drawing

/-!
# Lines of reports

* `section` is a title with lines below it, and `indent` shifts the lines
  of a text to the right.
* `shown` cuts a list to a budget and tells how many entries are left out.
  A budget of zero means none, and a negative budget leaves out as many
  entries at the end.
* `variableLines` lists the variables of a scope, and `listing` the scopes
  inside a scope.
-/

namespace TemplateScopes.Report

/-! ## Budgets -/

/-- The beginning of a list that a budget allows. -/
def within {α : Type} (budget : Int) (entries : List α) : List α :=
  if 0 ≤ budget then entries.take budget.toNat
  else entries.take (entries.length - budget.natAbs)

/-- The entries that a budget allows, and how many more there are if it
does not allow all. -/
def shown {α : Type} (budget : Int) (entries : List α) : List α × Option Int :=
  if budget ≠ 0 ∧ (entries.length : Int) > budget then
    (within budget entries, some (entries.length - budget))
  else (entries, none)

/-- The words for entries that are left out. -/
def moreLine (n : Int) : Text :=
  "(+" ++ Text.ofInt n ++ " more)"

/-! ## Sections -/

/-- A title with lines below it. -/
def titled (title : Text) (lines : List Text) (budget : Int) : Text :=
  let (lines, more) := shown budget lines
  let tail : List Text :=
    match more with
    | some n => ["  " ++ moreLine n]
    | none => []
  Text.join "\n" (title :: lines ++ tail)

/-- The lines of a text, each shifted to the right by as many levels. -/
def indent (t : Text) (level : Int) : Text :=
  Text.join "\n" ((Text.lines t).map fun line => Text.spaces (2 * level.toNat) ++ line)

/-! ## Variables -/

/-- The longest length of the texts. -/
def maxLength (ts : List Text) : Nat :=
  ts.foldl (fun n t => max n t.length) 0

/-- One line per variable, and one line for the conditions that are no
variables. -/
def variableLines (varTypes : OrderedMap Text) (conditions : List Text) : List Text :=
  if varTypes.isEmpty && conditions.isEmpty then ["  (none)"]
  else
    let width := maxLength (OrderedMap.keys varTypes)
    let lines := varTypes.map fun entry =>
      "  $" ++ Text.padRight width entry.1 ++ "  " ++ entry.2
    let others := conditions.filter fun name => !OrderedMap.has varTypes name
    if others.isEmpty then lines else lines ++ ["  if: " ++ Text.join ", " others]

/-! ## Scopes -/

/-- The line that introduces a scope. -/
def headerLine (facts : Facts) : Text :=
  facts.kind.abbrev ++ " " ++ facts.name ++ "  @" ++ Text.ofNat facts.id

/-- The lines of a scope itself. -/
def ownLines (facts : Facts) : List Text :=
  headerLine facts :: variableLines facts.varTypes facts.conditions

mutual

/-- A scope with everything inside it, each level shifted to the right. -/
def listing : Summary → Text
  | ⟨facts, children⟩ => Text.join "\n" (ownLines facts ++ childListings children)

/-- The scopes inside a scope, each shifted to the right by one level. -/
def childListings : List Summary → List Text
  | [] => []
  | child :: rest => indent (listing child) 1 :: childListings rest

end

end TemplateScopes.Report
