import TemplateScopes.Lookup.Config
import TemplateScopes.Scope.Forest

/-!
# Faults and exit codes

A fault is what a failed run reports: a message and the exit code of its
kind.

* 0: the analysis was completed.
* 1: something unexpected happened.
* 2: the command line is wrong.
* 3: the tags of the template do not pair up.
* 4: a block stands directly in a block that is not addressable.
* 5: the configuration is wrong.
-/

namespace TemplateScopes

/-- What a failed run reports. -/
inductive Fault where
  /-- A fault of no particular kind. -/
  | general (message : Text) (exitCode : Int)
  /-- Tags do not pair up; the numbers of tags if they differ. -/
  | malformed (message : Text) (opens closes : Option Int)
  /-- A block has a parent that is not addressable. -/
  | unresolvedParent (block parent : Int) (parentName : Option Text)
  /-- A configuration is wrong. -/
  | config (message : Text)
deriving DecidableEq, Repr

namespace Fault

/-- The message where nothing more is known about the tags. -/
def mismatchMessage : Text :=
  "Template is malformed. Open loops and closed loops are mismatched."

/-- The words for a fault. -/
def message : Fault → Text
  | general message _ => message
  | malformed message _ _ => message
  | unresolvedParent block parent parentName =>
    let label : Text :=
      match parentName with
      | some (c :: name) => " (" ++ c :: name ++ ")"
      | _ => []
    "Block at offset " ++ Text.ofInt block ++ " is nested in block at offset " ++
      Text.ofInt parent ++ label ++ ", which is not addressable."
  | config message => message

/-- The exit code of a fault. -/
def exitCode : Fault → Int
  | general _ exitCode => exitCode
  | malformed .. => 3
  | unresolvedParent .. => 4
  | config .. => 5

/-- What an exit code means. -/
def describeExit? (exitCode : Int) : Option Text :=
  let descriptions : List (Int × Text) := [
    (0, "success"),
    (1, "unexpected error"),
    (2, "invalid usage (bad arguments or flags)"),
    (3, "template is malformed -- block delimiters are mismatched"),
    (4, "block parent could not be resolved"),
    (5, "invalid lookup configuration")]
  List.lookup exitCode descriptions

/-- The report of a fault of the tags. -/
def ofTagFault (fault : TagFault) : Fault :=
  match fault with
  | .unequalCounts opened closed => .malformed fault.message (some opened) (some closed)
  | _ => .malformed fault.message none none

/-- The report of a template without an outline. -/
def ofAnalysis : AnalysisFault → Fault
  | .malformed fault => ofTagFault fault
  | .unresolvedParent block parent name => .unresolvedParent block parent (some name)

/-- The report of a wrong configuration. -/
def ofConfig (fault : ConfigFault) : Fault :=
  .config fault.message

end Fault

end TemplateScopes
