import TemplateScopes.Graph.Basic
import TemplateScopes.Text.Blank

/-!
# Drawing block graphs

* `BlockGraph.outline` lists the blocks below the root, each level
  indented by two more spaces.
* `BlockGraph.flowchart` draws the graph as a Mermaid flowchart.  Loops
  are subroutine boxes, with blocks rounded boxes and everything else
  plain boxes.  Nodes and edges come in the order of their offsets, the
  root first.
-/

namespace TemplateScopes

/-- The word for a kind where space is short. -/
def Kind.abbrev : Kind → Text
  | root => "top"
  | kind => kind.toText

namespace Flowchart

/-- The brackets around the label of a node. -/
def brackets : Kind → Text × Text
  | .loop => ("[[", "]]")
  | .within => ("(", ")")
  | _ => ("[", "]")

/-- The label of the root node. -/
def rootLabel : Text := "root"

/-- How a node is called where it stands for `label`. -/
def nodeId (label : Text) : Text :=
  if label = rootLabel then rootLabel else 'b' :: label

/-- The number of variables in words. -/
def countSuffix : Option Int → Text
  | none => []
  | some n => " (" ++ Text.ofInt n ++ " var" ++ ((if n = 1 then [] else ['s']) : Text) ++ ")"

/-- A text without double quotes. -/
def withoutQuotes (t : Text) : Text :=
  t.map fun c : CodePoint => if c = '"' then .char '\'' else c

/-- What is written inside a node. -/
def blockLabel (kind : Kind) (name : Text) (count : Option Int) : Text :=
  withoutQuotes (Text.trimRight (kind.abbrev ++ " " ++ name) ++ countSuffix count)

/-- The line that declares a node. -/
def nodeLine (label : Text) (kind : Kind) (name : Text) (count : Option Int) : Text :=
  "    " ++ nodeId label ++ (brackets kind).1 ++ "\"" ++ blockLabel kind name count ++ "\"" ++
    (brackets kind).2

/-- The line that draws an edge. -/
def edgeLine (parent child : Text) : Text :=
  "    " ++ nodeId parent ++ " --> " ++ nodeId child

end Flowchart

namespace BlockGraph

/-- What a node is called. -/
def label : Node → Text
  | .root => Flowchart.rootLabel
  | .block id => Text.ofNat id

/-- The nodes in the order in which they are drawn: the root, then by
where they start. -/
def drawingOrder (g : BlockGraph) : List (Node × NodeInfo) :=
  g.nodes.filter (fun entry => entry.1 = .root) ++
    sortByStart (g.nodes.filter fun entry => entry.1 ≠ .root)

/-- The graph as a flowchart, with the number of variables of some of its
nodes. -/
def flowchart (g : BlockGraph) (counts : List (Node × Int)) (direction : Text) : Text :=
  let order := g.drawingOrder
  let nodes := order.map fun entry =>
    Flowchart.nodeLine (label entry.1) entry.2.kind entry.2.name (List.lookup entry.1 counts)
  let edges := order.flatMap fun entry =>
    (g.childrenByStart entry.1).map fun child => Flowchart.edgeLine (label entry.1) (label child.1)
  Text.join "\n" (("flowchart " ++ direction) :: nodes ++ edges)

/-- The direction of a flowchart from the top down. -/
def topDown : Text := "TD"

/-- One line of the outline. -/
def outlineLine (level : Nat) (n : Node) (info : NodeInfo) : Text :=
  Text.spaces (2 * level) ++ info.kind.abbrev ++ " " ++ info.name ++ "  @" ++ label n

/-- The lines below a node, with the given number of levels. -/
def outlineFrom (g : BlockGraph) : Nat → Nat → Node → List Text
  | 0, _, _ => []
  | levels + 1, level, n =>
    (g.childrenByStart n).flatMap fun child =>
      outlineLine level child.1 child.2 :: g.outlineFrom levels (level + 1) child.1

/-- The lines of all blocks below the root. -/
def outline (g : BlockGraph) : List Text :=
  g.outlineFrom g.nodes.length 0 .root

end BlockGraph

end TemplateScopes
