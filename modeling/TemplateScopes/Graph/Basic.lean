import TemplateScopes.Scope.Outline

/-!
# Block graphs

The graph of an outline has a node for the root and for every block, and
an edge from each parent to each child.  Nodes and edges keep the order in
which they came.

* `BlockGraph.ofOutline` is the graph of an outline, and `addEdge`,
  `removeEdge`, `removeNode` and `setInfo` change a graph.
* `isProperTree` asks for one edge less than nodes, for a connected graph
  and for no node with two edges into it.
* `depths` gives the distance of every node from the root.
* `spansNested` asks whether the spans of children lie inside the spans of
  their parents and apart from each other.
-/

namespace TemplateScopes

/-- A node of a block graph. -/
inductive Node where
  | root
  | block (id : Nat)
deriving DecidableEq, Repr

/-- What a node stands for. -/
structure NodeInfo where
  name : Text
  kind : Kind
  start : Int
  stop : Int
deriving DecidableEq, Repr

/-- A directed graph of blocks. -/
structure BlockGraph where
  nodes : List (Node × NodeInfo)
  edges : List (Node × Node)
deriving DecidableEq, Repr

namespace BlockGraph

/-! ## Nodes and edges -/

/-- The nodes without what they stand for. -/
def names (g : BlockGraph) : List Node :=
  g.nodes.map Prod.fst

/-- What a node stands for. -/
def info? (g : BlockGraph) (n : Node) : Option NodeInfo :=
  List.lookup n g.nodes

/-- The nodes that an edge leads to from a node, in the order of the
edges. -/
def successors (g : BlockGraph) (n : Node) : List Node :=
  (g.edges.filter fun e => e.1 = n).map Prod.snd

/-- The nodes that an edge joins to a node in either direction. -/
def neighbours (g : BlockGraph) (n : Node) : List Node :=
  g.successors n ++ (g.edges.filter fun e => e.2 = n).map Prod.fst

/-- How many edges lead to a node. -/
def inDegree (g : BlockGraph) (n : Node) : Nat :=
  (g.edges.filter fun e => e.2 = n).length

/-- The graph with an edge between two of its nodes.  An edge that is
there already stays where it is. -/
def addEdge (g : BlockGraph) (a b : Node) : BlockGraph :=
  if (a, b) ∈ g.edges ∨ a ∉ g.names ∨ b ∉ g.names then g
  else { g with edges := g.edges ++ [(a, b)] }

/-- The graph without an edge. -/
def removeEdge (g : BlockGraph) (a b : Node) : BlockGraph :=
  { g with edges := g.edges.filter fun e => e ≠ (a, b) }

/-- The graph without a node and its edges. -/
def removeNode (g : BlockGraph) (n : Node) : BlockGraph where
  nodes := g.nodes.filter fun entry => entry.1 ≠ n
  edges := g.edges.filter fun e => e.1 ≠ n ∧ e.2 ≠ n

/-- The graph with a change of what a node stands for. -/
def setInfo (g : BlockGraph) (n : Node) (change : NodeInfo → NodeInfo) : BlockGraph :=
  { g with
    nodes := g.nodes.map fun entry =>
      if entry.1 = n then (entry.1, change entry.2) else entry }

/-! ## Graphs of outlines -/

/-- The node of a scope that is a block. -/
def nodeOf (s : Scope) : Node × NodeInfo :=
  (.block s.id, ⟨s.name, s.kind, s.start, s.stop⟩)

/-- The node of the parent of a block. -/
def parentNode (s : Scope) : Node :=
  match s.parent with
  | some id => .block id
  | none => .root

/-- The graph of an outline. -/
def ofOutline (o : Outline) : BlockGraph where
  nodes := (.root, ⟨o.root.name, o.root.kind, 0, o.code.length⟩) :: o.scopes.map nodeOf
  edges := o.scopes.map fun s => (parentNode s, .block s.id)

/-! ## Distances -/

/-- The nodes at each distance from the nodes `here`, found among the
`remaining` ones in the given number of rounds. -/
def layersFrom (next : Node → List Node) :
    Nat → List Node → List Node → List (List Node)
  | 0, here, _ => [here]
  | rounds + 1, here, remaining =>
    let there := remaining.filter fun n => here.any fun m => n ∈ next m
    here :: layersFrom next rounds there (remaining.filter fun n => n ∉ there)

/-- The nodes at each distance from a node.  No distance is larger than
the number of nodes. -/
def layers (g : BlockGraph) (next : Node → List Node) (n : Node) : List (List Node) :=
  layersFrom next g.nodes.length [n] (g.names.filter fun m => m ≠ n)

/-- The distance of every node that can be reached from the root, without
the root itself. -/
def depths (g : BlockGraph) : List (Node × Nat) :=
  ((g.layers g.successors .root).zipIdx.drop 1).flatMap fun layer =>
    layer.1.map fun n => (n, layer.2)

/-! ## Checks -/

/-- Whether every two nodes are joined by edges in whatever direction. -/
def isConnected (g : BlockGraph) : Bool :=
  match g.names with
  | [] => false
  | n :: rest =>
    let reached := (g.layers g.neighbours n).flatten
    rest.all reached.contains

/-- Whether the graph is a tree whose edges lead away from one node. -/
def isProperTree (g : BlockGraph) : Bool :=
  g.edges.length + 1 == g.nodes.length && g.isConnected &&
    g.names.all fun n => g.inDegree n ≤ 1

/-- Nodes by where they start. -/
def sortByStart (nodes : List (Node × NodeInfo)) : List (Node × NodeInfo) :=
  nodes.mergeSort fun a b => decide (a.2.start ≤ b.2.start)

/-- The children of a node by where they start. -/
def childrenByStart (g : BlockGraph) (n : Node) : List (Node × NodeInfo) :=
  sortByStart ((g.successors n).filterMap fun m => (g.info? m).map fun info => (m, info))

/-- Whether spans follow each other without overlap, the first one not
before the given offset. -/
def apartFrom (previous : Option Int) : List NodeInfo → Bool
  | [] => true
  | info :: rest =>
    (match previous with
      | some stop => stop ≤ info.start
      | none => true) && apartFrom (some info.stop) rest

/-- Whether the span of a child lies strictly inside that of its
parent. -/
def strictlyInside (parent child : NodeInfo) : Bool :=
  parent.start < child.start && child.stop < parent.stop

/-- Whether the children of a node lie inside it and apart from each
other.  The root has to start no later than its children. -/
def childrenNested (g : BlockGraph) (n : Node) (info : NodeInfo) : Bool :=
  let children := (g.childrenByStart n).map Prod.snd
  if n = .root then apartFrom (some info.start) children
  else children.all (strictlyInside info) && apartFrom none children

/-- Whether all spans are nested as the edges say. -/
def spansNested (g : BlockGraph) : Bool :=
  g.nodes.all fun entry => g.childrenNested entry.1 entry.2

end BlockGraph

end TemplateScopes
