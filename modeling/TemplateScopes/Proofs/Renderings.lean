import TemplateScopes.Command.Run
import TemplateScopes.Proofs.Indentation
import TemplateScopes.Proofs.Tree

/-!
# One order of blocks

Blocks are listed in four ways: as they come in the text, as an outline that
goes down the edges of the graph, as summaries inside summaries, and as the
nodes of a flowchart, which are sorted.  All of them list the same blocks in
the same order.

There are three groups.

* Blocks below a node.  `BlockGraph.below` goes down from a node to its
  children and on, and `Sweeps` says that a list has the blocks below a node
  by where they start.  `sweeps_below` says that the first is the second.
* Renderings.  The outline, the summaries and the flowchart list the blocks
  in the order of `below`.  `Unfolded` is the outline without a bound on its
  levels, and `withDepth_summaries` says how deep the summaries go.
* The agreement.  `ofText_renderings_agree` is the main result.
-/

namespace TemplateScopes

open Outline (outlineOf)

namespace BlockGraph

/-! ## Blocks below a node -/

section Below

variable {code : Text} {ctx : Context} {spans l l' : List Span} {s k : Span} {n : Node}

/-- The blocks below a node, each in front of those below it, with the given
number of levels. -/
def below (code : Text) (ctx : Context) (spans : List Span) : Nat → Node → List Span
  | 0, _ => []
  | levels + 1, n =>
    (kidsOf code ctx spans n).flatMap fun s => s :: below code ctx spans levels (.block s.start)

/-- Whether a span lies below a node.  Below the root lie all of them. -/
def Under (spans : List Span) (n : Node) (s : Span) : Prop :=
  match n with
  | .root => True
  | .block id => ∃ q ∈ spans, q.start = id ∧ q.Encloses s

/-- Whether a list has the blocks below a node by where they start. -/
structure Sweeps (ctx : Context) (spans : List Span) (n : Node) (l : List Span) : Prop where
  ascending : l.Pairwise fun a b => a.start < b.start
  mem_iff : ∀ s, s ∈ l ↔ s ∈ spans ∧ Forest.addressable ctx s = true ∧ Under spans n s

/-- There is only one such list. -/
theorem Sweeps.unique (h : Sweeps ctx spans n l) (h' : Sweeps ctx spans n l') : l = l' :=
  Markup.eq_of_ascending Span.start h.ascending h'.ascending fun s => by rw [h.mem_iff, h'.mem_iff]

/-- The blocks of a text have this order. -/
theorem sweeps_filter (h : Markup.PairsUp code spans) :
    Sweeps ctx spans .root (spans.filter (Forest.addressable ctx)) := by
  refine ⟨h.ascending.sublist List.filter_sublist, fun s => ?_⟩
  simp [Under]

theorem under_block (h : Markup.PairsUp code spans) (hs : s ∈ spans) :
    Under spans (.block s.start) k ↔ s.Encloses k := by
  constructor
  · intro hunder
    obtain ⟨q, hq, hstart, henc⟩ := hunder
    rwa [Markup.eq_of_start_eq h.ascending hq hs hstart] at henc
  · intro henc
    exact ⟨s, hs, rfl, henc⟩

theorem mem_kidsOf : k ∈ kidsOf code ctx spans n ↔ k ∈ spans ∧
    Forest.addressable ctx k = true ∧ parentNode (Forest.scopeOf code ctx spans k) = n := by
  simp [kidsOf]

theorem pairwise_of_row {stop position : Nat}
    (h : Text.Row stop position (l.map Span.range)) :
    l.Pairwise fun a b => a.stop ≤ b.start := by
  induction l generalizing position with
  | nil => exact List.Pairwise.nil
  | cons s l ih =>
    obtain ⟨-, -, hrest⟩ := h
    refine List.pairwise_cons.2 ⟨fun b hb => ?_, ih hrest⟩
    exact hrest.le_of_mem (List.mem_map_of_mem hb)

/-- The children of a node stand one behind the other, and below the node lie
its children and what lies below them. -/
theorem kidsOf_spec (h : Forest.Grounded code ctx spans)
    (hn : n ∈ (ofOutline (outlineOf code ctx spans)).names) :
    (kidsOf code ctx spans n).Pairwise (fun a b => a.stop ≤ b.start) ∧
      ∀ s ∈ spans, Forest.addressable ctx s = true →
        (Under spans n s ↔ ∃ k ∈ kidsOf code ctx spans n, k = s ∨ k.Encloses s) := by
  rcases mem_names.1 hn with rfl | ⟨q, hq, hkeptq, rfl⟩
  · rw [kidsOf_root]
    refine ⟨pairwise_of_row (Forest.row_topOf h.toPairsUp), fun s hs hkept => ?_⟩
    obtain ⟨k, hk, hkeptk, hparent, hover⟩ := h.exists_top_around hs hkept
    exact iff_of_true trivial ⟨k, Forest.mem_topOf.2 ⟨hk, hkeptk, hparent⟩, hover⟩
  · rw [kidsOf_block]
    refine ⟨pairwise_of_row (Forest.row_childrenOf h.toPairsUp hq), fun s hs hkept => ?_⟩
    rw [under_block h.toPairsUp hq]
    constructor
    · exact h.exists_child_around hq hs hkept
    · intro hkid
      obtain ⟨k, hk, hover⟩ := hkid
      obtain ⟨hk, -, hparent⟩ := Forest.mem_childrenOf.1 hk
      have henc := (h.encloses_of_parent hq hk hparent).1
      rcases hover with rfl | hover
      · exact henc
      · exact henc.trans hover

/-- The children of a node with what lies below each of them are what lies
below the node. -/
theorem Sweeps.flatMap {f : Span → List Span} (h : Forest.Grounded code ctx spans)
    (hn : n ∈ (ofOutline (outlineOf code ctx spans)).names)
    (hf : ∀ k ∈ kidsOf code ctx spans n, Sweeps ctx spans (.block k.start) (f k)) :
    Sweeps ctx spans n ((kidsOf code ctx spans n).flatMap fun k => k :: f k) := by
  obtain ⟨hrow, hunder⟩ := kidsOf_spec h hn
  -- What stands in the list of a child is the child or lies inside it.
  have hmem : ∀ k ∈ kidsOf code ctx spans n, ∀ s,
      s ∈ k :: f k ↔ s ∈ spans ∧ Forest.addressable ctx s = true ∧ (k = s ∨ k.Encloses s) := by
    intro k hk s
    obtain ⟨hkspans, hkept, -⟩ := mem_kidsOf.1 hk
    rw [List.mem_cons, (hf k hk).mem_iff, under_block h.toPairsUp hkspans]
    constructor
    · intro hs
      rcases hs with rfl | ⟨hs, hkepts, henc⟩
      · exact ⟨hkspans, hkept, .inl rfl⟩
      · exact ⟨hs, hkepts, .inr henc⟩
    · intro hs
      obtain ⟨hs, hkepts, heq | henc⟩ := hs
      · exact .inl heq.symm
      · exact .inr ⟨hs, hkepts, henc⟩
  refine ⟨List.pairwise_flatMap.2 ⟨fun k hk => ?_, ?_⟩, fun s => ?_⟩
  · refine List.pairwise_cons.2 ⟨fun s hs => ?_, (hf k hk).ascending⟩
    have henc := ((hf k hk).mem_iff s).1 hs
    exact ((under_block h.toPairsUp (mem_kidsOf.1 hk).1).1 henc.2.2).1
  · -- All that lies in one child stands in front of what lies in the next.
    refine hrow.imp_of_mem fun {a b} ha hb hapart r hr r' hr' => ?_
    obtain ⟨hrspans, -, hover⟩ := (hmem a ha r).1 hr
    obtain ⟨-, -, hover'⟩ := (hmem b hb r').1 hr'
    have hroom := h.room r hrspans
    have hbefore : r.start < a.stop := by
      rcases hover with rfl | henc
      · omega
      · have := henc.2
        omega
    have hbehind : b.start ≤ r'.start := by
      rcases hover' with rfl | henc
      · exact Nat.le_refl _
      · exact Nat.le_of_lt henc.1
    omega
  · rw [List.mem_flatMap]
    constructor
    · intro hs
      obtain ⟨k, hk, hs⟩ := hs
      obtain ⟨hs, hkept, hover⟩ := (hmem k hk s).1 hs
      exact ⟨hs, hkept, (hunder s hs hkept).2 ⟨k, hk, hover⟩⟩
    · intro hs
      obtain ⟨hs, hkept, hund⟩ := hs
      obtain ⟨k, hk, hover⟩ := (hunder s hs hkept).1 hund
      exact ⟨k, hk, (hmem k hk s).2 ⟨hs, hkept, hover⟩⟩

/-- A child of a node is a node itself, one deeper. -/
theorem kid_mem_names (h : Forest.Grounded code ctx spans) (hk : k ∈ kidsOf code ctx spans n) :
    Node.block k.start ∈ (ofOutline (outlineOf code ctx spans)).names ∧
      Span.depthAt spans k.start = depthIn spans n + 1 := by
  obtain ⟨hspans, hkept, rfl⟩ := mem_kidsOf.1 hk
  exact ⟨mem_names.2 (.inr ⟨k, hspans, hkept, rfl⟩), (parentNode_scopeOf h hspans hkept).2⟩

/-- No node is deeper than there are blocks. -/
theorem depthIn_le (h : Forest.Grounded code ctx spans)
    (hn : n ∈ (ofOutline (outlineOf code ctx spans)).names) :
    depthIn spans n ≤ (outlineOf code ctx spans).scopes.length := by
  rcases mem_names.1 hn with rfl | ⟨s, hs, hkept, rfl⟩
  · exact Nat.zero_le _
  · exact h.depthAt_le hs hkept

/-- With enough levels the search below a node finds what lies below it. -/
theorem sweeps_below (h : Forest.Grounded code ctx spans) {levels : Nat}
    (hn : n ∈ (ofOutline (outlineOf code ctx spans)).names)
    (hlevels : (outlineOf code ctx spans).scopes.length < depthIn spans n + levels) :
    Sweeps ctx spans n (below code ctx spans levels n) := by
  -- A child lies one deeper, so the bound holds for it with one level less.
  induction levels generalizing n with
  | zero =>
    have hle := depthIn_le h hn
    omega
  | succ levels ih =>
    refine Sweeps.flatMap h hn fun k hk => ?_
    obtain ⟨hname, hdepth⟩ := kid_mem_names h hk
    refine ih hname ?_
    show _ < Span.depthAt spans k.start + levels
    omega

/-- Below the root stand the blocks of the text in their order. -/
theorem below_root (h : Forest.Grounded code ctx spans) :
    below code ctx spans ((outlineOf code ctx spans).scopes.length + 1) .root =
      spans.filter (Forest.addressable ctx) := by
  refine (sweeps_below h (mem_names.2 (.inl rfl)) ?_).unique (sweeps_filter h.toPairsUp)
  show _ < 0 + _
  omega

end Below

end BlockGraph

/-! ## Renderings -/

namespace Summary

mutual

/-- What was found out about a scope and then about those inside it, one
behind the other. -/
def preorder : Summary → List Facts
  | ⟨facts, children⟩ => facts :: preorderAll children

/-- The same for several scopes. -/
def preorderAll : List Summary → List Facts
  | [] => []
  | s :: rest => preorder s ++ preorderAll rest

end

mutual

/-- The order does not depend on how deep the scopes are. -/
theorem preorder_eq (depth : Nat) : ∀ s : Summary,
    preorder s = (withDepth depth s).map Prod.snd
  | ⟨facts, children⟩ => by
    rw [preorder, withDepth, List.map_cons, preorderAll_eq (depth + 1) children]

theorem preorderAll_eq (depth : Nat) : ∀ l : List Summary,
    preorderAll l = (withDepthAll depth l).map Prod.snd
  | [] => rfl
  | s :: rest => by
    rw [preorderAll, withDepthAll, List.map_append, preorder_eq depth s,
      preorderAll_eq depth rest]

end

end Summary

namespace BlockGraph

section Renderings

variable {g : BlockGraph} {code : Text} {ctx : Context} {spans : List Span} {s : Span} {n : Node}

/-- Whether lines are those of some nodes and of everything below these.  The
lines go down as long as there are children, so they exist only if the search
comes to an end. -/
inductive Unfolded (g : BlockGraph) : Nat → List (Node × NodeInfo) → List Text → Prop where
  | done {level : Nat} : Unfolded g level [] []
  | next {level : Nat} {child : Node × NodeInfo} {rest : List (Node × NodeInfo)}
      {inside after : List Text}
      (hinside : Unfolded g (level + 1) (g.childrenByStart child.1) inside)
      (hafter : Unfolded g level rest after) :
      Unfolded g level (child :: rest) (outlineLine level child.1 child.2 :: (inside ++ after))

theorem Unfolded.flatMap {level : Nat} {f : Node → List Text} {l : List (Node × NodeInfo)}
    (h : ∀ child ∈ l, Unfolded g (level + 1) (g.childrenByStart child.1) (f child.1)) :
    Unfolded g level l
      (l.flatMap fun child => outlineLine level child.1 child.2 :: f child.1) := by
  induction l with
  | nil => exact .done
  | cons child rest ih =>
    obtain ⟨hchild, hrest⟩ := List.forall_mem_cons.1 h
    rw [List.flatMap_cons, List.cons_append]
    exact .next hchild (ih hrest)

/-- With enough levels the outline is complete. -/
theorem unfolded_outlineFrom (h : Forest.Grounded code ctx spans) {levels level : Nat}
    (hn : n ∈ (ofOutline (outlineOf code ctx spans)).names)
    (hlevels : (outlineOf code ctx spans).scopes.length < depthIn spans n + levels) :
    Unfolded (ofOutline (outlineOf code ctx spans)) level
      ((ofOutline (outlineOf code ctx spans)).childrenByStart n)
      ((ofOutline (outlineOf code ctx spans)).outlineFrom levels level n) := by
  induction levels generalizing level n with
  | zero =>
    have hle := depthIn_le h hn
    omega
  | succ levels ih =>
    refine Unfolded.flatMap fun child hchild => ?_
    rw [childrenByStart_ofOutline h.toPairsUp] at hchild
    obtain ⟨k, hk, rfl⟩ := List.mem_map.1 hchild
    obtain ⟨hname, hdepth⟩ := kid_mem_names h hk
    refine ih hname ?_
    show _ < Span.depthAt spans k.start + levels
    omega

/-- The line of a block in the outline. -/
def lineOf (spans : List Span) (s : Scope) : Text :=
  outlineLine (Span.depthAt spans s.start - 1) (.block s.id) (nodeOf s).2

theorem outlineFrom_eq (h : Forest.Grounded code ctx spans) (levels : Nat) (n : Node) :
    (ofOutline (outlineOf code ctx spans)).outlineFrom levels (depthIn spans n) n =
      (below code ctx spans levels n).map fun s =>
        lineOf spans (Forest.scopeOf code ctx spans s) := by
  induction levels generalizing n with
  | zero => rfl
  | succ levels ih =>
    rw [outlineFrom, below, childrenByStart_ofOutline h.toPairsUp, List.flatMap_map,
      List.map_flatMap]
    refine List.flatMap_congr fun k hk => ?_
    have hdepth : depthIn spans (.block k.start) = depthIn spans n + 1 := (kid_mem_names h hk).2
    have hline : lineOf spans (Forest.scopeOf code ctx spans k) =
        outlineLine (depthIn spans n) (.block k.start) (entryOf code ctx spans k).2 :=
      congrArg (outlineLine · (.block k.start) (entryOf code ctx spans k).2)
        (Nat.sub_eq_of_eq_add hdepth)
    rw [List.map_cons, hline, ← ih, hdepth]
    rfl

theorem length_nodes (o : Outline) : (ofOutline o).nodes.length = o.scopes.length + 1 := by
  unfold ofOutline
  rw [List.length_cons, List.length_map]

/-- The outline has the blocks of the text in their order. -/
theorem outline_ofOutline (h : Forest.Grounded code ctx spans) :
    (ofOutline (outlineOf code ctx spans)).outline =
      (outlineOf code ctx spans).scopes.map (lineOf spans) := by
  have hlines := outlineFrom_eq h ((outlineOf code ctx spans).scopes.length + 1) .root
  rw [below_root h] at hlines
  unfold outline
  rw [length_nodes, scopes_outlineOf, List.map_map]
  exact hlines

/-- The summary of a block has the block and then what lies below it, each as
deep as it stands in the text. -/
theorem withDepth_summary (h : Forest.Grounded code ctx spans) (isBlockName : Text → Bool)
    (levels : Nat) (s : Span) :
    ((Forest.forestOf code ctx spans).summary ctx isBlockName levels
        (Forest.scopeOf code ctx spans s)).withDepth (Span.depthAt spans s.start) =
      (s :: below code ctx spans levels (.block s.start)).map fun k =>
        (Span.depthAt spans k.start,
          (Forest.forestOf code ctx spans).facts ctx isBlockName
            (Forest.scopeOf code ctx spans k)) := by
  induction levels generalizing s with
  | zero => rfl
  | succ levels ih =>
    rw [Forest.summary, Summary.withDepth, Summary.withDepthAll_eq,
      Forest.kids_forestOf h.ascending, List.flatMap_map, List.flatMap_map, List.map_cons, below,
      ← kidsOf_block, List.map_flatMap]
    congr 1
    refine List.flatMap_congr fun k hk => ?_
    have hdepth : Span.depthAt spans k.start = Span.depthAt spans s.start + 1 :=
      (kid_mem_names h hk).2
    rw [← hdepth]
    exact ih k

/-- The summaries have the blocks of the text in their order, as deep as they
stand in it. -/
theorem withDepth_summaries (h : Forest.Grounded code ctx spans) :
    Summary.withDepthAll 1 (outlineOf code ctx spans).summaries =
      (outlineOf code ctx spans).scopes.map fun s =>
        (Span.depthAt spans s.start,
          (outlineOf code ctx spans).forest.facts ctx (outlineOf code ctx spans).hasName s) := by
  have htop : (outlineOf code ctx spans).forest.topLevel =
      (Forest.topOf ctx spans).map (Forest.scopeOf code ctx spans) := Outline.topLevel_outlineOf
  unfold Outline.summaries Forest.summaries
  rw [Summary.withDepthAll_eq, htop, List.map_map, List.flatMap_map, scopes_outlineOf,
    ← below_root h, List.map_map, below, ← kidsOf_root, List.map_flatMap]
  refine List.flatMap_congr fun s hs => ?_
  have hdepth : Span.depthAt spans s.start = 1 := (kid_mem_names h hs).2
  rw [← hdepth]
  exact withDepth_summary h _ _ s

/-- The summaries have the blocks of the text in their order. -/
theorem preorder_summaries (h : Forest.Grounded code ctx spans) :
    (outlineOf code ctx spans).summaries.flatMap Summary.preorder =
      (outlineOf code ctx spans).scopes.map
        ((outlineOf code ctx spans).forest.facts ctx (outlineOf code ctx spans).hasName) := by
  rw [List.flatMap_congr fun s _ => Summary.preorder_eq 1 s, ← List.map_flatMap,
    ← Summary.withDepthAll_eq, withDepth_summaries h, List.map_map]
  rfl

/-- Nodes are drawn as they stand in the graph. -/
theorem drawingOrder_ofOutline (h : Markup.PairsUp code spans) :
    (ofOutline (outlineOf code ctx spans)).drawingOrder =
      (ofOutline (outlineOf code ctx spans)).nodes := by
  have hblock : ∀ entry ∈ (outlineOf code ctx spans).scopes.map nodeOf, entry.1 ≠ .root := by
    intro entry hentry heq
    obtain ⟨s, -, rfl⟩ := List.mem_map.1 hentry
    cases heq
  have hsorted : sortByStart ((outlineOf code ctx spans).scopes.map nodeOf) =
      (outlineOf code ctx spans).scopes.map nodeOf := by
    apply List.mergeSort_of_pairwise
    rw [scopes_outlineOf, List.pairwise_map, List.pairwise_map]
    refine (h.ascending.sublist List.filter_sublist).imp ?_
    intro a b hlt
    exact decide_eq_true (Int.ofNat_le.2 (Nat.le_of_lt hlt))
  unfold drawingOrder
  show (List.filter _ (_ :: _)) ++ sortByStart (List.filter _ (_ :: _)) = _ :: _
  rw [List.filter_cons_of_pos (by simp), List.filter_cons_of_neg (by simp),
    List.filter_eq_nil_iff.2 fun entry hentry => by simpa using hblock entry hentry,
    List.filter_eq_self.2 fun entry hentry => by simpa using hblock entry hentry, hsorted]
  rfl

/-- The flowchart has the root, the blocks of the text in their order, and
then edges. -/
theorem flowchart_ofOutline (h : Markup.PairsUp code spans) (counts : List (Node × Int))
    (direction : Text) :
    ∃ edges : List (Node × Node),
      (ofOutline (outlineOf code ctx spans)).flowchart counts direction =
        Text.join "\n" (("flowchart " ++ direction) ::
          Flowchart.nodeLine Flowchart.rootLabel .root (outlineOf code ctx spans).root.name
            (List.lookup .root counts) ::
          ((outlineOf code ctx spans).scopes.map fun s =>
            Flowchart.nodeLine (Text.ofNat s.id) s.kind s.name
              (List.lookup (.block s.id) counts)) ++
          edges.map fun e => Flowchart.edgeLine (label e.1) (label e.2)) := by
  refine ⟨(ofOutline (outlineOf code ctx spans)).nodes.flatMap fun entry =>
    ((ofOutline (outlineOf code ctx spans)).childrenByStart entry.1).map fun child =>
      (entry.1, child.1), ?_⟩
  simp only [flowchart, drawingOrder_ofOutline h, List.map_flatMap, List.map_map]
  unfold ofOutline
  rw [List.map_cons, List.map_map]
  rfl

end Renderings

end BlockGraph

/-! ## The agreement -/

namespace Command

/-- The answer to `blocks` with the given rows. -/
def tableText (mode : Mode) (timestamp template : Text) (excluded : Nat)
    (rows : List (List TableCell)) : Except TableFault Text :=
  if mode.json then
    .ok (envelope mode timestamp "blocks" [
      ("total", Json.ofNat rows.length),
      ("excluded", Json.ofNat excluded)] [
      ("template", .str template),
      ("blocks", .arr ((Table.entries blockHeaders rows).map entryJson))])
  else if mode.compact then .ok (Table.renderCompact blockHeaders rows 0)
  else Table.render blockHeaders rows 0

/-- The answer to `blocks` with the given rows as lines of output. -/
def tableOutput (mode : Mode) (timestamp template : Text) (excluded : Nat)
    (rows : List (List TableCell)) : Except TableFault Text :=
  (tableText mode timestamp template excluded rows).map echo

theorem blocksText_eq (mode : Mode) (timestamp template : Text) (loops withs : Bool)
    (o : Outline) :
    blocksText mode timestamp template loops withs o =
      tableText mode timestamp template o.forest.excluded.length
        ((selectBlocks o loops withs).map (blockRow o (BlockGraph.ofOutline o).depths)) :=
  rfl

/-- With both filters or none the table has all blocks. -/
theorem blocksOutput_unfiltered (mode : Mode) (timestamp template : Text) (filtered : Bool)
    (o : Outline) :
    blocksOutput mode timestamp template filtered filtered o =
      tableOutput mode timestamp template o.forest.excluded.length
        (o.scopes.map (blockRow o (BlockGraph.ofOutline o).depths)) := by
  rw [blocksOutput, blocksText_eq]
  cases filtered <;> rfl

end Command

namespace Outline

open BlockGraph

/-- All renderings of an outline have its blocks in their order, which is that
of their offsets.  The outline of the graph comes to an end and has a line for
each block, indented by its depth.  The summaries have the facts about each
block.  The flowchart has a line for the root, one for each block, and edges
behind them.  The table has a row for each block, unless only those of one kind
are asked for. -/
theorem ofText_renderings_agree {t : Text} {ctx : Context} {o : Outline}
    (h : ofText t ctx = .ok o) :
    (o.scopes.map Scope.id).Pairwise (· < ·) ∧
    Unfolded (ofOutline o) 0 ((ofOutline o).childrenByStart .root) (ofOutline o).outline ∧
    List.Forall₂ (fun s line => ∃ depth, 1 ≤ depth ∧
        List.lookup (.block s.id) (ofOutline o).depths = some depth ∧
        line = Text.spaces (2 * (depth - 1)) ++ s.kind.abbrev ++ " " ++ s.name ++ "  @" ++
          Text.ofNat s.id)
      o.scopes (ofOutline o).outline ∧
    o.summaries.flatMap Summary.preorder = o.scopes.map (o.forest.facts o.context o.hasName) ∧
    (∀ counts direction, ∃ edges : List (Node × Node),
      (ofOutline o).flowchart counts direction = Text.join "\n" (("flowchart " ++ direction) ::
        Flowchart.nodeLine Flowchart.rootLabel .root o.root.name (List.lookup .root counts) ::
        (o.scopes.map fun s =>
          Flowchart.nodeLine (Text.ofNat s.id) s.kind s.name (List.lookup (.block s.id) counts)) ++
        edges.map fun e => Flowchart.edgeLine (label e.1) (label e.2))) ∧
    ∃ rows : List (List TableCell),
      rows.map List.head? = o.scopes.map (fun s => some (.number s.id)) ∧
      ∀ mode timestamp template filtered,
        Command.blocksOutput mode timestamp template filtered filtered o =
          Command.tableOutput mode timestamp template o.forest.excluded.length rows := by
  obtain ⟨spans, hground, rfl⟩ := grounded_of_ofText h
  have hgraded := graded_ofOutline hground
  refine ⟨?_, ?_, ?_, preorder_summaries hground, flowchart_ofOutline hground.toPairsUp,
    _, ?_, fun mode timestamp template filtered =>
      Command.blocksOutput_unfiltered mode timestamp template filtered _⟩
  · rw [scopes_outlineOf, List.map_map, List.pairwise_map]
    exact hground.ascending.sublist List.filter_sublist
  · refine unfolded_outlineFrom hground (mem_names.2 (.inl rfl)) ?_
    rw [length_nodes]
    exact Nat.lt_add_left _ (Nat.lt_succ_self _)
  · rw [outline_ofOutline hground, List.forall₂_map_right_iff, List.forall₂_same]
    intro scope hscope
    obtain ⟨s, hs, hkept, rfl⟩ := Forest.mem_forestOf.1 hscope
    have hname : Node.block s.start ∈ (ofOutline (outlineOf (normalize t) ctx spans)).names :=
      mem_names.2 (.inr ⟨s, hs, hkept, rfl⟩)
    exact ⟨_, hgraded.rank_pos _ hname Node.noConfusion,
      hgraded.lookup_depths hname Node.noConfusion, rfl⟩
  · rw [List.map_map]
    rfl

/-- A block inside a block is one level further in, and a block that is left out
has no line. -/
theorem ofText_renderings_agree_left_out :
    ∃ o, ofText
        "<% loop $A %><% with $B %><% end_with %><% end_loop %><% with $Top %><% end_with %>"
        Context.base = .ok o ∧
      (ofOutline o).outline = [("loop A  @0" : Text), ("  with B  @13" : Text)] ∧
      (o.summaries.flatMap Summary.preorder).map Facts.id = [0, 13] := by
  have hspans : Markup.spansOf (normalize
      "<% loop $A %><% with $B %><% end_with %><% end_loop %><% with $Top %><% end_with %>") =
        .ok [⟨⟨.loop, 0, "<% loop $A %>", "$A"⟩, none, 54⟩,
          ⟨⟨.within, 13, "<% with $B %>", "$B"⟩, some 0, 40⟩,
          ⟨⟨.within, 54, "<% with $Top %>", "$Top"⟩, none, 83⟩] := by
    refine Markup.spansOf_of_nesting
      (n := .block ⟨.loop, 0, "<% loop $A %>", "$A"⟩
        (.block ⟨.within, 13, "<% with $B %>", "$B"⟩ .nil ⟨.within, 26, "<% end_with %>"⟩ .nil)
        ⟨.loop, 40, "<% end_loop %>"⟩
        (.block ⟨.within, 54, "<% with $Top %>", "$Top"⟩ .nil ⟨.within, 69, "<% end_with %>"⟩ .nil))
      ?_ ?_
    · exact (Markup.tags_eq_of_perm (by decide +kernel) (by decide +kernel)).symm
    · simp only [Nesting.Within]
      decide
  have houtline := ofText_of_spansOf Context.base hspans (Forest.kept_iff.2 (by decide))
  obtain ⟨-, -, hlines, hfacts, -⟩ := ofText_renderings_agree houtline
  refine ⟨_, houtline, ?_, ?_⟩
  · rw [scopes_outlineOf, show List.filter _ _ = [_, _] from rfl] at hlines
    obtain ⟨_, _, ⟨outer, -, houter, rfl⟩, hrest, hall⟩ := List.forall₂_cons_left_iff.1 hlines
    obtain ⟨_, _, ⟨inner, -, hinner, rfl⟩, hnil, rfl⟩ := List.forall₂_cons_left_iff.1 hrest
    obtain rfl : 1 = outer := Option.some.inj (Eq.trans (by decide) houter)
    obtain rfl : 2 = inner := Option.some.inj (Eq.trans (by decide) hinner)
    rw [hall, List.forall₂_nil_left_iff.1 hnil]
    rfl
  · rw [hfacts, List.map_map]
    rfl

end Outline

end TemplateScopes
