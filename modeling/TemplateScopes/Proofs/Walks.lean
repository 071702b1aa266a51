import Mathlib.Data.List.Perm.Subperm
import TemplateScopes.Proofs.Edits

/-!
# Walks from one node

A graph passes as a proper tree if it has one edge less than nodes, is
connected, and has no node with two edges into it.  These are counts.  What
they come to is a statement about walks: from one node exactly one walk leads
to every other node, and no edge leads back to it.  Which node that is, the
counts do not say.

There are four groups.

* Searches.  `layersFrom_closed` says that a search with enough rounds finds
  all that can be found, and `isConnected_iff` what it means for a graph.
* Walks.  `Walk` follows edges from a node, and `GrowsFrom` asks for exactly
  one walk to every other node.
* Counts.  A graph that grows from a node has one edge into every other node
  (`GrowsFrom.perm_targets`), and one that passes the counts grows from the
  node that no edge leads to (`growsFrom_of_connected`).
* The criterion.  `isProperTree_iff_growsFrom` is the main result, and
  `isProperTree_away_from_root` a graph that grows from a block.
-/

namespace TemplateScopes.BlockGraph

/-! ## Searches -/

section Search

variable {next : Node → List Node} {here remaining : List Node}

/-- Everything that a search finds is reached from where it started. -/
theorem reached_of_mem_layersFrom {rounds : Nat} {n : Node}
    (hn : n ∈ (layersFrom next rounds here remaining).flatten) :
    ∃ m ∈ here, Relation.ReflTransGen (fun a b => b ∈ next a) m n := by
  induction rounds generalizing here remaining with
  | zero =>
    refine ⟨n, ?_, .refl⟩
    simpa [layersFrom] using hn
  | succ rounds ih =>
    simp only [layersFrom, List.flatten_cons, List.mem_append] at hn
    rcases hn with hhere | hlater
    · exact ⟨n, hhere, .refl⟩
    · obtain ⟨m, hm, hreach⟩ := ih hlater
      have hfound := (List.mem_filter.1 hm).2
      simp only [List.any_eq_true, decide_eq_true_eq] at hfound
      obtain ⟨first, hfirst, hnext⟩ := hfound
      exact ⟨first, hfirst, hreach.head hnext⟩

theorem mem_layersFrom_of_mem {rounds : Nat} {n : Node} (hn : n ∈ here) :
    n ∈ (layersFrom next rounds here remaining).flatten := by
  cases rounds with
  | zero => simpa [layersFrom] using hn
  | succ rounds =>
    rw [layersFrom, List.flatten_cons]
    exact List.mem_append_left _ hn

/-- A search from nowhere finds nothing. -/
theorem not_mem_layersFrom_nil {rounds : Nat} {n : Node} :
    n ∉ (layersFrom next rounds [] remaining).flatten := by
  intro hn
  obtain ⟨m, hm, -⟩ := reached_of_mem_layersFrom hn
  exact List.not_mem_nil hm

/-- With a round for every remaining node, nothing next to what was found is
left. -/
theorem layersFrom_closed {rounds : Nat} {m n : Node} (hrounds : remaining.length ≤ rounds)
    (hm : m ∈ (layersFrom next rounds here remaining).flatten) (hn : n ∈ remaining)
    (hnext : n ∈ next m) : n ∈ (layersFrom next rounds here remaining).flatten := by
  induction rounds generalizing here remaining with
  | zero =>
    obtain rfl := List.eq_nil_of_length_eq_zero (Nat.le_zero.1 hrounds)
    cases hn
  | succ rounds ih =>
    simp only [layersFrom, List.flatten_cons, List.mem_append] at hm ⊢
    set there := remaining.filter fun n => here.any fun m => n ∈ next m with hthere
    have hfound : n ∈ there → n ∈ (layersFrom next rounds there
        (remaining.filter fun n => n ∉ there)).flatten := fun h => mem_layersFrom_of_mem h
    rcases hm with hhere | hlater
    · refine .inr (hfound (List.mem_filter.2 ⟨hn, ?_⟩))
      exact List.any_eq_true.2 ⟨m, hhere, decide_eq_true hnext⟩
    · by_cases hmem : n ∈ there
      · exact .inr (hfound hmem)
      · -- Something was found in this round, so fewer nodes remain for the next one.
        have hsome : there ≠ [] := by
          intro hnil
          rw [hnil] at hlater
          exact not_mem_layersFrom_nil hlater
        have hfewer : (remaining.filter fun n => n ∉ there).length < remaining.length := by
          obtain ⟨x, hx⟩ := List.exists_mem_of_ne_nil _ hsome
          refine List.length_filter_lt_length_iff_exists.2 ⟨x, (List.mem_filter.1 hx).1, ?_⟩
          simpa using hx
        refine .inr (ih (by omega) hlater (List.mem_filter.2 ⟨hn, decide_eq_true hmem⟩))

/-- Whether an edge joins two nodes in either direction. -/
def Joined (g : BlockGraph) (a b : Node) : Prop :=
  (a, b) ∈ g.edges ∨ (b, a) ∈ g.edges

instance (g : BlockGraph) : Std.Symm g.Joined :=
  ⟨fun _ _ h => h.symm⟩

/-- A graph is connected if edges in whatever direction lead from each of its
nodes to all others. -/
theorem isConnected_iff {g : BlockGraph} (h : g.WellFormed) :
    g.isConnected = true ↔
      ∀ a ∈ g.names, ∀ b ∈ g.names, Relation.ReflTransGen g.Joined a b := by
  obtain ⟨first, rest, hnames⟩ := List.exists_cons_of_ne_nil (List.ne_nil_of_mem h.root)
  have hjoined : (fun a b => b ∈ g.neighbours a) = g.Joined := by
    funext a b
    exact propext mem_neighbours
  unfold isConnected
  rw [hnames]
  simp only [List.all_eq_true, List.contains_iff_mem]
  constructor
  · intro hall
    have hfirst : ∀ n ∈ first :: rest, Relation.ReflTransGen g.Joined first n := by
      intro n hn
      rcases List.mem_cons.1 hn with rfl | hn
      · exact .refl
      · obtain ⟨m, hm, hreach⟩ := reached_of_mem_layersFrom (hall n hn)
        rw [hjoined, List.mem_singleton.1 hm] at hreach
        exact hreach
    intro a ha b hb
    exact (Std.Symm.symm _ _ (hfirst a ha)).trans (hfirst b hb)
  · intro hall n hn
    have hreach := hall first List.mem_cons_self n (List.mem_cons_of_mem _ hn)
    clear hn
    induction hreach with
    | refl => exact mem_layersFrom_of_mem (List.mem_singleton_self _)
    | @tail m n _ hstep ih =>
      by_cases hfirst : n = first
      · exact hfirst ▸ mem_layersFrom_of_mem (List.mem_singleton_self _)
      · have hn : n ∈ g.names := by
          rcases hstep with hedge | hedge
          · exact (h.ends m n hedge).2
          · exact (h.ends n m hedge).1
        refine layersFrom_closed ?_ ih (List.mem_filter.2 ⟨hn, decide_eq_true hfirst⟩)
          (mem_neighbours.2 hstep)
        refine Nat.le_trans (List.length_filter_le _ _) ?_
        unfold names
        rw [List.length_map]

end Search

/-! ## Walks -/

/-- Whether the nodes are those of a walk along edges from one node to
another, both ends included. -/
inductive Walk (g : BlockGraph) (a : Node) : Node → List Node → Prop where
  | start : Walk g a a [a]
  | step {b c : Node} {path : List Node} (h : Walk g a b path) (hedge : (b, c) ∈ g.edges) :
      Walk g a c (path ++ [c])

/-- Whether exactly one walk leads from a node to every other node, and no
edge leads to the node itself. -/
structure GrowsFrom (g : BlockGraph) (r : Node) : Prop where
  existsUnique_walk : ∀ n ∈ g.names, n ≠ r → ∃! path, g.Walk r n path
  not_mem_edges : ∀ a, (a, r) ∉ g.edges

section Walks

variable {g : BlockGraph} {a b r n : Node} {path : List Node}

theorem Walk.getLast? (h : g.Walk a n path) : path.getLast? = some n := by
  cases h with
  | start => rfl
  | step _ _ => exact List.getLast?_concat

theorem exists_walk_iff :
    (∃ path, g.Walk a n path) ↔ Relation.ReflTransGen (fun x y => (x, y) ∈ g.edges) a n := by
  constructor
  · intro hwalk
    obtain ⟨path, h⟩ := hwalk
    induction h with
    | start => exact .refl
    | step _ hedge ih => exact ih.tail hedge
  · intro hreach
    induction hreach with
    | refl => exact ⟨[a], .start⟩
    | tail _ hedge ih =>
      obtain ⟨path, h⟩ := ih
      exact ⟨_, h.step hedge⟩

/-- Where no two edges lead to one node and none to the first, a walk is the
only one to its end. -/
theorem Walk.unique (hone : ∀ a b n, (a, n) ∈ g.edges → (b, n) ∈ g.edges → a = b)
    (hnone : ∀ a, (a, r) ∉ g.edges) {path' : List Node} (h : g.Walk r n path)
    (h' : g.Walk r n path') : path = path' := by
  induction h generalizing path' with
  | start =>
    cases h' with
    | start => rfl
    | step _ hedge => exact absurd hedge (hnone _)
  | step h hedge ih =>
    cases h' with
    | start => exact absurd hedge (hnone _)
    | step h' hedge' =>
      obtain rfl := hone _ _ _ hedge hedge'
      rw [ih h']

namespace GrowsFrom

theorem exists_walk (h : g.GrowsFrom r) (hn : n ∈ g.names) : ∃ path, g.Walk r n path := by
  by_cases heq : n = r
  · exact ⟨[r], heq ▸ .start⟩
  · exact (h.existsUnique_walk n hn heq).exists

/-- Two edges into one node would be the ends of two walks. -/
theorem source_unique (h : g.GrowsFrom r) (hg : g.WellFormed) (ha : (a, n) ∈ g.edges)
    (hb : (b, n) ∈ g.edges) : a = b := by
  obtain ⟨path, hpath⟩ := h.exists_walk (hg.ends a n ha).1
  obtain ⟨path', hpath'⟩ := h.exists_walk (hg.ends b n hb).1
  have hne : n ≠ r := fun heq => h.not_mem_edges a (heq ▸ ha)
  have hsame : path ++ [n] = path' ++ [n] :=
    (h.existsUnique_walk n (hg.ends a n ha).2 hne).unique (hpath.step ha) (hpath'.step hb)
  have hlast := hpath.getLast?
  rw [List.append_cancel_right hsame, hpath'.getLast?] at hlast
  exact (Option.some.inj hlast).symm

/-- Every node but the first has an edge into it. -/
theorem exists_edge (h : g.GrowsFrom r) (hn : n ∈ g.names) (hne : n ≠ r) :
    ∃ a, (a, n) ∈ g.edges := by
  obtain ⟨path, hpath⟩ := h.exists_walk hn
  cases hpath with
  | start => exact absurd rfl hne
  | step _ hedge => exact ⟨_, hedge⟩

/-- A graph grows from one node only. -/
theorem unique (h : g.GrowsFrom r) (hr : a ∈ g.names) (h' : g.GrowsFrom a) : a = r := by
  by_contra hne
  obtain ⟨b, hedge⟩ := h.exists_edge hr hne
  exact h'.not_mem_edges b hedge

end GrowsFrom

end Walks

/-! ## Counts -/

/-- The nodes that edges lead to, one for each edge. -/
def targets (g : BlockGraph) : List Node :=
  g.edges.map Prod.snd

section Counts

variable {g : BlockGraph} {r : Node}

theorem mem_targets {n : Node} : n ∈ g.targets ↔ ∃ a, (a, n) ∈ g.edges := by
  simp [targets]

theorem inDegree_eq_count (n : Node) : g.inDegree n = g.targets.count n := by
  unfold inDegree targets
  rw [List.count_eq_countP, List.countP_map, ← List.countP_eq_length_filter]
  rfl

theorem WellFormed.targets_subset (h : g.WellFormed) : g.targets ⊆ g.names := by
  intro n hn
  obtain ⟨a, hedge⟩ := mem_targets.1 hn
  exact (h.ends a n hedge).2

/-- No node has two edges into it if no node is the target of two edges. -/
theorem WellFormed.inDegree_le_one_iff (h : g.WellFormed) :
    (∀ n ∈ g.names, g.inDegree n ≤ 1) ↔ g.targets.Nodup := by
  rw [List.nodup_iff_count_le_one]
  simp only [inDegree_eq_count]
  constructor
  · intro hall n
    by_cases hn : n ∈ g.targets
    · exact hall n (h.targets_subset hn)
    · rw [List.count_eq_zero_of_not_mem hn]
      exact Nat.zero_le 1
  · intro hall n _
    exact hall n

theorem isProperTree_eq_true_iff (h : g.WellFormed) :
    g.isProperTree = true ↔ g.targets.length + 1 = g.names.length ∧
      (∀ a ∈ g.names, ∀ b ∈ g.names, Relation.ReflTransGen g.Joined a b) ∧ g.targets.Nodup := by
  unfold isProperTree
  rw [Bool.and_eq_true, Bool.and_eq_true, beq_iff_eq, isConnected_iff h, List.all_eq_true,
    ← h.inDegree_le_one_iff, and_assoc]
  simp only [decide_eq_true_eq, targets, names, List.length_map]

theorem source_unique_of_nodup (h : g.targets.Nodup) {a b n : Node} (ha : (a, n) ∈ g.edges)
    (hb : (b, n) ∈ g.edges) : a = b := by
  exact congrArg Prod.fst (List.inj_on_of_nodup_map h ha hb rfl)

/-- The targets of a graph that grows from a node are all others. -/
theorem GrowsFrom.perm_targets (h : g.GrowsFrom r) (hg : g.WellFormed) :
    g.targets.Perm (g.names.erase r) := by
  have hnodup : g.targets.Nodup := by
    refine List.Nodup.map_on ?_ hg.edges
    intro x hx y hy heq
    obtain ⟨a, n⟩ := x
    obtain ⟨b, m⟩ := y
    obtain rfl : n = m := heq
    rw [h.source_unique hg hx hy]
  refine (List.perm_ext_iff_of_nodup hnodup (hg.names.erase r)).2 fun n => ?_
  rw [hg.names.mem_erase_iff, mem_targets]
  constructor
  · intro hedge
    obtain ⟨a, hedge⟩ := hedge
    exact ⟨fun heq => h.not_mem_edges a (heq ▸ hedge), (hg.ends a n hedge).2⟩
  · intro hn
    exact h.exists_edge hn.2 hn.1

/-- A connected graph without two edges into one node grows from a node
without an edge into it. -/
theorem growsFrom_of_connected
    (hconnected : ∀ a ∈ g.names, ∀ b ∈ g.names, Relation.ReflTransGen g.Joined a b)
    (hone : g.targets.Nodup) (hr : r ∈ g.names) (hnone : ∀ a, (a, r) ∉ g.edges) :
    g.GrowsFrom r := by
  -- What walks reach is closed under edges backwards as well: the edge into a
  -- node that was reached is the one that it was reached by.
  have hwalk : ∀ n, Relation.ReflTransGen g.Joined r n → ∃ path, g.Walk r n path := by
    intro n hjoined
    induction hjoined with
    | refl => exact ⟨[r], .start⟩
    | @tail m n _ hstep ih =>
      obtain ⟨path, hpath⟩ := ih
      rcases hstep with hedge | hedge
      · exact ⟨_, hpath.step hedge⟩
      · cases hpath with
        | start => exact absurd hedge (hnone n)
        | step hpath hlast =>
          obtain rfl := source_unique_of_nodup hone hedge hlast
          exact ⟨_, hpath⟩
  refine ⟨fun n hn _ => ?_, hnone⟩
  obtain ⟨path, hpath⟩ := hwalk n (hconnected r hr n hn)
  exact ⟨path, hpath, fun path' hpath' =>
    hpath'.unique (fun _ _ _ => source_unique_of_nodup hone) hnone hpath⟩

/-- A graph that grows from a node is connected through it. -/
theorem GrowsFrom.connected (h : g.GrowsFrom r) {a b : Node} (ha : a ∈ g.names)
    (hb : b ∈ g.names) : Relation.ReflTransGen g.Joined a b := by
  have hfrom : ∀ n ∈ g.names, Relation.ReflTransGen g.Joined r n := fun n hn =>
    Relation.ReflTransGen.mono (fun _ _ => Or.inl) _ _ (exists_walk_iff.1 (h.exists_walk hn))
  exact (Std.Symm.symm _ _ (hfrom a ha)).trans (hfrom b hb)

/-- A graph passes as a proper tree just if it grows from one of its nodes. -/
theorem isProperTree_iff_exists (h : g.WellFormed) :
    g.isProperTree = true ↔ ∃ r ∈ g.names, g.GrowsFrom r := by
  rw [isProperTree_eq_true_iff h]
  constructor
  · intro hcounts
    obtain ⟨hlength, hconnected, hone⟩ := hcounts
    -- There are fewer targets than nodes.
    have hleft : ∃ r ∈ g.names, r ∉ g.targets := by
      by_contra hall
      push Not at hall
      have hle := (List.subperm_of_subset h.names hall).length_le
      omega
    obtain ⟨r, hr, hnone⟩ := hleft
    exact ⟨r, hr, growsFrom_of_connected hconnected hone hr fun a hedge =>
      hnone (mem_targets.2 ⟨a, hedge⟩)⟩
  · intro hgrows
    obtain ⟨r, hr, hgrows⟩ := hgrows
    have hperm := hgrows.perm_targets h
    refine ⟨?_, fun a ha b hb => hgrows.connected ha hb, hperm.nodup_iff.2 (h.names.erase r)⟩
    rw [hperm.length_eq, List.length_erase_add_one hr]

end Counts

/-! ## The criterion -/

/-- After any edits the graph of a template passes as a proper tree just if it
grows from one of its nodes, and that is only one.  It grows from the root just
if it passes and no edge leads to the root. -/
theorem isProperTree_iff_growsFrom {t : Text} {ctx : Context} {o : Outline}
    (h : Outline.ofText t ctx = .ok o) (edits : List Edit) :
    let g := (ofOutline o).edited edits
    (g.isProperTree = true ↔ ∃! r, r ∈ g.names ∧ g.GrowsFrom r) ∧
    (g.GrowsFrom .root ↔ g.isProperTree = true ∧ ∀ a, (a, .root) ∉ g.edges) := by
  intro g
  have hg : g.WellFormed := wellFormed_edited h edits
  have htree := isProperTree_iff_exists hg
  refine ⟨htree.trans ?_, ?_⟩
  · constructor
    · intro hgrows
      obtain ⟨r, hr, hgrows⟩ := hgrows
      exact ⟨r, ⟨hr, hgrows⟩, fun a ha => hgrows.unique ha.1 ha.2⟩
    · intro hgrows
      exact hgrows.exists
  · constructor
    · intro hgrows
      exact ⟨htree.2 ⟨.root, hg.root, hgrows⟩, hgrows.not_mem_edges⟩
    · intro hpasses
      obtain ⟨-, hconnected, hone⟩ := (isProperTree_eq_true_iff hg).1 hpasses.1
      exact growsFrom_of_connected hconnected hone hg.root hpasses.2

/-- Two blocks in a circle beside the root have the right number of edges, one
into each of them, but do not hang together with the root. -/
theorem isProperTree_iff_growsFrom_circle :
    ∃ o, Outline.ofText "<% loop $A %><% end_loop %><% with $B %><% end_with %>" Context.base =
        .ok o ∧
      let g := (ofOutline o).edited [.removeEdge .root (.block 0), .removeEdge .root (.block 27),
        .addEdge (.block 0) (.block 27), .addEdge (.block 27) (.block 0)]
      g.edges.length + 1 = g.nodes.length ∧ ¬ ∃ r, r ∈ g.names ∧ g.GrowsFrom r := by
  refine ⟨_, Outline.ofText_two_blocks, by decide, fun hgrows => ?_⟩
  have htree := isProperTree_iff_growsFrom Outline.ofText_two_blocks [.removeEdge .root (.block 0),
    .removeEdge .root (.block 27), .addEdge (.block 0) (.block 27), .addEdge (.block 27) (.block 0)]
  obtain ⟨r, hr, hgrows⟩ := hgrows
  have hpasses := htree.1.2 ⟨r, ⟨hr, hgrows⟩, fun a ha => hgrows.unique ha.1 ha.2⟩
  revert hpasses
  decide

/-- Turned round, the one edge of a template with one block leads from the
block to the root.  The graph passes as a proper tree, although no walk leads
from the root to the block. -/
theorem isProperTree_away_from_root :
    ∃ o, Outline.ofText "<% loop $A %><% end_loop %>" Context.base = .ok o ∧
      let g := (ofOutline o).edited [.removeEdge .root (.block 0), .addEdge (.block 0) .root]
      g.isProperTree = true ∧ .block 0 ∈ g.names ∧ (∀ path, ¬ g.Walk .root (.block 0) path) ∧
      ¬ g.GrowsFrom .root := by
  refine ⟨_, Outline.ofText_one_block, by decide, by decide, ?_, fun hgrows => ?_⟩
  · intro path hwalk
    cases hwalk with
    | step _ hedge => exact absurd (mem_targets.2 ⟨_, hedge⟩) (by decide)
  · exact hgrows.not_mem_edges (.block 0) (by decide)

end TemplateScopes.BlockGraph
