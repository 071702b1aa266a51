import Mathlib.Data.List.Pairwise
import TemplateScopes.Proofs.Edits

/-!
# Nested and spaced spans

The check of spans sorts the children of each node and compares neighbours
only.  What it comes to is a statement about all children: each lies inside
its parent, and no position belongs to two of them.  For the children of the
root the check asks no more than that they do not start before it.

There are three groups.

* Rows.  `apartFrom_iff` says what a comparison of neighbours means for spans
  that are sorted by where they start, and `apart_iff` what it means for two
  spans to have no position in common.
* Children.  `HasChild` is a node with another one that an edge leads to, and
  `mem_childrenByStart` finds it in the sorted list.
* The check.  `spansNested_iff` is the main result, and
  `spansNested_beyond_root` a block that ends behind the root.
-/

namespace TemplateScopes

/-! ## Rows -/

namespace NodeInfo

/-- Whether a position lies in the span. -/
def Covers (info : NodeInfo) (i : Int) : Prop :=
  info.start ≤ i ∧ i < info.stop

/-- Whether no position lies in both spans. -/
def Apart (a b : NodeInfo) : Prop :=
  ∀ i, ¬ (a.Covers i ∧ b.Covers i)

/-- Spans with room in them are apart if one stops before the other starts. -/
theorem apart_iff {a b : NodeInfo} (ha : a.start < a.stop) (hb : b.start < b.stop) :
    a.Apart b ↔ a.stop ≤ b.start ∨ b.stop ≤ a.start := by
  constructor
  · intro hapart
    by_contra hboth
    -- The later of the two starts lies in both.
    refine hapart (max a.start b.start) ?_
    unfold Covers
    omega
  · intro hor i hi
    unfold Covers at hi
    omega

end NodeInfo

namespace BlockGraph

theorem apartFrom_cons {previous : Option Int} {info : NodeInfo} {rest : List NodeInfo} :
    apartFrom previous (info :: rest) = true ↔
      (∀ stop ∈ previous, stop ≤ info.start) ∧ apartFrom (some info.stop) rest = true := by
  cases previous <;> simp [apartFrom]

/-- Among spans that are sorted by where they start, neighbours without
overlap are enough. -/
theorem apartFrom_iff {infos : List NodeInfo} {previous : Option Int}
    (hsorted : infos.Pairwise fun a b => a.start ≤ b.start) :
    apartFrom previous infos = true ↔
      (∀ stop ∈ previous, ∀ info ∈ infos, stop ≤ info.start) ∧
        infos.Pairwise fun a b => a.stop ≤ b.start := by
  induction infos generalizing previous with
  | nil => simp [apartFrom]
  | cons info rest ih =>
    obtain ⟨hfirst, hrest⟩ := List.pairwise_cons.1 hsorted
    rw [apartFrom_cons, ih hrest, List.pairwise_cons]
    constructor
    · intro hall
      obtain ⟨hprevious, hnext, hpairs⟩ := hall
      refine ⟨fun stop hstop x hx => ?_, hnext _ rfl, hpairs⟩
      rcases List.mem_cons.1 hx with rfl | hx
      · exact hprevious stop hstop
      · exact Int.le_trans (hprevious stop hstop) (hfirst x hx)
    · intro hall
      obtain ⟨hprevious, hnext, hpairs⟩ := hall
      refine ⟨fun stop hstop => hprevious stop hstop info List.mem_cons_self, ?_, hpairs⟩
      intro stop hstop
      cases hstop
      exact hnext

/-! ## Children -/

/-- Whether an edge leads from one node to the other, each with what it stands
for. -/
structure HasChild (g : BlockGraph) (parent child : Node × NodeInfo) : Prop where
  parent_mem : parent ∈ g.nodes
  child_mem : child ∈ g.nodes
  edge : (parent.1, child.1) ∈ g.edges

section Children

variable {g : BlockGraph} {parent child : Node × NodeInfo}

theorem WellFormed.info?_eq_some_iff (h : g.WellFormed) {n : Node} {info : NodeInfo} :
    g.info? n = some info ↔ (n, info) ∈ g.nodes := by
  constructor
  · intro hlookup
    obtain ⟨before, after, hnodes, -⟩ := List.lookup_eq_some_iff.1 hlookup
    rw [hnodes]
    exact List.mem_append_right _ List.mem_cons_self
  · intro hmem
    refine lookup_eq_some hmem fun info' hmem' => ?_
    exact congrArg Prod.snd (List.inj_on_of_nodup_map h.names hmem' hmem rfl)

theorem sortByStart_perm (nodes : List (Node × NodeInfo)) : (sortByStart nodes).Perm nodes :=
  List.mergeSort_perm nodes _

theorem pairwise_sortByStart (nodes : List (Node × NodeInfo)) :
    (sortByStart nodes).Pairwise fun a b => a.2.start ≤ b.2.start := by
  have hsorted : (sortByStart nodes).Pairwise fun a b => decide (a.2.start ≤ b.2.start) = true := by
    refine List.pairwise_mergeSort ?_ ?_ nodes
    · intro a b c hab hbc
      exact decide_eq_true (Int.le_trans (of_decide_eq_true hab) (of_decide_eq_true hbc))
    · intro a b
      rw [Bool.or_eq_true, decide_eq_true_eq, decide_eq_true_eq]
      exact Int.le_total _ _
  exact hsorted.imp fun h => of_decide_eq_true h

/-- The sorted list has the children of a node. -/
theorem mem_childrenByStart (h : g.WellFormed) (hparent : parent ∈ g.nodes) :
    child ∈ g.childrenByStart parent.1 ↔ g.HasChild parent child := by
  unfold childrenByStart
  rw [(sortByStart_perm _).mem_iff, List.mem_filterMap]
  constructor
  · intro hmem
    obtain ⟨m, hm, hentry⟩ := hmem
    obtain ⟨info, hinfo, rfl⟩ := Option.map_eq_some_iff.1 hentry
    exact ⟨hparent, h.info?_eq_some_iff.1 hinfo, mem_successors.1 hm⟩
  · intro hchild
    refine ⟨child.1, mem_successors.2 hchild.edge, ?_⟩
    rw [h.info?_eq_some_iff.2 hchild.child_mem]
    rfl

/-- It has each child once. -/
theorem nodup_childrenByStart (h : g.WellFormed) (n : Node) : (g.childrenByStart n).Nodup := by
  have hsuccessors : (g.successors n).Nodup := by
    refine List.Nodup.map_on ?_ (h.edges.filter _)
    intro e he e' he' heq
    have hsource := of_decide_eq_true (List.mem_filter.1 he).2
    have hsource' := of_decide_eq_true (List.mem_filter.1 he').2
    exact Prod.ext (hsource.trans hsource'.symm) heq
  unfold childrenByStart
  refine (sortByStart_perm _).nodup_iff.2 (hsuccessors.filterMap fun m m' entry hm hm' => ?_)
  obtain ⟨info, -, rfl⟩ := Option.map_eq_some_iff.1 hm
  obtain ⟨info', -, heq⟩ := Option.map_eq_some_iff.1 hm'
  exact (congrArg Prod.fst heq).symm

theorem pairwise_childrenByStart (g : BlockGraph) (n : Node) :
    (g.childrenByStart n).Pairwise fun a b => a.2.start ≤ b.2.start :=
  pairwise_sortByStart _

/-- Children with room in them stand in a row just if they are apart. -/
theorem pairwise_stop_le_start_iff (h : g.WellFormed)
    (hroom : ∀ entry ∈ g.nodes, entry.2.start < entry.2.stop) (hparent : parent ∈ g.nodes) :
    ((g.childrenByStart parent.1).Pairwise fun a b => a.2.stop ≤ b.2.start) ↔
      ∀ child other, g.HasChild parent child → g.HasChild parent other → child ≠ other →
        child.2.Apart other.2 := by
  have hmem : ∀ child, child ∈ g.childrenByStart parent.1 ↔ g.HasChild parent child := fun _ =>
    mem_childrenByStart h hparent
  have hchild : ∀ child ∈ g.childrenByStart parent.1, child.2.start < child.2.stop :=
    fun child hchild => hroom child ((hmem child).1 hchild).child_mem
  constructor
  · intro hrow child other hc ho hne
    have hapart : (g.childrenByStart parent.1).Pairwise fun a b => a.2.Apart b.2 :=
      hrow.imp_of_mem fun ha hb hle => (NodeInfo.apart_iff (hchild _ ha) (hchild _ hb)).2 (.inl hle)
    have : Std.Symm fun a b : Node × NodeInfo => a.2.Apart b.2 := ⟨fun _ _ h i hi => h i hi.symm⟩
    exact hapart.forall ((hmem child).2 hc) ((hmem other).2 ho) hne
  · intro hall
    have hapart : (g.childrenByStart parent.1).Pairwise fun a b => a.2.Apart b.2 :=
      (nodup_childrenByStart h parent.1).pairwise_of_forall_ne fun a ha b hb hne =>
        hall a b ((hmem a).1 ha) ((hmem b).1 hb) hne
    refine (hapart.and (pairwise_childrenByStart g parent.1)).imp_of_mem fun {a b} ha hb hboth => ?_
    -- The second of two cannot stop before the first, since it starts no earlier.
    have hor := (NodeInfo.apart_iff (hchild a ha) (hchild b hb)).1 hboth.1
    have hroomB := hchild b hb
    have hle := hboth.2
    omega

/-- Neighbours without overlap are children without overlap. -/
theorem apartFrom_childrenByStart_iff (h : g.WellFormed)
    (hroom : ∀ entry ∈ g.nodes, entry.2.start < entry.2.stop) (hparent : parent ∈ g.nodes)
    {previous : Option Int} :
    apartFrom previous ((g.childrenByStart parent.1).map Prod.snd) = true ↔
      (∀ stop ∈ previous, ∀ child, g.HasChild parent child → stop ≤ child.2.start) ∧
        ∀ child other, g.HasChild parent child → g.HasChild parent other → child ≠ other →
          child.2.Apart other.2 := by
  rw [apartFrom_iff (List.pairwise_map.2 (pairwise_childrenByStart g parent.1)), List.pairwise_map,
    pairwise_stop_le_start_iff h hroom hparent]
  simp only [List.forall_mem_map, mem_childrenByStart h hparent]

end Children

/-! ## The check -/

/-- Whether all spans are nested as the edges say: children of a block
strictly inside it, children of the root within it, and children of one node
apart from each other. -/
structure Nested (g : BlockGraph) : Prop where
  inside : ∀ parent child, g.HasChild parent child → parent.1 ≠ .root →
    parent.2.start < child.2.start ∧ child.2.stop < parent.2.stop
  within : ∀ parent child, g.HasChild parent child → parent.1 = .root →
    parent.2.start ≤ child.2.start ∧ child.2.stop ≤ parent.2.stop
  apart : ∀ parent child other, g.HasChild parent child → g.HasChild parent other →
    child ≠ other → child.2.Apart other.2

section Check

variable {g : BlockGraph}

theorem childrenNested_iff (h : g.WellFormed)
    (hroom : ∀ entry ∈ g.nodes, entry.2.start < entry.2.stop) {parent : Node × NodeInfo}
    (hparent : parent ∈ g.nodes) :
    g.childrenNested parent.1 parent.2 = true ↔
      (∀ child, g.HasChild parent child → parent.1 ≠ .root →
        parent.2.start < child.2.start ∧ child.2.stop < parent.2.stop) ∧
      (∀ child, g.HasChild parent child → parent.1 = .root → parent.2.start ≤ child.2.start) ∧
      ∀ child other, g.HasChild parent child → g.HasChild parent other → child ≠ other →
        child.2.Apart other.2 := by
  unfold childrenNested
  by_cases hroot : parent.1 = .root
  · rw [if_pos hroot, apartFrom_childrenByStart_iff h hroom hparent]
    simp [hroot]
  · rw [if_neg hroot, Bool.and_eq_true, apartFrom_childrenByStart_iff h hroom hparent]
    simp [hroot, mem_childrenByStart h hparent, strictlyInside]

theorem spansNested_eq_true_iff (h : g.WellFormed)
    (hroom : ∀ entry ∈ g.nodes, entry.2.start < entry.2.stop) :
    g.spansNested = true ↔
      (∀ parent child, g.HasChild parent child → parent.1 ≠ .root →
        parent.2.start < child.2.start ∧ child.2.stop < parent.2.stop) ∧
      (∀ parent child, g.HasChild parent child → parent.1 = .root →
        parent.2.start ≤ child.2.start) ∧
      ∀ parent child other, g.HasChild parent child → g.HasChild parent other → child ≠ other →
        child.2.Apart other.2 := by
  unfold spansNested
  rw [List.all_eq_true]
  constructor
  · intro hall
    have hnested := fun parent child (hchild : g.HasChild parent child) =>
      (childrenNested_iff h hroom hchild.parent_mem).1 (hall parent hchild.parent_mem)
    exact ⟨fun parent child hchild => (hnested parent child hchild).1 child hchild,
      fun parent child hchild => (hnested parent child hchild).2.1 child hchild,
      fun parent child other hchild => (hnested parent child hchild).2.2 child other hchild⟩
  · intro hall parent hparent
    obtain ⟨hinside, hbegin, hapart⟩ := hall
    exact (childrenNested_iff h hroom hparent).2
      ⟨hinside parent, hbegin parent, hapart parent⟩

end Check

/-- The check of spans, after any edits that leave room in all spans: the
children of a block have to lie strictly inside it, those of the root must not
start before it, and the children of one node have to be apart from each other.
The spans are nested if moreover no child of the root stops behind it. -/
theorem spansNested_iff {t : Text} {ctx : Context} {o : Outline} (h : Outline.ofText t ctx = .ok o)
    (edits : List Edit)
    (hroom : ∀ entry ∈ ((ofOutline o).edited edits).nodes, entry.2.start < entry.2.stop) :
    let g := (ofOutline o).edited edits
    (g.spansNested = true ↔
      (∀ parent child, g.HasChild parent child → parent.1 ≠ .root →
        parent.2.start < child.2.start ∧ child.2.stop < parent.2.stop) ∧
      (∀ parent child, g.HasChild parent child → parent.1 = .root →
        parent.2.start ≤ child.2.start) ∧
      ∀ parent child other, g.HasChild parent child → g.HasChild parent other → child ≠ other →
        child.2.Apart other.2) ∧
    (g.Nested ↔ g.spansNested = true ∧
      ∀ parent child, g.HasChild parent child → parent.1 = .root →
        child.2.stop ≤ parent.2.stop) := by
  intro g
  have hcheck := spansNested_eq_true_iff (wellFormed_edited h edits) hroom
  refine ⟨hcheck, ?_⟩
  constructor
  · intro hnested
    refine ⟨hcheck.2 ⟨hnested.inside, fun parent child hchild hroot => ?_, hnested.apart⟩,
      fun parent child hchild hroot => ?_⟩
    · exact (hnested.within parent child hchild hroot).1
    · exact (hnested.within parent child hchild hroot).2
  · intro hpasses
    obtain ⟨hinside, hbegin, hapart⟩ := hcheck.1 hpasses.1
    exact ⟨hinside, fun parent child hchild hroot =>
      ⟨hbegin parent child hchild hroot, hpasses.2 parent child hchild hroot⟩, hapart⟩

/-- Of two blocks in a row the second is made to start inside the first. -/
theorem spansNested_iff_overlapping :
    ∃ o, Outline.ofText "<% loop $A %><% end_loop %><% with $B %><% end_with %>" Context.base =
        .ok o ∧
      let g := (ofOutline o).edited
        [.setInfo (.block 27) fun info => { info with start := 26 }]
      (∀ entry ∈ g.nodes, entry.2.start < entry.2.stop) ∧ g.spansNested = false := by
  refine ⟨_, Outline.ofText_two_blocks, by decide, Bool.eq_false_iff.2 fun hpasses => ?_⟩
  have hcheck := spansNested_iff Outline.ofText_two_blocks
    [.setInfo (.block 27) fun info => { info with start := 26 }] (by decide)
  obtain ⟨-, -, hapart⟩ := hcheck.1.1 hpasses
  exact hapart (.root, ⟨"Root", .root, 0, 54⟩) (.block 0, ⟨"A", .loop, 0, 27⟩)
    (.block 27, ⟨"B", .within, 26, 54⟩) ⟨by decide, by decide, by decide⟩
    ⟨by decide, by decide, by decide⟩ (by decide) 26 ⟨⟨by decide, by decide⟩, by decide, by decide⟩

/-- A block that is made to stop behind the root passes the check, although the
root does not hold it. -/
theorem spansNested_beyond_root :
    ∃ o, Outline.ofText "<% loop $A %><% end_loop %>" Context.base = .ok o ∧
      let g := (ofOutline o).edited [.setInfo (.block 0) fun info => { info with stop := 28 }]
      (∀ entry ∈ g.nodes, entry.2.start < entry.2.stop) ∧ g.spansNested = true ∧ ¬ g.Nested := by
  refine ⟨_, Outline.ofText_one_block, by decide, by decide +kernel, fun hnested => ?_⟩
  have hchild := hnested.within (.root, ⟨"Root", .root, 0, 27⟩) (.block 0, ⟨"A", .loop, 0, 28⟩)
    ⟨by decide, by decide, by decide⟩ rfl
  exact absurd hchild.2 (by decide)

end BlockGraph

end TemplateScopes
