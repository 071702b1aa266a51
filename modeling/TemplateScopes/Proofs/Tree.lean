import TemplateScopes.Proofs.Depth
import TemplateScopes.Proofs.Gaps
import TemplateScopes.Proofs.Layers

/-!
# The tree of an outline

The graph of an outline is a tree with the root at its top, and the spans of
its nodes are nested as its edges say.

There are three groups.

* Nodes and edges.  `BlockGraph.depthIn` is the depth of a node by the spans
  of the template, and `graded_ofOutline` says that every edge goes down by
  one.
* Nested spans.  The children of a node stand in a row, so that sorting them
  changes nothing (`childrenByStart_block`).
* The tree.  `ofText_tree` is the main result.
-/

namespace TemplateScopes.BlockGraph

open Outline (outlineOf)

/-! ## Nodes and edges -/

/-- How deep a node lies: as deep as the start of its block. -/
def depthIn (spans : List Span) : Node → Nat
  | .root => 0
  | .block id => Span.depthAt spans id

section Edges

variable {code : Text} {ctx : Context} {spans : List Span} {s : Span}

theorem names_ofOutline (o : Outline) :
    (ofOutline o).names = .root :: o.scopes.map fun s => .block s.id := by
  unfold names ofOutline
  rw [List.map_cons, List.map_map]
  rfl

theorem scopes_outlineOf :
    (outlineOf code ctx spans).scopes =
      (spans.filter (Forest.addressable ctx)).map (Forest.scopeOf code ctx spans) :=
  rfl

theorem mem_names {n : Node} :
    n ∈ (ofOutline (outlineOf code ctx spans)).names ↔
      n = .root ∨ ∃ s ∈ spans, Forest.addressable ctx s = true ∧ n = .block s.start := by
  rw [names_ofOutline, scopes_outlineOf, List.map_map, List.mem_cons, List.mem_map]
  refine or_congr_right ?_
  constructor
  · intro hmem
    obtain ⟨s, hs, rfl⟩ := hmem
    obtain ⟨hs, hkept⟩ := List.mem_filter.1 hs
    exact ⟨s, hs, hkept, rfl⟩
  · intro hmem
    obtain ⟨s, hs, hkept, rfl⟩ := hmem
    exact ⟨s, List.mem_filter.2 ⟨hs, hkept⟩, rfl⟩

theorem nodup_blocks (h : Markup.PairsUp code spans) :
    ((outlineOf code ctx spans).scopes.map fun s => Node.block s.id).Nodup := by
  rw [scopes_outlineOf, List.map_map, List.Nodup, List.pairwise_map]
  refine (h.ascending.sublist List.filter_sublist).imp ?_
  intro a b hlt heq
  exact Nat.ne_of_lt hlt (Node.block.inj heq)

theorem mem_edges {a b : Node} :
    (a, b) ∈ (ofOutline (outlineOf code ctx spans)).edges ↔
      ∃ s ∈ spans, Forest.addressable ctx s = true ∧
        a = parentNode (Forest.scopeOf code ctx spans s) ∧ b = .block s.start := by
  show (a, b) ∈ (outlineOf code ctx spans).scopes.map _ ↔ _
  rw [scopes_outlineOf, List.map_map, List.mem_map]
  constructor
  · intro hmem
    obtain ⟨s, hs, heq⟩ := hmem
    obtain ⟨hs, hkept⟩ := List.mem_filter.1 hs
    obtain ⟨rfl, rfl⟩ := Prod.mk.inj heq
    exact ⟨s, hs, hkept, rfl, rfl⟩
  · intro hmem
    obtain ⟨s, hs, hkept, rfl, rfl⟩ := hmem
    exact ⟨s, List.mem_filter.2 ⟨hs, hkept⟩, rfl⟩

/-- The parent of a block is the root or another block, one less deep. -/
theorem parentNode_scopeOf (h : Forest.Grounded code ctx spans) (hs : s ∈ spans)
    (hkept : Forest.addressable ctx s = true) :
    parentNode (Forest.scopeOf code ctx spans s) ∈ (ofOutline (outlineOf code ctx spans)).names ∧
      Span.depthAt spans s.start =
        depthIn spans (parentNode (Forest.scopeOf code ctx spans s)) + 1 := by
  unfold parentNode
  rw [Forest.scopeOf_parent]
  cases hparent : s.parent with
  | none => exact ⟨mem_names.2 (.inl rfl), h.depthAt_top hs hparent⟩
  | some id =>
    obtain ⟨q, hq, rfl, -⟩ := (Forest.rooted_of_pairsUp h.toPairsUp).parent s hs id hparent
    have hkeptq := h.addressable_parent hs hkept hq hparent
    exact ⟨mem_names.2 (.inr ⟨q, hq, hkeptq, rfl⟩), h.depthAt_child hs hq hparent⟩

/-- Every edge leads one deeper, and every block has an edge into it. -/
theorem graded_ofOutline (h : Forest.Grounded code ctx spans) :
    (ofOutline (outlineOf code ctx spans)).Graded (depthIn spans) := by
  refine ⟨?_, ?_, rfl, ?_, ?_, ?_, ?_⟩
  · rw [names_ofOutline]
    rfl
  · rw [names_ofOutline, List.nodup_cons]
    refine ⟨fun hmem => ?_, nodup_blocks h.toPairsUp⟩
    obtain ⟨s, -, heq⟩ := List.mem_map.1 hmem
    cases heq
  · intro n hn hroot
    obtain ⟨s, hs, hkept, rfl⟩ := (mem_names.1 hn).resolve_left hroot
    have hdepth := (parentNode_scopeOf h hs hkept).2
    show 0 < Span.depthAt spans s.start
    omega
  · intro n hn
    rcases mem_names.1 hn with rfl | ⟨s, hs, hkept, rfl⟩
    · exact Nat.zero_le _
    · refine Nat.le_trans (h.depthAt_le hs hkept) ?_
      show _ ≤ (_ :: (outlineOf code ctx spans).scopes.map nodeOf).length
      rw [List.length_cons, List.length_map]
      exact Nat.le_succ _
  · intro a b hedge
    obtain ⟨s, hs, hkept, rfl, rfl⟩ := mem_edges.1 hedge
    exact (parentNode_scopeOf h hs hkept).2
  · intro b hb hroot
    obtain ⟨s, hs, hkept, rfl⟩ := (mem_names.1 hb).resolve_left hroot
    exact ⟨_, (parentNode_scopeOf h hs hkept).1, mem_edges.2 ⟨s, hs, hkept, rfl, rfl⟩⟩

/-- No node has two edges into it. -/
theorem inDegree_le_one (h : Markup.PairsUp code spans) (n : Node) :
    (ofOutline (outlineOf code ctx spans)).inDegree n ≤ 1 := by
  have hnodup : ((outlineOf code ctx spans).scopes.map fun s => Node.block s.id).Nodup :=
    nodup_blocks h
  have hcount := List.nodup_iff_count_le_one.1 hnodup n
  rw [List.count_eq_countP, List.countP_map] at hcount
  unfold inDegree ofOutline
  rw [← List.countP_eq_length_filter, List.countP_map]
  exact hcount

theorem isProperTree_ofOutline (h : Forest.Grounded code ctx spans) :
    (ofOutline (outlineOf code ctx spans)).isProperTree = true := by
  unfold isProperTree
  rw [(graded_ofOutline h).isConnected]
  simp only [Bool.and_true, Bool.and_eq_true, beq_iff_eq, List.all_eq_true, decide_eq_true_eq]
  refine ⟨?_, fun n _ => inDegree_le_one h.toPairsUp n⟩
  unfold ofOutline
  rw [List.length_map, List.length_cons, List.length_map]

end Edges

/-! ## Nested spans -/

section Nested

variable {code : Text} {ctx : Context} {spans : List Span} {s : Span}

/-- The node of a span with what it stands for. -/
def entryOf (code : Text) (ctx : Context) (spans : List Span) (s : Span) : Node × NodeInfo :=
  nodeOf (Forest.scopeOf code ctx spans s)

/-- The spans of the children of a node. -/
def kidsOf (code : Text) (ctx : Context) (spans : List Span) (n : Node) : List Span :=
  spans.filter fun s =>
    Forest.addressable ctx s && decide (parentNode (Forest.scopeOf code ctx spans s) = n)

theorem kidsOf_root : kidsOf code ctx spans .root = Forest.topOf ctx spans := by
  refine List.filter_congr fun s _ => ?_
  unfold parentNode
  rw [Forest.scopeOf_parent]
  cases s.parent <;> rfl

theorem kidsOf_block : kidsOf code ctx spans (.block s.start) = Forest.childrenOf ctx spans s := by
  refine List.filter_congr fun c _ => ?_
  unfold parentNode
  rw [Forest.scopeOf_parent]
  cases c.parent with
  | none => simp
  | some id => simp

theorem successors_ofOutline (n : Node) :
    (ofOutline (outlineOf code ctx spans)).successors n =
      (kidsOf code ctx spans n).map fun s => .block s.start := by
  unfold successors ofOutline kidsOf
  rw [scopes_outlineOf, List.filter_map, List.map_map, List.filter_map, List.map_map,
    List.filter_filter]
  congr 1
  exact List.filter_congr fun s _ => Bool.and_comm ..

theorem info?_block (h : Markup.PairsUp code spans) (hs : s ∈ spans)
    (hkept : Forest.addressable ctx s = true) :
    (ofOutline (outlineOf code ctx spans)).info? (.block s.start) =
      some (entryOf code ctx spans s).2 := by
  apply lookup_eq_some
  · refine List.mem_cons_of_mem _ (List.mem_map.2 ⟨Forest.scopeOf code ctx spans s, ?_, rfl⟩)
    exact List.mem_map_of_mem (List.mem_filter.2 ⟨hs, hkept⟩)
  · intro info hinfo
    rcases List.mem_cons.1 hinfo with heq | hinfo
    · cases heq
    · obtain ⟨scope, hscope, heq⟩ := List.mem_map.1 hinfo
      obtain ⟨q, hq, -, rfl⟩ := Forest.mem_forestOf.1 hscope
      obtain ⟨hstart, rfl⟩ := Prod.mk.inj heq
      rw [Markup.eq_of_start_eq h.ascending hq hs (Node.block.inj hstart)]
      rfl

/-- The children of a node stand in the order of their offsets. -/
theorem childrenByStart_ofOutline (h : Markup.PairsUp code spans) (n : Node) :
    (ofOutline (outlineOf code ctx spans)).childrenByStart n =
      (kidsOf code ctx spans n).map (entryOf code ctx spans) := by
  have hentries : ((ofOutline (outlineOf code ctx spans)).successors n).filterMap (fun m =>
      ((ofOutline (outlineOf code ctx spans)).info? m).map fun info => (m, info)) =
        (kidsOf code ctx spans n).map (entryOf code ctx spans) := by
    rw [successors_ofOutline, List.filterMap_map, ← List.filterMap_eq_map]
    refine List.filterMap_congr fun s hs => ?_
    obtain ⟨hs, hkept⟩ := List.mem_filter.1 hs
    rw [Bool.and_eq_true] at hkept
    show ((ofOutline _).info? (.block s.start)).map _ = _
    rw [info?_block h hs hkept.1]
    rfl
  unfold childrenByStart sortByStart
  rw [hentries]
  apply List.mergeSort_of_pairwise
  unfold kidsOf
  rw [List.pairwise_map]
  refine (h.ascending.sublist List.filter_sublist).imp ?_
  intro a b hlt
  exact decide_eq_true (Int.ofNat_le.2 (Nat.le_of_lt hlt))

theorem apartFrom_of_row {stop position : Nat} {l : List Span}
    (h : Text.Row stop position (l.map Span.range)) :
    apartFrom (some (position : Int)) (l.map fun s => (entryOf code ctx spans s).2) = true := by
  induction l generalizing position with
  | nil => rfl
  | cons s rest ih =>
    obtain ⟨hle, -, hrest⟩ := h
    simp only [List.map_cons, apartFrom, Bool.and_eq_true, decide_eq_true_eq]
    exact ⟨Int.ofNat_le.2 hle, ih hrest⟩

/-- Without a bound in front fewer spans have to stand apart. -/
theorem apartFrom_none {position : Int} {infos : List NodeInfo}
    (h : apartFrom (some position) infos = true) : apartFrom none infos = true := by
  cases infos with
  | nil => rfl
  | cons info rest => exact (Bool.and_eq_true_iff.1 h).2

theorem spansNested_ofOutline (h : Markup.PairsUp code spans) :
    (ofOutline (outlineOf code ctx spans)).spansNested = true := by
  unfold spansNested
  rw [List.all_eq_true]
  intro entry hentry
  unfold childrenNested
  simp only [childrenByStart_ofOutline h, List.map_map]
  rcases List.mem_cons.1 hentry with rfl | hentry
  · rw [if_pos rfl, kidsOf_root]
    exact apartFrom_of_row (Forest.row_topOf h)
  · obtain ⟨scope, hscope, rfl⟩ := List.mem_map.1 hentry
    obtain ⟨s, hs, hkept, rfl⟩ := Forest.mem_forestOf.1 hscope
    have hkids : kidsOf code ctx spans (nodeOf (Forest.scopeOf code ctx spans s)).1 =
        Forest.childrenOf ctx spans s := kidsOf_block
    rw [if_neg (by simp [nodeOf]), hkids, Bool.and_eq_true]
    refine ⟨List.all_eq_true.2 ?_, apartFrom_none (apartFrom_of_row (Forest.row_childrenOf h hs))⟩
    intro info hinfo
    obtain ⟨c, hc, rfl⟩ := List.mem_map.1 hinfo
    obtain ⟨hc, -, hparent⟩ := Forest.mem_childrenOf.1 hc
    obtain ⟨hstart, hstop⟩ := (h.encloses_of_parent hs hc hparent).1
    exact Bool.and_eq_true_iff.2
      ⟨decide_eq_true (Int.ofNat_lt.2 hstart), decide_eq_true (Int.ofNat_lt.2 hstop)⟩

end Nested

/-! ## The tree -/

/-- The graph of an outline is a tree, and its spans are nested as its edges
say.  It has one node for the root and one for every block, all of which are
reached from the root.  The depth of a block is one more than the length of
its chain of parents, and the number of spans that cover its start. -/
theorem ofText_tree {t : Text} {ctx : Context} {o : Outline} (h : Outline.ofText t ctx = .ok o) :
    (ofOutline o).isProperTree = true ∧ (ofOutline o).spansNested = true ∧
    (ofOutline o).names = .root :: o.scopes.map (fun s => .block s.id) ∧
    (ofOutline o).names.Nodup ∧
    (∀ n ∈ (ofOutline o).names,
      Relation.ReflTransGen (fun a b => (a, b) ∈ (ofOutline o).edges) .root n) ∧
    ∃ spans, Markup.spansOf (normalize t) = .ok spans ∧
      ∀ s ∈ o.scopes, (∃ chain, o.ParentChain s chain) ∧
        ∀ chain, o.ParentChain s chain →
          List.lookup (.block s.id) (ofOutline o).depths = some (1 + chain.length) ∧
          1 + chain.length = Span.depthAt spans s.start := by
  obtain ⟨spans, hspans, hkept, rfl⟩ := Outline.ofText_eq_ok_iff.1 h
  have hground : Forest.Grounded (normalize t) ctx spans :=
    ⟨Markup.pairsUp_of_spansOf hspans, hkept⟩
  have hgraded := graded_ofOutline hground
  refine ⟨isProperTree_ofOutline hground, spansNested_ofOutline hground.toPairsUp,
    names_ofOutline _, hgraded.nodup, fun n hn => hgraded.reachable hn, spans, hspans, ?_⟩
  intro scope hscope
  obtain ⟨s, hs, hkept, rfl⟩ := Forest.mem_forestOf.1 hscope
  obtain ⟨chain, hchain, hdepth⟩ := Outline.exists_parentChain hground hs hkept
  refine ⟨⟨chain, hchain⟩, ?_⟩
  intro chain' hchain'
  obtain rfl := hchain.unique hchain'
  have hname : Node.block s.start ∈ (ofOutline (outlineOf (normalize t) ctx spans)).names :=
    mem_names.2 (.inr ⟨s, hs, hkept, rfl⟩)
  rw [← hdepth]
  exact ⟨hgraded.lookup_depths hname Node.noConfusion, rfl⟩

/-- A block at the beginning of a template is not the root, and a block that is
left out counts for nothing beside its neighbour. -/
theorem ofText_tree_left_out :
    ∃ o, Outline.ofText
        "<% loop $A %><% with $Top %>z<% end_with %><% with $B %>w<% end_with %><% end_loop %>"
        Context.base = .ok o ∧
      (ofOutline o).isProperTree = true ∧ (ofOutline o).spansNested = true ∧
      (ofOutline o).names = [.root, .block 0, .block 43] ∧
      List.lookup (.block 43) (ofOutline o).depths = some 2 := by
  have hspans : Markup.spansOf (normalize
      "<% loop $A %><% with $Top %>z<% end_with %><% with $B %>w<% end_with %><% end_loop %>") =
        .ok [⟨⟨.loop, 0, "<% loop $A %>", "$A"⟩, none, 85⟩,
          ⟨⟨.within, 13, "<% with $Top %>", "$Top"⟩, some 0, 43⟩,
          ⟨⟨.within, 43, "<% with $B %>", "$B"⟩, some 0, 71⟩] := by
    refine Markup.spansOf_of_nesting
      (n := .block ⟨.loop, 0, "<% loop $A %>", "$A"⟩
        (.block ⟨.within, 13, "<% with $Top %>", "$Top"⟩ .nil ⟨.within, 29, "<% end_with %>"⟩
          (.block ⟨.within, 43, "<% with $B %>", "$B"⟩ .nil ⟨.within, 57, "<% end_with %>"⟩ .nil))
        ⟨.loop, 71, "<% end_loop %>"⟩ .nil)
      ?_ ?_
    · exact (Markup.tags_eq_of_perm (by decide +kernel) (by decide +kernel)).symm
    · simp only [Nesting.Within]
      decide
  have houtline := Outline.ofText_of_spansOf Context.base hspans (Forest.kept_iff.2 (by decide))
  obtain ⟨htree, hnested, hnames, -, -, spans, hfound, hdepths⟩ := ofText_tree houtline
  rw [hspans, Except.ok.injEq] at hfound
  subst hfound
  obtain ⟨⟨chain, hchain⟩, hdepth⟩ := hdepths
    (Forest.scopeOf _ Context.base _ ⟨⟨.within, 43, "<% with $B %>", "$B"⟩, some 0, 71⟩)
    (Forest.mem_forestOf.2 ⟨_, List.mem_cons_of_mem _ (List.mem_cons_of_mem _
      (List.mem_singleton_self _)), by decide, rfl⟩)
  obtain ⟨hlookup, hcount⟩ := hdepth chain hchain
  refine ⟨_, houtline, htree, hnested, hnames.trans (by decide), hlookup.trans ?_⟩
  rw [hcount]
  decide

end TemplateScopes.BlockGraph
