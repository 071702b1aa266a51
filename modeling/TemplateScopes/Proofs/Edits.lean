import TemplateScopes.Proofs.Tree

/-!
# Graphs under edits

A graph of blocks may be changed after it was built: edges come and go,
blocks go with their edges, and what a node stands for is set anew.  The
root is never removed.

There are three groups.

* Edits.  `BlockGraph.edited` makes changes one after the other.
* What every edit keeps.  `WellFormed` says that a graph names each of its
  nodes once and has each of its edges once.  `wellFormed_ofOutline` holds
  of the graph of an outline, `WellFormed.edit` is the step, and
  `wellFormed_edited` holds after any edits.
* Small templates.  `Outline.ofText_of_tags` gives an outline by its tags, and
  three templates have theirs, whose graphs are edited and drawn elsewhere.
-/

namespace TemplateScopes

namespace BlockGraph

/-! ## Edits -/

/-- A change of a graph.  Only nodes of the graph get edges, and the root
stays. -/
inductive Edit where
  | addEdge (a b : Node)
  | removeEdge (a b : Node)
  | removeBlock (id : Nat)
  | setInfo (n : Node) (change : NodeInfo → NodeInfo)

/-- Makes one change. -/
def edit (g : BlockGraph) : Edit → BlockGraph
  | .addEdge a b => g.addEdge a b
  | .removeEdge a b => g.removeEdge a b
  | .removeBlock id => g.removeNode (.block id)
  | .setInfo n change => g.setInfo n change

/-- Makes changes one after the other. -/
def edited (g : BlockGraph) (edits : List Edit) : BlockGraph :=
  edits.foldl edit g

/-! ## What every edit keeps -/

/-- Whether a graph has a root, names each of its nodes once, and has each
of its edges once, between its nodes. -/
structure WellFormed (g : BlockGraph) : Prop where
  root : .root ∈ g.names
  names : g.names.Nodup
  edges : g.edges.Nodup
  ends : ∀ a b, (a, b) ∈ g.edges → a ∈ g.names ∧ b ∈ g.names

theorem names_setInfo (g : BlockGraph) (n : Node) (change : NodeInfo → NodeInfo) :
    (g.setInfo n change).names = g.names := by
  unfold names setInfo
  rw [List.map_map]
  refine List.map_congr_left fun entry _ => ?_
  show (if entry.1 = n then _ else _ : Node × NodeInfo).1 = entry.1
  split <;> rfl

theorem names_removeNode (g : BlockGraph) (n : Node) :
    (g.removeNode n).names = g.names.filter fun m => m ≠ n := by
  unfold names removeNode
  rw [List.filter_map]
  rfl

/-- One edit keeps a graph well-formed. -/
theorem WellFormed.edit {g : BlockGraph} (h : g.WellFormed) (e : Edit) :
    (g.edit e).WellFormed := by
  cases e with
  | addEdge a b =>
    show (g.addEdge a b).WellFormed
    unfold addEdge
    split_ifs with hskip
    · exact h
    · simp only [not_or, not_not] at hskip
      obtain ⟨hnew, ha, hb⟩ := hskip
      refine ⟨h.root, h.names, ?_, ?_⟩
      · exact List.nodup_append.2 ⟨h.edges, List.nodup_singleton _, fun e he e' he' heq =>
          hnew (List.mem_singleton.1 he' ▸ heq ▸ he)⟩
      · intro x y hxy
        rcases List.mem_append.1 hxy with hold | hadded
        · exact h.ends x y hold
        · cases List.mem_singleton.1 hadded
          exact ⟨ha, hb⟩
  | removeEdge a b =>
    exact ⟨h.root, h.names, h.edges.filter _, fun x y hxy => h.ends x y (List.mem_filter.1 hxy).1⟩
  | removeBlock id =>
    show (g.removeNode (.block id)).WellFormed
    refine ⟨?_, ?_, h.edges.filter _, ?_⟩
    · rw [names_removeNode]
      exact List.mem_filter.2 ⟨h.root, rfl⟩
    · rw [names_removeNode]
      exact h.names.filter _
    · intro x y hxy
      obtain ⟨hold, hkept⟩ := List.mem_filter.1 hxy
      have hends := h.ends x y hold
      simp only [decide_eq_true_eq] at hkept
      rw [names_removeNode]
      exact ⟨List.mem_filter.2 ⟨hends.1, decide_eq_true hkept.1⟩,
        List.mem_filter.2 ⟨hends.2, decide_eq_true hkept.2⟩⟩
  | setInfo n change =>
    show (g.setInfo n change).WellFormed
    refine ⟨?_, ?_, h.edges, ?_⟩
    · rw [names_setInfo]
      exact h.root
    · rw [names_setInfo]
      exact h.names
    · rw [names_setInfo]
      exact h.ends

/-- Any edits keep a graph well-formed. -/
theorem WellFormed.edited {g : BlockGraph} (h : g.WellFormed) (edits : List Edit) :
    (g.edited edits).WellFormed := by
  induction edits generalizing g with
  | nil => exact h
  | cons e rest ih => exact ih (h.edit e)

theorem wellFormed_ofOutline {t : Text} {ctx : Context} {o : Outline}
    (h : Outline.ofText t ctx = .ok o) : (ofOutline o).WellFormed := by
  obtain ⟨spans, hground, rfl⟩ := Outline.grounded_of_ofText h
  have hgraded := graded_ofOutline hground
  refine ⟨mem_names.2 (.inl rfl), hgraded.nodup, ?_, ?_⟩
  · -- No two edges lead to the same block.
    refine List.Nodup.of_map Prod.snd ?_
    unfold ofOutline
    rw [List.map_map]
    exact nodup_blocks hground.toPairsUp
  · intro a b hedge
    obtain ⟨s, hs, hkept, rfl, rfl⟩ := mem_edges.1 hedge
    exact ⟨(parentNode_scopeOf hground hs hkept).1, mem_names.2 (.inr ⟨s, hs, hkept, rfl⟩)⟩

/-- The graph of a template is well-formed after any edits. -/
theorem wellFormed_edited {t : Text} {ctx : Context} {o : Outline}
    (h : Outline.ofText t ctx = .ok o) (edits : List Edit) :
    ((ofOutline o).edited edits).WellFormed :=
  (wellFormed_ofOutline h).edited edits

end BlockGraph

/-! ## Small templates -/

namespace Outline

/-- The tags of a text, nested as they are, give its outline. -/
theorem ofText_of_tags {t : Text} {ctx : Context} (n : Nesting)
    (htags : n.tags.Perm ((Markup.openTags (normalize t)).map .opening ++
      (Markup.closeTags (normalize t)).map .closing))
    (hsorted : n.tags.Pairwise fun a b => a.offset < b.offset)
    (hkept : ∀ s ∈ n.spans none, ∀ q ∈ n.spans none, s.parent = some q.start →
      Forest.addressable ctx s = true → Forest.addressable ctx q = true) :
    ofText t ctx = .ok (outlineOf (normalize t) ctx (n.spans none)) := by
  apply ofText_of_spansOf ctx
  · exact Markup.spansOf_of_tags (Markup.tags_eq_of_perm htags hsorted).symm
  · exact Forest.kept_iff.2 hkept

theorem ofText_one_block :
    ofText "<% loop $A %><% end_loop %>" Context.base =
      .ok (outlineOf (normalize "<% loop $A %><% end_loop %>") Context.base
        [⟨⟨.loop, 0, "<% loop $A %>", "$A"⟩, none, 27⟩]) :=
  ofText_of_tags (.block ⟨.loop, 0, "<% loop $A %>", "$A"⟩ .nil ⟨.loop, 13, "<% end_loop %>"⟩ .nil)
    (by decide) (by decide) (by decide)

theorem ofText_filled_block :
    ofText "<% loop $A %>text<% end_loop %>" Context.base =
      .ok (outlineOf (normalize "<% loop $A %>text<% end_loop %>") Context.base
        [⟨⟨.loop, 0, "<% loop $A %>", "$A"⟩, none, 31⟩]) :=
  ofText_of_tags (.block ⟨.loop, 0, "<% loop $A %>", "$A"⟩ .nil ⟨.loop, 17, "<% end_loop %>"⟩ .nil)
    (by decide) (by decide) (by decide)

theorem ofText_two_blocks :
    ofText "<% loop $A %><% end_loop %><% with $B %><% end_with %>" Context.base =
      .ok (outlineOf (normalize "<% loop $A %><% end_loop %><% with $B %><% end_with %>")
        Context.base [⟨⟨.loop, 0, "<% loop $A %>", "$A"⟩, none, 27⟩,
          ⟨⟨.within, 27, "<% with $B %>", "$B"⟩, none, 54⟩]) :=
  ofText_of_tags
    (.block ⟨.loop, 0, "<% loop $A %>", "$A"⟩ .nil ⟨.loop, 13, "<% end_loop %>"⟩
      (.block ⟨.within, 27, "<% with $B %>", "$B"⟩ .nil ⟨.within, 40, "<% end_with %>"⟩ .nil))
    (by decide) (by decide) (by decide)

end Outline

end TemplateScopes
