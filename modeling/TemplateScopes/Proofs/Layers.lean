import Mathlib.Data.List.Nodup
import Mathlib.Logic.Relation
import TemplateScopes.Graph.Basic

/-!
# The layers of a graph

A search from the root finds the nodes of a graph layer by layer.  Where the
nodes have ranks, and every edge goes up by one rank, the layers are the
ranks.

There are two groups.

* Searches.  `BlockGraph.Climbs` says that a search finds every node from the
  rank below, and `layersFrom_eq` that its layers are the ranks then.
* Ranks.  `BlockGraph.Graded` is a graph whose nodes have ranks.  It is
  connected, and `depths` has the rank of every node.
-/

namespace TemplateScopes.BlockGraph

/-! ## Searches -/

section Search

variable {next : Node → List Node} {names : List Node} {rank : Node → Nat}

/-- Whether a search finds every node from one of the rank below, and from no
node of a lower rank. -/
structure Climbs (next : Node → List Node) (names : List Node) (rank : Node → Nat) : Prop where
  step : ∀ m ∈ names, ∀ n ∈ names, n ∈ next m → rank n ≤ rank m + 1
  found : ∀ n ∈ names, 0 < rank n → ∃ m ∈ names, rank n = rank m + 1 ∧ n ∈ next m

theorem layersFrom_eq (h : Climbs next names rank) (rounds k : Nat) :
    layersFrom next rounds (names.filter fun n => rank n = k) (names.filter fun n => k < rank n) =
      (List.range' k (rounds + 1)).map fun j => names.filter fun n => rank n = j := by
  induction rounds generalizing k with
  | zero => rfl
  | succ rounds ih =>
    have hthere : (names.filter fun n => k < rank n).filter
        (fun n => (names.filter fun m => rank m = k).any fun m => n ∈ next m) =
          names.filter fun n => rank n = k + 1 := by
      rw [List.filter_filter]
      refine List.filter_congr fun n hn => ?_
      rw [Bool.eq_iff_iff]
      simp only [Bool.and_eq_true, List.any_eq_true, List.mem_filter, decide_eq_true_eq]
      constructor
      · intro hboth
        obtain ⟨⟨m, ⟨hm, rfl⟩, hnext⟩, hlt⟩ := hboth
        have hle := h.step m hm n hn hnext
        omega
      · intro hrank
        obtain ⟨m, hm, heq, hnext⟩ := h.found n hn (by omega)
        exact ⟨⟨m, ⟨hm, by omega⟩, hnext⟩, by omega⟩
    have hrest : (names.filter fun n => k < rank n).filter
        (fun n => n ∉ names.filter fun n => rank n = k + 1) =
          names.filter fun n => k + 1 < rank n := by
      rw [List.filter_filter]
      refine List.filter_congr fun n hn => ?_
      rw [Bool.eq_iff_iff]
      simp only [Bool.and_eq_true, List.mem_filter, decide_eq_true_eq, hn, true_and]
      omega
    simp only [layersFrom, hthere, hrest, ih (k + 1)]
    rfl

end Search

/-! ## Ranks -/

/-- Whether the root is the only node of rank 0, and every other node has an
edge into it, from the rank below. -/
structure Graded (g : BlockGraph) (rank : Node → Nat) : Prop where
  head : g.names.head? = some .root
  nodup : g.names.Nodup
  rank_root : rank .root = 0
  rank_pos : ∀ n ∈ g.names, n ≠ .root → 0 < rank n
  rank_le : ∀ n ∈ g.names, rank n ≤ g.nodes.length
  edge : ∀ a b, (a, b) ∈ g.edges → rank b = rank a + 1
  into : ∀ b ∈ g.names, b ≠ .root → ∃ a ∈ g.names, (a, b) ∈ g.edges

theorem mem_successors {g : BlockGraph} {m n : Node} : n ∈ g.successors m ↔ (m, n) ∈ g.edges := by
  simp [successors]

theorem mem_neighbours {g : BlockGraph} {m n : Node} :
    n ∈ g.neighbours m ↔ (m, n) ∈ g.edges ∨ (n, m) ∈ g.edges := by
  simp [neighbours, mem_successors]

theorem zipIdx_map_range' {α : Type} (f : Nat → α) (first count : Nat) :
    ((List.range' first count).map f).zipIdx first =
      (List.range' first count).map fun j => (f j, j) := by
  induction count generalizing first with
  | zero => rfl
  | succ count ih =>
    rw [List.range'_succ, List.map_cons, List.map_cons, List.zipIdx_cons, ih]

/-- A pair is found by its first part if no other pair has it. -/
theorem lookup_eq_some {α β : Type} [DecidableEq α] {l : List (α × β)} {a : α} {b : β}
    (hmem : (a, b) ∈ l) (honly : ∀ b', (a, b') ∈ l → b' = b) : List.lookup a l = some b := by
  induction l with
  | nil => cases hmem
  | cons first rest ih =>
    obtain ⟨a', b'⟩ := first
    rw [List.lookup_cons]
    by_cases heq : a = a'
    · subst heq
      rw [beq_self_eq_true, honly b' List.mem_cons_self]
    · rw [beq_eq_false_iff_ne.2 heq]
      refine ih ?_ fun b'' hb'' => honly b'' (List.mem_cons_of_mem _ hb'')
      rcases List.mem_cons.1 hmem with hfirst | hrest
      · exact absurd (congrArg Prod.fst hfirst) heq
      · exact hrest

namespace Graded

variable {g : BlockGraph} {rank : Node → Nat} {next : Node → List Node} {n : Node}

theorem rank_pos_iff (h : g.Graded rank) (hn : n ∈ g.names) : 0 < rank n ↔ n ≠ .root := by
  constructor
  · intro hpos heq
    rw [heq, h.rank_root] at hpos
    exact Nat.lt_irrefl 0 hpos
  · exact h.rank_pos n hn

theorem climbs_successors (h : g.Graded rank) : Climbs g.successors g.names rank := by
  constructor
  · intro m _ n _ hnext
    exact Nat.le_of_eq (h.edge m n (mem_successors.1 hnext))
  · intro n hn hpos
    obtain ⟨m, hm, hedge⟩ := h.into n hn ((h.rank_pos_iff hn).1 hpos)
    exact ⟨m, hm, h.edge m n hedge, mem_successors.2 hedge⟩

theorem climbs_neighbours (h : g.Graded rank) : Climbs g.neighbours g.names rank := by
  constructor
  · intro m _ n _ hnext
    rcases mem_neighbours.1 hnext with hedge | hedge
    · exact Nat.le_of_eq (h.edge m n hedge)
    · have hrank := h.edge n m hedge
      omega
  · intro n hn hpos
    obtain ⟨m, hm, hrank, hnext⟩ := h.climbs_successors.found n hn hpos
    exact ⟨m, hm, hrank, List.mem_append_left _ hnext⟩

/-- The layers are the ranks. -/
theorem layers_eq (h : g.Graded rank) (hnext : Climbs next g.names rank) :
    g.layers next .root =
      (List.range' 0 (g.nodes.length + 1)).map fun j => g.names.filter fun n => rank n = j := by
  obtain ⟨rest, hnames⟩ := List.head?_eq_some_iff.1 h.head
  have hnodup := h.nodup
  rw [hnames, List.nodup_cons] at hnodup
  have hroot : g.names.filter (fun n => rank n = 0) = [.root] := by
    have hnone : rest.filter (fun n => rank n = 0) = [] := by
      refine List.filter_eq_nil_iff.2 fun n hn hzero => ?_
      have hmem : n ∈ g.names := hnames ▸ List.mem_cons_of_mem _ hn
      have hpos := h.rank_pos n hmem fun heq => hnodup.1 (heq ▸ hn)
      rw [of_decide_eq_true hzero] at hpos
      exact Nat.lt_irrefl 0 hpos
    rw [hnames, List.filter_cons, if_pos (decide_eq_true h.rank_root), hnone]
  have hothers : g.names.filter (fun n => n ≠ .root) = g.names.filter fun n => 0 < rank n :=
    List.filter_congr fun n hn => decide_eq_decide.2 (h.rank_pos_iff hn).symm
  unfold layers
  rw [hothers, ← hroot, layersFrom_eq hnext]

/-- The distance of a node from the root is its rank. -/
theorem mem_depths_iff (h : g.Graded rank) {d : Nat} :
    (n, d) ∈ g.depths ↔ n ∈ g.names ∧ n ≠ .root ∧ rank n = d := by
  unfold depths
  rw [h.layers_eq h.climbs_successors, zipIdx_map_range', List.range'_succ, List.map_cons,
    List.drop_succ_cons, List.drop_zero]
  simp only [List.mem_flatMap, List.mem_map, List.mem_range'_1, Prod.mk.injEq]
  constructor
  · intro hmem
    obtain ⟨layer, ⟨j, ⟨hpos, -⟩, rfl⟩, m, hm, rfl, rfl⟩ := hmem
    obtain ⟨hm, hrank⟩ := List.mem_filter.1 hm
    have heq := of_decide_eq_true hrank
    refine ⟨hm, (h.rank_pos_iff hm).1 ?_, heq⟩
    omega
  · intro hall
    obtain ⟨hn, hroot, rfl⟩ := hall
    have hpos := h.rank_pos n hn hroot
    have hle := h.rank_le n hn
    exact ⟨_, ⟨rank n, ⟨by omega, by omega⟩, rfl⟩, n,
      List.mem_filter.2 ⟨hn, decide_eq_true rfl⟩, rfl, rfl⟩

theorem lookup_depths (h : g.Graded rank) (hn : n ∈ g.names) (hroot : n ≠ .root) :
    List.lookup n g.depths = some (rank n) :=
  lookup_eq_some (h.mem_depths_iff.2 ⟨hn, hroot, rfl⟩) fun _ hmem =>
    (h.mem_depths_iff.1 hmem).2.2.symm

theorem isConnected (h : g.Graded rank) : g.isConnected = true := by
  obtain ⟨rest, hnames⟩ := List.head?_eq_some_iff.1 h.head
  unfold BlockGraph.isConnected
  rw [hnames]
  simp only [List.all_eq_true, List.contains_iff_mem]
  intro n hn
  have hmem : n ∈ g.names := hnames ▸ List.mem_cons_of_mem _ hn
  have hle := h.rank_le n hmem
  rw [h.layers_eq h.climbs_neighbours, List.mem_flatten]
  refine ⟨_, List.mem_map_of_mem (List.mem_range'_1.2 ⟨Nat.zero_le (rank n), by omega⟩), ?_⟩
  exact List.mem_filter.2 ⟨hmem, decide_eq_true rfl⟩

/-- Every node is reached from the root along edges. -/
theorem reachable (h : g.Graded rank) (hn : n ∈ g.names) :
    Relation.ReflTransGen (fun a b => (a, b) ∈ g.edges) .root n := by
  induction hrank : rank n generalizing n with
  | zero =>
    have heq : n = .root := by
      by_contra hne
      have hpos := h.rank_pos n hn hne
      omega
    rw [heq]
  | succ k ih =>
    obtain ⟨m, hm, heq, hnext⟩ := h.climbs_successors.found n hn (by omega)
    exact (ih hm (by omega)).tail (mem_successors.1 hnext)

end Graded

end TemplateScopes.BlockGraph
