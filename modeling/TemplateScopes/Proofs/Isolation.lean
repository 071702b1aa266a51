import TemplateScopes.Proofs.Shift

/-!
# Scopes do not leak

What a scope uses depends on its own gaps only.  So a change in one gap of a
template is seen by the innermost scope around that gap, and by no other
one.

There are four groups.

* Uses.  A scope uses what its kind, the names of its children and the
  readings of its own text say (`sameUse_of`).
* Gaps away from a gap.  A scope whose own gaps do not hold the gap has them
  away from it (`away_of_mem_ownGaps`).
* Shifted scopes.  A scope that does not own the gap uses the same in both
  texts (`sameUse_scopeOf`, `sameUse_root`).
* The outline.  `Outline.AgreesBut` compares two outlines, and
  `ofText_isolates` is the result.
-/

namespace TemplateScopes

open Markup

/-! ## Uses -/

/-- Whether a gap stands in the contents of a scope. -/
def Scope.Holds (s : Scope) (gap : Nat × Nat) : Prop :=
  s.innerStart ≤ gap.1 ∧ gap.2 ≤ s.innerStop

instance (s : Scope) (gap : Nat × Nat) : Decidable (s.Holds gap) :=
  inferInstanceAs (Decidable (_ ∧ _))

namespace Outline

/-- Whether a scope is the innermost one that holds a gap. -/
structure OwnsGap (o : Outline) (gap : Nat × Nat) (s : Scope) : Prop where
  mem : s ∈ o.scopes
  holds : s.Holds gap
  innermost : ∀ q ∈ o.scopes, q.Holds gap → q.start ≤ s.start ∧ s.stop ≤ q.stop

/-- Whether two scopes use the same variables, with the same types, and the
same conditions. -/
structure SameUse (o : Outline) (s : Scope) (o' : Outline) (s' : Scope) : Prop where
  varTypes : o.varTypes s = o'.varTypes s'
  conditions : o.conditions s = o'.conditions s'

/-- Whether two outlines have the same scopes, which use the same unless
they own the gap.  The root owns the gaps that no scope holds. -/
structure AgreesBut (gap : Nat × Nat) (o o' : Outline) : Prop where
  scopes : List.Forall₂ (fun s s' => s.kind = s'.kind ∧ s.name = s'.name ∧
    s.opening = s'.opening ∧ (¬ o.OwnsGap gap s → SameUse o s o' s')) o.scopes o'.scopes
  root : (∃ s ∈ o.scopes, s.Holds gap) → SameUse o o.root o' o'.root

theorem anyNamed_eq (blocks : List Block) (name : Text) :
    Block.anyNamed blocks name = (blocks.map Block.name).any fun n => n = name := by
  rw [List.any_map]
  rfl

theorem sameUse_of {o o' : Outline} {s s' : Scope} (hcontext : o.context = o'.context)
    (hkind : s.kind = s'.kind) (hnames : o.scopes.map (·.name) = o'.scopes.map (·.name))
    (hkids : (o.forest.kids s).map (·.name) = (o'.forest.kids s').map (·.name))
    (hlabels : Condition.labels (o.own s) = Condition.labels (o'.own s'))
    (hpaths : Variable.paths (o.own s) = Variable.paths (o'.own s')) :
    SameUse o s o' s' := by
  have hname : o.hasName = o'.hasName := by
    funext name
    have hany : ∀ p : Outline, p.hasName name = (p.scopes.map (·.name)).any fun n => n = name := by
      intro p
      rw [List.any_map]
      rfl
    rw [hany, hany, hnames]
  have hchild : Block.anyNamed (o.forest.kidBlocks s) =
      Block.anyNamed (o'.forest.kidBlocks s') := by
    funext name
    have hblocks : ∀ (p : Outline) (q : Scope),
        (p.forest.kidBlocks q).map Block.name = (p.forest.kids q).map (·.name) :=
      fun p q => List.map_map
    rw [anyNamed_eq, anyNamed_eq, hblocks, hblocks, hkids]
  have hconditions : o.conditions s = o'.conditions s' := by
    show ((Condition.labels (o.own s)).filter _).eraseDups =
      ((Condition.labels (o'.own s')).filter _).eraseDups
    rw [hlabels, hcontext, hname]
  refine ⟨?_, hconditions⟩
  show Usage.variableTypes o.context s.kind (Block.anyNamed (o.forest.kidBlocks s))
      (o.conditions s) (o.own s) =
    Usage.variableTypes o'.context s'.kind (Block.anyNamed (o'.forest.kidBlocks s'))
      (o'.conditions s') (o'.own s')
  unfold Usage.variableTypes Usage.scanVariables
  rw [hpaths, hconditions, hkind, hchild, hcontext]

end Outline

/-- The children of the root are the top-level blocks. -/
theorem Outline.kids_root {code : Text} {ctx : Context} {spans : List Span}
    (hascending : spans.Pairwise fun a b => a.start < b.start) :
    (outlineOf code ctx spans).forest.kids (outlineOf code ctx spans).root =
      (Forest.topOf ctx spans).map (Forest.scopeOf code ctx spans) := by
  have hids : (outlineOf code ctx spans).topLevel.map Scope.id =
      (Forest.topOf ctx spans).map Span.start := by
    rw [topLevel_outlineOf, List.map_map]
    rfl
  show (Forest.forestOf code ctx spans).named ((outlineOf code ctx spans).topLevel.map _) = _
  rw [hids]
  apply Forest.named_starts hascending
  intro c hc
  obtain ⟨hc, haddressable, -⟩ := Forest.mem_topOf.1 hc
  exact ⟨hc, haddressable⟩

/-! ## Gaps away from a gap -/

/-- Whether a range stands in front of the gap of the shift or behind
it. -/
def Shift.Away (f : Shift) (range : Nat × Nat) : Prop :=
  range.1 ≤ range.2 ∧ (range.2 < f.start ∨ f.stop < range.1)

section Away

variable {code code' : Text} {ctx : Context} {spans : List Span} {s m k : Span} {f : Shift}
  {range : Nat × Nat}

/-- A block does not hold a gap that lies in a range apart from the block or
from a block around it. -/
theorem Markup.PairsUp.not_holds (h : PairsUp code spans) (hm : m ∈ spans)
    (hover : k = m ∨ k.Encloses m) (hapart : k.stop ≤ range.1 ∨ range.2 ≤ k.start)
    (hlo : range.1 ≤ f.start) (hhi : f.stop ≤ range.2) :
    ¬ (Forest.scopeOf code ctx spans m).Holds (f.start, f.stop) := by
  have hroom := h.room m hm
  have hlength := Closing.length_pos
  have hle := f.le
  have hstart : k.start ≤ m.start ∧ m.stop ≤ k.stop := by
    rcases hover with rfl | henc
    · exact ⟨Nat.le_refl _, Nat.le_refl _⟩
    · exact ⟨Nat.le_of_lt henc.1, Nat.le_of_lt henc.2⟩
  intro hholds
  replace hholds : m.opener.stop ≤ f.start ∧ f.stop ≤ m.stop - Closing.length := hholds
  omega

/-- The gap between the children of a block in which a gap stands makes the
block the owner. -/
theorem ownsGap_of_mem_ownGaps (h : Forest.Grounded code ctx spans) (hs : s ∈ spans)
    (hkept : Forest.addressable ctx s = true) (hrange : range ∈ Forest.ownGaps ctx spans s)
    (hlo : range.1 ≤ f.start) (hhi : f.stop ≤ range.2) :
    (Outline.outlineOf code ctx spans).OwnsGap (f.start, f.stop)
      (Forest.scopeOf code ctx spans s) := by
  have hrow : Text.Row _ _ ((Forest.childrenOf ctx spans s).map Span.range) :=
    Forest.row_childrenOf h.toPairsUp hs
  have hbegin := hrow.le_of_mem_gaps hrange
  have hend := hrow.le_stop_of_mem_gaps hrange
  have hapart := (Text.gap_of_mem_gaps hrow hrange).apart
  have hroom := h.room s hs
  have hlength := Closing.length_pos
  have hle := f.le
  refine ⟨Forest.mem_forestOf.2 ⟨s, hs, hkept, rfl⟩, ?_, ?_⟩
  · show s.opener.stop ≤ f.start ∧ f.stop ≤ s.stop - Closing.length
    omega
  · intro q hq hholds
    obtain ⟨m, hm, hkeptm, rfl⟩ := Forest.mem_forestOf.1 hq
    have hroomm := h.room m hm
    have hplace : m.opener.stop ≤ f.start ∧ f.stop ≤ m.stop - Closing.length := hholds
    have hcovers : s.Covers f.start ∧ m.Covers f.start := by
      unfold Span.Covers
      omega
    show m.start ≤ s.start ∧ s.stop ≤ m.stop
    rcases h.eq_or_encloses hs hm hcovers.1 hcovers.2 with rfl | henc | henc
    · exact ⟨Nat.le_refl _, Nat.le_refl _⟩
    · obtain ⟨k, hk, hover⟩ := h.exists_child_around hs hm hkeptm henc
      have hapartk := hapart _ (List.mem_map_of_mem hk)
      exact absurd hholds (h.not_holds hm hover hapartk hlo hhi)
    · exact ⟨Nat.le_of_lt henc.1, Nat.le_of_lt henc.2⟩

/-- What does not hold the gap of the shift is away from it, if it begins
and ends at tags. -/
theorem away_of_gap {position stop : Nat} {ranges : List (Nat × Nat)}
    (hgap : Text.Gap position stop ranges range)
    (hposition : position ≤ f.start ∨ f.stop < position) (hstop : stop < f.start ∨ f.stop ≤ stop)
    (hranges : ∀ r ∈ ranges, (r.1 < f.start ∨ f.stop ≤ r.1) ∧ (r.2 ≤ f.start ∨ f.stop < r.2))
    (hnot : ¬ (range.1 ≤ f.start ∧ f.stop ≤ range.2)) : f.Away range := by
  have hlo : range.1 ≤ f.start ∨ f.stop < range.1 := by
    rcases hgap.left with heq | ⟨r, hr, heq⟩
    · rwa [heq]
    · rw [heq]
      exact (hranges r hr).2
  have hhi : range.2 < f.start ∨ f.stop ≤ range.2 := by
    rcases hgap.right with heq | ⟨r, hr, heq⟩
    · rwa [heq]
    · rw [heq]
      exact (hranges r hr).1
  have hle := hgap.le
  refine ⟨hle, ?_⟩
  omega

end Away

namespace Shift.Carries

variable {code code' : Text} {ctx : Context} {spans : List Span} {s : Span} {f : Shift}
  {range : Nat × Nat}

theorem clear_range (h : f.Carries code code') (hpairs : PairsUp code spans) (hs : s ∈ spans) :
    (s.range.1 < f.start ∨ f.stop ≤ s.range.1) ∧ (s.range.2 ≤ f.start ∨ f.stop < s.range.2) := by
  have hroom := hpairs.room s hs
  have hlength := Closing.length_pos
  have hstop := (h.clear_span hpairs hs).2
  refine ⟨h.clear_start hpairs hs, ?_⟩
  show s.stop ≤ f.start ∨ f.stop < s.stop
  omega

/-- A block that does not own the gap has all its own gaps away from it. -/
theorem away_of_mem_ownGaps (h : f.Carries code code') (hground : Forest.Grounded code ctx spans)
    (hs : s ∈ spans) (hkept : Forest.addressable ctx s = true)
    (hfree : ¬ (Outline.outlineOf code ctx spans).OwnsGap (f.start, f.stop)
      (Forest.scopeOf code ctx spans s))
    (hrange : range ∈ Forest.ownGaps ctx spans s) : f.Away range := by
  have hroom := hground.room s hs
  have hlength := Closing.length_pos
  have hle := f.le
  obtain ⟨hopener, hstop⟩ := h.clear_span hground.toPairsUp hs
  apply away_of_gap (Text.gap_of_mem_gaps (Forest.row_childrenOf hground.toPairsUp hs) hrange)
  · omega
  · omega
  · intro r hr
    obtain ⟨c, hc, rfl⟩ := List.mem_map.1 hr
    exact h.clear_range hground.toPairsUp (Forest.mem_childrenOf.1 hc).1
  · intro hin
    exact hfree (ownsGap_of_mem_ownGaps hground hs hkept hrange hin.1 hin.2)

/-- If a scope holds the gap, then the gaps of the root are away from
it. -/
theorem away_of_mem_rootGaps (h : f.Carries code code')
    (hground : Forest.Grounded code ctx spans) {m : Span} (hm : m ∈ spans)
    (hkept : Forest.addressable ctx m = true)
    (hholds : (Forest.scopeOf code ctx spans m).Holds (f.start, f.stop))
    (hrange : range ∈ Forest.rootGaps code ctx spans) : f.Away range := by
  have hstop := h.stop_le
  obtain ⟨k, hk, hkeptk, hparent, hover⟩ := hground.exists_top_around hm hkept
  have hktop : k ∈ Forest.topOf ctx spans := Forest.mem_topOf.2 ⟨hk, hkeptk, hparent⟩
  have hgap := Text.gap_of_mem_gaps (Forest.row_topOf hground.toPairsUp) hrange
  apply away_of_gap hgap
  · omega
  · omega
  · intro r hr
    obtain ⟨c, hc, rfl⟩ := List.mem_map.1 hr
    exact h.clear_range hground.toPairsUp (Forest.mem_topOf.1 hc).1
  · intro hin
    have hapart := hgap.apart _ (List.mem_map_of_mem hktop)
    exact hground.not_holds hm hover hapart hin.1 hin.2 hholds

/-! ## Shifted scopes -/

/-- The ranges of shifted blocks. -/
theorem map_range (h : f.Carries code code') (hpairs : PairsUp code spans) {l : List Span}
    (hl : ∀ c ∈ l, c ∈ spans) :
    (l.map f.span).map Span.range =
      (l.map Span.range).map fun r => (f.ofStart r.1, f.ofStop r.2) := by
  rw [List.map_map, List.map_map]
  refine List.map_congr_left ?_
  intro c hc
  exact congrArg (Prod.mk (f.ofStart c.start)) (h.span_stop hpairs (hl c hc))

theorem ownGaps_span (h : f.Carries code code') (hpairs : PairsUp code spans) (hs : s ∈ spans) :
    Forest.ownGaps ctx (spans.map f.span) (f.span s) =
      (Forest.ownGaps ctx spans s).map fun gap => (f.ofStop gap.1, f.ofStart gap.2) := by
  have hchildren : Forest.childrenOf ctx (spans.map f.span) (f.span s) =
      (Forest.childrenOf ctx spans s).map f.span :=
    Forest.childrenOf_moved (h.follows hpairs) hs
  unfold Forest.ownGaps
  rw [hchildren, h.map_range hpairs fun c hc => (Forest.mem_childrenOf.1 hc).1,
    h.opener_stop hpairs hs, innerStop_span, Text.gaps_map]

theorem topOf_span : Forest.topOf ctx (spans.map f.span) = (Forest.topOf ctx spans).map f.span := by
  have hnone : ∀ c : Span, (f.span c).parent.isNone = c.parent.isNone := fun c => Option.isNone_map
  unfold Forest.topOf
  rw [List.filter_map]
  congr 1
  refine List.filter_congr ?_
  intro c _
  rw [Function.comp_apply, hnone]
  rfl

theorem rootGaps_span (h : f.Carries code code') (hpairs : PairsUp code spans) :
    Forest.rootGaps code' ctx (spans.map f.span) =
      (Forest.rootGaps code ctx spans).map fun gap => (f.ofStop gap.1, f.ofStart gap.2) := by
  have hzero : 0 = f.ofStop 0 := (ofStop_of_le (Nat.zero_le _)).symm
  unfold Forest.rootGaps
  rw [topOf_span, h.map_range hpairs fun c hc => (Forest.mem_topOf.1 hc).1, h.length_eq, hzero,
    Text.gaps_map, ← hzero]

/-- What stands in gaps away from the gap of the shift stands in both
texts. -/
theorem flatMap_slice (h : f.Carries code code') {β : Type} (read : Text → List β)
    {ranges : List (Nat × Nat)} (haway : ∀ r ∈ ranges, f.Away r) :
    ((ranges.map fun gap => (f.ofStop gap.1, f.ofStart gap.2)).flatMap fun gap =>
        read (code'.slice gap.1 gap.2)) =
      ranges.flatMap fun gap => read (code.slice gap.1 gap.2) := by
  rw [List.flatMap_map]
  refine List.flatMap_congr ?_
  intro r hr
  rw [h.slice_eq (haway r hr).1 (haway r hr).2]

theorem map_name (l : List Span) (spans' : List Span) :
    ((l.map f.span).map (Forest.scopeOf code' ctx spans')).map (·.name) =
      (l.map (Forest.scopeOf code ctx spans)).map (·.name) := by
  rw [List.map_map, List.map_map, List.map_map]
  rfl

theorem map_name_scopes :
    (Outline.outlineOf code ctx spans).scopes.map (·.name) =
      (Outline.outlineOf code' ctx (spans.map f.span)).scopes.map (·.name) := by
  show ((spans.filter _).map _).map _ = (((spans.map f.span).filter _).map _).map _
  rw [List.filter_map]
  exact (map_name _ _).symm

/-- A scope that does not own the gap uses the same in both texts. -/
theorem sameUse_scopeOf (h : f.Carries code code') (hspans : Markup.spansOf code = .ok spans)
    (hkept : ∀ s q, ¬ Forest.Orphan ctx spans s q) (hs : s ∈ spans)
    (haddressable : Forest.addressable ctx s = true)
    (hfree : ¬ (Outline.outlineOf code ctx spans).OwnsGap (f.start, f.stop)
      (Forest.scopeOf code ctx spans s)) :
    Outline.SameUse (Outline.outlineOf code ctx spans) (Forest.scopeOf code ctx spans s)
      (Outline.outlineOf code' ctx (spans.map f.span))
      (Forest.scopeOf code' ctx (spans.map f.span) (f.span s)) := by
  have hpairs := pairsUp_of_spansOf hspans
  have hpairs' := pairsUp_of_spansOf (h.spansOf hspans)
  have hs' : f.span s ∈ spans.map f.span := List.mem_map_of_mem hs
  have haway : ∀ r ∈ Forest.ownGaps ctx spans s, f.Away r :=
    fun r hr => h.away_of_mem_ownGaps ⟨hpairs, hkept⟩ hs haddressable hfree hr
  have hread : ∀ {β : Type} {read : Text → List β}, Text.Linewise read →
      read ((Outline.outlineOf code ctx spans).own (Forest.scopeOf code ctx spans s)) =
        read ((Outline.outlineOf code' ctx (spans.map f.span)).own
          (Forest.scopeOf code' ctx (spans.map f.span) (f.span s))) := by
    intro β read hread
    show read ((Forest.forestOf code ctx spans).own _) = read ((Forest.forestOf code' ctx _).own _)
    rw [Forest.read_own hread hpairs hs, Forest.read_own hread hpairs' hs',
      h.ownGaps_span hpairs hs, h.flatMap_slice read haway]
  refine Outline.sameUse_of rfl rfl map_name_scopes ?_ (hread Condition.linewise_labels)
    (hread Variable.linewise_paths)
  show ((Forest.forestOf code ctx spans).kids _).map _ =
    ((Forest.forestOf code' ctx (spans.map f.span)).kids _).map _
  have hchildren : Forest.childrenOf ctx (spans.map f.span) (f.span s) =
      (Forest.childrenOf ctx spans s).map f.span :=
    Forest.childrenOf_moved (h.follows hpairs) hs
  rw [Forest.kids_forestOf hpairs.ascending, Forest.kids_forestOf hpairs'.ascending, hchildren,
    map_name]

/-- If a scope holds the gap, then the root uses the same in both texts. -/
theorem sameUse_root (h : f.Carries code code') (hspans : Markup.spansOf code = .ok spans)
    (hkept : ∀ s q, ¬ Forest.Orphan ctx spans s q) (hs : s ∈ spans)
    (haddressable : Forest.addressable ctx s = true)
    (hholds : (Forest.scopeOf code ctx spans s).Holds (f.start, f.stop)) :
    Outline.SameUse (Outline.outlineOf code ctx spans) (Outline.outlineOf code ctx spans).root
      (Outline.outlineOf code' ctx (spans.map f.span))
      (Outline.outlineOf code' ctx (spans.map f.span)).root := by
  have hpairs := pairsUp_of_spansOf hspans
  have hpairs' := pairsUp_of_spansOf (h.spansOf hspans)
  have haway : ∀ r ∈ Forest.rootGaps code ctx spans, f.Away r :=
    fun r hr => h.away_of_mem_rootGaps ⟨hpairs, hkept⟩ hs haddressable hholds hr
  have hown : (Outline.outlineOf code ctx spans).own (Outline.outlineOf code ctx spans).root =
      (Outline.outlineOf code' ctx (spans.map f.span)).own
        (Outline.outlineOf code' ctx (spans.map f.span)).root := by
    show (Forest.forestOf code ctx spans).own (Outline.rootOver _ _) =
      (Forest.forestOf code' ctx _).own (Outline.rootOver _ _)
    rw [Outline.own_rootOver, Outline.own_rootOver, Outline.residual_eq_flatMap hpairs,
      Outline.residual_eq_flatMap hpairs', h.rootGaps_span hpairs]
    exact (h.flatMap_slice id haway).symm
  refine Outline.sameUse_of rfl rfl map_name_scopes ?_ (congrArg _ hown) (congrArg _ hown)
  rw [Outline.kids_root hpairs.ascending, Outline.kids_root hpairs'.ascending, topOf_span,
    map_name]

end Shift.Carries

/-! ## The outline -/

namespace Outline

theorem agreesBut_of_carries {code code' : Text} {ctx : Context} {spans : List Span} {f : Shift}
    (h : f.Carries code code') (hspans : spansOf code = .ok spans)
    (hkept : ∀ s q, ¬ Forest.Orphan ctx spans s q) :
    (outlineOf code ctx spans).AgreesBut (f.start, f.stop)
      (outlineOf code' ctx (spans.map f.span)) := by
  have hscopes' : (outlineOf code' ctx (spans.map f.span)).scopes =
      (spans.filter (Forest.addressable ctx)).map fun s =>
        Forest.scopeOf code' ctx (spans.map f.span) (f.span s) := Forest.scopes_moved
  constructor
  · rw [hscopes']
    show List.Forall₂ _ ((spans.filter (Forest.addressable ctx)).map _) _
    rw [List.forall₂_map_left_iff, List.forall₂_map_right_iff, List.forall₂_same]
    intro s hs
    obtain ⟨hs, haddressable⟩ := List.mem_filter.1 hs
    exact ⟨rfl, rfl, rfl, h.sameUse_scopeOf hspans hkept hs haddressable⟩
  · intro hholder
    obtain ⟨scope, hscope, hholds⟩ := hholder
    obtain ⟨s, hs, haddressable, rfl⟩ := Forest.mem_forestOf.1 hscope
    exact h.sameUse_root hspans hkept hs haddressable hholds

section Alike

variable {t t' : Text} {ctx : Context} {i : Nat} {gap : Nat × Nat} {o : Outline}

theorem exists_agreesBut (h : AlikeBut i (normalize t) (normalize t'))
    (hgap : (tagGaps (normalize t))[i]? = some gap) (ho : ofText t ctx = .ok o) :
    ∃ o', ofText t' ctx = .ok o' ∧ o.AgreesBut gap o' := by
  obtain ⟨spans, hspans, hkept, rfl⟩ := ofText_eq_ok_iff.1 ho
  obtain ⟨f, rfl, hf⟩ := h.exists_shift hgap
  have hfollows := hf.follows (pairsUp_of_spansOf hspans)
  exact ⟨_, ofText_of_spansOf ctx (hf.spansOf hspans) (Forest.kept_moved hfollows hkept),
    agreesBut_of_carries hf hspans hkept⟩

/-- Templates that differ in one gap between their tags have outlines or
faults together.  In their outlines only the innermost scope around that gap
can use something else. -/
theorem ofText_isolates (ctx : Context) (h : AlikeBut i (normalize t) (normalize t'))
    (hgap : (tagGaps (normalize t))[i]? = some gap) :
    ((∃ o, ofText t ctx = .ok o) ↔ ∃ o', ofText t' ctx = .ok o') ∧
      ∀ o o', ofText t ctx = .ok o → ofText t' ctx = .ok o' → o.AgreesBut gap o' := by
  constructor
  · constructor
    · intro hleft
      obtain ⟨o, ho⟩ := hleft
      obtain ⟨o', ho', -⟩ := exists_agreesBut h hgap ho
      exact ⟨o', ho'⟩
    · intro hright
      obtain ⟨o', ho'⟩ := hright
      obtain ⟨gap', hgap'⟩ := h.exists_gap hgap
      obtain ⟨o, ho, -⟩ := exists_agreesBut h.symm hgap' ho'
      exact ⟨o, ho⟩
  · intro o o' ho ho'
    obtain ⟨found, hfound, hagrees⟩ := exists_agreesBut h hgap ho
    rw [ho', Except.ok.injEq] at hfound
    rwa [hfound]

end Alike

/-- The text in the inner block changes.  The outer block and the root do
not see it. -/
theorem ofText_isolates_nested :
    AlikeBut 2 (normalize "$P<% loop $A %>x<% with $B %>$C<% end_with %>$D<% end_loop %>")
        (normalize "$P<% loop $A %>x<% with $B %><% if E %>$F.Nice<% end_with %>$D<% end_loop %>") ∧
      (tagGaps (normalize "$P<% loop $A %>x<% with $B %>$C<% end_with %>$D<% end_loop %>"))[2]? =
        some (29, 31) ∧
      ∃ o o',
        ofText "$P<% loop $A %>x<% with $B %>$C<% end_with %>$D<% end_loop %>" Context.base =
          .ok o ∧
        ofText "$P<% loop $A %>x<% with $B %><% if E %>$F.Nice<% end_with %>$D<% end_loop %>"
          Context.base = .ok o' ∧
        o.AgreesBut (29, 31) o' := by
  have htags : tags (normalize "$P<% loop $A %>x<% with $B %>$C<% end_with %>$D<% end_loop %>") =
      [.opening ⟨.loop, 2, "<% loop $A %>", "$A"⟩, .opening ⟨.within, 16, "<% with $B %>", "$B"⟩,
        .closing ⟨.within, 31, "<% end_with %>"⟩, .closing ⟨.loop, 47, "<% end_loop %>"⟩] :=
    tags_eq_of_perm (by decide +kernel) (by decide +kernel)
  have htags' : tags (normalize
      "$P<% loop $A %>x<% with $B %><% if E %>$F.Nice<% end_with %>$D<% end_loop %>") =
      [.opening ⟨.loop, 2, "<% loop $A %>", "$A"⟩, .opening ⟨.within, 16, "<% with $B %>", "$B"⟩,
        .closing ⟨.within, 46, "<% end_with %>"⟩, .closing ⟨.loop, 62, "<% end_loop %>"⟩] :=
    tags_eq_of_perm (by decide +kernel) (by decide +kernel)
  have htexts : gapTexts (normalize
      "$P<% loop $A %>x<% with $B %><% if E %>$F.Nice<% end_with %>$D<% end_loop %>") =
      (gapTexts (normalize
        "$P<% loop $A %>x<% with $B %>$C<% end_with %>$D<% end_loop %>")).set 2
          ("<% if E %>$F.Nice" : Text) := by
    unfold gapTexts tagGaps
    rw [htags, htags']
    decide +kernel
  have halike : AlikeBut 2
      (normalize "$P<% loop $A %>x<% with $B %>$C<% end_with %>$D<% end_loop %>")
      (normalize
        "$P<% loop $A %>x<% with $B %><% if E %>$F.Nice<% end_with %>$D<% end_loop %>") := by
    refine ⟨by rw [htags, htags']; rfl, ?_⟩
    intro j hj
    rw [htexts, List.getElem?_set_ne (Ne.symm hj)]
  have hgap : (tagGaps (normalize
      "$P<% loop $A %>x<% with $B %>$C<% end_with %>$D<% end_loop %>"))[2]? = some (29, 31) := by
    unfold tagGaps
    rw [htags]
    rfl
  have hspans : spansOf (normalize
      "$P<% loop $A %>x<% with $B %>$C<% end_with %>$D<% end_loop %>") =
        .ok [⟨⟨.loop, 2, "<% loop $A %>", "$A"⟩, none, 61⟩,
          ⟨⟨.within, 16, "<% with $B %>", "$B"⟩, some 2, 45⟩] :=
    spansOf_of_tags
      (n := .block ⟨.loop, 2, "<% loop $A %>", "$A"⟩
        (.block ⟨.within, 16, "<% with $B %>", "$B"⟩ .nil ⟨.within, 31, "<% end_with %>"⟩ .nil)
        ⟨.loop, 47, "<% end_loop %>"⟩ .nil) htags.symm
  have houtline := ofText_of_spansOf Context.base hspans (Forest.kept_iff.2 (by decide))
  obtain ⟨hiff, hagrees⟩ := ofText_isolates Context.base halike hgap
  obtain ⟨o', ho'⟩ := hiff.1 ⟨_, houtline⟩
  exact ⟨halike, hgap, _, o', houtline, ho', hagrees _ o' houtline ho'⟩

end Outline

end TemplateScopes
