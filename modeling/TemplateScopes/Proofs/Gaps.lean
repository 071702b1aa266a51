import TemplateScopes.Proofs.Lines
import TemplateScopes.Proofs.Ownership

/-!
# The gaps between ranges

What a scope uses stands in the gaps between its children.  The masks only
keep these gaps apart, and the root puts its gaps together.

There are three groups.

* Gaps.  `Text.gaps` lists the gaps between ranges that stand in a `Row`,
  and `gap_of_mem_gaps` says where a gap begins and ends.
* Masks and cuts.  What is read off a masked text line by line is read off
  the gaps (`read_foldl_mask`), and a cut leaves the gaps (`fst_cutFrom_eq`).
* Scopes.  The same for the own text of a scope and the residual
  (`read_own`,
  `residual_eq_flatMap`).
-/

namespace TemplateScopes

/-! ## Gaps -/

namespace Text

/-- The gaps in front of, between and behind ranges that stand between two
offsets one behind the other. -/
def gaps (position stop : Nat) : List (Nat × Nat) → List (Nat × Nat)
  | [] => [(position, stop)]
  | r :: rest => (position, r.1) :: gaps r.2 stop rest

/-- Whether ranges stand one behind the other between two offsets. -/
def Row (stop : Nat) : Nat → List (Nat × Nat) → Prop
  | position, [] => position ≤ stop
  | position, r :: rest => position ≤ r.1 ∧ r.1 ≤ r.2 ∧ Row stop r.2 rest

/-- Whether a range reaches from the first offset or the end of a range up
to the last offset or the beginning of a range, past no range. -/
structure Gap (position stop : Nat) (ranges : List (Nat × Nat)) (gap : Nat × Nat) : Prop where
  le : gap.1 ≤ gap.2
  left : gap.1 = position ∨ ∃ r ∈ ranges, gap.1 = r.2
  right : gap.2 = stop ∨ ∃ r ∈ ranges, gap.2 = r.1
  apart : ∀ r ∈ ranges, r.2 ≤ gap.1 ∨ gap.2 ≤ r.1

section Gaps

variable {position stop : Nat} {ranges : List (Nat × Nat)} {gap : Nat × Nat}

theorem Row.le_stop (h : Row stop position ranges) : position ≤ stop := by
  induction ranges generalizing position with
  | nil => exact h
  | cons r rest ih =>
    obtain ⟨hle, hrange, hrest⟩ := h
    have := ih hrest
    omega

theorem Row.le_of_mem (h : Row stop position ranges) {r : Nat × Nat} (hr : r ∈ ranges) :
    position ≤ r.1 := by
  induction ranges generalizing position with
  | nil => simp at hr
  | cons first rest ih =>
    obtain ⟨hle, hrange, hrest⟩ := h
    rcases List.mem_cons.1 hr with rfl | hr
    · exact hle
    · have := ih hrest hr
      omega

theorem row_of_pairwise (hposition : position ≤ stop) (hfirst : ∀ r ∈ ranges, position ≤ r.1)
    (hrange : ∀ r ∈ ranges, r.1 ≤ r.2 ∧ r.2 ≤ stop)
    (hbehind : ranges.Pairwise fun a b => a.2 ≤ b.1) : Row stop position ranges := by
  induction ranges generalizing position with
  | nil => exact hposition
  | cons r rest ih =>
    obtain ⟨hnext, hbehind⟩ := List.pairwise_cons.1 hbehind
    obtain ⟨hle, hstop⟩ := hrange r List.mem_cons_self
    refine ⟨hfirst r List.mem_cons_self, hle, ?_⟩
    exact ih hstop hnext (fun q hq => hrange q (List.mem_cons_of_mem r hq)) hbehind

theorem Row.le_of_mem_gaps (h : Row stop position ranges) (hgap : gap ∈ gaps position stop ranges) :
    position ≤ gap.1 := by
  induction ranges generalizing position with
  | nil =>
    rw [gaps, List.mem_singleton] at hgap
    rw [hgap]
  | cons r rest ih =>
    obtain ⟨hle, hrange, hrest⟩ := h
    rcases List.mem_cons.1 hgap with rfl | hgap
    · exact Nat.le_refl _
    · have := ih hrest hgap
      omega

theorem Row.le_stop_of_mem_gaps (h : Row stop position ranges)
    (hgap : gap ∈ gaps position stop ranges) : gap.2 ≤ stop := by
  induction ranges generalizing position with
  | nil =>
    rw [gaps, List.mem_singleton] at hgap
    rw [hgap]
  | cons r rest ih =>
    obtain ⟨hle, hrange, hrest⟩ := h
    rcases List.mem_cons.1 hgap with rfl | hgap
    · exact Nat.le_trans hrange hrest.le_stop
    · exact ih hrest hgap

theorem gap_of_mem_gaps (h : Row stop position ranges) (hgap : gap ∈ gaps position stop ranges) :
    Gap position stop ranges gap := by
  induction ranges generalizing position with
  | nil =>
    rw [gaps, List.mem_singleton] at hgap
    subst hgap
    exact ⟨h, .inl rfl, .inl rfl, by simp⟩
  | cons r rest ih =>
    obtain ⟨hle, hrange, hrest⟩ := h
    rcases List.mem_cons.1 hgap with rfl | hgap
    · refine ⟨hle, .inl rfl, .inr ⟨r, List.mem_cons_self, rfl⟩, ?_⟩
      intro q hq
      rcases List.mem_cons.1 hq with rfl | hq
      · exact .inr (Nat.le_refl _)
      · have := hrest.le_of_mem hq
        exact .inr (by show r.1 ≤ q.1; omega)
    · obtain ⟨hgaple, hleft, hright, hapart⟩ := ih hrest hgap
      refine ⟨hgaple, .inr ?_, ?_, ?_⟩
      · rcases hleft with hleft | ⟨q, hq, hleft⟩
        · exact ⟨r, List.mem_cons_self, hleft⟩
        · exact ⟨q, List.mem_cons_of_mem r hq, hleft⟩
      · rcases hright with hright | ⟨q, hq, hright⟩
        · exact .inl hright
        · exact .inr ⟨q, List.mem_cons_of_mem r hq, hright⟩
      · intro q hq
        rcases List.mem_cons.1 hq with rfl | hq
        · exact .inl (hrest.le_of_mem_gaps hgap)
        · exact hapart q hq

theorem length_gaps : (gaps position stop ranges).length = ranges.length + 1 := by
  induction ranges generalizing position with
  | nil => rfl
  | cons r rest ih => rw [gaps, List.length_cons, List.length_cons, ih]

/-- The gaps between moved ranges are the moved gaps.  What ends a range
begins a gap. -/
theorem gaps_map (down up : Nat → Nat) :
    gaps (up position) (down stop) (ranges.map fun r => (down r.1, up r.2)) =
      (gaps position stop ranges).map fun gap => (up gap.1, down gap.2) := by
  induction ranges generalizing position with
  | nil => rfl
  | cons r rest ih =>
    rw [List.map_cons, gaps, gaps, List.map_cons, ← ih]

end Gaps

end Text

/-! ## Masks and cuts -/

/-- The range of a text that belongs to the block. -/
def Block.range (b : Block) : Nat × Nat :=
  (b.start, b.stop)

namespace Block

variable {β : Type} {read : Text → List β} {code front : Text} {origin position stop : Nat}
  {children : List Block}

/-- A mask behind the text `front` leaves what is in front of it and what
is behind it. -/
theorem mask_slice {child : Block} (hfront : front.length = position - origin)
    (horigin : origin ≤ position) (hlo : position ≤ child.start) (hle : child.start ≤ child.stop)
    (hhi : child.stop ≤ stop) :
    mask origin (front ++ code.slice position stop) child =
      front ++ code.slice position child.start ++
        List.replicate (child.stop - child.start) maskChar ++ code.slice child.stop stop := by
  have htake : (front ++ code.slice position stop).take (child.start - origin) =
      front ++ code.slice position child.start := by
    have hmore : child.start - origin = front.length + (child.start - position) := by omega
    rw [hmore, List.take_length_add_append]
    unfold Text.slice
    rw [List.take_take]
    congr 2
    omega
  have hdrop : (front ++ code.slice position stop).drop (child.stop - origin) =
      code.slice child.stop stop := by
    have hmore : child.stop - origin = front.length + (child.stop - position) := by omega
    rw [hmore, List.drop_length_add_append]
    unfold Text.slice
    rw [List.drop_take, List.drop_drop]
    congr 1
    · omega
    · congr 1
      omega
  rw [mask, htake, hdrop]

-- The text in front of `position` has its masks already, and it ends with
-- one of them or is empty.  So what is read behind it is read on its own.
/-- What is read off a masked text line by line is read off the gaps between
the masks. -/
theorem read_foldl_mask_from (hread : Text.Linewise read)
    (hrow : Text.Row stop position (children.map range))
    (hnonempty : ∀ b ∈ children, b.start < b.stop) (hstop : stop ≤ code.length)
    (hfront : front.length = position - origin) (horigin : origin ≤ position)
    (happ : ∀ t, read (front ++ t) = read front ++ read t) :
    read (children.foldl (mask origin) (front ++ code.slice position stop)) =
      read front ++ (Text.gaps position stop (children.map range)).flatMap fun gap =>
        read (code.slice gap.1 gap.2) := by
  induction children generalizing front position with
  | nil =>
    rw [List.foldl_nil, happ]
    simp [Text.gaps]
  | cons b rest ih =>
    have hlo : position ≤ b.start := hrow.1
    have hle : b.start ≤ b.stop := hrow.2.1
    have hrest : Text.Row stop b.stop (rest.map range) := hrow.2.2
    have hhi := hrest.le_stop
    have hlt := hnonempty b List.mem_cons_self
    have hlength : (front ++ code.slice position b.start ++
        List.replicate (b.stop - b.start) maskChar).length = b.stop - origin := by
      rw [List.length_append, List.length_append, List.length_replicate, hfront,
        Text.length_slice (by omega)]
      omega
    have hmasked : ∀ t, read (front ++ code.slice position b.start ++
        List.replicate (b.stop - b.start) maskChar ++ t) =
          read front ++ read (code.slice position b.start) ++ read t := by
      intro t
      have hpos : 0 < b.stop - b.start := by omega
      exact (hread.replicate hpos _ t).trans (by rw [happ])
    have hmasked' := hmasked []
    rw [List.append_nil, hread.nil, List.append_nil] at hmasked'
    rw [List.foldl_cons, mask_slice hfront horigin hlo hle hhi,
      ih hrest (fun c hc => hnonempty c (List.mem_cons_of_mem b hc)) hlength (by omega)
        (fun t => by rw [hmasked, hmasked']), hmasked', List.map_cons, Text.gaps,
      List.flatMap_cons, List.append_assoc]
    rfl

/-- What is read off the text of a block with its children masked. -/
theorem read_foldl_mask (hread : Text.Linewise read)
    (hrow : Text.Row stop position (children.map range))
    (hnonempty : ∀ b ∈ children, b.start < b.stop) (hstop : stop ≤ code.length) :
    read (children.foldl (mask position) (code.slice position stop)) =
      (Text.gaps position stop (children.map range)).flatMap fun gap =>
        read (code.slice gap.1 gap.2) := by
  have hnil : ∀ t, read ([] ++ t) = read [] ++ read t := by
    intro t
    rw [hread.nil]
    rfl
  have h : read (children.foldl (mask position) ([] ++ code.slice position stop)) = _ :=
    read_foldl_mask_from hread hrow hnonempty hstop (by simp) (Nat.le_refl _) hnil
  rwa [List.nil_append, hread.nil, List.nil_append] at h

end Block

/-- What a cut leaves are the gaps. -/
theorem Excision.fst_cutFrom_eq {code : Text} {position : Nat} {blocks : List Block} :
    (cutFrom code position blocks).1 =
      (Text.gaps position code.length (blocks.map Block.range)).flatMap fun gap =>
        code.slice gap.1 gap.2 := by
  induction blocks generalizing position with
  | nil =>
    show code.drop position = code.slice position code.length ++ []
    rw [List.append_nil, Text.slice, List.take_of_length_le (by rw [List.length_drop])]
  | cons b rest ih =>
    show code.slice position b.start ++ (cutFrom code b.stop rest).1 = _
    rw [ih]
    rfl

/-! ## Scopes -/

/-- The range of a text that belongs to the span. -/
def Span.range (s : Span) : Nat × Nat :=
  (s.start, s.stop)

namespace Forest

/-- The spans of the top-level blocks. -/
def topOf (ctx : Context) (spans : List Span) : List Span :=
  spans.filter fun s => addressable ctx s && s.parent.isNone

/-- The gaps between the children of a block. -/
def ownGaps (ctx : Context) (spans : List Span) (s : Span) : List (Nat × Nat) :=
  Text.gaps s.opener.stop (s.stop - Closing.length) ((childrenOf ctx spans s).map Span.range)

/-- The gaps between the top-level blocks of a text. -/
def rootGaps (code : Text) (ctx : Context) (spans : List Span) : List (Nat × Nat) :=
  Text.gaps 0 code.length ((topOf ctx spans).map Span.range)

section Scopes

variable {code : Text} {ctx : Context} {spans : List Span} {s : Span}

theorem mem_topOf : s ∈ topOf ctx spans ↔
    s ∈ spans ∧ addressable ctx s = true ∧ s.parent = none := by
  simp [topOf]

/-- The children of a block stand between its tags, one behind the
other. -/
theorem row_childrenOf (h : Markup.PairsUp code spans) (hs : s ∈ spans) :
    Text.Row (s.stop - Closing.length) s.opener.stop
      ((childrenOf ctx spans s).map Span.range) := by
  have hroom := h.room s hs
  have hinside : ∀ c ∈ childrenOf ctx spans s, c.Inside s ∧ c.start ≤ c.stop := by
    intro c hc
    obtain ⟨hc, -, hparent⟩ := mem_childrenOf.1 hc
    have hroomc := h.room c hc
    have henc := (h.encloses_of_parent hs hc hparent).1
    exact ⟨(h.inside_iff_encloses hs hc).2 henc, by omega⟩
  apply Text.row_of_pairwise
  · omega
  · intro r hr
    obtain ⟨c, hc, rfl⟩ := List.mem_map.1 hr
    exact (hinside c hc).1.1
  · intro r hr
    obtain ⟨c, hc, rfl⟩ := List.mem_map.1 hr
    obtain ⟨⟨-, hhi⟩, hle⟩ := hinside c hc
    show c.start ≤ c.stop ∧ c.stop ≤ s.stop - Closing.length
    omega
  · rw [List.pairwise_map]
    unfold childrenOf
    rw [List.pairwise_filter]
    refine h.nested.imp_of_mem ?_
    intro a b ha hb hab hchilda hchildb
    simp only [Bool.and_eq_true, decide_eq_true_eq] at hchilda hchildb
    rcases hab with hapart | hinside
    · exact hapart
    · have henca := (h.encloses_of_parent hs ha hchilda.2).1
      have henc := (h.inside_iff_encloses ha hb).1 hinside
      have hlo := henca.1
      rcases (h.encloses_of_parent hs hb hchildb.2).2 a ha henc with rfl | hover
      · omega
      · have := hover.1
        omega

/-- The top-level blocks stand one behind the other. -/
theorem row_topOf (h : Markup.PairsUp code spans) :
    Text.Row code.length 0 ((topOf ctx spans).map Span.range) := by
  apply Text.row_of_pairwise
  · exact Nat.zero_le _
  · exact fun r _ => Nat.zero_le _
  · intro r hr
    obtain ⟨s, hs, rfl⟩ := List.mem_map.1 hr
    have hroom := h.room s (mem_topOf.1 hs).1
    show s.start ≤ s.stop ∧ s.stop ≤ code.length
    omega
  · rw [List.pairwise_map]
    unfold topOf
    rw [List.pairwise_filter]
    refine h.nested.imp_of_mem ?_
    intro a b ha hb hab _ htop
    simp only [Bool.and_eq_true, Option.isNone_iff_eq_none] at htop
    rcases hab with hapart | hinside
    · exact hapart
    · have henc := (h.inside_iff_encloses ha hb).1 hinside
      exact absurd henc (h.not_encloses_of_parent_eq_none ha hb htop.2)

/-- What a scope uses stands in the gaps between its children. -/
theorem read_own {β : Type} {read : Text → List β} (hread : Text.Linewise read)
    (h : Markup.PairsUp code spans) (hs : s ∈ spans) :
    read ((forestOf code ctx spans).own (scopeOf code ctx spans s)) =
      (ownGaps ctx spans s).flatMap fun gap => read (code.slice gap.1 gap.2) := by
  have hroom := h.room s hs
  have hkids : (forestOf code ctx spans).kidBlocks (scopeOf code ctx spans s) =
      (childrenOf ctx spans s).map (blockOf code) := by
    unfold kidBlocks
    rw [kids_forestOf h.ascending, List.map_map]
    rfl
  have hranges : ((childrenOf ctx spans s).map (blockOf code)).map Block.range =
      (childrenOf ctx spans s).map Span.range := List.map_map
  have hrow : Text.Row _ _ ((childrenOf ctx spans s).map Span.range) := row_childrenOf h hs
  rw [← hranges] at hrow
  rw [own_scopeOf, hkids, inner_scopeOf, Block.read_foldl_mask hread hrow, hranges]
  · rfl
  · intro b hb
    obtain ⟨c, hc, rfl⟩ := List.mem_map.1 hb
    have hroomc := h.room c (mem_childrenOf.1 hc).1
    show c.start < c.stop
    omega
  · omega

end Scopes

end Forest

namespace Outline

variable {code : Text} {ctx : Context} {spans : List Span}

theorem topLevel_outlineOf :
    (outlineOf code ctx spans).topLevel =
      (Forest.topOf ctx spans).map (Forest.scopeOf code ctx spans) := by
  show ((spans.filter _).map _).filter _ = _
  unfold Forest.topOf
  rw [List.filter_map, List.filter_filter]
  congr 1
  refine List.filter_congr ?_
  intro s _
  exact Bool.and_comm ..

/-- The top-level blocks of an outline are in the order in which they are
cut out. -/
theorem sorted_topLevel (h : Markup.PairsUp code spans) :
    Excision.sorted ((outlineOf code ctx spans).topLevel.map Scope.toBlock) =
      (Forest.topOf ctx spans).map (Forest.blockOf code) := by
  rw [topLevel_outlineOf, List.map_map]
  apply List.mergeSort_of_pairwise
  unfold Forest.topOf
  rw [List.pairwise_map, List.pairwise_filter]
  refine h.ascending.imp ?_
  intro a b hlt _ _
  exact decide_eq_true (Nat.le_of_lt hlt)

theorem cut_outlineOf (h : Markup.PairsUp code spans) :
    (outlineOf code ctx spans).cut =
      Excision.cutFrom code 0 ((Forest.topOf ctx spans).map (Forest.blockOf code)) := by
  show Excision.cutFrom code 0 (Excision.sorted _) = _
  rw [sorted_topLevel h]

/-- The root has the gaps between the top-level blocks. -/
theorem residual_eq_flatMap (h : Markup.PairsUp code spans) :
    (outlineOf code ctx spans).residual =
      (Forest.rootGaps code ctx spans).flatMap fun gap => code.slice gap.1 gap.2 := by
  show (outlineOf code ctx spans).cut.1 = _
  rw [cut_outlineOf h, Excision.fst_cutFrom_eq, List.map_map]
  rfl

end Outline

end TemplateScopes
