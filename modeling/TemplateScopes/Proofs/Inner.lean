import TemplateScopes.Proofs.Ownership
import TemplateScopes.Proofs.Relocation

/-!
# The outline of the contents of a block

The contents of a block are a template of their own.  Their outline is the
part of the outline around that stands in the block.

There are four groups.

* The tags of a slice.  A slice that cuts no tag in two has the tags that
  stand in it (`tags_slice`).
* The spans of the contents.  `Nesting.exists_inner` finds the nesting in
  a block, and `spansOf_inner` says that the spans of the contents are the
  moved spans from the block.
* Scopes in a block.  `Scope.within` is a scope as the contents of a block
  around it have it.
* The outline.  `Outline.Descendant` says which scopes stand in a block, and
  `ofText_inner` that they are the scopes of its contents.
-/

namespace TemplateScopes

open Markup

/-! ## The tags of a slice -/

/-- What is spelled out in a slice is spelled out in the text, inside the
range of the slice. -/
theorem Text.prefix_drop_slice {t p : Text} {a b n : Nat} (hp : 0 < p.length) :
    p <+: (t.slice a b).drop n ↔ p <+: t.drop (a + n) ∧ a + n + p.length ≤ b := by
  unfold slice
  rw [List.drop_take, List.drop_drop, List.prefix_take_iff]
  refine and_congr_right fun _ => ?_
  omega

namespace Markup

variable {t : Text} {a b : Nat}

theorem mem_tags_slice {tag : Tag} :
    tag ∈ tags (t.slice a b) ↔
      ∃ x ∈ tags t, a ≤ x.offset ∧ x.stop ≤ b ∧ tag = x.moved fun n => n - a := by
  constructor
  · intro h
    obtain ⟨hmade, hspelled⟩ := mem_tags_iff_spelled.1 h
    rw [Text.prefix_drop_slice hmade.isTag.length_pos] at hspelled
    refine ⟨tag.moved fun n => a + n, mem_tags_iff_spelled.2 ⟨hmade.moved _, ?_⟩, ?_, ?_, ?_⟩
    · rw [Tag.moved_raw, Tag.moved_offset]
      exact hspelled.1
    · rw [Tag.moved_offset]
      exact Nat.le_add_right ..
    · rw [Tag.stop_eq, Tag.moved_offset, Tag.moved_raw]
      exact hspelled.2
    · rw [Tag.moved_moved, Tag.moved_eq_self (by omega)]
  · intro h
    obtain ⟨x, hx, hle, hstop, rfl⟩ := h
    obtain ⟨hmade, hspelled⟩ := mem_tags_iff_spelled.1 hx
    have hplace : a + (x.offset - a) = x.offset := by omega
    refine mem_tags_iff_spelled.2 ⟨hmade.moved _, ?_⟩
    rw [Tag.moved_raw, Tag.moved_offset, Text.prefix_drop_slice hmade.isTag.length_pos, hplace,
      ← Tag.stop_eq]
    exact ⟨hspelled, hstop⟩

/-- A slice that cuts no tag in two has the tags that stand in it. -/
theorem tags_slice (hcut : ∀ tag ∈ tags t, tag.stop ≤ b ∨ b ≤ tag.offset) :
    tags (t.slice a b) =
      ((tags t).filter fun tag => decide (a ≤ tag.offset ∧ tag.offset < b)).map
        (Tag.moved fun n => n - a) := by
  apply eq_of_ascending Tag.offset (tags_ascending _)
  · rw [List.pairwise_map, List.pairwise_filter]
    refine (tags_ascending t).imp ?_
    intro x y hlt hx hy
    simp only [decide_eq_true_eq] at hx hy
    rw [Tag.moved_offset, Tag.moved_offset]
    omega
  · intro tag
    rw [mem_tags_slice, List.mem_map]
    simp only [List.mem_filter, decide_eq_true_eq]
    constructor
    · intro h
      obtain ⟨x, hx, hle, hstop, rfl⟩ := h
      have := (standsIn_of_mem_tags hx).offset_lt_stop
      exact ⟨x, ⟨hx, hle, by omega⟩, rfl⟩
    · intro h
      obtain ⟨x, ⟨hx, hle, hlt⟩, rfl⟩ := h
      refine ⟨x, hx, hle, ?_, rfl⟩
      rcases hcut x hx with hcut | hcut
      · exact hcut
      · omega

end Markup

/-! ## The spans of the contents -/

theorem Span.not_between {s : Span} {i : Nat}
    (h : i < s.opener.stop ∨ s.stop - Closing.length ≤ i) : ¬ s.Between i := by
  unfold Between
  omega

namespace Nesting

theorem Within.tag_bounds {n : Nesting} {lo hi : Nat} (h : n.Within lo hi) {tag : Tag}
    (htag : tag ∈ n.tags) : lo ≤ tag.offset ∧ tag.offset < hi := by
  induction n generalizing lo hi with
  | nil => simp [tags] at htag
  | block o inner c rest ihinner ihrest =>
    obtain ⟨hlo, hpos, hinner, hrest⟩ := h
    have hinnerle := hinner.le
    have hrestle := hrest.le
    have hroom := Closing.length_pos
    rw [tags, List.mem_cons, List.mem_append, List.mem_cons] at htag
    rcases htag with rfl | htag | rfl | htag
    · show lo ≤ o.offset ∧ o.offset < hi
      omega
    · have := ihinner hinner htag
      omega
    · show lo ≤ c.offset ∧ c.offset < hi
      omega
    · have := ihrest hrest htag
      omega

/-- The tags of a nesting that stand between the tags of a span. -/
def tagsIn (p : Span) (n : Nesting) : List Tag :=
  n.tags.filter fun tag => decide (p.Between tag.offset)

/-- The spans of a nesting that start between the tags of a span. -/
def spansIn (p : Span) (parent : Option Nat) (n : Nesting) : List Span :=
  (n.spans parent).filter fun s => decide (p.Between s.start)

section Between

variable {n inner rest : Nesting} {o : OpenTag} {c : CloseTag} {parent : Option Nat}
  {lo hi : Nat} {p : Span}

theorem tagsIn_block (ho : ¬ p.Between o.offset) (hc : ¬ p.Between c.offset) :
    tagsIn p (block o inner c rest) = tagsIn p inner ++ tagsIn p rest := by
  simp [tagsIn, tags, Tag.offset, ho, hc]

theorem spansIn_block (ho : ¬ p.Between o.offset) :
    spansIn p parent (block o inner c rest) =
      spansIn p (some o.offset) inner ++ spansIn p parent rest := by
  simp [spansIn, spans, ho]

theorem Within.tagsIn_eq_tags (h : n.Within lo hi) (hin : ∀ x, lo ≤ x → x < hi → p.Between x) :
    tagsIn p n = n.tags := by
  unfold tagsIn
  rw [List.filter_eq_self]
  intro tag htag
  obtain ⟨hlo, hhi⟩ := h.tag_bounds htag
  exact decide_eq_true (hin _ hlo hhi)

theorem Within.spansIn_eq_spans (h : n.Within lo hi)
    (hin : ∀ x, lo ≤ x → x < hi → p.Between x) : spansIn p parent n = n.spans parent := by
  unfold spansIn
  rw [List.filter_eq_self]
  intro s hs
  have hbounds := h.span_bounds hs
  exact decide_eq_true (hin _ hbounds.1 (by omega))

theorem Within.tagsIn_eq_nil (h : n.Within lo hi)
    (hout : ∀ x, lo ≤ x → x < hi → ¬ p.Between x) : tagsIn p n = [] := by
  unfold tagsIn
  rw [List.filter_eq_nil_iff]
  intro tag htag
  obtain ⟨hlo, hhi⟩ := h.tag_bounds htag
  simpa using hout _ hlo hhi

theorem Within.spansIn_eq_nil (h : n.Within lo hi)
    (hout : ∀ x, lo ≤ x → x < hi → ¬ p.Between x) : spansIn p parent n = [] := by
  unfold spansIn
  rw [List.filter_eq_nil_iff]
  intro s hs
  have hbounds := h.span_bounds hs
  simpa using hout _ hbounds.1 (by omega)

end Between

/-- A block of a nesting holds a nesting with the tags and the spans that
stand in it. -/
theorem exists_inner {n : Nesting} {lo hi : Nat} (h : n.Within lo hi) {parent : Option Nat}
    {p : Span} (hp : p ∈ n.spans parent) :
    ∃ inner : Nesting, inner.tags = tagsIn p n ∧
      inner.spans (some p.start) = spansIn p parent n := by
  induction n generalizing lo hi parent with
  | nil => simp [spans] at hp
  | block o inner c rest ihinner ihrest =>
    obtain ⟨hlo, hpos, hinner, hrest⟩ := h
    have hinnerle := hinner.le
    rcases mem_spans_block.1 hp with rfl | hp | hp
    · have hopener : (Span.fromTo o c parent).opener.stop = o.stop := rfl
      have hstop : (Span.fromTo o c parent).stop - Closing.length = c.offset :=
        Nat.add_sub_cancel ..
      have ho : ¬ (Span.fromTo o c parent).Between o.offset := Span.not_between (by omega)
      have hc : ¬ (Span.fromTo o c parent).Between c.offset := Span.not_between (by omega)
      have hin : ∀ x, o.stop ≤ x → x < c.offset → (Span.fromTo o c parent).Between x :=
        fun x hlo hhi => ⟨by omega, by omega⟩
      have hout : ∀ x, c.offset + Closing.length ≤ x → x < hi →
          ¬ (Span.fromTo o c parent).Between x := fun x hlo _ => Span.not_between (by omega)
      refine ⟨inner, ?_, ?_⟩
      · rw [tagsIn_block ho hc, hinner.tagsIn_eq_tags hin, hrest.tagsIn_eq_nil hout,
          List.append_nil]
      · rw [spansIn_block ho, hinner.spansIn_eq_spans hin, hrest.spansIn_eq_nil hout,
          List.append_nil]
        rfl
    · have hbounds := hinner.span_bounds hp
      have ho : ¬ p.Between o.offset := Span.not_between (by omega)
      have hc : ¬ p.Between c.offset := Span.not_between (by omega)
      have hout : ∀ x, c.offset + Closing.length ≤ x → x < hi → ¬ p.Between x :=
        fun x hlo _ => Span.not_between (by omega)
      rw [tagsIn_block ho hc, spansIn_block ho, hrest.tagsIn_eq_nil hout,
        hrest.spansIn_eq_nil hout, List.append_nil, List.append_nil]
      exact ihinner hinner hp
    · have hbounds := hrest.span_bounds hp
      have ho : ¬ p.Between o.offset := Span.not_between (by omega)
      have hc : ¬ p.Between c.offset := Span.not_between (by omega)
      have hout : ∀ x, o.stop ≤ x → x < c.offset → ¬ p.Between x :=
        fun x _ hhi => Span.not_between (by omega)
      rw [tagsIn_block ho hc, spansIn_block ho, hinner.tagsIn_eq_nil hout,
        hinner.spansIn_eq_nil hout, List.nil_append, List.nil_append]
      exact ihrest hrest hp

end Nesting

/-- The parent of a block as the contents of a block around it have it.
What stands there directly has no parent. -/
def parentIn (start origin : Nat) (parent : Option Nat) : Option Nat :=
  if parent = some start then none else parent.map fun n => n - origin

/-- The span in the contents of a block around it. -/
def Span.within (p s : Span) : Span :=
  s.moved (fun n => n - p.opener.stop) (parentIn p.start p.opener.stop)

/-- The spans that start between the tags of `p`. -/
def Span.holding (p : Span) (spans : List Span) : List Span :=
  spans.filter fun s => decide (p.Between s.start)

namespace Markup

variable {code : Text} {spans : List Span} {p : Span}

/-- No tag reaches over the end of the contents of a block. -/
theorem PairsUp.stop_le_innerStop (h : PairsUp code spans) (hp : p ∈ spans) {tag : Tag}
    (htag : tag ∈ tags code) :
    tag.stop ≤ p.stop - Closing.length ∨ p.stop - Closing.length ≤ tag.offset := by
  obtain ⟨c, hc, hstop, -⟩ := h.partner p hp
  rw [closing_stop_eq hc] at hstop
  have hinner : p.stop - Closing.length = c.offset := by omega
  rw [hinner]
  by_cases hlt : tag.offset < c.offset
  · exact .inl ((standsIn_of_mem_tags htag).stop_le_offset (closing_standsIn hc) hlt)
  · exact .inr (Nat.le_of_not_lt hlt)

/-- The spans of the contents of a block are the spans from there. -/
theorem spansOf_inner (h : spansOf code = .ok spans) (hp : p ∈ spans) :
    spansOf (code.slice p.opener.stop (p.stop - Closing.length)) =
      .ok ((p.holding spans).map p.within) := by
  have hpairs := pairsUp_of_spansOf h
  obtain ⟨n, hn, hwithin, rfl⟩ := spansOf_eq_ok_iff.1 h
  obtain ⟨inner, htags, hspans⟩ := Nesting.exists_inner hwithin hp
  have hslice : tags (code.slice p.opener.stop (p.stop - Closing.length)) =
      inner.tags.map (Tag.moved fun n => n - p.opener.stop) := by
    rw [htags, Nesting.tagsIn, hn]
    exact tags_slice fun tag htag => hpairs.stop_le_innerStop hp htag
  have hparent : parentIn p.start p.opener.stop (some p.start) = none := if_pos rfl
  have habove : ∀ o, .opening o ∈ inner.tags →
      parentIn p.start p.opener.stop (some o.offset) = some (o.offset - p.opener.stop) := by
    intro o ho
    rw [htags] at ho
    have hplace : p.Between o.offset := of_decide_eq_true (List.mem_filter.1 ho).2
    have hroom := hpairs.room p hp
    have hne : some o.offset ≠ some p.start := by
      intro heq
      have := hplace.1
      rw [Option.some.inj heq] at this
      omega
    exact if_neg hne
  rw [spansOf_of_moved (some p.start) hslice hparent habove, hspans]
  rfl

end Markup

namespace Markup.PairsUp

variable {code : Text} {spans : List Span} {p s : Span}

theorem between_iff_encloses (h : PairsUp code spans) (hp : p ∈ spans) (hs : s ∈ spans) :
    p.Between s.start ↔ p.Encloses s := by
  have hroomp := h.room p hp
  have hrooms := h.room s hs
  constructor
  · intro hbetween
    obtain ⟨hlo, hhi⟩ := hbetween
    rcases h.apart_or_inside hp hs (by omega) with hapart | hinside
    · omega
    · exact (h.inside_iff_encloses hp hs).1 hinside
  · intro henc
    obtain ⟨hlo, hhi⟩ := (h.inside_iff_encloses hp hs).2 henc
    exact ⟨hlo, by omega⟩

theorem mem_holding (h : PairsUp code spans) (hp : p ∈ spans) :
    s ∈ p.holding spans ↔ s ∈ spans ∧ p.Encloses s := by
  unfold Span.holding
  rw [List.mem_filter, decide_eq_true_eq]
  exact and_congr_right fun hs => h.between_iff_encloses hp hs

/-- The parent of a span in a block is that block or stands in it too. -/
theorem parent_of_encloses (h : PairsUp code spans) (hp : p ∈ spans) (hs : s ∈ spans)
    (henc : p.Encloses s) :
    s.parent = some p.start ∨ ∃ q ∈ spans, p.Encloses q ∧ s.parent = some q.start := by
  cases hparent : s.parent with
  | none => exact absurd henc (h.not_encloses_of_parent_eq_none hp hs hparent)
  | some start =>
    obtain ⟨q, hq, rfl, -⟩ := (Forest.rooted_of_pairsUp h).parent s hs start hparent
    rcases (h.encloses_of_parent hq hs hparent).2 p hp henc with rfl | hbetween
    · exact .inl rfl
    · exact .inr ⟨q, hq, hbetween, rfl⟩

end Markup.PairsUp

/-! ## Scopes in a block -/

/-- The scope as the contents of a block around it have it. -/
def Scope.within (b s : Scope) : Scope where
  source := b.inner
  start := s.start - b.innerStart
  stop := s.stop - b.innerStart
  kind := s.kind
  name := s.name
  opening := s.opening
  closingLength := s.closingLength
  parent := parentIn b.id b.innerStart s.parent
  children := s.children.map fun child => child - b.innerStart

/-- A mask depends on where its block stands in the text only. -/
theorem Block.mask_congr {origin origin' : Nat} {t : Text} {child child' : Block}
    (hstart : child'.start - origin' = child.start - origin)
    (hlength : child'.stop - child'.start = child.stop - child.start)
    (hstop : child'.stop - origin' = child.stop - origin) :
    mask origin' t child' = mask origin t child := by
  unfold mask
  rw [hstart, hlength, hstop]

namespace Forest

section Holding

variable {code : Text} {ctx : Context} {spans : List Span} {p s : Span}

/-- In the contents of a block the parents move along with the starts. -/
theorem follows_holding (h : PairsUp code spans) (hp : p ∈ spans) :
    Follows (fun n => n - p.opener.stop) (parentIn p.start p.opener.stop) (p.holding spans) := by
  intro s hs q hq
  obtain ⟨hs, hencs⟩ := (h.mem_holding hp).1 hs
  obtain ⟨hq, hencq⟩ := (h.mem_holding hp).1 hq
  have hplaceq := ((h.between_iff_encloses hp hq).2 hencq).1
  have hroom := h.room p hp
  have hneq : some q.start ≠ some p.start := by
    intro heq
    have := Option.some.inj heq
    omega
  rcases h.parent_of_encloses hp hs hencs with hparent | ⟨r, hr, hencr, hparent⟩
  · rw [hparent, parentIn, if_pos rfl]
    simpa using hneq.symm
  · have hplacer := ((h.between_iff_encloses hp hr).2 hencr).1
    have hner : some r.start ≠ some p.start := by
      intro heq
      have := Option.some.inj heq
      omega
    rw [hparent, parentIn, if_neg hner]
    simp only [Option.map_some, Option.some.injEq]
    omega

/-- All children of a block in `p` stand in `p`. -/
theorem childrenOf_holding (h : PairsUp code spans) (hp : p ∈ spans)
    (hs : s ∈ p.holding spans) : childrenOf ctx (p.holding spans) s = childrenOf ctx spans s := by
  obtain ⟨hs, henc⟩ := (h.mem_holding hp).1 hs
  unfold childrenOf Span.holding
  rw [List.filter_filter]
  refine List.filter_congr ?_
  intro c hc
  by_cases hparent : c.parent = some s.start
  · have hencc := (h.encloses_of_parent hs hc hparent).1
    have hplace := (h.between_iff_encloses hp hc).2 (henc.trans hencc)
    rw [decide_eq_true hplace, Bool.and_true]
  · simp [hparent]

theorem kept_holding (hkept : ∀ s q, ¬ Orphan ctx spans s q) :
    ∀ s q, ¬ Orphan ctx (p.holding spans) s q := by
  intro s q horphan
  obtain ⟨hs, haddressable, hq, hparent, hleft⟩ := horphan
  exact hkept s q
    ⟨(List.mem_filter.1 hs).1, haddressable, (List.mem_filter.1 hq).1, hparent, hleft⟩

theorem childrenOf_within (h : PairsUp code spans) (hp : p ∈ spans) (hs : s ∈ p.holding spans) :
    childrenOf ctx ((p.holding spans).map p.within) (p.within s) =
      (childrenOf ctx spans s).map p.within := by
  rw [← childrenOf_holding h hp hs]
  exact childrenOf_moved (follows_holding h hp) hs

theorem stop_within (h : PairsUp code spans) (hp : p ∈ spans) (hs : s ∈ p.holding spans) :
    (p.within s).stop = s.stop - p.opener.stop := by
  obtain ⟨hs, henc⟩ := (h.mem_holding hp).1 hs
  have hplace := (h.between_iff_encloses hp hs).2 henc
  have hroom := h.room s hs
  have hlo := hplace.1
  show s.stop - Closing.length - p.opener.stop + Closing.length = _
  omega

/-- The scope of a span in the contents of a block. -/
theorem scopeOf_within (h : PairsUp code spans) (hp : p ∈ spans) (hs : s ∈ p.holding spans) :
    scopeOf (scopeOf code ctx spans p).inner ctx ((p.holding spans).map p.within) (p.within s) =
      (scopeOf code ctx spans p).within (scopeOf code ctx spans s) := by
  unfold scopeOf Scope.within blockOf
  rw [childrenOf_within h hp hs, stop_within h hp hs, List.map_map, List.map_map]
  rfl

/-- The contents of a block in another one stay the same. -/
theorem inner_within (h : PairsUp code spans) (hp : p ∈ spans) (hs : s ∈ p.holding spans) :
    ((scopeOf code ctx spans p).within (scopeOf code ctx spans s)).inner =
      (scopeOf code ctx spans s).inner := by
  obtain ⟨hs, henc⟩ := (h.mem_holding hp).1 hs
  obtain ⟨hlo, hhi⟩ := (h.inside_iff_encloses hp hs).2 henc
  have hroom := h.room s hs
  have hstart : s.opener.stop = s.start + s.opener.raw.length := rfl
  show (code.slice p.opener.stop (p.stop - Closing.length)).slice
      (s.start - p.opener.stop + s.opener.raw.length)
      (s.stop - p.opener.stop - Closing.length) =
    code.slice s.opener.stop (s.stop - Closing.length)
  rw [Text.slice_slice (by omega)]
  congr 1
  · omega
  · omega

theorem outer_within (h : PairsUp code spans) (hp : p ∈ spans) (hs : s ∈ p.holding spans) :
    ((scopeOf code ctx spans p).within (scopeOf code ctx spans s)).outer =
      (scopeOf code ctx spans s).outer := by
  obtain ⟨hs, henc⟩ := (h.mem_holding hp).1 hs
  obtain ⟨hlo, hhi⟩ := (h.inside_iff_encloses hp hs).2 henc
  have hroom := h.room s hs
  show (code.slice p.opener.stop (p.stop - Closing.length)).slice
      (s.start - p.opener.stop) (s.stop - p.opener.stop) = code.slice s.start s.stop
  rw [Text.slice_slice (by omega)]
  congr 1
  · omega
  · omega

/-- The masks in the own text stay the same, because they depend on where
a child stands in its parent only. -/
theorem own_within (hspans : spansOf code = .ok spans) (hp : p ∈ spans)
    (hs : s ∈ p.holding spans) :
    (forestOf (scopeOf code ctx spans p).inner ctx ((p.holding spans).map p.within)).own
        ((scopeOf code ctx spans p).within (scopeOf code ctx spans s)) =
      (forestOf code ctx spans).own (scopeOf code ctx spans s) := by
  have h := pairsUp_of_spansOf hspans
  have hascending := (pairsUp_of_spansOf (spansOf_inner hspans hp)).ascending
  obtain ⟨hmem, henc⟩ := (h.mem_holding hp).1 hs
  have hplace := ((h.between_iff_encloses hp hmem).2 henc).1
  rw [← scopeOf_within h hp hs, own_scopeOf, own_scopeOf]
  unfold kidBlocks
  rw [kids_forestOf hascending, kids_forestOf h.ascending, childrenOf_within h hp hs,
    scopeOf_within h hp hs, inner_within h hp hs]
  simp only [List.map_map, List.foldl_map]
  refine List.foldl_ext _ _ _ ?_
  intro t c hc
  obtain ⟨hc, -, hparent⟩ := mem_childrenOf.1 hc
  have hencc := (h.encloses_of_parent hmem hc hparent).1
  have hlo := ((h.inside_iff_encloses hmem hc).2 hencc).1
  have hroom := h.room c hc
  have hcs : c ∈ p.holding spans := (h.mem_holding hp).2 ⟨hc, henc.trans hencc⟩
  have hstart : s.opener.stop = s.start + s.opener.raw.length := rfl
  have hstart' : (p.within s).opener.stop = s.start - p.opener.stop + s.opener.raw.length := rfl
  have hcstart : (p.within c).start = c.start - p.opener.stop := rfl
  have hcstop := stop_within h hp hcs
  refine Block.mask_congr ?_ ?_ ?_
  · show (p.within c).start - (p.within s).opener.stop = c.start - s.opener.stop
    omega
  · show (p.within c).stop - (p.within c).start = c.stop - c.start
    omega
  · show (p.within c).stop - (p.within s).opener.stop = c.stop - s.opener.stop
    omega

end Holding

end Forest

/-! ## The outline -/

theorem normalize_slice (t : Text) (a b : Nat) :
    normalize ((normalize t).slice a b) = (normalize t).slice a b := by
  refine List.filter_eq_self.2 fun c hc => ?_
  exact (List.mem_filter.1 (List.mem_of_mem_drop (List.mem_of_mem_take hc))).2

namespace Outline

/-- Whether the scope `s` stands in the scope `b`, as a child of it or
inside a child. -/
def Descendant (o : Outline) (b s : Scope) : Prop :=
  Relation.TransGen (fun parent child => child ∈ o.forest.kids parent) b s

/-- Whether `o'` is the part of the outline `o` that stands in the scope
`b`. -/
structure IsPart (o : Outline) (b : Scope) (o' : Outline) : Prop where
  code : o'.code = b.inner
  /-- Its scopes are those in `b`, in their order. -/
  scopes : ∃ inside : List Scope, inside.Sublist o.scopes ∧ (∀ s, s ∈ inside ↔ o.Descendant b s) ∧
    o'.scopes = inside.map b.within
  topLevel : o'.topLevel = (o.forest.kids b).map b.within
  kids : ∀ s, o.Descendant b s → o'.forest.kids (b.within s) = (o.forest.kids s).map b.within
  contents : ∀ s, o.Descendant b s → (b.within s).inner = s.inner ∧
    (b.within s).outer = s.outer ∧ o'.own (b.within s) = o.own s

section Part

variable {code : Text} {ctx : Context} {spans : List Span} {p : Span}

-- Upwards, the induction follows the starts of the parents.
/-- The scopes in a block are those of the spans in it. -/
theorem descendant_iff (h : Forest.Grounded code ctx spans) (hp : p ∈ spans) {scope : Scope} :
    (outlineOf code ctx spans).Descendant (Forest.scopeOf code ctx spans p) scope ↔
      ∃ s ∈ p.holding spans, Forest.addressable ctx s = true ∧
        Forest.scopeOf code ctx spans s = scope := by
  have hkids : ∀ {q : Span} {scope : Scope},
      scope ∈ (outlineOf code ctx spans).forest.kids (Forest.scopeOf code ctx spans q) ↔
        ∃ c ∈ Forest.childrenOf ctx spans q, Forest.scopeOf code ctx spans c = scope := by
    intro q scope
    show scope ∈ (Forest.forestOf code ctx spans).kids _ ↔ _
    rw [Forest.kids_forestOf h.ascending, List.mem_map]
  constructor
  · intro hdesc
    induction hdesc with
    | single hchild =>
      obtain ⟨c, hc, rfl⟩ := hkids.1 hchild
      obtain ⟨hc, hkept, hparent⟩ := Forest.mem_childrenOf.1 hc
      have henc := (h.encloses_of_parent hp hc hparent).1
      exact ⟨c, (h.mem_holding hp).2 ⟨hc, henc⟩, hkept, rfl⟩
    | tail _ hchild ih =>
      obtain ⟨m, hm, -, rfl⟩ := ih
      obtain ⟨c, hc, rfl⟩ := hkids.1 hchild
      obtain ⟨hm, hencm⟩ := (h.mem_holding hp).1 hm
      obtain ⟨hc, hkept, hparent⟩ := Forest.mem_childrenOf.1 hc
      have henc := (h.encloses_of_parent hm hc hparent).1
      exact ⟨c, (h.mem_holding hp).2 ⟨hc, hencm.trans henc⟩, hkept, rfl⟩
  · intro hin
    obtain ⟨s, hs, hkept, rfl⟩ := hin
    induction hstart : s.start using Nat.strongRecOn generalizing s with
    | ind start ih =>
      obtain ⟨hs, henc⟩ := (h.mem_holding hp).1 hs
      rcases h.parent_of_encloses hp hs henc with hparent | ⟨q, hq, hencq, hparent⟩
      · exact .single (hkids.2 ⟨s, Forest.mem_childrenOf.2 ⟨hs, hkept, hparent⟩, rfl⟩)
      · have hbefore := (h.encloses_of_parent hq hs hparent).1.1
        have hkeptq := h.addressable_parent hs hkept hq hparent
        have hup := ih q.start (hstart ▸ hbefore) q ((h.mem_holding hp).2 ⟨hq, hencq⟩) hkeptq rfl
        exact .tail hup (hkids.2 ⟨s, Forest.mem_childrenOf.2 ⟨hs, hkept, hparent⟩, rfl⟩)

/-- The spans of the top level in the contents of a block are those of its
children. -/
theorem topLevel_holding (h : Markup.PairsUp code spans) (hp : p ∈ spans) :
    ((p.holding spans).filter (Forest.addressable ctx)).filter
        (fun s => (parentIn p.start p.opener.stop s.parent).isNone) =
      Forest.childrenOf ctx spans p := by
  unfold Span.holding Forest.childrenOf
  rw [List.filter_filter, List.filter_filter]
  refine List.filter_congr ?_
  intro s hs
  rw [Bool.eq_iff_iff]
  simp only [Bool.and_eq_true, Option.isNone_iff_eq_none, decide_eq_true_eq]
  constructor
  · intro hboth
    obtain ⟨⟨htop, hkept⟩, hplace⟩ := hboth
    have henc := (h.between_iff_encloses hp hs).1 hplace
    refine ⟨hkept, ?_⟩
    rcases h.parent_of_encloses hp hs henc with hparent | ⟨q, hq, hencq, hparent⟩
    · exact hparent
    · have hne : some q.start ≠ some p.start := by
        intro heq
        have := hencq.1
        rw [Option.some.inj heq] at this
        exact Nat.lt_irrefl _ this
      rw [hparent, parentIn, if_neg hne] at htop
      simp at htop
  · intro hboth
    obtain ⟨hkept, hparent⟩ := hboth
    have henc := (h.encloses_of_parent hp hs hparent).1
    exact ⟨⟨by rw [hparent, parentIn, if_pos rfl], hkept⟩, (h.between_iff_encloses hp hs).2 henc⟩

theorem isPart_holding (hspans : Markup.spansOf code = .ok spans)
    (hkept : ∀ s q, ¬ Forest.Orphan ctx spans s q) (hp : p ∈ spans) :
    (outlineOf code ctx spans).IsPart (Forest.scopeOf code ctx spans p)
      (outlineOf (Forest.scopeOf code ctx spans p).inner ctx
        ((p.holding spans).map p.within)) := by
  have h : Forest.Grounded code ctx spans := ⟨Markup.pairsUp_of_spansOf hspans, hkept⟩
  have hascending := (Markup.pairsUp_of_spansOf (Markup.spansOf_inner hspans hp)).ascending
  have hscopes : (outlineOf (Forest.scopeOf code ctx spans p).inner ctx
      ((p.holding spans).map p.within)).scopes =
      (((p.holding spans).filter (Forest.addressable ctx)).map
        (Forest.scopeOf code ctx spans)).map (Forest.scopeOf code ctx spans p).within := by
    refine Forest.scopes_moved.trans ?_
    rw [List.map_map]
    refine List.map_congr_left ?_
    intro s hs
    exact Forest.scopeOf_within h.toPairsUp hp (List.mem_filter.1 hs).1
  refine ⟨rfl, ⟨_, ?_, ?_, hscopes⟩, ?_, ?_, ?_⟩
  · refine List.Sublist.map _ ?_
    unfold Span.holding
    rw [List.filter_comm]
    exact List.filter_sublist
  · intro scope
    rw [descendant_iff h hp]
    simp only [List.mem_map, List.mem_filter, and_assoc]
  · show (outlineOf _ ctx _).scopes.filter _ = _
    rw [hscopes]
    show _ = ((Forest.forestOf code ctx spans).kids _).map _
    rw [Forest.kids_forestOf h.ascending, List.map_map, List.map_map, List.filter_map,
      ← topLevel_holding h.toPairsUp hp]
    rfl
  · intro scope hdesc
    obtain ⟨s, hs, -, rfl⟩ := (descendant_iff h hp).1 hdesc
    show (Forest.forestOf _ ctx _).kids _ = ((Forest.forestOf code ctx spans).kids _).map _
    rw [← Forest.scopeOf_within h.toPairsUp hp hs, Forest.kids_forestOf hascending,
      Forest.kids_forestOf h.ascending, Forest.childrenOf_within h.toPairsUp hp hs,
      List.map_map, List.map_map]
    refine List.map_congr_left ?_
    intro c hc
    obtain ⟨hc, -, hparent⟩ := Forest.mem_childrenOf.1 hc
    obtain ⟨hs, henc⟩ := (h.mem_holding hp).1 hs
    have hencc := (h.encloses_of_parent hs hc hparent).1
    exact Forest.scopeOf_within h.toPairsUp hp ((h.mem_holding hp).2 ⟨hc, henc.trans hencc⟩)
  · intro scope hdesc
    obtain ⟨s, hs, -, rfl⟩ := (descendant_iff h hp).1 hdesc
    exact ⟨Forest.inner_within h.toPairsUp hp hs, Forest.outer_within h.toPairsUp hp hs,
      Forest.own_within hspans hp hs⟩

end Part

/-- The contents of a block have an outline too: the part of the outline
around that stands in the block. -/
theorem ofText_inner {t : Text} {ctx : Context} {o : Outline} (h : ofText t ctx = .ok o)
    {b : Scope} (hb : b ∈ o.scopes) : ∃ o', ofText b.inner ctx = .ok o' ∧ o.IsPart b o' := by
  obtain ⟨spans, hspans, hkept, rfl⟩ := ofText_eq_ok_iff.1 h
  obtain ⟨p, hp, -, rfl⟩ := Forest.mem_forestOf.1 hb
  have hpairs := Markup.pairsUp_of_spansOf hspans
  have hnormal : normalize (Forest.scopeOf (normalize t) ctx spans p).inner =
      (Forest.scopeOf (normalize t) ctx spans p).inner := normalize_slice t _ _
  have hinner : Markup.spansOf (normalize (Forest.scopeOf (normalize t) ctx spans p).inner) =
      .ok ((p.holding spans).map p.within) := by
    rw [hnormal]
    exact Markup.spansOf_inner hspans hp
  have hkeptinner : ∀ s q, ¬ Forest.Orphan ctx ((p.holding spans).map p.within) s q :=
    Forest.kept_moved (Forest.follows_holding hpairs hp) (Forest.kept_holding hkept)
  refine ⟨_, ofText_of_spansOf ctx hinner hkeptinner, ?_⟩
  rw [hnormal]
  exact isPart_holding hspans hkept hp

/-- The contents of the first block hold a block in a block. -/
theorem ofText_inner_nested :
    ∃ o b, ofText
        "x<% loop $A %>y<% with $B %>z<% loop $C %><% end_loop %><% end_with %><% end_loop %>w"
        Context.base = .ok o ∧ b ∈ o.scopes ∧
      b.inner = ("y<% with $B %>z<% loop $C %><% end_loop %><% end_with %>" : Text) ∧
      ∃ o', ofText b.inner Context.base = .ok o' ∧ o.IsPart b o' := by
  have hspans : Markup.spansOf (normalize
      "x<% loop $A %>y<% with $B %>z<% loop $C %><% end_loop %><% end_with %><% end_loop %>w") =
        .ok [⟨⟨.loop, 1, "<% loop $A %>", "$A"⟩, none, 84⟩,
          ⟨⟨.within, 15, "<% with $B %>", "$B"⟩, some 1, 70⟩,
          ⟨⟨.loop, 29, "<% loop $C %>", "$C"⟩, some 15, 56⟩] :=
    Markup.spansOf_of_tags
      (n := .block ⟨.loop, 1, "<% loop $A %>", "$A"⟩
        (.block ⟨.within, 15, "<% with $B %>", "$B"⟩
          (.block ⟨.loop, 29, "<% loop $C %>", "$C"⟩ .nil ⟨.loop, 42, "<% end_loop %>"⟩ .nil)
          ⟨.within, 56, "<% end_with %>"⟩ .nil)
        ⟨.loop, 70, "<% end_loop %>"⟩ .nil)
      (Markup.tags_eq_of_perm (by decide +kernel) (by decide +kernel)).symm
  have houtline := ofText_of_spansOf Context.base hspans (Forest.kept_iff.2 (by decide))
  exact ⟨_, _, houtline, List.mem_cons_self, by decide +kernel,
    ofText_inner houtline List.mem_cons_self⟩

end Outline

end TemplateScopes
