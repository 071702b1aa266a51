import TemplateScopes.Proofs.Excision

/-!
# Who owns a character

Every character of a template belongs to one part of its outline only: to
the residual, to the tags of a block or to the own text of a block.

There are three groups.

* Blocks around blocks.  A block with a scope stands in blocks with scopes
  only.  So `exists_top_around` finds a top-level block around it, and
  `exists_child_around` finds the child of a block in which it stands.
* Owners.  `Outline.Owns` says what belongs to whom, and
  `existsUnique_owner` that everything has one owner.
* The division.  `Outline.Divided` adds what holds of the contents of every
  scope, and `divided_of_ofText` proves it.
-/

namespace TemplateScopes

/-! ## Blocks around blocks -/

namespace Forest.Grounded

variable {code : Text} {ctx : Context} {spans : List Span} {s m q : Span} {i : Nat}

theorem addressable_parent (h : Grounded code ctx spans) (hm : m ∈ spans)
    (hkept : addressable ctx m = true) (hq : q ∈ spans) (hparent : m.parent = some q.start) :
    addressable ctx q = true :=
  kept_iff.1 h.kept m hm q hq hparent hkept

-- The induction goes up from parent to parent, and each one starts in
-- front of the last.
/-- Among a block and the blocks around it, some block is the last with a
property. -/
theorem exists_outermost (h : Grounded code ctx spans) {P : Span → Prop} (hm : m ∈ spans)
    (hkept : addressable ctx m = true) (hP : P m) :
    ∃ k ∈ spans, addressable ctx k = true ∧ P k ∧ (k = m ∨ k.Encloses m) ∧
      ∀ q ∈ spans, k.parent = some q.start → ¬ P q := by
  induction hstart : m.start using Nat.strongRecOn generalizing m with
  | ind start ih =>
    by_cases hup : ∃ q ∈ spans, m.parent = some q.start ∧ P q
    · obtain ⟨q, hq, hparent, hPq⟩ := hup
      have henc := (h.encloses_of_parent hq hm hparent).1
      have hkeptq := h.addressable_parent hm hkept hq hparent
      obtain ⟨k, hk, hkeptk, hPk, hover, hlast⟩ := ih q.start (hstart ▸ henc.1) hq hkeptq hPq rfl
      refine ⟨k, hk, hkeptk, hPk, .inr ?_, hlast⟩
      rcases hover with rfl | hover
      · exact henc
      · exact hover.trans henc
    · refine ⟨m, hm, hkept, hP, .inl rfl, ?_⟩
      intro q hq hparent hPq
      exact hup ⟨q, hq, hparent, hPq⟩

/-- A block with a scope stands in a top-level block or is one. -/
theorem exists_top_around (h : Grounded code ctx spans) (hm : m ∈ spans)
    (hkept : addressable ctx m = true) :
    ∃ k ∈ spans, addressable ctx k = true ∧ k.parent = none ∧ (k = m ∨ k.Encloses m) := by
  obtain ⟨k, hk, hkeptk, -, hover, hlast⟩ :=
    h.exists_outermost (P := fun _ => True) hm hkept trivial
  refine ⟨k, hk, hkeptk, ?_, hover⟩
  rw [Option.eq_none_iff_forall_ne_some]
  intro start hparent
  obtain ⟨q, hq, rfl, -⟩ := (rooted_of_pairsUp h.toPairsUp).parent k hk start hparent
  exact hlast q hq hparent trivial

theorem exists_top (h : Grounded code ctx spans) (hm : m ∈ spans)
    (hkept : addressable ctx m = true) (hi : m.Covers i) :
    ∃ k ∈ spans, addressable ctx k = true ∧ k.parent = none ∧ k.Covers i := by
  obtain ⟨k, hk, hkeptk, hparent, hover⟩ := h.exists_top_around hm hkept
  refine ⟨k, hk, hkeptk, hparent, ?_⟩
  rcases hover with rfl | hover
  · exact hi
  · exact hover.covers hi

/-- A block with a scope that stands in another block stands in a child of
it or is one. -/
theorem exists_child_around (h : Grounded code ctx spans) (hs : s ∈ spans) (hm : m ∈ spans)
    (hkept : addressable ctx m = true) (henc : s.Encloses m) :
    ∃ k ∈ childrenOf ctx spans s, k = m ∨ k.Encloses m := by
  obtain ⟨k, hk, hkeptk, henck, hover, hlast⟩ :=
    h.exists_outermost (P := s.Encloses) hm hkept henc
  have hparent : k.parent = some s.start := by
    cases hnone : k.parent with
    | none => exact absurd henck (h.not_encloses_of_parent_eq_none hs hk hnone)
    | some start =>
      obtain ⟨q, hq, rfl, -⟩ := (rooted_of_pairsUp h.toPairsUp).parent k hk start hnone
      rcases (h.encloses_of_parent hq hk hnone).2 s hs henck with rfl | hbetween
      · rfl
      · exact absurd hbetween (hlast q hq hnone)
  exact ⟨k, mem_childrenOf.2 ⟨hk, hkeptk, hparent⟩, hover⟩

theorem exists_child (h : Grounded code ctx spans) (hs : s ∈ spans) (hm : m ∈ spans)
    (hkept : addressable ctx m = true) (henc : s.Encloses m) (hi : m.Covers i) :
    ∃ k ∈ childrenOf ctx spans s, k.Covers i := by
  obtain ⟨k, hk, hover⟩ := h.exists_child_around hs hm hkept henc
  refine ⟨k, hk, ?_⟩
  rcases hover with rfl | hover
  · exact hi
  · exact hover.covers hi

/-- Whether `m` is the innermost of the blocks with scopes around an
offset. -/
structure Innermost (ctx : Context) (spans : List Span) (i : Nat) (m : Span) : Prop where
  mem : m ∈ spans
  kept : addressable ctx m = true
  covers : m.Covers i
  least : ∀ s ∈ spans, addressable ctx s = true → s.Covers i → s = m ∨ s.Encloses m

theorem exists_innermost (h : Grounded code ctx spans) (hs : s ∈ spans)
    (hkept : addressable ctx s = true) (hi : s.Covers i) : ∃ m, Innermost ctx spans i m := by
  let around := spans.filter fun q => addressable ctx q && decide (q.Covers i)
  have hmem : ∀ q, q ∈ around ↔ q ∈ spans ∧ addressable ctx q = true ∧ q.Covers i := by
    intro q
    simp [around]
  have hsome := (hmem s).2 ⟨hs, hkept, hi⟩
  obtain ⟨front, m, hsplit⟩ := List.eq_nil_or_concat around |>.resolve_left
    (List.ne_nil_of_mem hsome)
  have hascending : around.Pairwise fun a b => a.start < b.start :=
    h.ascending.sublist List.filter_sublist
  rw [hsplit, List.concat_eq_append, List.pairwise_append] at hascending
  obtain ⟨hm, hkeptm, him⟩ := (hmem m).1 (by simp [hsplit])
  refine ⟨m, hm, hkeptm, him, ?_⟩
  intro q hq hkeptq hiq
  have hplace := (hmem q).2 ⟨hq, hkeptq, hiq⟩
  rw [hsplit, List.concat_eq_append, List.mem_append, List.mem_singleton] at hplace
  rcases hplace with hfront | heq
  · have hlt := hascending.2.2 q hfront m (List.mem_singleton_self m)
    rcases h.eq_or_encloses hq hm hiq him with heq | henc | henc
    · exact .inl heq
    · exact .inr henc
    · have := henc.1
      omega
  · exact .inl heq

end Forest.Grounded

/-! ## Owners -/

/-- Whether the offset lies between the tags of the span. -/
def Span.Between (s : Span) (i : Nat) : Prop :=
  s.opener.stop ≤ i ∧ i < s.stop - Closing.length

instance (s : Span) (i : Nat) : Decidable (s.Between i) :=
  inferInstanceAs (Decidable (_ ∧ _))

/-- A part of an outline that text can belong to. -/
inductive Owner where
  | residual
  | tag (s : Scope)
  | own (s : Scope)

namespace Outline

/-- Whether the character at an offset belongs to the owner.  The residual
has what lies in no top-level block, and the own text of a scope has what
is not masked in it. -/
def Owns (o : Outline) (i : Nat) : Owner → Prop
  | .residual => ∀ s ∈ o.topLevel, ¬ s.Covers i
  | .tag s => s ∈ o.scopes ∧
      (s.start ≤ i ∧ i < s.innerStart ∨ s.innerStop ≤ i ∧ i < s.stop)
  | .own s => s ∈ o.scopes ∧ s.innerStart ≤ i ∧ i < s.innerStop ∧
      (o.own s)[i - s.innerStart]? ≠ some Block.maskChar

section Owners

variable {code : Text} {ctx : Context} {spans : List Span} {m : Span} {i : Nat} {w : Owner}

/-- What a scope owns lies in its block.  Tags own what lies outside the
contents, and the own text what lies in them and in no child. -/
theorem span_of_owns (h : Markup.PairsUp code spans)
    (howns : (outlineOf code ctx spans).Owns i w) :
    (w = .residual ∧ ∀ s ∈ spans, Forest.addressable ctx s = true → s.parent = none →
      ¬ s.Covers i) ∨
    ∃ s ∈ spans, Forest.addressable ctx s = true ∧ s.Covers i ∧
      (w = .tag (Forest.scopeOf code ctx spans s) ∧ ¬ s.Between i ∨
        w = .own (Forest.scopeOf code ctx spans s) ∧ s.Between i ∧
          ∀ k ∈ Forest.childrenOf ctx spans s, ¬ k.Covers i) := by
  cases w with
  | residual =>
    refine .inl ⟨rfl, ?_⟩
    intro s hs hkept htop
    exact howns _ (mem_topLevel_outlineOf.2 ⟨s, hs, hkept, htop, rfl⟩)
  | tag scope =>
    obtain ⟨hscope, hplace⟩ := howns
    obtain ⟨s, hs, hkept, rfl⟩ := Forest.mem_forestOf.1 hscope
    have hroom := h.room s hs
    simp only [Forest.innerStart_scopeOf, Forest.innerStop_scopeOf, Forest.scopeOf_start,
      Forest.scopeOf_stop] at hplace
    refine .inr ⟨s, hs, hkept, ?_, .inl ⟨rfl, ?_⟩⟩
    · unfold Span.Covers
      omega
    · unfold Span.Between
      omega
  | own scope =>
    obtain ⟨hscope, hlo, hhi, hfree⟩ := howns
    obtain ⟨s, hs, hkept, rfl⟩ := Forest.mem_forestOf.1 hscope
    have hroom := h.room s hs
    rw [Forest.innerStart_scopeOf] at hlo hfree
    rw [Forest.innerStop_scopeOf] at hhi
    refine .inr ⟨s, hs, hkept, ?_, .inr ⟨rfl, ⟨hlo, hhi⟩, ?_⟩⟩
    · unfold Span.Covers
      omega
    · intro k hk hcovers
      apply hfree
      show ((Forest.forestOf code ctx spans).own (Forest.scopeOf code ctx spans s))[_]? = _
      rw [Forest.getElem?_own h hs, Nat.add_sub_cancel' hlo, if_pos]
      rw [Forest.kids_forestOf h.ascending]
      exact ⟨_, List.mem_map_of_mem hk, hcovers⟩

/-- Only the innermost block around an offset can own it. -/
theorem owner_of_innermost (h : Forest.Grounded code ctx spans)
    (hm : Forest.Grounded.Innermost ctx spans i m)
    (howns : (outlineOf code ctx spans).Owns i w) :
    (w = .tag (Forest.scopeOf code ctx spans m) ∧ ¬ m.Between i) ∨
      (w = .own (Forest.scopeOf code ctx spans m) ∧ m.Between i) := by
  rcases span_of_owns h.toPairsUp howns with ⟨-, htop⟩ | ⟨s, hs, hkept, hcovers, hplace⟩
  · obtain ⟨k, hk, hkeptk, hparent, hik⟩ := h.exists_top hm.mem hm.kept hm.covers
    exact absurd hik (htop k hk hkeptk hparent)
  · rcases hm.least s hs hkept hcovers with rfl | henc
    · rcases hplace with hplace | ⟨hw, hinner, -⟩
      · exact .inl hplace
      · exact .inr ⟨hw, hinner⟩
    · have hinside := (h.inside_iff_encloses hs hm.mem).2 henc
      obtain ⟨hlo, hhi⟩ := hm.covers
      rcases hplace with ⟨-, houter⟩ | ⟨-, -, hfree⟩
      · obtain ⟨hlower, hupper⟩ := hinside
        apply absurd _ houter
        unfold Span.Between
        omega
      · obtain ⟨k, hk, hik⟩ := h.exists_child hs hm.mem hm.kept henc hm.covers
        exact absurd hik (hfree k hk)

/-- The innermost block around an offset owns it. -/
theorem owns_of_innermost (h : Forest.Grounded code ctx spans)
    (hmask : Block.maskChar ∉ code) (hm : Forest.Grounded.Innermost ctx spans i m) :
    ∃ w, (outlineOf code ctx spans).Owns i w := by
  have hscope : Forest.scopeOf code ctx spans m ∈ (outlineOf code ctx spans).scopes :=
    Forest.mem_forestOf.2 ⟨m, hm.mem, hm.kept, rfl⟩
  obtain ⟨hlo, hhi⟩ := hm.covers
  by_cases hinner : m.Between i
  · unfold Span.Between at hinner
    refine ⟨.own (Forest.scopeOf code ctx spans m), hscope, hinner.1, hinner.2, ?_⟩
    have hfree : ¬ ∃ kid ∈ (Forest.forestOf code ctx spans).kids
        (Forest.scopeOf code ctx spans m), kid.Covers i := by
      intro hcovered
      rw [Forest.kids_forestOf h.ascending] at hcovered
      obtain ⟨kid, hkid, hcovers⟩ := hcovered
      obtain ⟨k, hk, rfl⟩ := List.mem_map.1 hkid
      obtain ⟨hk, hkept, hparent⟩ := Forest.mem_childrenOf.1 hk
      have henc := (h.encloses_of_parent hm.mem hk hparent).1.1
      rcases hm.least k hk hkept hcovers with rfl | hover
      · omega
      · have := hover.1
        omega
    show ((Forest.forestOf code ctx spans).own (Forest.scopeOf code ctx spans m))[_]? ≠ _
    rw [Forest.innerStart_scopeOf, Forest.getElem?_own h.toPairsUp hm.mem,
      Nat.add_sub_cancel' hinner.1, if_neg hfree, Forest.inner_scopeOf,
      Text.getElem?_slice (by omega), Nat.add_sub_cancel' hinner.1]
    intro heq
    exact hmask (List.mem_of_getElem? heq)
  · unfold Span.Between at hinner
    refine ⟨.tag (Forest.scopeOf code ctx spans m), hscope, ?_⟩
    simp only [Forest.innerStart_scopeOf, Forest.innerStop_scopeOf, Forest.scopeOf_start,
      Forest.scopeOf_stop]
    omega

/-- Every offset has one owner. -/
theorem existsUnique_owner (h : Forest.Grounded code ctx spans)
    (hmask : Block.maskChar ∉ code) (i : Nat) :
    ∃! w, (outlineOf code ctx spans).Owns i w := by
  by_cases haround : ∃ s ∈ spans, Forest.addressable ctx s = true ∧ s.Covers i
  · obtain ⟨s, hs, hkept, hi⟩ := haround
    obtain ⟨m, hm⟩ := h.exists_innermost hs hkept hi
    obtain ⟨w, howns⟩ := owns_of_innermost h hmask hm
    refine ⟨w, howns, ?_⟩
    intro v hv
    rcases owner_of_innermost h hm howns with ⟨hw, hplace⟩ | ⟨hw, hplace⟩ <;>
      rcases owner_of_innermost h hm hv with ⟨hv, hplace'⟩ | ⟨hv, hplace'⟩
    · rw [hw, hv]
    · exact absurd hplace' hplace
    · exact absurd hplace hplace'
    · rw [hw, hv]
  · refine ⟨.residual, ?_, ?_⟩
    · intro scope hscope hcovers
      obtain ⟨s, hs, hkept, -, rfl⟩ := mem_topLevel_outlineOf.1 hscope
      exact haround ⟨s, hs, hkept, hcovers⟩
    · intro w howns
      rcases span_of_owns h.toPairsUp howns with ⟨hw, -⟩ | ⟨s, hs, hkept, hcovers, -⟩
      · exact hw
      · exact absurd ⟨s, hs, hkept, hcovers⟩ haround

end Owners

/-! ## The division -/

/-- What holds of the contents of a scope.  Its children are those that
the outline finds for it. -/
structure Parts (o : Outline) (s : Scope) : Prop where
  source : s.source = o.code
  within : s.start < s.stop ∧ s.stop ≤ o.code.length
  /-- The tags stand around the contents. -/
  outer : ∃ c : Closing, s.outer = s.opening ++ s.inner ++ c.spelling
  length : (o.own s).length = s.inner.length
  /-- The own text is masked where the children stand. -/
  masked : ∀ i < s.inner.length, ((o.own s)[i]? = some Block.maskChar ↔
    ∃ kid ∈ o.forest.kids s, kid.Covers (s.innerStart + i))
  kept : ∀ i, (¬ ∃ kid ∈ o.forest.kids s, kid.Covers (s.innerStart + i)) →
    (o.own s)[i]? = s.inner[i]?
  /-- A child stands in its parent where its relative offset says. -/
  kids : ∀ kid ∈ o.forest.kids s, ∃ offset : Nat, kid.relativeOffset kid.parent = offset ∧
    kid.outer = s.outer.slice offset (offset + (kid.stop - kid.start))

theorem parts_scopeOf {code : Text} {ctx : Context} {spans : List Span} {s : Span}
    (h : Markup.PairsUp code spans) (hmask : Block.maskChar ∉ code) (hs : s ∈ spans) :
    (outlineOf code ctx spans).Parts (Forest.scopeOf code ctx spans s) := by
  have hroom := h.room s hs
  have hkept : ∀ i, (¬ ∃ kid ∈ (outlineOf code ctx spans).forest.kids
      (Forest.scopeOf code ctx spans s), kid.Covers (s.opener.stop + i)) →
      ((outlineOf code ctx spans).own (Forest.scopeOf code ctx spans s))[i]? =
        (Forest.scopeOf code ctx spans s).inner[i]? := by
    intro i hfree
    exact (Forest.getElem?_own h hs i).trans (if_neg hfree)
  refine ⟨rfl, ?_, Forest.outer_eq h hs, Forest.length_own h hs, ?_, hkept, ?_⟩
  · show s.start < s.stop ∧ s.stop ≤ code.length
    omega
  · intro i hi
    constructor
    · intro hchar
      by_contra hfree
      rw [Forest.inner_scopeOf, Text.length_slice (by omega)] at hi
      rw [hkept i hfree, Forest.inner_scopeOf, Text.getElem?_slice hi] at hchar
      exact hmask (List.mem_of_getElem? hchar)
    · intro hcovered
      exact (Forest.getElem?_own h hs i).trans (if_pos hcovered)
  · intro kid hkid
    have hkids : (outlineOf code ctx spans).forest.kids (Forest.scopeOf code ctx spans s) = _ :=
      Forest.kids_forestOf h.ascending
    rw [hkids] at hkid
    obtain ⟨k, hk, rfl⟩ := List.mem_map.1 hkid
    obtain ⟨hk, -, hparent⟩ := Forest.mem_childrenOf.1 hk
    obtain ⟨hlt, hgt⟩ := (h.encloses_of_parent hs hk hparent).1
    have hroomk := h.room k hk
    refine ⟨k.start - s.start, ?_, ?_⟩
    · rw [Forest.scopeOf_parent, hparent]
      show (k.start : Int) - s.start = ((k.start - s.start : Nat) : Int)
      omega
    · rw [Forest.scopeOf_start, Forest.scopeOf_stop, Forest.outer_scopeOf, Forest.outer_scopeOf,
        Text.slice_slice (by omega)]
      congr 1
      · omega
      · omega

/-- What holds of an outline.  Every character of its text has one owner,
the residual is what no top-level block covers, and the scopes have
different identifiers. -/
structure Divided (o : Outline) : Prop where
  owner : ∀ i < o.code.length, ∃! w, o.Owns i w
  residual : o.residual = Excision.outside (o.topLevel.map Scope.toBlock) 0 o.code
  ids : (o.scopes.map Scope.id).Nodup
  parts : ∀ s ∈ o.scopes, o.Parts s

/-- An outline divides the normalised text of its template among its
scopes and the residual. -/
theorem divided_of_ofText {t : Text} {ctx : Context} {o : Outline} (h : ofText t ctx = .ok o) :
    o.code = normalize t ∧ o.Divided := by
  obtain ⟨spans, hgrounded, rfl⟩ := grounded_of_ofText h
  have hmask := maskChar_not_mem_normalize t
  refine ⟨rfl, ?_, residual_outlineOf hgrounded.toPairsUp, ?_, ?_⟩
  · intro i _
    exact existsUnique_owner hgrounded hmask i
  · show (((spans.filter (Forest.addressable ctx)).map _).map Scope.id).Nodup
    rw [List.map_map, List.Nodup, List.pairwise_map]
    refine (hgrounded.ascending.sublist List.filter_sublist).imp ?_
    intro a b hlt
    exact Nat.ne_of_lt hlt
  · intro scope hscope
    obtain ⟨s, hs, -, rfl⟩ := Forest.mem_forestOf.1 hscope
    exact parts_scopeOf hgrounded.toPairsUp hmask hs

/-- A block that is left out inside a block leaves its text to that block,
beside a child that is masked there. -/
theorem divided_of_ofText_left_out :
    ∃ o, ofText
        "x<% loop $A %>y<% with $Top %>z<% end_with %><% with $B %>w<% end_with %><% end_loop %>"
        Context.base = .ok o ∧
      o.code = normalize
        "x<% loop $A %>y<% with $Top %>z<% end_with %><% with $B %>w<% end_with %><% end_loop %>" ∧
      o.Divided := by
  have hspans : Markup.spansOf (normalize
      "x<% loop $A %>y<% with $Top %>z<% end_with %><% with $B %>w<% end_with %><% end_loop %>") =
        .ok [⟨⟨.loop, 1, "<% loop $A %>", "$A"⟩, none, 87⟩,
          ⟨⟨.within, 15, "<% with $Top %>", "$Top"⟩, some 1, 45⟩,
          ⟨⟨.within, 45, "<% with $B %>", "$B"⟩, some 1, 73⟩] := by
    refine Markup.spansOf_of_nesting
      (n := .block ⟨.loop, 1, "<% loop $A %>", "$A"⟩
        (.block ⟨.within, 15, "<% with $Top %>", "$Top"⟩ .nil ⟨.within, 31, "<% end_with %>"⟩
          (.block ⟨.within, 45, "<% with $B %>", "$B"⟩ .nil ⟨.within, 59, "<% end_with %>"⟩ .nil))
        ⟨.loop, 73, "<% end_loop %>"⟩ .nil)
      ?_ ?_
    · exact (Markup.tags_eq_of_perm (by decide +kernel) (by decide +kernel)).symm
    · simp only [Nesting.Within]
      decide
  have houtline := ofText_of_spansOf Context.base hspans (Forest.kept_iff.2 (by decide))
  exact ⟨_, houtline, divided_of_ofText houtline⟩

end Outline

end TemplateScopes
