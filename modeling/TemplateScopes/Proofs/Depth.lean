import TemplateScopes.Proofs.Ownership

/-!
# How deep a block stands

The depth of an offset is the number of spans that cover it.  A block
stands one deeper than its parent, so its depth counts the blocks of its
chain of parents as well.

There are two groups.

* Spans.  `Span.depthAt` counts spans, and `depthAt_top` and `depthAt_child`
  say what the start of a block has by its parent.
* Chains.  `Outline.ParentChain` lists the blocks around a block, and
  `exists_parentChain` that it is one shorter than the block is deep.
-/

namespace TemplateScopes

/-! ## Spans -/

/-- How many of the spans cover the offset. -/
def Span.depthAt (spans : List Span) (i : Nat) : Nat :=
  spans.countP fun s => s.Covers i

namespace Markup.PairsUp

variable {t : Text} {spans : List Span} {s q r : Span}

theorem nodup (h : PairsUp t spans) : spans.Nodup := by
  refine h.ascending.imp ?_
  intro a b hlt heq
  exact Nat.ne_of_lt hlt (congrArg Span.start heq)

/-- A block starts in itself and in the blocks around it. -/
theorem covers_start_iff (h : PairsUp t spans) (hr : r ∈ spans) (hs : s ∈ spans) :
    r.Covers s.start ↔ r = s ∨ r.Encloses s := by
  have hroom := h.room s hs
  have hself : s.Covers s.start := ⟨Nat.le_refl _, by omega⟩
  constructor
  · intro hcovers
    rcases h.eq_or_encloses hr hs hcovers hself with heq | henc | henc
    · exact .inl heq
    · exact .inr henc
    · exact absurd hcovers.1 (Nat.not_le_of_lt henc.1)
  · intro hover
    rcases hover with rfl | henc
    · exact hself
    · exact henc.covers hself

theorem depthAt_top (h : PairsUp t spans) (hs : s ∈ spans) (htop : s.parent = none) :
    Span.depthAt spans s.start = 1 := by
  have hcount : spans.count s = 1 := List.count_eq_one_of_mem h.nodup hs
  rw [← hcount, List.count_eq_countP]
  refine List.countP_congr fun r hr => ?_
  have hnone := h.not_encloses_of_parent_eq_none hr hs htop
  simp [h.covers_start_iff hr hs, hnone]

/-- A block stands one deeper than its parent. -/
theorem depthAt_child (h : PairsUp t spans) (hs : s ∈ spans) (hq : q ∈ spans)
    (hparent : s.parent = some q.start) :
    Span.depthAt spans s.start = Span.depthAt spans q.start + 1 := by
  obtain ⟨henc, hleast⟩ := h.encloses_of_parent hq hs hparent
  have hself : s.Covers s.start := (h.covers_start_iff hs hs).2 (.inl rfl)
  have hother : ¬ s.Covers q.start := fun hcovers => Nat.not_le_of_lt henc.1 hcovers.1
  have hsplit := List.perm_cons_erase hs
  have hrest : (spans.erase s).countP (fun r => r.Covers s.start) =
      (spans.erase s).countP fun r => r.Covers q.start := by
    refine List.countP_congr fun r hr => ?_
    obtain ⟨hne, hr⟩ := h.nodup.mem_erase_iff.1 hr
    rw [decide_eq_true_eq, decide_eq_true_eq, h.covers_start_iff hr hs, h.covers_start_iff hr hq]
    constructor
    · intro hover
      exact hleast r hr (hover.resolve_left hne)
    · intro hover
      rcases hover with rfl | hover
      · exact .inr henc
      · exact .inr (hover.trans henc)
  unfold Span.depthAt
  rw [hsplit.countP_eq, hsplit.countP_eq, List.countP_cons, List.countP_cons,
    if_pos (decide_eq_true hself), if_neg (by simpa using hother), hrest]

end Markup.PairsUp

namespace Forest.Grounded

variable {code : Text} {ctx : Context} {spans : List Span} {s r : Span}

/-- All blocks around a block with a scope have scopes. -/
theorem addressable_of_encloses (h : Grounded code ctx spans) (hs : s ∈ spans)
    (hkept : addressable ctx s = true) (hr : r ∈ spans) (henc : r.Encloses s) :
    addressable ctx r = true := by
  induction hstart : s.start using Nat.strongRecOn generalizing s with
  | ind start ih =>
    have hhas := h.parent s hs
    unfold Span.HasParent at hhas
    cases hparent : s.parent with
    | none =>
      rw [hparent] at hhas
      exact absurd henc (hhas r hr)
    | some id =>
      rw [hparent] at hhas
      obtain ⟨q, hq, rfl, hencq, hleast⟩ := hhas
      have hkeptq := h.addressable_parent hs hkept hq hparent
      rcases hleast r hr henc with rfl | hover
      · exact hkeptq
      · exact ih q.start (hstart ▸ hencq.1) hq hkeptq hover rfl

/-- No block stands deeper than there are blocks with scopes. -/
theorem depthAt_le (h : Grounded code ctx spans) (hs : s ∈ spans)
    (hkept : addressable ctx s = true) :
    Span.depthAt spans s.start ≤ (forestOf code ctx spans).scopes.length := by
  unfold forestOf
  rw [List.length_map, ← List.countP_eq_length_filter]
  refine List.countP_mono_left fun r hr hcovers => ?_
  rcases (h.covers_start_iff hr hs).1 (of_decide_eq_true hcovers) with rfl | henc
  · exact hkept
  · exact h.addressable_of_encloses hs hkept hr henc

end Forest.Grounded

/-! ## Chains -/

namespace Outline

/-- The blocks around a block, from its parent up to a top-level block. -/
inductive ParentChain (o : Outline) : Scope → List Scope → Prop where
  | top {s : Scope} (hparent : s.parent = none) : ParentChain o s []
  | child {s p : Scope} {id : Nat} {chain : List Scope} (hparent : s.parent = some id)
      (hp : o.byId? id = some p) (h : ParentChain o p chain) : ParentChain o s (p :: chain)

theorem ParentChain.unique {o : Outline} {s : Scope} {chain chain' : List Scope}
    (h : o.ParentChain s chain) (h' : o.ParentChain s chain') : chain = chain' := by
  induction h generalizing chain' with
  | top hparent =>
    cases h' with
    | top => rfl
    | child hparent' => rw [hparent] at hparent'; cases hparent'
  | child hparent hp _ ih =>
    cases h' with
    | top hparent' => rw [hparent] at hparent'; cases hparent'
    | child hparent' hp' h' =>
      rw [hparent, Option.some.injEq] at hparent'
      subst hparent'
      rw [hp, Option.some.injEq] at hp'
      subst hp'
      rw [ih h']

variable {code : Text} {ctx : Context} {spans : List Span} {s : Span}

/-- The chain of parents is one shorter than the block is deep. -/
theorem exists_parentChain (h : Forest.Grounded code ctx spans) (hs : s ∈ spans)
    (hkept : Forest.addressable ctx s = true) :
    ∃ chain, ParentChain (outlineOf code ctx spans) (Forest.scopeOf code ctx spans s) chain ∧
      Span.depthAt spans s.start = 1 + chain.length := by
  induction hstart : s.start using Nat.strongRecOn generalizing s with
  | ind start ih =>
    subst hstart
    cases hparent : s.parent with
    | none => exact ⟨[], .top hparent, h.depthAt_top hs hparent⟩
    | some id =>
      obtain ⟨q, hq, rfl, hlt⟩ := (Forest.rooted_of_pairsUp h.toPairsUp).parent s hs id hparent
      have hkeptq := h.addressable_parent hs hkept hq hparent
      obtain ⟨chain, hchain, hdepth⟩ := ih q.start hlt hq hkeptq rfl
      refine ⟨_, .child hparent (Forest.scope?_forestOf h.ascending hq hkeptq) hchain, ?_⟩
      rw [h.depthAt_child hs hq hparent, hdepth, List.length_cons]
      omega

end Outline

end TemplateScopes
