import TemplateScopes.Proofs.Pairing
import TemplateScopes.Scope.Outline

/-!
# The forest of a text

A forest is built span by span, and each new scope is written into the
list of children of its parent.  This module says what it is in the end.

There are three groups.

* The scopes of spans.  `Forest.scopeOf` and `Forest.forestOf` write the
  forest down at once, and `scope?_forestOf` and `kids_forestOf` look
  scopes up in it.
* The build.  `add_forestOf` and `add_orphan` say what one step does, and
  `ofSpans_eq_ok_iff` says it of the whole: the build succeeds if no block
  is an `Orphan`.
* The outline.  `Outline.grounded_of_ofText` gives the spans that an
  outline is made of, and what is known of them.
-/

namespace TemplateScopes

namespace Forest

/-! ## The scopes of spans -/

/-- Whether the block of a span gets a scope. -/
def addressable (ctx : Context) (s : Span) : Bool :=
  !ctx.isGlobalAccessor s.opener.name

/-- The spans of the children of a block. -/
def childrenOf (ctx : Context) (spans : List Span) (s : Span) : List Span :=
  spans.filter fun c => addressable ctx c && decide (c.parent = some s.start)

/-- The scope of a span among others. -/
def scopeOf (code : Text) (ctx : Context) (spans : List Span) (s : Span) : Scope :=
  { blockOf code s with parent := s.parent, children := (childrenOf ctx spans s).map Span.start }

/-- The forest of spans of a text. -/
def forestOf (code : Text) (ctx : Context) (spans : List Span) : Forest :=
  ⟨(spans.filter (addressable ctx)).map (scopeOf code ctx spans),
    spans.filter fun s => !addressable ctx s⟩

/-- Whether the block of `s` gets a scope and stands directly in the block
of `q`, which gets none. -/
structure Orphan (ctx : Context) (spans : List Span) (s q : Span) : Prop where
  mem : s ∈ spans
  addressable : addressable ctx s = true
  parent_mem : q ∈ spans
  parent_eq : s.parent = some q.start
  left_out : Forest.addressable ctx q = false

theorem kept_iff {ctx : Context} {spans : List Span} :
    (∀ s q, ¬ Orphan ctx spans s q) ↔
      ∀ s ∈ spans, ∀ q ∈ spans, s.parent = some q.start → Forest.addressable ctx s = true →
        Forest.addressable ctx q = true := by
  constructor
  · intro h s hs q hq hparent hkept
    by_contra hleft
    rw [Bool.not_eq_true] at hleft
    exact h s q ⟨hs, hkept, hq, hparent, hleft⟩
  · intro h s q horphan
    have hkept := h s horphan.mem q horphan.parent_mem horphan.parent_eq horphan.addressable
    rw [horphan.left_out] at hkept
    exact Bool.noConfusion hkept

/-- Whether the spans are in the order of their offsets, each with its
parent in front of it. -/
structure Rooted (spans : List Span) : Prop where
  ascending : spans.Pairwise fun a b => a.start < b.start
  parent : ∀ s ∈ spans, ∀ start, s.parent = some start →
    ∃ q ∈ spans, q.start = start ∧ start < s.start

theorem rooted_of_pairsUp {t : Text} {spans : List Span} (h : Markup.PairsUp t spans) :
    Rooted spans := by
  refine ⟨h.ascending, ?_⟩
  intro s hs start hstart
  have hparent := h.parent s hs
  unfold Span.HasParent at hparent
  rw [hstart] at hparent
  obtain ⟨q, hq, rfl, henc, -⟩ := hparent
  exact ⟨q, hq, rfl, henc.1⟩

section Lookup

variable {code : Text} {ctx : Context} {spans : List Span} {s q : Span}

@[simp] theorem scopeOf_start : (scopeOf code ctx spans s).start = s.start := rfl

@[simp] theorem scopeOf_stop : (scopeOf code ctx spans s).stop = s.stop := rfl

@[simp] theorem scopeOf_parent : (scopeOf code ctx spans s).parent = s.parent := rfl

theorem mem_forestOf {scope : Scope} :
    scope ∈ (forestOf code ctx spans).scopes ↔
      ∃ s ∈ spans, addressable ctx s = true ∧ scopeOf code ctx spans s = scope := by
  simp [forestOf, and_assoc]

theorem mem_childrenOf :
    q ∈ childrenOf ctx spans s ↔
      q ∈ spans ∧ addressable ctx q = true ∧ q.parent = some s.start := by
  simp [childrenOf]

/-- Spans with different starts are found by their starts. -/
theorem find?_start (hascending : spans.Pairwise fun a b => a.start < b.start)
    (hs : s ∈ spans) : spans.find? (fun q => q.start = s.start) = some s := by
  cases hfound : spans.find? fun q => q.start = s.start with
  | none =>
    have hne := List.find?_eq_none.1 hfound s hs
    simp at hne
  | some q =>
    have hstart := List.find?_some hfound
    have hq := List.mem_of_find?_eq_some hfound
    rw [Markup.eq_of_start_eq hascending hq hs (by simpa using hstart)]

theorem scope?_eq_map_find? (start : Nat) :
    (forestOf code ctx spans).scope? start =
      ((spans.filter (addressable ctx)).find? fun s => s.start = start).map
        (scopeOf code ctx spans) := by
  unfold scope? forestOf
  rw [List.find?_map]
  rfl

/-- A block that has a scope is found by its start. -/
theorem scope?_forestOf (hascending : spans.Pairwise fun a b => a.start < b.start)
    (hs : s ∈ spans) (haddressable : addressable ctx s = true) :
    (forestOf code ctx spans).scope? s.start = some (scopeOf code ctx spans s) := by
  have hkept : s ∈ spans.filter (addressable ctx) := List.mem_filter.2 ⟨hs, haddressable⟩
  rw [scope?_eq_map_find?, find?_start (hascending.sublist List.filter_sublist) hkept]
  rfl

/-- A block that has no scope is not found. -/
theorem scope?_forestOf_eq_none (hascending : spans.Pairwise fun a b => a.start < b.start)
    (hs : s ∈ spans) (hleft : addressable ctx s = false) :
    (forestOf code ctx spans).scope? s.start = none := by
  rw [scope?_eq_map_find?, Option.map_eq_none_iff, List.find?_eq_none]
  intro q hq hstart
  obtain ⟨hq, haddressable⟩ := List.mem_filter.1 hq
  have heq := Markup.eq_of_start_eq hascending hq hs (by simpa using hstart)
  rw [heq, hleft] at haddressable
  simp at haddressable

/-- Blocks that have scopes are found by their starts. -/
theorem named_starts (hascending : spans.Pairwise fun a b => a.start < b.start) {l : List Span}
    (hl : ∀ c ∈ l, c ∈ spans ∧ addressable ctx c = true) :
    (forestOf code ctx spans).named (l.map Span.start) = l.map (scopeOf code ctx spans) := by
  unfold named
  rw [List.filterMap_map, ← List.filterMap_eq_map]
  refine List.filterMap_congr ?_
  intro c hc
  obtain ⟨hc, haddressable⟩ := hl c hc
  exact scope?_forestOf hascending hc haddressable

/-- The children of a scope are the scopes of its children's spans. -/
theorem kids_forestOf (hascending : spans.Pairwise fun a b => a.start < b.start) :
    (forestOf code ctx spans).kids (scopeOf code ctx spans s) =
      (childrenOf ctx spans s).map (scopeOf code ctx spans) := by
  apply named_starts hascending
  intro c hc
  obtain ⟨hc, haddressable, -⟩ := mem_childrenOf.1 hc
  exact ⟨hc, haddressable⟩

end Lookup

/-! ## The build -/

section Build

variable {code : Text} {ctx : Context} {spans seen rest : List Span} {s q : Span}

/-- A span that is not a child of a block leaves its scope as it is. -/
theorem scopeOf_append_of_not_child
    (h : ¬ (addressable ctx s = true ∧ s.parent = some q.start)) :
    scopeOf code ctx (seen ++ [s]) q = scopeOf code ctx seen q := by
  have hchildren : childrenOf ctx (seen ++ [s]) q = childrenOf ctx seen q := by
    unfold childrenOf
    rw [List.filter_append, List.filter_cons_of_neg (by simpa using h), List.filter_nil,
      List.append_nil]
  unfold scopeOf
  rw [hchildren]

/-- A child of a block comes behind its children so far. -/
theorem scopeOf_append_child (haddressable : addressable ctx s = true)
    (hparent : s.parent = some q.start) :
    scopeOf code ctx (seen ++ [s]) q =
      { scopeOf code ctx seen q with
        children := (scopeOf code ctx seen q).children ++ [s.start] } := by
  have hchildren : childrenOf ctx (seen ++ [s]) q = childrenOf ctx seen q ++ [s] := by
    unfold childrenOf
    rw [List.filter_append, List.filter_cons_of_pos (by simp [haddressable, hparent]),
      List.filter_nil]
  unfold scopeOf
  rw [hchildren, List.map_append]
  rfl

/-- The scopes so far, with a new child written into them. -/
theorem adopt_scopes (haddressable : addressable ctx s = true)
    (hfresh : ∀ c ∈ seen, c.start ≠ s.start) {parent : Nat} (hparent : s.parent = some parent) :
    adopt parent s.start ((seen.filter (addressable ctx)).map (scopeOf code ctx seen)) =
      (seen.filter (addressable ctx)).map (scopeOf code ctx (seen ++ [s])) := by
  unfold adopt
  rw [List.map_map]
  refine List.map_congr_left ?_
  intro q _
  rw [Function.comp_apply]
  have hnew : s.start ∉ (scopeOf code ctx seen q).children := by
    intro hmem
    obtain ⟨c, hc, hstart⟩ := List.mem_map.1 hmem
    exact hfresh c (mem_childrenOf.1 hc).1 hstart
  by_cases hq : q.start = parent
  · rw [scopeOf_append_child haddressable (hq ▸ hparent)]
    exact if_pos ⟨hq, hnew⟩
  · rw [scopeOf_append_of_not_child (by simp [hparent, Ne.symm hq])]
    exact if_neg fun hboth => hq hboth.1

/-- A span that stands in none of those before it brings a scope of its
own, which has no children yet. -/
theorem scopes_append (haddressable : addressable ctx s = true)
    (hfirst : ∀ c ∈ seen ++ [s], c.parent ≠ some s.start) :
    (forestOf code ctx (seen ++ [s])).scopes =
      (seen.filter (addressable ctx)).map (scopeOf code ctx (seen ++ [s])) ++
        [{ blockOf code s with parent := s.parent, children := [] }] := by
  have hchildren : childrenOf ctx (seen ++ [s]) s = [] := by
    rw [List.eq_nil_iff_forall_not_mem]
    intro c hc
    obtain ⟨hc, -, hparent⟩ := mem_childrenOf.1 hc
    exact hfirst c hc hparent
  unfold forestOf
  rw [List.filter_append, List.filter_cons_of_pos haddressable, List.filter_nil,
    List.map_append, List.map_singleton]
  show _ ++ [scopeOf code ctx (seen ++ [s]) s] = _
  unfold scopeOf
  rw [hchildren]
  rfl

theorem excluded_append (haddressable : addressable ctx s = true) :
    (forestOf code ctx (seen ++ [s])).excluded = (forestOf code ctx seen).excluded := by
  unfold forestOf
  simp [haddressable]

/-- What a beginning of the spans holds. -/
private theorem front_facts (hrooted : Rooted spans) (hspans : spans = seen ++ s :: rest) :
    (∀ c ∈ seen, c.start < s.start) ∧ (∀ c ∈ seen ++ [s], c.parent ≠ some s.start) ∧
      ∀ start, s.parent = some start → ∃ q ∈ seen, q.start = start := by
  have hsplit := hrooted.ascending
  rw [hspans, List.pairwise_append, List.pairwise_cons] at hsplit
  obtain ⟨-, ⟨hlater, -⟩, hacross⟩ := hsplit
  have hbefore : ∀ c ∈ seen, c.start < s.start := by
    intro c hc
    exact hacross c hc s (by simp)
  refine ⟨hbefore, ?_, ?_⟩
  · intro c hc hparent
    have hmem : c ∈ spans := by
      rw [hspans]
      rcases List.mem_append.1 hc with hc | hc
      · exact List.mem_append_left _ hc
      · rw [List.mem_singleton.1 hc]
        exact List.mem_append_right _ List.mem_cons_self
    obtain ⟨q, -, -, hlt⟩ := hrooted.parent c hmem s.start hparent
    rcases List.mem_append.1 hc with hc | hc
    · have := hbefore c hc
      omega
    · rw [List.mem_singleton.1 hc] at hlt
      omega
  · intro start hparent
    obtain ⟨q, hq, hstart, hlt⟩ := hrooted.parent s (by simp [hspans]) start hparent
    rw [hspans, List.mem_append, List.mem_cons] at hq
    rcases hq with hq | hq | hq
    · exact ⟨q, hq, hstart⟩
    · rw [← hstart, hq] at hlt
      omega
    · have := hlater q hq
      omega

/-- One more span brings the forest of the spans so far to the forest with
that span, if the block has a parent to belong to. -/
theorem add_forestOf (hrooted : Rooted spans) (hspans : spans = seen ++ s :: rest)
    (hkept : ∀ q, ¬ Orphan ctx spans s q) :
    (forestOf code ctx seen).add code ctx spans s = .ok (forestOf code ctx (seen ++ [s])) := by
  obtain ⟨hbefore, hfirst, hearlier⟩ := front_facts hrooted hspans
  unfold add
  cases haccessor : ctx.isGlobalAccessor s.opener.name with
  | true =>
    have hleft : addressable ctx s = false := by
      rw [addressable, haccessor]
      rfl
    have hscopes : ∀ q, scopeOf code ctx (seen ++ [s]) q = scopeOf code ctx seen q := by
      intro q
      exact scopeOf_append_of_not_child (by simp [hleft])
    rw [if_pos rfl]
    simp [forestOf, hleft, hscopes]
  | false =>
    have haddressable : addressable ctx s = true := by
      rw [addressable, haccessor]
      rfl
    have hforest : forestOf code ctx (seen ++ [s]) =
        ⟨(forestOf code ctx (seen ++ [s])).scopes, (forestOf code ctx seen).excluded⟩ := by
      rw [← excluded_append haddressable]
    rw [if_neg (by simp), hforest, scopes_append haddressable hfirst]
    split
    · rename_i hparent
      have hscopes : ∀ q, scopeOf code ctx (seen ++ [s]) q = scopeOf code ctx seen q := by
        intro q
        exact scopeOf_append_of_not_child (by simp [hparent])
      simp [forestOf, hscopes, hparent]
    · rename_i parent hparent
      obtain ⟨q, hq, rfl⟩ := hearlier parent hparent
      have hparents : addressable ctx q = true := by
        by_contra hleft
        rw [Bool.not_eq_true] at hleft
        exact hkept q ⟨by simp [hspans], haddressable, by simp [hspans, hq], hparent, hleft⟩
      have hseen : seen.Pairwise fun a b => a.start < b.start :=
        hrooted.ascending.sublist (hspans ▸ List.sublist_append_left ..)
      rw [scope?_forestOf hseen hq hparents]
      show Except.ok _ = Except.ok _
      have hfresh : ∀ c ∈ seen, c.start ≠ s.start := by
        intro c hc
        exact Nat.ne_of_lt (hbefore c hc)
      rw [← adopt_scopes haddressable hfresh hparent]
      rfl

/-- A block that stands directly in one without a scope stops the build. -/
theorem add_orphan (hrooted : Rooted spans) (hspans : spans = seen ++ s :: rest)
    (horphan : Orphan ctx spans s q) :
    (forestOf code ctx seen).add code ctx spans s =
      .error (.unresolvedParent s.start q.start q.opener.name) := by
  obtain ⟨-, -, hearlier⟩ := front_facts hrooted hspans
  have haccessor : ctx.isGlobalAccessor s.opener.name = false := by
    simpa [addressable] using horphan.addressable
  obtain ⟨p, hp, hstart⟩ := hearlier q.start horphan.parent_eq
  have heq : p = q :=
    Markup.eq_of_start_eq hrooted.ascending (by simp [hspans, hp]) horphan.parent_mem hstart
  rw [heq] at hp
  have hseen : seen.Pairwise fun a b => a.start < b.start :=
    hrooted.ascending.sublist (hspans ▸ List.sublist_append_left ..)
  have hname : nameAt spans q.start = q.opener.name := by
    unfold nameAt
    rw [find?_start hrooted.ascending horphan.parent_mem]
  unfold add
  rw [haccessor, if_neg (by simp)]
  simp only [horphan.parent_eq, scope?_forestOf_eq_none hseen hp horphan.left_out, hname]

/-- The build from some of the spans on succeeds if none of the others is
an orphan. -/
theorem addAll_eq_ok_iff (hrooted : Rooted spans) (hspans : spans = seen ++ rest) {f : Forest} :
    (forestOf code ctx seen).addAll code ctx spans rest = .ok f ↔
      (∀ s ∈ rest, ∀ q, ¬ Orphan ctx spans s q) ∧ f = forestOf code ctx spans := by
  induction rest generalizing seen with
  | nil =>
    rw [List.append_nil] at hspans
    rw [addAll, hspans]
    simp [eq_comm]
  | cons s rest ih =>
    rw [addAll]
    by_cases hkept : ∀ q, ¬ Orphan ctx spans s q
    · rw [add_forestOf hrooted hspans hkept]
      show (forestOf code ctx (seen ++ [s])).addAll code ctx spans rest = .ok f ↔ _
      rw [ih (by simp [hspans])]
      simp [hkept]
    · have hcopy := hkept
      simp only [not_forall, not_not] at hcopy
      obtain ⟨q, horphan⟩ := hcopy
      rw [add_orphan hrooted hspans horphan]
      simp [hkept]

/-- The forest of spans exists if no block is an orphan. -/
theorem ofSpans_eq_ok_iff (hrooted : Rooted spans) {f : Forest} :
    ofSpans code ctx spans = .ok f ↔
      (∀ s q, ¬ Orphan ctx spans s q) ∧ f = forestOf code ctx spans := by
  have hall : (∀ s ∈ spans, ∀ q, ¬ Orphan ctx spans s q) ↔ ∀ s q, ¬ Orphan ctx spans s q := by
    constructor
    · intro h s q horphan
      exact h s horphan.mem q horphan
    · intro h s _ q
      exact h s q
  rw [← hall]
  show (forestOf code ctx []).addAll code ctx spans spans = .ok f ↔ _
  exact addAll_eq_ok_iff hrooted (List.nil_append spans).symm

theorem ofText_of_malformed {t : Text} {fault : TagFault} (h : Markup.spansOf t = .error fault) :
    ofText t ctx = .error (.malformed fault) := by
  unfold Markup.spansOf at h
  unfold ofText
  cases hscan : scanTags t with
  | error _ =>
    rw [hscan, Except.error.injEq] at h
    rw [h]
  | ok found =>
    rw [hscan] at h
    simp only [h]

theorem ofText_of_spansOf {t : Text} (h : Markup.spansOf t = .ok spans) :
    ofText t ctx = ofSpans t ctx spans := by
  unfold Markup.spansOf at h
  unfold ofText
  cases hscan : scanTags t with
  | error _ =>
    rw [hscan] at h
    simp at h
  | ok found =>
    rw [hscan] at h
    simp only [h]

theorem ofText_eq_ok_iff {t : Text} {f : Forest} :
    ofText t ctx = .ok f ↔
      ∃ spans, Markup.spansOf t = .ok spans ∧ (∀ s q, ¬ Orphan ctx spans s q) ∧
        f = forestOf t ctx spans := by
  cases hspans : Markup.spansOf t with
  | error fault => simp [ofText_of_malformed hspans]
  | ok spans =>
    have hrooted := rooted_of_pairsUp (Markup.pairsUp_of_spansOf hspans)
    simp [ofText_of_spansOf hspans, ofSpans_eq_ok_iff hrooted]

end Build

end Forest

/-! ## The outline -/

/-- Whether the spans pair up the tags of the text and no block is an
orphan. -/
structure Forest.Grounded (code : Text) (ctx : Context) (spans : List Span) : Prop
    extends Markup.PairsUp code spans where
  kept : ∀ s q, ¬ Orphan ctx spans s q

namespace Outline

/-- The outline of spans of a text. -/
def outlineOf (code : Text) (ctx : Context) (spans : List Span) : Outline :=
  ⟨code, ctx, (Markup.openTags code).length, Forest.forestOf code ctx spans⟩

/-- The outline of a text is that of its spans, if no block is an
orphan. -/
theorem ofText_of_spansOf {t : Text} (ctx : Context) {spans : List Span}
    (hspans : Markup.spansOf (normalize t) = .ok spans)
    (hkept : ∀ s q, ¬ Forest.Orphan ctx spans s q) :
    ofText t ctx = .ok (outlineOf (normalize t) ctx spans) := by
  have hforest := Forest.ofText_eq_ok_iff.2 ⟨spans, hspans, hkept, rfl⟩
  simp only [ofText, hforest]
  rfl

theorem ofText_eq_ok_iff {t : Text} {ctx : Context} {o : Outline} :
    ofText t ctx = .ok o ↔
      ∃ spans, Markup.spansOf (normalize t) = .ok spans ∧
        (∀ s q, ¬ Forest.Orphan ctx spans s q) ∧ o = outlineOf (normalize t) ctx spans := by
  constructor
  · intro h
    cases hforest : Forest.ofText (normalize t) ctx with
    | error fault => simp [ofText, hforest] at h
    | ok forest =>
      obtain ⟨spans, hspans, hkept, -⟩ := Forest.ofText_eq_ok_iff.1 hforest
      rw [ofText_of_spansOf ctx hspans hkept] at h
      exact ⟨spans, hspans, hkept, (Except.ok.inj h).symm⟩
  · intro h
    obtain ⟨spans, hspans, hkept, rfl⟩ := h
    exact ofText_of_spansOf ctx hspans hkept

/-- The spans that an outline is made of. -/
theorem grounded_of_ofText {t : Text} {ctx : Context} {o : Outline} (h : ofText t ctx = .ok o) :
    ∃ spans, Forest.Grounded (normalize t) ctx spans ∧ o = outlineOf (normalize t) ctx spans := by
  obtain ⟨spans, hspans, hkept, heq⟩ := ofText_eq_ok_iff.1 h
  exact ⟨spans, ⟨Markup.pairsUp_of_spansOf hspans, hkept⟩, heq⟩

end Outline

end TemplateScopes
