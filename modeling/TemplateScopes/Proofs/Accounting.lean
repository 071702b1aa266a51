import TemplateScopes.Proofs.Forest

/-!
# What a build accounts for

The build of a forest takes in one span for every opening tag.  This
module says when it fails, and what becomes of the tags when it does not.

There are three groups.

* The fault.  The build stops at the first orphan (`ofSpans_eq_error_iff`).
* The scopes.  `Forest.Accounts` collects what holds of a forest: what is
  left out, and how parents and children belong together.
* The build.  `ofSpans_accounts` joins the two for the spans of a text.
-/

namespace TemplateScopes.Forest

open Markup

/-! ## The fault -/

/-- Whether `s` is an orphan in the block of `q`, and no orphan starts
before it. -/
structure FirstOrphan (ctx : Context) (spans : List Span) (s q : Span) : Prop
    extends Orphan ctx spans s q where
  first : ∀ s' q', Orphan ctx spans s' q' → s.start ≤ s'.start

section Fault

variable {code : Text} {ctx : Context} {spans seen rest : List Span} {s q : Span}

/-- A block stands directly in one block only. -/
theorem Orphan.parent_unique (hrooted : Rooted spans) {q' : Span} (h : Orphan ctx spans s q)
    (h' : Orphan ctx spans s q') : q = q' := by
  have hstart : some q.start = some q'.start := by
    rw [← h.parent_eq, ← h'.parent_eq]
  exact eq_of_start_eq hrooted.ascending h.parent_mem h'.parent_mem (Option.some.inj hstart)

/-- The next span is the first orphan, if it is an orphan at all and no
span before it is one. -/
theorem firstOrphan_iff_of_orphan (hrooted : Rooted spans) (hspans : spans = seen ++ s :: rest)
    (hseen : ∀ c ∈ seen, ∀ q, ¬ Orphan ctx spans c q) (h : Orphan ctx spans s q) {s' q' : Span} :
    FirstOrphan ctx spans s' q' ↔ s' = s ∧ q' = q := by
  have hfirst : ∀ c p, Orphan ctx spans c p → s.start ≤ c.start := by
    intro c p hc
    have hlater := hrooted.ascending
    rw [hspans, List.pairwise_append, List.pairwise_cons] at hlater
    obtain ⟨-, ⟨hlater, -⟩, -⟩ := hlater
    have hmem := hc.mem
    rw [hspans, List.mem_append, List.mem_cons] at hmem
    rcases hmem with hmem | rfl | hmem
    · exact absurd hc (hseen c hmem p)
    · exact Nat.le_refl _
    · exact Nat.le_of_lt (hlater c hmem)
  constructor
  · intro h'
    have hle := h'.first s q h
    have hge := hfirst s' q' h'.toOrphan
    have hs : s' = s := eq_of_start_eq hrooted.ascending h'.mem h.mem (by omega)
    subst hs
    exact ⟨rfl, h'.toOrphan.parent_unique hrooted h⟩
  · intro heq
    obtain ⟨rfl, rfl⟩ := heq
    exact ⟨h, hfirst⟩

-- The induction is on the spans to come.  Those before them are no
-- orphans, or the build would have stopped already.
/-- The build from some of the spans on fails at the first orphan. -/
theorem addAll_eq_error_iff (hrooted : Rooted spans) (hspans : spans = seen ++ rest)
    (hseen : ∀ c ∈ seen, ∀ q, ¬ Orphan ctx spans c q) {fault : AnalysisFault} :
    (forestOf code ctx seen).addAll code ctx spans rest = .error fault ↔
      ∃ s q, FirstOrphan ctx spans s q ∧
        fault = .unresolvedParent s.start q.start q.opener.name := by
  induction rest generalizing seen with
  | nil =>
    rw [List.append_nil] at hspans
    simp only [addAll, reduceCtorEq, false_iff]
    intro h
    obtain ⟨s, q, horphan, -⟩ := h
    exact hseen s (hspans ▸ horphan.mem) q horphan.toOrphan
  | cons s rest ih =>
    rw [addAll]
    by_cases hkept : ∀ q, ¬ Orphan ctx spans s q
    · rw [add_forestOf hrooted hspans hkept]
      show (forestOf code ctx (seen ++ [s])).addAll code ctx spans rest = .error fault ↔ _
      apply ih
      · rw [hspans, List.append_assoc, List.singleton_append]
      · intro c hc
        rcases List.mem_append.1 hc with hc | hc
        · exact hseen c hc
        · rw [List.mem_singleton.1 hc]
          exact hkept
    · simp only [not_forall, not_not] at hkept
      obtain ⟨q, horphan⟩ := hkept
      rw [add_orphan hrooted hspans horphan]
      simp only [firstOrphan_iff_of_orphan hrooted hspans hseen horphan, Except.error.injEq]
      constructor
      · intro h
        exact ⟨s, q, ⟨rfl, rfl⟩, h.symm⟩
      · intro h
        obtain ⟨_, _, ⟨rfl, rfl⟩, h⟩ := h
        exact h.symm

/-- The build fails at the first orphan. -/
theorem ofSpans_eq_error_iff (hrooted : Rooted spans) {fault : AnalysisFault} :
    ofSpans code ctx spans = .error fault ↔
      ∃ s q, FirstOrphan ctx spans s q ∧
        fault = .unresolvedParent s.start q.start q.opener.name := by
  show (forestOf code ctx []).addAll code ctx spans spans = .error fault ↔ _
  exact addAll_eq_error_iff hrooted (List.nil_append spans).symm (by simp)

end Fault

/-! ## The scopes -/

/-- What holds of the forest of the spans of a text. -/
structure Accounts (t : Text) (ctx : Context) (spans : List Span) (f : Forest) : Prop where
  /-- Every opening tag begins one scope or one span that is left out. -/
  openings : (f.scopes.map Scope.id ++ f.excluded.map Span.start).Perm
    ((openTags t).map OpenTag.offset)
  count : f.scopes.length + f.excluded.length = (openTags t).length
  /-- What is left out has the name of an accessor, in any letter case. -/
  excluded : ∀ s, s ∈ f.excluded ↔ s ∈ spans ∧ Text.lower s.opener.name ∈ ctx.globalAccessors
  /-- The other spans become scopes, each with the parent of its span. -/
  scopes : List.Forall₂ (fun s scope => scope.toBlock = blockOf t s ∧ scope.parent = s.parent)
    (spans.filter fun s => decide (Text.lower s.opener.name ∉ ctx.globalAccessors)) f.scopes
  /-- A parent is a scope, and only the top level has none. -/
  parent : ∀ scope ∈ f.scopes, (scope.parent = none ∧ scope ∈ f.topLevel) ∨
    ∃ p ∈ f.scopes, scope.parent = some p.id ∧ f.scope? p.id = some p ∧ scope ∉ f.topLevel
  /-- The children of a scope are the scopes that it is the parent of. -/
  kids : ∀ scope ∈ f.scopes, f.kids scope = f.scopes.filter fun k => k.parent = some scope.id
  children : ∀ scope ∈ f.scopes, scope.children = (f.kids scope).map Scope.id ∧
    scope.children.Pairwise (· < ·)

section Scopes

variable {t : Text} {ctx : Context} {spans : List Span} {s : Span}

theorem addressable_eq :
    addressable ctx s = decide (Text.lower s.opener.name ∉ ctx.globalAccessors) := by
  unfold addressable Context.isGlobalAccessor
  rw [List.contains_eq_mem, decide_not]

theorem map_id_scopes_forestOf :
    (forestOf t ctx spans).scopes.map Scope.id =
      (spans.filter (addressable ctx)).map Span.start := by
  show ((spans.filter (addressable ctx)).map (scopeOf t ctx spans)).map Scope.id = _
  rw [List.map_map]
  rfl

/-- Every span is the one of a scope or left out. -/
theorem openings_forestOf (h : PairsUp t spans) :
    ((forestOf t ctx spans).scopes.map Scope.id ++
      (forestOf t ctx spans).excluded.map Span.start).Perm ((openTags t).map OpenTag.offset) := by
  have hall : (openTags t).map OpenTag.offset = spans.map Span.start := by
    rw [← h.openers, List.map_map]
    rfl
  rw [map_id_scopes_forestOf, hall, ← List.map_append]
  exact (List.filter_append_perm (addressable ctx) spans).map Span.start

/-- The scopes whose parent is a scope are its children. -/
theorem filter_parent_forestOf :
    (forestOf t ctx spans).scopes.filter (fun k => k.parent = some s.start) =
      (childrenOf ctx spans s).map (scopeOf t ctx spans) := by
  unfold forestOf childrenOf
  rw [List.filter_map, List.filter_filter]
  congr 2
  funext c
  exact Bool.and_comm ..

theorem parent_forestOf (h : Grounded t ctx spans) (hs : s ∈ spans)
    (hkept : addressable ctx s = true) :
    (s.parent = none ∧ scopeOf t ctx spans s ∈ (forestOf t ctx spans).topLevel) ∨
      ∃ p ∈ (forestOf t ctx spans).scopes, s.parent = some p.id ∧
        (forestOf t ctx spans).scope? p.id = some p ∧
        scopeOf t ctx spans s ∉ (forestOf t ctx spans).topLevel := by
  have htop : scopeOf t ctx spans s ∈ (forestOf t ctx spans).topLevel ↔ s.parent = none := by
    unfold topLevel
    rw [List.mem_filter, scopeOf_parent, Option.isNone_iff_eq_none]
    simp [mem_forestOf.2 ⟨s, hs, hkept, rfl⟩]
  cases hparent : s.parent with
  | none => exact .inl ⟨rfl, htop.2 hparent⟩
  | some start =>
    obtain ⟨q, hq, rfl, -⟩ := (rooted_of_pairsUp h.toPairsUp).parent s hs start hparent
    have hkeptq := kept_iff.1 h.kept s hs q hq hparent hkept
    refine .inr ⟨scopeOf t ctx spans q, mem_forestOf.2 ⟨q, hq, hkeptq, rfl⟩, rfl,
      scope?_forestOf h.ascending hq hkeptq, ?_⟩
    rw [htop, hparent]
    simp

theorem accounts_forestOf (h : Grounded t ctx spans) :
    Accounts t ctx spans (forestOf t ctx spans) := by
  refine ⟨openings_forestOf h.toPairsUp, ?_, ?_, ?_, ?_, ?_, ?_⟩
  · simpa using (openings_forestOf h.toPairsUp).length_eq
  · intro s
    simp [forestOf, addressable_eq]
  · have hfilter : (fun s : Span => decide (Text.lower s.opener.name ∉ ctx.globalAccessors)) =
        addressable ctx := by
      funext s
      rw [addressable_eq]
    rw [hfilter]
    show List.Forall₂ _ _ ((spans.filter (addressable ctx)).map (scopeOf t ctx spans))
    rw [List.forall₂_map_right_iff, List.forall₂_same]
    intro s _
    exact ⟨rfl, rfl⟩
  · intro scope hscope
    obtain ⟨s, hs, hkept, rfl⟩ := mem_forestOf.1 hscope
    exact parent_forestOf h hs hkept
  · intro scope hscope
    obtain ⟨s, hs, hkept, rfl⟩ := mem_forestOf.1 hscope
    rw [kids_forestOf h.ascending]
    exact filter_parent_forestOf.symm
  · intro scope hscope
    obtain ⟨s, hs, hkept, rfl⟩ := mem_forestOf.1 hscope
    rw [kids_forestOf h.ascending, List.map_map]
    refine ⟨rfl, ?_⟩
    show ((childrenOf ctx spans s).map Span.start).Pairwise _
    rw [List.pairwise_map]
    exact h.ascending.sublist List.filter_sublist

end Scopes

/-! ## The build -/

/-- The build of a forest from the spans of a text with balanced tags fails
if and only if a block stands directly in one that is left out, and it
names the first such block.  What it builds otherwise accounts for every
opening tag. -/
theorem ofSpans_accounts {t : Text} (ctx : Context) (h : Balanced (tags t)) :
    ∃ spans, spansOf t = .ok spans ∧
      ((∃ fault, ofSpans t ctx spans = .error fault) ↔ ∃ s q, Orphan ctx spans s q) ∧
      (∀ fault, ofSpans t ctx spans = .error fault ↔ ∃ s q, FirstOrphan ctx spans s q ∧
        fault = .unresolvedParent s.start q.start q.opener.name) ∧
      ∀ f, ofSpans t ctx spans = .ok f → Accounts t ctx spans f := by
  obtain ⟨n, hn, -⟩ := exists_nesting h
  have hspans := spansOf_of_tags hn
  have hpairs := pairsUp_of_spansOf hspans
  have hrooted := rooted_of_pairsUp hpairs
  refine ⟨n.spans none, hspans, ?_, fun fault => ofSpans_eq_error_iff hrooted, ?_⟩
  · constructor
    · intro h
      obtain ⟨fault, hfault⟩ := h
      obtain ⟨s, q, horphan, -⟩ := (ofSpans_eq_error_iff hrooted).1 hfault
      exact ⟨s, q, horphan.toOrphan⟩
    · intro h
      obtain ⟨s, q, horphan⟩ := h
      cases hbuilt : ofSpans t ctx (n.spans none) with
      | error fault => exact ⟨fault, rfl⟩
      | ok f => exact absurd horphan (((ofSpans_eq_ok_iff hrooted).1 hbuilt).1 s q)
  · intro f hf
    obtain ⟨hkept, rfl⟩ := (ofSpans_eq_ok_iff hrooted).1 hf
    exact accounts_forestOf ⟨hpairs, hkept⟩

/-- The name of an accessor is known in any letter case.  A block directly
inside such a block has no parent, and a block beside it needs none. -/
theorem ofSpans_accounts_left_out :
    (Balanced (tags "<% with $uP %><% loop $B %><% end_loop %><% end_with %>") ∧
      ∃ spans, spansOf "<% with $uP %><% loop $B %><% end_loop %><% end_with %>" = .ok spans ∧
        ofSpans "<% with $uP %><% loop $B %><% end_loop %><% end_with %>" Context.base spans =
          .error (.unresolvedParent 14 0 "uP") ∧
        ∃ s q, FirstOrphan Context.base spans s q) ∧
    Balanced (tags "<% with $uP %><% end_with %><% loop $B %><% end_loop %>") ∧
      ∃ spans, spansOf "<% with $uP %><% end_with %><% loop $B %><% end_loop %>" = .ok spans ∧
        ∃ f, ofSpans "<% with $uP %><% end_with %><% loop $B %><% end_loop %>"
            Context.base spans = .ok f ∧
          Accounts "<% with $uP %><% end_with %><% loop $B %><% end_loop %>"
            Context.base spans f := by
  constructor
  · have hspans : spansOf "<% with $uP %><% loop $B %><% end_loop %><% end_with %>" =
        .ok [⟨⟨.within, 0, "<% with $uP %>", "$uP"⟩, none, 55⟩,
          ⟨⟨.loop, 14, "<% loop $B %>", "$B"⟩, some 0, 41⟩] :=
      spansOf_of_tags
        (n := .block ⟨.within, 0, "<% with $uP %>", "$uP"⟩
          (.block ⟨.loop, 14, "<% loop $B %>", "$B"⟩ .nil ⟨.loop, 27, "<% end_loop %>"⟩ .nil)
          ⟨.within, 41, "<% end_with %>"⟩ .nil)
        (tags_eq_of_perm (by decide +kernel) (by decide +kernel)).symm
    have hbalanced := balanced_of_spansOf hspans
    obtain ⟨spans, hfound, -, hfault, -⟩ := ofSpans_accounts Context.base hbalanced
    rw [hspans, Except.ok.injEq] at hfound
    subst hfound
    obtain ⟨s, q, hfirst, -⟩ := (hfault (.unresolvedParent 14 0 "uP")).1 rfl
    exact ⟨hbalanced, _, hspans, rfl, s, q, hfirst⟩
  · have hspans : spansOf "<% with $uP %><% end_with %><% loop $B %><% end_loop %>" =
        .ok [⟨⟨.within, 0, "<% with $uP %>", "$uP"⟩, none, 28⟩,
          ⟨⟨.loop, 28, "<% loop $B %>", "$B"⟩, none, 55⟩] :=
      spansOf_of_tags
        (n := .block ⟨.within, 0, "<% with $uP %>", "$uP"⟩ .nil ⟨.within, 14, "<% end_with %>"⟩
          (.block ⟨.loop, 28, "<% loop $B %>", "$B"⟩ .nil ⟨.loop, 41, "<% end_loop %>"⟩ .nil))
        (tags_eq_of_perm (by decide +kernel) (by decide +kernel)).symm
    have hbalanced := balanced_of_spansOf hspans
    obtain ⟨spans, hfound, -, -, hbuilt⟩ := ofSpans_accounts Context.base hbalanced
    rw [hspans, Except.ok.injEq] at hfound
    subst hfound
    exact ⟨hbalanced, _, hspans, _, rfl, hbuilt _ rfl⟩

end TemplateScopes.Forest
