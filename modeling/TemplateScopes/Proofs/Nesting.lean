import TemplateScopes.Proofs.Balance

/-!
# The spans of nested blocks

The spans of a nesting can be written down at once, and what holds of them
follows by induction on the nesting.

There are three groups.

* Spans and their relations.  `Inside` and `Encloses` compare two spans,
  and `HasParent` says that a span names the innermost span around it.
  `HangsFrom` is the same inside a block, and it goes through the
  induction.
* The spans of a nesting.  `Nesting.spans` lists them.  If the blocks
  stand one behind the other (`Nesting.Within`), then two spans are apart
  or nested (`Within.spans_pairwise`), and each has its parent
  (`Within.spans_hang`).
* Partners.  A span runs up to the partner of its opening tag
  (`partners_of_mem_spans`), and every closing tag ends a span
  (`partners_of_closing_mem`).
-/

namespace TemplateScopes

open Markup

/-! ## Spans and their relations -/

namespace Span

/-- The span from an opening tag to a closing tag. -/
def fromTo (o : OpenTag) (c : CloseTag) (parent : Option Nat) : Span :=
  ⟨o, parent, c.offset + Closing.length⟩

@[simp] theorem fromTo_opener (o : OpenTag) (c : CloseTag) (parent : Option Nat) :
    (fromTo o c parent).opener = o := rfl

@[simp] theorem fromTo_parent (o : OpenTag) (c : CloseTag) (parent : Option Nat) :
    (fromTo o c parent).parent = parent := rfl

@[simp] theorem fromTo_start (o : OpenTag) (c : CloseTag) (parent : Option Nat) :
    (fromTo o c parent).start = o.offset := rfl

@[simp] theorem fromTo_stop (o : OpenTag) (c : CloseTag) (parent : Option Nat) :
    (fromTo o c parent).stop = c.offset + Closing.length := rfl

/-- Whether the span lies between the two tags of another one. -/
def Inside (s outer : Span) : Prop :=
  outer.opener.stop ≤ s.start ∧ s.stop + Closing.length ≤ outer.stop

/-- Whether the span begins before another one and stops behind it. -/
def Encloses (outer s : Span) : Prop :=
  outer.start < s.start ∧ s.stop < outer.stop

/-- Whether the parent of the span is the innermost of the spans that
enclose it. -/
def HasParent (spans : List Span) (s : Span) : Prop :=
  match s.parent with
  | none => ∀ q ∈ spans, ¬ q.Encloses s
  | some start => ∃ q ∈ spans, q.start = start ∧ q.Encloses s ∧
      ∀ r ∈ spans, r.Encloses s → r = q ∨ r.Encloses q

/-- The same for spans that stand in a block themselves: what is not
enclosed by any of them has that block as its parent. -/
def HangsFrom (parent : Option Nat) (spans : List Span) (s : Span) : Prop :=
  (s.parent = parent ∧ ∀ q ∈ spans, ¬ q.Encloses s) ∨
    ∃ q ∈ spans, s.parent = some q.start ∧ q.Encloses s ∧
      ∀ r ∈ spans, r.Encloses s → r = q ∨ r.Encloses q

namespace HangsFrom

variable {parent : Option Nat} {spans more : List Span} {s : Span}

theorem hasParent (h : HangsFrom none spans s) : HasParent spans s := by
  unfold HasParent
  rcases h with ⟨hparent, hnone⟩ | ⟨q, hq, hparent, henc, hleast⟩
  · rw [hparent]
    exact hnone
  · rw [hparent]
    exact ⟨q, hq, rfl, henc, hleast⟩

/-- Spans that do not enclose anything here change nothing. -/
theorem append_left (h : HangsFrom parent spans s) (hmore : ∀ q ∈ more, ¬ q.Encloses s) :
    HangsFrom parent (more ++ spans) s := by
  rcases h with ⟨hparent, hnone⟩ | ⟨q, hq, hparent, henc, hleast⟩
  · refine .inl ⟨hparent, fun q hq => ?_⟩
    rcases List.mem_append.1 hq with hq | hq
    · exact hmore q hq
    · exact hnone q hq
  · refine .inr ⟨q, List.mem_append_right _ hq, hparent, henc, fun r hr hencr => ?_⟩
    rcases List.mem_append.1 hr with hr | hr
    · exact absurd hencr (hmore r hr)
    · exact hleast r hr hencr

theorem append_right (h : HangsFrom parent spans s) (hmore : ∀ q ∈ more, ¬ q.Encloses s) :
    HangsFrom parent (spans ++ more) s := by
  have hswap := h.append_left hmore
  simpa only [HangsFrom, List.mem_append, or_comm] using hswap

/-- In a block around all of the spans, what hung from the block has it as
its parent. -/
theorem wrap {outer : Span} (h : HangsFrom (some outer.start) spans s) (hs : outer.Encloses s)
    (houter : ∀ q ∈ spans, outer.Encloses q) (parent : Option Nat) :
    HangsFrom parent (outer :: spans) s := by
  refine .inr ?_
  rcases h with ⟨hparent, hnone⟩ | ⟨q, hq, hparent, henc, hleast⟩
  · refine ⟨outer, List.mem_cons_self, hparent, hs, fun r hr hencr => ?_⟩
    rcases List.mem_cons.1 hr with hr | hr
    · exact .inl hr
    · exact absurd hencr (hnone r hr)
  · refine ⟨q, List.mem_cons_of_mem _ hq, hparent, henc, fun r hr hencr => ?_⟩
    rcases List.mem_cons.1 hr with rfl | hr
    · exact .inr (houter q hq)
    · exact hleast r hr hencr

end HangsFrom

end Span

/-! ## The spans of a nesting -/

namespace Nesting

/-- The spans of the blocks, of which the outermost ones have the given
parent. -/
def spans (parent : Option Nat) : Nesting → List Span
  | nil => []
  | block o inner c rest =>
    Span.fromTo o c parent :: (inner.spans (some o.offset) ++ rest.spans parent)

theorem mem_spans_block {o : OpenTag} {inner rest : Nesting} {c : CloseTag}
    {parent : Option Nat} {s : Span} :
    s ∈ (block o inner c rest).spans parent ↔
      s = Span.fromTo o c parent ∨ s ∈ inner.spans (some o.offset) ∨ s ∈ rest.spans parent := by
  rw [spans, List.mem_cons, List.mem_append]

/-- Whether the tags stand one behind the other from the offset `lo` up to
the offset `hi`. -/
def Within (lo hi : Nat) : Nesting → Prop
  | nil => lo ≤ hi
  | block o inner c rest =>
    lo ≤ o.offset ∧ o.offset < o.stop ∧ inner.Within o.stop c.offset ∧
      rest.Within (c.offset + Closing.length) hi

theorem Within.le {n : Nesting} {lo hi : Nat} (h : n.Within lo hi) : lo ≤ hi := by
  induction n generalizing lo hi with
  | nil => exact h
  | block o inner c rest ihinner ihrest =>
    obtain ⟨hlo, hpos, hinner, hrest⟩ := h
    have := ihinner hinner
    have := ihrest hrest
    omega

/-- A span of the nesting lies in its range and has room for its tags. -/
theorem Within.span_bounds {n : Nesting} {lo hi : Nat} (h : n.Within lo hi)
    {parent : Option Nat} {s : Span} (hs : s ∈ n.spans parent) :
    lo ≤ s.start ∧ s.start < s.opener.stop ∧
      s.opener.stop + Closing.length ≤ s.stop ∧ s.stop ≤ hi := by
  induction n generalizing lo hi parent with
  | nil => simp [spans] at hs
  | block o inner c rest ihinner ihrest =>
    obtain ⟨hlo, hpos, hinner, hrest⟩ := h
    have hinnerle := hinner.le
    have hrestle := hrest.le
    rcases mem_spans_block.1 hs with rfl | hs | hs
    · simp only [Span.fromTo_start, Span.fromTo_opener, Span.fromTo_stop]
      omega
    · have := ihinner hinner hs
      omega
    · have := ihrest hrest hs
      omega

/-- Of two spans the later one lies behind the earlier one or inside
it. -/
theorem Within.spans_pairwise {n : Nesting} {lo hi : Nat} (h : n.Within lo hi)
    (parent : Option Nat) :
    (n.spans parent).Pairwise fun a b => a.stop ≤ b.start ∨ b.Inside a := by
  induction n generalizing lo hi parent with
  | nil => exact List.Pairwise.nil
  | block o inner c rest ihinner ihrest =>
    obtain ⟨hlo, hpos, hinner, hrest⟩ := h
    rw [spans, List.pairwise_cons, List.pairwise_append]
    refine ⟨?_, ihinner hinner _, ihrest hrest _, ?_⟩
    · intro s hs
      rcases List.mem_append.1 hs with hs | hs
      · have := hinner.span_bounds hs
        exact .inr ⟨this.1, by rw [Span.fromTo_stop]; omega⟩
      · exact .inl (hrest.span_bounds hs).1
    · intro a ha b hb
      have := hinner.span_bounds ha
      have := hrest.span_bounds hb
      exact .inl (by omega)

/-- Every span hangs from its place in the nesting. -/
theorem Within.spans_hang {n : Nesting} {lo hi : Nat} (h : n.Within lo hi)
    {parent : Option Nat} {s : Span} (hs : s ∈ n.spans parent) :
    s.HangsFrom parent (n.spans parent) := by
  induction n generalizing lo hi parent with
  | nil => simp [spans] at hs
  | block o inner c rest ihinner ihrest =>
    obtain ⟨hlo, hpos, hinner, hrest⟩ := h
    have hinnerle := hinner.le
    have hroom := Closing.length_pos
    have hin : ∀ q ∈ inner.spans (some o.offset), (Span.fromTo o c parent).Encloses q := by
      intro q hq
      have := hinner.span_bounds hq
      rw [Span.Encloses, Span.fromTo_start, Span.fromTo_stop]
      omega
    have hsplit : (block o inner c rest).spans parent =
        (Span.fromTo o c parent :: inner.spans (some o.offset)) ++ rest.spans parent := rfl
    rcases mem_spans_block.1 hs with rfl | hs | hs
    · have hfirst : (block o inner c rest).Within o.offset hi :=
        ⟨Nat.le_refl _, hpos, hinner, hrest⟩
      refine .inl ⟨rfl, fun q hq henc => ?_⟩
      have := hfirst.span_bounds hq
      have := henc.1
      rw [Span.fromTo_start] at this
      omega
    · rw [hsplit]
      have hhang : s.HangsFrom (some (Span.fromTo o c parent).start)
          (inner.spans (some o.offset)) := ihinner hinner hs
      refine (hhang.wrap (hin s hs) hin parent).append_right fun q hq henc => ?_
      have := hinner.span_bounds hs
      have := hrest.span_bounds hq
      have := henc.1
      omega
    · rw [hsplit]
      have hbehind := hrest.span_bounds hs
      refine (ihrest hrest hs).append_left fun q hq henc => ?_
      have hstop := henc.2
      rcases List.mem_cons.1 hq with rfl | hq
      · rw [Span.fromTo_stop] at hstop
        omega
      · have := hinner.span_bounds hq
        omega

theorem map_opener_spans (n : Nesting) (parent : Option Nat) :
    (n.spans parent).map Span.opener = n.tags.filterMap Tag.opener? := by
  induction n generalizing parent with
  | nil => rfl
  | block o inner c rest ihinner ihrest =>
    simp [spans, tags, List.filterMap_cons, Tag.opener?, ihinner, ihrest]

theorem Within.spans_ascending {n : Nesting} {lo hi : Nat} (h : n.Within lo hi)
    (parent : Option Nat) : (n.spans parent).Pairwise fun a b => a.start < b.start := by
  refine (h.spans_pairwise parent).imp_of_mem ?_
  intro a b ha _ hab
  have := h.span_bounds ha
  rcases hab with hbehind | hinside
  · omega
  · have := hinside.1
    omega

/-! ## Partners -/

section Partners

variable {o o' : OpenTag} {c c' : CloseTag} {inner rest : Nesting}

theorem partners_block : Partners (block o inner c rest).tags o c :=
  ⟨[], inner.tags, rest.tags, rfl, inner.balanced_tags⟩

theorem partners_inner (h : Partners inner.tags o' c') :
    Partners (block o inner c rest).tags o' c' :=
  h.append [.opening o] (.closing c :: rest.tags)

theorem partners_rest (h : Partners rest.tags o' c') :
    Partners (block o inner c rest).tags o' c' := by
  have hmore := h.append (.opening o :: (inner.tags ++ [.closing c])) []
  simpa [tags, List.append_assoc] using hmore

end Partners

/-- A span of a nesting runs up to the partner of its opening tag. -/
theorem partners_of_mem_spans {n : Nesting} {parent : Option Nat} {s : Span}
    (hs : s ∈ n.spans parent) :
    ∃ c, Partners n.tags s.opener c ∧ s.stop = c.offset + Closing.length := by
  induction n generalizing parent with
  | nil => simp [spans] at hs
  | block o inner c rest ihinner ihrest =>
    rcases mem_spans_block.1 hs with rfl | hs | hs
    · exact ⟨c, partners_block, rfl⟩
    · obtain ⟨c', hpartners, hstop⟩ := ihinner hs
      exact ⟨c', partners_inner hpartners, hstop⟩
    · obtain ⟨c', hpartners, hstop⟩ := ihrest hs
      exact ⟨c', partners_rest hpartners, hstop⟩

/-- Every closing tag of a nesting ends a span. -/
theorem partners_of_closing_mem {n : Nesting} {c : CloseTag} (hc : .closing c ∈ n.tags)
    (parent : Option Nat) : ∃ s ∈ n.spans parent, Partners n.tags s.opener c := by
  induction n generalizing parent with
  | nil => simp [tags] at hc
  | block o inner c' rest ihinner ihrest =>
    rw [tags, List.mem_cons, List.mem_append, List.mem_cons] at hc
    rcases hc with hc | hc | hc | hc
    · simp at hc
    · obtain ⟨s, hs, hpartners⟩ := ihinner hc (some o.offset)
      exact ⟨s, mem_spans_block.2 (.inr (.inl hs)), partners_inner hpartners⟩
    · obtain rfl : c = c' := by simpa using hc
      exact ⟨_, mem_spans_block.2 (.inl rfl), partners_block⟩
    · obtain ⟨s, hs, hpartners⟩ := ihrest hc parent
      exact ⟨s, mem_spans_block.2 (.inr (.inr hs)), partners_rest hpartners⟩

end Nesting

end TemplateScopes
