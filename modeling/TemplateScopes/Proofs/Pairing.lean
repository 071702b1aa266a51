import TemplateScopes.Proofs.Nesting
import TemplateScopes.Proofs.Tags

/-!
# Pairing tags into spans

A pairing reads the tags of a text one by one and keeps the open blocks on
a stack.

There are three groups.

* The run of a pairing.  `step_opening` and `step_closing` say what one tag
  does.  From them, `run_tags_append` says that reading the tags of a
  nesting adds its spans and leaves the open blocks as they were.  A run
  that ends with no open block has read balanced tags (`settles_of_run`).
* The tags of a text as a nesting.  `exists_nesting` finds the nesting of
  balanced tags.
* The spans of a text.  `spansOf` finds them or fails, and
  `spansOf_eq_ok_iff` says that they are the spans of the nesting.
  `PairsUp` collects what holds of them.
-/

namespace TemplateScopes

open Markup

/-! ## The run of a pairing -/

namespace Pairing

theorem putSpan_of_fresh {s : Span} {spans : List Span}
    (hfresh : ∀ t ∈ spans, t.start ≠ s.start) : putSpan s spans = spans ++ [s] := by
  induction spans with
  | nil => rfl
  | cons t spans ih =>
    rw [putSpan, if_neg (hfresh t List.mem_cons_self),
      ih fun u hu => hfresh u (List.mem_cons_of_mem _ hu), List.cons_append]

theorem setStop_of_ne {offset stop : Nat} {spans : List Span}
    (hne : ∀ s ∈ spans, s.start ≠ offset) : setStop offset stop spans = spans := by
  rw [setStop]
  conv_rhs => rw [← List.map_id spans]
  exact List.map_congr_left fun s hs => if_neg (hne s hs)

/-- An opening tag begins a span in the innermost open block. -/
theorem step_opening {o : OpenTag} {spans : List Span} (pending : List Nat)
    (hfresh : ∀ s ∈ spans, s.start ≠ o.offset) :
    step ⟨spans, pending⟩ (.opening o) =
      .ok ⟨spans ++ [⟨o, pending.head?, o.stop⟩], o.offset :: pending⟩ := by
  have hput : putSpan ⟨o, pending.head?, o.stop⟩ spans =
      spans ++ [⟨o, pending.head?, o.stop⟩] := putSpan_of_fresh hfresh
  show Except.ok (⟨putSpan ⟨o, pending.head?, o.stop⟩ spans, o.offset :: pending⟩ : Pairing) = _
  rw [hput]

/-- A closing tag ends the span that was opened last. -/
theorem step_closing {o : OpenTag} {c : CloseTag} {parent : Option Nat} {stop : Nat}
    {spans inner : List Span} (pending : List Nat) (hspans : ∀ s ∈ spans, s.start ≠ o.offset)
    (hinner : ∀ s ∈ inner, s.start ≠ o.offset) :
    step ⟨spans ++ ⟨o, parent, stop⟩ :: inner, o.offset :: pending⟩ (.closing c) =
      .ok ⟨spans ++ Span.fromTo o c parent :: inner, pending⟩ := by
  have happend : ∀ s t : List Span, setStop o.offset (c.offset + Closing.length) (s ++ t) =
      setStop o.offset (c.offset + Closing.length) s ++
        setStop o.offset (c.offset + Closing.length) t := fun s t => List.map_append
  have hended : setStop o.offset (c.offset + Closing.length) [⟨o, parent, stop⟩] =
      [Span.fromTo o c parent] := by
    simp [setStop, Span.start, Span.fromTo]
  show Except.ok (⟨setStop o.offset (c.offset + Closing.length)
    (spans ++ ⟨o, parent, stop⟩ :: inner), pending⟩ : Pairing) = _
  rw [happend, setStop_of_ne hspans, ← List.singleton_append, happend, setStop_of_ne hinner,
    hended, List.singleton_append]

-- The induction is on the nesting.  The spans found before all start in
-- front of it, so that no step of the run touches them.
/-- Reading the tags of a nesting adds its spans and leaves the open blocks
as they were. -/
theorem run_tags_append {n : Nesting} {lo hi : Nat} (h : n.Within lo hi) {spans : List Span}
    (hspans : ∀ s ∈ spans, s.start < lo) (pending : List Nat) (tags : List Tag) :
    run ⟨spans, pending⟩ (n.tags ++ tags) =
      run ⟨spans ++ n.spans pending.head?, pending⟩ tags := by
  induction n generalizing lo hi spans pending tags with
  | nil => simp [Nesting.tags, Nesting.spans]
  | block o inner c rest ihinner ihrest =>
    obtain ⟨hlo, hpos, hinner, hrest⟩ := h
    have hinnerle := hinner.le
    have hfresh : ∀ s ∈ spans, s.start ≠ o.offset := by
      intro s hs
      have := hspans s hs
      omega
    have hinside : ∀ s ∈ inner.spans (some o.offset), s.start ≠ o.offset := by
      intro s hs
      have := hinner.span_bounds hs
      omega
    have hopened : ∀ s ∈ spans ++ [⟨o, pending.head?, o.stop⟩], s.start < o.stop := by
      intro s hs
      rcases List.mem_append.1 hs with hs | hs
      · have := hspans s hs
        omega
      · rw [List.mem_singleton.1 hs]
        exact hpos
    have hbefore : ∀ s ∈ spans ++ Span.fromTo o c pending.head? :: inner.spans (some o.offset),
        s.start < c.offset + Closing.length := by
      intro s hs
      rcases List.mem_append.1 hs with hs | hs
      · have := hspans s hs
        omega
      · rcases List.mem_cons.1 hs with rfl | hs
        · rw [Span.fromTo_start]
          omega
        · have := hinner.span_bounds hs
          omega
    calc run ⟨spans, pending⟩ ((Nesting.block o inner c rest).tags ++ tags)
        = run ⟨spans ++ [⟨o, pending.head?, o.stop⟩], o.offset :: pending⟩
            (inner.tags ++ .closing c :: (rest.tags ++ tags)) := by
          rw [Nesting.tags, List.cons_append, List.append_assoc, List.cons_append, run,
            step_opening pending hfresh]
      _ = run ⟨spans ++ ⟨o, pending.head?, o.stop⟩ :: inner.spans (some o.offset),
            o.offset :: pending⟩ (.closing c :: (rest.tags ++ tags)) := by
          rw [ihinner hinner hopened, List.append_assoc]
          rfl
      _ = run ⟨spans ++ Span.fromTo o c pending.head? :: inner.spans (some o.offset), pending⟩
            (rest.tags ++ tags) := by
          rw [run, step_closing pending hfresh hinside]
      _ = run ⟨spans ++ (Nesting.block o inner c rest).spans pending.head?, pending⟩ tags := by
          rw [ihrest hrest hbefore, List.append_assoc, Nesting.spans, List.cons_append]

/-- A run that ends with no open block has read tags that close the blocks
which were open before. -/
theorem settles_of_run {p q : Pairing} {tags : List Tag} (h : p.run tags = .ok q)
    (hq : q.pending = []) : Settles p.pending.length tags := by
  induction tags generalizing p with
  | nil =>
    rw [run, Except.ok.injEq] at h
    rw [h, hq]
    exact settles_nil_iff.2 rfl
  | cons tag tags ih =>
    rw [run] at h
    cases tag with
    | opening o => exact settles_opening_cons_iff.2 (ih h)
    | closing c =>
      simp only [step] at h
      split at h
      · rename_i hstep
        split at hstep
        · simp at hstep
        · rename_i offset pending hpending
          rw [Except.ok.injEq] at hstep
          subst hstep
          rw [hpending]
          exact settles_closing_cons_iff.2 ⟨_, rfl, ih h⟩
      · simp at h

theorem finish_eq_ok_iff {p : Pairing} {spans : List Span} :
    p.finish = .ok spans ↔ p.pending = [] ∧ spans = p.spans := by
  unfold finish
  split
  · rename_i hlast
    rw [List.getLast?_eq_none_iff] at hlast
    simp [hlast, eq_comm]
  · rename_i first hlast
    have hne : p.pending ≠ [] := by
      intro hnil
      simp [hnil] at hlast
    simp [hne]

end Pairing

/-! ## The tags of a text as a nesting -/

namespace Markup

/-- The tags of a nesting that stand one behind the other do so in a range
of offsets. -/
theorem within_of_tags {n : Nesting} {lo hi : Nat}
    (hapart : n.tags.Pairwise fun a b => a.stop ≤ b.offset)
    (hpos : ∀ tag ∈ n.tags, tag.offset < tag.stop)
    (hclosing : ∀ c, .closing c ∈ n.tags → c.stop = c.offset + Closing.length)
    (hlo : ∀ tag ∈ n.tags, lo ≤ tag.offset) (hhi : ∀ tag ∈ n.tags, tag.stop ≤ hi)
    (hle : lo ≤ hi) : n.Within lo hi := by
  induction n generalizing lo hi with
  | nil => exact hle
  | block o inner c rest ihinner ihrest =>
    rw [Nesting.tags] at *
    rw [List.pairwise_cons, List.pairwise_append, List.pairwise_cons] at hapart
    obtain ⟨hfirst, hinner, ⟨hlast, hrest⟩, hacross⟩ := hapart
    have hoc : o.stop ≤ c.offset := hfirst (.closing c) (by simp)
    have hc : c.stop = c.offset + Closing.length := hclosing c (by simp)
    refine ⟨hlo (.opening o) (by simp), hpos (.opening o) (by simp), ?_, ?_⟩
    · exact ihinner hinner (fun tag h => hpos tag (by simp [h]))
        (fun c h => hclosing c (by simp [h])) (fun tag h => hfirst tag (by simp [h]))
        (fun tag h => hacross tag h (.closing c) (by simp)) hoc
    · rw [← hc]
      exact ihrest hrest (fun tag h => hpos tag (by simp [h]))
        (fun c h => hclosing c (by simp [h])) (fun tag h => hlast tag h)
        (fun tag h => hhi tag (by simp [h])) (hhi (.closing c) (by simp))

/-- The tags of a text stand in its range of offsets. -/
theorem within_of_tags_eq {t : Text} {n : Nesting} (hn : n.tags = tags t) :
    n.Within 0 t.length := by
  refine within_of_tags ?_ ?_ ?_ (fun _ _ => Nat.zero_le _) ?_ (Nat.zero_le _)
  · rw [hn]
    exact tags_pairwise t
  · intro tag htag
    exact (standsIn_of_mem_tags (hn ▸ htag)).offset_lt_stop
  · intro c hc
    exact closing_stop_eq (closing_mem_tags_iff.1 (hn ▸ hc))
  · intro tag htag
    exact (standsIn_of_mem_tags (hn ▸ htag)).stop_le_length

/-- The tags of a text, if they are balanced, are the tags of a nesting. -/
theorem exists_nesting {t : Text} (h : Balanced (tags t)) :
    ∃ n : Nesting, n.tags = tags t ∧ n.Within 0 t.length := by
  obtain ⟨n, hn⟩ := balanced_iff_nesting.1 h
  exact ⟨n, hn, within_of_tags_eq hn⟩

/-! ## The spans of a text -/

/-- The spans of the blocks of a text. -/
def spansOf (t : Text) : Except TagFault (List Span) :=
  match scanTags t with
  | .error fault => .error fault
  | .ok (opens, closes) => pairTags opens closes

theorem openings_tags (t : Text) : openings (tags t) = (openTags t).length := by
  have hopen : Tag.isOpening ∘ Tag.opening = fun _ => true := rfl
  have hclose : Tag.isOpening ∘ Tag.closing = fun _ => false := rfl
  rw [openings, (tags_perm t).countP_eq, List.countP_append, List.countP_map, List.countP_map,
    hopen, hclose]
  simp

theorem closings_tags (t : Text) : closings (tags t) = (closeTags t).length := by
  have hopen : (fun tag : Tag => !tag.isOpening) ∘ Tag.opening = fun _ => false := rfl
  have hclose : (fun tag : Tag => !tag.isOpening) ∘ Tag.closing = fun _ => true := rfl
  rw [closings, (tags_perm t).countP_eq, List.countP_append, List.countP_map, List.countP_map,
    hopen, hclose]
  simp

theorem scanTags_eq_ok_iff {t : Text} {found : List OpenTag × List CloseTag} :
    scanTags t = .ok found ↔
      openings (tags t) = closings (tags t) ∧ found = (openTags t, closeTags t) := by
  rw [openings_tags, closings_tags]
  unfold scanTags
  by_cases hcounts : (openTags t).length = (closeTags t).length
  · simp [hcounts, eq_comm]
  · simp [hcounts]

theorem balanced_of_spansOf {t : Text} {spans : List Span} (h : spansOf t = .ok spans) :
    Balanced (tags t) := by
  unfold spansOf at h
  split at h
  · simp at h
  · rename_i opens closes hscan
    obtain ⟨-, hfound⟩ := scanTags_eq_ok_iff.1 hscan
    rw [Prod.mk.injEq] at hfound
    obtain ⟨rfl, rfl⟩ := hfound
    unfold pairTags at h
    split at h
    · rename_i p hrun
      have hdone := (Pairing.finish_eq_ok_iff.1 h).1
      exact settles_zero_iff.1 (Pairing.settles_of_run hrun hdone)
    · simp at h

theorem spansOf_of_nesting {t : Text} {n : Nesting} (hn : n.tags = tags t)
    (hwithin : n.Within 0 t.length) : spansOf t = .ok (n.spans none) := by
  have hbalanced : Balanced (tags t) := hn ▸ n.balanced_tags
  have hrun : Pairing.start.run (tags t) = .ok ⟨n.spans none, []⟩ := by
    have hnone : ∀ s ∈ ([] : List Span), s.start < 0 := by simp
    have h := Pairing.run_tags_append hwithin hnone [] []
    rw [List.append_nil, hn] at h
    exact h
  rw [spansOf, scanTags_eq_ok_iff.2 ⟨hbalanced.2, rfl⟩]
  show pairTags (openTags t) (closeTags t) = _
  rw [pairTags, ← tags, hrun]
  exact Pairing.finish_eq_ok_iff.2 ⟨rfl, rfl⟩

/-- A nesting that has the tags of a text has its spans. -/
theorem spansOf_of_tags {t : Text} {n : Nesting} (hn : n.tags = tags t) :
    spansOf t = .ok (n.spans none) :=
  spansOf_of_nesting hn (within_of_tags_eq hn)

/-- The spans of a text are those of the nesting of its tags. -/
theorem spansOf_eq_ok_iff {t : Text} {spans : List Span} :
    spansOf t = .ok spans ↔
      ∃ n : Nesting, n.tags = tags t ∧ n.Within 0 t.length ∧ spans = n.spans none := by
  constructor
  · intro h
    obtain ⟨n, hn, hwithin⟩ := exists_nesting (balanced_of_spansOf h)
    rw [spansOf_of_nesting hn hwithin, Except.ok.injEq] at h
    exact ⟨n, hn, hwithin, h.symm⟩
  · intro h
    obtain ⟨n, hn, hwithin, rfl⟩ := h
    exact spansOf_of_nesting hn hwithin

/-- The opening tags among the tags of a text. -/
theorem filterMap_opener_tags (t : Text) : (tags t).filterMap Tag.opener? = openTags t := by
  have hopen : Tag.opener? ∘ Tag.opening = some := rfl
  have hclose : Tag.opener? ∘ Tag.closing = fun _ => none := rfl
  have hperm : ((tags t).filterMap Tag.opener?).Perm (openTags t) := by
    have h := (tags_perm t).filterMap Tag.opener?
    rw [List.filterMap_append, List.filterMap_map, List.filterMap_map, hopen, hclose] at h
    simpa using h
  have hsorted : ((tags t).filterMap Tag.opener?).Pairwise fun a b => a.offset < b.offset := by
    refine (List.pairwise_filterMap).2 ((tags_pairwise t).imp_of_mem ?_)
    intro a b ha hb hab o ho o' ho'
    cases a <;> cases b <;> simp only [Tag.opener?, Option.some.injEq, reduceCtorEq] at ho ho'
    subst ho ho'
    have := (standsIn_of_mem_tags ha).offset_lt_stop
    exact Nat.lt_of_lt_of_le this hab
  refine hperm.eq_of_pairwise ?_ hsorted (openTags_pairwise t)
  intro a b _ _ hab hba
  omega

/-- What holds of the spans of a text. -/
structure PairsUp (t : Text) (spans : List Span) : Prop where
  /-- Every opening tag begins one span. -/
  openers : spans.map Span.opener = openTags t
  ascending : spans.Pairwise fun a b => a.start < b.start
  /-- A span has room for its two tags and lies in the text. -/
  room : ∀ s ∈ spans, s.start < s.opener.stop ∧ s.opener.stop + Closing.length ≤ s.stop ∧
    s.stop ≤ t.length
  /-- A span stops behind the only partner of its opening tag. -/
  partner : ∀ s ∈ spans, ∃ c ∈ closeTags t, s.stop = c.stop ∧
    ∀ c', Partners (tags t) s.opener c' ↔ c' = c
  /-- Every closing tag is the partner of the opening tag of one span. -/
  closers : ∀ c ∈ closeTags t, ∃ s ∈ spans, s.stop = c.stop ∧
    ∀ s' ∈ spans, Partners (tags t) s'.opener c ↔ s' = s
  parent : ∀ s ∈ spans, s.HasParent spans
  /-- Of two spans the later one lies behind the earlier one or inside
  it. -/
  nested : spans.Pairwise fun a b => a.stop ≤ b.start ∨ b.Inside a

/-- Lists in ascending order are known by their members. -/
theorem eq_of_ascending {α : Type} (key : α → Nat) {l l' : List α}
    (hl : l.Pairwise fun a b => key a < key b) (hl' : l'.Pairwise fun a b => key a < key b)
    (h : ∀ a, a ∈ l ↔ a ∈ l') : l = l' := by
  have hne : ∀ {a b : α}, key a < key b → a ≠ b := fun hlt heq =>
    Nat.ne_of_lt hlt (congrArg key heq)
  have hperm := (List.perm_ext_iff_of_nodup (hl.imp hne) (hl'.imp hne)).2 h
  refine hperm.eq_of_pairwise ?_ hl hl'
  intro a b _ _ hab hba
  exact absurd hab (Nat.not_lt_of_lt hba)

theorem eq_of_start_eq {spans : List Span} (h : spans.Pairwise fun a b => a.start < b.start)
    {s s' : Span} (hs : s ∈ spans) (hs' : s' ∈ spans) (heq : s.start = s'.start) : s = s' := by
  have hnodup : (spans.map Span.start).Nodup :=
    List.pairwise_map.2 (h.imp fun hlt => Nat.ne_of_lt hlt)
  exact List.inj_on_of_nodup_map hnodup hs hs' heq

/-- The spans of a text pair up its tags. -/
theorem pairsUp_of_spansOf {t : Text} {spans : List Span} (h : spansOf t = .ok spans) :
    PairsUp t spans := by
  obtain ⟨n, hn, hwithin, rfl⟩ := spansOf_eq_ok_iff.1 h
  have hnodup := tags_nodup t
  have hascending := hwithin.spans_ascending none
  have hstop : ∀ s ∈ n.spans none, ∀ c, Partners (tags t) s.opener c → s.stop = c.stop := by
    intro s hs c hc
    obtain ⟨c', hpartners, hstop⟩ := Nesting.partners_of_mem_spans hs
    rw [hn] at hpartners
    rw [hc.closing_unique hnodup hpartners, hstop,
      closing_stop_eq (closing_mem_tags_iff.1 hpartners.closing_mem)]
  refine ⟨?_, hascending, ?_, ?_, ?_, ?_, hwithin.spans_pairwise none⟩
  · rw [Nesting.map_opener_spans, hn, filterMap_opener_tags]
  · intro s hs
    have := hwithin.span_bounds hs
    omega
  · intro s hs
    obtain ⟨c, hpartners, -⟩ := Nesting.partners_of_mem_spans hs
    rw [hn] at hpartners
    refine ⟨c, closing_mem_tags_iff.1 hpartners.closing_mem, hstop s hs c hpartners, ?_⟩
    intro c'
    constructor
    · intro hc'
      exact hc'.closing_unique hnodup hpartners
    · intro heq
      rwa [heq]
  · intro c hc
    rw [← closing_mem_tags_iff, ← hn] at hc
    obtain ⟨s, hs, hpartners⟩ := Nesting.partners_of_closing_mem hc none
    rw [hn] at hpartners
    refine ⟨s, hs, hstop s hs c hpartners, ?_⟩
    intro s' hs'
    constructor
    · intro hc'
      have hopener := hc'.opening_unique hnodup hpartners
      exact eq_of_start_eq hascending hs' hs (congrArg OpenTag.offset hopener)
    · intro heq
      rwa [heq]
  · intro s hs
    exact (hwithin.spans_hang hs).hasParent

/-- The search for spans fails if and only if the tags of the text, in the
order of their offsets, are not balanced.  What it finds otherwise pairs up
the tags. -/
theorem spansOf_pairs_up (t : Text) :
    ((tags t).Perm ((openTags t).map .opening ++ (closeTags t).map .closing) ∧
      (tags t).Pairwise fun a b => a.offset < b.offset) ∧
    ((∃ fault, spansOf t = .error fault) ↔ ¬ Balanced (tags t)) ∧
    ∀ spans, spansOf t = .ok spans → PairsUp t spans := by
  refine ⟨⟨tags_perm t, tags_ascending t⟩, ?_, fun spans h => pairsUp_of_spansOf h⟩
  constructor
  · intro h hbalanced
    obtain ⟨fault, hfault⟩ := h
    obtain ⟨n, hn, hwithin⟩ := exists_nesting hbalanced
    rw [spansOf_of_nesting hn hwithin] at hfault
    simp at hfault
  · intro h
    cases hspans : spansOf t with
    | error fault => exact ⟨fault, rfl⟩
    | ok spans => exact absurd (balanced_of_spansOf hspans) h

/-- A block of one keyword can be closed by the other one. -/
theorem spansOf_pairs_up_crossed :
    spansOf "<% loop $A %><% with %><% end_loop %><% end_with %>" =
      .ok [⟨⟨.loop, 0, "<% loop $A %>", "$A"⟩, none, 51⟩,
        ⟨⟨.within, 13, "<% with %>", []⟩, some 0, 37⟩] ∧
    PairsUp "<% loop $A %><% with %><% end_loop %><% end_with %>"
      [⟨⟨.loop, 0, "<% loop $A %>", "$A"⟩, none, 51⟩,
        ⟨⟨.within, 13, "<% with %>", []⟩, some 0, 37⟩] := by
  have hspans : spansOf "<% loop $A %><% with %><% end_loop %><% end_with %>" =
      .ok [⟨⟨.loop, 0, "<% loop $A %>", "$A"⟩, none, 51⟩,
        ⟨⟨.within, 13, "<% with %>", []⟩, some 0, 37⟩] := by
    refine spansOf_of_nesting (n := .block ⟨.loop, 0, "<% loop $A %>", "$A"⟩
      (.block ⟨.within, 13, "<% with %>", []⟩ .nil ⟨.loop, 23, "<% end_loop %>"⟩ .nil)
      ⟨.within, 37, "<% end_with %>"⟩ .nil) ?_ ?_
    · exact (tags_eq_of_perm (by decide +kernel) (by decide +kernel)).symm
    · simp only [Nesting.Within]
      decide
  exact ⟨hspans, (spansOf_pairs_up _).2.2 _ hspans⟩

end Markup

end TemplateScopes
