import TemplateScopes.Proofs.Gaps
import TemplateScopes.Proofs.Relocation

/-!
# Texts that differ in one gap

Two texts have the same tags with the same texts between them, except for
one gap.  Then they are the same in front of the gap and behind it, and all
that stands behind it is shifted.

There are three groups.

* Alike texts.  `Markup.AlikeBut` says of two texts that only one of their
  gaps may differ.
* The shift.  A `Shift` knows the gap in both texts and tells where a range
  begins and ends in the second one.  `exists_shift` finds the shift that
  `Carries` the tags of one text to another.
* The spans.  The second text has the shifted spans (`Carries.spansOf`).
-/

namespace TemplateScopes

open Markup

/-! ## Alike texts -/

/-- The range of a text that belongs to the tag. -/
def Tag.range (tag : Tag) : Nat × Nat :=
  (tag.offset, tag.stop)

namespace Markup

/-- The texts of the gaps between tags that stand behind an offset. -/
def gapTextsFrom (code : Text) (position : Nat) (tags : List Tag) : List Text :=
  (Text.gaps position code.length (tags.map Tag.range)).map fun gap => code.slice gap.1 gap.2

/-- The gaps in front of, between and behind the tags of a text. -/
def tagGaps (code : Text) : List (Nat × Nat) :=
  Text.gaps 0 code.length ((tags code).map Tag.range)

/-- The texts in front of, between and behind the tags of a text. -/
def gapTexts (code : Text) : List Text :=
  (tagGaps code).map fun gap => code.slice gap.1 gap.2

/-- Whether two texts have the same tags with the same texts between them,
apart from the gap with the given number. -/
structure AlikeBut (i : Nat) (code code' : Text) : Prop where
  raws : (tags code).map Tag.raw = (tags code').map Tag.raw
  texts : ∀ j, j ≠ i → (gapTexts code)[j]? = (gapTexts code')[j]?

theorem AlikeBut.symm {i : Nat} {code code' : Text} (h : AlikeBut i code code') :
    AlikeBut i code' code :=
  ⟨h.raws.symm, fun j hj => (h.texts j hj).symm⟩

theorem length_tagGaps (code : Text) : (tagGaps code).length = (tags code).length + 1 := by
  unfold tagGaps
  rw [Text.length_gaps, List.length_map]

/-- A gap of the one text has a gap of the other one beside it. -/
theorem AlikeBut.exists_gap {i : Nat} {code code' : Text} {gap : Nat × Nat}
    (h : AlikeBut i code code') (hgap : (tagGaps code)[i]? = some gap) :
    ∃ gap', (tagGaps code')[i]? = some gap' := by
  have hlength := congrArg List.length h.raws
  rw [List.length_map, List.length_map] at hlength
  have hi := (List.getElem?_eq_some_iff.1 hgap).1
  rw [length_tagGaps, hlength, ← length_tagGaps] at hi
  exact ⟨_, List.getElem?_eq_getElem hi⟩

/-- Whether tags stand in a text one behind the other from an offset on. -/
def Stand (code : Text) : Nat → List Tag → Prop
  | position, [] => position ≤ code.length
  | position, tag :: rest =>
    position ≤ tag.offset ∧ tag.Spelled ∧ code.slice tag.offset tag.stop = tag.raw ∧
      Stand code tag.stop rest

section Stand

variable {code : Text} {position : Nat} {l : List Tag}

theorem Stand.le_length (h : Stand code position l) : position ≤ code.length := by
  induction l generalizing position with
  | nil => exact h
  | cons tag rest ih =>
    obtain ⟨hle, -, -, hrest⟩ := h
    have := ih hrest
    have := tag.stop_eq
    omega

theorem Stand.le_offset (h : Stand code position l) {tag : Tag} (htag : tag ∈ l) :
    position ≤ tag.offset := by
  induction l generalizing position with
  | nil => simp at htag
  | cons first rest ih =>
    obtain ⟨hle, -, -, hrest⟩ := h
    rcases List.mem_cons.1 htag with rfl | htag
    · exact hle
    · have := ih hrest htag
      have := first.stop_eq
      omega

theorem Stand.row (h : Stand code position l) :
    Text.Row code.length position (l.map Tag.range) := by
  induction l generalizing position with
  | nil => exact h
  | cons tag rest ih =>
    obtain ⟨hle, -, -, hrest⟩ := h
    have hstop := tag.stop_eq
    exact ⟨hle, by show tag.offset ≤ tag.stop; omega, ih hrest⟩

theorem stand_of_pairwise (hmem : ∀ tag ∈ l, tag ∈ tags code)
    (hbehind : l.Pairwise fun a b => a.stop ≤ b.offset) (hposition : position ≤ code.length)
    (hfirst : ∀ tag ∈ l, position ≤ tag.offset) : Stand code position l := by
  induction l generalizing position with
  | nil => exact hposition
  | cons tag rest ih =>
    obtain ⟨hnext, hbehind⟩ := List.pairwise_cons.1 hbehind
    have htag := hmem tag List.mem_cons_self
    obtain ⟨hmade, hspelled⟩ := mem_tags_iff_spelled.1 htag
    refine ⟨hfirst tag List.mem_cons_self, hmade, ?_, ?_⟩
    · rw [tag.stop_eq]
      exact Text.slice_of_spelled hspelled
    · exact ih (fun x hx => hmem x (List.mem_cons_of_mem tag hx)) hbehind
        (standsIn_of_mem_tags htag).stop_le_length hnext

theorem stand_tags (code : Text) : Stand code 0 (tags code) :=
  stand_of_pairwise (fun _ htag => htag) (tags_pairwise code) (Nat.zero_le _)
    fun _ _ => Nat.zero_le _

/-- From a tag on, a text is the tag and what follows. -/
theorem Stand.drop_offset {tag : Tag} {rest : List Tag} (h : Stand code position (tag :: rest)) :
    code.drop tag.offset = tag.raw ++ code.drop tag.stop := by
  obtain ⟨-, -, hraw, -⟩ := h
  have hstop := tag.stop_eq
  rw [← hraw, Text.slice_append_drop (by omega)]

/-- Up to the end of a tag, a text is what stands in front of the gap, the
gap and the tag. -/
theorem Stand.take_stop {tag : Tag} {rest : List Tag} (h : Stand code position (tag :: rest)) :
    code.take tag.stop =
      code.take position ++ code.slice position tag.offset ++ tag.raw := by
  obtain ⟨hle, -, hraw, -⟩ := h
  have hstop := tag.stop_eq
  have hoffset : tag.offset ≤ tag.stop := by omega
  rw [← Text.take_append_slice hoffset, ← Text.take_append_slice hle, hraw]

/-- Tags move the same if all places from the first one on do. -/
theorem Stand.map_moved_congr {move move' : Nat → Nat} (h : Stand code position l)
    (hsame : ∀ n, position ≤ n → move n = move' n) :
    l.map (Tag.moved move) = l.map (Tag.moved move') :=
  List.map_congr_left fun _ htag => Tag.moved_congr (hsame _ (h.le_offset htag))

end Stand

section Alike

variable {code code' : Text} {position position' : Nat} {l l' : List Tag}

theorem length_gap {tag : Tag} {rest : List Tag} (h : Stand code position (tag :: rest)) :
    (code.slice position tag.offset).length = tag.offset - position := by
  have hstop := tag.stop_eq
  have hlength := h.2.2.2.le_length
  rw [Text.length_slice (by omega)]

/-- Texts with the same tags and the same gaps are the same, and so are the
tags up to their offsets. -/
theorem eq_of_gapTextsFrom_eq (h : Stand code position l) (h' : Stand code' position' l')
    (hraws : l.map Tag.raw = l'.map Tag.raw)
    (htexts : gapTextsFrom code position l = gapTextsFrom code' position' l') :
    code.drop position = code'.drop position' ∧
      l' = l.map (Tag.moved fun n => n - position + position') := by
  induction l generalizing position position' l' with
  | nil =>
    obtain rfl : l' = [] := List.map_eq_nil_iff.1 hraws.symm
    have htext := (List.cons.inj htexts).1
    have hall : ∀ (t : Text) (n : Nat), t.slice n t.length = t.drop n := by
      intro t n
      rw [Text.slice, List.take_of_length_le (by rw [List.length_drop])]
    exact ⟨by rw [← hall, ← hall]; exact htext, rfl⟩
  | cons tag rest ih =>
    cases l' with
    | nil => simp at hraws
    | cons tag' rest' =>
      obtain ⟨hraw, hraws⟩ := List.cons.inj hraws
      obtain ⟨htext, htexts⟩ := List.cons.inj htexts
      replace htext : code.slice position tag.offset = code'.slice position' tag'.offset := htext
      have hlength := congrArg List.length htext
      rw [length_gap h, length_gap h'] at hlength
      have hfront := h.drop_offset
      have hfront' := h'.drop_offset
      obtain ⟨hle, hmade, -, hrest⟩ := h
      obtain ⟨hle', hmade', -, hrest'⟩ := h'
      obtain ⟨hdrop, hmoved⟩ := ih hrest hrest' hraws htexts
      have hstop := tag.stop_eq
      have hstop' := tag'.stop_eq
      rw [← hraw] at hstop'
      constructor
      · rw [← Text.slice_append_drop hle, ← Text.slice_append_drop hle', htext, hfront, hfront',
          hraw, hdrop]
      · rw [List.map_cons, hmoved]
        congr 1
        · exact hmade.eq_moved hmade' hraw (by omega)
        · apply hrest.map_moved_congr
          intro n hn
          omega

end Alike

end Markup

/-! ## The shift -/

/-- A gap that begins at the same offset of two texts. -/
structure Shift where
  start : Nat
  /-- Where the gap ends in the first text. -/
  stop : Nat
  /-- Where the gap ends in the second text. -/
  stop' : Nat
  le : start ≤ stop
  le' : start ≤ stop'

namespace Shift

/-- Where a range begins in the second text that begins at the offset `n`
of the first. -/
def ofStart (f : Shift) (n : Nat) : Nat :=
  if n < f.start then n else n - f.stop + f.stop'

/-- Where a range ends in the second text that ends at the offset `n` of
the first. -/
def ofStop (f : Shift) (n : Nat) : Nat :=
  if n ≤ f.start then n else n - f.stop + f.stop'

/-- Whether two texts are the same up to the gap. -/
structure Links (f : Shift) (code code' : Text) : Prop where
  stop_le : f.stop ≤ code.length
  stop_le' : f.stop' ≤ code'.length
  front : code.take f.start = code'.take f.start
  back : code.drop f.stop = code'.drop f.stop'

/-- Whether tags stand in front of the gap or behind it. -/
def Clear (f : Shift) (l : List Tag) : Prop :=
  ∀ tag ∈ l, tag.stop ≤ f.start ∨ f.stop ≤ tag.offset

section Places

variable {f : Shift} {n : Nat}

theorem ofStart_of_lt (h : n < f.start) : f.ofStart n = n :=
  if_pos h

theorem ofStart_of_le (h : f.stop ≤ n) : f.ofStart n = n - f.stop + f.stop' := by
  have := f.le
  exact if_neg (by omega)

theorem ofStop_of_le (h : n ≤ f.start) : f.ofStop n = n :=
  if_pos h

theorem ofStop_of_lt (h : f.stop < n) : f.ofStop n = n - f.stop + f.stop' := by
  have := f.le
  exact if_neg (by omega)

end Places

end Shift

namespace Markup

variable {code code' : Text} {i position : Nat} {l l' : List Tag} {gap : Nat × Nat}

/-- If the first gap differs, nothing behind it does. -/
theorem exists_shift_here (h : Stand code position l) (h' : Stand code' position l')
    (hraws : l.map Tag.raw = l'.map Tag.raw)
    (htexts : (gapTextsFrom code position l).tail = (gapTextsFrom code' position l').tail)
    (hfront : code.take position = code'.take position)
    (hgap : (Text.gaps position code.length (l.map Tag.range))[0]? = some gap) :
    ∃ f : Shift, (f.start, f.stop) = gap ∧ f.Links code code' ∧ f.Clear l ∧
      l' = l.map (Tag.moved f.ofStart) := by
  cases l with
  | nil =>
    obtain rfl : l' = [] := List.map_eq_nil_iff.1 hraws.symm
    obtain rfl := Option.some.inj hgap
    refine ⟨⟨position, code.length, code'.length, h, h'⟩, rfl, ?_, ?_, rfl⟩
    · refine ⟨Nat.le_refl _, Nat.le_refl _, hfront, ?_⟩
      rw [List.drop_length, List.drop_length]
    · intro tag htag
      simp at htag
  | cons tag rest =>
    cases l' with
    | nil => simp at hraws
    | cons tag' rest' =>
      obtain rfl := Option.some.inj hgap
      obtain ⟨hraw, hraws⟩ := List.cons.inj hraws
      have hback := h.drop_offset
      have hback' := h'.drop_offset
      obtain ⟨hle, hmade, -, hrest⟩ := h
      obtain ⟨hle', hmade', -, hrest'⟩ := h'
      obtain ⟨hdrop, hmoved⟩ := eq_of_gapTextsFrom_eq hrest hrest' hraws htexts
      have hlength := hrest.le_length
      have hlength' := hrest'.le_length
      have hstop := tag.stop_eq
      have hstop' := tag'.stop_eq
      rw [← hraw] at hstop'
      refine ⟨⟨position, tag.offset, tag'.offset, hle, hle'⟩, rfl, ?_, ?_, ?_⟩
      · refine ⟨by show tag.offset ≤ _; omega, by show tag'.offset ≤ _; omega, hfront, ?_⟩
        show code.drop tag.offset = code'.drop tag'.offset
        rw [hback, hback', hraw, hdrop]
      · intro x hx
        rcases List.mem_cons.1 hx with rfl | hx
        · exact .inr (Nat.le_refl _)
        · have := hrest.le_offset hx
          exact .inr (by show tag.offset ≤ _; omega)
      · rw [List.map_cons, hmoved]
        congr 1
        · apply hmade.eq_moved hmade' hraw
          rw [Shift.ofStart_of_le (Nat.le_refl _), Nat.sub_self, Nat.zero_add]
        · apply hrest.map_moved_congr
          intro n hn
          rw [Shift.ofStart_of_le (by show tag.offset ≤ n; omega)]
          show _ = n - tag.offset + tag'.offset
          omega

-- The tags in front of the gap are the same one by one.  Behind the gap
-- nothing differs any more.
/-- Tags with the same gaps but one are the same up to the shift of that
gap. -/
theorem exists_shift_from (h : Stand code position l) (h' : Stand code' position l')
    (hraws : l.map Tag.raw = l'.map Tag.raw)
    (htexts : ∀ j, j ≠ i →
      (gapTextsFrom code position l)[j]? = (gapTextsFrom code' position l')[j]?)
    (hfront : code.take position = code'.take position)
    (hgap : (Text.gaps position code.length (l.map Tag.range))[i]? = some gap) :
    ∃ f : Shift, (f.start, f.stop) = gap ∧ f.Links code code' ∧ f.Clear l ∧
      l' = l.map (Tag.moved f.ofStart) := by
  induction i generalizing position l l' with
  | zero =>
    refine exists_shift_here h h' hraws ?_ hfront hgap
    apply List.ext_getElem?
    intro j
    rw [List.getElem?_tail, List.getElem?_tail]
    exact htexts (j + 1) (by omega)
  | succ i ih =>
    cases l with
    | nil => simp [Text.gaps] at hgap
    | cons tag rest =>
      cases l' with
      | nil => simp at hraws
      | cons tag' rest' =>
        obtain ⟨hraw, hmore⟩ := List.cons.inj hraws
        have htext : code.slice position tag.offset = code'.slice position tag'.offset :=
          Option.some.inj (htexts 0 (by omega))
        have hlength := congrArg List.length htext
        rw [length_gap h, length_gap h'] at hlength
        have htake := h.take_stop
        have htake' := h'.take_stop
        obtain ⟨hle, hmade, -, hrest⟩ := h
        obtain ⟨hle', hmade', -, hrest'⟩ := h'
        have hsame : tag' = tag.moved fun n => n := hmade.eq_moved hmade' hraw (by omega)
        rw [Tag.moved_eq_self rfl] at hsame
        subst hsame
        have hstop := tag'.stop_eq
        have hfront' : code.take tag'.stop = code'.take tag'.stop := by
          rw [htake, htake', hfront, htext]
        obtain ⟨f, hf, hlinks, hclear, hmoved⟩ :=
          ih hrest hrest' hmore (fun j hj => htexts (j + 1) (by omega)) hfront' hgap
        have hbegin : tag'.stop ≤ f.start := by
          have := hrest.row.le_of_mem_gaps (List.mem_of_getElem? hgap)
          rw [← hf] at this
          exact this
        refine ⟨f, hf, hlinks, ?_, ?_⟩
        · intro x hx
          rcases List.mem_cons.1 hx with rfl | hx
          · exact .inl hbegin
          · exact hclear x hx
        · have hpos := hmade.isTag.length_pos
          have hstay : f.ofStart tag'.offset = tag'.offset := Shift.ofStart_of_lt (by omega)
          rw [List.map_cons, ← hmoved, Tag.moved_eq_self hstay]

end Markup

/-- Whether the second text has the shifted tags of the first one. -/
structure Shift.Carries (f : Shift) (code code' : Text) : Prop extends f.Links code code' where
  clear : f.Clear (tags code)
  tags : tags code' = (Markup.tags code).map (Tag.moved f.ofStart)

/-- Alike texts have a shift of the gap in which they differ. -/
theorem Markup.AlikeBut.exists_shift {i : Nat} {code code' : Text} {gap : Nat × Nat}
    (h : AlikeBut i code code') (hgap : (tagGaps code)[i]? = some gap) :
    ∃ f : Shift, (f.start, f.stop) = gap ∧ f.Carries code code' := by
  obtain ⟨f, hf, hlinks, hclear, htags⟩ :=
    exists_shift_from (stand_tags code) (stand_tags code') h.raws h.texts rfl hgap
  exact ⟨f, hf, hlinks, hclear, htags⟩

namespace Shift

variable {f : Shift} {code code' : Text} {spans : List Span} {s : Span}

/-- What stands in front of the gap or behind it stands in both texts. -/
theorem Links.slice_eq (h : f.Links code code') {lo hi : Nat} (hle : lo ≤ hi)
    (hout : hi < f.start ∨ f.stop < lo) :
    code'.slice (f.ofStop lo) (f.ofStart hi) = code.slice lo hi := by
  have hgap := f.le
  rcases hout with hbefore | hbehind
  · have hfront : ∀ t : Text, t.slice lo hi = Text.slice (t.take f.start) lo hi := by
      intro t
      unfold Text.slice
      rw [List.drop_take, List.take_take]
      congr 1
      omega
    rw [ofStop_of_le (by omega), ofStart_of_lt hbefore, hfront code, hfront code', h.front]
  · have hback : ∀ (t : Text) (n : Nat),
        t.slice (n + (lo - f.stop)) (n + (hi - f.stop)) =
          Text.slice (t.drop n) (lo - f.stop) (hi - f.stop) := by
      intro t n
      unfold Text.slice
      rw [List.drop_drop]
      congr 1
      omega
    have hlo : lo = f.stop + (lo - f.stop) := by omega
    have hhi : hi = f.stop + (hi - f.stop) := by omega
    calc code'.slice (f.ofStop lo) (f.ofStart hi)
        = code'.slice (f.stop' + (lo - f.stop)) (f.stop' + (hi - f.stop)) := by
          rw [ofStop_of_lt hbehind, ofStart_of_le (by omega), Nat.add_comm _ f.stop',
            Nat.add_comm _ f.stop']
      _ = code.slice (f.stop + (lo - f.stop)) (f.stop + (hi - f.stop)) := by
          rw [hback, hback, h.back]
      _ = code.slice lo hi := by rw [← hlo, ← hhi]

/-- The length of the second text. -/
theorem Links.length_eq (h : f.Links code code') : code'.length = f.ofStart code.length := by
  have hback := congrArg List.length h.back
  have hstop := h.stop_le
  have hstop' := h.stop_le'
  rw [List.length_drop, List.length_drop] at hback
  rw [ofStart_of_le hstop]
  omega

/-! ## The spans -/

/-- The span in the second text. -/
def span (f : Shift) (s : Span) : Span :=
  s.moved f.ofStart (Option.map f.ofStart)

theorem Carries.spansOf (h : f.Carries code code') (hspans : Markup.spansOf code = .ok spans) :
    Markup.spansOf code' = .ok (spans.map f.span) := by
  obtain ⟨n, hn, -, rfl⟩ := spansOf_eq_ok_iff.1 hspans
  exact spansOf_of_moved none (by rw [hn, h.tags]) rfl fun o _ => rfl

/-- The tags of a span stand in front of the gap or behind it. -/
theorem Carries.clear_span (h : f.Carries code code') (hpairs : PairsUp code spans)
    (hs : s ∈ spans) :
    (s.opener.stop ≤ f.start ∨ f.stop ≤ s.start) ∧
      (s.stop ≤ f.start ∨ f.stop ≤ s.stop - Closing.length) := by
  have hopener : s.opener ∈ openTags code := hpairs.openers ▸ List.mem_map_of_mem hs
  obtain ⟨c, hc, hstop, -⟩ := hpairs.partner s hs
  have hlength := closing_stop_eq hc
  have hclose : c.stop ≤ f.start ∨ f.stop ≤ c.offset := h.clear _ (closing_mem_tags_iff.2 hc)
  exact ⟨h.clear _ (mem_tags.2 (.inl ⟨_, hopener, rfl⟩)), by omega⟩

theorem Carries.clear_start (h : f.Carries code code') (hpairs : PairsUp code spans)
    (hs : s ∈ spans) : s.start < f.start ∨ f.stop ≤ s.start := by
  have hroom := hpairs.room s hs
  have := (h.clear_span hpairs hs).1
  omega

theorem Carries.opener_stop (h : f.Carries code code') (hpairs : PairsUp code spans)
    (hs : s ∈ spans) : (f.span s).opener.stop = f.ofStop s.opener.stop := by
  have hroom := hpairs.room s hs
  have hlength : s.opener.stop = s.start + s.opener.raw.length := rfl
  show f.ofStart s.start + s.opener.raw.length = _
  rcases (h.clear_span hpairs hs).1 with hbefore | hbehind
  · rw [ofStart_of_lt (by omega), ofStop_of_le hbefore, hlength]
  · rw [ofStart_of_le hbehind, ofStop_of_lt (by omega)]
    omega

theorem innerStop_span (s : Span) :
    (f.span s).stop - Closing.length = f.ofStart (s.stop - Closing.length) :=
  Nat.add_sub_cancel ..

theorem Carries.span_stop (h : f.Carries code code') (hpairs : PairsUp code spans)
    (hs : s ∈ spans) : (f.span s).stop = f.ofStop s.stop := by
  have hroom := hpairs.room s hs
  have hlength := Closing.length_pos
  show f.ofStart (s.stop - Closing.length) + Closing.length = _
  rcases (h.clear_span hpairs hs).2 with hbefore | hbehind
  · rw [ofStart_of_lt (by omega), ofStop_of_le hbefore]
    omega
  · rw [ofStart_of_le hbehind, ofStop_of_lt (by omega)]
    omega

/-- In the second text the parents move along with the starts. -/
theorem Carries.follows (h : f.Carries code code') (hpairs : PairsUp code spans) :
    Forest.Follows f.ofStart (Option.map f.ofStart) spans := by
  intro s hs q hq
  cases hparent : s.parent with
  | none => simp
  | some start =>
    obtain ⟨r, hr, rfl, -⟩ := (Forest.rooted_of_pairsUp hpairs).parent s hs start hparent
    have hgap := f.le
    have hgap' := f.le'
    rw [Option.map_some, Option.some.injEq, Option.some.injEq]
    constructor
    · intro heq
      rcases h.clear_start hpairs hr with hr | hr <;> rcases h.clear_start hpairs hq with hq | hq
      · rwa [ofStart_of_lt hr, ofStart_of_lt hq] at heq
      · rw [ofStart_of_lt hr, ofStart_of_le hq] at heq
        omega
      · rw [ofStart_of_le hr, ofStart_of_lt hq] at heq
        omega
      · rw [ofStart_of_le hr, ofStart_of_le hq] at heq
        omega
    · intro heq
      rw [heq]

end Shift

end TemplateScopes
