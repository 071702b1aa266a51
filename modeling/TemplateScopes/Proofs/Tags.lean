import TemplateScopes.Markup.Span
import TemplateScopes.Proofs.Spelling

/-!
# The tags of a text

The search for tags leaves out what begins inside a tag.  Nothing is lost
by that: it finds every tag that is spelled out anywhere in the text.

There are three groups.

* The two lists.  `mem_openTags` and `mem_closeTags` say what they hold,
  and each of them is in the order of the offsets.
* The places of tags.  A tag that `StandsIn` a text takes a range of it,
  and the ranges of two tags keep `Apart`.
* The tags of both sides.  `Markup.tags` lists them one behind the other
  (`tags_pairwise`).
-/

namespace TemplateScopes

/-! ## The two lists -/

namespace Markup

theorem openingHere?_eq_some_iff {t : Text} {o : Opening} {n : Nat} :
    openingHere? t = some (o, n) ↔
      (o.WellFormed ∧ o.spelling <+: t) ∧ n = o.spelling.length := by
  rw [← Opening.at?_eq_some_iff, openingHere?, Option.map_eq_some_iff]
  simp only [Prod.mk.injEq]
  grind

theorem closingHere?_eq_some_iff {t : Text} {c : Closing} {n : Nat} :
    closingHere? t = some (c, n) ↔ c.spelling <+: t ∧ n = c.spelling.length := by
  rw [← Closing.at?_eq_some_iff, closingHere?, Option.map_eq_some_iff]
  simp only [Prod.mk.injEq]
  grind

/-- Matches that are spelled out as tags keep apart. -/
theorem apart_of_isTag {α : Type} {here? : Text.Recogniser α} (spelling : α → Text)
    (hnil : here? [] = none)
    (hfound : ∀ {t : Text} {a : α} {n : Nat}, here? t = some (a, n) →
      IsTag (spelling a) ∧ spelling a <+: t ∧ n = (spelling a).length) : Text.Apart here? := by
  refine ⟨hnil, ?_⟩
  intro t a n hmatch k hpos hk
  obtain ⟨htag, hspelled, rfl⟩ := hfound hmatch
  rw [Option.eq_none_iff_forall_ne_some]
  intro found hmatch'
  obtain ⟨htag', hspelled', -⟩ := hfound hmatch'
  have := htag.apart (m := 0) htag' hspelled hspelled' hpos
  omega

theorem openingHere?_apart : Text.Apart openingHere? := by
  refine apart_of_isTag Opening.spelling rfl ?_
  intro t o n hfound
  obtain ⟨⟨hwf, hspelled⟩, hn⟩ := openingHere?_eq_some_iff.1 hfound
  exact ⟨Opening.isTag_spelling hwf, hspelled, hn⟩

theorem closingHere?_apart : Text.Apart closingHere? := by
  refine apart_of_isTag Closing.spelling rfl ?_
  intro t c n hfound
  obtain ⟨hspelled, hn⟩ := closingHere?_eq_some_iff.1 hfound
  exact ⟨c.isTag_spelling, hspelled, hn⟩

/-- The opening tags of a text are those that are spelled out in it. -/
theorem mem_openTags {t : Text} {tag : OpenTag} :
    tag ∈ openTags t ↔ ∃ o : Opening, o.WellFormed ∧ o.spelling <+: t.drop tag.offset ∧
      tag = .ofOpening tag.offset o := by
  simp only [openTags, List.mem_map, Prod.exists, Text.mem_findAll openingHere?_apart,
    openingHere?_eq_some_iff]
  constructor
  · intro h
    obtain ⟨n, o, ⟨-, ⟨hwf, hspelled⟩, -⟩, rfl⟩ := h
    exact ⟨o, hwf, hspelled, rfl⟩
  · intro h
    obtain ⟨o, hwf, hspelled, htag⟩ := h
    exact ⟨tag.offset, o, ⟨_, ⟨hwf, hspelled⟩, rfl⟩, htag.symm⟩

/-- The closing tags of a text are those that are spelled out in it. -/
theorem mem_closeTags {t : Text} {tag : CloseTag} :
    tag ∈ closeTags t ↔ ∃ c : Closing, c.spelling <+: t.drop tag.offset ∧
      tag = .ofClosing tag.offset c := by
  simp only [closeTags, List.mem_map, Prod.exists, Text.mem_findAll closingHere?_apart,
    closingHere?_eq_some_iff]
  constructor
  · intro h
    obtain ⟨n, c, ⟨-, hspelled, -⟩, rfl⟩ := h
    exact ⟨c, hspelled, rfl⟩
  · intro h
    obtain ⟨c, hspelled, htag⟩ := h
    exact ⟨tag.offset, c, ⟨_, hspelled, rfl⟩, htag.symm⟩

theorem openTags_pairwise (t : Text) :
    (openTags t).Pairwise fun a b => a.offset < b.offset :=
  List.pairwise_map.2 (Text.pairwise_findAll t)

theorem closeTags_pairwise (t : Text) :
    (closeTags t).Pairwise fun a b => a.offset < b.offset :=
  List.pairwise_map.2 (Text.pairwise_findAll t)

end Markup

/-! ## The places of tags -/

namespace Tag

/-- The text of the tag. -/
def raw : Tag → Text
  | opening t => t.raw
  | closing t => t.raw

/-- The offset behind the tag. -/
def stop : Tag → Nat
  | opening t => t.stop
  | closing t => t.stop

/-- Whether no place of a text belongs to both tags. -/
def Apart (a b : Tag) : Prop :=
  a.stop ≤ b.offset ∨ b.stop ≤ a.offset

/-- Whether the tag is spelled out in a text at its offset. -/
structure StandsIn (t : Text) (tag : Tag) : Prop where
  isTag : Markup.IsTag tag.raw
  spelled : tag.raw <+: t.drop tag.offset

theorem stop_eq (tag : Tag) : tag.stop = tag.offset + tag.raw.length := by
  cases tag <;> rfl

theorem StandsIn.offset_lt_stop {t : Text} {tag : Tag} (h : tag.StandsIn t) :
    tag.offset < tag.stop := by
  have := h.isTag.length_pos
  rw [stop_eq]
  omega

theorem StandsIn.stop_le_offset {t : Text} {a b : Tag} (ha : a.StandsIn t) (hb : b.StandsIn t)
    (hlt : a.offset < b.offset) : a.stop ≤ b.offset := by
  rw [stop_eq]
  exact ha.isTag.apart hb.isTag ha.spelled hb.spelled hlt

theorem StandsIn.stop_le_length {t : Text} {tag : Tag} (h : tag.StandsIn t) :
    tag.stop ≤ t.length := by
  have hlength := h.spelled.length_le
  have hpos := h.isTag.length_pos
  rw [List.length_drop] at hlength
  rw [stop_eq]
  omega

end Tag

namespace Markup

theorem opening_standsIn {t : Text} {tag : OpenTag} (h : tag ∈ openTags t) :
    (Tag.opening tag).StandsIn t := by
  obtain ⟨o, hwf, hspelled, htag⟩ := mem_openTags.1 h
  rw [htag]
  exact ⟨Opening.isTag_spelling hwf, hspelled⟩

theorem closing_standsIn {t : Text} {tag : CloseTag} (h : tag ∈ closeTags t) :
    (Tag.closing tag).StandsIn t := by
  obtain ⟨c, hspelled, htag⟩ := mem_closeTags.1 h
  rw [htag]
  exact ⟨c.isTag_spelling, hspelled⟩

/-- All closing tags have the same length. -/
theorem closing_stop_eq {t : Text} {tag : CloseTag} (h : tag ∈ closeTags t) :
    tag.stop = tag.offset + Closing.length := by
  obtain ⟨c, -, htag⟩ := mem_closeTags.1 h
  rw [CloseTag.stop, htag]
  exact congrArg (tag.offset + ·) c.length_spelling

theorem offset_ne_of_mem {t : Text} {a : OpenTag} {b : CloseTag} (ha : a ∈ openTags t)
    (hb : b ∈ closeTags t) : a.offset ≠ b.offset := by
  obtain ⟨o, hwf, ho, -⟩ := mem_openTags.1 ha
  obtain ⟨c, hc, -⟩ := mem_closeTags.1 hb
  intro heq
  rw [← heq] at hc
  exact Closing.closing_not_spelled hwf ho hc

/-- The tags of both sides never overlap. -/
theorem apart_of_openTags_closeTags (t : Text) :
    ((openTags t).map Tag.opening ++ (closeTags t).map Tag.closing).Pairwise Tag.Apart := by
  rw [List.pairwise_append, List.pairwise_map, List.pairwise_map]
  refine ⟨?_, ?_, ?_⟩
  · refine (openTags_pairwise t).imp_of_mem fun ha hb hlt => .inl ?_
    exact (opening_standsIn ha).stop_le_offset (opening_standsIn hb) hlt
  · refine (closeTags_pairwise t).imp_of_mem fun ha hb hlt => .inl ?_
    exact (closing_standsIn ha).stop_le_offset (closing_standsIn hb) hlt
  · intro x hx y hy
    obtain ⟨a, ha, rfl⟩ := List.mem_map.1 hx
    obtain ⟨b, hb, rfl⟩ := List.mem_map.1 hy
    rcases Nat.lt_or_gt_of_ne (offset_ne_of_mem ha hb) with hlt | hlt
    · exact .inl ((opening_standsIn ha).stop_le_offset (closing_standsIn hb) hlt)
    · exact .inr ((closing_standsIn hb).stop_le_offset (opening_standsIn ha) hlt)

/-! ## The tags of both sides -/

/-- The tags of a text in the order of their offsets. -/
def tags (t : Text) : List Tag :=
  mergeTags (openTags t) (closeTags t)

theorem tags_perm (t : Text) :
    (tags t).Perm ((openTags t).map .opening ++ (closeTags t).map .closing) :=
  List.mergeSort_perm _ _

theorem mem_tags {t : Text} {tag : Tag} :
    tag ∈ tags t ↔
      (∃ a ∈ openTags t, .opening a = tag) ∨ ∃ b ∈ closeTags t, .closing b = tag := by
  rw [(tags_perm t).mem_iff, List.mem_append, List.mem_map, List.mem_map]

theorem closing_mem_tags_iff {t : Text} {c : CloseTag} : .closing c ∈ tags t ↔ c ∈ closeTags t := by
  simp [mem_tags]

theorem standsIn_of_mem_tags {t : Text} {tag : Tag} (h : tag ∈ tags t) : tag.StandsIn t := by
  rcases mem_tags.1 h with ⟨a, ha, rfl⟩ | ⟨b, hb, rfl⟩
  · exact opening_standsIn ha
  · exact closing_standsIn hb

/-- The tags of a text stand one behind the other. -/
theorem tags_pairwise (t : Text) : (tags t).Pairwise fun a b => a.stop ≤ b.offset := by
  have hsorted : (tags t).Pairwise fun a b => decide (a.offset ≤ b.offset) = true :=
    List.pairwise_mergeSort (by simp; omega) (by simp; omega) _
  have hapart : (tags t).Pairwise Tag.Apart := by
    refine (tags_perm t).symm.pairwise (apart_of_openTags_closeTags t) ?_
    exact fun h => h.symm
  refine (hsorted.and hapart).imp_of_mem ?_
  intro a b ha hb hboth
  have hle := of_decide_eq_true hboth.1
  have hpos := (standsIn_of_mem_tags hb).offset_lt_stop
  rcases hboth.2 with hab | hba
  · exact hab
  · omega

theorem tags_ascending (t : Text) : (tags t).Pairwise fun a b => a.offset < b.offset := by
  refine (tags_pairwise t).imp_of_mem ?_
  intro a b ha _ hab
  have := (standsIn_of_mem_tags ha).offset_lt_stop
  omega

/-- There is only one order of the tags. -/
theorem tags_eq_of_perm {t : Text} {l : List Tag}
    (hperm : l.Perm ((openTags t).map .opening ++ (closeTags t).map .closing))
    (hsorted : l.Pairwise fun a b => a.offset < b.offset) : tags t = l := by
  refine ((tags_perm t).trans hperm.symm).eq_of_pairwise ?_ (tags_ascending t) hsorted
  intro a b _ _ hab hba
  omega

theorem tags_nodup (t : Text) : (tags t).Nodup := by
  refine (tags_ascending t).imp ?_
  intro a b hlt heq
  rw [heq] at hlt
  exact Nat.lt_irrefl _ hlt

/-- The two lists of tags hold exactly what is spelled out in the text, in
the order of the offsets.  An offset begins at most one spelling of each
side, and no two tags of the text overlap. -/
theorem tags_spelled_out (t : Text) :
    ((openTags t).Pairwise fun a b => a.offset < b.offset) ∧
    (∀ tag, tag ∈ openTags t ↔ ∃ o : Opening, o.WellFormed ∧
      o.spelling <+: t.drop tag.offset ∧ tag = .ofOpening tag.offset o) ∧
    (∀ n (o o' : Opening), o.WellFormed → o'.WellFormed →
      o.spelling <+: t.drop n → o'.spelling <+: t.drop n → o = o') ∧
    ((closeTags t).Pairwise fun a b => a.offset < b.offset) ∧
    (∀ tag, tag ∈ closeTags t ↔ ∃ c : Closing,
      c.spelling <+: t.drop tag.offset ∧ tag = .ofClosing tag.offset c) ∧
    ((openTags t).map Tag.opening ++ (closeTags t).map Tag.closing).Pairwise Tag.Apart ∧
    (((openTags t).map Tag.opening ++ (closeTags t).map Tag.closing).map Tag.offset).Nodup := by
  refine ⟨openTags_pairwise t, fun _ => mem_openTags, ?_, closeTags_pairwise t,
    fun _ => mem_closeTags, apart_of_openTags_closeTags t, ?_⟩
  · intro n o o' hwf hwf' ho ho'
    have h := Opening.at?_eq_some_iff.2 ⟨hwf, ho⟩
    rw [Opening.at?_eq_some_iff.2 ⟨hwf', ho'⟩] at h
    exact (Option.some.inj h).symm
  · rw [List.Nodup, List.pairwise_map]
    refine (apart_of_openTags_closeTags t).imp_of_mem fun {a b} ha hb hapart heq => ?_
    have hposa := (standsIn_of_mem_tags ((tags_perm t).mem_iff.2 ha)).offset_lt_stop
    have hposb := (standsIn_of_mem_tags ((tags_perm t).mem_iff.2 hb)).offset_lt_stop
    rcases hapart with h | h <;> omega

/-- The sign that begins a marker can stand alone in an expression. -/
theorem tags_spelled_out_half_marker :
    (⟨.within, some "<"⟩ : Opening).WellFormed ∧
    Opening.spelling ⟨.within, some "<"⟩ <+:
      List.drop 10 ("<% loop %><% with < %><% end_loop %>" : Text) ∧
    OpenTag.ofOpening 10 ⟨.within, some "<"⟩ ∈ openTags "<% loop %><% with < %><% end_loop %>" ∧
    ∀ o : Opening, o.WellFormed →
      o.spelling <+: List.drop 10 ("<% loop %><% with < %><% end_loop %>" : Text) →
      ⟨.within, some "<"⟩ = o := by
  have hwf : (⟨.within, some "<"⟩ : Opening).WellFormed := by
    intro e he
    obtain rfl : "<" = e := Option.some.inj he
    exact ⟨by decide, by decide, by decide⟩
  have hspelled : Opening.spelling ⟨.within, some "<"⟩ <+:
      List.drop 10 ("<% loop %><% with < %><% end_loop %>" : Text) := by decide
  obtain ⟨-, hmem, hunique, -⟩ := tags_spelled_out "<% loop %><% with < %><% end_loop %>"
  refine ⟨hwf, hspelled, (hmem _).2 ⟨⟨.within, some "<"⟩, hwf, hspelled, rfl⟩, ?_⟩
  exact fun o hwf' hspelled' => hunique 10 _ o hwf hwf' hspelled hspelled'

end Markup

end TemplateScopes
