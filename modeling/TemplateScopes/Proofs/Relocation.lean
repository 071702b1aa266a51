import TemplateScopes.Proofs.Contents

/-!
# Tags at other places

The same tags can stand at other offsets of another text.  Their spans and
the scopes of these spans are then the same as well, up to the offsets.

There are three groups.

* Tags.  `Tag.moved` puts a tag elsewhere.  A tag is `Spelled` wherever it
  stands, and `Spelled.eq_moved` says that its text determines it up to the
  offset.
* Spans.  Moved tags have moved spans (`spansOf_of_moved`).
* The forest of moved spans.  If the parents move along with the starts
  (`Follows`), then children and orphans move along too
  (`childrenOf_moved`, `kept_moved`).
-/

namespace TemplateScopes

open Markup

/-! ## Tags -/

/-- The tag at the offset that `place` gives for its own. -/
def OpenTag.moved (place : Nat → Nat) (t : OpenTag) : OpenTag :=
  { t with offset := place t.offset }

/-- The tag at the offset that `place` gives for its own. -/
def CloseTag.moved (place : Nat → Nat) (t : CloseTag) : CloseTag :=
  { t with offset := place t.offset }

namespace Tag

/-- The tag at the offset that `place` gives for its own. -/
def moved (place : Nat → Nat) : Tag → Tag
  | opening t => opening (t.moved place)
  | closing t => closing (t.moved place)

/-- Tags that are made of a proper spelling. -/
inductive Spelled : Tag → Prop where
  | opening (offset : Nat) {o : Opening} (hwf : o.WellFormed) :
    Spelled (.opening (.ofOpening offset o))
  | closing (offset : Nat) (c : Closing) : Spelled (.closing (.ofClosing offset c))

section Moved

variable {place : Nat → Nat} {tag tag' : Tag}

@[simp] theorem moved_offset : (tag.moved place).offset = place tag.offset := by
  cases tag <;> rfl

@[simp] theorem moved_raw : (tag.moved place).raw = tag.raw := by
  cases tag <;> rfl

theorem moved_moved (place' : Nat → Nat) :
    (tag.moved place').moved place = tag.moved fun n => place (place' n) := by
  cases tag <;> rfl

theorem moved_congr {place' : Nat → Nat} (h : place tag.offset = place' tag.offset) :
    tag.moved place = tag.moved place' := by
  cases tag with
  | opening t => exact congrArg (fun n => Tag.opening { t with offset := n }) h
  | closing t => exact congrArg (fun n => Tag.closing { t with offset := n }) h

theorem moved_eq_self (h : place tag.offset = tag.offset) : tag.moved place = tag := by
  have hstay : tag.moved place = tag.moved fun n => n := moved_congr h
  rw [hstay]
  cases tag <;> rfl

theorem Spelled.moved (h : tag.Spelled) (place : Nat → Nat) : (tag.moved place).Spelled := by
  cases h with
  | opening offset hwf => exact .opening (place offset) hwf
  | closing offset c => exact .closing (place offset) c

theorem Spelled.isTag (h : tag.Spelled) : IsTag tag.raw := by
  cases h with
  | opening offset hwf => exact Opening.isTag_spelling hwf
  | closing offset c => exact c.isTag_spelling

/-- Two tags with the same text differ in their offsets only. -/
theorem Spelled.eq_moved (h : tag.Spelled) (h' : tag'.Spelled) (hraw : tag.raw = tag'.raw)
    (hplace : place tag.offset = tag'.offset) : tag' = tag.moved place := by
  have hconst : tag.moved place = tag.moved fun _ => tag'.offset := moved_congr hplace
  rw [hconst]
  cases h with
  | @opening offset o hwf =>
    cases h' with
    | @opening offset' o' hwf' =>
      replace hraw : o.spelling = o'.spelling := hraw
      have hread := Opening.at?_eq_some_iff.2 ⟨hwf', List.prefix_rfl⟩
      rw [← hraw, Opening.at?_eq_some_iff.2 ⟨hwf, List.prefix_rfl⟩] at hread
      obtain rfl := Option.some.inj hread
      rfl
    | closing offset' c =>
      replace hraw : o.spelling = c.spelling := hraw
      have hnot : ¬ c.spelling <+: o.spelling :=
        Closing.closing_not_spelled hwf List.prefix_rfl
      exact absurd (hraw ▸ List.prefix_rfl) hnot
  | closing offset c =>
    cases h' with
    | @opening offset' o hwf =>
      replace hraw : c.spelling = o.spelling := hraw
      have hnot : ¬ c.spelling <+: o.spelling :=
        Closing.closing_not_spelled hwf List.prefix_rfl
      exact absurd (hraw ▸ List.prefix_rfl) hnot
    | closing offset' c' =>
      replace hraw : c.spelling = c'.spelling := hraw
      have hread := Closing.at?_eq_some_iff.2 (List.prefix_rfl (l := c'.spelling))
      rw [← hraw, Closing.at?_eq_some_iff.2 List.prefix_rfl] at hread
      obtain rfl := Option.some.inj hread
      rfl

end Moved

end Tag

namespace Markup

/-- The tags of a text are those that are spelled out in it. -/
theorem mem_tags_iff_spelled {t : Text} {tag : Tag} :
    tag ∈ tags t ↔ tag.Spelled ∧ tag.raw <+: t.drop tag.offset := by
  rw [mem_tags]
  constructor
  · intro h
    rcases h with ⟨a, ha, rfl⟩ | ⟨c, hc, rfl⟩
    · obtain ⟨o, hwf, hspelled, ha⟩ := mem_openTags.1 ha
      rw [ha]
      exact ⟨.opening _ hwf, hspelled⟩
    · obtain ⟨s, hspelled, hc⟩ := mem_closeTags.1 hc
      rw [hc]
      exact ⟨.closing _ s, hspelled⟩
  · intro h
    obtain ⟨hmade, hspelled⟩ := h
    cases hmade with
    | opening offset hwf => exact .inl ⟨_, mem_openTags.2 ⟨_, hwf, hspelled, rfl⟩, rfl⟩
    | closing offset c => exact .inr ⟨_, mem_closeTags.2 ⟨c, hspelled, rfl⟩, rfl⟩

end Markup

/-! ## Spans -/

/-- The nesting of the moved tags. -/
def Nesting.moved (place : Nat → Nat) : Nesting → Nesting
  | nil => nil
  | block o inner c rest =>
    block (o.moved place) (inner.moved place) (c.moved place) (rest.moved place)

/-- The span between moved tags.  Its parent is the one that `above` gives
for the parent before. -/
def Span.moved (place : Nat → Nat) (above : Option Nat → Option Nat) (s : Span) : Span :=
  ⟨s.opener.moved place, above s.parent, place (s.stop - Closing.length) + Closing.length⟩

section Moved

variable {place : Nat → Nat} {above : Option Nat → Option Nat}

@[simp] theorem Span.moved_start (s : Span) : (s.moved place above).start = place s.start := rfl

@[simp] theorem Span.moved_parent (s : Span) : (s.moved place above).parent = above s.parent :=
  rfl

@[simp] theorem Span.moved_opener (s : Span) :
    (s.moved place above).opener = s.opener.moved place := rfl

theorem Span.moved_fromTo (o : OpenTag) (c : CloseTag) (parent : Option Nat) :
    (fromTo o c parent).moved place above =
      fromTo (o.moved place) (c.moved place) (above parent) := by
  unfold moved
  rw [fromTo_stop, Nat.add_sub_cancel]
  rfl

namespace Nesting

theorem tags_moved (n : Nesting) : (n.moved place).tags = n.tags.map (Tag.moved place) := by
  induction n with
  | nil => rfl
  | block o inner c rest ihinner ihrest =>
    rw [moved, tags, tags, ihinner, ihrest, List.map_cons, List.map_append, List.map_cons]
    rfl

/-- The spans of a moved nesting, if `above` moves the opening tags of the
nesting as `place` does. -/
theorem spans_moved {n : Nesting} (parent : Option Nat)
    (habove : ∀ o, .opening o ∈ n.tags → above (some o.offset) = some (place o.offset)) :
    (n.moved place).spans (above parent) = (n.spans parent).map (Span.moved place above) := by
  induction n generalizing parent with
  | nil => rfl
  | block o inner c rest ihinner ihrest =>
    have hinner : ∀ o, .opening o ∈ inner.tags → above (some o.offset) = some (place o.offset) :=
      fun o' ho' => habove o' (by simp [tags, ho'])
    have hrest : ∀ o, .opening o ∈ rest.tags → above (some o.offset) = some (place o.offset) :=
      fun o' ho' => habove o' (by simp [tags, ho'])
    have hopener : some (o.moved place).offset = above (some o.offset) :=
      (habove o (by simp [tags])).symm
    rw [moved, spans, spans, hopener, ihinner _ hinner, ihrest _ hrest, List.map_cons,
      List.map_append, Span.moved_fromTo]

end Nesting

/-- A text with moved tags has moved spans. -/
theorem spansOf_of_moved {t : Text} {n : Nesting} (parent : Option Nat)
    (htags : tags t = n.tags.map (Tag.moved place)) (hparent : above parent = none)
    (habove : ∀ o, .opening o ∈ n.tags → above (some o.offset) = some (place o.offset)) :
    spansOf t = .ok ((n.spans parent).map (Span.moved place above)) := by
  have hn : (n.moved place).tags = tags t := by rw [n.tags_moved, htags]
  rw [spansOf_of_tags hn, ← hparent, Nesting.spans_moved parent habove]

end Moved

/-! ## The forest of moved spans -/

namespace Forest

/-- Whether the parents of the spans move along with their starts. -/
def Follows (place : Nat → Nat) (above : Option Nat → Option Nat) (spans : List Span) : Prop :=
  ∀ s ∈ spans, ∀ q ∈ spans, above s.parent = some (place q.start) ↔ s.parent = some q.start

section Moved

variable {code : Text} {ctx : Context} {place : Nat → Nat} {above : Option Nat → Option Nat}
  {spans : List Span} {s : Span}

@[simp] theorem addressable_moved : addressable ctx (s.moved place above) = addressable ctx s :=
  rfl

theorem childrenOf_moved (h : Follows place above spans) (hs : s ∈ spans) :
    childrenOf ctx (spans.map (Span.moved place above)) (s.moved place above) =
      (childrenOf ctx spans s).map (Span.moved place above) := by
  unfold childrenOf
  rw [List.filter_map]
  congr 1
  refine List.filter_congr ?_
  intro c hc
  simp only [Function.comp_apply, addressable_moved, Span.moved_parent, Span.moved_start,
    h c hc s hs]

/-- Where no block is an orphan, none becomes one. -/
theorem kept_moved (h : Follows place above spans) (hkept : ∀ s q, ¬ Orphan ctx spans s q) :
    ∀ s q, ¬ Orphan ctx (spans.map (Span.moved place above)) s q := by
  intro s' q' horphan
  obtain ⟨hs', haddressable, hq', hparent, hleft⟩ := horphan
  obtain ⟨s, hs, rfl⟩ := List.mem_map.1 hs'
  obtain ⟨q, hq, rfl⟩ := List.mem_map.1 hq'
  exact hkept s q ⟨hs, haddressable, hq, (h s hs q hq).1 hparent, hleft⟩

/-- The scopes of moved spans, one for each block that had a scope. -/
theorem scopes_moved :
    (forestOf code ctx (spans.map (Span.moved place above))).scopes =
      (spans.filter (addressable ctx)).map fun s =>
        scopeOf code ctx (spans.map (Span.moved place above)) (s.moved place above) := by
  show List.map _ (List.filter _ (spans.map _)) = _
  rw [List.filter_map, List.map_map]
  rfl

end Moved

end Forest

end TemplateScopes
