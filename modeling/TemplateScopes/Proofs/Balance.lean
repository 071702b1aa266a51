import Mathlib.Data.List.Nodup
import TemplateScopes.Markup.Span

/-!
# Balanced tags

A sequence of tags is balanced if no closing tag comes too early and every
opening tag is closed.  The keywords do not matter.

There are three groups.

* The counts.  `Balanced` says it by the numbers of tags on both sides.
  `Settles` is the same for tags inside blocks that were opened before,
  and the lemmas below it read a sequence tag by tag.
* The nesting.  A `Nesting` is a sequence of blocks with their contents,
  and `balanced_iff_nesting` says that the balanced sequences are the tags
  of nestings.
* Partners.  Two tags are `Partners` if the tags between them are
  balanced.  A tag has one partner only (`Partners.closing_unique`,
  `Partners.opening_unique`), and in a nesting it has one
  (`Nesting.partners_of_closing_mem`).
-/

namespace TemplateScopes

/-! ## The counts -/

/-- Whether the tag opens a block. -/
def Tag.isOpening : Tag → Bool
  | opening _ => true
  | closing _ => false

/-- The tag as one that opens a block. -/
def Tag.opener? : Tag → Option OpenTag
  | opening o => some o
  | closing _ => none

namespace Markup

/-- How many of the tags open a block. -/
def openings (tags : List Tag) : Nat :=
  tags.countP Tag.isOpening

/-- How many of the tags close a block. -/
def closings (tags : List Tag) : Nat :=
  tags.countP fun tag => !tag.isOpening

@[simp] theorem openings_nil : openings [] = 0 := rfl

@[simp] theorem closings_nil : closings [] = 0 := rfl

@[simp] theorem openings_opening_cons (o : OpenTag) (tags : List Tag) :
    openings (.opening o :: tags) = openings tags + 1 :=
  List.countP_cons_of_pos rfl

@[simp] theorem openings_closing_cons (c : CloseTag) (tags : List Tag) :
    openings (.closing c :: tags) = openings tags :=
  List.countP_cons_of_neg (by simp [Tag.isOpening])

@[simp] theorem closings_opening_cons (o : OpenTag) (tags : List Tag) :
    closings (.opening o :: tags) = closings tags :=
  List.countP_cons_of_neg (by simp [Tag.isOpening])

@[simp] theorem closings_closing_cons (c : CloseTag) (tags : List Tag) :
    closings (.closing c :: tags) = closings tags + 1 :=
  List.countP_cons_of_pos rfl

@[simp] theorem openings_append (s t : List Tag) :
    openings (s ++ t) = openings s + openings t :=
  List.countP_append

@[simp] theorem closings_append (s t : List Tag) :
    closings (s ++ t) = closings s + closings t :=
  List.countP_append

/-- Whether no beginning of the tags closes more than it opens, and the
whole closes what it opens. -/
def Balanced (tags : List Tag) : Prop :=
  (∀ front, front <+: tags → closings front ≤ openings front) ∧
    openings tags = closings tags

/-- Whether the tags close what they open and `depth` blocks more, none of
them too early. -/
def Settles (depth : Nat) (tags : List Tag) : Prop :=
  (∀ front, front <+: tags → closings front ≤ openings front + depth) ∧
    openings tags + depth = closings tags

theorem settles_zero_iff {tags : List Tag} : Settles 0 tags ↔ Balanced tags := Iff.rfl

theorem settles_nil_iff {depth : Nat} : Settles depth [] ↔ depth = 0 := by
  simp [Settles]

theorem settles_opening_cons_iff {depth : Nat} {o : OpenTag} {tags : List Tag} :
    Settles depth (.opening o :: tags) ↔ Settles (depth + 1) tags := by
  simp only [Settles, List.prefix_cons_iff, openings_opening_cons, closings_opening_cons]
  constructor
  · intro h
    refine ⟨fun front hfront => ?_, by omega⟩
    have := h.1 (.opening o :: front) (.inr ⟨front, rfl, hfront⟩)
    simp at this
    omega
  · intro h
    refine ⟨fun front hfront => ?_, by omega⟩
    rcases hfront with rfl | ⟨front, rfl, hfront⟩
    · simp
    · have := h.1 front hfront
      simp
      omega

theorem settles_closing_cons_iff {depth : Nat} {c : CloseTag} {tags : List Tag} :
    Settles depth (.closing c :: tags) ↔ ∃ d, depth = d + 1 ∧ Settles d tags := by
  simp only [Settles, List.prefix_cons_iff, openings_closing_cons, closings_closing_cons]
  constructor
  · intro h
    have hfirst := h.1 [.closing c] (.inr ⟨[], rfl, List.nil_prefix⟩)
    simp at hfirst
    refine ⟨depth - 1, by omega, fun front hfront => ?_, by omega⟩
    have := h.1 (.closing c :: front) (.inr ⟨front, rfl, hfront⟩)
    simp at this
    omega
  · intro h
    obtain ⟨d, rfl, hd⟩ := h
    refine ⟨fun front hfront => ?_, by omega⟩
    rcases hfront with rfl | ⟨front, rfl, hfront⟩
    · simp
    · have := hd.1 front hfront
      simp
      omega

end Markup

/-! ## The nesting -/

/-- A sequence of blocks: nothing, or a block with its contents and the
blocks behind it. -/
inductive Nesting where
  | nil
  | block (opener : OpenTag) (inner : Nesting) (closer : CloseTag) (rest : Nesting)

namespace Nesting

open Markup

/-- The tags of the blocks in the order in which they stand. -/
def tags : Nesting → List Tag
  | nil => []
  | block o inner c rest => .opening o :: (inner.tags ++ .closing c :: rest.tags)

theorem settles_append_iff (n : Nesting) {depth : Nat} {tags : List Tag} :
    Settles depth (n.tags ++ tags) ↔ Settles depth tags := by
  induction n generalizing depth tags with
  | nil => rfl
  | block o inner c rest ihinner ihrest =>
    rw [Nesting.tags, List.cons_append, List.append_assoc, List.cons_append,
      settles_opening_cons_iff, ihinner, settles_closing_cons_iff]
    simp [ihrest]

theorem balanced_tags (n : Nesting) : Balanced n.tags := by
  have h : Settles 0 (n.tags ++ []) := n.settles_append_iff.2 (settles_nil_iff.2 rfl)
  rwa [List.append_nil] at h

/-- Tags that close `depth` blocks more than they open: between two of
these closing tags stands a nesting. -/
inductive Unfinished : Nat → List Tag → Prop where
  | done (n : Nesting) : Unfinished 0 n.tags
  | close (n : Nesting) (c : CloseTag) {depth : Nat} {tags : List Tag}
      (h : Unfinished depth tags) : Unfinished (depth + 1) (n.tags ++ .closing c :: tags)

/-- A block in front of unfinished tags belongs to their first nesting. -/
theorem Unfinished.block {depth : Nat} {tags : List Tag} (o : OpenTag) (inner : Nesting)
    (c : CloseTag) (h : Unfinished depth tags) :
    Unfinished depth (.opening o :: (inner.tags ++ .closing c :: tags)) := by
  cases h with
  | done n => exact .done (.block o inner c n)
  | @close n c' depth tags h =>
    have := Unfinished.close (.block o inner c n) c' h
    simpa [Nesting.tags] using this

-- The induction reads the tags from the left.  An opening tag meets its
-- closing tag in the first nesting of what the rest is made of.
theorem unfinished_of_settles {depth : Nat} {tags : List Tag} (h : Settles depth tags) :
    Unfinished depth tags := by
  induction tags generalizing depth with
  | nil =>
    obtain rfl := settles_nil_iff.1 h
    exact .done .nil
  | cons tag tags ih =>
    cases tag with
    | opening o =>
      have hrest := ih (settles_opening_cons_iff.1 h)
      generalize hdepth : depth + 1 = d at hrest
      cases hrest with
      | done n => omega
      | close n c hrest =>
        obtain rfl : depth = _ := Nat.succ.inj hdepth
        exact hrest.block o n c
    | closing c =>
      obtain ⟨d, rfl, hd⟩ := settles_closing_cons_iff.1 h
      exact .close .nil c (ih hd)

end Nesting

namespace Markup

/-- The balanced sequences are the tags of nested blocks. -/
theorem balanced_iff_nesting {tags : List Tag} :
    Balanced tags ↔ ∃ n : Nesting, n.tags = tags := by
  constructor
  · intro h
    have hdone := Nesting.unfinished_of_settles (settles_zero_iff.2 h)
    generalize hdepth : 0 = d at hdone
    cases hdone with
    | done n => exact ⟨n, rfl⟩
    | close n c _ => omega
  · intro h
    obtain ⟨n, rfl⟩ := h
    exact n.balanced_tags

/-! ## Partners -/

/-- Whether the two tags stand among the tags with balanced tags between
them. -/
def Partners (tags : List Tag) (o : OpenTag) (c : CloseTag) : Prop :=
  ∃ front between back,
    tags = front ++ .opening o :: (between ++ .closing c :: back) ∧ Balanced between

namespace Partners

variable {tags : List Tag} {o o' : OpenTag} {c c' : CloseTag}

theorem append (h : Partners tags o c) (before behind : List Tag) :
    Partners (before ++ (tags ++ behind)) o c := by
  obtain ⟨front, between, back, rfl, hbalanced⟩ := h
  exact ⟨before ++ front, between, back ++ behind, by simp, hbalanced⟩

theorem closing_mem (h : Partners tags o c) : .closing c ∈ tags := by
  obtain ⟨front, between, back, rfl, -⟩ := h
  simp

/-- The place of a tag splits the tags in one way only. -/
private theorem split_eq {tag : Tag} {s s' t t' : List Tag} (hnodup : (s ++ tag :: t).Nodup)
    (heq : s ++ tag :: t = s' ++ tag :: t') : s = s' ∧ t = t' := by
  have hfresh : tag ∉ s ++ t := (List.nodup_cons.1 (List.nodup_middle.1 hnodup)).1
  rw [List.mem_append, not_or] at hfresh
  obtain ⟨hs, -, ht⟩ := (List.append_cons_inj_of_notMem hfresh.1 hfresh.2).1 heq
  exact ⟨hs, ht⟩

/-- Where balanced tags begin with balanced tags, the same closing tag
stands behind both. -/
private theorem closing_eq {s t more back back' : List Tag} (hs : Balanced s)
    (ht : Balanced t) (hmore : t = s ++ more)
    (hrest : .closing c :: back = more ++ .closing c' :: back') : c = c' := by
  cases more with
  | nil =>
    rw [List.nil_append, List.cons.injEq, Tag.closing.injEq] at hrest
    exact hrest.1
  | cons tag more =>
    obtain ⟨rfl, -⟩ := List.cons.inj hrest
    have hfront := ht.1 (s ++ [.closing c]) ⟨more, by simp [hmore]⟩
    have hclosed := hs.2
    simp at hfront
    omega

/-- Where balanced tags end with balanced tags, the same opening tag stands
in front of both. -/
private theorem opening_eq {s t more : List Tag} (hs : Balanced s) (ht : Balanced t)
    (hmore : .opening o :: t = more ++ .opening o' :: s) : o = o' := by
  cases more with
  | nil =>
    rw [List.nil_append, List.cons.injEq, Tag.opening.injEq] at hmore
    exact hmore.1
  | cons tag more =>
    obtain ⟨-, rfl⟩ := List.cons.inj hmore
    have hfront := ht.1 more (List.prefix_append ..)
    have hclosed := hs.2
    have htotal := ht.2
    simp at htotal
    omega

theorem closing_unique (hnodup : tags.Nodup) (h : Partners tags o c)
    (h' : Partners tags o c') : c = c' := by
  obtain ⟨front, between, back, rfl, hbalanced⟩ := h
  obtain ⟨front', between', back', heq, hbalanced'⟩ := h'
  obtain ⟨-, htail⟩ := split_eq hnodup heq
  rcases List.append_eq_append_iff.1 htail with ⟨more, hmore, hrest⟩ | ⟨more, hmore, hrest⟩
  · exact closing_eq hbalanced hbalanced' hmore hrest
  · exact (closing_eq hbalanced' hbalanced hmore hrest).symm

theorem opening_unique (hnodup : tags.Nodup) (h : Partners tags o c)
    (h' : Partners tags o' c) : o = o' := by
  obtain ⟨front, between, back, rfl, hbalanced⟩ := h
  obtain ⟨front', between', back', heq, hbalanced'⟩ := h'
  have hsplit : ∀ {front between back : List Tag} {o : OpenTag},
      front ++ .opening o :: (between ++ .closing c :: back) =
        (front ++ .opening o :: between) ++ .closing c :: back := by simp
  rw [hsplit] at hnodup
  rw [hsplit, hsplit] at heq
  obtain ⟨hhead, -⟩ := split_eq hnodup heq
  rcases List.append_eq_append_iff.1 hhead with ⟨more, -, hmore⟩ | ⟨more, -, hmore⟩
  · exact opening_eq hbalanced' hbalanced hmore
  · exact (opening_eq hbalanced hbalanced' hmore).symm

end Partners

end Markup

end TemplateScopes
