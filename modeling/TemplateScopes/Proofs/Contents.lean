import TemplateScopes.Proofs.Forest

/-!
# Contents of scopes

The contents of a block are slices of the text, and its own text is a
slice with masks in it.

There are three groups.

* Slices.  They are joined at an offset (`slice_append_slice`) and taken
  out of one another (`slice_slice`).
* Masks.  `getElem?_foldl_mask` says which character stands at a place of
  a text with masks.
* Scopes.  `Outline.Parts` is what holds of the contents of a scope, and
  `parts_scopeOf` proves it.
-/

namespace TemplateScopes

/-! ## Slices -/

namespace Text

theorem length_slice {t : Text} {a b : Nat} (hb : b ≤ t.length) :
    (t.slice a b).length = b - a := by
  unfold slice
  rw [List.length_take, List.length_drop]
  omega

theorem getElem?_slice {t : Text} {a b i : Nat} (hi : i < b - a) :
    (t.slice a b)[i]? = t[a + i]? := by
  unfold slice
  rw [List.getElem?_take_of_lt hi, List.getElem?_drop]

theorem slice_append_slice {t : Text} {a b c : Nat} (hab : a ≤ b) (hbc : b ≤ c) :
    t.slice a b ++ t.slice b c = t.slice a c := by
  have hsplit : c - a = (b - a) + (c - b) := by omega
  have hdrop : t.drop b = (t.drop a).drop (b - a) := by
    rw [List.drop_drop]
    congr 1
    omega
  unfold slice
  rw [hsplit, List.take_add, hdrop]

theorem slice_slice {t : Text} {a b c d : Nat} (h : a + d ≤ b) :
    (t.slice a b).slice c d = t.slice (a + c) (a + d) := by
  unfold slice
  rw [List.drop_take, List.take_take, List.drop_drop]
  congr 1
  omega

theorem take_append_slice {t : Text} {a b : Nat} (hab : a ≤ b) :
    t.take a ++ t.slice a b = t.take b := by
  have h := slice_append_slice (t := t) (Nat.zero_le a) hab
  simpa [slice] using h

theorem slice_append_drop {t : Text} {a b : Nat} (hab : a ≤ b) :
    t.slice a b ++ t.drop b = t.drop a := by
  have hdrop : t.drop b = (t.drop a).drop (b - a) := by
    rw [List.drop_drop]
    congr 1
    omega
  unfold slice
  rw [hdrop, List.take_append_drop]

/-- What is spelled out at an offset is the slice there. -/
theorem slice_of_spelled {t p : Text} {n : Nat} (hspelled : p <+: t.drop n) :
    t.slice n (n + p.length) = p := by
  unfold slice
  rw [Nat.add_sub_cancel_left]
  exact (List.prefix_iff_eq_take.1 hspelled).symm

end Text

/-! ## Masks -/

namespace Block

/-- Whether the offset belongs to the block. -/
def Covers (b : Block) (i : Nat) : Prop :=
  b.start ≤ i ∧ i < b.stop

instance (b : Block) (i : Nat) : Decidable (b.Covers i) :=
  inferInstanceAs (Decidable (_ ∧ _))

/-- Whether the block lies in a text that stands at the offset `origin`. -/
def Fits (origin length : Nat) (b : Block) : Prop :=
  origin ≤ b.start ∧ b.start ≤ b.stop ∧ b.stop ≤ origin + length

variable {origin : Nat} {t : Text} {child : Block} {children : List Block}

theorem length_mask (hfits : child.Fits origin t.length) :
    (mask origin t child).length = t.length := by
  obtain ⟨hlo, hle, hhi⟩ := hfits
  unfold mask
  rw [List.length_append, List.length_append, List.length_take, List.length_replicate,
    List.length_drop]
  omega

/-- A mask covers its block and nothing else. -/
theorem getElem?_mask (hfits : child.Fits origin t.length) (i : Nat) :
    (mask origin t child)[i]? = if child.Covers (origin + i) then some maskChar else t[i]? := by
  obtain ⟨hlo, hle, hhi⟩ := hfits
  have htake : (t.take (child.start - origin)).length = child.start - origin := by
    rw [List.length_take]
    omega
  unfold mask
  by_cases hbefore : i < child.start - origin
  · have hcovers : ¬ child.Covers (origin + i) := by
      unfold Covers
      omega
    rw [if_neg hcovers, List.append_assoc, List.getElem?_append_left (by omega),
      List.getElem?_take_of_lt hbefore]
  · by_cases hinside : i < child.stop - origin
    · have hcovers : child.Covers (origin + i) := by
        unfold Covers
        omega
      rw [if_pos hcovers, List.append_assoc, List.getElem?_append_right (by omega), htake,
        List.getElem?_append_left (by rw [List.length_replicate]; omega),
        List.getElem?_replicate_of_lt (by omega)]
    · have hcovers : ¬ child.Covers (origin + i) := by
        unfold Covers
        omega
      have hfront : (t.take (child.start - origin) ++
          List.replicate (child.stop - child.start) maskChar).length = child.stop - origin := by
        rw [List.length_append, htake, List.length_replicate]
        omega
      rw [if_neg hcovers, List.getElem?_append_right (by omega), hfront, List.getElem?_drop]
      congr 1
      omega

theorem length_foldl_mask (hfits : ∀ b ∈ children, b.Fits origin t.length) :
    (children.foldl (mask origin) t).length = t.length := by
  induction children generalizing t with
  | nil => rfl
  | cons child children ih =>
    have hlength := length_mask (hfits child List.mem_cons_self)
    have hrest : ∀ b ∈ children, b.Fits origin (mask origin t child).length := by
      intro b hb
      rw [hlength]
      exact hfits b (List.mem_cons_of_mem _ hb)
    rw [List.foldl_cons, ih hrest, hlength]

/-- The masks of several blocks cover these blocks and nothing else. -/
theorem getElem?_foldl_mask (hfits : ∀ b ∈ children, b.Fits origin t.length) (i : Nat) :
    (children.foldl (mask origin) t)[i]? =
      if ∃ b ∈ children, b.Covers (origin + i) then some maskChar else t[i]? := by
  induction children generalizing t with
  | nil => simp
  | cons child children ih =>
    have hchild := hfits child List.mem_cons_self
    have hrest : ∀ b ∈ children, b.Fits origin (mask origin t child).length := by
      intro b hb
      rw [length_mask hchild]
      exact hfits b (List.mem_cons_of_mem _ hb)
    rw [List.foldl_cons, ih hrest, getElem?_mask hchild]
    by_cases hcovered : ∃ b ∈ children, b.Covers (origin + i)
    · rw [if_pos hcovered, if_pos]
      obtain ⟨b, hb, hcovers⟩ := hcovered
      exact ⟨b, List.mem_cons_of_mem _ hb, hcovers⟩
    · rw [if_neg hcovered]
      by_cases hfirst : child.Covers (origin + i)
      · rw [if_pos hfirst, if_pos ⟨child, List.mem_cons_self, hfirst⟩]
      · rw [if_neg hfirst, if_neg]
        intro h
        obtain ⟨b, hb, hcovers⟩ := h
        rcases List.mem_cons.1 hb with rfl | hb
        · exact hfirst hcovers
        · exact hcovered ⟨b, hb, hcovers⟩

end Block

/-! ## Spans inside spans -/

namespace Span

/-- Whether the offset belongs to the span. -/
def Covers (s : Span) (i : Nat) : Prop :=
  s.start ≤ i ∧ i < s.stop

instance (s : Span) (i : Nat) : Decidable (s.Covers i) :=
  inferInstanceAs (Decidable (_ ∧ _))

theorem Encloses.trans {a b c : Span} (hab : a.Encloses b) (hbc : b.Encloses c) :
    a.Encloses c :=
  ⟨Nat.lt_trans hab.1 hbc.1, Nat.lt_trans hbc.2 hab.2⟩

theorem Encloses.covers {a b : Span} {i : Nat} (hab : a.Encloses b) (hi : b.Covers i) :
    a.Covers i := by
  obtain ⟨hlo, hhi⟩ := hab
  unfold Covers at *
  omega

end Span

namespace Markup.PairsUp

variable {t : Text} {spans : List Span} {a b : Span} {i : Nat}

theorem apart_or_inside (h : PairsUp t spans) (ha : a ∈ spans) (hb : b ∈ spans)
    (hlt : a.start < b.start) : a.stop ≤ b.start ∨ b.Inside a := by
  have hforward : spans.Pairwise fun a b =>
      a.start < b.start → a.stop ≤ b.start ∨ b.Inside a := by
    refine h.nested.imp ?_
    intro a b hab _
    exact hab
  have hbackward : spans.Pairwise fun a b =>
      b.start < a.start → b.stop ≤ a.start ∨ a.Inside b := by
    refine h.ascending.imp ?_
    intro a b hab hba
    omega
  exact hforward.forall_of_forall_of_flip
    (fun s _ hself => absurd hself (Nat.lt_irrefl s.start)) hbackward ha hb hlt

theorem inside_iff_encloses (h : PairsUp t spans) (ha : a ∈ spans) (hb : b ∈ spans) :
    b.Inside a ↔ a.Encloses b := by
  have hrooma := h.room a ha
  have hroomb := h.room b hb
  have hlength := Closing.length_pos
  constructor
  · intro hinside
    obtain ⟨hlo, hhi⟩ := hinside
    exact ⟨by omega, by omega⟩
  · intro henc
    rcases h.apart_or_inside ha hb henc.1 with hapart | hinside
    · have := henc.2
      omega
    · exact hinside

/-- Of two spans around one offset, one lies inside the other. -/
theorem eq_or_encloses (h : PairsUp t spans) (ha : a ∈ spans) (hb : b ∈ spans)
    (hai : a.Covers i) (hbi : b.Covers i) : a = b ∨ a.Encloses b ∨ b.Encloses a := by
  unfold Span.Covers at hai hbi
  rcases Nat.lt_trichotomy a.start b.start with hlt | heq | hlt
  · rcases h.apart_or_inside ha hb hlt with hapart | hinside
    · omega
    · exact .inr (.inl ((h.inside_iff_encloses ha hb).1 hinside))
  · exact .inl (eq_of_start_eq h.ascending ha hb heq)
  · rcases h.apart_or_inside hb ha hlt with hapart | hinside
    · omega
    · exact .inr (.inr ((h.inside_iff_encloses hb ha).1 hinside))

/-- The parent of a span is the innermost span around it. -/
theorem encloses_of_parent (h : PairsUp t spans) (ha : a ∈ spans) (hb : b ∈ spans)
    (hparent : b.parent = some a.start) :
    a.Encloses b ∧ ∀ r ∈ spans, r.Encloses b → r = a ∨ r.Encloses a := by
  have hhas := h.parent b hb
  unfold Span.HasParent at hhas
  rw [hparent] at hhas
  obtain ⟨q, hq, hstart, henc, hleast⟩ := hhas
  rw [eq_of_start_eq h.ascending hq ha hstart] at henc hleast
  exact ⟨henc, hleast⟩

/-- A span without a parent lies in no other one. -/
theorem not_encloses_of_parent_eq_none (h : PairsUp t spans) (ha : a ∈ spans) (hb : b ∈ spans)
    (hparent : b.parent = none) : ¬ a.Encloses b := by
  have hhas := h.parent b hb
  unfold Span.HasParent at hhas
  rw [hparent] at hhas
  exact hhas a ha

end Markup.PairsUp

/-! ## Scopes -/

theorem maskChar_not_mem_normalize (t : Text) : Block.maskChar ∉ normalize t := by
  unfold normalize
  intro hmem
  have hkept := (List.mem_filter.1 hmem).2
  revert hkept
  decide

namespace Forest

variable {code : Text} {ctx : Context} {spans : List Span} {s : Span}

@[simp] theorem innerStart_scopeOf :
    (scopeOf code ctx spans s).innerStart = s.opener.stop := rfl

@[simp] theorem innerStop_scopeOf :
    (scopeOf code ctx spans s).innerStop = s.stop - Closing.length := rfl

theorem outer_scopeOf : (scopeOf code ctx spans s).outer = code.slice s.start s.stop := rfl

theorem inner_scopeOf :
    (scopeOf code ctx spans s).inner = code.slice s.opener.stop (s.stop - Closing.length) := rfl

/-- The block of a span is its opening tag, its contents and a closing
tag. -/
theorem outer_eq (h : Markup.PairsUp code spans) (hs : s ∈ spans) :
    ∃ c : Closing, (scopeOf code ctx spans s).outer =
      s.opener.raw ++ (scopeOf code ctx spans s).inner ++ c.spelling := by
  obtain ⟨hroom, hclosing, hlength⟩ := h.room s hs
  have hopener : s.opener ∈ Markup.openTags code := by
    rw [← h.openers]
    exact List.mem_map_of_mem hs
  obtain ⟨tag, htag, hstop, -⟩ := h.partner s hs
  obtain ⟨c, hspelled, -⟩ := Markup.mem_closeTags.1 htag
  rw [Markup.closing_stop_eq htag] at hstop
  have hfront : code.slice s.start s.opener.stop = s.opener.raw :=
    Text.slice_of_spelled (Markup.opening_standsIn hopener).spelled
  have hback : code.slice (s.stop - Closing.length) s.stop = c.spelling := by
    have hoffset : s.stop - Closing.length = tag.offset := by omega
    rw [hoffset, hstop, ← c.length_spelling]
    exact Text.slice_of_spelled hspelled
  refine ⟨c, ?_⟩
  rw [outer_scopeOf, inner_scopeOf, ← hfront, ← hback,
    Text.slice_append_slice (by omega) (by omega), Text.slice_append_slice (by omega) (by omega)]

/-- The children of a scope lie in its contents. -/
theorem fits_of_mem_kidBlocks (h : Markup.PairsUp code spans) (hs : s ∈ spans) {kid : Block}
    (hkid : kid ∈ (forestOf code ctx spans).kidBlocks (scopeOf code ctx spans s)) :
    kid.Fits s.opener.stop (scopeOf code ctx spans s).inner.length := by
  unfold kidBlocks at hkid
  rw [kids_forestOf h.ascending, List.map_map] at hkid
  obtain ⟨c, hc, rfl⟩ := List.mem_map.1 hkid
  obtain ⟨hc, -, hparent⟩ := mem_childrenOf.1 hc
  have hroom := h.room s hs
  have hroomc := h.room c hc
  have henc := (h.encloses_of_parent hs hc hparent).1
  obtain ⟨hlo, hhi⟩ := (h.inside_iff_encloses hs hc).2 henc
  rw [inner_scopeOf, Text.length_slice (by omega)]
  show s.opener.stop ≤ c.start ∧ c.start ≤ c.stop ∧ c.stop ≤ _
  omega

theorem own_scopeOf :
    (forestOf code ctx spans).own (scopeOf code ctx spans s) =
      ((forestOf code ctx spans).kidBlocks (scopeOf code ctx spans s)).foldl
        (Block.mask s.opener.stop) (scopeOf code ctx spans s).inner := by
  have hkind : (scopeOf code ctx spans s).kind ≠ .root := by
    show Kind.ofKeyword s.opener.keyword ≠ .root
    cases s.opener.keyword <;> decide
  unfold own Block.own
  rw [if_neg hkind]
  rfl

theorem length_own (h : Markup.PairsUp code spans) (hs : s ∈ spans) :
    ((forestOf code ctx spans).own (scopeOf code ctx spans s)).length =
      (scopeOf code ctx spans s).inner.length := by
  rw [own_scopeOf]
  exact Block.length_foldl_mask fun kid hkid => fits_of_mem_kidBlocks h hs hkid

/-- In the own text of a scope its children are masked, and the rest is as
it was. -/
theorem getElem?_own (h : Markup.PairsUp code spans) (hs : s ∈ spans) (i : Nat) :
    ((forestOf code ctx spans).own (scopeOf code ctx spans s))[i]? =
      if ∃ kid ∈ (forestOf code ctx spans).kids (scopeOf code ctx spans s),
          kid.Covers (s.opener.stop + i) then some Block.maskChar
      else (scopeOf code ctx spans s).inner[i]? := by
  rw [own_scopeOf, Block.getElem?_foldl_mask fun kid hkid => fits_of_mem_kidBlocks h hs hkid]
  simp only [kidBlocks, List.mem_map, exists_exists_and_eq_and]

end Forest

end TemplateScopes
