import TemplateScopes.Proofs.Contents

/-!
# Cutting out and putting back

Pieces go back into a text that is still growing, at the offsets that they
had in the whole.  They fit if they come in the order of these offsets.

There are three groups.

* Blocks in a row.  `InRow` says that blocks stand one behind the other,
  and sorted blocks that are `Separate` do so.
* The cut.  `foldl_insertPiece` puts the pieces of such a row back, and
  `fst_cutFrom` says what is left without them.
* The outline.  The top-level blocks of an outline are `Separate`.
-/

namespace TemplateScopes

namespace Excision

/-! ## Blocks in a row -/

/-- Whether the blocks are nonempty parts of the text and no two of them
overlap. -/
structure Separate (code : Text) (blocks : List Block) : Prop where
  source : ∀ b ∈ blocks, b.source = code
  nonempty : ∀ b ∈ blocks, b.start < b.stop
  inside : ∀ b ∈ blocks, b.stop ≤ code.length
  apart : blocks.Pairwise fun a b => a.stop ≤ b.start ∨ b.stop ≤ a.start

/-- Whether the blocks are parts of the text that stand one behind the
other from an offset on. -/
def InRow (code : Text) : Nat → List Block → Prop
  | position, [] => position ≤ code.length
  | position, b :: rest =>
    b.source = code ∧ position ≤ b.start ∧ b.start < b.stop ∧ InRow code b.stop rest

/-- The order in which blocks are cut out. -/
def sorted (blocks : List Block) : List Block :=
  blocks.mergeSort fun a b => decide (a.start ≤ b.start)

theorem mem_sorted {blocks : List Block} {b : Block} : b ∈ sorted blocks ↔ b ∈ blocks :=
  (List.mergeSort_perm blocks _).mem_iff

section Row

variable {code : Text} {position : Nat} {blocks : List Block} {b : Block}

theorem InRow.le_length (h : InRow code position blocks) : position ≤ code.length := by
  induction blocks generalizing position with
  | nil => exact h
  | cons b rest ih =>
    obtain ⟨-, hle, hlt, hrest⟩ := h
    have := ih hrest
    omega

theorem InRow.le_start (h : InRow code position blocks) (hb : b ∈ blocks) :
    position ≤ b.start := by
  induction blocks generalizing position with
  | nil => simp at hb
  | cons first rest ih =>
    obtain ⟨-, hle, hlt, hrest⟩ := h
    rcases List.mem_cons.1 hb with rfl | hb
    · exact hle
    · have := ih hrest hb
      omega

theorem InRow.pairwise (h : InRow code position blocks) :
    blocks.Pairwise fun a b => a.start < b.start := by
  induction blocks generalizing position with
  | nil => exact List.Pairwise.nil
  | cons first rest ih =>
    obtain ⟨-, -, hlt, hrest⟩ := h
    refine List.pairwise_cons.2 ⟨?_, ih hrest⟩
    intro b hb
    have := hrest.le_start hb
    omega

private theorem inRow_aux (hsource : ∀ b ∈ blocks, b.source = code)
    (hnonempty : ∀ b ∈ blocks, b.start < b.stop) (hinside : ∀ b ∈ blocks, b.stop ≤ code.length)
    (hrow : blocks.Pairwise fun a b => a.stop ≤ b.start) (hlength : position ≤ code.length)
    (hposition : ∀ b ∈ blocks, position ≤ b.start) : InRow code position blocks := by
  induction blocks generalizing position with
  | nil => exact hlength
  | cons b rest ih =>
    obtain ⟨hbehind, hrest⟩ := List.pairwise_cons.1 hrow
    refine ⟨hsource b List.mem_cons_self, hposition b List.mem_cons_self,
      hnonempty b List.mem_cons_self, ?_⟩
    apply ih
    · exact fun c hc => hsource c (List.mem_cons_of_mem _ hc)
    · exact fun c hc => hnonempty c (List.mem_cons_of_mem _ hc)
    · exact fun c hc => hinside c (List.mem_cons_of_mem _ hc)
    · exact hrest
    · exact hinside b List.mem_cons_self
    · exact hbehind

theorem inRow_sorted (h : Separate code blocks) : InRow code 0 (sorted blocks) := by
  have hperm : (sorted blocks).Perm blocks := List.mergeSort_perm _ _
  have horder : (sorted blocks).Pairwise fun a b => decide (a.start ≤ b.start) = true :=
    List.pairwise_mergeSort (by simp; omega) (by simp; omega) _
  have hapart : (sorted blocks).Pairwise fun a b => a.stop ≤ b.start ∨ b.stop ≤ a.start :=
    hperm.symm.pairwise h.apart fun hab => hab.symm
  have hrow : (sorted blocks).Pairwise fun a b => a.stop ≤ b.start := by
    refine (horder.and hapart).imp_of_mem ?_
    intro a b ha hb hab
    have hle := of_decide_eq_true hab.1
    have hltb := h.nonempty b (mem_sorted.1 hb)
    rcases hab.2 with hab | hba
    · exact hab
    · omega
  apply inRow_aux
  · exact fun b hb => h.source b (mem_sorted.1 hb)
  · exact fun b hb => h.nonempty b (mem_sorted.1 hb)
  · exact fun b hb => h.inside b (mem_sorted.1 hb)
  · exact hrow
  · exact Nat.zero_le _
  · exact fun b _ => Nat.zero_le _

end Row

/-! ## The cut -/

/-- The characters of a text at an offset that belong to no block. -/
def outside (blocks : List Block) (offset : Nat) (t : Text) : Text :=
  ((t.zipIdx offset).filter fun entry => decide (∀ b ∈ blocks, ¬ b.Covers entry.2)).map Prod.fst

section Outside

variable {blocks rest : List Block} {offset : Nat} {s t : Text}

theorem outside_append :
    outside blocks offset (s ++ t) =
      outside blocks offset s ++ outside blocks (offset + s.length) t := by
  unfold outside
  rw [List.zipIdx_append, List.filter_append, List.map_append]

/-- Only the blocks that reach into the text matter. -/
theorem outside_congr
    (h : ∀ i, offset ≤ i → i < offset + t.length →
      ((∀ b ∈ blocks, ¬ b.Covers i) ↔ ∀ b ∈ rest, ¬ b.Covers i)) :
    outside blocks offset t = outside rest offset t := by
  unfold outside
  congr 1
  apply List.filter_congr
  intro entry hentry
  obtain ⟨hlo, hhi, -⟩ := List.mem_zipIdx hentry
  simp only [h entry.2 hlo hhi]

theorem outside_eq_self (h : ∀ i, offset ≤ i → i < offset + t.length → ∀ b ∈ blocks, ¬ b.Covers i) :
    outside blocks offset t = t := by
  calc outside blocks offset t
      = outside [] offset t := by
        apply outside_congr
        intro i hlo hhi
        simpa using h i hlo hhi
    _ = t := by simp [outside]

theorem outside_eq_nil (h : ∀ i, offset ≤ i → i < offset + t.length → ∃ b ∈ blocks, b.Covers i) :
    outside blocks offset t = [] := by
  unfold outside
  rw [List.map_eq_nil_iff, List.filter_eq_nil_iff]
  intro entry hentry hfree
  obtain ⟨hlo, hhi, -⟩ := List.mem_zipIdx hentry
  obtain ⟨b, hb, hcovers⟩ := h entry.2 hlo hhi
  exact of_decide_eq_true hfree b hb hcovers

end Outside

section Cut

variable {code : Text} {position : Nat} {blocks : List Block}

theorem snd_cutFrom :
    (cutFrom code position blocks).2 = blocks.map fun b => (b.start, b.outer) := by
  induction blocks generalizing position with
  | nil => rfl
  | cons b rest ih =>
    rw [List.map_cons, ← ih]
    rfl

/-- The pieces of blocks in a row are in order already. -/
theorem mergeSort_pieces (h : InRow code position blocks) :
    (cutFrom code position blocks).2.mergeSort precedes = (cutFrom code position blocks).2 := by
  apply List.mergeSort_of_pairwise
  rw [snd_cutFrom, List.pairwise_map]
  refine h.pairwise.imp ?_
  intro a b hlt
  simp [precedes, hlt]

-- The text in front of `position` is complete when the pieces behind it
-- go in, and each piece makes it complete up to its own end.
/-- The pieces of blocks in a row complete the text. -/
theorem foldl_insertPiece (h : InRow code position blocks) :
    (cutFrom code position blocks).2.foldl insertPiece
      (code.take position ++ (cutFrom code position blocks).1) = code := by
  induction blocks generalizing position with
  | nil => exact List.take_append_drop position code
  | cons b rest ih =>
    obtain ⟨hsource, hle, hlt, hrest⟩ := h
    have hstop := hrest.le_length
    have hfront : code.take position ++
        (code.slice position b.start ++ (cutFrom code b.stop rest).1) =
          code.take b.start ++ (cutFrom code b.stop rest).1 := by
      rw [← List.append_assoc, Text.take_append_slice hle]
    have hlength : (code.take b.start).length = b.start := by
      rw [List.length_take]
      omega
    have hinsert : insertPiece (code.take b.start ++ (cutFrom code b.stop rest).1)
        (b.start, b.outer) = code.take b.stop ++ (cutFrom code b.stop rest).1 := by
      unfold insertPiece Block.outer
      rw [List.take_left' hlength, List.drop_left' hlength, hsource,
        Text.take_append_slice (Nat.le_of_lt hlt)]
    show (cutFrom code b.stop rest).2.foldl insertPiece (insertPiece (code.take position ++
      (code.slice position b.start ++ (cutFrom code b.stop rest).1)) (b.start, b.outer)) = code
    rw [hfront, hinsert, ih hrest]

/-- What the cut leaves belongs to none of the blocks. -/
theorem fst_cutFrom (h : InRow code position blocks) :
    (cutFrom code position blocks).1 = outside blocks position (code.drop position) := by
  induction blocks generalizing position with
  | nil =>
    show code.drop position = _
    simp [outside]
  | cons b rest ih =>
    obtain ⟨-, hle, hlt, hrest⟩ := h
    have hstop := hrest.le_length
    have hsplit : code.drop position =
        code.slice position b.start ++ (code.slice b.start b.stop ++ code.drop b.stop) := by
      rw [← List.append_assoc, Text.slice_append_slice hle (Nat.le_of_lt hlt),
        Text.slice_append_drop (by omega)]
    have hbefore : outside (b :: rest) position (code.slice position b.start) =
        code.slice position b.start := by
      apply outside_eq_self
      intro i hlo hhi c hc hcovers
      rw [Text.length_slice (by omega)] at hhi
      have hci := hcovers.1
      rcases List.mem_cons.1 hc with rfl | hc
      · omega
      · have := hrest.le_start hc
        omega
    have hinside : outside (b :: rest) b.start (code.slice b.start b.stop) = [] := by
      apply outside_eq_nil
      intro i hlo hhi
      rw [Text.length_slice (by omega)] at hhi
      exact ⟨b, List.mem_cons_self, hlo, by omega⟩
    have hbehind : outside (b :: rest) b.stop (code.drop b.stop) =
        outside rest b.stop (code.drop b.stop) := by
      apply outside_congr
      intro i hlo hhi
      have hfirst : ¬ b.Covers i := by
        unfold Block.Covers
        omega
      simp [hfirst]
    show code.slice position b.start ++ (cutFrom code b.stop rest).1 = _
    rw [ih hrest, hsplit, outside_append, outside_append, hbefore,
      Text.length_slice (by omega), Text.length_slice (by omega),
      Nat.add_sub_cancel' hle, Nat.add_sub_cancel' (Nat.le_of_lt hlt), hinside, hbehind,
      List.nil_append]

end Cut

theorem reinsert_cut {code : Text} {blocks : List Block} (h : Separate code blocks) :
    reinsert (cut code blocks).1 (cut code blocks).2 = code := by
  have hrow := inRow_sorted h
  unfold reinsert
  show ((cutFrom code 0 (sorted blocks)).2.mergeSort precedes).foldl insertPiece
    (cutFrom code 0 (sorted blocks)).1 = code
  rw [mergeSort_pieces hrow]
  exact foldl_insertPiece hrow

theorem fst_cut {code : Text} {blocks : List Block} (h : Separate code blocks) :
    (cut code blocks).1 = outside blocks 0 code := by
  show (cutFrom code 0 (sorted blocks)).1 = _
  rw [fst_cutFrom (inRow_sorted h), List.drop_zero]
  apply outside_congr
  intro i _ _
  simp only [mem_sorted]

end Excision

/-! ## The outline -/

namespace Outline

variable {code : Text} {ctx : Context} {spans : List Span}

theorem mem_topLevel_outlineOf {scope : Scope} :
    scope ∈ (outlineOf code ctx spans).topLevel ↔
      ∃ s ∈ spans, Forest.addressable ctx s = true ∧ s.parent = none ∧
        Forest.scopeOf code ctx spans s = scope := by
  show scope ∈ (Forest.forestOf code ctx spans).scopes.filter _ ↔ _
  rw [List.mem_filter, Forest.mem_forestOf]
  constructor
  · intro h
    obtain ⟨⟨s, hs, haddressable, rfl⟩, hparent⟩ := h
    exact ⟨s, hs, haddressable, by simpa using hparent, rfl⟩
  · intro h
    obtain ⟨s, hs, haddressable, hparent, rfl⟩ := h
    exact ⟨⟨s, hs, haddressable, rfl⟩, by simp [hparent]⟩

/-- The top-level blocks of an outline can be cut out. -/
theorem separate_topLevel (h : Markup.PairsUp code spans) :
    Excision.Separate code ((outlineOf code ctx spans).topLevel.map Scope.toBlock) := by
  have hblock : ∀ b ∈ (outlineOf code ctx spans).topLevel.map Scope.toBlock,
      ∃ s ∈ spans, Forest.blockOf code s = b := by
    intro b hb
    obtain ⟨scope, hscope, rfl⟩ := List.mem_map.1 hb
    obtain ⟨s, hs, -, -, rfl⟩ := mem_topLevel_outlineOf.1 hscope
    exact ⟨s, hs, rfl⟩
  refine ⟨?_, ?_, ?_, ?_⟩
  · intro b hb
    obtain ⟨s, -, rfl⟩ := hblock b hb
    rfl
  · intro b hb
    obtain ⟨s, hs, rfl⟩ := hblock b hb
    have hroom := h.room s hs
    show s.start < s.stop
    omega
  · intro b hb
    obtain ⟨s, hs, rfl⟩ := hblock b hb
    exact (h.room s hs).2.2
  · show (((spans.filter (Forest.addressable ctx)).map
      (Forest.scopeOf code ctx spans)).filter _ |>.map Scope.toBlock).Pairwise _
    rw [List.pairwise_map, List.pairwise_filter, List.pairwise_map, List.pairwise_filter]
    refine h.nested.imp_of_mem ?_
    intro a b ha hb hab _ _ _ htop
    rcases hab with hapart | hinside
    · exact .inl hapart
    · have henc := (h.inside_iff_encloses ha hb).1 hinside
      exact absurd henc (h.not_encloses_of_parent_eq_none ha hb (by simpa using htop))

/-- The root keeps what belongs to no top-level block. -/
theorem residual_outlineOf (h : Markup.PairsUp code spans) :
    (outlineOf code ctx spans).residual =
      Excision.outside ((outlineOf code ctx spans).topLevel.map Scope.toBlock) 0 code :=
  Excision.fst_cut (separate_topLevel h)

/-- All text of the root belongs to it alone. -/
theorem own_rootOver (f : Forest) (residual : Text) (children : List Nat) :
    f.own (rootOver residual children) = residual := by
  have hkind : (rootOver residual children).kind = .root := rfl
  unfold Forest.own Block.own
  rw [if_pos hkind]
  show residual.slice (0 + 0) (residual.length - 0) = residual
  simp [Text.slice]

theorem reassemble_outlineOf (h : Markup.PairsUp code spans) :
    (outlineOf code ctx spans).reassemble = code := by
  unfold reassemble root
  rw [own_rootOver]
  exact Excision.reinsert_cut (separate_topLevel h)

/-- Putting back what was cut out of a text gives the text again, whatever
the order of the blocks.  So an outline always gives back the normalised
text of its template. -/
theorem reassemble_restores :
    (∀ (code : Text) (blocks : List Block), Excision.Separate code blocks →
      Excision.reinsert (Excision.cut code blocks).1 (Excision.cut code blocks).2 = code) ∧
    ∀ (t : Text) (ctx : Context) (o : Outline), ofText t ctx = .ok o →
      o.reassemble = normalize t := by
  constructor
  · intro code blocks hseparate
    exact Excision.reinsert_cut hseparate
  · intro t ctx o h
    obtain ⟨spans, hgrounded, rfl⟩ := grounded_of_ofText h
    exact reassemble_outlineOf hgrounded.toPairsUp

/-- The blocks of the first text come in the wrong order.  A block of the
second one is left out and stays in the residual. -/
theorem reassemble_restores_left_out :
    Excision.Separate "abc" [⟨"abc", 2, 3, .loop, [], [], 0⟩, ⟨"abc", 0, 1, .loop, [], [], 0⟩] ∧
    Excision.reinsert
        (Excision.cut "abc"
          [⟨"abc", 2, 3, .loop, [], [], 0⟩, ⟨"abc", 0, 1, .loop, [], [], 0⟩]).1
        (Excision.cut "abc"
          [⟨"abc", 2, 3, .loop, [], [], 0⟩, ⟨"abc", 0, 1, .loop, [], [], 0⟩]).2 = "abc" ∧
    ∃ o, ofText "<% with $Top %>b<% end_with %>\n<% loop $A %>c<% end_loop %>d" Context.base =
        .ok o ∧
      o.reassemble = normalize "<% with $Top %>b<% end_with %>\n<% loop $A %>c<% end_loop %>d" := by
  have hseparate : Excision.Separate "abc"
      [⟨"abc", 2, 3, .loop, [], [], 0⟩, ⟨"abc", 0, 1, .loop, [], [], 0⟩] :=
    ⟨by simp, by simp, by simp, by simp⟩
  have hspans : Markup.spansOf
      (normalize "<% with $Top %>b<% end_with %>\n<% loop $A %>c<% end_loop %>d") =
        .ok [⟨⟨.within, 0, "<% with $Top %>", "$Top"⟩, none, 30⟩,
          ⟨⟨.loop, 30, "<% loop $A %>", "$A"⟩, none, 58⟩] := by
    refine Markup.spansOf_of_nesting
      (n := .block ⟨.within, 0, "<% with $Top %>", "$Top"⟩ .nil ⟨.within, 16, "<% end_with %>"⟩
        (.block ⟨.loop, 30, "<% loop $A %>", "$A"⟩ .nil ⟨.loop, 44, "<% end_loop %>"⟩ .nil))
      ?_ ?_
    · exact (Markup.tags_eq_of_perm (by decide +kernel) (by decide +kernel)).symm
    · simp only [Nesting.Within]
      decide
  have houtline := ofText_of_spansOf Context.base hspans (Forest.kept_iff.2 (by decide))
  exact ⟨hseparate, reassemble_restores.1 _ _ hseparate, _, houtline,
    reassemble_restores.2 _ _ _ houtline⟩

end Outline

end TemplateScopes
