import TemplateScopes.Proofs.Flags
import TemplateScopes.Proofs.Gaps
import TemplateScopes.Proofs.Joining

/-!
# The seams of a cut

The root reads what is left of a text when the top-level blocks are cut
out.  Where a block stood, the texts around it come together in a seam, and
a variable or a condition may stand across the seam that the template does
not hold.  Nothing else tells a cut from a mask.

There are four groups.

* Seams.  `Outline.seams` are the places of the cuts in the residual, and
  `Outline.Seamless` says that no match reaches over one.
* Reading a cut text.  It is read as its gaps are (`read_cutFrom`), and
  what does not reach over a seam stands in the text as a whole
  (`infix_of_cutFrom`).
* Names.  A name is reported because a variable begins with it
  (`exists_path_of_mem_keys`).
* The root.  `root_reads_as_masked` compares the cut with a mask, and
  `root_joins_halves` shows what a seam can do.
-/

namespace TemplateScopes

/-! ## Seams -/

/-- Where pieces were cut out of a text, as offsets in what is left of it.
The length `removed` is gone already. -/
def Excision.seamsFrom (removed : Nat) : List Piece → List Nat
  | [] => []
  | piece :: rest => (piece.1 - removed) :: seamsFrom (removed + piece.2.length) rest

namespace Outline

/-- The offsets in the residual where a block was cut out. -/
def seams (o : Outline) : List Nat :=
  Excision.seamsFrom 0 o.pieces

/-- Whether no match in the residual reaches over a seam. -/
def Seamless {α : Type} (o : Outline) (here? : Text.Recogniser α) : Prop :=
  ∀ m ∈ Text.findAll (Text.located here?) o.residual, ∀ seam ∈ o.seams, ¬ Text.Straddles m seam

/-- The normalised text with the top-level blocks masked in it, as the
children of a block are. -/
def masked (o : Outline) : Text :=
  (o.topLevel.map Scope.toBlock).foldl (Block.mask 0) o.code

/-- The names that the masked text uses as conditions. -/
def maskedConditions (o : Outline) : List Text :=
  Usage.conditionNames o.context o.hasName o.masked

/-- The variables of the masked text with their types. -/
def maskedTypes (o : Outline) : OrderedMap Text :=
  o.root.toBlock.variableTypes o.context (o.forest.kidBlocks o.root) o.maskedConditions o.masked

end Outline

/-! ## Reading a cut text -/

namespace Excision

variable {α : Type} {here? : Text.Recogniser α} {code : Text} {position removed : Nat}
  {blocks : List Block}

/-- A piece is as long as its block. -/
theorem length_outer {b : Block} (hsource : b.source = code) (hstop : b.stop ≤ code.length) :
    b.outer.length = b.stop - b.start := by
  unfold Block.outer
  rw [hsource, Text.length_slice hstop]

-- The search is at offsets of the residual: `position` of the text is
-- `position - removed` there, and so the first seam is at the end of the
-- first gap.
theorem findFrom_cutFrom (h : Text.Local here?) (hrow : InRow code position blocks)
    (hremoved : removed ≤ position)
    (hfree : ∀ m ∈ Text.findFrom (Text.located here?) (position - removed) 0
        (cutFrom code position blocks).1,
      ∀ seam ∈ seamsFrom removed (cutFrom code position blocks).2, ¬ Text.Straddles m seam) :
    (Text.findFrom (Text.located here?) (position - removed) 0
        (cutFrom code position blocks).1).map (fun m => m.2.1) =
      (Text.gaps position code.length (blocks.map Block.range)).flatMap fun gap =>
        (Text.findAll here? (code.slice gap.1 gap.2)).map Prod.snd := by
  have hread : ∀ (offset : Nat) (t : Text),
      (Text.findFrom (Text.located here?) offset 0 t).map (fun m => m.2.1) =
        (Text.findAll here? t).map Prod.snd := fun offset t =>
    (Text.map_findFrom_located offset 0 t).trans (Text.map_snd_findFrom offset 0 0 t)
  induction blocks generalizing position removed with
  | nil =>
    have hall : code.slice position code.length = code.drop position :=
      List.take_of_length_le (by rw [List.length_drop])
    simp only [cutFrom, Text.gaps, List.map_nil, List.flatMap_cons, List.flatMap_nil,
      List.append_nil, hall, hread]
  | cons b rest ih =>
    obtain ⟨hsource, hle, hlt, hrest⟩ := hrow
    have hstop := hrest.le_length
    have hpiece := length_outer hsource hstop
    have hseam : position - removed + (code.slice position b.start).length =
        b.start - removed := by
      rw [Text.length_slice (by omega)]
      omega
    have hnext : b.stop - (removed + b.outer.length) = b.start - removed := by omega
    simp only [cutFrom, seamsFrom, List.forall_mem_cons] at hfree
    have hsplit := Text.findFrom_append h (Nat.zero_le _) (fun m hm => by
      rw [hseam]
      exact (hfree m hm).1)
    rw [hseam, ← hnext] at hsplit
    have hremoved' : removed + b.outer.length ≤ b.stop := by omega
    have htail := ih hrest hremoved' (by
      intro m hm
      exact (hfree m (hsplit ▸ List.mem_append_right _ hm)).2)
    simp only [cutFrom]
    rw [hsplit, List.map_append, htail, hread]
    rfl

/-- What is left of a text is read as its gaps are, if no match reaches over
a seam. -/
theorem read_cutFrom (h : Text.Local here?) (hrow : InRow code 0 blocks)
    (hfree : ∀ m ∈ Text.findAll (Text.located here?) (cutFrom code 0 blocks).1,
      ∀ seam ∈ seamsFrom 0 (cutFrom code 0 blocks).2, ¬ Text.Straddles m seam) :
    (Text.findAll here? (cutFrom code 0 blocks).1).map Prod.snd =
      (Text.gaps 0 code.length (blocks.map Block.range)).flatMap fun gap =>
        (Text.findAll here? (code.slice gap.1 gap.2)).map Prod.snd :=
  (Text.map_findFrom_located 0 0 _).symm.trans
    (findFrom_cutFrom h hrow (Nat.le_refl 0) hfree)

/-- What is left of a text holds nothing new, except across the seams. -/
theorem infix_of_cutFrom (hrow : InRow code position blocks) (hremoved : removed ≤ position)
    {u v w : Text} (heq : (cutFrom code position blocks).1 = u ++ (v ++ w))
    (hfree : ∀ seam ∈ seamsFrom removed (cutFrom code position blocks).2,
      ¬ (position - removed + u.length < seam ∧
        seam < position - removed + u.length + v.length)) :
    v <:+: code.drop position := by
  induction blocks generalizing position removed u with
  | nil => exact ⟨u, w, by rw [List.append_assoc]; exact heq.symm⟩
  | cons b rest ih =>
    obtain ⟨hsource, hle, hlt, hrest⟩ := hrow
    have hstop := hrest.le_length
    have hpiece := length_outer hsource hstop
    have hgap : (code.slice position b.start).length = b.start - position :=
      Text.length_slice (by omega)
    have hfront : code.slice position b.start <:+: code.drop position :=
      (List.take_prefix _ _).isInfix
    have hbehind : code.drop b.stop <:+: code.drop position := by
      have hdrop : code.drop b.stop = (code.drop position).drop (b.stop - position) := by
        rw [List.drop_drop]
        congr 1
        omega
      rw [hdrop]
      exact (List.drop_suffix _ _).isInfix
    have hremoved' : removed + b.outer.length ≤ b.stop := by omega
    simp only [cutFrom, seamsFrom, List.forall_mem_cons] at hfree
    obtain ⟨hseam, hfree⟩ := hfree
    simp only [cutFrom] at heq
    -- Where `v` begins behind the seam, it stands in the rest.
    have hlater : ∀ u', u = code.slice position b.start ++ u' →
        (cutFrom code b.stop rest).1 = u' ++ (v ++ w) → v <:+: code.drop position := by
      intro u' hu hr
      have hlength := congrArg List.length hu
      rw [List.length_append, hgap] at hlength
      refine (ih hrest hremoved' hr ?_).trans hbehind
      intro seam hmem hinside
      refine hfree seam hmem ?_
      omega
    rcases List.append_eq_append_iff.1 heq with ⟨u', hu, hr⟩ | ⟨s', hs, hvw⟩
    · exact hlater u' hu hr
    · rcases List.append_eq_append_iff.1 hvw with ⟨v', hs', -⟩ | ⟨v', hv, hr⟩
      · refine List.IsInfix.trans ⟨u, v', ?_⟩ hfront
        rw [hs, hs', List.append_assoc]
      · have hlength := congrArg List.length hs
        rw [List.length_append, hgap] at hlength
        have hlengthv := congrArg List.length hv
        rw [List.length_append] at hlengthv
        rcases Nat.eq_zero_or_pos s'.length with hzero | hpos
        · rw [List.length_eq_zero_iff] at hzero
          subst hzero
          exact hlater [] (by rw [hs]; simp) (by rw [hr, hv]; simp)
        · have hnil : v' = [] := by
            rw [← List.length_eq_zero_iff]
            omega
          subst hnil
          refine List.IsInfix.trans ⟨u, [], ?_⟩ hfront
          rw [hs, hv]
          simp

end Excision

/-! ## Names -/

namespace Usage

variable {ctx : Context} {kind : Kind} {hasChild : Text → Bool} {found : Found} {P : Text → Prop}

/-- Whether all names that were typed or counted have a property. -/
structure Found.AllNames (P : Text → Prop) (found : Found) : Prop where
  typed : ∀ name ∈ OrderedMap.keys found.types, P name
  counted : ∀ name, found.uses.get? name ≠ Option.none → P name

theorem Found.AllNames.note (h : found.AllNames P) {path : List Text}
    (hpath : ∀ name, path.head? = some name → P name) :
    (Usage.note ctx kind hasChild found path).AllNames P := by
  have hinsert : ∀ label type, P label →
      ∀ name ∈ OrderedMap.keys (found.types.insert label type), P name := by
    intro label type hlabel name hname
    rcases OrderedMap.mem_keys_insert.1 hname with rfl | hname
    · exact hlabel
    · exact h.typed name hname
  match path with
  | [] => exact h
  | [label] =>
    constructor
    · intro name hname
      rw [types_note_plain] at hname
      split at hname
      · exact h.typed name hname
      · exact hinsert label _ (hpath label rfl) name hname
    · intro name hname
      rw [get?_uses_note] at hname
      split at hname
      · rename_i heq
        exact hpath name (congrArg List.head? heq)
      · exact h.counted name hname
  | relation :: member :: rest =>
    constructor
    · intro name hname
      rw [types_note_dotted] at hname
      split at hname
      · exact h.typed name hname
      · exact hinsert relation _ (hpath relation rfl) name hname
    · intro name hname
      rw [uses_note_dotted] at hname
      exact h.counted name hname

theorem Found.AllNames.flag (h : found.AllNames P) (condition : Text) :
    (Usage.flag ctx found condition).AllNames P := by
  constructor
  · intro name hname
    unfold Usage.flag at hname
    split at hname
    · exact h.typed name hname
    · rename_i n hn
      split at hname
      · rcases OrderedMap.mem_keys_insert.1 hname with rfl | hname
        · exact h.counted name (by rw [hn]; exact Option.some_ne_none n)
        · exact h.typed name hname
      · exact h.typed name hname
  · intro name hname
    exact h.counted name fun hnone => hname (get?_uses_flag_eq_none_iff.2 hnone)

theorem Found.AllNames.foldl_note {paths : List (List Text)}
    (hpaths : ∀ path ∈ paths, ∀ name, path.head? = some name → P name) (h : found.AllNames P) :
    (paths.foldl (Usage.note ctx kind hasChild) found).AllNames P := by
  induction paths generalizing found with
  | nil => exact h
  | cons path paths ih =>
    obtain ⟨hpath, hpaths⟩ := List.forall_mem_cons.1 hpaths
    exact ih hpaths (h.note hpath)

theorem Found.AllNames.foldl_flag (h : found.AllNames P) (conditions : List Text) :
    (conditions.foldl (Usage.flag ctx) found).AllNames P := by
  induction conditions generalizing found with
  | nil => exact h
  | cons condition conditions ih => exact ih (h.flag condition)

/-- A name is reported only if a variable begins with it. -/
theorem exists_path_of_mem_keys {conditions : List Text} {text name : Text}
    (h : name ∈ OrderedMap.keys (variableTypes ctx kind hasChild conditions text)) :
    ∃ path ∈ Variable.paths text, path.head? = some name := by
  have hstart : Found.none.AllNames fun name =>
      ∃ path ∈ Variable.paths text, path.head? = some name := by
    constructor
    · intro name hname
      cases hname
    · intro name hname
      exact absurd rfl hname
  have hscan : (scanVariables ctx kind hasChild text).AllNames fun name =>
      ∃ path ∈ Variable.paths text, path.head? = some name :=
    hstart.foldl_note fun path hpath name hname => ⟨path, hpath, hname⟩
  exact (hscan.foldl_flag conditions).typed name h

end Usage

/-! ## The root -/

namespace Outline

section Root

variable {code : Text} {ctx : Context} {spans : List Span}

/-- The top-level blocks of an outline stand in a row. -/
theorem inRow_topOf (h : Markup.PairsUp code spans) :
    Excision.InRow code 0 ((Forest.topOf ctx spans).map (Forest.blockOf code)) := by
  rw [← sorted_topLevel h]
  exact Excision.inRow_sorted (separate_topLevel h)

theorem map_range_topOf :
    ((Forest.topOf ctx spans).map (Forest.blockOf code)).map Block.range =
      (Forest.topOf ctx spans).map Span.range :=
  List.map_map

theorem conditions_root (o : Outline) :
    o.conditions o.root = Usage.conditionNames o.context o.hasName o.residual :=
  congrArg (Usage.conditionNames o.context o.hasName) (own_rootOver _ _ _)

theorem varTypes_root (o : Outline) :
    o.varTypes o.root =
      o.root.toBlock.variableTypes o.context (o.forest.kidBlocks o.root) (o.conditions o.root)
        o.residual :=
  congrArg
    (o.root.toBlock.variableTypes o.context (o.forest.kidBlocks o.root) (o.conditions o.root))
    (own_rootOver _ _ _)

/-- The masked text is read as its gaps are. -/
theorem read_masked {β : Type} {read : Text → List β} (hread : Text.Linewise read)
    (h : Markup.PairsUp code spans) :
    read (outlineOf code ctx spans).masked =
      (Forest.rootGaps code ctx spans).flatMap fun gap => read (code.slice gap.1 gap.2) := by
  have hblocks : (outlineOf code ctx spans).topLevel.map Scope.toBlock =
      (Forest.topOf ctx spans).map (Forest.blockOf code) := by
    rw [topLevel_outlineOf, List.map_map]
    rfl
  have hwhole : code.slice 0 code.length = code := List.take_length
  have hrow : Text.Row code.length 0
      (((Forest.topOf ctx spans).map (Forest.blockOf code)).map Block.range) := by
    rw [map_range_topOf]
    exact Forest.row_topOf h
  have hmasked := Block.read_foldl_mask hread hrow (by
    intro b hb
    obtain ⟨s, hs, rfl⟩ := List.mem_map.1 hb
    have hroom := h.room s (Forest.mem_topOf.1 hs).1
    show s.start < s.stop
    omega) (Nat.le_refl _)
  rw [hwhole, map_range_topOf] at hmasked
  unfold masked
  rw [hblocks]
  exact hmasked

theorem seamless_outlineOf_iff {α : Type} {here? : Text.Recogniser α}
    (h : Markup.PairsUp code spans) :
    (outlineOf code ctx spans).Seamless here? ↔
      ∀ m ∈ Text.findAll (Text.located here?)
          (Excision.cutFrom code 0 ((Forest.topOf ctx spans).map (Forest.blockOf code))).1,
        ∀ seam ∈ Excision.seamsFrom 0
          (Excision.cutFrom code 0 ((Forest.topOf ctx spans).map (Forest.blockOf code))).2,
        ¬ Text.Straddles m seam := by
  unfold Seamless seams pieces residual
  rw [cut_outlineOf h]

/-- The residual is read as its gaps are, if no match reaches over a
seam. -/
theorem read_residual {α : Type} {here? : Text.Recogniser α} (hlocal : Text.Local here?)
    (h : Markup.PairsUp code spans) (hfree : (outlineOf code ctx spans).Seamless here?) :
    (Text.findAll here? (outlineOf code ctx spans).residual).map Prod.snd =
      (Forest.rootGaps code ctx spans).flatMap fun gap =>
        (Text.findAll here? (code.slice gap.1 gap.2)).map Prod.snd := by
  have hread := Excision.read_cutFrom hlocal (inRow_topOf h) ((seamless_outlineOf_iff h).1 hfree)
  rw [map_range_topOf] at hread
  unfold residual
  rw [cut_outlineOf h]
  exact hread

/-- What stands inside a match of the residual stands in the text, or the
match reaches over a seam. -/
theorem infix_or_straddles {α : Type} {m : Nat × (α × Nat)} {name : Text}
    (h : Markup.PairsUp code spans)
    (hname : ∃ i, name <+: ((outlineOf code ctx spans).residual.drop m.1).drop i ∧
      i + name.length ≤ m.2.2) :
    name <:+: code ∨ ∃ seam ∈ (outlineOf code ctx spans).seams, Text.Straddles m seam := by
  by_cases hover : ∃ seam ∈ (outlineOf code ctx spans).seams, Text.Straddles m seam
  · exact .inr hover
  · refine .inl ?_
    obtain ⟨i, ⟨rest, hrest⟩, hinside⟩ := hname
    rw [List.drop_drop] at hrest
    unfold seams pieces at hover
    unfold residual at hrest
    rw [cut_outlineOf h] at hover hrest
    have hlength := congrArg List.length hrest
    rw [List.length_append, List.length_drop] at hlength
    have hsplit := List.take_append_drop (m.1 + i)
      (Excision.cutFrom code 0 ((Forest.topOf ctx spans).map (Forest.blockOf code))).1
    rw [← hrest] at hsplit
    refine Excision.infix_of_cutFrom (inRow_topOf h) (Nat.le_refl 0) hsplit.symm ?_
    intro seam hseam hacross
    rw [List.length_take] at hacross
    exact hover ⟨seam, hseam, by omega, by omega⟩

/-- A reading that lists what matches gives lists what they were found
at. -/
theorem exists_located {α : Type} {here? : Text.Recogniser α} {a : α} {t : Text}
    (h : a ∈ (Text.findAll here? t).map Prod.snd) :
    ∃ m ∈ Text.findAll (Text.located here?) t, m.2.1 = a ∧ here? (t.drop m.1) = some m.2 := by
  unfold Text.findAll at h
  rw [← Text.map_findFrom_located] at h
  obtain ⟨m, hm, rfl⟩ := List.mem_map.1 h
  obtain ⟨k, hk, hmatch⟩ := Text.here?_of_mem_findFrom hm
  rw [Nat.zero_add] at hk
  exact ⟨m, hm, rfl, hk ▸ hmatch⟩

end Root

/-- The root uses what the text with its top-level blocks masked would use,
as far as no match in the residual reaches over a seam.  A name that the
root reports stands in the text, or else such a match reports it. -/
theorem root_reads_as_masked {t : Text} {ctx : Context} {o : Outline}
    (h : ofText t ctx = .ok o) :
    (o.Seamless Condition.here? → o.conditions o.root = o.maskedConditions) ∧
    (o.Seamless Condition.here? → o.Seamless Variable.here? →
      o.varTypes o.root = o.maskedTypes) ∧
    (∀ name ∈ o.conditions o.root, name <:+: normalize t ∨
      ∃ m ∈ Text.findAll (Text.located Condition.here?) o.residual,
        m.2.1 = name ∧ ∃ seam ∈ o.seams, Text.Straddles m seam) ∧
    ∀ name ∈ OrderedMap.keys (o.varTypes o.root), name <:+: normalize t ∨
      ∃ m ∈ Text.findAll (Text.located Variable.here?) o.residual,
        m.2.1.head? = some name ∧ ∃ seam ∈ o.seams, Text.Straddles m seam := by
  obtain ⟨spans, hground, rfl⟩ := grounded_of_ofText h
  have hpairs := hground.toPairsUp
  have hconditions (hfree : (outlineOf (normalize t) ctx spans).Seamless Condition.here?) :
      (outlineOf (normalize t) ctx spans).conditions (outlineOf (normalize t) ctx spans).root =
        (outlineOf (normalize t) ctx spans).maskedConditions := by
    have hlabels : Condition.labels (outlineOf (normalize t) ctx spans).residual =
        Condition.labels (outlineOf (normalize t) ctx spans).masked :=
      (read_residual Condition.local_here? hpairs hfree).trans
        (read_masked Condition.linewise_labels hpairs).symm
    rw [conditions_root, maskedConditions, Usage.conditionNames, Usage.conditionNames, hlabels]
  refine ⟨hconditions, ?_, ?_, ?_⟩
  · intro hfree hfree'
    have hpaths : Variable.paths (outlineOf (normalize t) ctx spans).residual =
        Variable.paths (outlineOf (normalize t) ctx spans).masked :=
      (read_residual Variable.local_here? hpairs hfree').trans
        (read_masked Variable.linewise_paths hpairs).symm
    rw [varTypes_root, hconditions hfree, maskedTypes, Block.variableTypes, Block.variableTypes,
      Usage.variableTypes, Usage.variableTypes, Usage.scanVariables, Usage.scanVariables, hpaths]
  · intro name hname
    rw [conditions_root] at hname
    have hlabel := (List.mem_filter.1 (List.mem_eraseDups.1 hname)).1
    obtain ⟨m, hm, rfl, hmatch⟩ := exists_located hlabel
    exact (infix_or_straddles hpairs (Condition.label_inside hmatch)).imp_right fun hover =>
      ⟨m, hm, rfl, hover⟩
  · intro name hname
    rw [varTypes_root] at hname
    obtain ⟨path, hpath, hhead⟩ := Usage.exists_path_of_mem_keys hname
    obtain ⟨m, hm, rfl, hmatch⟩ := exists_located hpath
    exact (infix_or_straddles hpairs (Variable.head_inside hmatch hhead)).imp_right fun hover =>
      ⟨m, hm, hhead, hover⟩

/-- No seam of this template lies in a match, though a variable ends at
one and a condition begins next to one. -/
theorem root_reads_as_masked_between_tokens :
    ∃ o, ofText "$Head<% loop $Items %>$Title<% end_loop %><% if $Foot %>$Head" Context.base =
        .ok o ∧
      o.Seamless Condition.here? ∧ o.Seamless Variable.here? ∧
      o.conditions o.root = o.maskedConditions ∧ o.varTypes o.root = o.maskedTypes := by
  have hspans : Markup.spansOf
      (normalize "$Head<% loop $Items %>$Title<% end_loop %><% if $Foot %>$Head") =
        .ok [⟨⟨.loop, 5, "<% loop $Items %>", "$Items"⟩, none, 42⟩] :=
    Markup.spansOf_of_tags
      (n := .block ⟨.loop, 5, "<% loop $Items %>", "$Items"⟩ .nil ⟨.loop, 28, "<% end_loop %>"⟩
        .nil)
      (Markup.tags_eq_of_perm (by decide +kernel) (by decide +kernel)).symm
  have hpairs := Markup.pairsUp_of_spansOf hspans
  have houtline := ofText_of_spansOf Context.base hspans (Forest.kept_iff.2 (by decide))
  obtain ⟨hconditions, htypes, -, -⟩ := root_reads_as_masked houtline
  have hfree : (outlineOf _ Context.base _).Seamless Condition.here? :=
    (seamless_outlineOf_iff hpairs).2 (by decide)
  have hfree' : (outlineOf _ Context.base _).Seamless Variable.here? :=
    (seamless_outlineOf_iff hpairs).2 (by decide)
  exact ⟨_, houtline, hfree, hfree', hconditions hfree, htypes hfree hfree'⟩

/-- Where a block stands inside a condition, the root reads its halves as
one name that the template does not hold. -/
theorem root_joins_halves :
    ∃ o, ofText "<% if $So<% loop $A %><% end_loop %>ld %>" Context.base = .ok o ∧
      o.conditions o.root = [("Sold" : Text)] ∧
      o.maskedConditions = [] ∧
      o.varTypes o.root = [(("Sold" : Text), ("Boolean" : Text))] ∧
      o.maskedTypes = [(("So" : Text), ("Text" : Text))] ∧
      ¬ ("Sold" : Text) <:+: normalize "<% if $So<% loop $A %><% end_loop %>ld %>" := by
  have hspans : Markup.spansOf (normalize "<% if $So<% loop $A %><% end_loop %>ld %>") =
      .ok [⟨⟨.loop, 9, "<% loop $A %>", "$A"⟩, none, 36⟩] :=
    Markup.spansOf_of_tags
      (n := .block ⟨.loop, 9, "<% loop $A %>", "$A"⟩ .nil ⟨.loop, 22, "<% end_loop %>"⟩ .nil)
      (Markup.tags_eq_of_perm (by decide +kernel) (by decide +kernel)).symm
  have hpairs := Markup.pairsUp_of_spansOf hspans
  have houtline := ofText_of_spansOf Context.base hspans (Forest.kept_iff.2 (by decide))
  have hresidual : (outlineOf (normalize "<% if $So<% loop $A %><% end_loop %>ld %>") Context.base
      [⟨⟨.loop, 9, "<% loop $A %>", "$A"⟩, none, 36⟩]).residual = ("<% if $Sold %>" : Text) := by
    unfold residual
    rw [cut_outlineOf hpairs]
    decide
  refine ⟨_, houtline, ?_, ?_, ?_, ?_, by decide⟩
  · rw [conditions_root, hresidual]
    decide +kernel
  · decide +kernel
  · rw [varTypes_root, conditions_root, hresidual]
    decide +kernel
  · decide +kernel

end Outline

end TemplateScopes
