import Mathlib.Data.List.Count
import Mathlib.Data.List.TakeWhile
import TemplateScopes.Graph.Drawing
import TemplateScopes.Proofs.Pairing
import TemplateScopes.Proofs.Spacing

/-!
# What a flowchart tells

The text of a flowchart determines the blocks that it was drawn from: which
there are, of which kinds, how they are called, what they stand in and how many
variables they have.

There are four groups.

* Characters.  Identifiers and names consist of characters that no bracket,
  blank or arrow is made of, so that `cut_unique` finds where they end.
* Lines.  A `Box` is what the line of a node tells, and `Box.line_inj` reads it
  back.  `arrowLine_inj` does the same for the lines of edges.
* Drawings.  `flowchart_eq` is a flowchart by its boxes and arrows,
  `flowchart_inj` reads both back, and `arrows_perm` says that there is an
  arrow for each edge.
* The result.  `flowchart_determines` is the main result.
-/

namespace TemplateScopes

/-! ## Characters -/

section Characters

variable {c : CodePoint}

/-- The characters of names stand between zero and `z`. -/
theorem toNat_of_isNameChar (h : isNameChar c = true) : 48 ≤ c.toNat ∧ c.toNat ≤ 122 := by
  simp only [isNameChar, Bool.or_eq_true, Bool.and_eq_true, decide_eq_true_eq] at h
  rcases h with ((⟨hlow, hhigh⟩ | ⟨hlow, hhigh⟩) | ⟨hlow, hhigh⟩) | rfl
  · exact ⟨Nat.le_trans (by decide) hlow, Nat.le_trans hhigh (by decide)⟩
  · exact ⟨Nat.le_trans (by decide) hlow, Nat.le_trans hhigh (by decide)⟩
  · exact ⟨Nat.le_trans (by decide) hlow, Nat.le_trans hhigh (by decide)⟩
  · decide

theorem not_isBlank_of_isNameChar (h : isNameChar c = true) : Text.isBlank c = false := by
  have hrange := toNat_of_isNameChar h
  simp only [Text.isBlank, Bool.or_eq_false_iff, Bool.and_eq_false_iff, decide_eq_false_iff_not,
    beq_eq_false_iff_ne]
  omega

theorem isNameChar_of_digit (h : 48 ≤ c.toNat ∧ c.toNat ≤ 57) : isNameChar c = true := by
  simp only [isNameChar, Bool.or_eq_true, Bool.and_eq_true, decide_eq_true_eq]
  exact .inl (.inr h)

/-- A name is all that stands in front of the first character of no name. -/
theorem cut_unique {p : CodePoint → Bool} {x y z w : Text} {c d : CodePoint}
    (hx : ∀ a ∈ x, p a = true) (hy : ∀ a ∈ y, p a = true) (hc : p c = false) (hd : p d = false)
    (h : x ++ c :: z = y ++ d :: w) : x = y ∧ c = d ∧ z = w := by
  have hfront : ∀ {u : Text} {e : CodePoint} {v : Text}, (∀ a ∈ u, p a = true) → p e = false →
      (u ++ e :: v).takeWhile p = u := by
    intro u e v hu he
    rw [List.takeWhile_append_of_pos hu, List.takeWhile_cons_of_neg (by simp [he]), List.append_nil]
  have hxy : x = y := by rw [← hfront hx hc, h, hfront hy hd]
  subst hxy
  exact ⟨rfl, List.cons.inj (List.append_cancel_left h)⟩

/-- Before its first separator a text is what it is. -/
theorem cut_unique_of_not_mem {x y z w : Text} {d : CodePoint} (hx : d ∉ x) (hy : d ∉ y)
    (h : x ++ d :: z = y ++ d :: w) : x = y ∧ z = w := by
  have hother : ∀ {u : Text}, d ∉ u → ∀ a ∈ u, decide (a ≠ d) = true := fun hu a ha =>
    decide_eq_true fun heq => hu (heq ▸ ha)
  have hsep : decide (d ≠ d) = false := by simp
  obtain ⟨hfront, -, hbehind⟩ := cut_unique (p := fun a => decide (a ≠ d)) (hother hx) (hother hy)
    hsep hsep h
  exact ⟨hfront, hbehind⟩

theorem Text.ofNat_inj {m n : Nat} (h : Text.ofNat m = Text.ofNat n) : m = n := by
  rw [← Nat.ofDigitChars_ten_toDigits (n := m), ← Nat.ofDigitChars_ten_toDigits (n := n)]
  exact congrArg (Nat.ofDigitChars 10 · 0) (Text.ofChars_inj.1 h)

/-- The digits of a number are digits. -/
theorem Text.toNat_of_mem_ofNat {n : Nat} (h : c ∈ Text.ofNat n) :
    48 ≤ c.toNat ∧ c.toNat ≤ 57 := by
  obtain ⟨d, hd, rfl⟩ := Text.mem_ofChars.1 h
  have hdigit : 48 ≤ d.val ∧ d.val ≤ 57 := by
    simpa [Char.isDigit] using Nat.isDigit_of_mem_toDigits (by decide) (by decide) hd
  exact hdigit

theorem Text.mem_ofInt {n : Int} (h : c ∈ Text.ofInt n) :
    c = '-' ∨ 48 ≤ c.toNat ∧ c.toNat ≤ 57 := by
  unfold Text.ofInt at h
  split at h
  · exact (List.mem_cons.1 h).imp_right Text.toNat_of_mem_ofNat
  · exact .inr (Text.toNat_of_mem_ofNat h)

theorem Text.ofInt_inj {m n : Int} (h : Text.ofInt m = Text.ofInt n) : m = n := by
  -- Digits never start with a minus sign.
  have hsign : ∀ {k l : Nat}, .char '-' :: Text.ofNat k ≠ Text.ofNat l := by
    intro k l heq
    exact absurd (Text.toNat_of_mem_ofNat (heq ▸ List.mem_cons_self)) (by decide)
  unfold Text.ofInt at h
  split_ifs at h with hm hn hn
  · have habs := Text.ofNat_inj (List.cons.inj h).2
    omega
  · exact absurd h hsign
  · exact absurd h.symm hsign
  · have habs := Text.ofNat_inj h
    omega

end Characters

namespace BlockGraph

/-! ## Lines -/

/-- How a node is called in a flowchart. -/
def idOf (n : Node) : Text :=
  Flowchart.nodeId (label n)

section Ids

variable {c : CodePoint} {m n : Node}

theorem idOf_block (id : Nat) : idOf (.block id) = .char 'b' :: Text.ofNat id := by
  refine if_neg fun heq => ?_
  have hletter : .char 'r' ∈ Text.ofNat id := by
    show .char 'r' ∈ label (.block id)
    rw [heq]
    decide
  exact absurd (Text.toNat_of_mem_ofNat hletter) (by decide)

theorem isNameChar_of_mem_idOf (h : c ∈ idOf n) : isNameChar c = true := by
  cases n with
  | root => exact List.all_eq_true.1 rfl c h
  | block id =>
    rw [idOf_block] at h
    rcases List.mem_cons.1 h with rfl | h
    · decide
    · exact isNameChar_of_digit (Text.toNat_of_mem_ofNat h)

theorem idOf_inj (h : idOf m = idOf n) : m = n := by
  cases m with
  | root =>
    cases n with
    | root => rfl
    | block id => rw [idOf_block] at h; cases h
  | block id =>
    rw [idOf_block] at h
    cases n with
    | root => cases h
    | block id' =>
      rw [idOf_block] at h
      rw [Text.ofNat_inj (List.cons.inj h).2]

end Ids

/-- What the line of a node tells. -/
structure Box where
  node : Node
  kind : Kind
  name : Text
  count : Option Int
deriving DecidableEq

namespace Box

/-- The line that declares the node. -/
def line (b : Box) : Text :=
  Flowchart.nodeLine (label b.node) b.kind b.name b.count

/-- Whether the kind is one that a part of a template has, and the name one
that a block has. -/
structure Plain (b : Box) : Prop where
  kind : b.kind = .root ∨ b.kind = .loop ∨ b.kind = .within
  name : ∀ c ∈ b.name, isNameChar c = true

/-- A name behind a space, unless it is empty. -/
def spaced (name : Text) : Text :=
  if name = [] then [] else .char ' ' :: name

/-- Whether a character can stand in a label. -/
def isLabelChar (c : CodePoint) : Bool :=
  isNameChar c || (" ()-" : Text).contains c

/-- Whether a character can stand in the line of a node. -/
def isLineChar (c : CodePoint) : Bool :=
  isLabelChar c || ("[]\"" : Text).contains c

section Lines

variable {b b' : Box} {c : CodePoint} {name name' : Text} {count count' : Option Int}

theorem isLabelChar_of_isNameChar (h : isNameChar c = true) : isLabelChar c = true := by
  rw [isLabelChar, h, Bool.true_or]

theorem isLineChar_of_isLabelChar (h : isLabelChar c = true) : isLineChar c = true := by
  rw [isLineChar, h, Bool.true_or]

theorem trimRight_eq (h : b.Plain) :
    Text.trimRight (b.kind.abbrev ++ " " ++ b.name) = b.kind.abbrev ++ spaced b.name := by
  unfold spaced
  rcases List.eq_nil_or_concat b.name with hname | ⟨init, c, hname⟩
  · rw [hname, if_pos rfl]
    rcases h.kind with hkind | hkind | hkind <;> rw [hkind] <;> rfl
  · rw [List.concat_eq_append] at hname
    have hblank := not_isBlank_of_isNameChar (h.name c (hname ▸ by simp))
    rw [hname, if_neg (by simp), ← List.append_assoc]
    unfold Text.trimRight
    rw [List.reverse_concat, List.dropWhile_cons_of_neg (by simp [hblank]), List.reverse_cons,
      List.reverse_reverse]
    simp

theorem spaced_inj (h : spaced name = spaced name') : name = name' := by
  unfold spaced at h
  split_ifs at h with hnil hnil'
  · rw [hnil, hnil']
  · exact (List.cons.inj h).2

/-- A count comes behind a bracket, and a space behind it. -/
theorem countSuffix_some (n : Int) : Flowchart.countSuffix (some n) =
    (" " : Text) ++ .char '(' :: (Text.ofInt n ++ .char ' ' ::
      (("var" : Text) ++ ((if n = 1 then [] else ['s']) : Text) ++ (")" : Text))) := by
  unfold Flowchart.countSuffix
  simp

theorem isLabelChar_of_mem_abbrev (h : b.Plain) : ∀ c ∈ b.kind.abbrev, isLabelChar c = true := by
  rcases h.kind with hkind | hkind | hkind <;> rw [hkind] <;> exact List.all_eq_true.1 rfl

theorem isLabelChar_of_mem_spaced (hname : ∀ c ∈ name, isNameChar c = true) :
    ∀ c ∈ spaced name, isLabelChar c = true := by
  intro c hc
  unfold spaced at hc
  split at hc
  · cases hc
  · rcases List.mem_cons.1 hc with rfl | hc
    · decide
    · exact isLabelChar_of_isNameChar (hname c hc)

theorem isLabelChar_of_mem_ofInt (n : Int) : ∀ c ∈ Text.ofInt n, isLabelChar c = true := by
  intro c hc
  rcases Text.mem_ofInt hc with rfl | hdigit
  · decide
  · exact isLabelChar_of_isNameChar (isNameChar_of_digit hdigit)

theorem isLabelChar_of_mem_countSuffix (count : Option Int) :
    ∀ c ∈ Flowchart.countSuffix count, isLabelChar c = true := by
  cases count with
  | none => intro c hc; cases hc
  | some n =>
    rw [countSuffix_some]
    simp only [List.forall_mem_append, List.forall_mem_cons]
    refine ⟨List.all_eq_true.1 rfl, rfl, isLabelChar_of_mem_ofInt n, rfl,
      ⟨List.all_eq_true.1 rfl, ?_⟩, List.all_eq_true.1 rfl⟩
    split <;> exact List.all_eq_true.1 (by decide)

/-- A label is the kind, the name and the count, as they are. -/
theorem blockLabel_eq (h : b.Plain) : Flowchart.blockLabel b.kind b.name b.count =
    b.kind.abbrev ++ (spaced b.name ++ Flowchart.countSuffix b.count) := by
  have hquote : ∀ c ∈ b.kind.abbrev ++ (spaced b.name ++ Flowchart.countSuffix b.count),
      (if c = .char '"' then .char '\'' else c) = c := by
    intro c hc
    refine if_neg fun heq => ?_
    subst heq
    rcases List.mem_append.1 hc with hc | hc
    · exact absurd (isLabelChar_of_mem_abbrev h _ hc) (by decide)
    · rcases List.mem_append.1 hc with hc | hc
      · exact absurd (isLabelChar_of_mem_spaced h.name _ hc) (by decide)
      · exact absurd (isLabelChar_of_mem_countSuffix _ _ hc) (by decide)
  unfold Flowchart.blockLabel Flowchart.withoutQuotes
  rw [trimRight_eq h, List.append_assoc, List.map_congr_left hquote, List.map_id']

theorem isLabelChar_of_mem_blockLabel (h : b.Plain) :
    ∀ c ∈ Flowchart.blockLabel b.kind b.name b.count, isLabelChar c = true := by
  rw [blockLabel_eq h]
  simp only [List.forall_mem_append]
  exact ⟨isLabelChar_of_mem_abbrev h, isLabelChar_of_mem_spaced h.name,
    isLabelChar_of_mem_countSuffix _⟩

/-- A name ends in front of the count, which begins with the first bracket. -/
theorem spaced_countSuffix_inj (hname : ∀ c ∈ name, isNameChar c = true)
    (hname' : ∀ c ∈ name', isNameChar c = true)
    (h : spaced name ++ Flowchart.countSuffix count =
      spaced name' ++ Flowchart.countSuffix count') :
    name = name' ∧ count = count' := by
  have hbracket : ∀ {u : Text}, (∀ c ∈ u, isNameChar c = true) → .char '(' ∉ spaced u := by
    intro u hu hmem
    unfold spaced at hmem
    split at hmem
    · cases hmem
    · rcases List.mem_cons.1 hmem with heq | hmem
      · exact absurd heq (by decide)
      · exact absurd (hu _ hmem) (by decide)
  have hsome : ∀ n : Int, .char '(' ∈ Flowchart.countSuffix (some n) := by
    intro n
    rw [countSuffix_some]
    simp
  cases count with
  | none =>
    cases count' with
    | none =>
      rw [Flowchart.countSuffix, List.append_nil, List.append_nil] at h
      exact ⟨spaced_inj h, rfl⟩
    | some n' =>
      have hmem : .char '(' ∈ spaced name ++ Flowchart.countSuffix none :=
        h ▸ List.mem_append_right _ (hsome n')
      exact absurd ((List.mem_append.1 hmem).resolve_right List.not_mem_nil) (hbracket hname)
  | some n =>
    cases count' with
    | none =>
      have hmem : .char '(' ∈ spaced name' ++ Flowchart.countSuffix none :=
        h ▸ List.mem_append_right _ (hsome n)
      exact absurd ((List.mem_append.1 hmem).resolve_right List.not_mem_nil) (hbracket hname')
    | some n' =>
      rw [countSuffix_some, countSuffix_some, ← List.append_assoc, ← List.append_assoc] at h
      have hfront : ∀ {u : Text}, (∀ c ∈ u, isNameChar c = true) →
          .char '(' ∉ spaced u ++ " " := by
        intro u hu hmem
        rcases List.mem_append.1 hmem with hmem | hmem
        · exact hbracket hu hmem
        · exact absurd hmem (by decide)
      have hblank : ∀ k : Int, .char ' ' ∉ Text.ofInt k := fun k hmem =>
        absurd (Text.mem_ofInt hmem) (by decide)
      obtain ⟨hspaced, hrest⟩ := cut_unique_of_not_mem (hfront hname) (hfront hname') h
      obtain ⟨hnumber, -⟩ := cut_unique_of_not_mem (hblank n) (hblank n') hrest
      rw [spaced_inj (List.append_cancel_right hspaced), Text.ofInt_inj hnumber]
      exact ⟨rfl, rfl⟩

theorem exists_brackets (kind : Kind) : ∃ c rest, (c = .char '[' ∨ c = .char '(') ∧
    (Flowchart.brackets kind).1 = c :: rest := by
  cases kind with
  | within => exact ⟨'(', [], .inr rfl, rfl⟩
  | loop => exact ⟨'[', "[", .inl rfl, rfl⟩
  | root => exact ⟨'[', [], .inl rfl, rfl⟩
  | other label => exact ⟨'[', [], .inl rfl, rfl⟩

/-- The parts of the line of a node. -/
theorem line_eq (b : Box) : b.line =
    (Text.spaces 4 ++ idOf b.node ++ (Flowchart.brackets b.kind).1) ++ .char '"' ::
      (Flowchart.blockLabel b.kind b.name b.count ++
        .char '"' :: (Flowchart.brackets b.kind).2) := by
  unfold line Flowchart.nodeLine
  show _ ++ ("\"" : Text) ++ _ ++ ("\"" : Text) ++ _ = _
  simp [Text.spaces, idOf]

theorem isLineChar_of_mem_line (h : b.Plain) : ∀ c ∈ b.line, isLineChar c = true := by
  rw [line_eq]
  simp only [List.forall_mem_append, List.forall_mem_cons]
  refine ⟨⟨⟨List.all_eq_true.1 rfl, fun c hc => ?_⟩, ?_⟩, rfl, fun c hc => ?_, rfl, ?_⟩
  · exact isLineChar_of_isLabelChar (isLabelChar_of_isNameChar (isNameChar_of_mem_idOf hc))
  · rcases h.kind with hkind | hkind | hkind <;> rw [hkind] <;> exact List.all_eq_true.1 rfl
  · exact isLineChar_of_isLabelChar (isLabelChar_of_mem_blockLabel h c hc)
  · rcases h.kind with hkind | hkind | hkind <;> rw [hkind] <;> exact List.all_eq_true.1 rfl

/-- The brackets behind a label tell the kind. -/
theorem kind_eq_of_brackets (h : b.Plain) (h' : b'.Plain)
    (heq : (Flowchart.brackets b.kind).2 = (Flowchart.brackets b'.kind).2) : b.kind = b'.kind := by
  rcases h.kind with hkind | hkind | hkind <;> rcases h'.kind with hkind' | hkind' | hkind' <;>
    rw [hkind, hkind'] at heq ⊢ <;> exact absurd heq (by decide)

/-- The line of a node tells everything about it. -/
theorem line_inj (h : b.Plain) (h' : b'.Plain) (heq : b.line = b'.line) : b = b' := by
  rw [line_eq, line_eq] at heq
  have hfront : ∀ b : Box, b.Plain →
      .char '"' ∉ Text.spaces 4 ++ idOf b.node ++ (Flowchart.brackets b.kind).1 := by
    intro b hb
    simp only [List.mem_append, not_or]
    refine ⟨⟨by decide, fun hmem => ?_⟩, ?_⟩
    · exact absurd (isNameChar_of_mem_idOf hmem) (by decide)
    · rcases hb.kind with hkind | hkind | hkind <;> rw [hkind] <;> decide
  have hlabel : ∀ b : Box, b.Plain → .char '"' ∉ Flowchart.blockLabel b.kind b.name b.count :=
    fun b hb hmem => absurd (isLabelChar_of_mem_blockLabel hb _ hmem) (by decide)
  obtain ⟨hid, hrest⟩ := cut_unique_of_not_mem (hfront b h) (hfront b' h') heq
  obtain ⟨hlabels, hbrackets⟩ := cut_unique_of_not_mem (hlabel b h) (hlabel b' h') hrest
  have hkind := kind_eq_of_brackets h h' hbrackets
  rw [blockLabel_eq h, blockLabel_eq h', hkind] at hlabels
  obtain ⟨hname, hcount⟩ := spaced_countSuffix_inj h.name h'.name (List.append_cancel_left hlabels)
  rw [hkind] at hid
  have hnode := idOf_inj (List.append_cancel_left (List.append_cancel_right hid))
  obtain ⟨node, kind, name, count⟩ := b
  obtain ⟨node', kind', name', count'⟩ := b'
  simp only at hnode hkind hname hcount
  rw [hnode, hkind, hname, hcount]

end Lines

end Box

/-- The line that draws an edge. -/
def arrowLine (e : Node × Node) : Text :=
  Flowchart.edgeLine (label e.1) (label e.2)

section Arrows

variable {e e' : Node × Node} {n : Node} {b : Box}

theorem arrowLine_eq (e : Node × Node) : arrowLine e =
    (Text.spaces 4 ++ idOf e.1 ++ " --") ++ .char '>' :: (.char ' ' :: idOf e.2) := by
  unfold arrowLine Flowchart.edgeLine
  simp [Text.spaces, idOf]

theorem isNameChar_of_mem_arrowLine :
    ∀ c ∈ arrowLine e, (isNameChar c || (" ->" : Text).contains c) = true := by
  have hid : ∀ n, ∀ c ∈ idOf n, (isNameChar c || (" ->" : Text).contains c) = true := by
    intro n c hc
    rw [isNameChar_of_mem_idOf hc, Bool.true_or]
  rw [arrowLine_eq]
  simp only [List.forall_mem_append, List.forall_mem_cons]
  exact ⟨⟨⟨List.all_eq_true.1 rfl, hid _⟩, List.all_eq_true.1 rfl⟩, rfl, rfl, hid _⟩

/-- Whatever reads like the line of an edge names the nodes of the edge. -/
theorem eq_of_arrowLine_eq {x y : Text} (h : arrowLine e = "    " ++ x ++ " --> " ++ y) :
    x = idOf e.1 ∧ y = idOf e.2 := by
  have hform : "    " ++ x ++ " --> " ++ y =
      (Text.spaces 4 ++ x ++ " --") ++ .char '>' :: (.char ' ' :: y) := by
    simp [Text.spaces]
  have hid : ∀ n, .char '>' ∉ idOf n := fun n hmem =>
    absurd (isNameChar_of_mem_idOf hmem) (by decide)
  have hfront : .char '>' ∉ Text.spaces 4 ++ idOf e.1 ++ " --" := by
    simp only [List.mem_append, not_or]
    exact ⟨⟨by decide, hid _⟩, by decide⟩
  have hbehind : .char '>' ∉ .char ' ' :: idOf e.2 := by
    rw [List.mem_cons, not_or]
    exact ⟨by decide, hid _⟩
  rw [hform, arrowLine_eq, List.append_cons_inj_of_notMem hfront hbehind] at h
  obtain ⟨hx, -, hy⟩ := h
  exact ⟨(List.append_cancel_left (List.append_cancel_right hx)).symm, (List.cons.inj hy).2.symm⟩

theorem arrowLine_inj (h : arrowLine e = arrowLine e') : e = e' := by
  obtain ⟨hsource, htarget⟩ := eq_of_arrowLine_eq h
  exact Prod.ext (idOf_inj hsource).symm (idOf_inj htarget).symm

/-- Only the lines of nodes have quotes. -/
theorem quote_mem_line (b : Box) : .char '"' ∈ b.line := by
  rw [Box.line_eq]
  exact List.mem_append_right _ List.mem_cons_self

theorem quote_not_mem_arrowLine : .char '"' ∉ arrowLine e := fun hmem =>
  absurd (isNameChar_of_mem_arrowLine _ hmem) (by decide)

end Arrows

/-- Whether a line declares a node: its identifier stands first, and a bracket
behind it. -/
def declares (n : Node) (line : Text) : Bool :=
  Text.startsWith ("    " ++ idOf n ++ "[") line || Text.startsWith ("    " ++ idOf n ++ "(") line

section Declares

variable {n : Node} {line : Text}

theorem declares_iff : declares n line = true ↔
    ∃ c rest, (c = .char '[' ∨ c = .char '(') ∧ line = Text.spaces 4 ++ idOf n ++ c :: rest := by
  unfold declares
  rw [Bool.or_eq_true, Text.startsWith_iff, Text.startsWith_iff]
  constructor
  · intro h
    rcases h with ⟨rest, h⟩ | ⟨rest, h⟩
    · exact ⟨.char '[', rest, .inl rfl, by rw [← h]; simp [Text.spaces]⟩
    · exact ⟨.char '(', rest, .inr rfl, by rw [← h]; simp [Text.spaces]⟩
  · intro h
    obtain ⟨c, rest, rfl | rfl, rfl⟩ := h
    · exact .inl ⟨rest, by simp [Text.spaces]⟩
    · exact .inr ⟨rest, by simp [Text.spaces]⟩

/-- The line of a node declares that node. -/
theorem declares_line (b : Box) : declares n b.line = decide (b.node = n) := by
  obtain ⟨c, more, hbracket, hopen⟩ := Box.exists_brackets b.kind
  have hline : b.line = Text.spaces 4 ++ idOf b.node ++ c :: (more ++ .char '"' ::
      (Flowchart.blockLabel b.kind b.name b.count ++
        .char '"' :: (Flowchart.brackets b.kind).2)) := by
    rw [Box.line_eq, hopen]
    simp
  rw [Bool.eq_iff_iff, declares_iff, decide_eq_true_eq, hline]
  constructor
  · intro h
    obtain ⟨d, rest, hd, h⟩ := h
    rw [List.append_assoc, List.append_assoc] at h
    have hplain : ∀ {c : CodePoint}, c = .char '[' ∨ c = .char '(' → isNameChar c = false := by
      rintro c (rfl | rfl) <;> decide
    exact idOf_inj (cut_unique (fun _ => isNameChar_of_mem_idOf) (fun _ => isNameChar_of_mem_idOf)
      (hplain hbracket) (hplain hd) (List.append_cancel_left h)).1
  · intro h
    subst h
    exact ⟨c, _, hbracket, rfl⟩

theorem declares_arrowLine (e : Node × Node) : declares n (arrowLine e) = false := by
  rw [Bool.eq_false_iff]
  intro h
  obtain ⟨c, rest, hc, h⟩ := declares_iff.1 h
  have hline : arrowLine e =
      Text.spaces 4 ++ (idOf e.1 ++ .char ' ' :: (("--> " : Text) ++ idOf e.2)) := by
    rw [arrowLine_eq]
    simp
  rw [hline, List.append_assoc] at h
  have hplain : isNameChar c = false := by
    rcases hc with rfl | rfl <;> decide
  have hblank := (cut_unique (fun _ => isNameChar_of_mem_idOf) (fun _ => isNameChar_of_mem_idOf)
    (by decide) hplain (List.append_cancel_left h)).2.1
  rcases hc with rfl | rfl <;> exact absurd hblank (by decide)

end Declares

/-! ## Drawings -/

/-- What the lines of the nodes tell, in their order. -/
def boxes (g : BlockGraph) (counts : List (Node × Int)) : List Box :=
  g.drawingOrder.map fun entry =>
    ⟨entry.1, entry.2.kind, entry.2.name, List.lookup entry.1 counts⟩

/-- The edges in the order of their lines. -/
def arrows (g : BlockGraph) : List (Node × Node) :=
  g.drawingOrder.flatMap fun entry =>
    (g.childrenByStart entry.1).map fun child => (entry.1, child.1)

section Drawings

variable {g g' : BlockGraph} {counts counts' : List (Node × Int)} {direction : Text}

theorem flowchart_eq (g : BlockGraph) (counts : List (Node × Int)) (direction : Text) :
    g.flowchart counts direction = Text.join "\n" (("flowchart " ++ direction) ::
      ((g.boxes counts).map Box.line ++ g.arrows.map arrowLine)) := by
  unfold flowchart boxes arrows
  rw [List.map_map, List.map_flatMap]
  simp only [List.map_map]
  rfl

theorem drawingOrder_perm (g : BlockGraph) : g.drawingOrder.Perm g.nodes := by
  have hothers : (fun entry : Node × NodeInfo => decide (entry.1 ≠ .root)) =
      fun entry => !decide (entry.1 = .root) := by
    funext entry
    exact decide_not
  unfold drawingOrder
  refine (List.Perm.append_left _ (sortByStart_perm _)).trans ?_
  rw [hothers]
  exact List.filter_append_perm _ _

theorem mem_arrows (h : g.WellFormed) {e : Node × Node} : e ∈ g.arrows ↔ e ∈ g.edges := by
  obtain ⟨a, b⟩ := e
  unfold arrows
  simp only [List.mem_flatMap, List.mem_map, (drawingOrder_perm g).mem_iff]
  constructor
  · intro hmem
    obtain ⟨parent, hparent, child, hchild, heq⟩ := hmem
    exact heq ▸ ((mem_childrenByStart h hparent).1 hchild).edge
  · intro hedge
    obtain ⟨hsource, htarget⟩ := h.ends a b hedge
    obtain ⟨parent, hparent, rfl⟩ := List.mem_map.1 hsource
    obtain ⟨child, hchild, rfl⟩ := List.mem_map.1 htarget
    exact ⟨parent, hparent, child, (mem_childrenByStart h hparent).2 ⟨hparent, hchild, hedge⟩, rfl⟩

theorem nodup_arrows (h : g.WellFormed) : g.arrows.Nodup := by
  have hsources : (g.drawingOrder.map Prod.fst).Nodup :=
    ((drawingOrder_perm g).map _).nodup_iff.2 h.names
  refine List.nodup_flatMap.2 ⟨fun parent hparent => ?_, ?_⟩
  · have hnode := (drawingOrder_perm g).mem_iff.1 hparent
    refine List.Nodup.map_on ?_ (nodup_childrenByStart h parent.1)
    intro child hchild other hother heq
    have hchild := ((mem_childrenByStart h hnode).1 hchild).child_mem
    have hother := ((mem_childrenByStart h hnode).1 hother).child_mem
    exact List.inj_on_of_nodup_map h.names hchild hother (Prod.mk.inj heq).2
  · refine (List.pairwise_map.1 hsources).imp fun {parent other} hne e he he' => ?_
    obtain ⟨child, -, rfl⟩ := List.mem_map.1 he
    obtain ⟨child', -, heq⟩ := List.mem_map.1 he'
    exact hne (Prod.mk.inj heq).1.symm

/-- There is an arrow for each edge. -/
theorem arrows_perm (h : g.WellFormed) : g.arrows.Perm g.edges :=
  (List.perm_ext_iff_of_nodup (nodup_arrows h) h.edges).2 fun _ => mem_arrows h

theorem map_node_boxes_perm (g : BlockGraph) (counts : List (Node × Int)) :
    ((g.boxes counts).map Box.node).Perm g.names := by
  unfold boxes names
  rw [List.map_map]
  exact (drawingOrder_perm g).map _

theorem mem_boxes {b : Box} : b ∈ g.boxes counts ↔
    (∃ info, (b.node, info) ∈ g.nodes ∧ info.kind = b.kind ∧ info.name = b.name) ∧
      b.count = List.lookup b.node counts := by
  unfold boxes
  rw [List.mem_map]
  simp only [(drawingOrder_perm g).mem_iff]
  constructor
  · intro hmem
    obtain ⟨entry, hentry, rfl⟩ := hmem
    exact ⟨⟨entry.2, hentry, rfl, rfl⟩, rfl⟩
  · intro hmem
    obtain ⟨⟨info, hinfo, hkind, hname⟩, hcount⟩ := hmem
    refine ⟨_, hinfo, ?_⟩
    rw [hkind, hname, ← hcount]

/-- Only the lines of nodes have quotes. -/
theorem filter_quote (boxes : List Box) (arrows : List (Node × Node)) :
    (boxes.map Box.line ++ arrows.map arrowLine).filter (fun line => line.contains '"') =
        boxes.map Box.line ∧
      (boxes.map Box.line ++ arrows.map arrowLine).filter (fun line => !line.contains '"') =
        arrows.map arrowLine := by
  have hbox : ∀ line ∈ boxes.map Box.line, line.contains '"' = true := by
    simp only [List.forall_mem_map, List.contains_iff_mem]
    exact fun b _ => quote_mem_line b
  have harrow : ∀ line ∈ arrows.map arrowLine, line.contains '"' = false := by
    simp only [List.forall_mem_map, Bool.eq_false_iff, ne_eq, List.contains_iff_mem]
    exact fun e _ => quote_not_mem_arrowLine
  have hnoArrow : ∀ line ∈ arrows.map arrowLine, ¬ line.contains '"' = true := fun line hline =>
    Bool.eq_false_iff.1 (harrow line hline)
  have hnoBox : ∀ line ∈ boxes.map Box.line, ¬ (!line.contains '"') = true := by
    intro line hline
    rw [hbox line hline]
    exact Bool.false_ne_true
  have hisArrow : ∀ line ∈ arrows.map arrowLine, (!line.contains '"') = true := by
    intro line hline
    rw [harrow line hline]
    rfl
  rw [List.filter_append, List.filter_append, List.filter_eq_self.2 hbox,
    List.filter_eq_nil_iff.2 hnoArrow, List.filter_eq_nil_iff.2 hnoBox,
    List.filter_eq_self.2 hisArrow, List.append_nil, List.nil_append]
  exact ⟨rfl, rfl⟩

theorem map_line_inj {boxes boxes' : List Box} (h : ∀ b ∈ boxes, b.Plain)
    (h' : ∀ b ∈ boxes', b.Plain) (heq : boxes.map Box.line = boxes'.map Box.line) :
    boxes = boxes' := by
  induction boxes generalizing boxes' with
  | nil => exact (List.map_eq_nil_iff.1 heq.symm).symm
  | cons b rest ih =>
    cases boxes' with
    | nil => cases heq
    | cons b' rest' =>
      obtain ⟨hb, hrest⟩ := List.forall_mem_cons.1 h
      obtain ⟨hb', hrest'⟩ := List.forall_mem_cons.1 h'
      obtain ⟨hline, hlines⟩ := List.cons.inj heq
      rw [Box.line_inj hb hb' hline, ih hrest hrest' hlines]

theorem newline_not_mem_lines (h : ∀ b ∈ g.boxes counts, b.Plain) :
    ∀ line ∈ (g.boxes counts).map Box.line ++ g.arrows.map arrowLine, .char '\n' ∉ line := by
  simp only [List.forall_mem_append, List.forall_mem_map]
  refine ⟨fun b hb hnew => ?_, fun e _ hnew => ?_⟩
  · exact absurd (Box.isLineChar_of_mem_line (h b hb) _ hnew) (by decide)
  · exact absurd (isNameChar_of_mem_arrowLine _ hnew) (by decide)

/-- The text of a flowchart tells its boxes and arrows. -/
theorem flowchart_inj (h : ∀ b ∈ g.boxes counts, b.Plain) (h' : ∀ b ∈ g'.boxes counts', b.Plain)
    (hroot : g.WellFormed) (hroot' : g'.WellFormed)
    (heq : g.flowchart counts direction = g'.flowchart counts' direction) :
    g.boxes counts = g'.boxes counts' ∧ g.arrows = g'.arrows := by
  have hbehind : ∀ {header : Text} {lines : List Text}, lines ≠ [] →
      Text.join "\n" (header :: lines) = header ++ "\n" ++ Text.join "\n" lines := by
    intro header lines hne
    obtain ⟨line, rest, rfl⟩ := List.exists_cons_of_ne_nil hne
    exact Text.join_cons_cons _ _ _ _
  have hsome : ∀ {g : BlockGraph} (counts), g.WellFormed →
      (g.boxes counts).map Box.line ++ g.arrows.map arrowLine ≠ [] := by
    intro g counts hg hnil
    have hnone := List.map_eq_nil_iff.1 (List.append_eq_nil_iff.1 hnil).1
    have hnode := (map_node_boxes_perm g counts).mem_iff.2 hg.root
    rw [hnone] at hnode
    cases hnode
  rw [flowchart_eq, flowchart_eq, hbehind (hsome _ hroot), hbehind (hsome _ hroot')] at heq
  have hlines : (g.boxes counts).map Box.line ++ g.arrows.map arrowLine =
      (g'.boxes counts').map Box.line ++ g'.arrows.map arrowLine := by
    rw [← List.splitOn_intercalate (.char '\n') (newline_not_mem_lines h) (hsome _ hroot),
      ← List.splitOn_intercalate (.char '\n') (newline_not_mem_lines h') (hsome _ hroot')]
    exact congrArg (List.splitOn (.char '\n')) (List.append_cancel_left heq)
  have hboxes := congrArg (List.filter fun line => line.contains '"') hlines
  have harrows := congrArg (List.filter fun line => !line.contains '"') hlines
  rw [(filter_quote _ _).1, (filter_quote _ _).1] at hboxes
  rw [(filter_quote _ _).2, (filter_quote _ _).2] at harrows
  exact ⟨map_line_inj h h' hboxes,
    List.map_injective_iff.2 (fun _ _ => arrowLine_inj) harrows⟩

/-! ### Reading a drawing -/

/-- The header starts with a letter, and all other lines with blanks. -/
theorem header_ne_spaces (rest : Text) : "flowchart " ++ direction ≠ Text.spaces 4 ++ rest := by
  intro h
  cases h

theorem not_declares_header (n : Node) : ¬ declares n ("flowchart " ++ direction) = true := by
  intro h
  obtain ⟨c, rest, -, h⟩ := declares_iff.1 h
  rw [List.append_assoc] at h
  exact header_ne_spaces _ h

/-- Every node is declared once. -/
theorem countP_declares (h : g.WellFormed) {n : Node} (hn : n ∈ g.names) :
    (("flowchart " ++ direction) :: ((g.boxes counts).map Box.line ++
      g.arrows.map arrowLine)).countP (declares n) = 1 := by
  have hboxes : (g.boxes counts).countP (declares n ∘ Box.line) = g.names.count n := by
    rw [← ((map_node_boxes_perm g counts).count_eq n), List.count, List.countP_map]
    refine List.countP_congr fun b _ => ?_
    show declares n b.line = true ↔ (b.node == n) = true
    rw [declares_line, decide_eq_true_eq, beq_iff_eq]
  have harrows : g.arrows.countP (declares n ∘ arrowLine) = 0 := by
    refine List.countP_eq_zero.2 fun e _ => ?_
    show ¬ declares n (arrowLine e) = true
    rw [declares_arrowLine]
    exact Bool.false_ne_true
  rw [List.countP_cons_of_neg (not_declares_header n), List.countP_append, List.countP_map,
    List.countP_map, hboxes, harrows]
  exact List.count_eq_one_of_mem h.names hn

/-- Every edge is drawn once. -/
theorem count_arrowLine (h : g.WellFormed) {e : Node × Node} (he : e ∈ g.edges) :
    (("flowchart " ++ direction) :: ((g.boxes counts).map Box.line ++
      g.arrows.map arrowLine)).count (arrowLine e) = 1 := by
  have hheader : "flowchart " ++ direction ≠ arrowLine e := by
    rw [arrowLine_eq, List.append_assoc, List.append_assoc]
    exact header_ne_spaces _
  have hboxes : ((g.boxes counts).map Box.line).count (arrowLine e) = 0 := by
    refine List.count_eq_zero_of_not_mem fun hmem => ?_
    obtain ⟨b, -, hline⟩ := List.mem_map.1 hmem
    exact quote_not_mem_arrowLine (hline ▸ quote_mem_line b)
  have harrows : (g.arrows.map arrowLine).count (arrowLine e) = g.arrows.count e :=
    List.count_map_of_injective _ _ (fun _ _ => arrowLine_inj) _
  rw [List.count_cons_of_ne hheader, List.count_append, hboxes, harrows, Nat.zero_add,
    (arrows_perm h).count_eq]
  exact List.count_eq_one_of_mem h.edges he

/-- Whatever reads like the line of an edge is one. -/
theorem exists_edge_of_mem_lines (h : g.WellFormed) (hplain : ∀ b ∈ g.boxes counts, b.Plain)
    {x y : Text} (hline : "    " ++ x ++ " --> " ++ y ∈ ("flowchart " ++ direction) ::
      ((g.boxes counts).map Box.line ++ g.arrows.map arrowLine)) :
    ∃ a ∈ g.names, ∃ b ∈ g.names, (a, b) ∈ g.edges ∧ x = idOf a ∧ y = idOf b := by
  rcases List.mem_cons.1 hline with hheader | hline
  · refine absurd hheader.symm ?_
    rw [List.append_assoc, List.append_assoc]
    exact header_ne_spaces _
  rcases List.mem_append.1 hline with hbox | harrow
  · obtain ⟨b, hb, hbox⟩ := List.mem_map.1 hbox
    have hpoint : .char '>' ∈ b.line := by
      rw [hbox]
      simp
    exact absurd (Box.isLineChar_of_mem_line (hplain b hb) _ hpoint) (by decide)
  · obtain ⟨⟨a, b⟩, he, harrow⟩ := List.mem_map.1 harrow
    have hedge := (mem_arrows h).1 he
    obtain ⟨ha, hb⟩ := h.ends a b hedge
    obtain ⟨hx, hy⟩ := eq_of_arrowLine_eq harrow
    exact ⟨a, ha, b, hb, hedge, hx, hy⟩

end Drawings

/-! ## The result -/

section Result

variable {t t' : Text} {ctx ctx' : Context} {o o' : Outline} {counts : List (Node × Int)}

/-- The nodes of an outline have the kinds and names of parts of templates. -/
theorem plain_boxes (h : Outline.ofText t ctx = .ok o) :
    ∀ b ∈ (ofOutline o).boxes counts, b.Plain := by
  obtain ⟨spans, -, rfl⟩ := Outline.grounded_of_ofText h
  intro b hb
  obtain ⟨⟨info, hinfo, hkind, hname⟩, -⟩ := mem_boxes.1 hb
  rcases List.mem_cons.1 hinfo with hroot | hblock
  · obtain ⟨-, rfl⟩ := Prod.mk.inj hroot
    refine ⟨.inl hkind.symm, ?_⟩
    rw [← hname]
    exact List.all_eq_true.1 rfl
  · obtain ⟨scope, hscope, heq⟩ := List.mem_map.1 hblock
    obtain ⟨s, -, -, rfl⟩ := Forest.mem_forestOf.1 hscope
    obtain ⟨-, rfl⟩ := Prod.mk.inj heq
    constructor
    · have hkeyword : Kind.ofKeyword s.opener.keyword = b.kind := hkind
      rw [← hkeyword]
      cases s.opener.keyword
      · exact .inr (.inl rfl)
      · exact .inr (.inr rfl)
    · rw [← hname]
      intro c hc
      exact List.mem_takeWhile_imp hc

theorem pairwise_id_scopes (h : Outline.ofText t ctx = .ok o) :
    o.scopes.Pairwise fun a b => a.id < b.id := by
  obtain ⟨spans, hground, rfl⟩ := Outline.grounded_of_ofText h
  rw [scopes_outlineOf, List.pairwise_map]
  exact hground.ascending.sublist List.filter_sublist

/-- What is known of a block is what its box and the arrow to it tell. -/
theorem mem_rows_iff (h : Outline.ofText t ctx = .ok o) (counts : List (Node × Int)) {id : Nat}
    {kind : Kind} {name : Text} {parent : Option Nat} :
    (id, kind, name, parent) ∈ o.scopes.map (fun s => (s.id, s.kind, s.name, s.parent)) ↔
      (∃ count, ⟨.block id, kind, name, count⟩ ∈ (ofOutline o).boxes counts) ∧
        (parent.elim .root .block, .block id) ∈ (ofOutline o).edges := by
  have hparent : ∀ s : Scope, parentNode s = s.parent.elim .root .block := by
    intro s
    unfold parentNode
    cases s.parent <;> rfl
  simp only [mem_boxes, List.mem_map]
  constructor
  · intro hrow
    obtain ⟨s, hs, heq⟩ := hrow
    simp only [Prod.mk.injEq] at heq
    obtain ⟨rfl, rfl, rfl, rfl⟩ := heq
    refine ⟨⟨_, ⟨(nodeOf s).2, List.mem_cons_of_mem _ (List.mem_map_of_mem hs), rfl, rfl⟩, rfl⟩, ?_⟩
    exact List.mem_map.2 ⟨s, hs, by rw [hparent]⟩
  · intro htold
    obtain ⟨⟨count, ⟨info, hinfo, hkind, hname⟩, -⟩, hedge⟩ := htold
    obtain ⟨s, hs, hs'⟩ := List.mem_map.1 ((List.mem_cons.1 hinfo).resolve_left (by simp))
    obtain ⟨q, hq, hq'⟩ := List.mem_map.1 hedge
    obtain ⟨hid, rfl⟩ := Prod.mk.inj hs'
    obtain ⟨hsource, htarget⟩ := Prod.mk.inj hq'
    -- The box and the arrow are of the same block.
    have hids : (o.scopes.map Scope.id).Nodup :=
      List.pairwise_map.2 ((pairwise_id_scopes h).imp Nat.ne_of_lt)
    obtain rfl : q = s := List.inj_on_of_nodup_map hids hq hs
      (Node.block.inj (htarget.trans hid.symm))
    refine ⟨q, hq, ?_⟩
    rw [hparent] at hsource
    have hparents : q.parent = parent := by
      cases hq : q.parent <;> cases parent <;> simp_all
    rw [Node.block.inj hid, hparents, ← hkind, ← hname]

end Result

/-- The text of a flowchart determines the blocks, their kinds, names and
parents, and the number of variables of every node, if it has one.  In the
lines behind the header every node is declared once and every edge drawn once,
and whatever reads like an edge joins two nodes of the graph. -/
theorem flowchart_determines {t t' : Text} {ctx ctx' : Context} {o o' : Outline}
    (h : Outline.ofText t ctx = .ok o) (h' : Outline.ofText t' ctx' = .ok o')
    (counts counts' : List (Node × Int)) (direction : Text)
    (hsame : (ofOutline o).flowchart counts direction =
      (ofOutline o').flowchart counts' direction) :
    o.scopes.map (fun s => (s.id, s.kind, s.name, s.parent)) =
      o'.scopes.map (fun s => (s.id, s.kind, s.name, s.parent)) ∧
    (∀ n ∈ (ofOutline o).names, List.lookup n counts = List.lookup n counts') ∧
    ∃ lines, (ofOutline o).flowchart counts direction =
        Text.join "\n" (("flowchart " ++ direction) :: lines) ∧
      (∀ line ∈ lines, .char '\n' ∉ line) ∧
      (∀ n ∈ (ofOutline o).names,
        (("flowchart " ++ direction) :: lines).countP (declares n) = 1) ∧
      (∀ e ∈ (ofOutline o).edges,
        (("flowchart " ++ direction) :: lines).count (arrowLine e) = 1) ∧
      ∀ x y : Text, "    " ++ x ++ " --> " ++ y ∈ ("flowchart " ++ direction) :: lines →
        ∃ a ∈ (ofOutline o).names, ∃ b ∈ (ofOutline o).names,
          (a, b) ∈ (ofOutline o).edges ∧ x = idOf a ∧ y = idOf b := by
  have hg := wellFormed_ofOutline h
  have hg' := wellFormed_ofOutline h'
  obtain ⟨hboxes, harrows⟩ := flowchart_inj (plain_boxes h) (plain_boxes h') hg hg' hsame
  refine ⟨?_, ?_, _, flowchart_eq _ _ _, newline_not_mem_lines (plain_boxes h), ?_, ?_, ?_⟩
  · have hedges : ∀ e, e ∈ (ofOutline o).edges ↔ e ∈ (ofOutline o').edges := by
      intro e
      rw [← mem_arrows hg, ← mem_arrows hg', harrows]
    refine Markup.eq_of_ascending Prod.fst (List.pairwise_map.2 (pairwise_id_scopes h))
      (List.pairwise_map.2 (pairwise_id_scopes h')) fun row => ?_
    obtain ⟨id, kind, name, parent⟩ := row
    rw [mem_rows_iff h counts, mem_rows_iff h' counts', hboxes, hedges]
  · intro n hn
    obtain ⟨b, hb, rfl⟩ := List.mem_map.1 ((map_node_boxes_perm _ counts).mem_iff.2 hn)
    rw [← (mem_boxes.1 hb).2, ← (mem_boxes.1 (hboxes ▸ hb)).2]
  · exact fun n hn => countP_declares hg hn
  · exact fun e he => count_arrowLine hg he
  · exact fun x y hline => exists_edge_of_mem_lines hg (plain_boxes h) hline

/-- What stands between the tags of a block is not drawn. -/
theorem flowchart_determines_filled_block :
    ∃ o o', Outline.ofText "<% loop $A %><% end_loop %>" Context.base = .ok o ∧
      Outline.ofText "<% loop $A %>text<% end_loop %>" Context.base = .ok o' ∧
      let counts := [(.root, 0), (.block 0, 2)]
      (ofOutline o).flowchart counts topDown = (ofOutline o').flowchart counts topDown ∧
      o.scopes.map (fun s => (s.id, s.kind, s.name, s.parent)) =
        o'.scopes.map (fun s => (s.id, s.kind, s.name, s.parent)) := by
  refine ⟨_, _, Outline.ofText_one_block, Outline.ofText_filled_block, by decide +kernel, ?_⟩
  have hdetermines := flowchart_determines Outline.ofText_one_block Outline.ofText_filled_block
    [(.root, 0), (.block 0, 2)] [(.root, 0), (.block 0, 2)] topDown (by decide +kernel)
  exact hdetermines.1

end BlockGraph

end TemplateScopes
