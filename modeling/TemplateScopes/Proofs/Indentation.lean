import Mathlib.Data.List.Basic
import TemplateScopes.Report.Lines

/-!
# Indented listings

A scope is listed with everything inside it.  What stands inside is written
first, then read line by line, and each line is shifted to the right, once for
every scope around it.  All this comes to one line after the other with as many
blanks as it is deep.

There are three groups.

* Lines.  `Text.lines_join` says that lines which were joined are read again, and
  `join_map_join` that joining in two steps is joining in one.
* Depths.  `Summary.withDepth` goes through a scope and those inside it and counts
  how deep each of them is.
* Listings.  `Report.listing_eq` and `Report.childListings_eq` are the listings by
  depth.
-/

namespace TemplateScopes

/-! ## Lines -/

namespace Text

/-- Whether a text is one line: it is not empty, and no break stands in it. -/
structure IsLine (t : Text) : Prop where
  ne_nil : t ≠ []
  unbroken : ∀ c ∈ t, isBreak c = false

section Lines

variable {t rest separator : Text} {ls more : List Text} {parts : List (List Text)}

theorem isBreak_return : isBreak '\r' = true := by decide

theorem lines_newline (rest : Text) : lines (.char '\n' :: rest) = [] :: lines rest := by
  simp [lines, show isBreak '\n' = true by decide]

/-- A character that is no break belongs to the first line. -/
theorem lines_cons {c : CodePoint} (h : isBreak c = false) (t : Text) :
    lines (c :: t) = match lines t with
      | [] => [[c]]
      | line :: more => (c :: line) :: more := by
  have hreturn : c ≠ .char '\r' := by
    rintro rfl
    rw [isBreak_return] at h
    cases h
  rw [lines, h]
  · rfl
  · intro rest hc
    exact absurd hc hreturn

theorem lines_append_newline (h : ∀ c ∈ t, isBreak c = false) (rest : Text) :
    lines (t ++ .char '\n' :: rest) = t :: lines rest := by
  induction t with
  | nil => exact lines_newline rest
  | cons c t ih =>
    obtain ⟨hc, ht⟩ := List.forall_mem_cons.1 h
    rw [List.cons_append, lines_cons hc, ih ht]

theorem IsLine.lines_eq (h : t.IsLine) : lines t = [t] := by
  obtain ⟨hne, hbreak⟩ := h
  induction t with
  | nil => exact absurd rfl hne
  | cons c t ih =>
    obtain ⟨hc, ht⟩ := List.forall_mem_cons.1 hbreak
    rw [lines_cons hc]
    cases t with
    | nil => rfl
    | cons d t => rw [ih (List.cons_ne_nil d t) ht]

theorem join_newline (line next : Text) (ls : List Text) :
    join "\n" (line :: next :: ls) = line ++ .char '\n' :: join "\n" (next :: ls) := by
  rw [join_cons_cons, List.append_assoc]
  rfl

/-- Lines that were joined are read again as they are. -/
theorem lines_join (h : ∀ line ∈ ls, IsLine line) : lines (join "\n" ls) = ls := by
  induction ls with
  | nil => rfl
  | cons line ls ih =>
    obtain ⟨hline, hls⟩ := List.forall_mem_cons.1 h
    cases ls with
    | nil => rw [join_singleton, hline.lines_eq]
    | cons next ls => rw [join_newline, lines_append_newline hline.unbroken, ih hls]

theorem join_append (hls : ls ≠ []) (hmore : more ≠ []) :
    join separator (ls ++ more) = join separator ls ++ separator ++ join separator more := by
  induction ls with
  | nil => exact absurd rfl hls
  | cons line ls ih =>
    cases ls with
    | nil =>
      obtain ⟨next, more, rfl⟩ := List.exists_cons_of_ne_nil hmore
      rw [List.singleton_append, join_cons_cons, join_singleton]
    | cons next ls =>
      rw [List.cons_append, List.cons_append, join_cons_cons, ← List.cons_append,
        ih (List.cons_ne_nil _ _), join_cons_cons]
      simp only [List.append_assoc]

/-- Joining parts that were joined themselves is joining all at once. -/
theorem join_map_join (h : ∀ part ∈ parts, part ≠ []) :
    join separator (parts.map (join separator)) = join separator parts.flatten := by
  induction parts with
  | nil => rfl
  | cons part parts ih =>
    obtain ⟨hpart, hparts⟩ := List.forall_mem_cons.1 h
    cases parts with
    | nil => rw [List.map_singleton, join_singleton, List.flatten_singleton]
    | cons next parts =>
      have hrest : (next :: parts).flatten ≠ [] := by
        rw [List.flatten_cons]
        exact List.append_ne_nil_of_left_ne_nil (List.forall_mem_cons.1 hparts).1 _
      rw [List.map_cons, List.map_cons, join_cons_cons, ← List.map_cons, ih hparts,
        ← join_append hpart hrest, ← List.flatten_cons]

/-- Only the parts behind some lines were joined before. -/
theorem join_append_map_join (h : ∀ part ∈ parts, part ≠ []) :
    join separator (ls ++ parts.map (join separator)) = join separator (ls ++ parts.flatten) := by
  have hsingle : ls = (ls.map fun line => [line]).map (join separator) := by
    rw [List.map_map]
    exact (List.map_id'' (fun line => join_singleton separator line) ls).symm
  have hflat : ls ++ parts.flatten = ((ls.map fun line => [line]) ++ parts).flatten := by
    rw [List.flatten_append, ← List.flatMap_def, List.flatMap_singleton' ls]
  rw [hflat, ← join_map_join, List.map_append, ← hsingle]
  intro part hpart
  rcases List.mem_append.1 hpart with hpart | hpart
  · obtain ⟨line, -, rfl⟩ := List.mem_map.1 hpart
    exact List.cons_ne_nil _ _
  · exact h part hpart

theorem spaces_append (m n : Nat) : spaces m ++ spaces n = spaces (m + n) :=
  List.replicate_append_replicate

end Lines

end Text

/-! ## Depths -/

namespace Summary

mutual

/-- What was found out about a scope and then about those inside it, each with
its depth, which is given for the scope itself. -/
def withDepth (depth : Nat) : Summary → List (Nat × Facts)
  | ⟨facts, children⟩ => (depth, facts) :: withDepthAll (depth + 1) children

/-- The same for several scopes of one depth. -/
def withDepthAll (depth : Nat) : List Summary → List (Nat × Facts)
  | [] => []
  | s :: rest => withDepth depth s ++ withDepthAll depth rest

end

theorem withDepthAll_eq (depth : Nat) (l : List Summary) :
    withDepthAll depth l = l.flatMap (withDepth depth) := by
  induction l with
  | nil => rfl
  | cons s rest ih => rw [withDepthAll, ih, List.flatMap_cons]

/-- An entry one level deeper. -/
def deeper (entry : Nat × Facts) : Nat × Facts :=
  (entry.1 + 1, entry.2)

mutual

theorem withDepth_succ (depth : Nat) : ∀ s : Summary,
    withDepth (depth + 1) s = (withDepth depth s).map deeper
  | ⟨facts, children⟩ => by
    rw [withDepth, withDepth, List.map_cons, withDepthAll_succ (depth + 1) children]
    rfl

theorem withDepthAll_succ (depth : Nat) : ∀ l : List Summary,
    withDepthAll (depth + 1) l = (withDepthAll depth l).map deeper
  | [] => rfl
  | s :: rest => by
    rw [withDepthAll, withDepthAll, List.map_append, withDepth_succ depth s,
      withDepthAll_succ depth rest]

end

end Summary

/-! ## Listings -/

namespace Report

/-- The lines of a scope itself, shifted to the right by two blanks for each
level. -/
def shiftedLines (entry : Nat × Facts) : List Text :=
  (ownLines entry.2).map (Text.spaces (2 * entry.1) ++ ·)

/-- Whether each line of a scope is one line. -/
def InLines (facts : Facts) : Prop :=
  ∀ line ∈ ownLines facts, line.IsLine

section Listings

variable {facts : Facts} {depth : Nat} {entries : List (Nat × Facts)}

theorem shiftedLines_zero (facts : Facts) : shiftedLines (0, facts) = ownLines facts :=
  List.map_id _

theorem shiftedLines_deeper (entry : Nat × Facts) :
    (shiftedLines entry).map (Text.spaces 2 ++ ·) = shiftedLines (Summary.deeper entry) := by
  unfold shiftedLines Summary.deeper
  rw [List.map_map]
  refine List.map_congr_left fun line _ => ?_
  show Text.spaces 2 ++ (Text.spaces (2 * entry.1) ++ line) = _
  rw [← List.append_assoc, Text.spaces_append, Nat.mul_succ, Nat.add_comm]

theorem InLines.shiftedLines (h : InLines facts) :
    ∀ line ∈ shiftedLines (depth, facts), line.IsLine := by
  intro line hline
  obtain ⟨own, hown, rfl⟩ := List.mem_map.1 hline
  obtain ⟨hne, hbreak⟩ := h own hown
  refine ⟨List.append_ne_nil_of_right_ne_nil _ hne, fun c hc => ?_⟩
  rcases List.mem_append.1 hc with hc | hc
  · rw [List.eq_of_mem_replicate hc]
    decide
  · exact hbreak c hc

theorem isLine_of_mem_flatMap (h : ∀ entry ∈ entries, InLines entry.2) {line : Text}
    (hline : line ∈ entries.flatMap shiftedLines) : line.IsLine := by
  obtain ⟨entry, hentry, hline⟩ := List.mem_flatMap.1 hline
  exact (h entry hentry).shiftedLines line hline

/-- Lines that are joined are shifted one by one. -/
theorem indent_join (h : ∀ entry ∈ entries, InLines entry.2) :
    indent (Text.join "\n" (entries.flatMap shiftedLines)) 1 =
      Text.join "\n" ((entries.map Summary.deeper).flatMap shiftedLines) := by
  unfold indent
  rw [Text.lines_join fun _ => isLine_of_mem_flatMap h, List.map_flatMap, List.flatMap_map]
  congr 1
  exact List.flatMap_congr fun entry _ => shiftedLines_deeper entry

/-- The lines of a scope and of those inside it, as many levels down as the depth
says. -/
def linesFrom (depth : Nat) (s : Summary) : List Text :=
  (s.withDepth depth).flatMap shiftedLines

theorem linesFrom_ne_nil (depth : Nat) (s : Summary) : linesFrom depth s ≠ [] := by
  obtain ⟨facts, children⟩ := s
  rw [linesFrom, Summary.withDepth, List.flatMap_cons]
  exact List.append_ne_nil_of_left_ne_nil (List.cons_ne_nil _ _) _

theorem ne_nil_of_mem_map_linesFrom {l : List Summary} {part : List Text}
    (h : part ∈ l.map (linesFrom depth)) : part ≠ [] := by
  obtain ⟨s, -, rfl⟩ := List.mem_map.1 h
  exact linesFrom_ne_nil depth s

theorem flatten_map_linesFrom (depth : Nat) (l : List Summary) :
    (l.map (linesFrom depth)).flatten = (Summary.withDepthAll depth l).flatMap shiftedLines := by
  rw [← List.flatMap_def, Summary.withDepthAll_eq, List.flatMap_assoc]
  rfl

mutual

/-- A scope is listed as its lines and those of the scopes inside it, each with
the blanks of its depth. -/
theorem listing_eq : ∀ s : Summary, (∀ entry ∈ s.withDepth 0, InLines entry.2) →
    listing s = Text.join "\n" (linesFrom 0 s)
  | ⟨facts, children⟩, h => by
    rw [Summary.withDepth, List.forall_mem_cons] at h
    have hflat : ownLines facts ++ (children.map (linesFrom 1)).flatten =
        linesFrom 0 ⟨facts, children⟩ := by
      rw [flatten_map_linesFrom, linesFrom, Summary.withDepth, List.flatMap_cons,
        shiftedLines_zero]
    rw [listing, childListings_eq children h.2,
      Text.join_append_map_join fun part => ne_nil_of_mem_map_linesFrom, hflat]

/-- The scopes inside a scope are listed one level deeper. -/
theorem childListings_eq : ∀ l : List Summary,
    (∀ entry ∈ Summary.withDepthAll 1 l, InLines entry.2) →
    childListings l = (l.map (linesFrom 1)).map (Text.join "\n")
  | [], _ => rfl
  | s :: rest, h => by
    rw [Summary.withDepthAll, List.forall_mem_append] at h
    have hinside : ∀ entry ∈ s.withDepth 0, InLines entry.2 := by
      intro entry hentry
      have hdeeper : Summary.deeper entry ∈ s.withDepth 1 := by
        rw [Summary.withDepth_succ 0 s]
        exact List.mem_map_of_mem hentry
      exact h.1 (Summary.deeper entry) hdeeper
    have hfirst : indent (listing s) 1 = Text.join "\n" (linesFrom 1 s) := by
      rw [listing_eq s hinside, linesFrom, indent_join hinside, ← Summary.withDepth_succ 0 s]
      rfl
    rw [childListings, hfirst, childListings_eq rest h.2]
    rfl

end

end Listings

end Report

end TemplateScopes
