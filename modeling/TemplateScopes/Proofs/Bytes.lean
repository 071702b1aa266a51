import TemplateScopes.Proofs.Columns
import TemplateScopes.Proofs.Renderings
import TemplateScopes.Proofs.Wording

/-!
# Texts that have bytes

A text that is put together of others has bytes just if its parts have.  Where a
surrogate can come from is known: no name of a template has one, and JSON escapes
them.  So only the types of the variables matter to a report.

There are three groups.

* Texts.  `Text.HasBytes` says that a text has no surrogates, and the lemmas below
  it go through the ways in which lines are put together.
* JSON.  `Json.Written.hasBytes_print`: what is printed of a value has bytes.
* Reports.  `Report.hasBytes_listing_iff` asks for bytes of the types of the
  variables, and tables, outlines and flowcharts ask for nothing.
-/

namespace TemplateScopes

/-! ## Texts -/

namespace Text

/-- Whether UTF-8 has bytes for a text. -/
def HasBytes (t : Text) : Prop :=
  ∀ c ∈ t, c.isChar = true

section HasBytes

variable {t u separator : Text} {parts : List Text} {c : CodePoint}

theorem fault?_eq_none_iff_hasBytes : Utf8.fault? t = none ↔ t.HasBytes :=
  Utf8.fault?_eq_none_iff

@[simp]
theorem hasBytes_nil : HasBytes [] :=
  List.forall_mem_nil _

@[simp]
theorem hasBytes_cons : HasBytes (c :: t) ↔ c.isChar = true ∧ t.HasBytes :=
  List.forall_mem_cons

@[simp]
theorem hasBytes_append : HasBytes (t ++ u) ↔ t.HasBytes ∧ u.HasBytes :=
  List.forall_mem_append

@[simp]
theorem hasBytes_ofChars (cs : List Char) : (ofChars cs).HasBytes :=
  fun _ hc => CodePoint.isChar_eq_true_iff.2 ((mem_ofChars.1 hc).imp fun _ => And.right)

theorem hasBytes_replicate (n : Nat) (h : c.isChar = true) : HasBytes (List.replicate n c) := by
  intro d hd
  rw [List.eq_of_mem_replicate hd]
  exact h

@[simp]
theorem hasBytes_spaces (n : Nat) : (spaces n).HasBytes :=
  hasBytes_replicate n rfl

@[simp]
theorem hasBytes_ofNat (n : Nat) : (ofNat n).HasBytes :=
  hasBytes_ofChars _

@[simp]
theorem hasBytes_ofInt (n : Int) : (ofInt n).HasBytes := by
  unfold ofInt
  split
  · exact hasBytes_cons.2 ⟨rfl, hasBytes_ofNat _⟩
  · exact hasBytes_ofNat _

@[simp]
theorem hasBytes_hex (width n : Nat) : (hex width n).HasBytes :=
  hasBytes_append.2 ⟨hasBytes_replicate _ rfl, hasBytes_ofChars _⟩

@[simp]
theorem hasBytes_padRight (width : Nat) : (padRight width t).HasBytes ↔ t.HasBytes := by
  simp [padRight]

theorem hasBytes_of_printable (h : ∀ c ∈ t, isPrintable c = true) : t.HasBytes := by
  intro c hc
  have hrange := h c hc
  simp only [isPrintable, Bool.and_eq_true, decide_eq_true_eq] at hrange
  exact CodePoint.isChar_of_toNat_lt (by omega)

theorem hasBytes_join (h : separator.HasBytes) :
    (join separator parts).HasBytes ↔ ∀ part ∈ parts, part.HasBytes := by
  induction parts with
  | nil => simp [join]
  | cons part parts ih =>
    cases parts with
    | nil => simp [join_singleton]
    | cons next parts =>
      rw [join_cons_cons, hasBytes_append, hasBytes_append, ih, List.forall_mem_cons]
      simp [h]

/-- A break is no surrogate. -/
theorem isChar_of_isBreak (h : isBreak c = true) : c.isChar = true := by
  simp only [isBreak, Bool.or_eq_true, Bool.and_eq_true, decide_eq_true_eq, beq_iff_eq] at h
  exact CodePoint.isChar_of_toNat_lt (by omega)

theorem hasBytes_lines (t : Text) : (∀ line ∈ lines t, line.HasBytes) ↔ t.HasBytes := by
  fun_induction lines t with
  | case1 => simp
  | case2 rest ih => simp [ih]
  | case3 c rest _ hbreak ih => simp [ih, isChar_of_isBreak hbreak]
  | case4 c rest _ hbreak hnil ih =>
    rw [hnil] at ih
    simp [← ih]
  | case5 c rest _ hbreak line more hlines ih =>
    rw [hlines, List.forall_mem_cons] at ih
    rw [List.forall_mem_cons, hasBytes_cons, hasBytes_cons, ← ih, and_assoc]

end HasBytes

end Text

/-! ## JSON -/

namespace Json

/-- Whether a value can be written: a number that is not whole is kept as it was
read, and has to be made of characters. -/
inductive Written : Json → Prop where
  | null : Written .null
  | bool {b : Bool} : Written (.bool b)
  | int {n : Int} : Written (.int n)
  | real {t : Text} (h : t.HasBytes) : Written (.real t)
  | str {t : Text} : Written (.str t)
  | arr {items : List Json} (h : ∀ item ∈ items, Written item) : Written (.arr items)
  | obj {members : List (Text × Json)} (h : ∀ m ∈ members, Written m.2) : Written (.obj members)

section Written

variable {value : Json} {items : List Json} {members : List (Text × Json)}

theorem sortedItems_eq (items : List Json) : sortedItems items = items.map sorted := by
  induction items with
  | nil => rfl
  | cons item items ih => rw [sortedItems, ih, List.map_cons]

theorem sortedMembers_eq (members : List (Text × Json)) :
    sortedMembers members = members.map fun m => (m.1, m.2.sorted) := by
  induction members with
  | nil => rfl
  | cons m members ih => rw [sortedMembers, ih, List.map_cons]

theorem Written.sorted (h : value.Written) : value.sorted.Written := by
  induction h with
  | null => exact .null
  | bool => exact .bool
  | int => exact .int
  | real h => exact .real h
  | str => exact .str
  | arr _ ih =>
    rw [Json.sorted, sortedItems_eq]
    refine .arr fun item hitem => ?_
    obtain ⟨before, hbefore, rfl⟩ := List.mem_map.1 hitem
    exact ih before hbefore
  | obj _ ih =>
    rw [Json.sorted, sortedMembers_eq]
    refine .obj fun m hm => ?_
    obtain ⟨before, hbefore, rfl⟩ := List.mem_map.1 (List.mem_mergeSort.1 hm)
    exact ih before hbefore

@[simp]
theorem hasBytes_escapeUnit (n : Nat) : (escapeUnit n).HasBytes := by
  simp [escapeUnit]

theorem hasBytes_escapeChar (c : CodePoint) : (escapeChar c).HasBytes := by
  unfold escapeChar
  dsimp only
  split_ifs with hquoted _ _ _ _ _ hprintable
  · rcases Bool.or_eq_true_iff.1 hquoted with h | h <;> simp [of_decide_eq_true h]
  · exact Text.hasBytes_ofChars ['\\', 'n']
  · exact Text.hasBytes_ofChars ['\\', 'r']
  · exact Text.hasBytes_ofChars ['\\', 't']
  · exact Text.hasBytes_ofChars ['\\', 'b']
  · exact Text.hasBytes_ofChars ['\\', 'f']
  · exact Text.hasBytes_of_printable (List.forall_mem_singleton.2 hprintable)
  · exact hasBytes_escapeUnit _
  · exact Text.hasBytes_append.2 ⟨hasBytes_escapeUnit _, hasBytes_escapeUnit _⟩

@[simp]
theorem hasBytes_quote (t : Text) : (quote t).HasBytes := by
  have hescaped : Text.HasBytes (t.flatMap escapeChar) := by
    intro c hc
    obtain ⟨d, -, hd⟩ := List.mem_flatMap.1 hc
    exact hasBytes_escapeChar d c hd
  simp [quote, hescaped]

@[simp]
theorem hasBytes_newLine (level : Nat) : (newLine level).HasBytes := by
  simp [newLine]

theorem hasBytes_renderItems (level : Nat) (h : ∀ item ∈ items, (render level item).HasBytes) :
    (renderItems level items).HasBytes := by
  induction items with
  | nil => exact Text.hasBytes_nil
  | cons item items ih =>
    obtain ⟨hitem, hitems⟩ := List.forall_mem_cons.1 h
    simp [renderItems, hitem, ih hitems]

theorem hasBytes_renderMembers (level : Nat)
    (h : ∀ m ∈ members, (render level m.2).HasBytes) : (renderMembers level members).HasBytes := by
  induction members with
  | nil => exact Text.hasBytes_nil
  | cons m members ih =>
    obtain ⟨hm, hmembers⟩ := List.forall_mem_cons.1 h
    simp [renderMembers, hm, ih hmembers]

theorem Written.hasBytes_render (h : value.Written) (level : Nat) :
    (render level value).HasBytes := by
  induction h generalizing level with
  | null => exact Text.hasBytes_ofChars _
  | @bool b => cases b <;> exact Text.hasBytes_ofChars _
  | int => exact Text.hasBytes_ofInt _
  | real h => exact h
  | str => exact hasBytes_quote _
  | @arr items _ ih =>
    cases items with
    | nil => exact Text.hasBytes_ofChars _
    | cons item items =>
      obtain ⟨hitem, hitems⟩ := List.forall_mem_cons.1 ih
      have hrest := hasBytes_renderItems (level + 1) fun item hmem => hitems item hmem (level + 1)
      simp [render, hitem, hrest]
  | @obj members _ ih =>
    cases members with
    | nil => exact Text.hasBytes_ofChars ['{', '}']
    | cons m members =>
      obtain ⟨hm, hmembers⟩ := List.forall_mem_cons.1 ih
      have hrest := hasBytes_renderMembers (level + 1) fun m hmem => hmembers m hmem (level + 1)
      simp [render, hm, hrest]

/-- What is printed has bytes, whatever texts stand in the value. -/
theorem Written.hasBytes_print (h : value.Written) : value.print.HasBytes :=
  h.sorted.hasBytes_render 0

end Written

end Json

/-! ## Reports -/

namespace Report

section Reports

variable {ctx : Context} {facts : Facts} {title t : Text} {lines : List Text}

@[simp]
theorem hasBytes_titled : (titled title lines 0).HasBytes ↔
    title.HasBytes ∧ ∀ line ∈ lines, line.HasBytes := by
  simp [titled, shown, Text.hasBytes_join]

@[simp]
theorem hasBytes_indent (level : Int) : (indent t level).HasBytes ↔ t.HasBytes := by
  rw [← Text.hasBytes_lines t]
  simp [indent, Text.hasBytes_join]

/-- Only the types of variables may be without bytes. -/
theorem hasBytes_variableLines_iff {varTypes : OrderedMap Text} {conditions : List Text}
    (hkeys : ∀ entry ∈ varTypes, entry.1.HasBytes)
    (hconditions : ∀ label ∈ conditions, label.HasBytes) :
    (∀ line ∈ variableLines varTypes conditions, line.HasBytes) ↔
      ∀ entry ∈ varTypes, entry.2.HasBytes := by
  unfold variableLines
  split
  · rename_i hnone
    have hempty : varTypes = [] := by simpa using (Bool.and_eq_true_iff.1 hnone).1
    simp [hempty]
  · have hothers : Text.HasBytes ("  if: " ++
        Text.join ", " (conditions.filter fun name => !varTypes.has name)) := by
      refine Text.hasBytes_append.2 ⟨Text.hasBytes_ofChars _, (Text.hasBytes_join ?_).2 ?_⟩
      · exact Text.hasBytes_ofChars _
      · exact fun label hlabel => hconditions label (List.mem_filter.1 hlabel).1
    have hlines : (∀ line ∈ varTypes.map fun entry =>
          "  $" ++ Text.padRight (maxLength varTypes.keys) entry.1 ++ "  " ++ entry.2,
          Text.HasBytes line) ↔ ∀ entry ∈ varTypes, entry.2.HasBytes := by
      rw [List.forall_mem_map]
      refine forall₂_congr fun entry hentry => ?_
      simp [hkeys entry hentry]
    dsimp only
    split
    · exact hlines
    · rw [List.forall_mem_append, hlines, List.forall_mem_singleton]
      exact and_iff_left hothers

theorem hasBytes_ownLines_iff (h : facts.Worded ctx) :
    (∀ line ∈ ownLines facts, line.HasBytes) ↔ ∀ entry ∈ facts.varTypes, entry.2.HasBytes := by
  have hkind := Text.hasBytes_of_printable h.kind
  have hname := Text.hasBytes_of_printable h.name
  rw [ownLines, List.forall_mem_cons, hasBytes_variableLines_iff
    (fun entry hentry => Text.hasBytes_of_printable (h.keys entry hentry))
    (fun label hlabel => Text.hasBytes_of_printable (h.conditions label hlabel))]
  simp [headerLine, hkind, hname]

mutual

/-- A listing has bytes just if the lines of all scopes in it have. -/
theorem hasBytes_listing_iff : ∀ s : Summary, (listing s).HasBytes ↔
    ∀ facts ∈ s.preorder, ∀ line ∈ ownLines facts, line.HasBytes
  | ⟨facts, children⟩ => by
    rw [listing, Text.hasBytes_join (Text.hasBytes_ofChars _), List.forall_mem_append,
      hasBytes_childListings_iff children, Summary.preorder, List.forall_mem_cons]

theorem hasBytes_childListings_iff : ∀ l : List Summary,
    (∀ t ∈ childListings l, t.HasBytes) ↔
      ∀ facts ∈ Summary.preorderAll l, ∀ line ∈ ownLines facts, line.HasBytes
  | [] => by simp [childListings, Summary.preorderAll]
  | child :: rest => by
    rw [childListings, List.forall_mem_cons, hasBytes_indent, hasBytes_listing_iff child,
      hasBytes_childListings_iff rest, Summary.preorderAll, List.forall_mem_append]

end

end Reports

end Report

namespace Table

section Tables

variable {headers : List Text} {rows : List (List TableCell)}

theorem hasBytes_joined {widths : List Nat} {cells : List Text}
    (h : ∀ cell ∈ cells, cell.HasBytes) : (joined widths cells).HasBytes := by
  refine (Text.hasBytes_join (Text.hasBytes_ofChars _)).2 ?_
  induction widths generalizing cells with
  | nil => simp
  | cons width widths ih =>
    cases cells with
    | nil => simp
    | cons cell cells =>
      obtain ⟨hcell, hcells⟩ := List.forall_mem_cons.1 h
      rw [List.zipWith_cons_cons, List.forall_mem_cons]
      exact ⟨(Text.hasBytes_padRight width).2 hcell, ih hcells⟩

/-- A table has bytes if its headers and cells have. -/
theorem hasBytes_render (hheaders : ∀ header ∈ headers, header.HasBytes)
    (hcells : ∀ row ∈ texts rows, ∀ cell ∈ row, cell.HasBytes)
    (hfits : ∀ row ∈ rows, row.length = headers.length) :
    ∃ t, render headers rows 0 = .ok t ∧ t.HasBytes := by
  by_cases hrows : rows = []
  · subst hrows
    exact ⟨_, rfl, Text.hasBytes_ofChars _⟩
  · have hlines : lines (columnWidths headers (texts rows)) (texts rows) =
        .ok ((texts rows).map (joined (columnWidths headers (texts rows)))) := by
      refine lines_eq_ok fun row hrow => ?_
      obtain ⟨cells, hcells, rfl⟩ := List.mem_map.1 hrow
      rw [length_columnWidths, List.length_map, hfits cells hcells]
    rw [render_eq hrows]
    simp only [Report.shown, ne_eq, not_true_eq_false, false_and, if_false, hlines]
    refine ⟨_, rfl, ?_⟩
    rw [Text.hasBytes_join (Text.hasBytes_ofChars _), moreLines, List.append_nil,
      List.forall_mem_cons, List.forall_mem_cons, Text.hasBytes_join (Text.hasBytes_ofChars _),
      List.forall_mem_map, List.forall_mem_map]
    exact ⟨hasBytes_joined hheaders, fun width _ => Text.hasBytes_replicate width rfl,
      fun row hrow => hasBytes_joined (hcells row hrow)⟩

theorem hasBytes_renderCompact (hheaders : ∀ header ∈ headers, header.HasBytes)
    (hcells : ∀ row ∈ texts rows, ∀ cell ∈ row, cell.HasBytes) :
    (renderCompact headers rows 0).HasBytes := by
  unfold renderCompact
  split
  · exact Text.hasBytes_ofChars _
  · have htab := Text.hasBytes_ofChars "\t".toList
    simp only [Report.shown, ne_eq, not_true_eq_false, false_and, if_false, moreLines]
    rw [Text.hasBytes_join (Text.hasBytes_ofChars _), List.append_nil, List.forall_mem_cons,
      List.forall_mem_map, Text.hasBytes_join htab]
    exact ⟨hheaders, fun row hrow => (Text.hasBytes_join htab).2
      (hcells _ (List.mem_map_of_mem hrow))⟩

end Tables

end Table

namespace BlockGraph

section Drawings

variable {t direction : Text} {ctx : Context} {o : Outline}

theorem Box.isPrintable_of_isLineChar {c : CodePoint} (h : isLineChar c = true) :
    Text.isPrintable c = true := by
  have hmarks : ∀ c ∈ (" ()-" ++ "[]\"" : Text), Text.isPrintable c = true :=
    List.all_eq_true.1 rfl
  simp only [isLineChar, isLabelChar, Bool.or_eq_true, List.contains_iff_mem] at h
  rcases h with (h | h) | h
  · exact isPrintable_of_isNameChar h
  · exact hmarks c (List.mem_append_left _ h)
  · exact hmarks c (List.mem_append_right _ h)

/-- The flowchart of a template has bytes. -/
theorem hasBytes_flowchart (h : Outline.ofText t ctx = .ok o) (counts : List (Node × Int))
    (hdirection : direction.HasBytes) :
    ((ofOutline o).flowchart counts direction).HasBytes := by
  rw [flowchart_eq, Text.hasBytes_join (Text.hasBytes_ofChars _), List.forall_mem_cons,
    List.forall_mem_append, List.forall_mem_map, List.forall_mem_map]
  refine ⟨Text.hasBytes_append.2 ⟨Text.hasBytes_ofChars _, hdirection⟩, ?_, ?_⟩
  · intro b hb
    exact Text.hasBytes_of_printable fun c hc =>
      Box.isPrintable_of_isLineChar (Box.isLineChar_of_mem_line (plain_boxes h b hb) c hc)
  · intro e _
    refine Text.hasBytes_of_printable fun c hc => ?_
    rcases Bool.or_eq_true_iff.1 (isNameChar_of_mem_arrowLine c hc) with hname | hmark
    · exact isPrintable_of_isNameChar hname
    · exact List.all_eq_true.1 rfl c (List.contains_iff_mem.1 hmark)

/-- The lines of the outline of a template have bytes. -/
theorem hasBytes_outline (h : Outline.ofText t ctx = .ok o) :
    ∀ line ∈ (ofOutline o).outline, line.HasBytes := by
  have hworded := fun s hs => Outline.worded_facts h (s := s) (List.mem_cons_of_mem _ hs)
  obtain ⟨spans, hground, rfl⟩ := Outline.grounded_of_ofText h
  rw [outline_ofOutline hground]
  intro line hline
  obtain ⟨s, hs, rfl⟩ := List.mem_map.1 hline
  have hkind : s.kind.abbrev.HasBytes := Text.hasBytes_of_printable (hworded s hs).kind
  have hname : s.name.HasBytes := Text.hasBytes_of_printable (hworded s hs).name
  show Text.HasBytes (Text.spaces _ ++ s.kind.abbrev ++ " " ++ s.name ++ "  @" ++ Text.ofNat s.id)
  simp [hkind, hname]

end Drawings

end BlockGraph

end TemplateScopes
