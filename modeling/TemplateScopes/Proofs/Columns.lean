import Mathlib.Algebra.GroupWithZero.Nat
import Mathlib.Data.List.Forall2
import Mathlib.Data.List.Induction
import Mathlib.Order.Bounds.Basic
import TemplateScopes.Report.Table

/-!
# Columns of tables

The widths of a table are found in one pass over all of its rows, and its lines
are written in another pass over those that the budget allows.  Each line that
is written has its cells at the same offsets.

There are four groups.

* Widths.  `isGreatest_columnWidths` says that a column is as wide as its widest
  entry.
* Lines.  `Aligned` says where the cells of a line stand, and `aligned_joined`
  that cells which fit their columns stand there.
* Budgets.  `shown_natCast` counts what is shown and what is not.
* Tables.  `Sheet` takes a written table apart, and `render_aligns` is the main
  result.
-/

namespace TemplateScopes

namespace Table

/-! ## Widths -/

section Widths

variable {headers cells : List Text} {rows : List (List Text)} {row : List Text}
  {widths : List Nat} {k width : Nat}

/-- The entries of a column, with its header in front. -/
def column (headers : List Text) (rows : List (List Text)) (k : Nat) : List Text :=
  (headers :: rows).filterMap fun row => row[k]?

theorem length_widen (widths : List Nat) (cells : List Text) :
    (widen widths cells).length = widths.length := by
  fun_induction widen widths cells with
  | case1 width widths cell cells ih => rw [List.length_cons, ih, List.length_cons]
  | case2 => rfl

/-- A row widens each column for which it has a cell. -/
theorem getElem?_widen (h : widths[k]? = some width) :
    (widen widths cells)[k]? = some (match cells[k]? with
      | some cell => max width cell.length
      | none => width) := by
  induction k generalizing widths cells with
  | zero =>
    cases widths with
    | nil => cases h
    | cons first widths =>
      obtain rfl : first = width := Option.some.inj h
      cases cells <;> rfl
  | succ k ih =>
    cases widths with
    | nil => cases h
    | cons first widths =>
      cases cells with
      | nil => exact h
      | cons cell cells => exact ih h

theorem columnWidths_concat (headers : List Text) (rows : List (List Text)) (row : List Text) :
    columnWidths headers (rows ++ [row]) = widen (columnWidths headers rows) row := by
  unfold columnWidths
  rw [List.foldl_append]
  rfl

theorem length_columnWidths (headers : List Text) (rows : List (List Text)) :
    (columnWidths headers rows).length = headers.length := by
  induction rows using List.reverseRecOn with
  | nil => exact List.length_map ..
  | append_singleton rows row ih => rw [columnWidths_concat, length_widen, ih]

theorem column_concat :
    column headers (rows ++ [row]) k = column headers rows k ++ row[k]?.toList := by
  unfold column
  rw [← List.cons_append, List.filterMap_append]
  cases h : row[k]? <;> simp [h]

/-- A column is as wide as its widest entry. -/
theorem isGreatest_columnWidths (h : (columnWidths headers rows)[k]? = some width) :
    IsGreatest {n | ∃ cell ∈ column headers rows k, n = cell.length} width := by
  -- One more row adds at most one entry to the column.
  induction rows using List.reverseRecOn generalizing width with
  | nil =>
    obtain ⟨header, hheader, rfl⟩ :
        ∃ header, headers[k]? = some header ∧ header.length = width := by
      simpa [columnWidths] using h
    have hcolumn : column headers [] k = [header] := by simp [column, hheader]
    rw [hcolumn]
    simp
  | append_singleton rows row ih =>
    obtain ⟨old, hold⟩ : ∃ old, (columnWidths headers rows)[k]? = some old := by
      obtain ⟨hk, -⟩ := List.getElem?_eq_some_iff.1 h
      rw [length_columnWidths, ← length_columnWidths headers rows] at hk
      exact ⟨_, List.getElem?_eq_getElem hk⟩
    obtain ⟨⟨widest, hwidest, hlength⟩, hbound⟩ := ih hold
    rw [columnWidths_concat, getElem?_widen hold, Option.some.injEq] at h
    rw [column_concat]
    cases hcell : row[k]? with
    | none =>
      obtain rfl : old = width := by simpa [hcell] using h
      rw [Option.toList_none, List.append_nil]
      exact ⟨⟨widest, hwidest, hlength⟩, hbound⟩
    | some cell =>
      obtain rfl : max old cell.length = width := by simpa [hcell] using h
      rw [Option.toList_some]
      constructor
      · rcases Nat.le_total old cell.length with hle | hle
        · exact ⟨cell, by simp, Nat.max_eq_right hle⟩
        · exact ⟨widest, by simp [hwidest], by rw [Nat.max_eq_left hle, hlength]⟩
      · rintro n ⟨entry, hentry, rfl⟩
        rcases List.mem_append.1 hentry with hentry | hentry
        · exact Nat.le_trans (hbound ⟨entry, hentry, rfl⟩) (Nat.le_max_left ..)
        · obtain rfl := List.mem_singleton.1 hentry
          exact Nat.le_max_right ..

/-- Every cell that has a column fits into it. -/
theorem length_le_of_getElem? {cell : Text} (hrow : row ∈ headers :: rows)
    (hcell : row[k]? = some cell) (h : (columnWidths headers rows)[k]? = some width) :
    cell.length ≤ width :=
  (isGreatest_columnWidths h).2 ⟨cell, List.mem_filterMap.2 ⟨row, hrow, hcell⟩, rfl⟩

end Widths

/-! ## Lines -/

/-- The cells side by side, each filled up to its width, with two blanks between
them. -/
def joined (widths : List Nat) (cells : List Text) : Text :=
  Text.join "  " (List.zipWith Text.padRight widths cells)

/-- The offset at which a column starts.  Each column in front of it takes its
width and two blanks more. -/
def columnStart (widths : List Nat) (i : Nat) : Nat :=
  ((widths.take i).map (· + 2)).sum

/-- Whether the cells of a line stand where their columns start, with nothing but
blanks around them. -/
structure Aligned (widths : List Nat) (cells : List Text) (text : Text) : Prop where
  stands : ∀ i cell, cells[i]? = some cell →
    ∃ before after, text = before ++ cell ++ after ∧ before.length = columnStart widths i
  blank : ∀ p c, text[p]? = some c →
    (∀ i cell, cells[i]? = some cell →
      p < columnStart widths i ∨ columnStart widths i + cell.length ≤ p) →
    c = .char ' '

section Lines

variable {cells : List Text} {cell line : Text} {rows : List (List Text)} {widths : List Nat}
  {i p width : Nat} {c : CodePoint}

theorem fill_eq_ok (h : cells.length ≤ widths.length) :
    fill widths cells = .ok (List.zipWith Text.padRight widths cells) := by
  fun_induction fill widths cells with
  | case1 => rw [List.zipWith_nil_right]
  | case2 => exact absurd h (by simp)
  | case3 width widths cell cells ih =>
    rw [ih (Nat.le_of_succ_le_succ h)]
    rfl

theorem fill_eq_error (h : widths.length < cells.length) :
    fill widths cells = .error .rowTooLong := by
  fun_induction fill widths cells with
  | case1 => exact absurd h (Nat.not_lt_zero _)
  | case2 => rfl
  | case3 width widths cell cells ih =>
    rw [ih (Nat.lt_of_succ_lt_succ h)]
    rfl

theorem line_eq_ok (h : cells.length ≤ widths.length) :
    Table.line widths cells = .ok (joined widths cells) := by
  unfold Table.line
  rw [fill_eq_ok h]
  rfl

theorem line_eq_error (h : widths.length < cells.length) :
    Table.line widths cells = .error .rowTooLong := by
  unfold Table.line
  rw [fill_eq_error h]
  rfl

theorem lines_eq_ok (h : ∀ row ∈ rows, row.length ≤ widths.length) :
    lines widths rows = .ok (rows.map (joined widths)) := by
  induction rows with
  | nil => rfl
  | cons row rows ih =>
    obtain ⟨hrow, hrows⟩ := List.forall_mem_cons.1 h
    rw [lines, line_eq_ok hrow, ih hrows]
    rfl

theorem lines_eq_error (h : ∃ row ∈ rows, widths.length < row.length) :
    lines widths rows = .error .rowTooLong := by
  induction rows with
  | nil => obtain ⟨row, hrow, -⟩ := h; cases hrow
  | cons row rows ih =>
    rw [lines]
    rcases Nat.lt_or_ge widths.length row.length with hlong | hfits
    · rw [line_eq_error hlong]
      rfl
    · obtain ⟨other, hother, hlong⟩ := h
      have hrest : other ∈ rows := by
        rcases List.mem_cons.1 hother with rfl | hrest
        · omega
        · exact hrest
      rw [line_eq_ok hfits, ih ⟨other, hrest, hlong⟩]
      rfl

theorem columnStart_zero (widths : List Nat) : columnStart widths 0 = 0 := rfl

theorem columnStart_cons_succ :
    columnStart (width :: widths) (i + 1) = width + 2 + columnStart widths i := by
  simp [columnStart]

theorem eq_blank_of_padRight (h : cell.length ≤ p) (hc : (Text.padRight width cell)[p]? = some c) :
    c = .char ' ' := by
  unfold Text.padRight Text.spaces at hc
  rw [List.getElem?_append_right h] at hc
  exact List.eq_of_mem_replicate (List.mem_of_getElem? hc)

/-- A line of one cell. -/
theorem aligned_padRight (width : Nat) (cell : Text) :
    Aligned (width :: widths) [cell] (Text.padRight width cell) := by
  constructor
  · intro i other hother
    cases i with
    | zero =>
      obtain rfl : cell = other := Option.some.inj hother
      exact ⟨[], _, rfl, rfl⟩
    | succ i => cases hother
  · intro p c hc haround
    refine eq_blank_of_padRight ?_ hc
    have haside := haround 0 cell rfl
    rw [columnStart_zero] at haside
    omega

/-- A further cell in front moves a line to the right by the width of the cell's
column and two blanks. -/
theorem Aligned.cons (h : Aligned widths cells line) (hfits : cell.length ≤ width) :
    Aligned (width :: widths) (cell :: cells) (Text.padRight width cell ++ "  " ++ line) := by
  have hfront : (Text.padRight width cell ++ "  ").length = width + 2 := by
    rw [List.length_append, Text.length_padRight, Nat.max_eq_left hfits]
    rfl
  constructor
  · intro i other hother
    cases i with
    | zero =>
      obtain rfl : cell = other := Option.some.inj hother
      exact ⟨[], Text.spaces (width - cell.length) ++ ("  " ++ line), by simp [Text.padRight], rfl⟩
    | succ i =>
      obtain ⟨before, after, rfl, hbefore⟩ := h.stands i other hother
      refine ⟨Text.padRight width cell ++ "  " ++ before, after, by simp, ?_⟩
      rw [List.length_append, hfront, hbefore, columnStart_cons_succ]
  · intro p c hc haround
    rcases Nat.lt_or_ge p (width + 2) with hp | hp
    · rw [List.getElem?_append_left (by omega)] at hc
      have haside := haround 0 cell rfl
      rw [columnStart_zero] at haside
      unfold Text.padRight Text.spaces at hc
      rw [List.append_assoc, List.getElem?_append_right (by omega)] at hc
      rcases List.mem_append.1 (List.mem_of_getElem? hc) with hmem | hmem
      · exact List.eq_of_mem_replicate hmem
      · simpa using hmem
    · rw [List.getElem?_append_right (by omega), hfront] at hc
      refine h.blank _ c hc fun i other hother => ?_
      have haside := haround (i + 1) other hother
      rw [columnStart_cons_succ] at haside
      omega

/-- Cells that fit their columns stand where these start. -/
theorem aligned_joined (hlength : cells.length ≤ widths.length)
    (hfits : ∀ (i : Nat) (cell : Text) (width : Nat), cells[i]? = some cell →
      widths[i]? = some width → cell.length ≤ width) :
    Aligned widths cells (joined widths cells) := by
  induction cells generalizing widths with
  | nil =>
    constructor
    · intro i cell hcell
      cases hcell
    · intro p c hc
      rw [joined, List.zipWith_nil_right] at hc
      cases hc
  | cons cell cells ih =>
    cases widths with
    | nil => exact absurd hlength (by simp)
    | cons width widths =>
      have hfirst : cell.length ≤ width := hfits 0 cell width rfl rfl
      have hrest := ih (Nat.le_of_succ_le_succ hlength) fun i => hfits (i + 1)
      cases cells with
      | nil =>
        rw [joined, List.zipWith_cons_cons, List.zipWith_nil_right, Text.join_singleton]
        exact aligned_padRight width cell
      | cons next cells =>
        cases widths with
        | nil => exact absurd hlength (by simp)
        | cons second widths =>
          have hline : joined (width :: second :: widths) (cell :: next :: cells) =
              Text.padRight width cell ++ "  " ++ joined (second :: widths) (next :: cells) :=
            Text.join_cons_cons ..
          rw [hline]
          exact hrest.cons hfirst

end Lines

/-! ## Budgets -/

/-- The entries that are displayed: all of them if there is no budget, and else as
many as it allows. -/
def displayed {α : Type} (budget : Nat) (entries : List α) : List α :=
  if budget = 0 then entries else entries.take budget

theorem mem_of_mem_displayed {α : Type} {budget : Nat} {entry : α} {entries : List α}
    (h : entry ∈ displayed budget entries) : entry ∈ entries := by
  unfold displayed at h
  split at h
  · exact h
  · exact List.mem_of_mem_take h

/-- What is displayed and what is announced are all entries. -/
theorem shown_natCast {α : Type} (budget : Nat) (entries : List α) :
    ∃ hidden : Nat, (displayed budget entries).length + hidden = entries.length ∧
      Report.shown budget entries =
        (displayed budget entries, if hidden = 0 then none else some (hidden : Int)) := by
  unfold Report.shown displayed
  by_cases hover : budget ≠ 0 ∧ budget < entries.length
  · obtain ⟨hbudget, hlength⟩ := hover
    refine ⟨entries.length - budget, ?_, ?_⟩
    · rw [if_neg hbudget, List.length_take]
      omega
    · have hwithin : Report.within (budget : Int) entries = entries.take budget :=
        if_pos (Int.natCast_nonneg budget)
      rw [if_pos (by omega), if_neg hbudget, if_neg (by omega), hwithin]
      congr
      omega
  · refine ⟨0, ?_, ?_⟩
    · split
      · rfl
      · rw [List.length_take]
        omega
    · rw [if_neg (by omega), if_pos rfl]
      split
      · rfl
      · rw [List.take_of_length_le (by omega)]

/-! ## Tables -/

/-- The lines of a written table, the widths of its columns, and how many rows it
does not show. -/
structure Sheet where
  widths : List Nat
  header : Text
  ruler : Text
  body : List Text
  hidden : Nat

namespace Sheet

/-- The text of the table. -/
def text (s : Sheet) : Text :=
  let tail : List Text :=
    if s.hidden = 0 then [] else ["(+" ++ Text.ofNat s.hidden ++ " more)"]
  Text.join "\n" (s.header :: s.ruler :: s.body ++ tail)

/-- Whether the table shows the rows that a budget allows. -/
structure Shows (s : Sheet) (headers : List Text) (rows : List (List Text)) (budget : Nat) :
    Prop where
  columns : s.widths.length = headers.length
  widest : ∀ k width, s.widths[k]? = some width →
    IsGreatest {n | ∃ cell ∈ column headers rows k, n = cell.length} width
  header : Aligned s.widths headers s.header
  ruler : Aligned s.widths (s.widths.map fun width => List.replicate width '-') s.ruler
  body : List.Forall₂ (Aligned s.widths) (displayed budget rows) s.body
  counted : s.body.length + s.hidden = rows.length

end Sheet

section Tables

variable {headers : List Text} {rows : List (List TableCell)} {budget : Int} {widths : List Nat}

/-- The headers always have columns, so that only the rows can be too long. -/
theorem render_eq (h : rows ≠ []) :
    render headers rows budget =
      let widths := columnWidths headers (texts rows)
      (lines widths (Report.shown budget (texts rows)).1).map fun body =>
        Text.join "\n" (joined widths headers ::
          Text.join "  " (widths.map fun width => List.replicate width '-') ::
          body ++ moreLines (Report.shown budget (texts rows)).2) := by
  have hheaders : Table.line (columnWidths headers (texts rows)) headers = .ok _ :=
    line_eq_ok (Nat.le_of_eq (length_columnWidths headers (texts rows)).symm)
  unfold render
  rw [if_neg (by simpa using h)]
  dsimp only
  rw [hheaders]
  generalize Report.shown budget (texts rows) = shown
  show Except.bind (lines (columnWidths headers (texts rows)) shown.1) _ = _
  cases lines (columnWidths headers (texts rows)) shown.1 <;> rfl

/-- The rows that are displayed are the rows that were given. -/
theorem displayed_texts (allowed : Nat) (rows : List (List TableCell)) :
    displayed allowed (texts rows) =
      (displayed allowed rows).map fun row => row.map TableCell.toText := by
  unfold displayed texts
  split
  · rfl
  · rw [List.map_take]

/-- A row that is displayed and has a cell without a header spoils the table. -/
theorem render_eq_error {allowed : Nat}
    (h : ∃ row ∈ displayed allowed rows, headers.length < row.length) :
    render headers rows allowed = .error .rowTooLong := by
  obtain ⟨row, hrow, hlong⟩ := h
  have hrows : rows ≠ [] := by
    rintro rfl
    simp [displayed] at hrow
  obtain ⟨hidden, -, hshown⟩ := shown_natCast allowed (texts rows)
  have htoo : ∃ row ∈ displayed allowed (texts rows),
      (columnWidths headers (texts rows)).length < row.length := by
    refine ⟨row.map TableCell.toText, ?_, ?_⟩
    · rw [displayed_texts]
      exact List.mem_map_of_mem hrow
    · rwa [length_columnWidths, List.length_map]
  rw [render_eq hrows, hshown]
  show Except.map _ (lines _ (displayed allowed (texts rows))) = _
  rw [lines_eq_error htoo]
  rfl

/-- The ruler is a line of dashes. -/
theorem aligned_ruler (widths : List Nat) :
    Aligned widths (widths.map fun width => List.replicate width '-')
      (Text.join "  " (widths.map fun width => List.replicate width '-')) := by
  have hjoined : joined widths (widths.map fun width => List.replicate width '-') =
      Text.join "  " (widths.map fun width => List.replicate width '-') := by
    unfold joined
    congr 1
    induction widths with
    | nil => rfl
    | cons width widths ih =>
      rw [List.map_cons, List.zipWith_cons_cons, ih]
      simp [Text.padRight, Text.spaces]
  rw [← hjoined]
  refine aligned_joined (Nat.le_of_eq (List.length_map ..)) fun i cell width hcell hwidth => ?_
  rw [List.getElem?_map, hwidth] at hcell
  obtain rfl : List.replicate width (.char '-') = cell := Option.some.inj hcell
  rw [List.length_replicate]

/-- A row of a table stands in its columns. -/
theorem aligned_row {headers row : List Text} {rows : List (List Text)}
    (hrow : row ∈ headers :: rows) (h : row.length ≤ headers.length) :
    Aligned (columnWidths headers rows) row (joined (columnWidths headers rows) row) :=
  aligned_joined (by rwa [length_columnWidths]) fun _ _ _ hcell hwidth =>
    length_le_of_getElem? hrow hcell hwidth

/-- The table of the rows that a budget allows. -/
def sheetOf (headers : List Text) (rows : List (List Text)) (budget hidden : Nat) : Sheet where
  widths := columnWidths headers rows
  header := joined (columnWidths headers rows) headers
  ruler := Text.join "  " ((columnWidths headers rows).map fun width => List.replicate width '-')
  body := (displayed budget rows).map (joined (columnWidths headers rows))
  hidden

theorem shows_sheetOf {headers : List Text} {rows : List (List Text)} {budget hidden : Nat}
    (hcounted : (displayed budget rows).length + hidden = rows.length)
    (hfits : ∀ row ∈ displayed budget rows, row.length ≤ headers.length) :
    (sheetOf headers rows budget hidden).Shows headers rows budget where
  columns := length_columnWidths headers rows
  widest _ _ := isGreatest_columnWidths
  header := aligned_row List.mem_cons_self (Nat.le_refl _)
  ruler := aligned_ruler _
  body := by
    show List.Forall₂ _ _ ((displayed budget rows).map _)
    rw [List.forall₂_map_right_iff, List.forall₂_same]
    intro row hrow
    exact aligned_row (List.mem_cons_of_mem _ (mem_of_mem_displayed hrow)) (hfits row hrow)
  counted := by
    show ((displayed budget rows).map _).length + hidden = _
    rwa [List.length_map]

/-- If all rows that are displayed fit, the table is written. -/
theorem render_eq_text {allowed hidden : Nat} (hrows : rows ≠ [])
    (hshown : Report.shown allowed (texts rows) =
      (displayed allowed (texts rows), if hidden = 0 then none else some (hidden : Int)))
    (hfits : ∀ row ∈ displayed allowed (texts rows), row.length ≤ headers.length) :
    render headers rows allowed = .ok (sheetOf headers (texts rows) allowed hidden).text := by
  have hmore : moreLines (if hidden = 0 then none else some (hidden : Int)) =
      if hidden = 0 then [] else ["(+" ++ Text.ofNat hidden ++ " more)"] := by
    split
    · rfl
    · show [_ ++ Text.ofInt hidden ++ _] = _
      rw [Text.ofInt, if_neg (by omega), Int.natAbs_natCast]
  rw [render_eq hrows, hshown]
  dsimp only
  rw [lines_eq_ok (by rwa [length_columnWidths]), hmore]
  rfl

/-- If all rows that are displayed fit, there is a table that shows them. -/
theorem exists_shows (hrows : rows ≠ []) {allowed : Nat}
    (h : ∀ row ∈ displayed allowed rows, row.length ≤ headers.length) :
    ∃ s : Sheet, render headers rows allowed = .ok s.text ∧
      s.Shows headers (texts rows) allowed := by
  obtain ⟨hidden, hcounted, hshown⟩ := shown_natCast allowed (texts rows)
  have hfits : ∀ row ∈ displayed allowed (texts rows), row.length ≤ headers.length := by
    rw [displayed_texts]
    simpa using h
  exact ⟨_, render_eq_text hrows hshown hfits, shows_sheetOf hcounted hfits⟩

/-- A table whose rows fit can be written. -/
theorem render_eq_ok (allowed : Nat)
    (h : ∀ row ∈ displayed allowed rows, row.length ≤ headers.length) :
    ∃ t, render headers rows allowed = .ok t := by
  by_cases hrows : rows = []
  · subst hrows
    exact ⟨_, rfl⟩
  · obtain ⟨s, hok, -⟩ := exists_shows hrows h
    exact ⟨_, hok⟩

end Tables

/-- A table cannot be written just if a row that it displays has more cells than
there are headers; rows that it does not display may be longer.  Else its lines
have all their cells in whole, each where its column starts, and the columns are
as wide as their widest entries in all rows.  The rows that are displayed and
those that the last line announces are all rows.  A table without rows is a word
that says so. -/
theorem render_aligns (headers : List Text) (rows : List (List TableCell)) (budget : Nat) :
    (render headers rows budget = .error .rowTooLong ↔
      ∃ row ∈ displayed budget rows, headers.length < row.length) ∧
    (rows = [] → render headers rows budget = .ok ("(none)" : Text)) ∧
    (rows ≠ [] → (∀ row ∈ displayed budget rows, row.length ≤ headers.length) →
      ∃ s : Sheet, render headers rows budget = .ok s.text ∧
        s.Shows headers (texts rows) budget) := by
  refine ⟨⟨fun herror => ?_, render_eq_error⟩, ?_, fun hrows hfits => exists_shows hrows hfits⟩
  · by_contra hnone
    have hfits : ∀ row ∈ displayed budget rows, row.length ≤ headers.length := by
      intro row hrow
      by_contra hlong
      exact hnone ⟨row, hrow, Nat.lt_of_not_le hlong⟩
    obtain ⟨t, hok⟩ := render_eq_ok budget hfits
    rw [hok] at herror
    cases herror
  · intro hnone
    subst hnone
    rfl

/-- A row that is not displayed may have more cells than there are headers, and
still widens the columns. -/
theorem render_aligns_hidden_row :
    let headers : List Text := ["id", "name"]
    let rows : List (List TableCell) :=
      [[.number 10, .text "a"], [.flag true], [.number 7, .text "Items", .nothing]]
    (rows ≠ [] ∧ ∀ row ∈ displayed 2 rows, row.length ≤ headers.length) ∧
    ∃ s : Sheet, render headers rows 2 = .ok s.text ∧ s.Shows headers (texts rows) 2 ∧
      s.text = ("id    name \n----  -----\n10    a    \nTrue\n(+1 more)" : Text) := by
  intro headers rows
  have hrows : rows ≠ [] := by decide
  have hfits : ∀ row ∈ displayed 2 rows, row.length ≤ headers.length := by decide
  obtain ⟨s, hok, hshows⟩ := (render_aligns headers rows 2).2.2 hrows hfits
  have hwritten : render headers rows 2 =
      .ok ("id    name \n----  -----\n10    a    \nTrue\n(+1 more)" : Text) := by decide
  exact ⟨⟨hrows, hfits⟩, s, hok, hshows, Except.ok.inj (hok.symm.trans hwritten)⟩

end Table

end TemplateScopes
