import TemplateScopes.Proofs.Bytes

/-!
# Answers that are written

The answer to a run is written to its end, unless a surrogate stands in it or
the blocks of the template go down more levels than the program can follow.

There are two groups.

* Output.  `Command.emit_of_forall` and `Command.emit_of_not_forall` say when all
  of an answer is written.
* Answers.  `Command.Invocation.Answers` is the answer of each command,
  `Command.Invocation.Writable` the condition on an outline that all of it is
  written, and `Command.Invocation.exists_answer` ties them to a run.
-/

namespace TemplateScopes

/-! ## Output -/

namespace Command

section Output

variable {t : Text} {c : CodePoint} {n skip limit : Nat} {echoes : List Echo}

theorem hasBytes_parameters (t : Text) : Text.HasBytes (t.takeWhile isParameter) := by
  intro c hc
  have hrange := List.mem_takeWhile_imp hc
  simp only [isParameter, Bool.and_eq_true, decide_eq_true_eq] at hrange
  exact CodePoint.isChar_of_toNat_lt (by omega)

theorem hasBytes_intermediates (t : Text) : Text.HasBytes (t.takeWhile isIntermediate) := by
  intro c hc
  have hrange := List.mem_takeWhile_imp hc
  simp only [isIntermediate, Bool.and_eq_true, decide_eq_true_eq] at hrange
  exact CodePoint.isChar_of_toNat_lt (by omega)

theorem isChar_of_isFinal (h : isFinal c = true) : c.isChar = true := by
  simp only [isFinal, Bool.and_eq_true, decide_eq_true_eq] at h
  exact CodePoint.isChar_of_toNat_lt (by omega)

/-- A control sequence is made of characters. -/
theorem hasBytes_control (h : controlLength? t = some n) : 0 < n ∧ Text.HasBytes (t.take n) := by
  have hsplit : ∀ (p : CodePoint → Bool) (t : Text),
      t.takeWhile p ++ t.drop (t.takeWhile p).length = t := fun p t =>
    List.prefix_iff_eq_append.1 (List.takeWhile_prefix p)
  unfold controlLength? at h
  split at h
  · rename_i rest
    dsimp only at h
    split at h
    · rename_i c more hmore
      split at h
      · rename_i hfinal
        obtain rfl := Option.some.inj h
        have hparameters := hasBytes_parameters rest
        have hrest := hsplit isParameter rest
        generalize rest.takeWhile isParameter = parameters at *
        have hintermediates := hasBytes_intermediates (rest.drop parameters.length)
        have hbehind := hsplit isIntermediate (rest.drop parameters.length)
        generalize (rest.drop parameters.length).takeWhile isIntermediate = intermediates at *
        rw [hmore] at hbehind
        have htext : .char '\x1b' :: .char '[' :: rest =
            (.char '\x1b' :: .char '[' :: (parameters ++ intermediates ++ [c])) ++ more := by
          rw [← hrest, ← hbehind]
          simp
        rw [htext, List.take_left' (by simp; omega)]
        simp [hparameters, hintermediates, isChar_of_isFinal hfinal]
      · cases h
    · cases h
  · cases h

/-- What is left out where a text is printed has bytes. -/
theorem hasBytes_plainFrom (h : Text.HasBytes (t.take skip)) :
    (plainFrom skip t).HasBytes ↔ t.HasBytes := by
  induction t generalizing skip with
  | nil => rfl
  | cons c t ih =>
    cases skip with
    | succ skip =>
      obtain ⟨hc, ht⟩ := List.forall_mem_cons.1 h
      rw [plainFrom, ih ht, Text.hasBytes_cons, and_iff_right hc]
    | zero =>
      rw [plainFrom]
      cases hlength : controlLength? (c :: t) with
      | none =>
        show Text.HasBytes (c :: plainFrom 0 t) ↔ _
        rw [Text.hasBytes_cons, Text.hasBytes_cons, ih (by simp)]
      | some length =>
        obtain ⟨hpos, hcontrol⟩ := hasBytes_control hlength
        obtain ⟨length, rfl⟩ := Nat.exists_eq_add_one_of_ne_zero (Nat.ne_of_gt hpos)
        obtain ⟨hc, ht⟩ := Text.hasBytes_cons.1 hcontrol
        show Text.HasBytes (plainFrom length t) ↔ _
        rw [Text.hasBytes_cons, and_iff_right hc, ih ht]

@[simp]
theorem hasBytes_echo : (echo t).HasBytes ↔ t.HasBytes := by
  rw [echo, Text.hasBytes_append, hasBytes_plainFrom (by simp)]
  exact and_iff_left (Text.hasBytes_ofChars _)

/-- An answer is written to its end if none of its texts is made from too many
levels of blocks, and all have bytes. -/
theorem emit_of_forall (h : ∀ e ∈ echoes, e.levels ≤ limit ∧ e.text.HasBytes) :
    emit limit echoes = (echoAll (echoes.map Echo.text), none) := by
  induction echoes with
  | nil => rfl
  | cons e rest ih =>
    obtain ⟨⟨hlevels, hbytes⟩, hrest⟩ := List.forall_mem_cons.1 h
    have hfault := Text.fault?_eq_none_iff_hasBytes.2 (hasBytes_echo.2 hbytes)
    rw [emit, if_neg (Nat.not_lt.2 hlevels), hfault, ih hrest]
    rfl

/-- Otherwise the beginning of the answer is written. -/
theorem emit_of_not_forall (h : ¬ ∀ e ∈ echoes, e.levels ≤ limit ∧ e.text.HasBytes) :
    ∃ output fault, emit limit echoes = (output, some fault) ∧
      output <+: echoAll (echoes.map Echo.text) := by
  induction echoes with
  | nil => exact absurd (List.forall_mem_nil _) h
  | cons e rest ih =>
    rw [emit]
    split
    · exact ⟨_, _, rfl, List.nil_prefix⟩
    · rename_i hlevels
      split
      · exact ⟨_, _, rfl, List.nil_prefix⟩
      · rename_i hfault
        have hbytes := hasBytes_echo.1 (Text.fault?_eq_none_iff_hasBytes.1 hfault)
        obtain ⟨output, fault, hrest, hbeginning⟩ := ih fun hrest =>
          h (List.forall_mem_cons.2 ⟨⟨Nat.not_lt.1 hlevels, hbytes⟩, hrest⟩)
        rw [hrest]
        exact ⟨_, _, rfl, (List.prefix_append_right_inj _).2 hbeginning⟩

theorem ofEchoes_of_forall (h : ∀ e ∈ echoes, e.levels ≤ limit ∧ e.text.HasBytes) :
    Outcome.ofEchoes limit echoes = .printed (echoAll (echoes.map Echo.text)) := by
  unfold Outcome.ofEchoes
  rw [emit_of_forall h]

theorem ofEchoes_of_not_forall (h : ¬ ∀ e ∈ echoes, e.levels ≤ limit ∧ e.text.HasBytes) :
    ∃ output fault, Outcome.ofEchoes limit echoes = .cutShort output fault ∧
      output <+: echoAll (echoes.map Echo.text) := by
  obtain ⟨output, fault, hemit, hbeginning⟩ := emit_of_not_forall h
  unfold Outcome.ofEchoes
  rw [hemit]
  exact ⟨output, fault, rfl, hbeginning⟩

end Output

end Command

/-! ## Answers -/

namespace Summary

theorem levelsAll_le_iff {limit : Nat} {l : List Summary} :
    levelsAll l ≤ limit ↔ ∀ s ∈ l, s.levels ≤ limit := by
  induction l with
  | nil => simp [levelsAll]
  | cons s l ih => rw [levelsAll, Nat.max_le, ih, List.forall_mem_cons]

end Summary

namespace Outline

/-- The texts of a scan that stand neither in the template nor in the program:
the path of the template, the name of the context and the types. -/
def labels (template : Text) (o : Outline) : List Text :=
  template :: o.context.name :: (o.root :: o.scopes).flatMap fun s => (o.varTypes s).map Prod.snd

theorem forall_labels_iff {template : Text} {o : Outline} :
    (∀ label ∈ o.labels template, label.HasBytes) ↔
      template.HasBytes ∧ o.context.name.HasBytes ∧
        ∀ s ∈ o.root :: o.scopes, ∀ entry ∈ o.varTypes s, entry.2.HasBytes := by
  simp only [labels, List.forall_mem_cons, List.forall_mem_flatMap, List.forall_mem_map]

end Outline

namespace Command

section Answers

variable {limits : Limits} {inv : Invocation} {mode : Mode} {timestamp template t : Text}
  {ctx : Context} {o : Outline} {limit : Nat}

/-- Whether a run can write its answer about an outline to its end.  A table and
a flowchart can always be written. -/
def Invocation.Writable (limits : Limits) (inv : Invocation) (o : Outline) : Prop :=
  match inv.task with
  | .scan template =>
    Summary.levelsAll o.summaries ≤ inv.blockLimit limits ∧
      (inv.mode.json = false → ∀ label ∈ o.labels template, Text.Utf8.fault? label = none)
  | .tree _ mermaid =>
    (inv.mode.json = false ∧ mermaid = true) ∨ Summary.levelsAll o.summaries ≤ inv.blockLimit limits
  | .blocks .. | .context => True

/-- Whether a text is the answer of a run about an outline. -/
inductive Invocation.Answers (inv : Invocation) (timestamp : Text) (o : Outline) : Text → Prop where
  | scan {template : Text} (htask : inv.task = .scan template) :
      Answers inv timestamp o (scanOutput inv.mode timestamp template o)
  | blocks {template output : Text} {loops withs : Bool}
      (htask : inv.task = .blocks template loops withs)
      (houtput : blocksOutput inv.mode timestamp template loops withs o = .ok output) :
      Answers inv timestamp o output
  | tree {template : Text} {mermaid : Bool} (htask : inv.task = .tree template mermaid) :
      Answers inv timestamp o (treeOutput inv.mode timestamp template mermaid o)

theorem echoAll_singleton (t : Text) : echoAll [t] = echo t :=
  List.append_nil _

/-! ### JSON -/

theorem written_texts (ts : List Text) : (Json.texts ts).Written :=
  .arr (List.forall_mem_map.2 fun _ _ => .str)

theorem written_textMap (m : OrderedMap Text) : (Json.textMap m).Written :=
  .obj (List.forall_mem_map.2 fun _ _ => .str)

mutual

theorem written_summaryJson : ∀ s : Summary, (summaryJson s).Written
  | ⟨facts, children⟩ => by
    rw [summaryJson]
    refine .obj ?_
    simp only [List.forall_mem_cons]
    refine ⟨.int, .str, .str, ?_, written_textMap _, written_texts _,
      .arr (written_summariesJson children), List.forall_mem_nil _⟩
    split
    · exact .int
    · exact .null

theorem written_summariesJson : ∀ l : List Summary, ∀ value ∈ summariesJson l, value.Written
  | [] => by simp [summariesJson]
  | s :: rest => by
    rw [summariesJson, List.forall_mem_cons]
    exact ⟨written_summaryJson s, written_summariesJson rest⟩

end

theorem written_entryJson (entry : OrderedMap TableCell) : (entryJson entry).Written := by
  refine .obj (List.forall_mem_map.2 fun cell _ => ?_)
  cases cell.2
  · exact .str
  · exact .int
  · exact .bool
  · exact .null

theorem written_insert {members : OrderedMap Json} {key : Text} {value : Json}
    (hmembers : ∀ m ∈ members, m.2.Written) (hvalue : value.Written) :
    ∀ m ∈ members.insert key value, m.2.Written := by
  intro m hm
  rcases OrderedMap.mem_of_mem_insert hm with rfl | hm
  · exact hvalue
  · exact hmembers m hm

theorem written_insertAll {members : OrderedMap Json} {payload : List (Text × Json)}
    (hmembers : ∀ m ∈ members, m.2.Written) (hpayload : ∀ m ∈ payload, m.2.Written) :
    ∀ m ∈ members.insertAll payload, m.2.Written := by
  intro m hm
  rcases OrderedMap.mem_of_mem_insertAll hm with hm | hm
  · exact hpayload m hm
  · exact hmembers m hm

/-- An envelope has bytes, whatever texts stand in it. -/
theorem hasBytes_envelope (command : Text) {summary payload : List (Text × Json)}
    (hsummary : ∀ m ∈ summary, m.2.Written) (hpayload : ∀ m ∈ payload, m.2.Written) :
    (envelope mode timestamp command summary payload).HasBytes := by
  refine Json.Written.hasBytes_print ?_
  split
  · refine .obj (written_insertAll ?_ hpayload)
    simp only [List.forall_mem_cons]
    exact ⟨.str, .obj hsummary, List.forall_mem_nil _⟩
  · refine .obj (written_insert (written_insertAll ?_ hpayload)
      (.obj (List.forall_mem_singleton.2 .str)))
    simp only [List.forall_mem_cons]
    exact ⟨.str, .str, .str, .str, .obj hsummary, List.forall_mem_nil _⟩

/-! ### Scans -/

theorem forall_scanEchoes_json (hmode : mode.json = true) :
    (∀ e ∈ scanEchoes mode timestamp template o, e.levels ≤ limit ∧ e.text.HasBytes) ↔
      Summary.levelsAll o.summaries ≤ limit := by
  unfold scanEchoes
  dsimp only
  rw [if_pos hmode, List.forall_mem_singleton]
  refine and_iff_left (hasBytes_envelope _ ?_ ?_)
  · simp only [List.forall_mem_cons]
    exact ⟨.int, .int, .int, .int, .int, List.forall_mem_nil _⟩
  · simp only [List.forall_mem_cons]
    exact ⟨.str, .str, written_textMap _, written_texts _, .arr (written_summariesJson _),
      List.forall_mem_nil _⟩

/-- The listings of the blocks of a template have bytes just if the types of their
variables have. -/
theorem hasBytes_listings (h : Outline.ofText t ctx = .ok o) :
    (∀ s ∈ o.summaries, (Report.listing s).HasBytes) ↔
      ∀ s ∈ o.scopes, ∀ entry ∈ o.varTypes s, entry.2.HasBytes := by
  have hworded := fun s hs => Outline.worded_facts h (s := s) (List.mem_cons_of_mem _ hs)
  have hpreorder : o.summaries.flatMap Summary.preorder =
      o.scopes.map (o.forest.facts o.context o.hasName) := by
    obtain ⟨spans, hground, rfl⟩ := Outline.grounded_of_ofText h
    exact BlockGraph.preorder_summaries hground
  simp only [Report.hasBytes_listing_iff]
  rw [← List.forall_mem_flatMap, hpreorder, List.forall_mem_map]
  exact forall₂_congr fun s hs => Report.hasBytes_ownLines_iff (hworded s hs)

theorem forall_scanEchoes_text (h : Outline.ofText t ctx = .ok o) (hmode : mode.json = false) :
    (∀ e ∈ scanEchoes mode timestamp template o, e.levels ≤ limit ∧ e.text.HasBytes) ↔
      Summary.levelsAll o.summaries ≤ limit ∧ ∀ label ∈ o.labels template, label.HasBytes := by
  have hroot : (∀ line ∈ Report.variableLines (o.varTypes o.root) (o.conditions o.root),
      line.HasBytes) ↔ ∀ entry ∈ o.varTypes o.root, entry.2.HasBytes := by
    have hworded := Outline.worded_facts h (s := o.root) List.mem_cons_self
    exact Report.hasBytes_variableLines_iff
      (fun entry hentry => Text.hasBytes_of_printable (hworded.keys entry hentry))
      (fun label hlabel => Text.hasBytes_of_printable (hworded.conditions label hlabel))
  rw [Outline.forall_labels_iff, Summary.levelsAll_le_iff, List.forall_mem_cons, ← hroot,
    ← hasBytes_listings h]
  unfold scanEchoes
  dsimp only
  rw [if_neg (by rw [hmode]; exact Bool.false_ne_true), List.forall_mem_append]
  have hhead : (∀ e ∈ ([⟨0, "=== " ++ template ++ " (" ++ o.context.name ++ ") ===\n"⟩,
      ⟨0, Report.titled "Top level:"
        (Report.variableLines (o.varTypes o.root) (o.conditions o.root)) 0⟩] : List Echo),
      e.levels ≤ limit ∧ e.text.HasBytes) ↔
        template.HasBytes ∧ o.context.name.HasBytes ∧
          ∀ line ∈ Report.variableLines (o.varTypes o.root) (o.conditions o.root),
            line.HasBytes := by
    simp [and_assoc]
  refine (and_congr_left' hhead).trans ?_
  generalize o.summaries = l
  have hblocks : (∀ e ∈ l.map fun s => Echo.mk s.levels (Report.indent (Report.listing s) 1),
      e.levels ≤ limit ∧ e.text.HasBytes) ↔
        (∀ s ∈ l, s.levels ≤ limit) ∧ ∀ s ∈ l, (Report.listing s).HasBytes := by
    rw [List.forall_mem_map, ← forall₂_and]
    simp
  cases l with
  | nil => simp
  | cons first rest =>
    have htitled : (∀ e ∈ Echo.mk 0 [] :: Echo.mk 0 "Blocks:" ::
        (first :: rest).map fun s => Echo.mk s.levels (Report.indent (Report.listing s) 1),
        e.levels ≤ limit ∧ e.text.HasBytes) ↔ (∀ s ∈ first :: rest, s.levels ≤ limit) ∧
          ∀ s ∈ first :: rest, (Report.listing s).HasBytes := by
      rw [List.forall_mem_cons, List.forall_mem_cons, hblocks]
      simp
    refine (and_congr_right' htitled).trans ?_
    simp only [and_assoc, and_left_comm]

/-! ### Tables, outlines and flowcharts -/

theorem mem_scopes_of_mem_selectBlocks {loops withs : Bool} {s : Scope}
    (h : s ∈ selectBlocks o loops withs) : s ∈ o.scopes := by
  unfold selectBlocks Outline.ofKind at h
  split at h
  · exact (List.mem_filter.1 h).1
  · exact (List.mem_filter.1 h).1
  · exact h

/-- The cells of the table of blocks have bytes. -/
theorem hasBytes_blockRow (h : Outline.ofText t ctx = .ok o) (depths : List (Node × Nat))
    {s : Scope} (hs : s ∈ o.scopes) :
    ∀ cell ∈ (blockRow o depths s).map TableCell.toText, cell.HasBytes := by
  have hworded := Outline.worded_facts h (List.mem_cons_of_mem _ hs)
  have hname : s.name.HasBytes := Text.hasBytes_of_printable hworded.name
  have hkind : s.kind.toText.HasBytes := by
    have habbrev : s.kind.abbrev.HasBytes := Text.hasBytes_of_printable hworded.kind
    cases hkind : s.kind with
    | root => exact Text.hasBytes_ofChars _
    | loop | within | other => rwa [hkind] at habbrev
  simp only [blockRow, List.map_cons, List.map_nil, List.forall_mem_cons]
  refine ⟨Text.hasBytes_ofInt _, hkind, hname, ?_, Text.hasBytes_ofInt _,
    Text.hasBytes_ofInt _, List.forall_mem_nil _⟩
  cases s.parent with
  | some id => exact Text.hasBytes_ofInt _
  | none => exact Text.hasBytes_nil

/-- The table of blocks is always made, and has bytes. -/
theorem exists_blocksText (h : Outline.ofText t ctx = .ok o) (mode : Mode)
    (timestamp template : Text) (loops withs : Bool) :
    ∃ answer, blocksText mode timestamp template loops withs o = .ok answer ∧ answer.HasBytes := by
  have hheaders : ∀ header ∈ blockHeaders, header.HasBytes := by
    simp [blockHeaders]
  have hcells : ∀ row ∈ Table.texts ((selectBlocks o loops withs).map
      (blockRow o (BlockGraph.ofOutline o).depths)), ∀ cell ∈ row, cell.HasBytes := by
    rw [Table.texts, List.map_map, List.forall_mem_map]
    exact fun s hs => hasBytes_blockRow h _ (mem_scopes_of_mem_selectBlocks hs)
  rw [blocksText_eq]
  unfold tableText
  split
  · refine ⟨_, rfl, hasBytes_envelope _ ?_ ?_⟩
    · simp only [List.forall_mem_cons]
      exact ⟨.int, .int, List.forall_mem_nil _⟩
    · simp only [List.forall_mem_cons]
      exact ⟨.str, .arr (List.forall_mem_map.2 fun entry _ => written_entryJson entry),
        List.forall_mem_nil _⟩
  · split
    · exact ⟨_, rfl, Table.hasBytes_renderCompact hheaders hcells⟩
    · exact Table.hasBytes_render hheaders hcells (List.forall_mem_map.2 fun _ _ => rfl)

theorem hasBytes_treeText (h : Outline.ofText t ctx = .ok o) (mode : Mode)
    (timestamp template : Text) (mermaid : Bool) :
    (treeText mode timestamp template mermaid o).HasBytes := by
  unfold treeText
  dsimp only
  split
  · refine hasBytes_envelope _ ?_ ?_
    · simp only [List.forall_mem_cons]
      exact ⟨.int, .bool, List.forall_mem_nil _⟩
    · simp only [List.forall_mem_cons]
      refine ⟨.str, .arr (written_summariesJson _), ?_⟩
      split
      · exact List.forall_mem_singleton.2 .str
      · exact List.forall_mem_nil _
  · split
    · exact BlockGraph.hasBytes_flowchart h _ (Text.hasBytes_ofChars _)
    · split
      · exact Text.hasBytes_ofChars _
      · exact (Text.hasBytes_join (Text.hasBytes_ofChars _)).2 (BlockGraph.hasBytes_outline h)

/-- Every command answers about an outline, and the answer can be written to its
end just if the outline allows it. -/
theorem Invocation.exists_answer {tree : FileTree} {cwd : Place}
    (htemplate : inv.task.template? = some template)
    (hreflect : inv.reflect limits tree cwd template = .ok o)
    (h : Outline.ofText t ctx = .ok o) :
    ∃ echoes, inv.run limits tree cwd timestamp = .ok echoes ∧
      inv.Answers timestamp o (echoAll (echoes.map Echo.text)) ∧
      ((∀ e ∈ echoes, e.levels ≤ inv.blockLimit limits ∧ e.text.HasBytes) ↔
        inv.Writable limits o) := by
  obtain ⟨mode, lookup, task⟩ := inv
  cases task with
  | context => cases htemplate
  | scan template' =>
    obtain rfl : template' = template := Option.some.inj htemplate
    refine ⟨scanEchoes mode timestamp template' o, ?_, .scan rfl, ?_⟩
    · simp only [run, hreflect]
      rfl
    · cases hmode : mode.json with
      | true =>
        rw [forall_scanEchoes_json hmode]
        exact (and_iff_left fun htext => by rw [hmode] at htext; cases htext).symm
      | false =>
        rw [forall_scanEchoes_text h hmode]
        simp only [Writable, hmode, true_imp_iff, Text.fault?_eq_none_iff_hasBytes]
  | blocks template' loops withs =>
    obtain rfl : template' = template := Option.some.inj htemplate
    obtain ⟨answer, hanswer, hbytes⟩ := exists_blocksText h mode timestamp template' loops withs
    refine ⟨[⟨0, answer⟩], ?_, .blocks rfl ?_, ?_⟩
    · simp only [run, hreflect]
      show Except.bind ((blocksText mode timestamp template' loops withs o).mapError _) _ = _
      rw [hanswer]
      rfl
    · show (blocksText mode timestamp template' loops withs o).map echo = .ok (echoAll [answer])
      rw [hanswer, echoAll_singleton]
      rfl
    · simp [Writable, hbytes]
  | tree template' mermaid =>
    obtain rfl : template' = template := Option.some.inj htemplate
    refine ⟨[⟨treeLevels mode mermaid o, treeText mode timestamp template' mermaid o⟩],
      ?_, ?_, ?_⟩
    · simp only [run, hreflect]
      rfl
    · show Answers _ timestamp o (echoAll [treeText mode timestamp template' mermaid o])
      rw [echoAll_singleton]
      exact .tree rfl
    · rw [List.forall_mem_singleton, and_iff_left (hasBytes_treeText h mode timestamp _ mermaid)]
      simp only [Writable, treeLevels]
      cases mode.json <;> cases mermaid <;> simp

end Answers

end Command

end TemplateScopes
