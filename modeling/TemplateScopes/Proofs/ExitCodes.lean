import Mathlib.Data.List.TakeWhile
import TemplateScopes.Proofs.Accounting
import TemplateScopes.Proofs.Paths
import TemplateScopes.Proofs.Schema
import TemplateScopes.Proofs.Writing

/-!
# Exit codes

How a run on a template ends depends on the files and on the options that
choose the context.  The command, its flags and the form of the output matter
only where an answer cannot be written to its end.

There are four groups.

* Contexts.  `ContextFault.Unreported` are the faults of a context that are
  no faults of a configuration, and `resolve_fault` says that there are no
  others.
* Outlines.  A text has an outline, or its tags are not balanced, or one of
  its blocks is an orphan (`ofText_cases`).  `Presentable` says that every
  node of the graph of an outline is known and every row of its table fits.
* Runs.  `Verdict` says which exit code there is for which reason, as far as
  it is known before anything is written.  `execute_verdict` is the main
  result.
* Long numbers.  A configuration with a whole number that is too long is a
  reason for none of the exit codes that have a meaning
  (`execute_long_number`).
-/

namespace TemplateScopes

/-! ## Contexts -/

/-- Whether a fault of a context is reported as no fault of a configuration. -/
def ContextFault.Unreported (cwd : Place) : ContextFault → Prop
  | config _ => False
  | undecodable => True
  | longNumber _ => True
  | unknownPreset _ => False
  | tooDeep => True
  | badName _ => ∃ name ∈ cwd, name.nameFault? ≠ none
  | startTooLong _ => True

section Contexts

variable {tree : FileTree} {cwd place : Place} {path start : Path} {fault : ContextFault}
  {step name : Text} {preset : Option Preset} {levels : Nat}

/-- A preset has a name. -/
theorem Config.given?_map_toText (preset : Option Preset) :
    given? (preset.map Preset.toText) = preset.map Preset.toText := by
  cases preset with
  | none => rfl
  | some preset => cases preset <;> rfl

/-- A preset that exists is found, on top of any configuration. -/
theorem Config.context_eq_ok (config : Config) (preset : Option Preset) :
    ∃ ctx, config.context (preset.map Preset.toText) = .ok ctx := by
  obtain ⟨p, hp⟩ : ∃ p : Preset, config.presetName (preset.map Preset.toText) = p.toText := by
    rw [presetName, given?_map_toText]
    cases preset <;> exact ⟨_, rfl⟩
  refine ⟨p.on (Context.base.extend config.layer), ?_⟩
  rw [Config.context, hp, Context.withPreset_toText]
  rfl

/-- The contents of a configuration have no unknown preset and no path. -/
theorem Config.ofBytes_fault {shown : Text} {bytes : List UInt8}
    (h : ofBytes levels shown bytes = .error fault) :
    (∃ f, fault = .config f) ∨ fault.Unreported cwd := by
  unfold ofBytes at h
  split at h
  · obtain rfl := Except.error.inj h
    exact .inr trivial
  · split at h
    · obtain rfl := Except.error.inj h
      exact .inl ⟨_, rfl⟩
    · obtain rfl := Except.error.inj h
      exact .inr trivial
    · obtain rfl := Except.error.inj h
      exact .inr trivial
    · rename_i value _
      cases hvalue : ofJson value with
      | ok config =>
        rw [hvalue] at h
        cases h
      | error f =>
        rw [hvalue] at h
        obtain rfl := Except.error.inj h
        exact .inl ⟨f, rfl⟩

theorem Config.load_fault (h : load levels tree cwd path = .error fault)
    (hname : path.toText.nameFault? ≠ none → ∃ name ∈ cwd, name.nameFault? ≠ none) :
    (∃ f, fault = .config f) ∨ fault.Unreported cwd := by
  unfold load at h
  split at h
  · rename_i hpath
    obtain rfl := Except.error.inj h
    exact .inr (hname (by simp [hpath]))
  · split at h
    · obtain rfl := Except.error.inj h
      exact .inl ⟨_, rfl⟩
    · exact ofBytes_fault h

theorem Path.mem_follow (h : name ∈ follow place step) : name ∈ place ∨ name = step := by
  unfold follow at h
  split at h
  · exact .inl (List.mem_of_mem_dropLast h)
  · exact (List.mem_append.1 h).imp_right List.mem_singleton.1

/-- The place that a path names has no names but those of the path and of the
working directory. -/
theorem Path.mem_resolve (h : name ∈ path.resolve cwd) : name ∈ cwd ∨ name ∈ path.steps := by
  -- The steps are followed from the left, so the induction needs any start.
  have hsteps : ∀ (steps : List Text) (place : Place), name ∈ steps.foldl follow place →
      name ∈ place ∨ name ∈ steps := by
    intro steps
    induction steps with
    | nil => exact fun place h => .inl h
    | cons step steps ih =>
      intro place h
      rcases ih _ h with hplace | hrest
      · rcases mem_follow hplace with hplace | rfl
        · exact .inl hplace
        · exact .inr List.mem_cons_self
      · exact .inr (List.mem_cons_of_mem _ hrest)
  refine (hsteps path.steps _ h).imp_left fun hplace => ?_
  unfold Anchor.place at hplace
  split at hplace
  · exact hplace
  · cases hplace

/-- The same holds for a configuration that is found above, but for its own
name. -/
theorem Discovery.mem_of_find? (h : find? tree cwd start = some place) (hname : name ∈ place) :
    name ∈ cwd ∨ name ∈ start.steps ∨ name = configName := by
  obtain ⟨above, habove, rfl⟩ := List.mem_map.1 (List.mem_of_find?_eq_some h)
  obtain ⟨k, -, rfl⟩ := List.mem_map.1 habove
  rcases List.mem_append.1 hname with hname | hname
  · have hin := List.mem_of_mem_take hname
    simp only [startDirectory] at hin
    have hresolve : name ∈ start.resolve cwd := by
      split at hin
      · exact List.mem_of_mem_dropLast hin
      · exact hin
    exact (Path.mem_resolve hresolve).imp_right .inl
  · exact .inr (.inr (List.mem_singleton.1 hname))

theorem Discovery.search_fault (hstart : start.stepFault? = none)
    (h : search tree cwd start = .error fault) : fault.Unreported cwd := by
  unfold search at h
  rw [hstart] at h
  dsimp only at h
  split at h
  · obtain rfl := Except.error.inj h
    trivial
  · obtain rfl := Except.error.inj h
    trivial
  · cases h

theorem Discovery.search_eq_ok {found : Option Place} (hstart : start.stepFault? = none)
    (h : search tree cwd start = .ok found) : found = find? tree cwd start := by
  unfold search at h
  rw [hstart] at h
  dsimp only at h
  split at h
  · cases h
  · cases h
  · exact (Except.ok.inj h).symm

/-- The search for a configuration has no fault of a configuration. -/
theorem Discovery.configPath_fault {named : Option Text} (hstart : start.stepFault? = none)
    (h : configPath tree cwd named start = .error fault) : fault.Unreported cwd := by
  unfold configPath at h
  split at h
  · cases h
  · cases hsearch : search tree cwd start with
    | error found =>
      rw [hsearch] at h
      obtain rfl := Except.error.inj h
      exact search_fault hstart hsearch
    | ok found =>
      rw [hsearch] at h
      cases h

/-- What the search finds has a step that is no name only where it starts. -/
theorem Discovery.configPath_badName {named : Option Text} (hstart : start.stepFault? = none)
    (hnamed : ∀ t, named = some t → t.nameFault? = none)
    (h : configPath tree cwd named start = .ok (some path))
    (hfault : path.toText.nameFault? ≠ none) : ∃ name ∈ cwd, name.nameFault? ≠ none := by
  unfold configPath at h
  split at h
  · rename_i t hgiven
    obtain rfl := Option.some.inj (Except.ok.inj h)
    have ht := hnamed t (Option.filter_eq_some_iff.1 hgiven).1
    exact absurd (Path.nameFault?_toText (Path.stepFault?_ofText ht)) hfault
  · cases hsearch : search tree cwd start with
    | error found =>
      rw [hsearch] at h
      cases h
    | ok found =>
      rw [hsearch] at h
      obtain ⟨place, hplace, rfl⟩ := Option.map_eq_some_iff.1 (Except.ok.inj h)
      have hfound := (search_eq_ok hstart hsearch).symm.trans hplace
      have hsteps := mt Path.nameFault?_toText hfault
      simp only [Path.stepFault?_eq_none_iff, not_forall] at hsteps
      obtain ⟨name, hname, hbad⟩ := hsteps
      rcases mem_of_find? hfound hname with hcwd | hstep | rfl
      · exact ⟨name, hcwd, hbad⟩
      · exact absurd (Path.stepFault?_eq_none_iff.1 hstart name hstep) hbad
      · exact absurd (by decide) hbad

/-- A context that is looked for by options that exist has a fault of its
configuration or none that is reported. -/
theorem Context.resolve_fault {named : Option Text} (hstart : start.stepFault? = none)
    (hnamed : ∀ t, named = some t → t.nameFault? = none)
    (h : resolve levels tree cwd (preset.map Preset.toText) named start = .error fault) :
    (∃ f, fault = .config f) ∨ fault.Unreported cwd := by
  unfold resolve at h
  split at h
  · rename_i hpath
    obtain rfl := Except.error.inj h
    exact .inr (Discovery.configPath_fault hstart hpath)
  · rename_i path hpath
    split at h
    · rename_i hload
      obtain rfl := Except.error.inj h
      exact Config.load_fault hload (Discovery.configPath_badName hstart hnamed hpath)
    · rename_i config _
      obtain ⟨ctx, hctx⟩ := config.context_eq_ok preset
      rw [hctx] at h
      cases h
  · have hname : (Config.given? (preset.map Preset.toText)).getD Preset.base.toText =
        (preset.getD .base).toText := by
      rw [Config.given?_map_toText]
      cases preset <;> rfl
    rw [hname, withPreset_toText] at h
    cases h

end Contexts

/-! ## Outlines -/

section Outlines

open Markup

theorem Markup.not_balanced_of_spansOf {t : Text} {fault : TagFault}
    (h : spansOf t = .error fault) : ¬ Balanced (tags t) := by
  intro hbalanced
  obtain ⟨n, hn, -⟩ := exists_nesting hbalanced
  rw [spansOf_of_tags hn] at h
  cases h

theorem Outline.ofText_cases (t : Text) (ctx : Context) :
    (¬ Balanced (tags (normalize t)) ∧
      ∃ fault, ofText t ctx = .error (.malformed fault)) ∨
    ∃ spans, spansOf (normalize t) = .ok spans ∧
      ((∃ s q, Forest.Orphan ctx spans s q) ∧
          (∃ block parent name, ofText t ctx = .error (.unresolvedParent block parent name)) ∨
        (∀ s q, ¬ Forest.Orphan ctx spans s q) ∧ ∃ o, ofText t ctx = .ok o) := by
  cases hspans : spansOf (normalize t) with
  | error fault =>
    refine .inl ⟨not_balanced_of_spansOf hspans, fault, ?_⟩
    rw [ofText, Forest.ofText_of_malformed hspans]
  | ok spans =>
    refine .inr ⟨spans, rfl, ?_⟩
    have hrooted := Forest.rooted_of_pairsUp (pairsUp_of_spansOf hspans)
    by_cases hkept : ∀ s q, ¬ Forest.Orphan ctx spans s q
    · exact .inr ⟨hkept, _, ofText_of_spansOf ctx hspans hkept⟩
    · -- The build has no other way to fail than by an orphan.
      refine .inl ⟨by simpa using hkept, ?_⟩
      rw [ofText, Forest.ofText_of_spansOf hspans]
      cases hbuilt : Forest.ofSpans (normalize t) ctx spans with
      | ok f => exact absurd ((Forest.ofSpans_eq_ok_iff hrooted).1 hbuilt).1 hkept
      | error fault =>
        obtain ⟨s, q, -, rfl⟩ := (Forest.ofSpans_eq_error_iff hrooted).1 hbuilt
        exact ⟨s.start, q.start, q.opener.name, rfl⟩

/-- Whether the nodes that edges join are known, and the rows of blocks have a
cell for each header. -/
structure Outline.Presentable (o : Outline) : Prop where
  known : ∀ e ∈ (BlockGraph.ofOutline o).edges,
    (BlockGraph.ofOutline o).info? e.1 ≠ none ∧ (BlockGraph.ofOutline o).info? e.2 ≠ none
  cells : ∀ loops withs,
    ∀ row ∈ (Command.selectBlocks o loops withs).map
        (Command.blockRow o (BlockGraph.ofOutline o).depths),
      row.length = Command.blockHeaders.length

theorem BlockGraph.info?_ne_none {g : BlockGraph} {n : Node} (h : n ∈ g.names) :
    g.info? n ≠ none := by
  obtain ⟨entry, hentry, rfl⟩ := List.mem_map.1 h
  intro hnone
  have hne := List.lookup_eq_none_iff.1 hnone entry hentry
  simp at hne

/-- Every outline of a text can be presented. -/
theorem Outline.presentable_of_ofText {t : Text} {ctx : Context} {o : Outline}
    (h : ofText t ctx = .ok o) : o.Presentable := by
  obtain ⟨spans, hground, rfl⟩ := grounded_of_ofText h
  constructor
  · intro e he
    obtain ⟨s, hs, hkept, hparent, hchild⟩ := BlockGraph.mem_edges.1 he
    constructor
    · rw [hparent]
      exact BlockGraph.info?_ne_none (BlockGraph.parentNode_scopeOf hground hs hkept).1
    · rw [hchild]
      exact BlockGraph.info?_ne_none (BlockGraph.mem_names.2 (.inr ⟨s, hs, hkept, rfl⟩))
  · intro loops withs row hrow
    obtain ⟨s, -, rfl⟩ := List.mem_map.1 hrow
    rfl

end Outlines

/-! ## Runs -/

namespace Command

section Runs

open Markup

variable {limits : Limits} {tree : FileTree} {cwd : Place} {inv : Invocation}
  {template timestamp text : Text} {resolved : Except ContextFault Context} {args : List Text}

/-- The exit code of a run on a template with the given text, in the context
that was looked for, unless writing the answer fails. -/
inductive Verdict (cwd : Place) (text : Text) : Except ContextFault Context → Int → Prop where
  /-- The configuration is wrong. -/
  | config {fault : ConfigFault} : Verdict cwd text (.error (.config fault)) 5
  /-- There is no context for another reason. -/
  | unreported {fault : ContextFault} (hfault : fault.Unreported cwd) :
      Verdict cwd text (.error fault) 1
  /-- The tags are not balanced. -/
  | malformed {ctx : Context} (htags : ¬ Balanced (tags text)) : Verdict cwd text (.ok ctx) 3
  /-- A block stands directly in one that is left out. -/
  | orphan {ctx : Context} {spans : List Span} {s q : Span} (hspans : spansOf text = .ok spans)
      (horphan : Forest.Orphan ctx spans s q) : Verdict cwd text (.ok ctx) 4
  /-- The text has an outline. -/
  | done {ctx : Context} {spans : List Span} (hspans : spansOf text = .ok spans)
      (hkept : ∀ s q, ¬ Forest.Orphan ctx spans s q) : Verdict cwd text (.ok ctx) 0

/-- The reasons exclude each other. -/
theorem Verdict.unique {code code' : Int} (h : Verdict cwd text resolved code)
    (h' : Verdict cwd text resolved code') : code = code' := by
  have hspans_eq : ∀ {spans spans'}, spansOf text = .ok spans → spansOf text = .ok spans' →
      spans = spans' := fun hspans hspans' => Except.ok.inj (hspans.symm.trans hspans')
  cases h with
  | config =>
    cases h' with
    | config => rfl
    | unreported hfault => exact hfault.elim
  | unreported hfault =>
    cases h' with
    | config => exact hfault.elim
    | unreported => rfl
  | malformed htags =>
    cases h' with
    | malformed => rfl
    | orphan hspans => exact absurd (balanced_of_spansOf hspans) htags
    | done hspans => exact absurd (balanced_of_spansOf hspans) htags
  | orphan hspans horphan =>
    cases h' with
    | malformed htags => exact absurd (balanced_of_spansOf hspans) htags
    | orphan => rfl
    | done hspans' hkept => exact absurd (hspans_eq hspans hspans' ▸ horphan) (hkept _ _)
  | done hspans hkept =>
    cases h' with
    | malformed htags => exact absurd (balanced_of_spansOf hspans) htags
    | orphan hspans' horphan => exact absurd (hspans_eq hspans' hspans ▸ horphan) (hkept _ _)
    | done => rfl

/-- Every command passes on why a template has no outline. -/
theorem Invocation.run_eq_error {fault : RunFault} (htemplate : inv.task.template? = some template)
    (h : inv.reflect limits tree cwd template = .error fault) :
    inv.run limits tree cwd timestamp = .error fault := by
  unfold run
  cases htask : inv.task with
  | context =>
    rw [htask] at htemplate
    cases htemplate
  | scan t | blocks t _ _ | tree t _ =>
    rw [htask] at htemplate
    obtain rfl := Option.some.inj htemplate
    simp only [h]
    rfl

theorem refusal?_eq_none {named : List Text}
    (h : ∀ path ∈ named, path.nameFault? = none ∧ tree.isFileWritten cwd path = true) :
    refusal? tree cwd named = none := by
  unfold refusal?
  rw [List.findSome?_eq_none_iff]
  intro path hpath
  obtain ⟨hname, hfile⟩ := h path hpath
  simp [hname, hfile]

/-- A run on files that exist answers about the template, or passes on why it
cannot. -/
theorem execute_eq (hargs : Request.ofArguments args = .run inv)
    (hfiles : ∀ path ∈ inv.named,
      path.nameFault? = none ∧ tree.isFileWritten cwd path = true) :
    execute limits args tree cwd timestamp =
      match inv.run limits tree cwd timestamp with
      | .ok echoes => .ofEchoes (inv.blockLimit limits) echoes
      | .error fault => .ofFault fault := by
  cases hrun : inv.run limits tree cwd timestamp <;>
    simp only [execute, hargs, refusal?_eq_none hfiles, hrun]

/-- The analysis of a text in the context that was looked for. -/
def analysis (resolved : Except ContextFault Context) (t : Text) : Except RunFault Outline :=
  match resolved with
  | .error fault => .error (.context fault)
  | .ok ctx => (Outline.ofText t ctx).mapError .analysis

theorem Invocation.reflect_eq {bytes : List UInt8}
    (hbytes : tree.read cwd (Path.ofText template) = .ok bytes) :
    inv.reflect limits tree cwd template =
      analysis (inv.lookupContext limits tree cwd (Path.ofText template).parent)
        (Text.Utf8.decodeLossy bytes) := by
  cases hcontext : inv.lookupContext limits tree cwd (Path.ofText template).parent <;>
    simp only [reflect, analysis, hcontext, hbytes]

/-- A run on a template follows the levels of a configuration that go with one. -/
theorem Invocation.configLimit_eq (htemplate : inv.task.template? = some template) :
    inv.configLimit limits = limits.config := by
  unfold configLimit
  cases htask : inv.task with
  | context =>
    rw [htask] at htemplate
    cases htemplate
  | scan | blocks | tree => rfl

/-- The analysis fails with the exit code of its reason, or gives an outline. -/
theorem exists_verdict (t : Text)
    (hfault : ∀ fault, resolved = .error fault →
      (∃ f, fault = .config f) ∨ fault.Unreported cwd) :
    ∃ code, Verdict cwd (normalize t) resolved code ∧
      ((∃ fault, analysis resolved t = .error fault ∧ (Outcome.ofFault fault).exitCode = code ∧
          code ≠ 0) ∨
        code = 0 ∧ ∃ ctx o, resolved = .ok ctx ∧ Outline.ofText t ctx = .ok o ∧
          analysis resolved t = .ok o) := by
  cases resolved with
  | error fault =>
    rcases hfault fault rfl with ⟨f, rfl⟩ | hunreported
    · exact ⟨5, .config, .inl ⟨_, rfl, rfl, by decide⟩⟩
    · refine ⟨1, .unreported hunreported, .inl ⟨_, rfl, ?_, by decide⟩⟩
      cases fault with
      | config f => exact hunreported.elim
      | undecodable | longNumber | unknownPreset | tooDeep | badName | startTooLong => rfl
  | ok ctx =>
    unfold analysis
    rcases Outline.ofText_cases t ctx with ⟨htags, fault, ht⟩ |
      ⟨spans, hspans, ⟨⟨s, q, horphan⟩, block, parent, name, ht⟩ | ⟨hkept, o, ht⟩⟩
    · refine ⟨3, .malformed htags, .inl ⟨.analysis (.malformed fault), ?_, ?_, by decide⟩⟩
      · simp only [ht]
        rfl
      · cases fault <;> rfl
    · refine ⟨4, .orphan hspans horphan,
        .inl ⟨.analysis (.unresolvedParent block parent name), ?_, rfl, by decide⟩⟩
      simp only [ht]
      rfl
    · refine ⟨0, .done hspans hkept, .inr ⟨rfl, ctx, o, rfl, ht, ?_⟩⟩
      simp only [ht]
      rfl

/-- An outline is answered to the end, or the beginning of the answer is
written. -/
theorem execute_of_reflect {t : Text} {ctx : Context} {o : Outline}
    (hargs : Request.ofArguments args = .run inv)
    (hfiles : ∀ path ∈ inv.named,
      path.nameFault? = none ∧ tree.isFileWritten cwd path = true)
    (htemplate : inv.task.template? = some template)
    (hreflect : inv.reflect limits tree cwd template = .ok o)
    (ho : Outline.ofText t ctx = .ok o) :
    ∃ answer, inv.Answers timestamp o answer ∧
      (inv.Writable limits o → execute limits args tree cwd timestamp = .printed answer) ∧
      (¬ inv.Writable limits o → ∃ output fault, output <+: answer ∧
        execute limits args tree cwd timestamp = .cutShort output fault) := by
  obtain ⟨echoes, hrun, hanswers, hwritable⟩ :
      ∃ echoes, inv.run limits tree cwd timestamp = .ok echoes ∧ _ :=
    Invocation.exists_answer htemplate hreflect ho
  rw [execute_eq hargs hfiles, hrun, ← hwritable]
  refine ⟨_, hanswers, ofEchoes_of_forall, fun h => ?_⟩
  obtain ⟨output, fault, hcut, hbeginning⟩ := ofEchoes_of_not_forall h
  exact ⟨output, fault, hbeginning, hcut⟩

/-- There are five ways in which the analysis of a template can end, and just one
of them for the context and the text.  The files that are named have to exist.
Then every run ends with the exit code of a fault, whatever the command, its flags
and the form of the output.  An outline is always answered: the rows of its table
fit, and the nodes of its graph are known.  Only writing may stop, and just where
the answer that was asked for cannot be written to its end.  Then the beginning of
the answer is written. -/
theorem execute_verdict {lookup : LookupOptions} (limits : Limits)
    (hfiles : ∀ path ∈ lookup.configPath.toList ++ [template],
      path.nameFault? = none ∧ tree.isFileWritten cwd path = true) :
    ∃ bytes resolved code, tree.read cwd (Path.ofText template) = .ok bytes ∧
      resolved = Context.resolve limits.config tree cwd (lookup.preset.map Preset.toText)
        lookup.configPath (Path.ofText template).parent ∧
      Verdict cwd (normalize (Text.Utf8.decodeLossy bytes)) resolved code ∧
      (∀ other, Verdict cwd (normalize (Text.Utf8.decodeLossy bytes)) resolved other →
        other = code) ∧
      (∀ args inv timestamp, Request.ofArguments args = .run inv → inv.lookup = lookup →
        inv.task.template? = some template →
          (code ≠ 0 → (execute limits args tree cwd timestamp).exitCode = code) ∧
          (code = 0 → ∃ ctx o, resolved = .ok ctx ∧
            Outline.ofText (Text.Utf8.decodeLossy bytes) ctx = .ok o ∧
            ∃ answer, inv.Answers timestamp o answer ∧
              (inv.Writable limits o →
                execute limits args tree cwd timestamp = .printed answer) ∧
              (¬ inv.Writable limits o → ∃ output fault, output <+: answer ∧
                execute limits args tree cwd timestamp = .cutShort output fault))) ∧
      ∀ ctx o, Outline.ofText (Text.Utf8.decodeLossy bytes) ctx = .ok o → o.Presentable := by
  obtain ⟨bytes, hbytes⟩ := FileTree.read_of_isFileWritten (hfiles template (by simp)).2
  have hstart : (Path.ofText template).parent.stepFault? = none := by
    have hsteps := Path.stepFault?_eq_none_iff.1
      (Path.stepFault?_ofText (hfiles template (by simp)).1)
    exact Path.stepFault?_eq_none_iff.2 fun step hstep =>
      hsteps step (List.mem_of_mem_dropLast hstep)
  have hfault : ∀ fault, Context.resolve limits.config tree cwd
      (lookup.preset.map Preset.toText) lookup.configPath (Path.ofText template).parent =
        .error fault → (∃ f, fault = .config f) ∨ fault.Unreported cwd :=
    fun fault => Context.resolve_fault hstart fun t ht => (hfiles t (by simp [ht])).1
  obtain ⟨code, hverdict, hanalysis⟩ := exists_verdict (Text.Utf8.decodeLossy bytes) hfault
  refine ⟨bytes, _, code, hbytes, rfl, hverdict, fun other hother => hother.unique hverdict, ?_,
    fun ctx o ho => Outline.presentable_of_ofText ho⟩
  intro args inv timestamp hargs hlookup htemplate
  have hnamed : inv.named = lookup.configPath.toList ++ [template] := by
    rw [Invocation.named, hlookup, htemplate]
    rfl
  have hreflect : inv.reflect limits tree cwd template = _ := Invocation.reflect_eq hbytes
  rw [Invocation.lookupContext, hlookup, Invocation.configLimit_eq htemplate] at hreflect
  -- The analysis is done before the command starts to write.
  rcases hanalysis with ⟨fault, hfault, hcode, hne⟩ | ⟨rfl, ctx, o, hctx, ho, hok⟩
  · refine ⟨fun _ => ?_, fun hzero => absurd hzero hne⟩
    rw [execute_eq hargs (hnamed ▸ hfiles),
      Invocation.run_eq_error htemplate (hreflect.trans hfault)]
    exact hcode
  · exact ⟨fun hne => absurd rfl hne, fun _ => ⟨ctx, o, hctx, ho,
      execute_of_reflect hargs (hnamed ▸ hfiles) htemplate (hreflect.trans hok) ho⟩⟩

/-- A loop that is never closed ends three commands with the same code. -/
theorem execute_verdict_unclosed :
    (∀ path ∈ (⟨none, none⟩ : LookupOptions).configPath.toList ++ [("t.ss" : Text)],
      path.nameFault? = none ∧ (⟨[(["t.ss"], Text.Utf8.encode "<% loop $A %>".toList)], []⟩ :
        FileTree).isFileWritten [] path = true) ∧
    ∀ limits, ∀ args ∈ ([["scan", "t.ss"], ["blocks", "t.ss", "--withs"],
        ["--json", "tree", "t.ss"]] : List (List Text)),
      (execute limits args ⟨[(["t.ss"], Text.Utf8.encode "<% loop $A %>".toList)], []⟩
        [] []).exitCode = 3 := by
  have hfiles : ∀ path ∈ (⟨none, none⟩ : LookupOptions).configPath.toList ++ [("t.ss" : Text)],
      path.nameFault? = none ∧ (⟨[(["t.ss"], Text.Utf8.encode "<% loop $A %>".toList)], []⟩ :
        FileTree).isFileWritten [] path = true := by decide
  refine ⟨hfiles, fun limits => ?_⟩
  obtain ⟨bytes, resolved, code, hbytes, rfl, -, hunique, hcode, -⟩ :=
    execute_verdict limits hfiles
  obtain rfl : Text.Utf8.encode "<% loop $A %>".toList = bytes := Except.ok.inj hbytes
  have hspans : spansOf (normalize (Text.Utf8.decodeLossy
      (Text.Utf8.encode "<% loop $A %>".toList))) = .error (.unequalCounts 1 0) := by decide
  obtain rfl : 3 = code := hunique 3 (.malformed (not_balanced_of_spansOf hspans))
  intro args hargs
  simp only [List.mem_cons, List.not_mem_nil, or_false] at hargs
  rcases hargs with rfl | rfl | rfl
  · exact (hcode _ ⟨⟨false, false⟩, ⟨none, none⟩, .scan "t.ss"⟩ [] rfl rfl rfl).1 (by decide)
  · exact (hcode _ ⟨⟨false, false⟩, ⟨none, none⟩, .blocks "t.ss" false true⟩ [] rfl rfl rfl).1
      (by decide)
  · exact (hcode _ ⟨⟨true, false⟩, ⟨none, none⟩, .tree "t.ss" false⟩ [] rfl rfl rfl).1 (by decide)

end Runs

end Command

/-! ## Long numbers -/

section LongNumbers

variable {levels : Nat}

/-- A whole number with too many digits is not read. -/
theorem Json.read_long {digits : Text} (h : ∀ c ∈ digits, isDigit c = true)
    (hlong : maxDigits ≤ digits.length) :
    read levels (.char '1' :: digits) = .error (.longNumber (digits.length + 1)) := by
  have hwhole : wholeDigits (.char '1' :: digits) = .char '1' :: digits :=
    List.takeWhile_eq_self_iff.2 (List.forall_mem_cons.2 ⟨rfl, h⟩)
  have hnumber : readNumber (.char '1' :: digits) = .error (.longNumber (digits.length + 1)) := by
    simp [readNumber, hwhole, fraction, exponent, Nat.lt_succ_of_le hlong]
  have hvalue : ∀ steps, readValue levels (steps + 1) (.char '1' :: digits) =
      .error (.longNumber (digits.length + 1)) := by
    intro steps
    rw [← hnumber]
    rfl
  unfold read
  rw [show skipSpace (.char '1' :: digits) = .char '1' :: digits from rfl, hvalue]
  rfl

/-- A run ends with what is wrong with the configuration beside the
template. -/
theorem Command.execute_of_ofBytes {limits : Limits} {bytes : List UInt8} {fault : ContextFault}
    (h : Config.ofBytes limits.config "/.tplreflect.json" bytes = .error fault) :
    execute limits ["scan", "t.ss"]
        ⟨[(["t.ss"], [0x24, 0x41]), ([".tplreflect.json"], bytes)], []⟩ [] [] =
      .ofFault (.context fault) := by
  have hload : Config.load limits.config
      ⟨[(["t.ss"], [0x24, 0x41]), ([".tplreflect.json"], bytes)], []⟩ []
      ⟨.root, [".tplreflect.json"]⟩ = .error fault := h
  have hresolve : Context.resolve limits.config
      ⟨[(["t.ss"], [0x24, 0x41]), ([".tplreflect.json"], bytes)], []⟩ [] none none Path.here =
        .error fault := by
    unfold Context.resolve
    rw [show Discovery.configPath ⟨[(["t.ss"], [0x24, 0x41]), ([".tplreflect.json"], bytes)], []⟩
      [] none Path.here = .ok (some ⟨.root, [".tplreflect.json"]⟩) from rfl]
    simp only [hload]
  have hreflect : Invocation.reflect limits
      ⟨[(["t.ss"], [0x24, 0x41]), ([".tplreflect.json"], bytes)], []⟩ []
      ⟨⟨false, false⟩, ⟨none, none⟩, .scan "t.ss"⟩ "t.ss" = .error (.context fault) := by
    have hparent : (Path.ofText "t.ss").parent = Path.here := by decide
    rw [Invocation.reflect_eq (show FileTree.read _ _ _ = .ok [0x24, 0x41] from rfl)]
    simp only [Invocation.lookupContext, Invocation.configLimit, Option.map_none, hparent,
      hresolve, analysis]
  have hargs : Request.ofArguments ["scan", "t.ss"] =
      .run ⟨⟨false, false⟩, ⟨none, none⟩, .scan "t.ss"⟩ := rfl
  rw [execute_eq hargs, Invocation.run_eq_error rfl hreflect]
  intro path hpath
  obtain rfl := List.mem_singleton.1 hpath
  exact ⟨rfl, rfl⟩

/-- A configuration that holds nothing but a whole number is no JSON object,
but if the number is too long, the exit code says nothing of the kind. -/
theorem Command.execute_long_number :
    Text.Utf8.decode? (Text.Utf8.encode ('1' :: List.replicate 4300 '0')) =
        some ('1' :: List.replicate 4300 '0') ∧
      ∀ limits, (execute limits ["scan", "t.ss"] ⟨[(["t.ss"], [0x24, 0x41]),
        ([".tplreflect.json"], Text.Utf8.encode ('1' :: List.replicate 4300 '0'))], []⟩
          [] []).exitCode = 1 := by
  have hdigits : ∀ c ∈ Text.ofChars (List.replicate 4300 '0'), Json.isDigit c = true := by
    intro c hc
    obtain ⟨d, hd, rfl⟩ := Text.mem_ofChars.1 hc
    rw [List.eq_of_mem_replicate hd]
    decide
  have hdecode : Text.Utf8.decode? (Text.Utf8.encode ('1' :: List.replicate 4300 '0')) =
      some ('1' :: List.replicate 4300 '0') := Text.Utf8.decode?_encode _
  have hlength : (Text.ofChars (List.replicate 4300 '0')).length = 4300 :=
    (Text.length_ofChars _).trans List.length_replicate
  refine ⟨hdecode, fun limits => ?_⟩
  have hread : Json.read limits.config _ = _ :=
    Json.read_long hdigits (Nat.le_of_eq hlength.symm)
  have hbytes : Config.ofBytes limits.config "/.tplreflect.json"
      (Text.Utf8.encode ('1' :: List.replicate 4300 '0')) = .error (.longNumber (4300 + 1)) := by
    rw [Config.ofBytes, hdecode]
    simp only [Text.ofChars_cons, hread, hlength]
  rw [execute_of_ofBytes hbytes]
  rfl

end LongNumbers

end TemplateScopes
