import TemplateScopes.Proofs.Excision

/-!
# Which variables become flags

The types of the variables of a scope are found in two passes.  The second
pass turns a name into a flag if it is a condition and stands exactly once
as a plain variable.  It does not ask where that is, and dotted variables do
not count.

There are three groups.

* The first pass.  It counts the plain uses of each name
  (`get?_uses_scanVariables`), and what it counts it has typed, unless the
  name belongs to a block or to the framework (`settled_scanVariables`).
* The second pass.  `get?_types_foldl_flag` says what it does to a name.
* The outline.  `varTypes_eq_plain_or_flag` compares the types of a scope
  with those that the first pass found.
-/

namespace TemplateScopes

namespace Usage

/-! ## The first pass -/

section FirstPass

variable {ctx : Context} {kind : Kind} {hasChild : Text → Bool} {found : Found}
  {name label relation member : Text}

theorem uses_note_plain : (note ctx kind hasChild found [label]).uses =
    found.uses.insert label ((found.uses.get? label).getD 0 + 1) := by
  simp only [note]
  split <;> rfl

theorem uses_note_dotted {rest : List Text} :
    (note ctx kind hasChild found (relation :: member :: rest)).uses = found.uses := by
  simp only [note]
  split <;> rfl

/-- A variable adds a use of a name only if it is that name and nothing
else. -/
theorem get?_uses_note (path : List Text) :
    (note ctx kind hasChild found path).uses.get? name =
      if path = [name] then some ((found.uses.get? name).getD 0 + 1)
      else found.uses.get? name := by
  match path with
  | [] => rfl
  | [label] =>
    rw [uses_note_plain, OrderedMap.get?_insert]
    by_cases hname : name = label
    · rw [hname, if_pos rfl, if_pos rfl]
    · rw [if_neg hname, if_neg (by simpa using Ne.symm hname)]
  | relation :: member :: rest => rw [uses_note_dotted, if_neg (by simp)]

theorem get?_uses_foldl_note (paths : List (List Text)) :
    (paths.foldl (note ctx kind hasChild) found).uses.get? name =
      if paths.count [name] = 0 then found.uses.get? name
      else some ((found.uses.get? name).getD 0 + paths.count [name]) := by
  induction paths generalizing found with
  | nil => rfl
  | cons path paths ih =>
    rw [List.foldl_cons, ih, get?_uses_note, List.count_cons]
    by_cases hpath : path = [name]
    · simp only [hpath, ↓reduceIte, beq_self_eq_true, Option.getD_some]
      by_cases hzero : paths.count [name] = 0
      · simp [hzero]
      · rw [if_neg hzero, if_neg (by omega)]
        congr 1
        omega
    · simp [hpath]

/-- The first pass counts how often a name stands as a plain variable. -/
theorem get?_uses_scanVariables (text : Text) :
    (scanVariables ctx kind hasChild text).uses.get? name =
      if (Variable.paths text).count [name] = 0 then none
      else some ((Variable.paths text).count [name] : Int) := by
  unfold scanVariables
  rw [get?_uses_foldl_note]
  have hnone : Found.none.uses.get? name = none := rfl
  simp [hnone]

/-- Whether every counted name has a type, unless it is the name of a child
or belongs to the framework. -/
def Settled (ctx : Context) (kind : Kind) (hasChild : Text → Bool) (found : Found) : Prop :=
  ∀ name, found.uses.get? name ≠ none → name ∈ OrderedMap.keys found.types ∨
    hasChild name = true ∨ isFrameworkName ctx kind name = true

theorem types_note_plain : (note ctx kind hasChild found [label]).types =
    if found.types.has label || hasChild label || isFrameworkName ctx kind label then found.types
    else found.types.insert label (ctx.infer label) := by
  simp only [note]
  split <;> rfl

theorem types_note_dotted {rest : List Text} :
    (note ctx kind hasChild found (relation :: member :: rest)).types =
      if ctx.isGlobalAccessor relation then found.types
      else found.types.insert relation (relationType ctx relation member) := by
  simp only [note]
  split <;> rfl

/-- A member that no field has tells nothing, and neither does the name of
an unknown class. -/
theorem relationType_of_unknown (hmember : ctx.fieldType? member = none)
    (hrelation : ctx.isKnownType relation = false) :
    relationType ctx relation member = ctx.relationType := by
  rw [relationType, hmember]
  exact if_neg (by simp [hrelation])

/-- No variable takes a type away. -/
theorem mem_keys_note (path : List Text) (h : name ∈ OrderedMap.keys found.types) :
    name ∈ OrderedMap.keys (note ctx kind hasChild found path).types := by
  match path with
  | [] => exact h
  | [label] =>
    rw [types_note_plain]
    split
    · exact h
    · exact OrderedMap.mem_keys_insert.2 (.inr h)
  | relation :: member :: rest =>
    rw [types_note_dotted]
    split
    · exact h
    · exact OrderedMap.mem_keys_insert.2 (.inr h)

/-- One more variable keeps the counted names settled. -/
theorem Settled.note (h : Settled ctx kind hasChild found) (path : List Text) :
    Settled ctx kind hasChild (note ctx kind hasChild found path) := by
  intro name hcounted
  rw [get?_uses_note] at hcounted
  by_cases hpath : path = [name]
  · subst hpath
    by_cases hknown :
        (found.types.has name || hasChild name || isFrameworkName ctx kind name) = true
    · rw [Bool.or_eq_true, Bool.or_eq_true, OrderedMap.has_iff] at hknown
      rcases hknown with (hkey | hchild) | hframework
      · exact .inl (mem_keys_note _ hkey)
      · exact .inr (.inl hchild)
      · exact .inr (.inr hframework)
    · rw [types_note_plain, if_neg hknown]
      exact .inl (OrderedMap.mem_keys_insert.2 (.inl rfl))
  · rw [if_neg hpath] at hcounted
    rcases h name hcounted with hkey | hother
    · exact .inl (mem_keys_note path hkey)
    · exact .inr hother

theorem settled_scanVariables (text : Text) :
    Settled ctx kind hasChild (scanVariables ctx kind hasChild text) := by
  have hrun : ∀ (paths : List (List Text)) (found : Found), Settled ctx kind hasChild found →
      Settled ctx kind hasChild (paths.foldl (Usage.note ctx kind hasChild) found) := by
    intro paths
    induction paths with
    | nil => exact fun _ h => h
    | cons path paths ih => exact fun found h => ih _ (h.note path)
  exact hrun _ _ fun name hcounted => absurd rfl hcounted

end FirstPass

/-! ## The second pass -/

section SecondPass

variable {ctx : Context} {found : Found} {name condition : Text} {conditions : List Text}

/-- A condition makes its own name a flag if one plain use of it is
left. -/
theorem get?_types_flag :
    (flag ctx found condition).types.get? name =
      if name = condition ∧ found.uses.get? condition = some 1 then some ctx.booleanType
      else found.types.get? name := by
  unfold flag
  split
  · rename_i hnone
    rw [hnone, if_neg (by simp)]
  · rename_i n hsome
    simp only [hsome, Option.some.injEq]
    split
    · rename_i hzero
      have hone : n = 1 := by omega
      rw [OrderedMap.get?_insert]
      simp [hone]
    · rename_i hzero
      have hone : n ≠ 1 := by omega
      simp [hone]

theorem get?_uses_flag_of_ne (h : name ≠ condition) :
    (flag ctx found condition).uses.get? name = found.uses.get? name := by
  unfold flag
  split
  · rfl
  · simp only
    split <;> exact (OrderedMap.get?_insert ..).trans (if_neg h)

-- Each condition is taken once, so that the number of uses that it finds is
-- that of the first pass.
/-- The second pass makes a condition a flag if it was counted once. -/
theorem get?_types_foldl_flag (hnodup : conditions.Nodup) :
    (conditions.foldl (flag ctx) found).types.get? name =
      if name ∈ conditions ∧ found.uses.get? name = some 1 then some ctx.booleanType
      else found.types.get? name := by
  induction conditions generalizing found with
  | nil => simp
  | cons condition conditions ih =>
    obtain ⟨hnew, hnodup⟩ := List.nodup_cons.1 hnodup
    rw [List.foldl_cons, ih hnodup, get?_types_flag]
    by_cases hname : name = condition
    · subst hname
      simp [hnew]
    · rw [get?_uses_flag_of_ne hname]
      simp [hname]

theorem get?_uses_flag_eq_none_iff :
    (flag ctx found condition).uses.get? name = none ↔ found.uses.get? name = none := by
  by_cases hname : name = condition
  · subst hname
    unfold flag
    split
    · rfl
    · rename_i n hsome
      simp only [hsome]
      split <;> simp [OrderedMap.get?_insert]
  · rw [get?_uses_flag_of_ne hname]

/-- A flag that has a type already is no new variable. -/
theorem keys_types_flag
    (h : found.uses.get? condition ≠ none → condition ∈ OrderedMap.keys found.types) :
    OrderedMap.keys (flag ctx found condition).types = OrderedMap.keys found.types := by
  unfold flag
  split
  · rfl
  · rename_i n hsome
    simp only
    split
    · rw [OrderedMap.keys_insert, if_pos (h (by simp [hsome]))]
    · rfl

theorem keys_types_foldl_flag (h : ∀ condition ∈ conditions,
      found.uses.get? condition ≠ none → condition ∈ OrderedMap.keys found.types) :
    OrderedMap.keys (conditions.foldl (flag ctx) found).types = OrderedMap.keys found.types := by
  induction conditions generalizing found with
  | nil => rfl
  | cons condition conditions ih =>
    have hkeys : OrderedMap.keys (flag ctx found condition).types = _ :=
      keys_types_flag (h condition List.mem_cons_self)
    rw [List.foldl_cons, ih, hkeys]
    intro other hother hcounted
    rw [hkeys]
    exact h other (List.mem_cons_of_mem _ hother) fun hnone =>
      hcounted (get?_uses_flag_eq_none_iff.2 hnone)

end SecondPass

end Usage

/-! ## The outline -/

namespace Outline

/-- The types of the variables of a scope as the first pass finds them, as
if it had no conditions. -/
def plainTypes (o : Outline) (s : Scope) : OrderedMap Text :=
  s.toBlock.variableTypes o.context (o.forest.kidBlocks s) [] (o.own s)

/-- A child of a scope is one of the blocks of the outline. -/
theorem hasName_of_anyNamed {o : Outline} {s : Scope} {name : Text}
    (h : Block.anyNamed (o.forest.kidBlocks s) name = true) : o.hasName name = true := by
  obtain ⟨b, hb, hname⟩ := List.any_eq_true.1 h
  obtain ⟨kid, hkid, rfl⟩ := List.mem_map.1 hb
  obtain ⟨id, -, hfound⟩ := List.mem_filterMap.1 hkid
  exact List.any_eq_true.2 ⟨kid, List.mem_of_find?_eq_some hfound, hname⟩

/-- A condition of a scope is no accessor, no method of lists and no
block. -/
theorem isData_of_mem_conditions {o : Outline} {s : Scope} {name : Text}
    (h : name ∈ o.conditions s) :
    o.context.isGlobalAccessor name = false ∧ o.context.isCollectionMethod name = false ∧
      o.hasName name = false := by
  have hdata := (List.mem_filter.1 (List.mem_eraseDups.1 h)).2
  simpa [Usage.isConditionName, and_assoc] using hdata

/-- The variables of a scope are those that the first pass finds.  A
variable is a flag if it is a condition and stands just once as a plain
variable in the text of the scope, and has its type from the first pass
otherwise. -/
theorem varTypes_eq_plain_or_flag (o : Outline) (s : Scope) :
    OrderedMap.keys (o.varTypes s) = OrderedMap.keys (o.plainTypes s) ∧
      ∀ name, (o.varTypes s).get? name =
        if name ∈ o.conditions s ∧ (Variable.paths (o.own s)).count [name] = 1 then
          some o.context.booleanType
        else (o.plainTypes s).get? name := by
  constructor
  · apply Usage.keys_types_foldl_flag
    intro condition hcondition hcounted
    obtain ⟨haccessor, hmethod, hblock⟩ := isData_of_mem_conditions hcondition
    rcases Usage.settled_scanVariables _ condition hcounted with hkey | hchild | hframework
    · exact hkey
    · rw [hasName_of_anyNamed hchild] at hblock
      exact Bool.noConfusion hblock
    · unfold Usage.isFrameworkName at hframework
      split at hframework
      · rw [hmethod] at hframework
        exact Bool.noConfusion hframework
      · rw [haccessor] at hframework
        exact Bool.noConfusion hframework
  · intro name
    have hnodup : (o.conditions s).Nodup := Text.nodup_eraseDups _
    refine (Usage.get?_types_foldl_flag hnodup).trans ?_
    have hcount : (Usage.scanVariables o.context s.kind
        (Block.anyNamed (o.forest.kidBlocks s)) (o.own s)).uses.get? name = some 1 ↔
          (Variable.paths (o.own s)).count [name] = 1 := by
      rw [Usage.get?_uses_scanVariables]
      split
      · rename_i hzero
        simp [hzero]
      · rw [Option.some.injEq]
        omega
    exact if_congr (and_congr_right fun _ => hcount) rfl rfl

/-- In a text without blocks everything belongs to the root. -/
theorem own_root_of_no_spans (code : Text) (ctx : Context) :
    (outlineOf code ctx []).own (outlineOf code ctx []).root = code := by
  refine (own_rootOver _ _ _).trans ?_
  show (Excision.cutFrom code 0 (List.mergeSort [] _)).1 = code
  rw [List.mergeSort_nil]
  rfl

/-- A relation whose name stands once as a condition becomes a flag, though
its member is used as well. -/
theorem varTypes_flagged_relation :
    ∃ o, ofText "<% if $Category %>$Category.Title<% end_if %>" Context.base = .ok o ∧
      [("Category" : Text), ("Title" : Text)] ∈ Variable.paths (o.own o.root) ∧
      Context.base.isGlobalAccessor "Category" = false ∧
      (o.plainTypes o.root).get? "Category" = some Context.base.relationType ∧
      (o.varTypes o.root).get? "Category" = some Context.base.booleanType ∧
      Context.base.relationType ≠ Context.base.booleanType := by
  have hspans : Markup.spansOf (normalize "<% if $Category %>$Category.Title<% end_if %>") =
      .ok [] :=
    Markup.spansOf_of_tags (n := .nil)
      (Markup.tags_eq_of_perm (by decide +kernel) (by decide +kernel)).symm
  have hown := own_root_of_no_spans (normalize "<% if $Category %>$Category.Title<% end_if %>")
    Context.base
  have hpaths : Variable.paths (normalize "<% if $Category %>$Category.Title<% end_if %>") =
      [[("Category" : Text)], [("Category" : Text), ("Title" : Text)]] := by decide
  have hlabels : Condition.labels (normalize "<% if $Category %>$Category.Title<% end_if %>") =
      [("Category" : Text)] := by decide
  have haccessor : Context.base.isGlobalAccessor "Category" = false := by decide
  have hrelation : Usage.relationType Context.base "Category" "Title" =
      Context.base.relationType :=
    Usage.relationType_of_unknown (OrderedMap.get?_insertAll_of_not_mem [] (by decide +kernel))
      (by decide)
  have hconditions : Usage.conditionNames Context.base (fun _ => false)
      (normalize "<% if $Category %>$Category.Title<% end_if %>") = [("Category" : Text)] := by
    rw [Usage.conditionNames, hlabels]
    decide +kernel
  refine ⟨_, ofText_of_spansOf Context.base hspans (Forest.kept_iff.2 (by decide)), ?_, haccessor,
    ?_, ?_, by decide⟩
  · rw [hown, hpaths]
    exact List.mem_cons_of_mem _ (List.mem_singleton_self _)
  · show (Usage.scanVariables Context.base .root (Block.anyNamed []) (own _ _)).types.get? _ = _
    unfold Usage.scanVariables
    rw [hown, hpaths, List.foldl_cons, List.foldl_cons, List.foldl_nil, Usage.types_note_dotted,
      if_neg (by rw [haccessor]; decide), OrderedMap.get?_insert, if_pos rfl, hrelation]
  · show (Usage.variableTypes Context.base .root (Block.anyNamed [])
      (Usage.conditionNames Context.base (fun _ => false) (own _ _)) (own _ _)).get? _ = _
    rw [hown, hconditions, Usage.variableTypes,
      Usage.get?_types_foldl_flag (List.nodup_singleton _), Usage.get?_uses_scanVariables, hpaths]
    exact if_pos ⟨List.mem_singleton_self _, by decide⟩

end Outline

end TemplateScopes
