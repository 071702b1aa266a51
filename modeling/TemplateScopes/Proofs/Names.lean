import TemplateScopes.Proofs.Typing

/-!
# The names of the variables of a scope

The variables of a text put names into the map, and conditions only change the
types of names that are there.  Which names come in is a matter of the
variables alone, and depends on the kind of the scope.

There are three groups.

* Texts.  `keys_variableTypes` says that conditions which are data bring no
  names, and `mem_listedNames_iff` which variables do.
* Scopes.  `Outline.keys_varTypes` says the same of the scopes of an outline,
  and `varTypes_keep_names` compares them with what they would be without
  conditions.
* Accessors.  `accessors_of_ofText` says when the name of an accessor is among
  them.  Only a loop has it, and there even the tag of a block that was left
  out can bring it in (`accessor_of_left_out`).
-/

namespace TemplateScopes

/-! ## Texts -/

namespace Usage

section Texts

variable {ctx : Context} {kind : Kind} {hasChild : Text → Bool} {paths : List (List Text)}
  {conditions : List Text} {text name : Text}

theorem keys_scanVariables :
    OrderedMap.keys (scanVariables ctx kind hasChild text).types =
      listedNames ctx kind hasChild (Variable.paths text) := by
  have hlists : Lists ctx kind hasChild (Variable.paths text)
      (scanVariables ctx kind hasChild text) := lists_foldl_note
  unfold Lists at hlists
  rw [hlists, OrderedMap.keys, List.map_map]
  exact List.map_id _

/-- A name comes in as a plain variable that belongs neither to a child nor to
the framework, or as a relation that is no accessor. -/
theorem mem_listedNames_iff :
    name ∈ listedNames ctx kind hasChild paths ↔
      ([name] ∈ paths ∧ hasChild name = false ∧ isFrameworkName ctx kind name = false) ∨
        (ctx.isGlobalAccessor name = false ∧ ∃ member rest, name :: member :: rest ∈ paths) := by
  rw [listedNames, List.mem_eraseDups, List.mem_filterMap]
  constructor
  · rintro ⟨path, hpath, hlisted⟩
    match path with
    | [] => cases hlisted
    | [label] =>
      rw [listedName_plain] at hlisted
      split at hlisted
      · cases hlisted
      · rename_i hplain
        obtain rfl := Option.some.inj hlisted
        rw [Bool.not_eq_true, Bool.or_eq_false_iff] at hplain
        exact .inl ⟨hpath, hplain⟩
    | relation :: member :: rest =>
      rw [listedName] at hlisted
      split at hlisted
      · cases hlisted
      · rename_i hrelation
        obtain rfl := Option.some.inj hlisted
        exact .inr ⟨Bool.eq_false_iff.2 hrelation, member, rest, hpath⟩
  · rintro (⟨hpath, hchild, hframework⟩ | ⟨haccessor, member, rest, hpath⟩)
    · refine ⟨[name], hpath, ?_⟩
      rw [listedName_plain, hchild, hframework]
      rfl
    · refine ⟨_, hpath, ?_⟩
      rw [listedName, haccessor]
      rfl

/-- Conditions that belong neither to a child nor to the framework bring no
names. -/
theorem keys_variableTypes (h : ∀ condition ∈ conditions,
      hasChild condition = false ∧ isFrameworkName ctx kind condition = false) :
    OrderedMap.keys (variableTypes ctx kind hasChild conditions text) =
      listedNames ctx kind hasChild (Variable.paths text) := by
  rw [← keys_scanVariables]
  refine keys_types_foldl_flag fun condition hcondition hcounted => ?_
  rw [keys_scanVariables, mem_listedNames_iff]
  refine .inl ⟨?_, h condition hcondition⟩
  -- What is counted stands in the text as a plain variable.
  rw [get?_uses_scanVariables] at hcounted
  by_contra hnone
  exact hcounted (if_pos (List.count_eq_zero.2 hnone))

end Texts

end Usage

/-! ## Scopes -/

namespace Outline

section Scopes

variable {o : Outline} {s : Scope} {name : Text}

/-- Whether a plain variable of that name is no data of a scope: it is a child
of the scope, or it belongs to the framework.  That are the methods of lists in
a loop, and the accessors in every other scope. -/
def Reserved (o : Outline) (s : Scope) (name : Text) : Prop :=
  (∃ child, o.childNamed? s name = some child) ∨
    (s.kind = .loop ∧ o.context.isCollectionMethod name = true) ∨
    (s.kind ≠ .loop ∧ o.context.isGlobalAccessor name = true)

theorem anyNamed_kidBlocks_iff :
    Block.anyNamed (o.forest.kidBlocks s) name = true ↔
      ∃ child, o.childNamed? s name = some child := by
  rw [← Option.isSome_iff_exists, childNamed?, List.find?_isSome, Block.anyNamed, List.any_eq_true]
  simp [Forest.kidBlocks]

theorem reserved_iff :
    o.Reserved s name ↔ Block.anyNamed (o.forest.kidBlocks s) name = true ∨
      Usage.isFrameworkName o.context s.kind name = true := by
  rw [Reserved, anyNamed_kidBlocks_iff, Usage.isFrameworkName]
  by_cases hkind : s.kind = .loop
  · simp [hkind]
  · simp [hkind]

/-- A condition of a scope is data of the scope, whatever its kind. -/
theorem not_reserved_of_mem_conditions (h : name ∈ o.conditions s) : ¬ o.Reserved s name := by
  obtain ⟨haccessor, hmethod, hblock⟩ := isData_of_mem_conditions h
  rintro (hchild | ⟨-, hmethod'⟩ | ⟨-, haccessor'⟩)
  · rw [hasName_of_anyNamed (anyNamed_kidBlocks_iff.2 hchild)] at hblock
    cases hblock
  · rw [hmethod] at hmethod'
    cases hmethod'
  · rw [haccessor] at haccessor'
    cases haccessor'

/-- The names of a scope are those that its variables bring in. -/
theorem keys_varTypes :
    OrderedMap.keys (o.varTypes s) =
      Usage.listedNames o.context s.kind (Block.anyNamed (o.forest.kidBlocks s))
        (Variable.paths (o.own s)) := by
  refine Usage.keys_variableTypes fun condition hcondition => ?_
  have hdata := mt reserved_iff.2 (not_reserved_of_mem_conditions hcondition)
  rwa [not_or, Bool.not_eq_true, Bool.not_eq_true] at hdata

theorem keys_plainTypes :
    OrderedMap.keys (o.plainTypes s) =
      Usage.listedNames o.context s.kind (Block.anyNamed (o.forest.kidBlocks s))
        (Variable.paths (o.own s)) :=
  Usage.keys_variableTypes fun _ hcondition => absurd hcondition List.not_mem_nil

/-- Conditions bring no names into a scope and change no order.  They give some
of the names that are there the type of flags.  A name that is reserved comes
in as a relation only. -/
theorem varTypes_keep_names (o : Outline) (s : Scope) :
    OrderedMap.keys (o.varTypes s) = OrderedMap.keys (o.plainTypes s) ∧
      (∀ name, (o.varTypes s).get? name ≠ (o.plainTypes s).get? name →
        name ∈ OrderedMap.keys (o.plainTypes s) ∧ name ∈ o.conditions s ∧
          (o.varTypes s).get? name = some o.context.booleanType) ∧
      ∀ name, o.Reserved s name →
        (name ∈ OrderedMap.keys (o.varTypes s) ↔ o.context.isGlobalAccessor name = false ∧
          ∃ member rest, name :: member :: rest ∈ Variable.paths (o.own s)) := by
  have hkeys : OrderedMap.keys (o.varTypes s) = OrderedMap.keys (o.plainTypes s) :=
    keys_varTypes.trans keys_plainTypes.symm
  refine ⟨hkeys, ?_, ?_⟩
  · intro name hchanged
    have hnodup : (o.conditions s).Nodup := Text.nodup_eraseDups _
    have htypes : (o.varTypes s).get? name = _ := Usage.get?_types_foldl_flag hnodup
    split at htypes
    · rename_i hflag
      refine ⟨?_, hflag.1, htypes⟩
      rw [← hkeys]
      by_contra hnone
      rw [OrderedMap.get?_eq_none_iff.2 hnone] at htypes
      cases htypes
    · exact absurd htypes hchanged
  · intro name hreserved
    rw [keys_varTypes, Usage.mem_listedNames_iff]
    refine or_iff_right ?_
    rintro ⟨-, hchild, hframework⟩
    rcases reserved_iff.1 hreserved with hchild' | hframework'
    · rw [hchild] at hchild'
      cases hchild'
    · rw [hframework] at hframework'
      cases hframework'

end Scopes

/-! ## Accessors -/

/-- No block of an outline has the name of an accessor. -/
theorem hasName_eq_false {t : Text} {ctx : Context} {o : Outline} (h : ofText t ctx = .ok o)
    {name : Text} (hname : ctx.isGlobalAccessor name = true) : o.hasName name = false := by
  obtain ⟨spans, -, rfl⟩ := grounded_of_ofText h
  rw [← Bool.not_eq_true]
  intro hblock
  obtain ⟨scope, hscope, hsame⟩ := List.any_eq_true.1 hblock
  obtain ⟨s, -, haddressable, rfl⟩ := Forest.mem_forestOf.1 hscope
  have hkept : ctx.isGlobalAccessor s.opener.name = false := by
    simpa [Forest.addressable] using haddressable
  obtain rfl : s.opener.name = name := of_decide_eq_true hsame
  rw [hkept] at hname
  cases hname

/-- The root and the with blocks never report an accessor.  A loop reports it
if it stands there as a plain variable and is no method of lists. -/
theorem accessors_of_ofText {t : Text} {ctx : Context} {o : Outline} (h : ofText t ctx = .ok o)
    {name : Text} (hname : ctx.isGlobalAccessor name = true) (s : Scope) :
    (s.kind ≠ .loop → name ∉ OrderedMap.keys (o.varTypes s)) ∧
      (s.kind = .loop → (name ∈ OrderedMap.keys (o.varTypes s) ↔
        [name] ∈ Variable.paths (o.own s) ∧ ctx.isCollectionMethod name = false)) := by
  have hblock := hasName_eq_false h hname
  obtain ⟨spans, -, rfl⟩ := grounded_of_ofText h
  have hchild : Block.anyNamed ((outlineOf (normalize t) ctx spans).forest.kidBlocks s) name =
      false := by
    rw [← Bool.not_eq_true]
    intro hchild
    rw [hasName_of_anyNamed hchild] at hblock
    cases hblock
  have hmem : name ∈ OrderedMap.keys ((outlineOf (normalize t) ctx spans).varTypes s) ↔
      [name] ∈ Variable.paths ((outlineOf (normalize t) ctx spans).own s) ∧
        Usage.isFrameworkName ctx s.kind name = false := by
    rw [keys_varTypes, Usage.mem_listedNames_iff]
    constructor
    · rintro (⟨hpath, -, hframework⟩ | ⟨haccessor, -⟩)
      · exact ⟨hpath, hframework⟩
      · exact absurd (hname.symm.trans haccessor) (by decide)
    · rintro ⟨hpath, hframework⟩
      exact .inl ⟨hpath, hchild, hframework⟩
  rw [hmem, Usage.isFrameworkName]
  constructor
  · intro hkind
    rw [if_neg hkind, hname]
    simp
  · intro hkind
    rw [if_pos hkind]

/-- The tag of a block that is left out brings nothing into the with block
around it. -/
theorem accessors_of_ofText_left_out :
    ∃ o s, ofText "<% with $Product %><% with $uP %>$Title<% end_with %><% end_with %>"
        Context.base = .ok o ∧ s ∈ o.scopes ∧ s.kind ≠ .loop ∧
      Context.base.isGlobalAccessor "uP" = true ∧
      [("uP" : Text)] ∈ Variable.paths (o.own s) ∧
      ("uP" : Text) ∉ OrderedMap.keys (o.varTypes s) := by
  have hspans : Markup.spansOf (normalize
      "<% with $Product %><% with $uP %>$Title<% end_with %><% end_with %>") =
        .ok [⟨⟨.within, 0, "<% with $Product %>", "$Product"⟩, none, 67⟩,
          ⟨⟨.within, 19, "<% with $uP %>", "$uP"⟩, some 0, 53⟩] :=
    Markup.spansOf_of_tags
      (n := .block ⟨.within, 0, "<% with $Product %>", "$Product"⟩
        (.block ⟨.within, 19, "<% with $uP %>", "$uP"⟩ .nil ⟨.within, 39, "<% end_with %>"⟩ .nil)
        ⟨.within, 53, "<% end_with %>"⟩ .nil)
      (Markup.tags_eq_of_perm (by decide +kernel) (by decide +kernel)).symm
  have houtline := ofText_of_spansOf Context.base hspans (Forest.kept_iff.2 (by decide))
  have haccessor : Context.base.isGlobalAccessor "uP" = true := by decide
  exact ⟨_, _, houtline, List.mem_cons_self, by decide, haccessor, by decide +kernel,
    (accessors_of_ofText houtline haccessor _).1 (by decide)⟩

/-- In a loop the tag of a block that is left out brings in the accessor. -/
theorem accessor_of_left_out :
    ∃ o s, ofText "<% loop $Items %><% with $Up %>$Title<% end_with %><% end_loop %>"
        Context.base = .ok o ∧ s ∈ o.scopes ∧
      Context.base.isGlobalAccessor "Up" = true ∧
      ("Up" : Text) ∈ OrderedMap.keys (o.varTypes s) := by
  have hspans : Markup.spansOf (normalize
      "<% loop $Items %><% with $Up %>$Title<% end_with %><% end_loop %>") =
        .ok [⟨⟨.loop, 0, "<% loop $Items %>", "$Items"⟩, none, 65⟩,
          ⟨⟨.within, 17, "<% with $Up %>", "$Up"⟩, some 0, 51⟩] :=
    Markup.spansOf_of_tags
      (n := .block ⟨.loop, 0, "<% loop $Items %>", "$Items"⟩
        (.block ⟨.within, 17, "<% with $Up %>", "$Up"⟩ .nil ⟨.within, 37, "<% end_with %>"⟩ .nil)
        ⟨.loop, 51, "<% end_loop %>"⟩ .nil)
      (Markup.tags_eq_of_perm (by decide +kernel) (by decide +kernel)).symm
  refine ⟨_, _, ofText_of_spansOf Context.base hspans (Forest.kept_iff.2 (by decide)),
    List.mem_cons_self, by decide, ?_⟩
  rw [keys_varTypes, Usage.mem_listedNames_iff]
  exact .inl ⟨by decide +kernel, by decide +kernel, by decide +kernel⟩

end Outline

end TemplateScopes
