import TemplateScopes.Proofs.Flags
import TemplateScopes.Proofs.Variables

/-!
# Names that stand in conditions only

A name may stand in a text as the path of conditions and nowhere else.  It is
a flag if there is just one such condition.

There are three groups.

* Conditions.  `Condition.LeadsAt` says that a condition tag begins with the
  path at an offset.
* Places.  The path that a condition begins with is a variable
  (`LeadsAt.standsAt`), and `Text.count_found_eq_one_iff` counts variables by
  their places.
* Flags.  `get?_variableTypes` is the type of a condition, and
  `variableTypes_of_only_conditions` that of a name that stands in conditions
  only.  Two conditions keep a name from being a flag
  (`variableTypes_two_conditions`).
-/

namespace TemplateScopes

/-! ## Conditions -/

namespace Condition

/-- Whether a condition tag begins with the path that stands with its sigil at
an offset.  The keywords of the tag stand in front of the sigil, no path goes
on behind the label, and the tag is closed on the same line. -/
structure LeadsAt (t : Text) (offset : Nat) (label : Text) : Prop where
  ne_nil : label ≠ []
  isPath : ∀ c ∈ label, isPathChar c = true
  exists_tag : ∃ before keywords tail rest,
    (keywords = ("<% if " : Text) ∨ keywords = ("<% if not " : Text)) ∧
      t = before ++ keywords ++ .char '$' :: label ++ tail ++ Markup.closer ++ rest ∧
      offset = (before ++ keywords).length ∧ .char '\n' ∉ tail ∧
      ∀ c, tail.head? = some c → isPathChar c = false

end Condition

/-! ## Places -/

section Places

variable {t name : Text} {offset : Nat}

/-- A path without a dot is a name. -/
theorem Variable.isName_of_isPathChar (hne : name ≠ []) (hchars : ∀ c ∈ name, isPathChar c = true)
    (hdot : .char '.' ∉ name) : IsName name := by
  refine ⟨hne, fun c hc => ?_⟩
  have hpath := hchars c hc
  unfold isPathChar at hpath
  rw [Bool.or_eq_true, decide_eq_true_eq] at hpath
  exact hpath.resolve_right fun heq => hdot (heq ▸ hc)

/-- The path that a condition begins with is a variable, if it is a name. -/
theorem Condition.LeadsAt.standsAt (h : LeadsAt t offset name) (hdot : .char '.' ∉ name) :
    Variable.StandsAt t offset [name] := by
  have hname := Variable.isName_of_isPathChar h.ne_nil h.isPath hdot
  obtain ⟨before, keywords, tail, rest, -, rfl, rfl, -, htail⟩ := h.exists_tag
  have hdrop : (before ++ keywords ++ .char '$' :: name ++ tail ++ Markup.closer ++ rest).drop
      (before ++ keywords).length = .char '$' :: (name ++ (tail ++ Markup.closer ++ rest)) := by
    simp [List.append_assoc]
  have hbehind : (tail ++ Markup.closer ++ rest).takeWhile isPathChar = [] := by
    cases tail with
    | nil => rfl
    | cons c tail => exact List.takeWhile_cons_of_neg (by simp [htail c rfl])
  constructor
  · exact ⟨List.cons_ne_nil _ _, by simpa using hname⟩
  · rw [hdrop, Variable.spelling, Text.join_singleton]
    exact List.cons_prefix_cons.2 ⟨rfl, List.prefix_append _ _⟩
  · intro other hother hfront
    rw [hdrop, Variable.spelling, List.cons_prefix_cons] at hfront
    -- A longer path would go on behind the label.
    have hchars : ∀ c ∈ Text.join "." other, isPathChar c = true := by
      intro c hc
      rcases Variable.mem_join hother.2 hc with rfl | hc
      · decide
      · simp [isPathChar, hc]
    obtain ⟨behind, hsplit⟩ := hfront.2
    have htake := congrArg (List.takeWhile isPathChar) hsplit
    rw [List.takeWhile_append_of_pos hchars, List.takeWhile_append_of_pos h.isPath, hbehind,
      List.append_nil] at htake
    rw [Variable.spelling, Variable.spelling, Text.join_singleton]
    exact Nat.succ_le_succ (List.IsPrefix.length_le ⟨_, htake⟩)

/-- Entries with distinct keys have a value once if it has just one key. -/
theorem Text.count_found_eq_one_iff {α : Type} [BEq α] [LawfulBEq α] {found : List (Nat × α)}
    {a : α} (h : found.Pairwise fun first second => first.1 < second.1) :
    (found.map Prod.snd).count a = 1 ↔ ∃! offset, (offset, a) ∈ found := by
  induction found with
  | nil => simp
  | cons entry found ih =>
    obtain ⟨hfirst, hfound⟩ := List.pairwise_cons.1 h
    obtain ⟨k, b⟩ := entry
    rw [List.map_cons, List.count_cons]
    by_cases hb : b = a
    · subst hb
      have hzero : (found.map Prod.snd).count b = 0 ↔ ∀ offset, (offset, b) ∉ found := by
        simp [List.count_eq_zero]
      simp only [beq_self_eq_true, if_true, Nat.add_eq_right, hzero]
      constructor
      · intro hnone
        refine ⟨k, List.mem_cons_self, fun offset hoffset => ?_⟩
        rcases List.mem_cons.1 hoffset with heq | hmem
        · exact congrArg Prod.fst heq
        · exact absurd hmem (hnone offset)
      · rintro ⟨only, -, hunique⟩ offset hmem
        have hlt : k < offset := hfirst _ hmem
        have hk := hunique k List.mem_cons_self
        have hoffset := hunique offset (List.mem_cons_of_mem _ hmem)
        omega
    · simp [hb, Ne.symm hb, ih hfound]

end Places

/-! ## Flags -/

namespace Usage

section Flags

variable {ctx : Context} {kind : Kind} {hasChild isBlockName : Text → Bool}
  {conditions : List Text} {text name : Text}

/-- A name stands once as a plain variable if there is just one place where it
does. -/
theorem count_paths_eq_one_iff {path : List Text} :
    (Variable.paths text).count path = 1 ↔ ∃! offset, Variable.StandsAt text offset path := by
  rw [Variable.paths, Text.count_found_eq_one_iff (Text.pairwise_findAll text)]
  simp only [Variable.mem_findAll_iff_standsAt]

/-- A condition is a flag if it stands once as a plain variable, and else has
the type that it has without any conditions. -/
theorem get?_variableTypes (hnodup : conditions.Nodup) (hname : name ∈ conditions) :
    ((∃! offset, Variable.StandsAt text offset [name]) →
        (variableTypes ctx kind hasChild conditions text).get? name = some ctx.booleanType) ∧
      ((¬ ∃! offset, Variable.StandsAt text offset [name]) →
        (variableTypes ctx kind hasChild conditions text).get? name =
          (variableTypes ctx kind hasChild [] text).get? name) := by
  have huses : (scanVariables ctx kind hasChild text).uses.get? name = some 1 ↔
      ∃! offset, Variable.StandsAt text offset [name] := by
    rw [← count_paths_eq_one_iff, get?_uses_scanVariables]
    split
    · rename_i hzero
      simp [hzero]
    · rw [Option.some.injEq]
      omega
  unfold variableTypes
  rw [get?_types_foldl_flag hnodup]
  exact ⟨fun hone => if_pos ⟨hname, huses.2 hone⟩,
    fun hother => if_neg fun hboth => hother (huses.1 hboth.2)⟩

/-- A name that stands in conditions only is a flag if there is just one of
them.  If there are more, they leave it the type that it has without any
conditions. -/
theorem variableTypes_of_only_conditions
    (hcondition : name ∈ conditionNames ctx isBlockName text) (hdot : .char '.' ∉ name)
    (honly : ∀ offset path, Variable.StandsAt text offset (name :: path) →
      Condition.LeadsAt text offset (Text.join "." (name :: path))) :
    ((∃! offset, Condition.LeadsAt text offset name) →
        (variableTypes ctx kind hasChild (conditionNames ctx isBlockName text) text).get? name =
          some ctx.booleanType) ∧
      ((¬ ∃! offset, Condition.LeadsAt text offset name) →
        (variableTypes ctx kind hasChild (conditionNames ctx isBlockName text) text).get? name =
          (variableTypes ctx kind hasChild [] text).get? name) := by
  have hsame : ∀ offset, Condition.LeadsAt text offset name ↔
      Variable.StandsAt text offset [name] :=
    fun offset => ⟨fun h => h.standsAt hdot, fun h => Text.join_singleton "." name ▸ honly _ _ h⟩
  simp only [hsame]
  exact get?_variableTypes (Text.nodup_eraseDups _) hcondition

/-- One condition makes a flag. -/
theorem variableTypes_one_condition :
    (variableTypes Context.base .loop (fun _ => false)
      (conditionNames Context.base (fun _ => false) "<% if not $Sale %>a<% end_if %>")
      "<% if not $Sale %>a<% end_if %>").get? "Sale" = some "Boolean" := by
  have hfound : Text.findAll Variable.here? "<% if not $Sale %>a<% end_if %>" =
      [(10, [("Sale" : Text)])] := by decide +kernel
  have hconditions : ("Sale" : Text) ∈ conditionNames Context.base (fun _ => false)
      "<% if not $Sale %>a<% end_if %>" := by decide +kernel
  have hlead : Condition.LeadsAt "<% if not $Sale %>a<% end_if %>" 10 "Sale" :=
    ⟨by decide, List.all_eq_true.1 (by decide), [], "<% if not ", [], "a<% end_if %>", .inr rfl,
      by decide, by decide, by decide, by simp⟩
  have honly : ∀ offset path, Variable.StandsAt "<% if not $Sale %>a<% end_if %>" offset
      (("Sale" : Text) :: path) → Condition.LeadsAt "<% if not $Sale %>a<% end_if %>" offset
        (Text.join "." (("Sale" : Text) :: path)) := by
    intro offset path h
    rw [← Variable.mem_findAll_iff_standsAt, hfound, List.mem_singleton] at h
    obtain ⟨rfl, hpath⟩ := Prod.mk.inj h
    rw [hpath]
    exact hlead
  refine (variableTypes_of_only_conditions hconditions (by decide) honly).1
    ⟨10, hlead, fun offset h => ?_⟩
  have hmem := Variable.mem_findAll_iff_standsAt.2 (h.standsAt (by decide))
  rw [hfound, List.mem_singleton] at hmem
  exact congrArg Prod.fst hmem

/-- A name that stands in conditions only, but in two of them, is no flag. -/
theorem variableTypes_two_conditions :
    ("Sale" : Text) ∈ conditionNames Context.base (fun _ => false)
        "<% if $Sale %>a<% end_if %><% if $Sale %>b<% end_if %>" ∧
      .char '.' ∉ ("Sale" : Text) ∧
      (∃ offset, Variable.StandsAt "<% if $Sale %>a<% end_if %><% if $Sale %>b<% end_if %>" offset
        [("Sale" : Text)]) ∧
      (∀ offset path, Variable.StandsAt "<% if $Sale %>a<% end_if %><% if $Sale %>b<% end_if %>"
        offset (("Sale" : Text) :: path) →
          Condition.LeadsAt "<% if $Sale %>a<% end_if %><% if $Sale %>b<% end_if %>" offset
            (Text.join "." (("Sale" : Text) :: path))) ∧
      (variableTypes Context.base .root (fun _ => false)
        (conditionNames Context.base (fun _ => false)
          "<% if $Sale %>a<% end_if %><% if $Sale %>b<% end_if %>")
        "<% if $Sale %>a<% end_if %><% if $Sale %>b<% end_if %>").get? "Sale" ≠
          some Context.base.booleanType := by
  have hfound : Text.findAll Variable.here?
      "<% if $Sale %>a<% end_if %><% if $Sale %>b<% end_if %>" =
        [(6, [("Sale" : Text)]), (33, [("Sale" : Text)])] := by decide +kernel
  refine ⟨by decide +kernel, by decide, ⟨6, ?_⟩, ?_, by decide +kernel⟩
  · rw [← Variable.mem_findAll_iff_standsAt, hfound]
    exact List.mem_cons_self
  · intro offset path h
    rw [← Variable.mem_findAll_iff_standsAt, hfound, List.mem_cons, List.mem_singleton] at h
    rcases h with h | h <;> obtain ⟨rfl, hpath⟩ := Prod.mk.inj h <;> rw [hpath]
    · exact ⟨by decide, List.all_eq_true.1 (by decide), [], "<% if ", [],
        "a<% end_if %><% if $Sale %>b<% end_if %>", .inl rfl, by decide, by decide, by decide,
        by simp⟩
    · exact ⟨by decide, List.all_eq_true.1 (by decide), "<% if $Sale %>a<% end_if %>", "<% if ",
        [], "b<% end_if %>", .inl rfl, by decide, by decide, by decide, by simp⟩

end Flags

end Usage

end TemplateScopes
