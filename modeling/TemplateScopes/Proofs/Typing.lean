import TemplateScopes.Proofs.Variables
import TemplateScopes.Proofs.Flags

/-!
# The types of the variables in closed form

The types of the variables of a text are found one variable after the other,
and then one condition after the other, in one map that all of them write.
This module says what the map holds in the end, from the variables and the
conditions alone.

There are four groups.

* The closed form.  `listedNames` are the names that variables put into the
  map, `flagNames` those that conditions turn into flags, `dataType` is the
  type of a name that is no flag, and `expectedTypes` puts them together.
* Maps over their keys.  `insert_map_keys` is `OrderedMap.insert` for a map
  that is given by its keys and a function.
* The two passes.  `Lists` is the state after some variables, and `Flags`
  the state after some conditions as well.  One more variable keeps the one
  (`Lists.note_plain`, `Lists.note_dotted`), and one more condition the
  other (`Flags.flag`).
* The whole.  `variableTypes_eq_expectedTypes`.
-/

namespace TemplateScopes.Usage

/-! ## The closed form -/

/-- The name that a variable puts into the map.  With a member it is that of
the relation, unless that is an accessor.  A plain name must not be that of a
child, and it must not be a method of lists in a loop, nor an accessor in any
other scope. -/
def listedName (ctx : Context) (kind : Kind) (hasChild : Text → Bool) :
    List Text → Option Text
  | [] => none
  | [label] =>
    if hasChild label then none
    else if kind = .loop then if ctx.isCollectionMethod label then none else some label
    else if ctx.isGlobalAccessor label then none else some label
  | relation :: _ :: _ => if ctx.isGlobalAccessor relation then none else some relation

/-- The names that variables put into the map, each where it first comes. -/
def listedNames (ctx : Context) (kind : Kind) (hasChild : Text → Bool)
    (paths : List (List Text)) : List Text :=
  (paths.filterMap (listedName ctx kind hasChild)).eraseDups

/-- The member that a variable takes of the relation with the given name. -/
def memberOf (name : Text) : List Text → Option Text
  | relation :: member :: _ => if relation = name then some member else none
  | _ => none

/-- The member that the last such variable takes. -/
def lastMember? (paths : List (List Text)) (name : Text) : Option Text :=
  (paths.filterMap (memberOf name)).getLast?

/-- The type of a name that is no flag.  The last variable that takes a
member of it decides.  An accessor has no members, and a name without members
has the type that it suggests. -/
def dataType (ctx : Context) (paths : List (List Text)) (name : Text) : Text :=
  if ctx.isGlobalAccessor name then ctx.infer name
  else
    match lastMember? paths name with
    | none => ctx.infer name
    | some member =>
      (ctx.fieldType? member).getD (if ctx.isKnownType name then name else ctx.relationType)

/-- Whether a name stands as a plain variable, and as a condition no less
often. -/
def IsFlag (paths : List (List Text)) (conditions : List Text) (name : Text) : Prop :=
  1 ≤ paths.count [name] ∧ paths.count [name] ≤ conditions.count name

instance (paths : List (List Text)) (conditions : List Text) (name : Text) :
    Decidable (IsFlag paths conditions name) :=
  inferInstanceAs (Decidable (_ ∧ _))

/-- The flags, each at the condition that is the last one to be needed for
that. -/
def flagNames (paths : List (List Text)) (conditions : List Text) : List Text :=
  (conditions.zipIdx.filter fun entry =>
    (conditions.take (entry.2 + 1)).count entry.1 = paths.count [entry.1]).map Prod.fst

/-- The names that have a type: those that variables list, and behind them
the flags that none of these lists. -/
def typedNames (ctx : Context) (kind : Kind) (hasChild : Text → Bool) (conditions : List Text)
    (paths : List (List Text)) : List Text :=
  listedNames ctx kind hasChild paths ++
    (flagNames paths conditions).filter fun name =>
      !(listedNames ctx kind hasChild paths).contains name

/-- The type of a name. -/
def typeOf (ctx : Context) (conditions : List Text) (paths : List (List Text))
    (name : Text) : Text :=
  if IsFlag paths conditions name then ctx.booleanType else dataType ctx paths name

/-- The types of the variables with the given paths, given the names that
stand as conditions. -/
def expectedTypes (ctx : Context) (kind : Kind) (hasChild : Text → Bool)
    (conditions : List Text) (paths : List (List Text)) : OrderedMap Text :=
  (typedNames ctx kind hasChild conditions paths).map fun name =>
    (name, typeOf ctx conditions paths name)

/-! ## Maps over their keys -/

section Maps

variable {α : Type} {names : List Text} {value : Text → α} {key : Text} {v : α}

/-- A key of the map keeps its place and gets its new value, and a new one
goes to the end. -/
theorem insert_map_keys (hnodup : names.Nodup) :
    OrderedMap.insert (names.map fun name => (name, value name)) key v =
      (if key ∈ names then names else names ++ [key]).map fun name =>
        (name, if name = key then v else value name) := by
  induction names with
  | nil => simp [OrderedMap.insert]
  | cons name names ih =>
    obtain ⟨hnew, hnodup⟩ := List.nodup_cons.1 hnodup
    rw [List.map_cons, OrderedMap.insert]
    by_cases hname : name = key
    · subst hname
      have hsame : ∀ n ∈ names, (n, value n) = (n, if n = name then v else value n) := by
        intro n hn
        have hne : n ≠ name := fun heq => hnew (heq ▸ hn)
        rw [if_neg hne]
      rw [if_pos rfl, if_pos List.mem_cons_self, List.map_cons, if_pos rfl,
        List.map_congr_left hsame]
    · rw [if_neg hname, ih hnodup]
      by_cases hmem : key ∈ names
      · simp [hmem, hname]
      · simp [hmem, hname, Ne.symm hname]

end Maps

/-! ## The two passes -/

section Variables

variable {ctx : Context} {kind : Kind} {hasChild : Text → Bool} {paths : List (List Text)}
  {name label relation member : Text} {rest path : List Text}

theorem listedName_plain :
    listedName ctx kind hasChild [label] =
      if hasChild label || isFrameworkName ctx kind label then none else some label := by
  simp only [listedName, isFrameworkName]
  by_cases hchild : hasChild label = true
  · simp [hchild]
  · by_cases hkind : kind = .loop
    · simp [hchild, hkind]
    · simp [hchild, hkind]

/-- A name that comes once more is not kept. -/
theorem eraseDups_concat (names : List Text) (name : Text) :
    (names ++ [name]).eraseDups =
      if name ∈ names.eraseDups then names.eraseDups else names.eraseDups ++ [name] := by
  rw [List.eraseDups_append]
  by_cases hname : name ∈ names
  · have hnew : [name].removeAll names = [] := by simp [List.removeAll, hname]
    rw [hnew, if_pos (List.mem_eraseDups.2 hname)]
    exact List.append_nil _
  · have hnew : [name].removeAll names = [name] := by simp [List.removeAll, hname]
    rw [hnew, if_neg (mt List.mem_eraseDups.1 hname)]
    rfl

/-- One more variable adds the name that it lists, unless that is there. -/
theorem listedNames_concat :
    listedNames ctx kind hasChild (paths ++ [path]) =
      match listedName ctx kind hasChild path with
      | none => listedNames ctx kind hasChild paths
      | some name =>
        if name ∈ listedNames ctx kind hasChild paths then listedNames ctx kind hasChild paths
        else listedNames ctx kind hasChild paths ++ [name] := by
  unfold listedNames
  rw [List.filterMap_append]
  cases hname : listedName ctx kind hasChild path with
  | none => simp [hname]
  | some name =>
    simp only [List.filterMap_cons, hname, List.filterMap_nil]
    exact eraseDups_concat _ name

theorem lastMember?_concat :
    lastMember? (paths ++ [path]) name =
      match memberOf name path with
      | none => lastMember? paths name
      | some member => some member := by
  unfold lastMember?
  rw [List.filterMap_append]
  cases hmember : memberOf name path with
  | none => simp [hmember]
  | some member => simp [hmember]

theorem exists_of_memberOf (h : memberOf name path = some member) :
    ∃ rest, path = name :: member :: rest := by
  unfold memberOf at h
  split at h
  · rename_i relation other rest
    split at h
    · rename_i heq
      exact ⟨rest, by rw [heq, Option.some.inj h]⟩
    · cases h
  · cases h

/-- A variable that takes no member of a name leaves the type of the
name. -/
theorem dataType_concat_of_memberOf (h : memberOf name path = none) :
    dataType ctx (paths ++ [path]) name = dataType ctx paths name := by
  unfold dataType
  rw [lastMember?_concat, h]

/-- A relation has the type that its last member says. -/
theorem dataType_concat_relation (h : ctx.isGlobalAccessor relation = false) :
    dataType ctx (paths ++ [relation :: member :: rest]) relation =
      relationType ctx relation member := by
  simp only [dataType, relationType, lastMember?_concat, memberOf, h, ↓reduceIte,
    Bool.false_eq_true]
  cases ctx.fieldType? member with
  | none => rfl
  | some type => rfl

/-- A name that no variable has put into the map has no member that
counts. -/
theorem dataType_of_not_listed (h : name ∉ listedNames ctx kind hasChild paths) :
    dataType ctx paths name = ctx.infer name := by
  unfold dataType
  split
  · rfl
  · rename_i haccessor
    cases hlast : lastMember? paths name with
    | none => rfl
    | some member =>
      obtain ⟨path, hpath, hmember⟩ := List.mem_filterMap.1 (List.mem_of_getLast? hlast)
      obtain ⟨rest, rfl⟩ := exists_of_memberOf hmember
      have hlisted : listedName ctx kind hasChild (name :: member :: rest) = some name :=
        if_neg haccessor
      exact absurd (List.mem_eraseDups.2 (List.mem_filterMap.2 ⟨_, hpath, hlisted⟩)) h

theorem nodup_listedNames : (listedNames ctx kind hasChild paths).Nodup :=
  Text.nodup_eraseDups _

theorem has_map_iff {names : List Text} {value : Text → Text} :
    OrderedMap.has (names.map fun name => (name, value name)) label = true ↔ label ∈ names := by
  rw [OrderedMap.has_iff]
  simp [OrderedMap.keys]

/-- Whether the map has the names that some variables list, each with the type
that they say. -/
def Lists (ctx : Context) (kind : Kind) (hasChild : Text → Bool) (paths : List (List Text))
    (found : Found) : Prop :=
  found.types =
    (listedNames ctx kind hasChild paths).map fun name => (name, dataType ctx paths name)

/-- One more plain variable. -/
theorem Lists.note_plain {found : Found} (h : Lists ctx kind hasChild paths found) :
    Lists ctx kind hasChild (paths ++ [[label]]) (note ctx kind hasChild found [label]) := by
  have hsame : ∀ name, dataType ctx (paths ++ [[label]]) name = dataType ctx paths name :=
    fun _ => dataType_concat_of_memberOf rfl
  unfold Lists at *
  simp only [hsame, listedNames_concat, listedName_plain]
  rw [types_note_plain, h, Bool.or_assoc]
  by_cases hrejected : (hasChild label || isFrameworkName ctx kind label) = true
  · rw [if_pos hrejected, hrejected, Bool.or_true, if_pos rfl]
  · rw [if_neg hrejected, Bool.eq_false_iff.2 hrejected, Bool.or_false]
    by_cases hlisted : label ∈ listedNames ctx kind hasChild paths
    · rw [if_pos (has_map_iff.2 hlisted)]
      simp only [if_pos hlisted]
    · rw [if_neg (mt has_map_iff.1 hlisted), insert_map_keys nodup_listedNames]
      -- The guess is right for a new name, as no variable took a member of it.
      refine List.map_congr_left fun name _ => ?_
      by_cases hname : name = label
      · rw [if_pos hname, hname, dataType_of_not_listed hlisted]
      · rw [if_neg hname]

/-- One more variable with a member. -/
theorem Lists.note_dotted {found : Found} (h : Lists ctx kind hasChild paths found) :
    Lists ctx kind hasChild (paths ++ [relation :: member :: rest])
      (note ctx kind hasChild found (relation :: member :: rest)) := by
  have hother : ∀ name, name ≠ relation →
      dataType ctx (paths ++ [relation :: member :: rest]) name = dataType ctx paths name :=
    fun name hname => dataType_concat_of_memberOf (if_neg (Ne.symm hname))
  unfold Lists at *
  rw [types_note_dotted, h, listedNames_concat, listedName]
  by_cases haccessor : ctx.isGlobalAccessor relation = true
  · rw [if_pos haccessor, if_pos haccessor]
    refine List.map_congr_left fun name _ => ?_
    by_cases hname : name = relation
    · simp only [dataType, hname, if_pos haccessor]
    · rw [hother name hname]
  · rw [if_neg haccessor, if_neg haccessor, insert_map_keys nodup_listedNames]
    refine List.map_congr_left fun name _ => ?_
    by_cases hname : name = relation
    · rw [if_pos hname, hname, dataType_concat_relation (Bool.eq_false_iff.2 haccessor)]
    · rw [if_neg hname, hother name hname]

/-- The first pass. -/
theorem lists_foldl_note :
    Lists ctx kind hasChild paths (paths.foldl (note ctx kind hasChild) Found.none) := by
  -- The last variable decides, so the induction goes from the right end.
  induction paths using List.reverseRecOn with
  | nil => rfl
  | append_singleton paths path ih =>
    rw [List.foldl_append]
    match path with
    | [] =>
      have hsame : ∀ name, dataType ctx (paths ++ [[]]) name = dataType ctx paths name :=
        fun _ => dataType_concat_of_memberOf rfl
      simp only [Lists, hsame, listedNames_concat]
      exact ih
    | [label] => exact ih.note_plain
    | relation :: member :: rest => exact ih.note_dotted

end Variables

section Conditions

variable {ctx : Context} {kind : Kind} {hasChild : Text → Bool} {paths : List (List Text)}
  {conditions : List Text} {condition name : Text}

/-- One more condition makes a flag if it is the last one that its name
needs. -/
theorem flagNames_concat :
    flagNames paths (conditions ++ [condition]) =
      if conditions.count condition + 1 = paths.count [condition] then
        flagNames paths conditions ++ [condition]
      else flagNames paths conditions := by
  -- A place in the shorter list has the same conditions in front of it.
  have hbefore : ∀ entry ∈ conditions.zipIdx,
      decide (((conditions ++ [condition]).take (entry.2 + 1)).count entry.1 =
        paths.count [entry.1]) =
      decide ((conditions.take (entry.2 + 1)).count entry.1 = paths.count [entry.1]) := by
    intro entry hentry
    have hlt := (List.mk_mem_zipIdx_iff_getElem?.1 hentry)
    obtain ⟨hlt, -⟩ := List.getElem?_eq_some_iff.1 hlt
    rw [List.take_append_of_le_length (by omega)]
  have hwhole : (conditions ++ [condition]).take (conditions.length + 1) =
      conditions ++ [condition] := List.take_of_length_le (by simp)
  unfold flagNames
  rw [List.zipIdx_append, List.filter_append, List.filter_congr hbefore]
  by_cases hlast : conditions.count condition + 1 = paths.count [condition]
  · simp [hwhole, List.count_append, hlast]
  · simp [hwhole, List.count_append, hlast]

theorem count_concat_self :
    (conditions ++ [condition]).count condition = conditions.count condition + 1 := by
  rw [List.count_append, List.count_singleton_self]

theorem count_concat_of_ne (h : name ≠ condition) :
    (conditions ++ [condition]).count name = conditions.count name := by
  rw [List.count_append, List.count_cons_of_ne (Ne.symm h), List.count_nil, Nat.add_zero]

/-- The flags are the names that stand as conditions no less often than as
plain variables. -/
theorem mem_flagNames_iff : name ∈ flagNames paths conditions ↔ IsFlag paths conditions name := by
  unfold IsFlag
  induction conditions using List.reverseRecOn with
  | nil =>
    constructor
    · intro h
      cases h
    · intro h
      exact absurd (h.1.trans h.2) (by simp)
  | append_singleton conditions condition ih =>
    rw [flagNames_concat]
    by_cases hname : name = condition
    · subst hname
      rw [count_concat_self]
      split
      · rename_i hlast
        rw [List.mem_append, List.mem_singleton]
        exact ⟨fun _ => by omega, fun _ => .inr rfl⟩
      · rw [ih]
        omega
    · rw [count_concat_of_ne hname, ← ih]
      split
      · simp [hname]
      · rfl

theorem not_isFlag_of_last (h : conditions.count condition + 1 = paths.count [condition]) :
    ¬ IsFlag paths conditions condition :=
  fun hflag => absurd hflag.2 (by omega)

theorem nodup_flagNames : (flagNames paths conditions).Nodup := by
  induction conditions using List.reverseRecOn with
  | nil => exact List.nodup_nil
  | append_singleton conditions condition ih =>
    rw [flagNames_concat]
    split
    · rename_i hlast
      have hnew := mt mem_flagNames_iff.1 (not_isFlag_of_last hlast)
      exact List.concat_eq_append ▸ ih.concat hnew
    · exact ih

/-- A condition that is not the last one that its name needs changes no
flag. -/
theorem isFlag_concat_iff
    (h : name = condition → conditions.count condition + 1 ≠ paths.count [condition]) :
    IsFlag paths (conditions ++ [condition]) name ↔ IsFlag paths conditions name := by
  unfold IsFlag
  by_cases hname : name = condition
  · have hmore := h hname
    rw [hname, count_concat_self]
    omega
  · rw [count_concat_of_ne hname]

theorem isFlag_concat_self (h : conditions.count condition + 1 = paths.count [condition]) :
    IsFlag paths (conditions ++ [condition]) condition := by
  unfold IsFlag
  rw [count_concat_self]
  omega

theorem nodup_typedNames : (typedNames ctx kind hasChild conditions paths).Nodup := by
  refine List.nodup_append.2 ⟨nodup_listedNames, nodup_flagNames.filter _, ?_⟩
  intro listed hlisted flag hflag heq
  have hnew := (List.mem_filter.1 hflag).2
  rw [← heq, Bool.not_eq_true', List.contains_eq_mem, decide_eq_false_iff_not] at hnew
  exact hnew hlisted

/-- The last condition that a name needs gives the name a type, unless it has
one. -/
theorem typedNames_concat :
    typedNames ctx kind hasChild (conditions ++ [condition]) paths =
      if conditions.count condition + 1 = paths.count [condition] ∧
          condition ∉ typedNames ctx kind hasChild conditions paths then
        typedNames ctx kind hasChild conditions paths ++ [condition]
      else typedNames ctx kind hasChild conditions paths := by
  unfold typedNames
  rw [flagNames_concat]
  by_cases hlast : conditions.count condition + 1 = paths.count [condition]
  · have hnew := mt mem_flagNames_iff.1 (not_isFlag_of_last hlast)
    rw [if_pos hlast, List.filter_append, ← List.append_assoc]
    by_cases hlisted : condition ∈ listedNames ctx kind hasChild paths
    · simp [hlisted]
    · simp [hlisted, hlast, hnew]
  · simp [hlast]

/-- A condition makes its name a flag if one plain use of it is left. -/
theorem types_flag {found : Found} :
    (flag ctx found condition).types =
      if found.uses.get? condition = some 1 then found.types.insert condition ctx.booleanType
      else found.types := by
  unfold flag
  split
  · rename_i hnone
    rw [if_neg (by simp [hnone])]
  · rename_i n hsome
    simp only [hsome, Option.some.injEq]
    by_cases hone : n = 1
    · rw [if_pos hone, if_pos (by omega)]
    · rw [if_neg hone, if_neg (by omega)]

theorem get?_uses_flag_self {found : Found} :
    (flag ctx found condition).uses.get? condition =
      (found.uses.get? condition).map fun n => n - 1 := by
  unfold flag
  split
  · rename_i hnone
    rw [hnone]
    rfl
  · rename_i n hsome
    simp only [hsome, Option.map_some]
    split <;> exact (OrderedMap.get?_insert ..).trans (if_pos rfl)

/-- Whether the map has the names and types that some conditions leave, and
the plain uses that these have not taken are counted. -/
structure Flags (ctx : Context) (kind : Kind) (hasChild : Text → Bool)
    (paths : List (List Text)) (conditions : List Text) (found : Found) : Prop where
  types : found.types = expectedTypes ctx kind hasChild conditions paths
  uses : ∀ name, found.uses.get? name =
    if paths.count [name] = 0 then none
    else some ((paths.count [name] : Int) - conditions.count name)

/-- One plain use of a name is left if the next condition is the last one that
it needs. -/
theorem Flags.uses_eq_one_iff {found : Found} (h : Flags ctx kind hasChild paths conditions found) :
    found.uses.get? condition = some 1 ↔
      conditions.count condition + 1 = paths.count [condition] := by
  rw [h.uses]
  split
  · simp
    omega
  · rw [Option.some.injEq]
    omega

/-- One more condition. -/
theorem Flags.flag {found : Found} (h : Flags ctx kind hasChild paths conditions found) :
    Flags ctx kind hasChild paths (conditions ++ [condition]) (flag ctx found condition) := by
  constructor
  · have hother : ∀ name,
        (name = condition → conditions.count condition + 1 ≠ paths.count [condition]) →
        typeOf ctx (conditions ++ [condition]) paths name = typeOf ctx conditions paths name :=
      fun name hname => by simp only [typeOf, isFlag_concat_iff hname]
    rw [types_flag, h.types]
    simp only [h.uses_eq_one_iff, expectedTypes, typedNames_concat]
    by_cases hlast : conditions.count condition + 1 = paths.count [condition]
    · rw [if_pos hlast, insert_map_keys nodup_typedNames]
      have hnames : (if condition ∈ typedNames ctx kind hasChild conditions paths then
            typedNames ctx kind hasChild conditions paths
          else typedNames ctx kind hasChild conditions paths ++ [condition]) =
          if conditions.count condition + 1 = paths.count [condition] ∧
              condition ∉ typedNames ctx kind hasChild conditions paths then
            typedNames ctx kind hasChild conditions paths ++ [condition]
          else typedNames ctx kind hasChild conditions paths := by
        simp only [hlast, true_and, ite_not]
      rw [hnames]
      refine List.map_congr_left fun name _ => ?_
      by_cases hname : name = condition
      · rw [if_pos hname, hname, typeOf, if_pos (isFlag_concat_self hlast)]
      · rw [if_neg hname, hother name fun heq => absurd heq hname]
    · rw [if_neg hlast, if_neg fun hboth => hlast hboth.1]
      exact List.map_congr_left fun name _ => by rw [hother name fun _ => hlast]
  · intro name
    by_cases hname : name = condition
    · subst hname
      rw [get?_uses_flag_self, h.uses, count_concat_self]
      split
      · rfl
      · rw [Option.map_some, Option.some.injEq]
        omega
    · rw [get?_uses_flag_of_ne hname, h.uses, count_concat_of_ne hname]

/-- The second pass. -/
theorem flags_foldl_flag {found : Found} (h : Flags ctx kind hasChild paths [] found) :
    Flags ctx kind hasChild paths conditions (conditions.foldl (Usage.flag ctx) found) := by
  induction conditions using List.reverseRecOn with
  | nil => exact h
  | append_singleton conditions condition ih =>
    rw [List.foldl_append]
    exact ih.flag

/-- Before the first condition there are no flags. -/
theorem Lists.flags {found : Found} (h : Lists ctx kind hasChild paths found)
    (huses : ∀ name, found.uses.get? name =
      if paths.count [name] = 0 then none else some (paths.count [name] : Int)) :
    Flags ctx kind hasChild paths [] found := by
  have hnone : ∀ name, ¬ IsFlag paths [] name :=
    fun name hflag => absurd (hflag.1.trans hflag.2) (by simp)
  constructor
  · rw [h, expectedTypes, typedNames]
    simp [flagNames, typeOf, hnone]
  · simpa using huses

end Conditions

/-! ## The whole -/

/-- The types of the variables of a text depend on which variables stand in
it, one behind the other, and on its conditions.  The variables that stand in
a text are the longest ones at their places. -/
theorem variableTypes_eq_expectedTypes (ctx : Context) (kind : Kind) (hasChild : Text → Bool)
    (conditions : List Text) (text : Text) :
    ∃ found : List (Nat × List Text),
      found.Pairwise (fun first second => first.1 < second.1) ∧
      (∀ offset path, (offset, path) ∈ found ↔ Variable.StandsAt text offset path) ∧
      variableTypes ctx kind hasChild conditions text =
        expectedTypes ctx kind hasChild conditions (found.map Prod.snd) := by
  refine ⟨Text.findAll Variable.here? text, Text.pairwise_findAll text,
    fun offset path => Variable.mem_findAll_iff_standsAt, ?_⟩
  have hfirst : Flags ctx kind hasChild (Variable.paths text) []
      (scanVariables ctx kind hasChild text) :=
    lists_foldl_note.flags fun name => get?_uses_scanVariables text
  exact (flags_foldl_flag hfirst).types

end TemplateScopes.Usage
