import TemplateScopes.Proofs.Joining

/-!
# The variables of a text

A variable is a sigil with a path of names behind it, and as much of the text
belongs to it as can.  This module says which places of a text that are,
without the way in which they are found.

There are three groups.

* Paths.  `Variable.IsPath` is a sequence of names, and `Variable.spelling`
  writes it down.
* The longest path.  `pathAt` finds a path (`isPath_pathAt`) that stands at
  the beginning of the text (`join_pathAt_prefix`), and every other one that
  does so is a part of it (`prefix_join_pathAt`).
* Places.  `Variable.StandsAt` says that a variable stands at an offset and
  that no longer one does, and `mem_findAll_iff_standsAt` that the search
  lists these variables.
-/

namespace TemplateScopes.Variable

/-! ## Paths -/

/-- Whether a text is a name. -/
def IsName (name : Text) : Prop :=
  name ≠ [] ∧ ∀ c ∈ name, isNameChar c = true

/-- Whether a path has a name and nothing but names. -/
def IsPath (path : List Text) : Prop :=
  path ≠ [] ∧ ∀ name ∈ path, IsName name

/-- A variable as it stands in a text. -/
def spelling (path : List Text) : Text :=
  .char '$' :: Text.join "." path

section Paths

variable {c : CodePoint} {name next : Text} {more path : List Text}

theorem not_isNameChar_dot : isNameChar '.' = false := by decide

theorem not_isNameChar_sigil : isNameChar '$' = false := by decide

theorem join_cons_cons (name next : Text) (more : List Text) :
    Text.join "." (name :: next :: more) = name ++ .char '.' :: Text.join "." (next :: more) := by
  rw [Text.join_cons_cons, List.append_assoc]
  rfl

theorem isPath_cons_cons :
    IsPath (name :: next :: more) ↔ IsName name ∧ IsPath (next :: more) := by
  simp [IsPath]

theorem IsPath.head (h : IsPath (name :: more)) : IsName name :=
  h.2 name List.mem_cons_self

theorem isName_singleton (h : isNameChar c = true) : IsName [c] := by
  simp [IsName, h]

/-- A path whose first name has more than one character is a path without the
first character as well. -/
theorem isPath_cons_append (hc : isNameChar c = true) (hname : name ≠ []) :
    IsPath ((c :: name) :: more) ↔ IsPath (name :: more) := by
  simp [IsPath, IsName, hc, hname]

/-- A path has names and dots only. -/
theorem mem_join {path : List Text} (h : ∀ name ∈ path, IsName name)
    (hc : c ∈ Text.join "." path) : c = .char '.' ∨ isNameChar c = true := by
  induction path with
  | nil => cases hc
  | cons name more ih =>
    obtain ⟨hname, hmore⟩ := List.forall_mem_cons.1 h
    cases more with
    | nil =>
      rw [Text.join_singleton] at hc
      exact .inr (hname.2 c hc)
    | cons next more =>
      rw [join_cons_cons, List.mem_append, List.mem_cons] at hc
      rcases hc with hc | hc | hc
      · exact .inr (hname.2 c hc)
      · exact .inl hc
      · exact ih hmore hc

theorem IsPath.join_ne_nil (h : IsPath path) : Text.join "." path ≠ [] := by
  obtain ⟨name, more, rfl⟩ := List.exists_cons_of_ne_nil h.1
  obtain ⟨c, name, rfl⟩ := List.exists_cons_of_ne_nil h.head.1
  rw [Text.join_cons_append]
  exact List.cons_ne_nil _ _

/-- A name that a dot follows is over. -/
theorem name_eq_nil_of_dot {rest : Text} (h : IsPath ((c :: name) :: more))
    (hfront : Text.join "." (name :: more) <+: .char '.' :: rest) : name = [] := by
  cases name with
  | nil => rfl
  | cons d name =>
    rw [Text.join_cons_append, List.cons_prefix_cons] at hfront
    have hd := h.head.2 d (List.mem_cons_of_mem c List.mem_cons_self)
    rw [hfront.1, not_isNameChar_dot] at hd
    cases hd

/-- A path is read back from what is written for it. -/
theorem pathAt_join (h : IsPath path) : pathAt (Text.join "." path) = path := by
  induction path with
  | nil => exact absurd rfl h.1
  | cons name more ih =>
    obtain ⟨hne, hchars⟩ := h.head
    induction name with
    | nil => exact absurd rfl hne
    | cons c name ihname =>
      have hc := hchars c List.mem_cons_self
      by_cases hname : name = []
      · subst hname
        cases more with
        | nil => exact (pathAt_cons hc (by simp)).1
        | cons next more =>
          rw [join_cons_cons, List.cons_append, List.nil_append, pathAt, if_pos hc,
            ih (isPath_cons_cons.1 h).2]
      · have hrest := (isPath_cons_append hc hname).1 h
        have hdot : ∀ rest, Text.join "." (name :: more) = .char '.' :: rest → False :=
          fun rest heq => hname (name_eq_nil_of_dot h ⟨[], by rw [List.append_nil, heq]⟩)
        rw [Text.join_cons_append, (pathAt_cons hc hdot).1,
          ihname hrest hname fun d hd => hchars d (List.mem_cons_of_mem c hd)]

end Paths

/-! ## The longest path -/

section Longest

variable {c : CodePoint} {t : Text} {path : List Text}

theorem isName_of_mem_pathAt (t : Text) : ∀ name ∈ pathAt t, IsName name := by
  fun_induction pathAt t with
  | case1 | case3 | case6 => simp
  | case2 c rest hname ih => exact List.forall_mem_cons.2 ⟨isName_singleton hname, ih⟩
  | case4 c rest hdot hname hnil ih => simpa using isName_singleton hname
  | case5 c rest hdot hname name more hmore ih =>
    rw [hmore, List.forall_mem_cons] at ih
    refine List.forall_mem_cons.2 ⟨⟨List.cons_ne_nil _ _, ?_⟩, ih.2⟩
    exact List.forall_mem_cons.2 ⟨hname, ih.1.2⟩

theorem isPath_pathAt (h : pathAt t ≠ []) : IsPath (pathAt t) :=
  ⟨h, isName_of_mem_pathAt t⟩

theorem join_pathAt_prefix (t : Text) : Text.join "." (pathAt t) <+: t := by
  fun_induction pathAt t with
  | case1 | case3 | case6 => exact List.nil_prefix
  | case2 c rest hname ih =>
    cases hpath : pathAt rest with
    | nil =>
      rw [Text.join_singleton]
      exact List.cons_prefix_cons.2 ⟨rfl, List.nil_prefix⟩
    | cons next more =>
      rw [hpath] at ih
      rw [join_cons_cons]
      exact List.cons_prefix_cons.2 ⟨rfl, List.cons_prefix_cons.2 ⟨rfl, ih⟩⟩
  | case4 c rest hdot hname hnil ih =>
    rw [Text.join_singleton]
    exact List.cons_prefix_cons.2 ⟨rfl, List.nil_prefix⟩
  | case5 c rest hdot hname name more hmore ih =>
    rw [hmore] at ih
    rw [Text.join_cons_append]
    exact List.cons_prefix_cons.2 ⟨rfl, ih⟩

/-- Where no dot follows, a character stands in front of the path behind
it. -/
theorem join_pathAt_cons (hc : isNameChar c = true) (hdot : ∀ rest, t = .char '.' :: rest → False) :
    Text.join "." (pathAt (c :: t)) = c :: Text.join "." (pathAt t) := by
  rw [(pathAt_cons hc hdot).1]
  cases pathAt t with
  | nil => exact Text.join_singleton _ [c]
  | cons name more => exact Text.join_cons_append _ c name more

/-- Where a dot follows, the path goes on behind the dot, if it does go
on. -/
theorem prefix_join_pathAt_dot (hc : isNameChar c = true)
    (h : path ≠ [] → IsPath path ∧ Text.join "." path <+: Text.join "." (pathAt t)) :
    Text.join "." ([c] :: path) <+: Text.join "." (pathAt (c :: .char '.' :: t)) := by
  rw [pathAt, if_pos hc, Text.join_cons_append, Text.join_cons_append, List.cons_prefix_cons]
  refine ⟨rfl, ?_⟩
  cases path with
  | nil => exact List.nil_prefix
  | cons name more =>
    obtain ⟨hpath, hfront⟩ := h (List.cons_ne_nil _ _)
    cases hfound : pathAt t with
    | nil =>
      rw [hfound] at hfront
      exact absurd (List.prefix_nil.1 hfront) hpath.join_ne_nil
    | cons next others =>
      rw [hfound] at hfront
      rw [join_cons_cons, join_cons_cons]
      exact List.cons_prefix_cons.2 ⟨rfl, hfront⟩

/-- Every path at the beginning of a text is a part of the one that is
found. -/
theorem prefix_join_pathAt (h : IsPath path) (hfront : Text.join "." path <+: t) :
    Text.join "." path <+: Text.join "." (pathAt t) := by
  obtain ⟨first, more, rfl⟩ := List.exists_cons_of_ne_nil h.1
  obtain ⟨d, name, rfl⟩ := List.exists_cons_of_ne_nil h.head.1
  have hd := h.head.2 d List.mem_cons_self
  -- The path to compare with loses the same character as the text, or the same
  -- character and the dot.
  induction t using pathAt.induct generalizing d name more with
  | case1 =>
    rw [Text.join_cons_append] at hfront
    exact absurd (List.prefix_nil.1 hfront) (List.cons_ne_nil _ _)
  | case2 c rest hname ih =>
    rw [Text.join_cons_append, List.cons_prefix_cons] at hfront
    obtain ⟨rfl, hfront⟩ := hfront
    obtain rfl : name = [] := name_eq_nil_of_dot h hfront
    refine prefix_join_pathAt_dot hname fun hmore => ?_
    obtain ⟨next, more, rfl⟩ := List.exists_cons_of_ne_nil hmore
    have hpath := (isPath_cons_cons.1 h).2
    obtain ⟨e, next, rfl⟩ := List.exists_cons_of_ne_nil hpath.head.1
    rw [join_cons_cons, List.nil_append, List.cons_prefix_cons] at hfront
    exact ⟨hpath, ih more e next hpath hfront.2 (hpath.head.2 e List.mem_cons_self)⟩
  | case3 c rest hname =>
    rw [Text.join_cons_append, List.cons_prefix_cons] at hfront
    exact absurd (hfront.1 ▸ hd) hname
  | case4 c rest hdot hname _ ih | case5 c rest hdot hname _ _ _ ih =>
    rw [join_pathAt_cons hname hdot, Text.join_cons_append, List.cons_prefix_cons]
    rw [Text.join_cons_append, List.cons_prefix_cons] at hfront
    refine ⟨hfront.1, ?_⟩
    cases name with
    | nil =>
      cases more with
      | nil => exact List.nil_prefix
      | cons next more =>
        rw [join_cons_cons, List.nil_append] at hfront
        obtain ⟨rest', hrest⟩ := hfront.2
        exact (hdot _ hrest.symm).elim
    | cons e name =>
      have hpath := (isPath_cons_append hd (List.cons_ne_nil e name)).1 h
      exact ih more e name hpath hfront.2 (hpath.head.2 e List.mem_cons_self)
  | case6 c rest hdot hname =>
    rw [Text.join_cons_append, List.cons_prefix_cons] at hfront
    exact absurd (hfront.1 ▸ hd) hname

end Longest

/-! ## Places -/

section Places

variable {t : Text} {offset : Nat} {path : List Text}

/-- A variable stands at an offset if its spelling does and the spelling of
no longer variable does. -/
structure StandsAt (t : Text) (offset : Nat) (path : List Text) : Prop where
  isPath : IsPath path
  spelled : spelling path <+: t.drop offset
  longest : ∀ other, IsPath other → spelling other <+: t.drop offset →
    (spelling other).length ≤ (spelling path).length

/-- Inside a variable there is no further sigil. -/
theorem apart_here? : Text.Apart here? where
  nil := rfl
  inside := by
    intro t path n h k hpos hk
    obtain ⟨rest, rfl, hpath, hne, rfl⟩ := here?_eq_some_iff.1 h
    cases hmatch : here? ((.char '$' :: rest).drop k) with
    | none => rfl
    | some found =>
      obtain ⟨other, m⟩ := found
      obtain ⟨rest', hsigil, -⟩ := here?_eq_some_iff.1 hmatch
      obtain ⟨j, rfl⟩ : ∃ j, k = j + 1 := ⟨k - 1, by omega⟩
      obtain ⟨tail, htail⟩ := join_pathAt_prefix rest
      rw [hpath] at htail
      have hj : j < (Text.join "." path).length := by
        unfold pathLength at hk
        omega
      -- A sigil inside would be one of the characters of the path.
      have hin : .char '$' ∈ Text.join "." path := by
        rw [List.drop_succ_cons, ← htail, List.drop_append_of_le_length (by omega),
          List.drop_eq_getElem_cons hj] at hsigil
        rw [← (List.cons.inj hsigil).1]
        exact List.getElem_mem hj
      rcases mem_join (hpath ▸ isName_of_mem_pathAt rest) hin with hdot | hname
      · cases hdot
      · rw [not_isNameChar_sigil] at hname
        cases hname

/-- What `here?` finds at an offset is the variable that stands there. -/
theorem here?_drop_iff_standsAt :
    (∃ n, here? (t.drop offset) = some (path, n)) ↔ StandsAt t offset path := by
  constructor
  · intro h
    obtain ⟨n, hfound⟩ := h
    obtain ⟨rest, hrest, hpath, hne, -⟩ := here?_eq_some_iff.1 hfound
    refine ⟨hpath ▸ isPath_pathAt (hpath ▸ hne), ?_, ?_⟩
    · rw [hrest, ← hpath]
      exact List.cons_prefix_cons.2 ⟨rfl, join_pathAt_prefix rest⟩
    · intro other hother hfront
      rw [hrest] at hfront
      have hpart := prefix_join_pathAt hother (List.cons_prefix_cons.1 hfront).2
      rw [← hpath]
      exact Nat.succ_le_succ hpart.length_le
  · intro h
    obtain ⟨rest, hrest⟩ : ∃ rest, t.drop offset = .char '$' :: rest := by
      obtain ⟨tail, htail⟩ := h.spelled
      exact ⟨_, htail.symm⟩
    have hfront := h.spelled
    rw [hrest] at hfront
    have hpart := prefix_join_pathAt h.isPath (List.cons_prefix_cons.1 hfront).2
    have hne : pathAt rest ≠ [] := by
      intro hnil
      rw [hnil] at hpart
      exact h.isPath.join_ne_nil (List.prefix_nil.1 hpart)
    have hlonger := h.longest (pathAt rest) (isPath_pathAt hne) (by
      rw [hrest]
      exact List.cons_prefix_cons.2 ⟨rfl, join_pathAt_prefix rest⟩)
    -- Each of the two paths is a part of the other one.
    have hsame : Text.join "." path = Text.join "." (pathAt rest) :=
      hpart.eq_of_length_le (Nat.le_of_succ_le_succ hlonger)
    have hpath : pathAt rest = path := by
      rw [← pathAt_join h.isPath, hsame, pathAt_join (isPath_pathAt hne)]
    exact ⟨_, here?_eq_some_iff.2 ⟨rest, hrest, hpath, h.isPath.1, rfl⟩⟩

/-- The search for variables lists the ones that stand in the text. -/
theorem mem_findAll_iff_standsAt :
    (offset, path) ∈ Text.findAll here? t ↔ StandsAt t offset path := by
  rw [Text.mem_findAll apart_here?, here?_drop_iff_standsAt]

end Places

end TemplateScopes.Variable
