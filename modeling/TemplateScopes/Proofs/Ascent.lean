import Mathlib.Data.List.Induction
import TemplateScopes.Lookup.Discovery
import TemplateScopes.Proofs.Paths

/-!
# The way up to a configuration

A configuration is looked for in a directory and then in the one above it, up
to the root.  The search ends where something bears the name of a
configuration file, and that need not be a file.

There are three groups.

* Starts.  `resolve_of_locate` says that a start that exists lies where its
  names lead.
* The way up.  `Ascent` goes up one directory after the other, and
  `ascent_iff` says that it always comes to an end, with the answer of the
  search.  `Nearest` says which answer that should be, and `Ascent.nearest`
  that it is the right one for all that bears the name.
* The result.  `search_finds_nearest` is the main result, and
  `search_stops_at_directory` a directory that hides a file.
-/

namespace TemplateScopes

/-! ## Starts -/

namespace FileTree

variable {tree : FileTree} {cwd place found : Place} {steps : List Text}

theorem eq_foldl_follow_of_walk (hdots : ("." : Text) ∉ steps)
    (h : tree.walk place steps = .ok found) : found = steps.foldl Path.follow place := by
  induction steps generalizing place with
  | nil => exact (Except.ok.inj h).symm
  | cons step steps ih =>
    obtain ⟨hdot, hdots⟩ := not_or.1 (mt List.mem_cons.2 hdots)
    have hrest := ((walk_cons_eq_ok_iff rfl).1 h).2.2.2
    rw [if_neg (Ne.symm hdot)] at hrest
    exact ih hdots hrest

/-- What a path leads to stands where its names lead. -/
theorem node?_resolve_of_locate {t : Text} {node : FileNode}
    (h : tree.locate cwd (Path.ofText t) = .ok node) :
    tree.node? ((Path.ofText t).resolve cwd) = some node := by
  have hdots : ("." : Text) ∉ (Path.ofText t).steps := by
    intro hmem
    rw [Path.steps_ofText] at hmem
    exact absurd (List.mem_filter.1 hmem).2 (by decide)
  unfold locate at h
  split at h
  · cases h
  · obtain ⟨found, hway, hnode⟩ := locateFrom_eq_ok_iff.1 h
    rw [eq_foldl_follow_of_walk hdots hway] at hnode
    exact hnode

theorem node?_ne_none_of_isFile (h : tree.isFile place = true) : tree.node? place ≠ none := by
  intro hnone
  rw [isFile, hnone] at h
  cases h

end FileTree

namespace Discovery

/-! ## The way up -/

/-- The search goes up from a directory: it ends where something bears the name
of a configuration file, or at the root. -/
inductive Ascent (tree : FileTree) : Place → Option Place → Prop where
  | found {dir : Place} (h : tree.node? (dir ++ [configName]) ≠ none) :
      Ascent tree dir (some (dir ++ [configName]))
  | top (h : tree.node? [configName] = none) : Ascent tree [] none
  | up {dir : Place} {name : Text} {answer : Option Place}
      (h : tree.node? (dir ++ [name] ++ [configName]) = none) (hup : Ascent tree dir answer) :
      Ascent tree (dir ++ [name]) answer

/-- Whether an answer names the lowest directory, from a place upward, where
something holds, or is missing because it holds nowhere. -/
inductive Nearest (holds : Place → Prop) (place : Place) : Option Place → Prop where
  | found {dir : Place} (above : dir <+: place) (here : holds dir)
      (lowest : ∀ other, other <+: place → holds other → other <+: dir) :
      Nearest holds place (some (dir ++ [configName]))
  | missing (nowhere : ∀ dir, dir <+: place → ¬ holds dir) : Nearest holds place none

/-- The answer of the search from a directory upward. -/
def ascend (tree : FileTree) (dir : Place) : Option Place :=
  ((upward dir).map (· ++ [configName])).find? fun candidate => (tree.node? candidate).isSome

section Ascent

variable {tree : FileTree} {dir place : Place} {answer : Option Place}

/-- A place comes first among the places above it. -/
theorem exists_upward_eq_cons (dir : Place) : ∃ rest, upward dir = dir :: rest := by
  unfold upward
  rw [List.range_succ, List.reverse_concat, List.map_cons, List.take_length]
  exact ⟨_, rfl⟩

/-- Behind it come those above its directory. -/
theorem upward_concat (dir : Place) (name : Text) :
    upward (dir ++ [name]) = (dir ++ [name]) :: upward dir := by
  unfold upward
  rw [List.length_append, List.length_singleton, List.range_succ (n := dir.length + 1),
    List.reverse_concat, List.map_cons]
  congr 1
  · exact List.take_of_length_le (by simp)
  · refine List.map_congr_left fun k hk => ?_
    rw [List.mem_reverse, List.mem_range] at hk
    exact List.take_append_of_le_length (by omega)

theorem ascend_of_ne_none (h : tree.node? (dir ++ [configName]) ≠ none) :
    ascend tree dir = some (dir ++ [configName]) := by
  obtain ⟨rest, hrest⟩ := exists_upward_eq_cons dir
  unfold ascend
  rw [hrest, List.map_cons]
  exact List.find?_cons_of_pos (Option.isSome_iff_ne_none.2 h)

theorem ascend_concat {name : Text} (h : tree.node? (dir ++ [name] ++ [configName]) = none) :
    ascend tree (dir ++ [name]) = ascend tree dir := by
  unfold ascend
  rw [upward_concat, List.map_cons, List.find?_cons_of_neg]
  rw [h]
  exact Bool.false_ne_true

theorem ascend_nil (h : tree.node? [configName] = none) : ascend tree [] = none := by
  unfold ascend
  show [[configName]].find? _ = none
  rw [List.find?_singleton, h]
  rfl

/-- Going up always comes to an end, with the answer of the search. -/
theorem ascent_iff : Ascent tree dir answer ↔ answer = ascend tree dir := by
  constructor
  · intro h
    induction h with
    | found h => exact (ascend_of_ne_none h).symm
    | top h => exact (ascend_nil h).symm
    | up h _ ih => rw [ascend_concat h, ih]
  · intro h
    subst h
    -- The way is as long as the place has steps.
    induction dir using List.reverseRecOn with
    | nil =>
      by_cases h : tree.node? [configName] = none
      · rw [ascend_nil h]
        exact .top h
      · rw [ascend_of_ne_none h]
        exact .found h
    | append_singleton dir name ih =>
      by_cases h : tree.node? (dir ++ [name] ++ [configName]) = none
      · rw [ascend_concat h]
        exact .up h ih
      · rw [ascend_of_ne_none h]
        exact .found h

/-- The search ends at the lowest directory where something bears the name. -/
theorem Ascent.nearest (h : Ascent tree place answer) :
    Nearest (fun dir => tree.node? (dir ++ [configName]) ≠ none) place answer := by
  induction h with
  | found h => exact .found (List.prefix_refl _) h fun other hother _ => hother
  | top h =>
    refine .missing fun dir hdir => ?_
    obtain rfl := List.prefix_nil.1 hdir
    exact not_not.2 h
  | @up dir name answer h _ ih =>
    -- What lies above the place is the place itself or lies above its directory.
    have hother : ∀ other, other <+: dir ++ [name] → tree.node? (other ++ [configName]) ≠ none →
        other <+: dir := by
      intro other hother hhere
      refine (List.prefix_concat_iff.1 hother).resolve_left fun heq => hhere ?_
      rw [heq]
      exact h
    cases ih with
    | found above here lowest =>
      exact .found (above.trans (List.prefix_append _ _)) here fun other habove hhere =>
        lowest other (hother other habove hhere) hhere
    | missing nowhere =>
      exact .missing fun other habove hhere => nowhere other (hother other habove hhere) hhere

theorem Nearest.isFile
    (h : Nearest (fun dir => tree.isFile (dir ++ [configName]) = true) place answer) :
    ∀ found ∈ answer, tree.isFile found = true := by
  intro found hfound
  cases h with
  | found _ here _ => exact Option.mem_some.1 hfound ▸ here
  | missing _ => cases hfound

/-- The answer is the nearest file unless it is a directory. -/
theorem Nearest.isFile_iff
    (h : Nearest (fun dir => tree.node? (dir ++ [configName]) ≠ none) place answer) :
    Nearest (fun dir => tree.isFile (dir ++ [configName]) = true) place answer ↔
      ∀ found ∈ answer, tree.isFile found = true := by
  refine ⟨Nearest.isFile, fun hfile => ?_⟩
  cases h with
  | found above _ lowest =>
    exact .found above (hfile _ rfl) fun other hother hhere =>
      lowest other hother (FileTree.node?_ne_none_of_isFile hhere)
  | missing nowhere =>
    exact .missing fun dir hdir hhere => nowhere dir hdir (FileTree.node?_ne_none_of_isFile hhere)

end Ascent

/-! ## The result -/

section Search

variable {tree : FileTree} {cwd : Place} {start : Path}

/-- The search has no answer only if the start cannot be followed, or the first
file to look for is too long. -/
theorem search_eq_ok_iff {answer : Option Place} :
    search tree cwd start = .ok answer ↔ start.stepFault? = none ∧
      tree.locate [] (.ofPlace (start.resolve cwd)) ≠ .error .nameTooLong ∧
      tree.locate [] (.ofPlace (startDirectory tree cwd start ++ [configName])) ≠
        .error .nameTooLong ∧
      answer = ascend tree (startDirectory tree cwd start) := by
  unfold search
  cases start.stepFault? with
  | some fault => simp
  | none =>
    dsimp only
    split
    · rename_i hlong
      simp [hlong]
    · rename_i hlong _
      simp [hlong]
    · rename_i hstart hfirst
      simp only [Except.ok.injEq, true_and]
      exact ⟨fun heq => ⟨hstart, hfirst, heq.symm⟩, fun hall => hall.2.2.symm⟩

end Search

/-- The search from a start that exists begins where the start lies.  It has an
answer unless the start cannot be followed or the first file to look for is too
long.  The answer is the one to which going up from the directory of the start
always comes: the lowest place that bears the name of a configuration file.
That is the nearest file of the name, unless it is a directory. -/
theorem search_finds_nearest (tree : FileTree) (cwd : Place) (t : Text) :
    let start := Path.ofText t
    let place := start.resolve cwd
    let dir := if tree.isFile place then place.dropLast else place
    (∀ node, tree.locate cwd start = .ok node → tree.node? place = some node) ∧
    ((∃ answer, search tree cwd start = .ok answer) ↔ start.stepFault? = none ∧
      tree.locate [] (.ofPlace place) ≠ .error .nameTooLong ∧
      tree.locate [] (.ofPlace (dir ++ [configName])) ≠ .error .nameTooLong) ∧
    ∀ answer, search tree cwd start = .ok answer →
      (∀ other, Ascent tree dir other ↔ other = answer) ∧
      Nearest (fun d => tree.node? (d ++ [configName]) ≠ none) dir answer ∧
      (Nearest (fun d => tree.isFile (d ++ [configName]) = true) dir answer ↔
        ∀ found ∈ answer, tree.isFile found = true) := by
  intro start place dir
  have hsearch : ∀ answer, search tree cwd start = .ok answer ↔ start.stepFault? = none ∧
      tree.locate [] (.ofPlace place) ≠ .error .nameTooLong ∧
      tree.locate [] (.ofPlace (dir ++ [configName])) ≠ .error .nameTooLong ∧
      answer = ascend tree dir := fun _ => search_eq_ok_iff
  refine ⟨fun node => FileTree.node?_resolve_of_locate, ?_, fun answer hanswer => ?_⟩
  · constructor
    · intro hsome
      obtain ⟨answer, hanswer⟩ := hsome
      obtain ⟨hsteps, hstart, hfirst, -⟩ := (hsearch answer).1 hanswer
      exact ⟨hsteps, hstart, hfirst⟩
    · intro hall
      exact ⟨_, (hsearch _).2 ⟨hall.1, hall.2.1, hall.2.2, rfl⟩⟩
  · obtain ⟨-, -, -, hascend⟩ := (hsearch answer).1 hanswer
    have hnearest := (ascent_iff.2 hascend).nearest
    refine ⟨fun other => ?_, hnearest, hnearest.isFile_iff⟩
    rw [hascend]
    exact ascent_iff

/-- A start that does not exist is left again by its names, and a file two
directories above it is found. -/
theorem search_finds_nearest_missing_start :
    let tree : FileTree := ⟨[(["srv", ".tplreflect.json"], [0x7B, 0x7D])], [["srv", "site"]]⟩
    search tree ["srv", "site"] (Path.ofText "themes/../../other/deep") =
        .ok (some ["srv", ".tplreflect.json"]) ∧
      Nearest (fun d => tree.isFile (d ++ [configName]) = true) ["srv", "other", "deep"]
        (some ["srv", ".tplreflect.json"]) := by
  intro tree
  have hsearch : search tree ["srv", "site"] (Path.ofText "themes/../../other/deep") =
      .ok (some ["srv", ".tplreflect.json"]) := rfl
  have hnearest := ((search_finds_nearest tree ["srv", "site"] "themes/../../other/deep").2.2 _
    hsearch).2.2
  refine ⟨hsearch, hnearest.2 fun found hfound => ?_⟩
  obtain rfl := Option.mem_some.1 hfound
  rfl

/-- A directory of the name ends the search, although there is a file of the
name above it. -/
theorem search_stops_at_directory :
    let tree : FileTree := ⟨[([".tplreflect.json"], [0x7B, 0x7D])], [["a", ".tplreflect.json"]]⟩
    search tree [] (Path.ofText "a") = .ok (some ["a", ".tplreflect.json"]) ∧
      tree.node? ["a", ".tplreflect.json"] = some .directory ∧
      ¬ Nearest (fun d => tree.isFile (d ++ [configName]) = true) ["a"]
        (some ["a", ".tplreflect.json"]) ∧
      Nearest (fun d => tree.isFile (d ++ [configName]) = true) ["a"]
        (some [".tplreflect.json"]) := by
  intro tree
  refine ⟨rfl, rfl, fun hnearest => ?_, ?_⟩
  · exact absurd (hnearest.isFile _ rfl) (by decide)
  · show Nearest _ _ (some ([] ++ [configName]))
    refine .found List.nil_prefix rfl fun other hother hhere => ?_
    have habove : other <+: [] ++ [("a" : Text)] := hother
    rcases List.prefix_concat_iff.1 habove with heq | hroot
    · subst heq
      exact absurd hhere (by decide)
    · exact hroot

end Discovery

end TemplateScopes
