import Mathlib.Data.List.Flatten
import TemplateScopes.Files
import TemplateScopes.Proofs.Utf8

/-!
# Paths as they are written

A path that is checked just as it is written is read in a shorter form,
without its empty and `.` steps.  The shorter form leads to the same file.

There are three groups.

* Names.  What makes a text a name holds of all its characters
  (`Text.nameFault?_eq_none_iff`), so the paths of names are names
  (`Path.nameFault?_toText`).
* Forms of a path.  The form in which a path is read leaves out characters of
  the text (`toText_sublist`), so it is not too long if the text is not.
* Ways.  A `.` step leads nowhere else (`walk_filter_dots`), and so
  `read_of_isFileWritten` reads what was found.
-/

namespace TemplateScopes

/-! ## Names -/

namespace Text

theorem nameFault?_eq_none_iff {t : Text} :
    t.nameFault? = none ↔ ∀ c ∈ t, (nameBytes? c).isSome ∧ c ≠ '\x00' := by
  have hnames : (t.any fun c => (nameBytes? c).isNone) = false ↔
      ∀ c ∈ t, (nameBytes? c).isSome = true := by simp [Option.isSome_iff_ne_none]
  have hnull : t.contains (.char '\x00') = false ↔ ∀ c ∈ t, c ≠ '\x00' := by
    rw [← Bool.not_eq_true, List.contains_iff_mem]
    exact ⟨fun h c hc heq => h (heq ▸ hc), fun h hmem => h _ hmem rfl⟩
  simp only [forall_and, ← hnames, ← hnull]
  unfold nameFault?
  cases t.any fun c => (nameBytes? c).isNone <;> cases t.contains (.char '\x00') <;> simp

theorem mem_join {separator : Text} {parts : List Text} {c : CodePoint}
    (h : c ∈ join separator parts) : c ∈ separator ∨ ∃ part ∈ parts, c ∈ part := by
  induction parts with
  | nil => cases h
  | cons part rest ih =>
    cases rest with
    | nil =>
      rw [join_singleton] at h
      exact .inr ⟨part, List.mem_cons_self, h⟩
    | cons next rest =>
      rw [join_cons_cons, List.mem_append, List.mem_append] at h
      rcases h with (h | h) | h
      · exact .inr ⟨part, List.mem_cons_self, h⟩
      · exact .inl h
      · exact (ih h).imp_right fun ⟨found, hfound, hc⟩ =>
          ⟨found, List.mem_cons_of_mem _ hfound, hc⟩

end Text

namespace Path

theorem stepFault?_eq_none_iff {p : Path} :
    p.stepFault? = none ↔ ∀ step ∈ p.steps, step.nameFault? = none :=
  List.findSome?_eq_none_iff

/-- A path whose steps are names can be handed to the file system. -/
theorem nameFault?_toText {p : Path} (h : p.stepFault? = none) : p.toText.nameFault? = none := by
  rw [stepFault?_eq_none_iff] at h
  rw [Text.nameFault?_eq_none_iff]
  intro c hc
  have hslash : (nameBytes? '/').isSome = true ∧ CodePoint.char '/' ≠ '\x00' := by decide
  unfold toText at hc
  split at hc
  · rw [List.mem_singleton.1 hc]
    decide
  · rcases List.mem_append.1 hc with hanchor | hsteps
    · have : c = '/' := by
        revert hanchor
        cases p.anchor <;> simp [Anchor.toText]
      exact this ▸ hslash
    · rcases Text.mem_join hsteps with hc | ⟨step, hstep, hc⟩
      · rw [List.mem_singleton.1 hc]
        exact hslash
      · exact Text.nameFault?_eq_none_iff.1 (h step hstep) c hc

end Path

/-! ## Forms of a path -/

namespace Path

section Forms

variable {t part : Text} {rest : List Text} {c : CodePoint}

/-- Whether a part between slashes is a step of the path. -/
def isStep (part : Text) : Bool :=
  !(part.isEmpty || part = ".")

theorem steps_ofText (t : Text) : (ofText t).steps = (splitSlashes t).filter isStep := rfl

theorem steps_slash (t : Text) : (ofText (.char '/' :: t)).steps = (ofText t).steps := by
  rw [steps_ofText, steps_ofText, splitSlashes, if_pos rfl]
  rfl

theorem splitSlashes_ne_nil (t : Text) : splitSlashes t ≠ [] := by
  fun_induction splitSlashes t <;> simp

theorem join_cons (part : Text) (rest : List Text) :
    Text.join "/" (part :: rest) =
      if rest = [] then part else part ++ .char '/' :: Text.join "/" rest := by
  cases rest with
  | nil => exact Text.join_singleton ..
  | cons next rest =>
    rw [Text.join_cons_cons, List.append_assoc, if_neg (List.cons_ne_nil _ _)]
    rfl

theorem join_sublist_cons (part : Text) (rest : List Text) :
    (Text.join "/" rest).Sublist (Text.join "/" (part :: rest)) := by
  rw [join_cons]
  split
  · rename_i hnil
    rw [hnil]
    exact List.nil_sublist _
  · exact (List.sublist_cons_self (.char '/') _).trans (List.sublist_append_right part _)

/-- Without some of its parts a text is shorter.  The first part stays. -/
theorem join_filter_sublist (keep : Text → Bool) (h : splitSlashes t = part :: rest) :
    (Text.join "/" (part :: rest.filter keep)).Sublist t := by
  fun_induction splitSlashes t generalizing part rest with
  | case1 =>
    obtain ⟨rfl, rfl⟩ := List.cons.inj h
    exact List.nil_sublist _
  | case2 t ih =>
    obtain ⟨rfl, rfl⟩ := List.cons.inj h
    rw [join_cons]
    split
    · exact List.nil_sublist _
    · -- Here the first part behind the slash may be left out as well.
      obtain ⟨first, more, hsplit⟩ := List.exists_cons_of_ne_nil (splitSlashes_ne_nil t)
      refine List.Sublist.cons_cons (.char '/') (List.Sublist.trans ?_ (ih hsplit))
      rw [hsplit, List.filter_cons]
      split
      · exact List.Sublist.refl _
      · exact join_sublist_cons ..
  | case3 c t hc hnil => exact absurd hnil (splitSlashes_ne_nil t)
  | case4 c t hc first more hsplit ih =>
    obtain ⟨rfl, rfl⟩ := List.cons.inj h
    rw [Text.join_cons_append]
    exact (ih hsplit).cons_cons c

theorem join_steps_sublist (t : Text) : (Text.join "/" (ofText t).steps).Sublist t := by
  obtain ⟨part, rest, hsplit⟩ := List.exists_cons_of_ne_nil (splitSlashes_ne_nil t)
  refine List.Sublist.trans ?_ (join_filter_sublist isStep hsplit)
  rw [steps_ofText, hsplit, List.filter_cons]
  split
  · exact List.Sublist.refl _
  · exact join_sublist_cons ..

/-- The form in which a path is read has characters of the text only, in their
order, unless it is the path of the working directory. -/
theorem toText_sublist (h : ofText t ≠ here) : (ofText t).toText.Sublist t := by
  rw [toText, if_neg h]
  show ((Anchor.ofText t).toText ++ _).Sublist t
  unfold Anchor.ofText
  split
  · rw [steps_slash]
    exact (join_steps_sublist _).cons_cons (.char '/')
  · rw [steps_slash, steps_slash]
    exact ((join_steps_sublist _).cons_cons (.char '/')).cons_cons (.char '/')
  · rw [steps_slash]
    exact (join_steps_sublist _).cons_cons (.char '/')
  · exact join_steps_sublist t

/-- The form in which a path is read is no longer than the text. -/
theorem tooLong_toText {limit : Nat} (hlimit : 0 < limit) (h : tooLong limit t = false) :
    tooLong limit (ofText t).toText = false := by
  unfold tooLong at *
  rw [decide_eq_false_iff_not] at *
  by_cases hhere : ofText t = here
  · have hdot : here.toText.nameBytes.length = 1 := by decide
    rw [hhere, hdot]
    omega
  · have hle : (ofText t).toText.nameBytes.length ≤ t.nameBytes.length :=
      ((toText_sublist hhere).flatMap _).length_le
    omega

theorem mem_of_mem_splitSlashes (hpart : part ∈ splitSlashes t) (hc : c ∈ part) : c ∈ t := by
  fun_induction splitSlashes t generalizing part with
  | case1 =>
    rw [List.mem_singleton.1 hpart] at hc
    exact hc
  | case2 t ih =>
    rcases List.mem_cons.1 hpart with rfl | hpart
    · cases hc
    · exact List.mem_cons_of_mem _ (ih hpart hc)
  | case3 d t hd hnil => exact absurd hnil (splitSlashes_ne_nil t)
  | case4 d t hd first more hsplit ih =>
    rcases List.mem_cons.1 hpart with rfl | hpart
    · rcases List.mem_cons.1 hc with rfl | hc
      · exact List.mem_cons_self
      · exact List.mem_cons_of_mem _ (ih (hsplit ▸ List.mem_cons_self) hc)
    · exact List.mem_cons_of_mem _ (ih (hsplit ▸ List.mem_cons_of_mem _ hpart) hc)

/-- The steps of a path are names if the text is one. -/
theorem nameFault?_of_mem_steps (h : t.nameFault? = none) (hstep : part ∈ (ofText t).steps) :
    part.nameFault? = none := by
  rw [Text.nameFault?_eq_none_iff] at *
  exact fun c hc => h c (mem_of_mem_splitSlashes (List.mem_filter.1 hstep).1 hc)

theorem stepFault?_ofText (h : t.nameFault? = none) : (ofText t).stepFault? = none :=
  stepFault?_eq_none_iff.2 fun _ => nameFault?_of_mem_steps h

end Forms

end Path

/-! ## Ways -/

namespace FileTree

variable {tree : FileTree} {cwd place found : Place} {steps : List Text} {t : Text}

/-- A step can be taken from a directory to what exists, if it is not too
long. -/
theorem walk_cons_eq_ok_iff {step : Text} {next : Place}
    (hnext : next = if step = "." then place else Path.follow place step) :
    tree.walk place (step :: steps) = .ok found ↔
      tree.node? place = some .directory ∧ tooLong maxNameBytes step = false ∧
        tree.node? next ≠ none ∧ tree.walk next steps = .ok found := by
  subst hnext
  rw [walk]
  cases tree.node? place with
  | none => simp
  | some node =>
    cases node with
    | file bytes => simp
    | directory =>
      cases tooLong maxNameBytes step with
      | true => simp
      | false =>
        dsimp only
        cases tree.node? (if step = "." then place else Path.follow place step) with
        | none => simp
        | some node => simp

/-- A step that stays where it is can be left out. -/
theorem walk_filter_dots (h : tree.walk place steps = .ok found) :
    tree.walk place (steps.filter fun step : Text => step ≠ ".") = .ok found := by
  induction steps generalizing place with
  | nil => exact h
  | cons step steps ih =>
    obtain ⟨hdirectory, hshort, hnext, hrest⟩ := (walk_cons_eq_ok_iff rfl).1 h
    by_cases hdot : step = "."
    · rw [List.filter_cons_of_neg (by simp [hdot])]
      rw [if_pos hdot] at hrest
      exact ih hrest
    · rw [List.filter_cons_of_pos (by exact decide_eq_true hdot)]
      exact (walk_cons_eq_ok_iff rfl).2 ⟨hdirectory, hshort, hnext, ih hrest⟩

theorem filter_writtenSteps (t : Text) :
    (writtenSteps t).filter (fun step : Text => step ≠ ".") = (Path.ofText t).steps := by
  rw [Path.steps_ofText]
  unfold writtenSteps
  dsimp only
  rw [List.filter_append, List.filter_filter]
  have hend : (if (Path.splitSlashes t).getLast? = some [] then [("." : Text)] else []).filter
      (fun step : Text => decide (step ≠ ".")) = [] := by
    split <;> rfl
  rw [hend, List.append_nil]
  refine List.filter_congr fun part _ => ?_
  rw [Path.isStep, Bool.not_or, ← decide_not, Bool.and_comm]

theorem locateFrom_eq_ok_iff {node : FileNode} :
    tree.locateFrom place steps = .ok node ↔
      ∃ found, tree.walk place steps = .ok found ∧ tree.node? found = some node := by
  unfold locateFrom
  cases tree.walk place steps with
  | error fault => simp
  | ok found =>
    dsimp only
    cases hnode : tree.node? found with
    | none => simp [hnode]
    | some other => simp [hnode]

/-- A path that is found to name a file as it is written can be read. -/
theorem read_of_isFileWritten (h : tree.isFileWritten cwd t = true) :
    ∃ bytes, tree.read cwd (Path.ofText t) = .ok bytes := by
  unfold isFileWritten at h
  split at h
  · rename_i bytes hfound
    unfold locateWritten at hfound
    split at hfound
    · cases hfound
    · split at hfound
      · cases hfound
      · rename_i hshort
        rw [Bool.not_eq_true] at hshort
        obtain ⟨found, hway, hnode⟩ := locateFrom_eq_ok_iff.1 hfound
        -- Without their dots both forms have the same steps.
        have hsteps := walk_filter_dots hway
        rw [filter_writtenSteps] at hsteps
        have hlocate : tree.locate cwd (Path.ofText t) = .ok (.file bytes) := by
          rw [locate, Path.tooLong_toText (by decide) hshort, if_neg Bool.false_ne_true]
          exact locateFrom_eq_ok_iff.2 ⟨found, hsteps, hnode⟩
        exact ⟨bytes, by rw [read, hlocate]⟩
  · cases h

end FileTree

end TemplateScopes
