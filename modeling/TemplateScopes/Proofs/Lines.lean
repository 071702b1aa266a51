import TemplateScopes.Markup.Condition
import TemplateScopes.Markup.Variable
import TemplateScopes.Proofs.Search

/-!
# Line by line

Variables and conditions stay on one line.  So what is read off a text is
read off its lines, one after the other, and a run of newlines between two
texts keeps them apart, however long it is.

There are three groups.

* Readings.  `Text.Linewise` says that a reading goes line by line, and
  `linewise_of_oneLine` that a search does so whose recogniser is `OneLine`.
* What ends in front of a newline.  A beginning without newlines and the way
  to a closer do not reach over the end of the line.
* Variables and conditions.  `Variable.linewise_paths` and
  `Condition.linewise_labels`.
-/

namespace TemplateScopes

namespace Text

/-! ## Readings -/

/-- Whether a reading of a text is made up of the readings of its lines. -/
structure Linewise {β : Type} (read : Text → List β) : Prop where
  nil : read [] = []
  newline : ∀ s t : Text, read (s ++ .char '\n' :: t) = read s ++ read t

/-- A run of newlines between two texts keeps them apart. -/
theorem Linewise.replicate {β : Type} {read : Text → List β} (h : Linewise read) {n : Nat}
    (hn : 0 < n) (s t : Text) :
    read (s ++ List.replicate n (.char '\n') ++ t) = read s ++ read t := by
  induction n generalizing s with
  | zero => omega
  | succ n ih =>
    cases n with
    | zero => simpa using h.newline s t
    | succ n =>
      have hlast := ih (by omega) []
      rw [List.nil_append, h.nil, List.nil_append] at hlast
      rw [List.replicate_succ, List.append_assoc, List.cons_append, h.newline, hlast]

section OneLine

variable {α : Type} {here? : Recogniser α}

/-- Whether the matches of a recogniser end on the line where they begin,
and depend on nothing behind it. -/
structure OneLine (here? : Recogniser α) : Prop where
  nil : here? [] = none
  newline : ∀ s t : Text, here? (s ++ .char '\n' :: t) = here? s
  length_le : ∀ {t : Text} {a : α} {n : Nat}, here? t = some (a, n) → n ≤ t.length

/-- What a search finds does not depend on where the text starts. -/
theorem map_snd_findFrom (offset offset' skip : Nat) (t : Text) :
    (findFrom here? offset skip t).map Prod.snd = (findFrom here? offset' skip t).map Prod.snd := by
  induction t generalizing offset offset' skip with
  | nil => rfl
  | cons c t ih =>
    unfold findFrom
    split
    · exact ih ..
    · split
      · rw [List.map_cons, List.map_cons, ih]
      · exact ih ..

/-- A search starts anew behind a newline, provided that the part to skip
ends in front of it. -/
theorem map_snd_findFrom_newline (h : OneLine here?) {s : Text} (t : Text) {offset skip : Nat}
    (hskip : skip ≤ s.length) :
    (findFrom here? offset skip (s ++ .char '\n' :: t)).map Prod.snd =
      (findFrom here? offset skip s).map Prod.snd ++ (findAll here? t).map Prod.snd := by
  induction s generalizing offset skip with
  | nil =>
    obtain rfl : skip = 0 := Nat.le_zero.1 hskip
    have hnone : here? (.char '\n' :: t) = none := (h.newline [] t).trans h.nil
    simp only [List.nil_append, findFrom, hnone]
    exact map_snd_findFrom ..
  | cons c s ih =>
    rw [List.length_cons] at hskip
    rw [List.cons_append]
    cases skip with
    | succ skip => exact ih (by omega)
    | zero =>
      have hsame : here? (c :: (s ++ .char '\n' :: t)) = here? (c :: s) := h.newline (c :: s) t
      rw [findFrom, findFrom, hsame]
      cases hmatch : here? (c :: s) with
      | none => exact ih (Nat.zero_le _)
      | some found =>
        obtain ⟨a, n⟩ := found
        have hn := h.length_le hmatch
        rw [List.length_cons] at hn
        show a :: (findFrom here? (offset + 1) (n - 1) (s ++ .char '\n' :: t)).map Prod.snd = _
        rw [ih (by omega)]
        rfl

theorem linewise_of_oneLine (h : OneLine here?) :
    Linewise fun t => (findAll here? t).map Prod.snd :=
  ⟨rfl, fun _ t => map_snd_findFrom_newline h t (Nat.zero_le _)⟩

end OneLine

end Text

/-! ## What ends in front of a newline -/

namespace Text

theorem takeWhile_append_newline {p : CodePoint → Bool} (hp : p '\n' = false) (s t : Text) :
    (s ++ .char '\n' :: t).takeWhile p = s.takeWhile p := by
  induction s with
  | nil => simp [hp]
  | cons c s ih => simp [List.takeWhile_cons, ih]

/-- What has no newline in it does not reach over one. -/
theorem after?_append_newline {p : Text} (hp : .char '\n' ∉ p) (s t : Text) :
    after? p (s ++ .char '\n' :: t) = (after? p s).map (· ++ .char '\n' :: t) := by
  induction p generalizing s with
  | nil => rfl
  | cons c p ih =>
    have hc : c ≠ .char '\n' := fun heq => hp (heq ▸ List.mem_cons_self)
    cases s with
    | nil => simp [after?, hc]
    | cons d s =>
      rw [List.cons_append, after?, after?, ih fun hmem => hp (List.mem_cons_of_mem c hmem)]
      split <;> rfl

theorem startsWith_append_newline {p : Text} (hp : .char '\n' ∉ p) (s t : Text) :
    startsWith p (s ++ .char '\n' :: t) = startsWith p s := by
  rw [startsWith, after?_append_newline hp, Option.isSome_map]
  rfl

/-- No closer is looked for behind a newline if the newline is a
barrier. -/
theorem upTo?_append_newline {closer : Text} (hcloser : closer ≠ []) (hnew : .char '\n' ∉ closer)
    (s t : Text) :
    upTo? closer (startsWith "\n") (s ++ .char '\n' :: t) = upTo? closer (startsWith "\n") s := by
  have hline : ∀ c rest, startsWith "\n" (c :: rest) = decide (.char '\n' = c) := by
    intro c rest
    rw [Bool.eq_iff_iff, startsWith_iff, decide_eq_true_iff]
    exact List.cons_prefix_cons.trans (and_iff_left (List.nil_prefix))
  induction s with
  | nil =>
    have hstart := startsWith_append_newline hnew [] t
    rw [List.nil_append] at hstart ⊢
    have hnone : startsWith closer [] = false := by
      cases closer with
      | nil => exact absurd rfl hcloser
      | cons c closer => rfl
    have hempty : closer.isEmpty = false := by simpa using hcloser
    rw [upTo?, upTo?, hstart, hnone, hempty, hline]
    rfl
  | cons c s ih =>
    have hstart := startsWith_append_newline hnew (c :: s) t
    rw [List.cons_append] at hstart ⊢
    rw [upTo?, upTo?, hstart, hline, hline, ih]

end Text

/-! ## Variables and conditions -/

namespace Variable

theorem pathAt_of_not_name {c : CodePoint} (h : isNameChar c = false) (t : Text) :
    pathAt (c :: t) = [] := by
  have hname : ¬ isNameChar c = true := by simp [h]
  unfold pathAt
  split
  · rfl
  · rename_i heq
    rw [← (List.cons.inj heq).1, if_neg hname]
  · rename_i heq
    rw [← (List.cons.inj heq).1, if_neg hname]

private theorem not_dot_append {s : Text} (h : ∀ rest, s = .char '.' :: rest → False) (t : Text) :
    ∀ rest, s ++ .char '\n' :: t = .char '.' :: rest → False := by
  intro rest heq
  cases s with
  | nil => simp at heq
  | cons c s =>
    obtain ⟨hc, -⟩ := List.cons.inj heq
    exact h s (by rw [hc])

/-- A path ends in front of a newline. -/
theorem pathAt_append_newline (s t : Text) : pathAt (s ++ .char '\n' :: t) = pathAt s := by
  fun_induction pathAt s with
  | case1 => exact pathAt_of_not_name (by decide) t
  | case2 c rest hname ih =>
    show pathAt (c :: .char '.' :: (rest ++ .char '\n' :: t)) = _
    rw [pathAt, if_pos hname, ih]
  | case3 c rest hname => exact pathAt_of_not_name (by simpa using hname) _
  | case4 c rest hdot hname hnil ih =>
    rw [List.cons_append, pathAt, if_pos hname, ih, hnil]
    exact not_dot_append hdot t
  | case5 c rest hdot hname name more hmore ih =>
    rw [List.cons_append, pathAt, if_pos hname, ih, hmore]
    exact not_dot_append hdot t
  | case6 c rest hdot hname => exact pathAt_of_not_name (by simpa using hname) _

theorem pathLength_cons (name : Text) (more : List Text) :
    pathLength (name :: more) =
      name.length + if more = [] then 0 else 1 + pathLength more := by
  unfold pathLength
  cases more with
  | nil => simp [Text.join_singleton]
  | cons next more =>
    have hdot : List.length (("." : Text)) = 1 := rfl
    rw [Text.join_cons_cons, List.length_append, List.length_append, hdot,
      if_neg (List.cons_ne_nil _ _), Nat.add_assoc]

theorem pathLength_pathAt_le (t : Text) : pathLength (pathAt t) ≤ t.length := by
  have hnil : pathLength [] = 0 := rfl
  fun_induction pathAt t with
  | case1 => exact Nat.le_refl _
  | case2 c rest hname ih =>
    rw [pathLength_cons]
    simp only [List.length_cons, List.length_nil]
    split <;> omega
  | case3 c rest hname => exact Nat.zero_le _
  | case4 c rest hdot hname hmore ih => simp [pathLength_cons]
  | case5 c rest hdot hname name more hmore ih =>
    rw [hmore, pathLength_cons] at ih
    rw [pathLength_cons]
    simp only [List.length_cons]
    omega
  | case6 c rest hdot hname => exact Nat.zero_le _

theorem oneLine_here? : Text.OneLine here? := by
  refine ⟨rfl, ?_, ?_⟩
  · intro s t
    cases s with
    | nil => rfl
    | cons c s =>
      rw [List.cons_append]
      unfold here?
      split
      · rename_i heq
        obtain ⟨rfl, rfl⟩ := List.cons.inj heq
        simp only [pathAt_append_newline]
      · rename_i hother
        split
        · rename_i heq
          obtain ⟨rfl, rfl⟩ := List.cons.inj heq
          exact absurd rfl (hother _)
        · rfl
  · intro t path n hmatch
    unfold here? at hmatch
    split at hmatch
    · rename_i rest
      split at hmatch
      · simp at hmatch
      · rename_i hpath
        obtain ⟨rfl, rfl⟩ := Prod.mk.inj (Option.some.inj hmatch)
        have := pathLength_pathAt_le rest
        rw [List.length_cons]
        omega
    · simp at hmatch

/-- The variables of a text are those of its lines. -/
theorem linewise_paths : Text.Linewise paths :=
  Text.linewise_of_oneLine oneLine_here?

end Variable

namespace Condition

theorem path?_append_newline (s t : Text) : path? (s ++ .char '\n' :: t) = path? s := by
  have hlabel := Text.takeWhile_append_newline (p := isPathChar) (by decide) s t
  have hlength := (List.takeWhile_prefix isPathChar (l := s)).length_le
  have hcloser : Markup.closer ≠ [] ∧ .char '\n' ∉ Markup.closer := by decide
  unfold path?
  simp only [hlabel, List.drop_append_of_le_length hlength,
    Text.upTo?_append_newline hcloser.1 hcloser.2]

/-- Only a sigil is not part of the path. -/
theorem body?_plain {c : CodePoint} (hc : c ≠ .char '$') (t : Text) :
    body? (c :: t) = path? (c :: t) := by
  unfold body?
  split
  · rename_i heq
    exact absurd (List.cons.inj heq).1 hc
  · rfl

theorem body?_append_newline (s t : Text) : body? (s ++ .char '\n' :: t) = body? s := by
  cases s with
  | nil => exact path?_append_newline [] t
  | cons c s =>
    by_cases hc : c = .char '$'
    · subst hc
      show (path? (s ++ .char '\n' :: t)).map _ = (path? s).map _
      rw [path?_append_newline]
    · rw [List.cons_append, body?_plain hc, body?_plain hc]
      exact path?_append_newline (c :: s) t

theorem after?_append_newline {keywords : Text} (hnew : .char '\n' ∉ keywords) (s t : Text) :
    after? keywords (s ++ .char '\n' :: t) = after? keywords s := by
  unfold after?
  rw [Text.after?_append_newline hnew]
  cases Text.after? keywords s with
  | none => rfl
  | some rest =>
    show (body? (rest ++ .char '\n' :: t)).map _ = (body? rest).map _
    rw [body?_append_newline]

theorem path?_length_le {t label : Text} {n : Nat} (h : path? t = some (label, n)) :
    n ≤ t.length := by
  simp only [path?] at h
  split at h
  · simp at h
  · split at h
    · rename_i tail htail
      obtain ⟨rfl, rfl⟩ := Prod.mk.inj (Option.some.inj h)
      obtain ⟨⟨rest, hrest⟩, -⟩ := (Text.upTo?_eq_some_iff (by decide)).1 htail
      have hlength := congrArg List.length hrest
      have hlabel := (List.takeWhile_prefix isPathChar (l := t)).length_le
      simp only [List.length_drop, List.length_append] at hlength
      omega
    · simp at h

theorem body?_length_le {t label : Text} {n : Nat} (h : body? t = some (label, n)) :
    n ≤ t.length := by
  unfold body? at h
  split at h
  · obtain ⟨⟨label', n'⟩, hfound, heq⟩ := Option.map_eq_some_iff.1 h
    obtain ⟨rfl, rfl⟩ := Prod.mk.inj heq
    have := path?_length_le hfound
    rw [List.length_cons]
    omega
  · exact path?_length_le h

theorem after?_length_le {keywords t label : Text} {n : Nat}
    (h : after? keywords t = some (label, n)) : n ≤ t.length := by
  unfold after? at h
  split at h
  · rename_i rest hrest
    obtain ⟨⟨label', n'⟩, hfound, heq⟩ := Option.map_eq_some_iff.1 h
    obtain ⟨rfl, rfl⟩ := Prod.mk.inj heq
    have := body?_length_le hfound
    rw [Text.after?_eq_some_iff.1 hrest, List.length_append]
    omega
  · simp at h

theorem oneLine_here? : Text.OneLine here? := by
  refine ⟨rfl, ?_, ?_⟩
  · intro s t
    unfold here?
    rw [after?_append_newline (by decide), after?_append_newline (by decide)]
  · intro t label n hmatch
    unfold here? at hmatch
    split at hmatch
    · rename_i hnot
      rw [hmatch] at hnot
      exact after?_length_le hnot
    · exact after?_length_le hmatch

/-- The conditions of a text are those of its lines. -/
theorem linewise_labels : Text.Linewise labels :=
  Text.linewise_of_oneLine oneLine_here?

end Condition

end TemplateScopes
