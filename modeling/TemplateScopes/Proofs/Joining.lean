import Mathlib.Data.List.Infix
import TemplateScopes.Proofs.Lines

/-!
# Texts put together

A text that is put together from two texts can hold a variable or a
condition that neither of them holds.  It then has a match that reaches
over the joint.  Without such a match the whole is read as its parts are.

There are three groups.

* Places of matches.  `Text.located` keeps the length of each match, and
  `Text.Straddles` says that a match reaches over an offset.
* Joints.  `Text.Local` says that a match depends on its own characters
  and on what may make it longer, and `findFrom_append` that a search then
  falls into two searches where nothing reaches over the joint.
* Variables and conditions.  The recognisers of both are local, and what
  they give stands inside the match.
-/

namespace TemplateScopes

/-! ## Places of matches -/

namespace Text

section Located

variable {α : Type} {here? : Recogniser α}

/-- The recogniser that gives the lengths of its matches as well. -/
def located (here? : Recogniser α) : Recogniser (α × Nat) := fun t =>
  (here? t).map fun found => (found, found.2)

/-- Whether a match begins in front of an offset and ends behind it. -/
def Straddles (m : Nat × (α × Nat)) (offset : Nat) : Prop :=
  m.1 < offset ∧ offset < m.1 + m.2.2

instance (m : Nat × (α × Nat)) (offset : Nat) : Decidable (Straddles m offset) :=
  inferInstanceAs (Decidable (_ ∧ _))

theorem map_findFrom_located (offset skip : Nat) (t : Text) :
    (findFrom (located here?) offset skip t).map (fun m => m.2.1) =
      (findFrom here? offset skip t).map Prod.snd := by
  induction t generalizing offset skip with
  | nil => rfl
  | cons c t ih =>
    cases skip with
    | succ skip => exact ih _ _
    | zero =>
      simp only [findFrom, located]
      cases here? (c :: t) with
      | none => exact ih _ _
      | some found =>
        obtain ⟨a, n⟩ := found
        exact congrArg (a :: ·) (ih (offset + 1) (n - 1))

/-- A match that the search lists is one at its offset. -/
theorem here?_of_mem_findFrom {t : Text} {offset skip : Nat} {m : Nat × (α × Nat)}
    (hm : m ∈ findFrom (located here?) offset skip t) :
    ∃ k, m.1 = offset + k ∧ here? (t.drop k) = some m.2 := by
  induction t generalizing offset skip with
  | nil => simp [findFrom] at hm
  | cons c t ih =>
    have hlater : ∀ {skip}, m ∈ findFrom (located here?) (offset + 1) skip t →
        ∃ k, m.1 = offset + k ∧ here? ((c :: t).drop k) = some m.2 := by
      intro skip hm
      obtain ⟨k, hk, hmatch⟩ := ih hm
      exact ⟨k + 1, by omega, hmatch⟩
    cases skip with
    | succ skip => exact hlater hm
    | zero =>
      simp only [findFrom, located] at hm
      cases hmatch : here? (c :: t) with
      | none =>
        rw [hmatch] at hm
        exact hlater hm
      | some found =>
        rw [hmatch] at hm
        rcases List.mem_cons.1 hm with rfl | hm
        · exact ⟨0, rfl, hmatch⟩
        · exact hlater hm

end Located

/-! ## Joints -/

section Joint

variable {α : Type} {here? : Recogniser α}

/-- Whether a match depends on its own characters only, apart from what may
make it longer. -/
structure Local (here? : Recogniser α) : Prop where
  /-- What ends in the first text is a match of that text. -/
  cut : ∀ {s t : Text} {a : α} {n : Nat}, here? (s ++ t) = some (a, n) → n ≤ s.length →
    here? s = some (a, n)
  /-- Where the first text has a match, the whole has one. -/
  grow : ∀ {s : Text} {found : α × Nat} (t : Text), here? s = some found →
    ∃ found', here? (s ++ t) = some found'

/-- A search falls into two searches at a joint that no match reaches
over. -/
theorem findFrom_append (h : Local here?) {s t : Text} {offset skip : Nat}
    (hskip : skip ≤ s.length)
    (hfree : ∀ m ∈ findFrom (located here?) offset skip (s ++ t),
      ¬ Straddles m (offset + s.length)) :
    findFrom (located here?) offset skip (s ++ t) =
      findFrom (located here?) offset skip s ++
        findFrom (located here?) (offset + s.length) 0 t := by
  induction s generalizing offset skip with
  | nil =>
    obtain rfl : skip = 0 := Nat.le_zero.1 hskip
    rfl
  | cons c s ih =>
    rw [List.length_cons] at hskip hfree ⊢
    have hoffset : offset + (s.length + 1) = offset + 1 + s.length := by omega
    rw [hoffset] at hfree ⊢
    rw [List.cons_append] at hfree ⊢
    cases skip with
    | succ skip => exact ih (by omega) hfree
    | zero =>
      rw [findFrom, located] at hfree
      rw [findFrom, findFrom, located, located]
      cases hmatch : here? (c :: (s ++ t)) with
      | none =>
        have hnone : here? (c :: s) = none := by
          cases hfound : here? (c :: s) with
          | none => rfl
          | some found =>
            obtain ⟨found', hfound'⟩ := h.grow t hfound
            rw [List.cons_append, hmatch] at hfound'
            cases hfound'
        rw [hmatch] at hfree
        rw [hnone]
        exact ih (Nat.zero_le _) hfree
      | some found =>
        obtain ⟨a, n⟩ := found
        rw [hmatch] at hfree
        obtain ⟨hhead, htail⟩ := List.forall_mem_cons.1 hfree
        have hn : n ≤ s.length + 1 := by
          have hover : ¬ (offset < offset + 1 + s.length ∧ offset + 1 + s.length < offset + n) :=
            hhead
          omega
        rw [h.cut (s := c :: s) hmatch hn]
        exact congrArg (_ :: ·) (ih (by omega) htail)

end Joint

end Text

/-! ## Variables -/

namespace Variable

theorem pathAt_ne_nil {c : CodePoint} (h : isNameChar c = true) (t : Text) :
    pathAt (c :: t) ≠ [] := by
  unfold pathAt
  split
  · rename_i heq
    simp at heq
  · rename_i heq
    rw [← (List.cons.inj heq).1, if_pos h]
    simp
  · rename_i heq
    rw [← (List.cons.inj heq).1, if_pos h]
    split <;> simp

/-- The first name of a path stands at the beginning of the text. -/
theorem prefix_of_pathAt {t name : Text} {more : List Text} (h : pathAt t = name :: more) :
    name ≠ [] ∧ name <+: t := by
  fun_induction pathAt t generalizing name more with
  | case1 => simp at h
  | case2 c rest hname ih =>
    obtain ⟨rfl, -⟩ := List.cons.inj h
    simp
  | case3 c rest hname => simp at h
  | case4 c rest hdot hname hnil ih =>
    obtain ⟨rfl, -⟩ := List.cons.inj h
    simp
  | case5 c rest hdot hname first others hmore ih =>
    obtain ⟨rfl, -⟩ := List.cons.inj h
    exact ⟨List.cons_ne_nil _ _, List.cons_prefix_cons.2 ⟨rfl, (ih hmore).2⟩⟩
  | case6 c rest hdot hname => simp at h

/-- Where no dot follows, a character only makes the path longer. -/
theorem pathAt_cons {c : CodePoint} {u : Text} (hname : isNameChar c = true)
    (hdot : ∀ rest, u = .char '.' :: rest → False) :
    pathAt (c :: u) = (match pathAt u with
      | [] => [[c]]
      | name :: more => (c :: name) :: more) ∧
    pathLength (pathAt (c :: u)) = 1 + pathLength (pathAt u) := by
  have hcons : pathAt (c :: u) = match pathAt u with
      | [] => [[c]]
      | name :: more => (c :: name) :: more :=
    (pathAt.eq_3 c u hdot).trans (if_pos hname)
  refine ⟨hcons, ?_⟩
  rw [hcons]
  cases pathAt u with
  | nil => rfl
  | cons name more =>
    simp only [pathLength_cons, List.length_cons]
    omega

/-- A path of no more than one character is that character. -/
theorem pathAt_eq_singleton {c : CodePoint} {t : Text} (hname : isNameChar c = true)
    (h : pathLength (pathAt (c :: t)) ≤ 1) : pathAt (c :: t) = [[c]] := by
  cases hpath : pathAt (c :: t) with
  | nil => exact absurd hpath (pathAt_ne_nil hname t)
  | cons name more =>
    obtain ⟨hne, hfront⟩ := prefix_of_pathAt hpath
    rw [hpath, pathLength_cons] at h
    have hpos := List.length_pos_iff.2 hne
    have hmore : more = [] := by
      by_cases hmore : more = []
      · exact hmore
      · rw [if_neg hmore] at h
        omega
    rw [hmore, List.prefix_iff_eq_take.1 hfront, show name.length = 1 by omega]
    rfl

/-- A path that ends in the first text is a path of that text. -/
theorem pathAt_of_append {s t : Text} (h : pathLength (pathAt (s ++ t)) ≤ s.length) :
    pathAt s = pathAt (s ++ t) := by
  have hlonger : ∀ {c : CodePoint} {rest : Text}, isNameChar c = true →
      (∀ more, rest = .char '.' :: more → False) →
      (pathLength (pathAt (rest ++ t)) ≤ rest.length → pathAt rest = pathAt (rest ++ t)) →
      pathLength (pathAt (c :: (rest ++ t))) ≤ rest.length + 1 →
        pathAt (c :: rest) = pathAt (c :: (rest ++ t)) := by
    intro c rest hname hdot ih h
    cases rest with
    | nil =>
      rw [List.nil_append] at h ⊢
      rw [pathAt_eq_singleton hname h]
      exact (pathAt_cons hname hdot).1
    | cons d rest =>
      have hdot' : ∀ more, d :: rest ++ t = .char '.' :: more → False := by
        intro more heq
        obtain ⟨rfl, -⟩ := List.cons.inj heq
        exact hdot rest rfl
      obtain ⟨hwhole, hlength⟩ := pathAt_cons hname hdot'
      rw [hlength] at h
      rw [hwhole, (pathAt_cons hname hdot).1, ih (by omega)]
  induction s using pathAt.induct with
  | case1 =>
    cases hpath : pathAt ([] ++ t) with
    | nil => rfl
    | cons name more =>
      have hpos := List.length_pos_iff.2 (prefix_of_pathAt hpath).1
      rw [hpath, pathLength_cons, List.length_nil] at h
      omega
  | case2 c rest hname ih =>
    simp only [List.cons_append, pathAt, if_pos hname, pathLength_cons, List.length_cons,
      List.length_nil] at h ⊢
    rw [ih]
    split at h
    · rename_i hnil
      rw [hnil]
      exact Nat.zero_le _
    · omega
  | case3 c rest hname =>
    have hname : isNameChar c = false := by simpa using hname
    rw [List.cons_append, pathAt_of_not_name hname, pathAt_of_not_name hname]
  | case4 c rest hdot hname hnil ih => exact hlonger hname hdot ih h
  | case5 c rest hdot hname name more hmore ih => exact hlonger hname hdot ih h
  | case6 c rest hdot hname =>
    have hname : isNameChar c = false := by simpa using hname
    rw [List.cons_append, pathAt_of_not_name hname, pathAt_of_not_name hname]

/-- A variable is the longest path behind a sigil. -/
theorem here?_eq_some_iff {t : Text} {path : List Text} {n : Nat} :
    here? t = some (path, n) ↔
      ∃ rest, t = .char '$' :: rest ∧ pathAt rest = path ∧ path ≠ [] ∧ n = 1 + pathLength path := by
  unfold here?
  split
  · rename_i rest
    split
    · rename_i hnil
      simp only [reduceCtorEq, false_iff]
      intro h
      obtain ⟨rest', heq, hpath, hne, -⟩ := h
      rw [← (List.cons.inj heq).2, hnil] at hpath
      exact hne hpath.symm
    · rename_i hne
      simp only [Option.some.injEq, Prod.mk.injEq, List.cons.injEq, true_and]
      constructor
      · intro h
        obtain ⟨rfl, rfl⟩ := h
        exact ⟨rest, rfl, rfl, hne, rfl⟩
      · intro h
        obtain ⟨rest', rfl, rfl, -, rfl⟩ := h
        exact ⟨rfl, rfl⟩
  · rename_i hother
    simp only [reduceCtorEq, false_iff]
    intro h
    obtain ⟨rest, heq, -⟩ := h
    exact hother rest heq

/-- The first name of a variable stands inside its match. -/
theorem head_inside {t : Text} {path : List Text} {n : Nat} {name : Text}
    (h : here? t = some (path, n)) (hname : path.head? = some name) :
    ∃ i, name <+: t.drop i ∧ i + name.length ≤ n := by
  obtain ⟨rest, rfl, hpath, -, rfl⟩ := here?_eq_some_iff.1 h
  cases path with
  | nil => simp at hname
  | cons first more =>
    obtain rfl : first = name := Option.some.inj hname
    refine ⟨1, (prefix_of_pathAt hpath).2, ?_⟩
    rw [pathLength_cons]
    omega

theorem local_here? : Text.Local here? := by
  constructor
  · intro s t path n h hn
    obtain ⟨rest, heq, hpath, hne, rfl⟩ := here?_eq_some_iff.1 h
    cases s with
    | nil =>
      rw [List.length_nil] at hn
      omega
    | cons c s =>
      obtain ⟨rfl, hrest⟩ := List.cons.inj heq
      have hpath' : pathAt (s ++ t) = path := (congrArg pathAt hrest).trans hpath
      rw [List.length_cons, ← hpath'] at hn
      have hsame : pathAt s = pathAt (s ++ t) := pathAt_of_append (by omega)
      exact here?_eq_some_iff.2 ⟨s, rfl, hsame.trans hpath', hne, rfl⟩
  · intro s found t h
    obtain ⟨path, n⟩ := found
    obtain ⟨rest, rfl, hpath, hne, rfl⟩ := here?_eq_some_iff.1 h
    have hmore : pathAt (rest ++ t) ≠ [] := by
      cases rest with
      | nil => exact absurd hpath.symm hne
      | cons c rest =>
        cases hname : isNameChar c with
        | true => exact pathAt_ne_nil hname _
        | false => exact absurd ((pathAt_of_not_name hname rest).symm.trans hpath).symm hne
    exact ⟨_, here?_eq_some_iff.2 ⟨rest ++ t, rfl, rfl, hmore, rfl⟩⟩

end Variable

/-! ## Conditions -/

namespace Condition

/-- A text before a closer stands in the first text if there is room for
both. -/
theorem upTo?_append {s t e : Text} (h : e.length + Markup.closer.length ≤ s.length) :
    Text.upTo? Markup.closer (Text.startsWith "\n") (s ++ t) = some e ↔
      Text.upTo? Markup.closer (Text.startsWith "\n") s = some e := by
  have hbegin : (∃ rest, s ++ t = e ++ Markup.closer ++ rest) ↔
      ∃ rest, s = e ++ Markup.closer ++ rest := by
    have hlength : (e ++ Markup.closer).length ≤ s.length := by
      rw [List.length_append]
      exact h
    have hsame : e ++ Markup.closer <+: s ++ t ↔ e ++ Markup.closer <+: s :=
      List.isPrefix_append_of_length hlength
    simpa only [List.IsPrefix, eq_comm] using hsame
  have hinside : ∀ k, k < e.length → ∀ p : Text, p.length ≤ Markup.closer.length →
      (p <+: (s ++ t).drop k ↔ p <+: s.drop k) := by
    intro k hk p hp
    rw [List.drop_append_of_le_length (by omega)]
    apply List.isPrefix_append_of_length
    rw [List.length_drop]
    omega
  rw [Text.upTo?_eq_some_iff (by decide), Text.upTo?_eq_some_iff (by decide), hbegin]
  refine and_congr_right fun _ => forall_congr' fun k => forall_congr' fun hk => ?_
  rw [← Bool.not_eq_true, ← Bool.not_eq_true, Text.startsWith_iff, Text.startsWith_iff,
    hinside k hk _ (Nat.le_refl _), hinside k hk _ (by decide)]

/-- A condition from its path on is a label and whatever is in front of the
nearest closer. -/
theorem path?_eq_some_iff {t label : Text} {n : Nat} :
    path? t = some (label, n) ↔ t.takeWhile isPathChar = label ∧ label ≠ [] ∧
      ∃ tail, Text.upTo? Markup.closer (Text.startsWith "\n") (t.drop label.length) = some tail ∧
        n = label.length + tail.length + Markup.closer.length := by
  simp only [path?, List.isEmpty_iff]
  constructor
  · intro h
    split at h
    · cases h
    · rename_i hne
      split at h
      · rename_i tail htail
        obtain ⟨rfl, rfl⟩ := Prod.mk.inj (Option.some.inj h)
        exact ⟨rfl, hne, tail, htail, rfl⟩
      · cases h
  · intro h
    obtain ⟨rfl, hne, tail, htail, rfl⟩ := h
    rw [if_neg hne, htail]

theorem path?_cut {s t label : Text} {n : Nat} (h : path? (s ++ t) = some (label, n))
    (hn : n ≤ s.length) : path? s = some (label, n) := by
  obtain ⟨hlabel, hne, tail, htail, rfl⟩ := path?_eq_some_iff.1 h
  have hpos : 0 < Markup.closer.length := by decide
  have hsame : s.takeWhile isPathChar = label := by
    rw [List.takeWhile_append] at hlabel
    split at hlabel
    · have hlength := congrArg List.length hlabel
      rw [List.length_append] at hlength
      omega
    · exact hlabel
  rw [List.drop_append_of_le_length (by omega),
    upTo?_append (by rw [List.length_drop]; omega)] at htail
  exact path?_eq_some_iff.2 ⟨hsame, hne, tail, htail, rfl⟩

theorem path?_grow {s label : Text} {n : Nat} (t : Text) (h : path? s = some (label, n)) :
    path? (s ++ t) = some (label, n) := by
  have hlength := path?_length_le h
  obtain ⟨rfl, hne, tail, htail, rfl⟩ := path?_eq_some_iff.1 h
  have hpos : 0 < Markup.closer.length := by decide
  refine path?_eq_some_iff.2 ⟨?_, hne, tail, ?_, rfl⟩
  · rw [List.takeWhile_append, if_neg (by omega)]
  · rw [List.drop_append_of_le_length (by omega),
      upTo?_append (by rw [List.length_drop]; omega)]
    exact htail

/-- A sigil may stand in front of the path. -/
theorem body?_eq_some_iff {t label : Text} {n : Nat} :
    body? t = some (label, n) ↔
      (∃ u m, t = .char '$' :: u ∧ path? u = some (label, m) ∧ n = m + 1) ∨
        t.head? ≠ some '$' ∧ path? t = some (label, n) := by
  cases t with
  | nil => simp [body?]
  | cons c t =>
    by_cases hc : c = .char '$'
    · subst hc
      show (path? t).map _ = _ ↔ _
      rw [Option.map_eq_some_iff]
      simp [eq_comm]
    · rw [body?_plain hc]
      simp [hc]

theorem body?_cut {s t label : Text} {n : Nat} (h : body? (s ++ t) = some (label, n))
    (hn : n ≤ s.length) : body? s = some (label, n) := by
  cases s with
  | nil =>
    have hpos : ∀ {u : Text} {m : Nat}, path? u = some (label, m) → 0 < m := by
      intro u m hu
      obtain ⟨-, -, tail, -, rfl⟩ := path?_eq_some_iff.1 hu
      exact Nat.lt_add_left _ (by decide)
    rw [List.length_nil] at hn
    rcases body?_eq_some_iff.1 h with ⟨u, m, -, hfound, rfl⟩ | ⟨-, hfound⟩
    · omega
    · have := hpos hfound
      omega
  | cons c s =>
    rcases body?_eq_some_iff.1 h with ⟨u, m, heq, hfound, rfl⟩ | ⟨hhead, hfound⟩
    · obtain ⟨rfl, hu⟩ := List.cons.inj heq
      have hfound' : path? (s ++ t) = some (label, m) := (congrArg path? hu).trans hfound
      rw [List.length_cons] at hn
      exact body?_eq_some_iff.2 (.inl ⟨s, m, rfl, path?_cut hfound' (by omega), rfl⟩)
    · exact body?_eq_some_iff.2 (.inr ⟨hhead, path?_cut hfound hn⟩)

theorem body?_grow {s label : Text} {n : Nat} (t : Text) (h : body? s = some (label, n)) :
    body? (s ++ t) = some (label, n) := by
  rcases body?_eq_some_iff.1 h with ⟨u, m, rfl, hfound, rfl⟩ | ⟨hhead, hfound⟩
  · exact body?_eq_some_iff.2 (.inl ⟨u ++ t, m, rfl, path?_grow t hfound, rfl⟩)
  · refine body?_eq_some_iff.2 (.inr ⟨?_, path?_grow t hfound⟩)
    cases s with
    | nil => simp [path?] at hfound
    | cons c s => exact hhead

theorem after?_eq_some_iff {keywords t label : Text} {n : Nat} :
    after? keywords t = some (label, n) ↔
      ∃ rest m, t = keywords ++ rest ∧ body? rest = some (label, m) ∧ n = keywords.length + m := by
  unfold after?
  constructor
  · intro h
    split at h
    · rename_i rest hrest
      obtain ⟨⟨label', m⟩, hfound, heq⟩ := Option.map_eq_some_iff.1 h
      obtain ⟨rfl, rfl⟩ := Prod.mk.inj heq
      exact ⟨rest, m, Text.after?_eq_some_iff.1 hrest, hfound, rfl⟩
    · cases h
  · intro h
    obtain ⟨rest, m, ht, hfound, rfl⟩ := h
    rw [Text.after?_eq_some_iff.2 ht]
    show (body? rest).map _ = _
    rw [hfound]
    rfl

theorem after?_cut {keywords s t label : Text} {n : Nat}
    (h : after? keywords (s ++ t) = some (label, n)) (hn : n ≤ s.length) :
    after? keywords s = some (label, n) := by
  obtain ⟨rest, m, heq, hfound, rfl⟩ := after?_eq_some_iff.1 h
  have hfront : keywords <+: s ++ t := ⟨rest, heq.symm⟩
  obtain ⟨rest', rfl⟩ := (List.isPrefix_append_of_length (by omega)).1 hfront
  rw [List.append_assoc, List.append_cancel_left_eq] at heq
  rw [List.length_append] at hn
  rw [← heq] at hfound
  exact after?_eq_some_iff.2 ⟨rest', m, rfl, body?_cut hfound (by omega), rfl⟩

theorem after?_grow {keywords s label : Text} {n : Nat} (t : Text)
    (h : after? keywords s = some (label, n)) : after? keywords (s ++ t) = some (label, n) := by
  obtain ⟨rest, m, rfl, hfound, rfl⟩ := after?_eq_some_iff.1 h
  exact after?_eq_some_iff.2 ⟨rest ++ t, m, List.append_assoc .., body?_grow t hfound, rfl⟩

/-- The words `if not` are tried first. -/
theorem here?_eq_some_iff {t label : Text} {n : Nat} :
    here? t = some (label, n) ↔ after? "<% if not " t = some (label, n) ∨
      after? "<% if not " t = none ∧ after? "<% if " t = some (label, n) := by
  unfold here?
  cases after? "<% if not " t with
  | none => simp
  | some found => simp

theorem local_here? : Text.Local here? := by
  constructor
  · intro s t label n h hn
    rcases here?_eq_some_iff.1 h with hnot | ⟨hnone, hif⟩
    · exact here?_eq_some_iff.2 (.inl (after?_cut hnot hn))
    · refine here?_eq_some_iff.2 (.inr ⟨?_, after?_cut hif hn⟩)
      cases hfound : after? "<% if not " s with
      | none => rfl
      | some found =>
        rw [after?_grow t hfound] at hnone
        cases hnone
  · intro s found t h
    obtain ⟨label, n⟩ := found
    cases hfound : after? "<% if not " (s ++ t) with
    | some found => exact ⟨found, here?_eq_some_iff.2 (.inl hfound)⟩
    | none =>
      rcases here?_eq_some_iff.1 h with hnot | ⟨-, hif⟩
      · rw [after?_grow t hnot] at hfound
        cases hfound
      · exact ⟨_, here?_eq_some_iff.2 (.inr ⟨hfound, after?_grow t hif⟩)⟩

/-- The label of a condition stands inside its match. -/
theorem label_inside {t label : Text} {n : Nat} (h : here? t = some (label, n)) :
    ∃ i, label <+: t.drop i ∧ i + label.length ≤ n := by
  have hpath : ∀ {u : Text} {m : Nat}, path? u = some (label, m) →
      label <+: u ∧ label.length ≤ m := by
    intro u m hu
    obtain ⟨rfl, -, tail, -, rfl⟩ := path?_eq_some_iff.1 hu
    exact ⟨List.takeWhile_prefix _, by omega⟩
  have hbody : ∀ {u : Text} {m : Nat}, body? u = some (label, m) →
      ∃ i, label <+: u.drop i ∧ i + label.length ≤ m := by
    intro u m hu
    rcases body?_eq_some_iff.1 hu with ⟨u, m, rfl, hfound, rfl⟩ | ⟨-, hfound⟩
    · obtain ⟨hfront, hle⟩ := hpath hfound
      exact ⟨1, hfront, by omega⟩
    · obtain ⟨hfront, hle⟩ := hpath hfound
      exact ⟨0, hfront, by omega⟩
  have hafter : ∀ {keywords : Text}, after? keywords t = some (label, n) →
      ∃ i, label <+: t.drop i ∧ i + label.length ≤ n := by
    intro keywords hkeywords
    obtain ⟨rest, m, rfl, hfound, rfl⟩ := after?_eq_some_iff.1 hkeywords
    obtain ⟨i, hfront, hle⟩ := hbody hfound
    refine ⟨keywords.length + i, ?_, by omega⟩
    rwa [List.drop_length_add_append]
  rcases here?_eq_some_iff.1 h with hnot | ⟨-, hif⟩
  · exact hafter hnot
  · exact hafter hif

end Condition

end TemplateScopes
