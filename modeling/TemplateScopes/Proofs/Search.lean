import TemplateScopes.Text.Search

/-!
# What a search finds

A search skips every match that begins inside an earlier one.  A
recogniser whose matches never begin inside each other loses nothing by
that, and its search lists every place where it succeeds.

There are three groups.

* The matches of a whole text.  `Apart` says that matches keep apart,
  `mem_findAll` that the search then finds them all, and
  `pairwise_findAll` that it lists them in the order of their offsets.
* Matches with one end.  `EndTogether` says that matches that overlap end
  at the same place, and `mem_findAll_of_endTogether` that the search then
  finds the first match of each end.
* The shortest beginning before a closer.  `upTo?_eq_some_iff` says which
  beginning `upTo?` takes.
-/

namespace TemplateScopes.Text

/-! ## The matches of a whole text -/

section FindAll

variable {α : Type} {here? : Recogniser α}

/-- No match is empty, none stands at the end of the text, and none begins
inside another one. -/
structure Apart (here? : Recogniser α) : Prop where
  nil : here? [] = none
  inside : ∀ {t : Text} {a : α} {n : Nat}, here? t = some (a, n) →
    ∀ k, 0 < k → k < n → here? (t.drop k) = none

/-- A match in `c :: t` stands at the front or in `t`. -/
private theorem exists_match_cons {c : CodePoint} {t : Text} {offset k : Nat} {a : α} :
    (∃ j n, k = offset + j ∧ here? ((c :: t).drop j) = some (a, n)) ↔
      (k = offset ∧ ∃ n, here? (c :: t) = some (a, n)) ∨
        ∃ j n, k = offset + 1 + j ∧ here? (t.drop j) = some (a, n) := by
  constructor
  · intro h
    obtain ⟨j, n, hk, hmatch⟩ := h
    cases j with
    | zero => exact .inl ⟨hk, n, hmatch⟩
    | succ j => exact .inr ⟨j, n, by omega, by simpa using hmatch⟩
  · intro h
    rcases h with ⟨hk, n, hmatch⟩ | ⟨j, n, hk, hmatch⟩
    · exact ⟨0, n, hk, hmatch⟩
    · exact ⟨j + 1, n, by omega, by simpa using hmatch⟩

/-- The search finds every match, provided that none stands in the part to
skip. -/
theorem mem_findFrom (hapart : Apart here?) {t : Text} {offset skip k : Nat} {a : α}
    (hskip : ∀ j, j < skip → here? (t.drop j) = none) :
    (k, a) ∈ findFrom here? offset skip t ↔
      ∃ j n, k = offset + j ∧ here? (t.drop j) = some (a, n) := by
  induction t generalizing offset skip with
  | nil => simp [findFrom, hapart.nil]
  | cons c t ih =>
    rw [exists_match_cons]
    cases skip with
    | succ skip =>
      have hhead : here? (c :: t) = none := hskip 0 (by omega)
      have htail : ∀ j, j < skip → here? (t.drop j) = none :=
        fun j hj => hskip (j + 1) (by omega)
      rw [findFrom, ih htail]
      simp [hhead]
    | zero =>
      rw [findFrom]
      split
      · rename_i found length hmatch
        have htail : ∀ j, j < length - 1 → here? (t.drop j) = none :=
          fun j hj => hapart.inside hmatch (j + 1) (by omega) (by omega)
        rw [List.mem_cons, ih htail, hmatch]
        simp [eq_comm]
      · rename_i hmatch
        rw [ih (by simp), hmatch]
        simp

theorem le_of_mem_findFrom {t : Text} {offset skip : Nat} {found : Nat × α}
    (h : found ∈ findFrom here? offset skip t) : offset ≤ found.1 := by
  induction t generalizing offset skip with
  | nil => simp [findFrom] at h
  | cons c t ih =>
    unfold findFrom at h
    split at h
    · exact Nat.le_of_succ_le (ih h)
    · split at h
      · rcases List.mem_cons.1 h with rfl | h
        · exact Nat.le_refl _
        · exact Nat.le_of_succ_le (ih h)
      · exact Nat.le_of_succ_le (ih h)

theorem pairwise_findFrom (t : Text) (offset skip : Nat) :
    (findFrom here? offset skip t).Pairwise fun a b => a.1 < b.1 := by
  induction t generalizing offset skip with
  | nil => simp [findFrom]
  | cons c t ih =>
    unfold findFrom
    split
    · exact ih _ _
    · split
      · exact List.pairwise_cons.2 ⟨fun found h => le_of_mem_findFrom h, ih _ _⟩
      · exact ih _ _

/-- The search of a whole text finds every match. -/
theorem mem_findAll (hapart : Apart here?) {t : Text} {k : Nat} {a : α} :
    (k, a) ∈ findAll here? t ↔ ∃ n, here? (t.drop k) = some (a, n) := by
  rw [findAll, mem_findFrom hapart (by simp)]
  simp

theorem pairwise_findAll (t : Text) :
    (findAll here? t).Pairwise fun a b => a.1 < b.1 :=
  pairwise_findFrom t 0 0

end FindAll

/-! ## Matches with one end -/

section EndTogether

variable {α : Type} {here? : Recogniser α}

/-- No match is empty, none stands at the end of the text, and one that
begins inside another match ends where that match ends. -/
structure EndTogether (here? : Recogniser α) : Prop where
  nil : here? [] = none
  pos : ∀ {t : Text} {a : α} {n : Nat}, here? t = some (a, n) → 0 < n
  inside : ∀ {t : Text} {a b : α} {m n : Nat}, here? t = some (a, n) →
    ∀ k, 0 < k → k < n → here? (t.drop k) = some (b, m) → k + m = n

/-- Whether a match stands at an offset and no earlier match ends where it
ends. -/
structure FirstAt (here? : Recogniser α) (t : Text) (k : Nat) (a : α) (n : Nat) : Prop where
  found : here? (t.drop k) = some (a, n)
  first : ∀ i, i < k → ∀ b m, here? (t.drop i) = some (b, m) → i + m ≠ k + n

theorem firstAt_zero_iff {t : Text} {a : α} {n : Nat} :
    FirstAt here? t 0 a n ↔ here? t = some (a, n) :=
  ⟨fun h => h.found, fun h => ⟨h, by simp⟩⟩

/-- A match behind the head is the first one of its end in the whole text if
it is so in the tail and the match at the head ends elsewhere. -/
theorem firstAt_succ_iff {c : CodePoint} {t : Text} {k n : Nat} {a : α} :
    FirstAt here? (c :: t) (k + 1) a n ↔
      FirstAt here? t k a n ∧ ∀ b m, here? (c :: t) = some (b, m) → m ≠ k + 1 + n := by
  constructor
  · intro h
    refine ⟨⟨h.found, ?_⟩, ?_⟩
    · intro i hi b m hmatch heq
      exact h.first (i + 1) (by omega) b m hmatch (by omega)
    · intro b m hmatch heq
      exact h.first 0 (by omega) b m hmatch (by omega)
  · rintro ⟨htail, hhead⟩
    refine ⟨htail.found, ?_⟩
    intro i hi b m hmatch heq
    cases i with
    | zero => exact hhead b m hmatch (by omega)
    | succ i => exact htail.first i (by omega) b m hmatch (by omega)

/-- A first match in `c :: t` stands at the front or behind the head. -/
private theorem exists_firstAt_cons {c : CodePoint} {t : Text} {offset skip k : Nat} {a : α} :
    (∃ j n, k = offset + j ∧ skip ≤ j ∧ FirstAt here? (c :: t) j a n) ↔
      (k = offset ∧ skip = 0 ∧ ∃ n, here? (c :: t) = some (a, n)) ∨
        ∃ j n, k = offset + 1 + j ∧ skip ≤ j + 1 ∧ FirstAt here? (c :: t) (j + 1) a n := by
  constructor
  · rintro ⟨j, n, hk, hle, hfirst⟩
    cases j with
    | zero => exact .inl ⟨hk, by omega, n, firstAt_zero_iff.1 hfirst⟩
    | succ j => exact .inr ⟨j, n, by omega, hle, hfirst⟩
  · rintro (⟨hk, hskip, n, hmatch⟩ | ⟨j, n, hk, hle, hfirst⟩)
    · exact ⟨0, n, hk, by omega, firstAt_zero_iff.2 hmatch⟩
    · exact ⟨j + 1, n, by omega, hle, hfirst⟩

/-- The search finds the first match of each end, provided that the matches
in the part to skip end where that part ends. -/
theorem mem_findFrom_of_endTogether (h : EndTogether here?) {t : Text} {offset skip k : Nat}
    {a : α} (hskip : ∀ j, j < skip → ∀ b m, here? (t.drop j) = some (b, m) → j + m = skip) :
    (k, a) ∈ findFrom here? offset skip t ↔
      ∃ j n, k = offset + j ∧ skip ≤ j ∧ FirstAt here? t j a n := by
  induction t generalizing offset skip with
  | nil =>
    simp only [findFrom, List.not_mem_nil, false_iff]
    rintro ⟨j, n, -, -, hfirst⟩
    have hmatch := hfirst.found
    rw [List.drop_nil, h.nil] at hmatch
    cases hmatch
  | cons c t ih =>
    rw [exists_firstAt_cons]
    cases skip with
    | succ skip =>
      have hrest : ∀ j, j < skip → ∀ b m, here? (t.drop j) = some (b, m) → j + m = skip := by
        intro j hj b m hmatch
        have hend := hskip (j + 1) (by omega) b m hmatch
        omega
      rw [findFrom, ih hrest]
      simp only [Nat.add_one_ne_zero, false_and, and_false, false_or, Nat.succ_le_succ_iff]
      refine exists_congr fun j => exists_congr fun n => and_congr_right fun _ =>
        and_congr_right fun hle => ?_
      -- A match at the head ends with the part to skip.
      rw [firstAt_succ_iff, and_iff_left_of_imp]
      intro hfirst b m hmatch heq
      have hend := hskip 0 (by omega) b m hmatch
      have hn := h.pos hfirst.found
      omega
    | zero =>
      rw [findFrom]
      split
      · rename_i found length hmatch
        have hrest : ∀ j, j < length - 1 → ∀ b m, here? (t.drop j) = some (b, m) →
            j + m = length - 1 := by
          intro j hj b m hinside
          have hend := h.inside hmatch (j + 1) (by omega) (by omega) hinside
          omega
        rw [List.mem_cons, ih hrest, Prod.mk.injEq]
        refine or_congr ?_ (exists_congr fun j => exists_congr fun n => and_congr_right fun _ => ?_)
        · simp [hmatch, eq_comm]
        · -- A match inside the one at the head has its end, and one behind it has not.
          simp only [firstAt_succ_iff, hmatch, Option.some.injEq, Prod.mk.injEq]
          constructor
          · rintro ⟨hle, hfirst⟩
            refine ⟨Nat.zero_le _, hfirst, ?_⟩
            rintro b m ⟨-, rfl⟩ heq
            have hn := h.pos hfirst.found
            omega
          · rintro ⟨-, hfirst, hhead⟩
            refine ⟨Nat.le_of_not_lt fun hlt => ?_, hfirst⟩
            have hend := h.inside hmatch (j + 1) (by omega) (by omega) hfirst.found
            exact hhead found length ⟨rfl, rfl⟩ hend.symm
      · rename_i hnone
        rw [ih (by simp)]
        simp [firstAt_succ_iff, hnone]

/-- The search of a whole text finds the first match of each end. -/
theorem mem_findAll_of_endTogether (h : EndTogether here?) {t : Text} {k : Nat} {a : α} :
    (k, a) ∈ findAll here? t ↔ ∃ n, FirstAt here? t k a n := by
  rw [findAll, mem_findFrom_of_endTogether h (by simp)]
  simp

end EndTogether

/-! ## The shortest beginning before a closer -/

/-- `upTo?` takes a beginning that the closer follows, if the closer
stands nowhere inside it and the barrier holds nowhere inside it. -/
theorem upTo?_eq_some_iff {closer : Text} (hcloser : closer ≠ []) {barrier : Text → Bool}
    {t e : Text} :
    upTo? closer barrier t = some e ↔
      (∃ rest, t = e ++ closer ++ rest) ∧
        ∀ k, k < e.length → ¬ closer <+: t.drop k ∧ barrier (t.drop k) = false := by
  induction t generalizing e with
  | nil => simp [upTo?, hcloser]
  | cons c t ih =>
    unfold upTo?
    split
    · rename_i hstart
      obtain ⟨rest, hrest⟩ := startsWith_iff.1 hstart
      constructor
      · intro h
        obtain rfl : [] = e := Option.some.inj h
        exact ⟨⟨rest, hrest.symm⟩, by simp⟩
      · intro h
        cases e with
        | nil => rfl
        | cons d e => exact absurd (startsWith_iff.1 hstart) (h.2 0 (by simp)).1
    · rename_i hstart
      rw [startsWith_iff] at hstart
      split
      · rename_i hbarrier
        refine ⟨by simp, ?_⟩
        intro h
        obtain ⟨⟨rest, hrest⟩, hclear⟩ := h
        cases e with
        | nil => exact absurd ⟨rest, hrest.symm⟩ hstart
        | cons d e => simpa [hbarrier] using (hclear 0 (by simp)).2
      · rename_i hbarrier
        rw [Option.map_eq_some_iff]
        constructor
        · intro h
          obtain ⟨e, he, rfl⟩ := h
          obtain ⟨⟨rest, hrest⟩, hclear⟩ := ih.1 he
          refine ⟨⟨rest, by simp [hrest]⟩, ?_⟩
          intro k hk
          cases k with
          | zero => exact ⟨hstart, by simpa using hbarrier⟩
          | succ k => exact hclear k (by simpa using hk)
        · intro h
          obtain ⟨⟨rest, hrest⟩, hclear⟩ := h
          cases e with
          | nil => exact absurd ⟨rest, hrest.symm⟩ hstart
          | cons d e =>
            obtain ⟨rfl, hrest⟩ := List.cons.inj hrest
            refine ⟨e, ih.2 ⟨⟨rest, by simpa using hrest⟩, ?_⟩, rfl⟩
            exact fun k hk => hclear (k + 1) (by simpa using hk)

end TemplateScopes.Text
