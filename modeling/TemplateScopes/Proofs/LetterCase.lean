import TemplateScopes.Text.LetterCase

/-!
# Lower case is final

A text in lower case is its own lower case.  Tables that hold their names in
lower case can therefore be put into lower case again without any change.

There are two groups.

* Characters.  `CaseRun.Holds` says that a run of the table has a character,
  and `lowerByTable_image` that no run has a character that another run leads
  to.
* Texts.  `IsLower` are the characters that stay as they are wherever they
  stand.  The lower case of a text has no others (`isLower_of_mem_lower`), and
  `lower_lower` follows.
-/

namespace TemplateScopes.Text

/-! ## Characters -/

namespace CaseRun

/-- Whether a run has the character with the given code point. -/
def Holds (run : CaseRun) (n : Nat) : Prop :=
  run.first ≤ n ∧ n ≤ run.last ∧ (n - run.first) % run.step = 0

/-- Whether the code points that one run leads to are beside another run, or
between its characters. -/
def misses (run other : CaseRun) : Bool :=
  !(Nat.ble other.first (run.image + (run.last - run.first)) && Nat.ble run.image other.last) ||
    ((Nat.beq run.first run.last || Nat.beq (run.step % other.step) 0) &&
      !Nat.beq (run.image % other.step) (other.first % other.step))

/-- Whether there are the code points that a run leads to, none of which is the
capital I with a dot. -/
def imagesFit (run : CaseRun) : Bool :=
  let last := run.image + (run.last - run.first)
  Nat.ble (last + 1) 0x110000 && (Nat.ble (last + 1) 0x130 || Nat.ble 0x131 run.image)

variable {run other : CaseRun} {n : Nat}

theorem not_holds_of_misses (hmisses : run.misses other = true) (h : run.Holds n) :
    ¬ other.Holds (run.image + (n - run.first)) := by
  obtain ⟨hfirst, hlast, hstep⟩ := h
  rintro ⟨hfirst', hlast', hstep'⟩
  simp only [misses, Bool.or_eq_true, Bool.and_eq_true, Bool.not_eq_true', Nat.ble_eq,
    Nat.beq_eq, ← Bool.not_eq_true] at hmisses
  rcases hmisses with hapart | ⟨hcongr, hbetween⟩
  · exact hapart ⟨by omega, by omega⟩
  · -- Both runs have the code point, so the remainders are those of their
    -- first ones.
    apply hbetween
    have hdist : (n - run.first) % other.step = 0 := by
      rcases hcongr with hone | hdvd
      · rw [show n - run.first = 0 by omega, Nat.zero_mod]
      · exact Nat.mod_eq_zero_of_dvd
          (Nat.dvd_trans (Nat.dvd_of_mod_eq_zero hdvd) (Nat.dvd_of_mod_eq_zero hstep))
    have himage : (run.image + (n - run.first)) % other.step = run.image % other.step := by
      rw [Nat.add_mod, hdist, Nat.add_zero, Nat.mod_mod]
    calc run.image % other.step
        = (run.image + (n - run.first)) % other.step := himage.symm
      _ = (run.image + (n - run.first) - other.first + other.first) % other.step := by
          rw [Nat.sub_add_cancel hfirst']
      _ = other.first % other.step := by
          rw [Nat.add_mod, hstep', Nat.zero_add, Nat.mod_mod]

end CaseRun

section Characters

variable {c : CodePoint} {run : CaseRun}

theorem misses_of_mem : ∀ run ∈ lowerRuns, ∀ other ∈ lowerRuns, run.misses other = true := by
  have hall : lowerRuns.all (fun run => lowerRuns.all run.misses) = true := by decide +kernel
  intro run hrun other hother
  exact List.all_eq_true.1 (List.all_eq_true.1 hall run hrun) other hother

theorem imagesFit_of_mem : ∀ run ∈ lowerRuns, run.imagesFit = true := by
  have hall : lowerRuns.all CaseRun.imagesFit = true := by decide +kernel
  exact List.all_eq_true.1 hall

/-- A character that no run has stays as it is. -/
theorem lowerByTable_eq_self (h : ∀ run ∈ lowerRuns, ¬ run.Holds c.toNat) :
    lowerByTable c = c := by
  unfold lowerByTable
  split
  · rename_i run hfound
    have hholds := List.find?_some hfound
    simp only [Bool.and_eq_true, decide_eq_true_eq, beq_iff_eq] at hholds
    exact absurd ⟨hholds.1.1, hholds.1.2, hholds.2⟩ (h run (List.mem_of_find?_eq_some hfound))
  · rfl

theorem lowerByTable_cases (c : CodePoint) : lowerByTable c = c ∨ ∃ run ∈ lowerRuns,
    run.Holds c.toNat ∧
      lowerByTable c = CodePoint.ofNat (run.image + (c.toNat - run.first)) := by
  unfold lowerByTable
  split
  · rename_i run hfound
    have hholds := List.find?_some hfound
    simp only [Bool.and_eq_true, decide_eq_true_eq, beq_iff_eq] at hholds
    exact .inr ⟨run, List.mem_of_find?_eq_some hfound, ⟨hholds.1.1, hholds.1.2, hholds.2⟩, rfl⟩
  · exact .inl rfl

theorem toNat_image (hrun : run ∈ lowerRuns) (h : run.Holds c.toNat) :
    (CodePoint.ofNat (run.image + (c.toNat - run.first))).toNat =
        run.image + (c.toNat - run.first) ∧
      run.image + (c.toNat - run.first) ≠ 0x130 := by
  have hfit := imagesFit_of_mem run hrun
  simp only [CaseRun.imagesFit, Bool.or_eq_true, Bool.and_eq_true, Nat.ble_eq] at hfit
  obtain ⟨hfirst, hlast, -⟩ := h
  exact ⟨CodePoint.toNat_ofNat (by omega), by omega⟩

/-- What the table leads to, it leaves alone. -/
theorem lowerByTable_image (c : CodePoint) : lowerByTable (lowerByTable c) = lowerByTable c := by
  rcases lowerByTable_cases c with hsame | ⟨run, hrun, hholds, himage⟩
  · rw [hsame, hsame]
  · apply lowerByTable_eq_self
    intro other hother
    rw [himage, (toNat_image hrun hholds).1]
    exact CaseRun.not_holds_of_misses (misses_of_mem run hrun other hother) hholds

theorem lowerByTable_ne_dotted (h : c ≠ .char 'İ') : lowerByTable c ≠ .char 'İ' := by
  rcases lowerByTable_cases c with hsame | ⟨run, hrun, hholds, himage⟩
  · rwa [hsame]
  · obtain ⟨hcode, hne⟩ := toNat_image hrun hholds
    intro heq
    rw [himage] at heq
    exact hne (by rw [← hcode, heq]; rfl)

end Characters

/-! ## Texts -/

section Texts

variable {c : CodePoint} {t before : Text}

/-- Whether a character stays as it is wherever it stands. -/
def IsLower (c : CodePoint) : Prop :=
  c ≠ capitalSigma ∧ lowerChar c = [c]

theorem isLower_lowerByTable (h : c ≠ .char 'İ') : IsLower (lowerByTable c) := by
  constructor
  · -- The table leads from the sigma to another character, so it does not lead
    -- to the sigma.
    intro hsigma
    have himage := lowerByTable_image c
    rw [hsigma] at himage
    exact absurd himage (by decide +kernel)
  · rw [lowerChar, if_neg (lowerByTable_ne_dotted h), lowerByTable_image]

theorem isLower_of_mem_lowerChar {d : CodePoint} (h : d ∈ lowerChar c) : IsLower d := by
  unfold lowerChar at h
  split at h
  · have hparts : lowerChar 'i' = [.char 'i'] ∧ lowerChar '\u0307' = [.char '\u0307'] := by
      decide +kernel
    simp only [List.mem_cons, List.not_mem_nil, or_false] at h
    rcases h with rfl | rfl
    · exact ⟨by decide, hparts.1⟩
    · exact ⟨by decide, hparts.2⟩
  · rename_i hdotted
    rw [List.mem_singleton.1 h]
    exact isLower_lowerByTable hdotted

theorem isLower_lowerSigma (before after : Text) : IsLower (lowerSigma before after) := by
  have hforms : lowerChar 'ς' = [.char 'ς'] ∧ lowerChar 'σ' = [.char 'σ'] := by decide +kernel
  unfold lowerSigma
  split
  · exact ⟨by decide, hforms.1⟩
  · exact ⟨by decide, hforms.2⟩

/-- The lower case of a text has only characters that stay as they are. -/
theorem isLower_of_mem_lowerFrom (h : c ∈ lowerFrom before t) : IsLower c := by
  induction t generalizing before with
  | nil => cases h
  | cons d t ih =>
    rw [lowerFrom] at h
    split at h
    · rcases List.mem_cons.1 h with rfl | h
      · exact isLower_lowerSigma _ _
      · exact ih h
    · rcases List.mem_append.1 h with h | h
      · exact isLower_of_mem_lowerChar h
      · exact ih h

theorem isLower_of_mem_lower (h : c ∈ lower t) : IsLower c :=
  isLower_of_mem_lowerFrom h

theorem lowerFrom_eq_self (h : ∀ c ∈ t, IsLower c) : lowerFrom before t = t := by
  induction t generalizing before with
  | nil => rfl
  | cons c t ih =>
    obtain ⟨hc, ht⟩ := List.forall_mem_cons.1 h
    rw [lowerFrom, if_neg hc.1, hc.2, ih ht]
    rfl

/-- A text in lower case is its own lower case. -/
theorem lower_lower (t : Text) : lower (lower t) = lower t :=
  lowerFrom_eq_self fun _ => isLower_of_mem_lower

end Texts

end TemplateScopes.Text
