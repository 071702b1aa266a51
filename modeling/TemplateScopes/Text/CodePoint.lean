/-!
# Code points

A code point is a character or a surrogate.  A surrogate stands for no
character, so UTF-8 has no bytes for it.  It gets into a text all the same:
by an escape in a JSON string, and by a file name that is not UTF-8.

A character counts as a code point wherever one is asked for.  Code points
are ordered by their numbers (`le_def`), and the number tells the code
point (`toNat_inj`).
-/

namespace TemplateScopes

/-- A Unicode code point. -/
inductive CodePoint where
  | char (c : Char)
  /-- The surrogate so far behind U+D800. -/
  | surrogate (index : Fin 0x800)
deriving DecidableEq, Repr

namespace CodePoint

instance : Coe Char CodePoint := ⟨char⟩

instance : Inhabited CodePoint := ⟨'\x00'⟩

/-- The number of a code point. -/
def toNat : CodePoint → Nat
  | char c => c.toNat
  | surrogate index => 0xD800 + index

/-- The code point of a number, U+0000 if there is none. -/
def ofNat (n : Nat) : CodePoint :=
  if h : 0xD800 ≤ n ∧ n ≤ 0xDFFF then surrogate ⟨n - 0xD800, by omega⟩ else char (Char.ofNat n)

/-- Whether a code point is a character. -/
def isChar : CodePoint → Bool
  | char _ => true
  | surrogate _ => false

@[simp]
theorem isChar_char (c : Char) : (char c).isChar = true := rfl

theorem isChar_eq_true_iff {c : CodePoint} : c.isChar = true ↔ ∃ d, c = char d := by
  cases c <;> simp [isChar]

/-! ## Numbers -/

@[simp]
theorem toNat_char (c : Char) : (char c).toNat = c.toNat := rfl

theorem toNat_surrogate (index : Fin 0x800) :
    (surrogate index).toNat = 0xD800 + index := rfl

theorem isChar_of_toNat_lt {c : CodePoint} (h : c.toNat < 0xD800) : c.isChar = true := by
  cases c with
  | char c => rfl
  | surrogate index =>
    rw [toNat_surrogate] at h
    omega

/-- A character has no number of a surrogate. -/
theorem toNat_char_ne (c : Char) (index : Fin 0x800) : c.toNat ≠ 0xD800 + index := by
  have hvalid : c.toNat < 0xD800 ∨ 0xDFFF < c.toNat ∧ c.toNat < 0x110000 := c.valid
  omega

theorem toNat_inj {a b : CodePoint} : a.toNat = b.toNat ↔ a = b := by
  cases a with
  | char c =>
    cases b with
    | char d => simp [Char.toNat_inj]
    | surrogate j => simp [toNat_surrogate, toNat_char_ne]
  | surrogate i =>
    cases b with
    | char d => simp [toNat_surrogate, (toNat_char_ne d i).symm]
    | surrogate j => simp [toNat_surrogate, Fin.val_inj]

theorem ofNat_toNat (c : CodePoint) : ofNat c.toNat = c := by
  cases c with
  | char c =>
    have hvalid : c.toNat < 0xD800 ∨ 0xDFFF < c.toNat ∧ c.toNat < 0x110000 := c.valid
    rw [toNat_char, ofNat, dif_neg (by omega), Char.ofNat_toNat]
  | surrogate index =>
    have hindex := index.isLt
    rw [toNat_surrogate, ofNat, dif_pos (by omega)]
    simp

theorem toNat_ofNat {n : Nat} (h : n < 0x110000) : (ofNat n).toNat = n := by
  unfold ofNat
  split
  · rw [toNat_surrogate]
    dsimp only
    omega
  · have hvalid : n.isValidChar := by
      unfold Nat.isValidChar
      omega
    rw [toNat_char, Char.ofNat, dif_pos hvalid]
    rfl

/-! ## Order -/

instance : LE CodePoint := ⟨fun a b => a.toNat ≤ b.toNat⟩

instance : LT CodePoint := ⟨fun a b => a.toNat < b.toNat⟩

theorem le_def {a b : CodePoint} : a ≤ b ↔ a.toNat ≤ b.toNat := Iff.rfl

theorem lt_def {a b : CodePoint} : a < b ↔ a.toNat < b.toNat := Iff.rfl

instance (a b : CodePoint) : Decidable (a ≤ b) := inferInstanceAs (Decidable (a.toNat ≤ b.toNat))

instance (a b : CodePoint) : Decidable (a < b) := inferInstanceAs (Decidable (a.toNat < b.toNat))

instance : Std.IsLinearOrder CodePoint where
  le_refl a := Nat.le_refl a.toNat
  le_trans a b c := Nat.le_trans (n := a.toNat) (m := b.toNat) (k := c.toNat)
  le_antisymm _ _ h k := toNat_inj.1 (Nat.le_antisymm h k)
  le_total a b := Nat.le_total a.toNat b.toNat

instance : Std.LawfulOrderLT CodePoint where
  lt_iff a b := by
    rw [lt_def, le_def, le_def]
    omega

end CodePoint

end TemplateScopes
