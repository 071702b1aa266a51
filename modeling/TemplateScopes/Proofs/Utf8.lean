import Mathlib.Tactic.SplitIfs
import TemplateScopes.Text.Utf8

/-!
# UTF-8 is read as it is written

Bytes are read as the characters whose bytes they are.  Bytes that no
characters have are not well formed.

There are four groups.

* Lead bytes.  `Lead.of?_eq_some_iff` lists what each lead byte announces.
* Writing.  `encodeChar_two`, `encodeChar_three` and `encodeChar_four` put the
  bytes of a character together again.
* Reading.  `readFrom_encodeChar`: the bytes of a character are read as that
  character.  `exists_char_of_read`: where all is well formed, the bytes of a
  character stand in front.
* Characters in a row.  `decode?_eq_some_iff`.
-/

namespace TemplateScopes.Text.Utf8

/-! ## Lead bytes -/

/-- The lead bytes of two, three and four bytes.  The second byte has further
bounds where the code point could be written with fewer bytes, is that of a
surrogate, or is too large. -/
theorem Lead.of?_eq_some_iff {b : Nat} {lead : Lead} : Lead.of? b = some lead ↔
    (0xC2 ≤ b ∧ b ≤ 0xDF ∧ lead = ⟨b - 0xC0, 0x80, 0xBF, 1⟩) ∨
    (0xE0 ≤ b ∧ b ≤ 0xEF ∧ lead = ⟨b - 0xE0, if b = 0xE0 then 0xA0 else 0x80,
      if b = 0xED then 0x9F else 0xBF, 2⟩) ∨
    (0xF0 ≤ b ∧ b ≤ 0xF4 ∧ lead = ⟨b - 0xF0, if b = 0xF0 then 0x90 else 0x80,
      if b = 0xF4 then 0x8F else 0xBF, 3⟩) := by
  obtain ⟨bits, low, high, following⟩ := lead
  simp only [Lead.of?, Bool.and_eq_true, decide_eq_true_eq, beq_iff_eq, Lead.mk.injEq]
  split_ifs <;> simp only [Option.some.injEq, Lead.mk.injEq, false_iff] <;> omega

/-! ## Writing -/

theorem encodeChar_ne_nil (c : Char) : encodeChar c ≠ [] := by
  unfold encodeChar
  dsimp only
  split
  · exact List.cons_ne_nil _ _
  · split
    · exact List.cons_ne_nil _ _
    · split <;> exact List.cons_ne_nil _ _

section Writing

variable {a b c d : UInt8}

theorem toNat_ofNat_of_valid {n : Nat} (h : n < 0xD800 ∨ 0xDFFF < n ∧ n < 0x110000) :
    (Char.ofNat n).toNat = n := by
  rw [Char.ofNat, dif_pos h]
  rfl

theorem eq_ofNat {n : Nat} (h : a.toNat = n) : UInt8.ofNat n = a := by
  rw [← h, UInt8.ofNat_toNat]

theorem encodeChar_one (ha : a.toNat ≤ 0x7F) : encodeChar (Char.ofNat a.toNat) = [a] := by
  have hcode : (Char.ofNat a.toNat).toNat = a.toNat := toNat_ofNat_of_valid (by omega)
  simp only [encodeChar, hcode]
  rw [if_pos (by omega), eq_ofNat rfl]

theorem encodeChar_two (ha : 0xC2 ≤ a.toNat) (ha' : a.toNat ≤ 0xDF) (hb : 0x80 ≤ b.toNat)
    (hb' : b.toNat ≤ 0xBF) :
    encodeChar (Char.ofNat ((a.toNat - 0xC0) * 64 + (b.toNat - 0x80))) = [a, b] := by
  have hcode := toNat_ofNat_of_valid (n := (a.toNat - 0xC0) * 64 + (b.toNat - 0x80)) (by omega)
  simp only [encodeChar, hcode]
  rw [if_neg (by omega), if_pos (by omega), eq_ofNat (a := a) (by omega),
    eq_ofNat (a := b) (by omega)]

theorem encodeChar_three (ha : 0xE0 ≤ a.toNat) (ha' : a.toNat ≤ 0xEF)
    (hb : (if a.toNat = 0xE0 then 0xA0 else 0x80) ≤ b.toNat)
    (hb' : b.toNat ≤ if a.toNat = 0xED then 0x9F else 0xBF) (hc : 0x80 ≤ c.toNat)
    (hc' : c.toNat ≤ 0xBF) :
    encodeChar (Char.ofNat (((a.toNat - 0xE0) * 64 + (b.toNat - 0x80)) * 64 + (c.toNat - 0x80))) =
      [a, b, c] := by
  have hlow : 0x80 ≤ b.toNat ∧ (a.toNat = 0xE0 → 0xA0 ≤ b.toNat) := by split at hb <;> omega
  have hhigh : b.toNat ≤ 0xBF ∧ (a.toNat = 0xED → b.toNat ≤ 0x9F) := by split at hb' <;> omega
  have hcode := toNat_ofNat_of_valid
    (n := ((a.toNat - 0xE0) * 64 + (b.toNat - 0x80)) * 64 + (c.toNat - 0x80)) (by omega)
  simp only [encodeChar, hcode]
  rw [if_neg (by omega), if_neg (by omega), if_pos (by omega), eq_ofNat (a := a) (by omega),
    eq_ofNat (a := b) (by omega), eq_ofNat (a := c) (by omega)]

theorem encodeChar_four (ha : 0xF0 ≤ a.toNat) (ha' : a.toNat ≤ 0xF4)
    (hb : (if a.toNat = 0xF0 then 0x90 else 0x80) ≤ b.toNat)
    (hb' : b.toNat ≤ if a.toNat = 0xF4 then 0x8F else 0xBF) (hc : 0x80 ≤ c.toNat)
    (hc' : c.toNat ≤ 0xBF) (hd : 0x80 ≤ d.toNat) (hd' : d.toNat ≤ 0xBF) :
    encodeChar (Char.ofNat ((((a.toNat - 0xF0) * 64 + (b.toNat - 0x80)) * 64 +
      (c.toNat - 0x80)) * 64 + (d.toNat - 0x80))) = [a, b, c, d] := by
  have hlow : 0x80 ≤ b.toNat ∧ (a.toNat = 0xF0 → 0x90 ≤ b.toNat) := by split at hb <;> omega
  have hhigh : b.toNat ≤ 0xBF ∧ (a.toNat = 0xF4 → b.toNat ≤ 0x8F) := by split at hb' <;> omega
  have hcode := toNat_ofNat_of_valid (n := (((a.toNat - 0xF0) * 64 + (b.toNat - 0x80)) * 64 +
    (c.toNat - 0x80)) * 64 + (d.toNat - 0x80)) (by omega)
  simp only [encodeChar, hcode]
  rw [if_neg (by omega), if_neg (by omega), if_neg (by omega), eq_ofNat (a := a) (by omega),
    eq_ofNat (a := b) (by omega), eq_ofNat (a := c) (by omega), eq_ofNat (a := d) (by omega)]

end Writing

/-! ## Reading -/

section Reading

variable {b : UInt8} {bytes rest : List UInt8} {bits low high following : Nat}

theorem readFrom_ascii (h : b.toNat ≤ 0x7F) :
    readFrom .start (b :: rest) = some (Char.ofNat b.toNat) :: readFrom .start rest := by
  simp only [readFrom, step]
  rw [if_pos h]
  rfl

theorem readFrom_lead (h : ¬ b.toNat ≤ 0x7F)
    (hlead : Lead.of? b.toNat = some ⟨bits, low, high, following⟩) :
    readFrom .start (b :: rest) = readFrom (.inside bits low high following) rest := by
  simp only [readFrom, step, hlead]
  rw [if_neg h]
  rfl

theorem readFrom_last (h : low ≤ b.toNat) (h' : b.toNat ≤ high) (hlast : following ≤ 1) :
    readFrom (.inside bits low high following) (b :: rest) =
      some (Char.ofNat (bits * 64 + (b.toNat - 0x80))) :: readFrom .start rest := by
  simp only [readFrom, step]
  rw [if_pos (by simp [h, h']), if_pos hlast]
  rfl

theorem readFrom_more (h : low ≤ b.toNat) (h' : b.toNat ≤ high) (hmore : ¬ following ≤ 1) :
    readFrom (.inside bits low high following) (b :: rest) =
      readFrom (.inside (bits * 64 + (b.toNat - 0x80)) 0x80 0xBF (following - 1)) rest := by
  simp only [readFrom, step]
  rw [if_pos (by simp [h, h']), if_neg hmore]
  rfl

/-- Inside a character, what is well formed goes on with a byte of it. -/
theorem exists_byte_of_read (h : none ∉ readFrom (.inside bits low high following) bytes) :
    ∃ b rest, bytes = b :: rest ∧ low ≤ b.toNat ∧ b.toNat ≤ high := by
  cases bytes with
  | nil => exact absurd (List.mem_singleton_self _) h
  | cons b rest =>
    by_cases hin : low ≤ b.toNat ∧ b.toNat ≤ high
    · exact ⟨b, rest, rfl, hin⟩
    · -- Any other byte leaves a part behind that is not well formed.
      refine absurd ?_ h
      simp only [readFrom, step]
      rw [if_neg (by simpa using hin)]
      split
      · exact List.mem_cons_self
      · split <;> exact List.mem_cons_self

/-- Where all is well formed, the bytes of a character stand in front. -/
theorem exists_char_of_read (h : none ∉ readFrom .start (b :: rest)) :
    ∃ c more, b :: rest = encodeChar c ++ more := by
  by_cases hascii : b.toNat ≤ 0x7F
  · exact ⟨_, rest, by rw [encodeChar_one hascii]; rfl⟩
  cases hlead : Lead.of? b.toNat with
  | none =>
    refine absurd ?_ h
    simp only [readFrom, step, hlead]
    rw [if_neg hascii]
    exact List.mem_cons_self
  | some lead =>
    rcases Lead.of?_eq_some_iff.1 hlead with ⟨hb, hb', rfl⟩ | ⟨hb, hb', rfl⟩ | ⟨hb, hb', rfl⟩ <;>
      rw [readFrom_lead hascii hlead] at h <;>
      obtain ⟨b₁, rest, rfl, hlow₁, hhigh₁⟩ := exists_byte_of_read h
    · exact ⟨_, rest, by rw [encodeChar_two hb hb' hlow₁ hhigh₁]; rfl⟩
    · rw [readFrom_more hlow₁ hhigh₁ (by decide)] at h
      obtain ⟨b₂, rest, rfl, hlow₂, hhigh₂⟩ := exists_byte_of_read h
      exact ⟨_, rest, by rw [encodeChar_three hb hb' hlow₁ hhigh₁ hlow₂ hhigh₂]; rfl⟩
    · rw [readFrom_more hlow₁ hhigh₁ (by decide)] at h
      obtain ⟨b₂, rest, rfl, hlow₂, hhigh₂⟩ := exists_byte_of_read h
      rw [readFrom_more hlow₂ hhigh₂ (by decide)] at h
      obtain ⟨b₃, rest, rfl, hlow₃, hhigh₃⟩ := exists_byte_of_read h
      exact ⟨_, rest, by rw [encodeChar_four hb hb' hlow₁ hhigh₁ hlow₂ hhigh₂ hlow₃ hhigh₃]; rfl⟩

/-- The bytes of a character are read as that character. -/
theorem readFrom_encodeChar (c : Char) (rest : List UInt8) :
    readFrom .start (encodeChar c ++ rest) = some c :: readFrom .start rest := by
  have hvalid : c.toNat < 0xD800 ∨ 0xDFFF < c.toNat ∧ c.toNat < 0x110000 := c.valid
  have hbyte {m : Nat} (hm : m < 256) : (UInt8.ofNat m).toNat = m := by
    rw [UInt8.toNat_ofNat', Nat.mod_eq_of_lt hm]
  -- The code point that the bytes of the character add up to.
  have hchar {m : Nat} (hm : m = c.toNat) : Char.ofNat m = c := by rw [hm, Char.ofNat_toNat]
  simp only [encodeChar, Nat.div_one]
  generalize hn : c.toNat = n at *
  split_ifs with hone htwo hthree
  · rw [List.singleton_append, readFrom_ascii (by rw [hbyte (by omega)]; omega), hbyte (by omega),
      hchar rfl]
  · have hlead : Lead.of? (UInt8.ofNat (0xC0 + n / 64)).toNat = some ⟨n / 64, 0x80, 0xBF, 1⟩ := by
      rw [hbyte (by omega), Lead.of?_eq_some_iff]
      exact .inl ⟨by omega, by omega, by rw [Nat.add_sub_cancel_left]⟩
    have hb := hbyte (m := 0x80 + n % 64) (by omega)
    rw [List.cons_append, List.cons_append, List.nil_append,
      readFrom_lead (by rw [hbyte (by omega)]; omega) hlead,
      readFrom_last (by omega) (by omega) (Nat.le_refl 1), hb, hchar (by omega)]
  · have hlead : Lead.of? (UInt8.ofNat (0xE0 + n / 4096)).toNat = some ⟨n / 4096,
        if 0xE0 + n / 4096 = 0xE0 then 0xA0 else 0x80,
        if 0xE0 + n / 4096 = 0xED then 0x9F else 0xBF, 2⟩ := by
      rw [hbyte (by omega), Lead.of?_eq_some_iff]
      exact .inr (.inl ⟨by omega, by omega, by rw [Nat.add_sub_cancel_left]⟩)
    have hb := hbyte (m := 0x80 + n / 64 % 64) (by omega)
    have hc := hbyte (m := 0x80 + n % 64) (by omega)
    rw [List.cons_append, List.cons_append, List.cons_append, List.nil_append,
      readFrom_lead (by rw [hbyte (by omega)]; omega) hlead,
      readFrom_more (by split <;> omega) (by split <;> omega) (by decide),
      readFrom_last (by omega) (by omega) (Nat.le_refl 1), hb, hc, hchar (by omega)]
  · have hlead : Lead.of? (UInt8.ofNat (0xF0 + n / 262144)).toNat = some ⟨n / 262144,
        if 0xF0 + n / 262144 = 0xF0 then 0x90 else 0x80,
        if 0xF0 + n / 262144 = 0xF4 then 0x8F else 0xBF, 3⟩ := by
      rw [hbyte (by omega), Lead.of?_eq_some_iff]
      exact .inr (.inr ⟨by omega, by omega, by rw [Nat.add_sub_cancel_left]⟩)
    have hb := hbyte (m := 0x80 + n / 4096 % 64) (by omega)
    have hc := hbyte (m := 0x80 + n / 64 % 64) (by omega)
    have hd := hbyte (m := 0x80 + n % 64) (by omega)
    rw [List.cons_append, List.cons_append, List.cons_append, List.cons_append, List.nil_append,
      readFrom_lead (by rw [hbyte (by omega)]; omega) hlead,
      readFrom_more (by split <;> omega) (by split <;> omega) (by decide),
      readFrom_more (by omega) (by omega) (by decide),
      readFrom_last (by omega) (by omega) (Nat.le_refl 1), hb, hc, hd, hchar (by omega)]

end Reading

/-! ## Characters in a row -/

section Characters

variable {cs : List Char} {bytes : List UInt8}

theorem read_encode (cs : List Char) : read (encode cs) = cs.map some := by
  induction cs with
  | nil => rfl
  | cons c cs ih =>
    rw [encode, List.flatMap_cons, read, readFrom_encodeChar, List.map_cons]
    exact congrArg (some c :: ·) ih

/-- What is written is read again. -/
theorem decode?_encode (cs : List Char) : decode? (encode cs) = some cs := by
  rw [decode?, read_encode, List.mapM_map]
  exact List.mapM_pure.trans (congrArg some (List.map_id cs))

theorem encode_injective : Function.Injective encode := by
  intro cs ds h
  have hdecode := congrArg decode? h
  rwa [decode?_encode, decode?_encode, Option.some.injEq] at hdecode

/-- Bytes that are well formed are those of characters. -/
theorem exists_encode_of_read (h : none ∉ read bytes) : ∃ cs, encode cs = bytes := by
  -- Each character takes at least one byte, so the induction is on the number
  -- of bytes.
  induction hlength : bytes.length using Nat.strongRecOn generalizing bytes with
  | ind n ih =>
    cases bytes with
    | nil => exact ⟨[], rfl⟩
    | cons b rest =>
      obtain ⟨c, more, hmore⟩ := exists_char_of_read h
      rw [read, hmore, readFrom_encodeChar] at h
      have hshort : more.length < n := by
        have hpos := List.length_pos_iff.2 (encodeChar_ne_nil c)
        rw [← hlength, hmore, List.length_append]
        omega
      obtain ⟨cs, rfl⟩ := ih _ hshort (fun hmem => h (List.mem_cons_of_mem _ hmem)) rfl
      exact ⟨c :: cs, by rw [hmore, encode, encode, List.flatMap_cons]⟩

theorem eq_map_some_of_mapM {chars : List (Option Char)} (h : chars.mapM id = some cs) :
    chars = cs.map some := by
  induction chars generalizing cs with
  | nil =>
    obtain rfl : [] = cs := Option.some.inj h
    rfl
  | cons c chars ih =>
    rw [List.mapM_cons] at h
    obtain ⟨c', hc, ds, hds, rfl⟩ :
        ∃ c', c = some c' ∧ ∃ ds, chars.mapM id = some ds ∧ c' :: ds = cs := by
      simpa [Option.bind_eq_some_iff] using h
    rw [hc, ih hds, List.map_cons]

/-- Bytes are read as the characters whose bytes they are. -/
theorem decode?_eq_some_iff : decode? bytes = some cs ↔ encode cs = bytes := by
  constructor
  · intro h
    have hread : read bytes = cs.map some := eq_map_some_of_mapM h
    obtain ⟨ds, rfl⟩ := exists_encode_of_read (by simp [hread] : none ∉ read bytes)
    rw [decode?_encode] at h
    rw [Option.some.inj h]
  · rintro rfl
    exact decode?_encode cs

end Characters

end TemplateScopes.Text.Utf8
