import TemplateScopes.Text.Basic

/-!
# UTF-8

Characters as bytes.  A lead byte fixes how many bytes follow and in which
range the second one lies; all later ones lie in `0x80` to `0xBF`.

* `decode?` refuses bytes that are not well formed.
* `decodeLossy` puts U+FFFD for every maximal part of an ill-formed
  sequence and goes on right behind it.
* `encode` gives the bytes of characters.  A surrogate has none: `fault?`
  finds the first one of a text, and `withEscapes` writes all of them by
  their numbers.
-/

namespace TemplateScopes.Text.Utf8

/-- What a lead byte announces: its own bits, the range of the next byte
and the number of bytes that follow. -/
structure Lead where
  bits : Nat
  low : Nat
  high : Nat
  following : Nat

/-- What a lead byte above `0x7F` announces. -/
def Lead.of? (b : Nat) : Option Lead :=
  if 0xC2 ≤ b && b ≤ 0xDF then some ⟨b - 0xC0, 0x80, 0xBF, 1⟩
  else if b == 0xE0 then some ⟨0, 0xA0, 0xBF, 2⟩
  else if b == 0xED then some ⟨0x0D, 0x80, 0x9F, 2⟩
  else if 0xE1 ≤ b && b ≤ 0xEF then some ⟨b - 0xE0, 0x80, 0xBF, 2⟩
  else if b == 0xF0 then some ⟨0, 0x90, 0xBF, 3⟩
  else if 0xF1 ≤ b && b ≤ 0xF3 then some ⟨b - 0xF0, 0x80, 0xBF, 3⟩
  else if b == 0xF4 then some ⟨4, 0x80, 0x8F, 3⟩
  else none

/-- Where a reader stands between two bytes: at the start of a character,
or inside one with the bits so far, the range of the next byte and the
number of bytes still to come. -/
inductive State where
  | start
  | inside (bits low high following : Nat)

/-- The characters that one more byte completes, and the state after it.
A byte that does not continue the character starts afresh, and the part
before it becomes U+FFFD. -/
def step (state : State) (byte : UInt8) : List (Option Char) × State :=
  let b := byte.toNat
  let fresh (done : List (Option Char)) : List (Option Char) × State :=
    if b ≤ 0x7F then (done ++ [some (Char.ofNat b)], .start)
    else
      match Lead.of? b with
      | some lead => (done, .inside lead.bits lead.low lead.high lead.following)
      | none => (done ++ [none], .start)
  match state with
  | .start => fresh []
  | .inside bits low high following =>
    if low ≤ b && b ≤ high then
      let bits := bits * 64 + (b - 0x80)
      if following ≤ 1 then ([some (Char.ofNat bits)], .start)
      else ([], .inside bits 0x80 0xBF (following - 1))
    else fresh [none]

/-- The characters that the bytes hold from the given state on, `none`
for a part that is not well formed. -/
def readFrom (state : State) : List UInt8 → List (Option Char)
  | [] =>
    match state with
    | .start => []
    | .inside .. => [none]
  | byte :: rest =>
    let (done, next) := step state byte
    done ++ readFrom next rest

/-- The characters that the bytes hold, `none` for each maximal part that
is not well formed. -/
def read (bytes : List UInt8) : List (Option Char) :=
  readFrom .start bytes

/-- The characters of well-formed bytes. -/
def decode? (bytes : List UInt8) : Option (List Char) :=
  (read bytes).mapM id

/-- The text of any bytes, with U+FFFD for each part that is not well
formed. -/
def decodeLossy (bytes : List UInt8) : Text :=
  ofChars ((read bytes).map (·.getD '\uFFFD'))

/-- The bytes of one character. -/
def encodeChar (c : Char) : List UInt8 :=
  let n := c.toNat
  let tail (shift : Nat) : UInt8 := UInt8.ofNat (0x80 + n / shift % 64)
  if n < 0x80 then [UInt8.ofNat n]
  else if n < 0x800 then [UInt8.ofNat (0xC0 + n / 64), tail 1]
  else if n < 0x10000 then [UInt8.ofNat (0xE0 + n / 4096), tail 64, tail 1]
  else [UInt8.ofNat (0xF0 + n / 262144), tail 4096, tail 64, tail 1]

/-- The bytes of characters. -/
def encode (cs : List Char) : List UInt8 :=
  cs.flatMap encodeChar

/-! ## Texts without bytes -/

/-- Why a text has no bytes: the first of its surrogates with its offset, and
how many surrogates stand there in a row. -/
structure Fault where
  offset : Nat
  first : CodePoint
  count : Nat
deriving DecidableEq, Repr

/-- The words for a text without bytes. -/
def Fault.message (fault : Fault) : Text :=
  let place : Text :=
    if fault.count ≤ 1 then
      " '\\u" ++ hex 4 fault.first.toNat ++ "' in position " ++ ofNat fault.offset
    else
      "s in position " ++ ofNat fault.offset ++ "-" ++ ofNat (fault.offset + fault.count - 1)
  "'utf-8' codec can't encode character" ++ place ++ ": surrogates not allowed"

/-- The first surrogates of a text. -/
def fault? (t : Text) : Option Fault :=
  match t.dropWhile CodePoint.isChar with
  | [] => none
  | c :: rest =>
    some ⟨(t.takeWhile CodePoint.isChar).length, c, 1 + (rest.takeWhile (!·.isChar)).length⟩

/-- The text with an escape in place of each surrogate. -/
def withEscapes (t : Text) : Text :=
  t.flatMap fun c => if c.isChar then [c] else "\\u" ++ hex 4 c.toNat

theorem fault?_eq_none_iff {t : Text} : fault? t = none ↔ ∀ c ∈ t, c.isChar = true := by
  have hdrop : t.dropWhile CodePoint.isChar = [] ↔ ∀ c ∈ t, c.isChar = true := by
    induction t with
    | nil => simp
    | cons c t ih => cases h : c.isChar <;> simp [h, ih]
  unfold fault?
  rw [← hdrop]
  split
  · next h => exact ⟨fun _ => h, fun _ => rfl⟩
  · next h => simp [h]

end TemplateScopes.Text.Utf8
