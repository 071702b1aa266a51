import TemplateScopes.Text.CodePoint

/-!
# Text

A text is the list of its code points, surrogates included.  Offsets,
lengths and widths all count code points, and every cut clamps to the ends
of the text.  `Text.Utf8` says which texts have bytes.

There are four groups.

* Literals.  A string literal stands for its code points.
* Cuts.  `after?` removes a known beginning, `slice` keeps a range, and
  `occursIn` asks for a text inside another one.
* Layout.  `padRight`, `spaces` and `join` build lines of output, and
  `ofNat`, `ofInt` and `hex` write numbers.
* Order.  Texts are ordered by their code points, and `sortDistinct` is the
  sorted list of the distinct entries.

The small laws beside the definitions say what they mean for lists:
`after?_eq_some_iff`, `occursIn_iff`, `join_cons_cons`, `mem_sortDistinct` and
`nodup_eraseDups`.
-/

namespace TemplateScopes

/-- A sequence of Unicode code points. -/
abbrev Text := List CodePoint

namespace Text

/-! ## Literals -/

/-- The text of characters. -/
def ofChars (cs : List Char) : Text :=
  cs.map CodePoint.char

instance : Coe String Text := ⟨fun s => ofChars s.toList⟩

@[simp]
theorem ofChars_nil : ofChars [] = [] := rfl

@[simp]
theorem ofChars_cons (c : Char) (cs : List Char) : ofChars (c :: cs) = .char c :: ofChars cs := rfl

@[simp]
theorem ofChars_append (cs ds : List Char) : ofChars (cs ++ ds) = ofChars cs ++ ofChars ds :=
  List.map_append ..

@[simp]
theorem length_ofChars (cs : List Char) : (ofChars cs).length = cs.length :=
  List.length_map ..

theorem ofChars_inj {cs ds : List Char} : ofChars cs = ofChars ds ↔ cs = ds :=
  List.map_inj_right fun _ _ h => CodePoint.char.inj h

theorem mem_ofChars {c : CodePoint} {cs : List Char} : c ∈ ofChars cs ↔ ∃ d ∈ cs, c = d := by
  simp [ofChars, eq_comm]

/-! ## Cuts -/

/-- What is left of a text after the given beginning. -/
def after? : Text → Text → Option Text
  | [], t => some t
  | _ :: _, [] => none
  | p :: ps, c :: t => if p = c then after? ps t else none

/-- Whether the text goes on with the given beginning. -/
def startsWith (beginning t : Text) : Bool :=
  (after? beginning t).isSome

/-- A text starts with what was removed and goes on with what is left. -/
theorem after?_eq_some_iff {p t rest : Text} : after? p t = some rest ↔ t = p ++ rest := by
  induction p generalizing t with
  | nil => simp [after?, eq_comm]
  | cons c p ih =>
    cases t with
    | nil => simp [after?]
    | cons d t =>
      by_cases h : c = d
      · simp [after?, h, ih]
      · simp [after?, h, Ne.symm h]

theorem startsWith_iff {p t : Text} : startsWith p t = true ↔ p <+: t := by
  simp only [startsWith, Option.isSome_iff_exists, after?_eq_some_iff]
  exact ⟨fun ⟨rest, h⟩ => ⟨rest, h.symm⟩, fun ⟨rest, h⟩ => ⟨rest, h.symm⟩⟩

/-- The part from offset `start` up to offset `stop`. -/
def slice (t : Text) (start stop : Nat) : Text :=
  (t.drop start).take (stop - start)

/-- Whether `pattern` stands anywhere inside the text. -/
def occursIn (pattern : Text) : Text → Bool
  | [] => pattern.isEmpty
  | c :: t => startsWith pattern (c :: t) || occursIn pattern t

theorem occursIn_iff {p t : Text} : occursIn p t = true ↔ p <:+: t := by
  induction t with
  | nil => simp [occursIn]
  | cons c t ih => simp [occursIn, startsWith_iff, ih, List.infix_cons_iff]

/-! ## Layout -/

/-- As many spaces. -/
def spaces (n : Nat) : Text :=
  List.replicate n ' '

/-- The text, filled up with spaces on the right to the given width. -/
def padRight (width : Nat) (t : Text) : Text :=
  t ++ spaces (width - t.length)

theorem length_padRight (width : Nat) (t : Text) :
    (padRight width t).length = max width t.length := by
  simp only [padRight, spaces, List.length_append, List.length_replicate]
  omega

/-- The parts, one after the other, with `separator` between them. -/
def join (separator : Text) (parts : List Text) : Text :=
  List.intercalate separator parts

theorem join_singleton (separator part : Text) : join separator [part] = part :=
  List.intercalate_singleton ..

theorem join_cons_cons (separator part next : Text) (rest : List Text) :
    join separator (part :: next :: rest) = part ++ separator ++ join separator (next :: rest) :=
  List.intercalate_cons_cons ..

/-- What comes in front of the first part comes in front of all. -/
theorem join_cons_append (separator : Text) (c : CodePoint) (part : Text) (rest : List Text) :
    join separator ((c :: part) :: rest) = c :: join separator (part :: rest) := by
  cases rest with
  | nil => rw [join_singleton, join_singleton]
  | cons next rest => rw [join_cons_cons, join_cons_cons, List.cons_append, List.cons_append]

/-- The decimal digits of a number. -/
def ofNat (n : Nat) : Text :=
  ofChars (Nat.toDigits 10 n)

/-- The decimal digits of a number, after a minus sign if it is
negative. -/
def ofInt (n : Int) : Text :=
  if n < 0 then '-' :: ofNat n.natAbs else ofNat n.natAbs

/-- The hexadecimal digits of a number, filled up with zeros on the left
to the given width. -/
def hex (width n : Nat) : Text :=
  let digits := ofChars (Nat.toDigits 16 n)
  (List.replicate (width - digits.length) '0' : Text) ++ digits

/-! ## Order -/

/-- Puts a text into a sorted list, unless it is there already. -/
def insertDistinct (t : Text) : List Text → List Text
  | [] => [t]
  | s :: rest =>
    if t = s then s :: rest
    else if t ≤ s then t :: s :: rest
    else s :: insertDistinct t rest

theorem mem_insertDistinct {x t : Text} {ts : List Text} :
    x ∈ insertDistinct t ts ↔ x = t ∨ x ∈ ts := by
  induction ts with
  | nil => simp [insertDistinct]
  | cons s ts ih =>
    unfold insertDistinct
    split
    · next h => subst h; simp
    · split
      · simp
      · simp [ih, or_left_comm]

/-- The distinct entries in code point order. -/
def sortDistinct (ts : List Text) : List Text :=
  ts.foldr insertDistinct []

theorem mem_sortDistinct {x : Text} {ts : List Text} : x ∈ sortDistinct ts ↔ x ∈ ts := by
  induction ts with
  | nil => simp [sortDistinct]
  | cons t ts ih =>
    have step : sortDistinct (t :: ts) = insertDistinct t (sortDistinct ts) := rfl
    rw [step, mem_insertDistinct, ih, List.mem_cons]

/-- Nothing is there twice when repetitions are dropped. -/
theorem nodup_eraseDups (ts : List Text) : ts.eraseDups.Nodup := by
  match ts with
  | [] => exact List.nodup_nil
  | t :: ts =>
    rw [List.eraseDups_cons, List.nodup_cons, List.mem_eraseDups]
    exact ⟨by simp, nodup_eraseDups _⟩
termination_by ts.length
decreasing_by exact Nat.lt_succ_of_le (List.length_filter_le ..)

end Text

end TemplateScopes
