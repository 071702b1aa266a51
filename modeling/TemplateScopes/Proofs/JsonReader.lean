import Mathlib.Data.List.TakeWhile
import TemplateScopes.Json.Reader

/-!
# How far JSON is read

A reader takes characters from the front of a text and leaves the end of it.

There are four groups.

* What readers say.  `Reads` is what holds of every reader, and `Reads.bind`
  keeps it from one reader to the next.
* Parts.  Strings, words and numbers.
* Values.  `reads_value` is the induction over the steps of the readers.  A
  whole number that is too long stands in the text with all of its digits
  (`exists_digits_of_read`), and for every level there is a bracket
  (`lt_openings_of_read`).
* Steps.  Since every value takes a character, the steps never run out
  (`readValue_eq_of_le`).
* Levels.  More levels change nothing but that less is too deep
  (`agrees_read`), and something always is (`read_replicate`).
-/

namespace TemplateScopes.Json

/-! ## What readers say -/

/-- Whether a text stands behind something at the end of another. -/
def Behind (rest t : Text) : Prop :=
  rest <:+ t ∧ rest.length < t.length

/-- Whether an array or an object starts with a character. -/
def isOpening (c : CodePoint) : Bool :=
  c = '[' || c = '{'

/-- How many brackets of a text may start an array or an object. -/
def openings (t : Text) : Nat :=
  t.countP isOpening

/-- What is left stands behind what was read.  A number that is too long
stands in the text, and so does a bracket for every level of what is too
deep. -/
def Reads {α : Type} (levels : Nat) (t : Text) : Except JsonFault (α × Text) → Prop
  | .ok (_, rest) => Behind rest t
  | .error .malformed => True
  | .error (.longNumber n) =>
    maxDigits < n ∧ ∃ digits, digits <:+: t ∧ (∀ c ∈ digits, isDigit c = true) ∧ digits.length = n
  | .error .tooDeep => levels < openings t

section Reads

variable {α β : Type} {levels : Nat} {t u rest : Text} {c : CodePoint}

theorem behind_cons (h : rest <:+ t) : Behind rest (c :: t) :=
  ⟨h.trans (List.suffix_cons c t), Nat.lt_succ_of_le h.length_le⟩

theorem Behind.trans_suffix (h : Behind rest u) (hu : u <:+ t) : Behind rest t :=
  ⟨h.1.trans hu, Nat.lt_of_lt_of_le h.2 hu.length_le⟩

theorem skipSpace_suffix (t : Text) : skipSpace t <:+ t :=
  List.dropWhile_suffix _

/-- What stands behind a character that is not skipped. -/
theorem behind_of_skipSpace (h : skipSpace t = c :: rest) : Behind rest t :=
  (behind_cons (c := c) List.suffix_rfl).trans_suffix (h ▸ skipSpace_suffix t)

theorem Reads.of_suffix {r : Except JsonFault (α × Text)} (h : Reads levels u r) (hu : u <:+ t) :
    Reads levels t r := by
  rcases r with (_ | n | _) | ⟨a, rest⟩
  · trivial
  · obtain ⟨hlong, digits, hdigits, hall, hlength⟩ := h
    exact ⟨hlong, digits, hdigits.trans hu.isInfix, hall, hlength⟩
  · exact Nat.lt_of_lt_of_le h (hu.sublist.countP_le)
  · exact Behind.trans_suffix h hu

/-- A reader may go on with what is left. -/
theorem Reads.bind {x : Except JsonFault (α × Text)} {f : α × Text → Except JsonFault (β × Text)}
    (h : Reads levels t x) (hf : ∀ a rest, Behind rest t → Reads levels t (f (a, rest))) :
    Reads levels t (x >>= f) := by
  rcases x with (_ | n | _) | ⟨a, rest⟩
  · trivial
  · exact h
  · exact h
  · exact hf a rest h

/-- A bracket goes one level down. -/
theorem reads_descend {read : Nat → Except JsonFault (α × Text)} (hopening : isOpening c = true)
    (h : ∀ levels, Reads levels rest (read levels)) :
    Reads levels (c :: rest) (descend levels read) := by
  have hcount : openings (c :: rest) = openings rest + 1 := List.countP_cons_of_pos hopening
  cases levels with
  | zero =>
    show 0 < openings (c :: rest)
    omega
  | succ levels =>
    have hrest := h levels
    show Reads (levels + 1) (c :: rest) (read levels)
    cases hread : read levels with
    | error fault =>
      rw [hread] at hrest
      cases fault with
      | malformed => trivial
      | longNumber n => exact Reads.of_suffix (α := α) hrest (List.suffix_cons c rest)
      | tooDeep =>
        have hdeep : levels < openings rest := hrest
        show levels + 1 < openings (c :: rest)
        omega
    | ok found =>
      rw [hread] at hrest
      exact hrest.of_suffix (List.suffix_cons c rest)

end Reads

/-! ## Parts -/

section Parts

variable {t rest : Text}

theorem readUnit?_suffix {n : Nat} (h : readUnit? t = some (n, rest)) : rest <:+ t := by
  unfold readUnit? at h
  split at h
  · rename_i a b c d behind
    simp only [Option.bind_eq_bind, Option.bind_eq_some_iff] at h
    obtain ⟨_, -, _, -, _, -, _, -, h⟩ := h
    obtain ⟨-, rfl⟩ := Prod.mk.inj (Option.some.inj h)
    exact List.suffix_append [a, b, c, d] _
  · cases h

theorem readCodePoint?_suffix {c : CodePoint} (h : readCodePoint? t = some (c, rest)) :
    rest <:+ t := by
  unfold readCodePoint? at h
  simp only [Option.bind_eq_bind, Option.bind_eq_some_iff] at h
  obtain ⟨⟨high, behind⟩, hhigh, h⟩ := h
  have hbehind := readUnit?_suffix hhigh
  dsimp only at h
  split at h
  · split at h
    · -- The second surrogate is read only if it fits.
      simp only [Option.bind_eq_some_iff] at h
      obtain ⟨⟨low, after⟩, hlow, h⟩ := h
      dsimp only at h
      split at h
      · obtain ⟨-, rfl⟩ := Prod.mk.inj (Option.some.inj h)
        exact ((readUnit?_suffix hlow).trans
          (List.suffix_append [CodePoint.char '\\', .char 'u'] _)).trans hbehind
      · obtain ⟨-, rfl⟩ := Prod.mk.inj (Option.some.inj h)
        exact hbehind
    · obtain ⟨-, rfl⟩ := Prod.mk.inj (Option.some.inj h)
      exact hbehind
  · obtain ⟨-, rfl⟩ := Prod.mk.inj (Option.some.inj h)
    exact hbehind

theorem behind_of_readString? {steps : Nat} {read : Text}
    (h : readString? steps t = some (read, rest)) : Behind rest t := by
  fun_induction readString? steps t generalizing read with
  | case1 | case2 | case4 | case5 => cases h
  | case3 steps t =>
    obtain ⟨-, rfl⟩ := Prod.mk.inj (Option.some.inj h)
    exact behind_cons List.suffix_rfl
  | case6 steps behind _ _ ih =>
    simp only [Option.bind_eq_bind, Option.bind_eq_some_iff] at h
    obtain ⟨⟨c, after⟩, hc, ⟨more, last⟩, hmore, h⟩ := h
    obtain ⟨-, rfl⟩ := Prod.mk.inj (Option.some.inj h)
    exact (ih _ hmore).trans_suffix
      ((readCodePoint?_suffix hc).trans (List.suffix_append [CodePoint.char '\\', .char 'u'] _))
  | case7 steps letter behind _ _ _ ih =>
    simp only [Option.bind_eq_bind, Option.bind_eq_some_iff] at h
    obtain ⟨c, -, ⟨more, last⟩, hmore, h⟩ := h
    obtain ⟨-, rfl⟩ := Prod.mk.inj (Option.some.inj h)
    exact (ih hmore).trans_suffix (List.suffix_append [CodePoint.char '\\', letter] _)
  | case8 steps c behind _ _ _ ih =>
    simp only [Option.bind_eq_bind, Option.bind_eq_some_iff] at h
    obtain ⟨⟨more, last⟩, hmore, h⟩ := h
    obtain ⟨-, rfl⟩ := Prod.mk.inj (Option.some.inj h)
    exact (ih hmore).trans_suffix (List.suffix_cons _ _)

theorem behind_of_readWord? {value : Json} (h : readWord? t = some (value, rest)) :
    Behind rest t := by
  obtain ⟨word, hmem, hword⟩ := List.exists_of_findSome?_eq_some h
  obtain ⟨after, hafter, heq⟩ := Option.map_eq_some_iff.1 hword
  obtain ⟨-, rfl⟩ := Prod.mk.inj heq
  have ht : t = word.1 ++ after := Text.after?_eq_some_iff.1 hafter
  have hpos : 0 < word.1.length := by
    simp only [List.mem_cons, List.not_mem_nil, or_false] at hmem
    rcases hmem with rfl | rfl | rfl | rfl | rfl | rfl <;> decide
  refine ⟨⟨word.1, ht.symm⟩, ?_⟩
  rw [ht, List.length_append]
  omega

theorem isPrefix_wholeDigits (t : Text) : wholeDigits t <+: t := by
  unfold wholeDigits
  split
  · exact List.prefix_append [CodePoint.char '0'] _
  · exact List.takeWhile_prefix _

theorem isDigit_of_mem_wholeDigits {c : CodePoint} (h : c ∈ wholeDigits t) : isDigit c = true := by
  unfold wholeDigits at h
  split at h
  · rw [List.mem_singleton.1 h]
    decide
  · exact List.mem_takeWhile_imp h

/-- A number starts behind its sign. -/
theorem unsigned_suffix {sign unsigned : Text}
    (h : (match t with
      | .char '-' :: rest => (([.char '-'], rest) : Text × Text)
      | _ => ([], t)) = (sign, unsigned)) : unsigned <:+ t := by
  split at h <;> obtain ⟨-, rfl⟩ := Prod.mk.inj h
  · exact List.suffix_cons _ _
  · exact List.suffix_rfl

theorem reads_number (levels : Nat) (t : Text) : Reads levels t (readNumber t) := by
  -- Places and a power may take no character, but the digits take one.
  have hrest {unsigned : Text} (k l : Nat) (hdigits : ¬ (wholeDigits unsigned).isEmpty = true)
      (h : unsigned <:+ t) :
      Behind (((unsigned.drop (wholeDigits unsigned).length).drop k).drop l) t := by
    have hpos : 0 < (wholeDigits unsigned).length :=
      List.length_pos_iff.2 fun hnil => hdigits (List.isEmpty_iff.2 hnil)
    have hle := (isPrefix_wholeDigits unsigned).length_le
    have hle' := h.length_le
    refine ⟨(((List.drop_suffix _ _).trans (List.drop_suffix _ _)).trans
      (List.drop_suffix _ _)).trans h, ?_⟩
    simp only [List.length_drop]
    omega
  fun_cases readNumber t with
  | case1 => trivial
  | case2 sign unsigned hsigned whole _ _ _ _ _ _ hlong =>
    exact ⟨hlong, whole, ((isPrefix_wholeDigits unsigned).isInfix).trans
      (unsigned_suffix hsigned).isInfix, fun c => isDigit_of_mem_wholeDigits, rfl⟩
  | case3 sign unsigned hsigned whole hdigits | case4 sign unsigned hsigned whole hdigits
  | case5 sign unsigned hsigned whole hdigits => exact hrest _ _ hdigits (unsigned_suffix hsigned)

end Parts

/-! ## Values -/

/-- The readers of values, by induction on their steps. -/
theorem reads_value (steps : Nat) :
    (∀ levels t, Reads levels t (readValue levels steps t)) ∧
      (∀ levels t, Reads levels t (readItems levels steps t)) ∧
        ∀ levels before t, Reads levels t (readMembers levels steps before t) := by
  induction steps with
  | zero => exact ⟨fun _ _ => trivial, fun _ _ => trivial, fun _ _ _ => trivial⟩
  | succ steps ih =>
    obtain ⟨hvalue, hitems, hmembers⟩ := ih
    refine ⟨fun levels t => ?_, fun levels t => ?_, fun levels before t => ?_⟩
    · unfold readValue
      split
      · split
        · rename_i hread
          exact (behind_of_readString? hread).trans_suffix (List.suffix_cons _ _)
        · trivial
      · rename_i rest
        refine reads_descend rfl fun levels => ?_
        split
        · rename_i hspace
          exact behind_of_skipSpace hspace
        · exact (Reads.bind (hitems _ _) fun _ _ => id).of_suffix (skipSpace_suffix rest)
      · rename_i rest
        refine reads_descend rfl fun levels => ?_
        split
        · rename_i hspace
          exact behind_of_skipSpace hspace
        · exact (Reads.bind (hmembers _ _ _) fun _ _ => id).of_suffix (skipSpace_suffix rest)
      · split
        · rename_i hword
          exact behind_of_readWord? hword
        · exact reads_number levels t
    · unfold readItems
      refine (hvalue levels t).bind fun item rest hrest => ?_
      dsimp only
      split
      · rename_i behind hspace
        exact (Reads.bind (hitems _ _) fun _ _ => id).of_suffix
          (((skipSpace_suffix behind).trans (behind_of_skipSpace hspace).1).trans hrest.1)
      · rename_i hspace
        exact (behind_of_skipSpace hspace).trans_suffix hrest.1
      · trivial
    · unfold readMembers
      split
      · rename_i rest
        split
        · trivial
        · rename_i key after hkey
          split
          · rename_i behind hspace
            have hbehind : skipSpace behind <:+ CodePoint.char '"' :: rest :=
              (((skipSpace_suffix behind).trans (behind_of_skipSpace hspace).1).trans
                (behind_of_readString? hkey).1).trans (List.suffix_cons _ _)
            refine ((hvalue _ _).bind fun value last hlast => ?_).of_suffix hbehind
            dsimp only
            split
            · rename_i hspace
              exact (hmembers _ _ _).of_suffix
                (((skipSpace_suffix _).trans (behind_of_skipSpace hspace).1).trans hlast.1)
            · rename_i hspace
              exact (behind_of_skipSpace hspace).trans_suffix hlast.1
            · trivial
          · trivial
      · trivial

theorem reads_read {levels : Nat} {t : Text} {fault : JsonFault}
    (h : read levels t = .error fault) :
    Reads (α := Json) levels t (.error fault) := by
  have hvalue := ((reads_value (2 * t.length + 2)).1 levels (skipSpace t)).of_suffix
    (skipSpace_suffix t)
  unfold read at h
  cases hread : readValue levels (2 * t.length + 2) (skipSpace t) with
  | error found =>
    rw [hread] at h hvalue
    obtain rfl := Except.error.inj h
    exact hvalue
  | ok found =>
    obtain ⟨value, rest⟩ := found
    rw [hread] at h
    change (if _ then _ else _) = _ at h
    split at h
    · cases h
    · obtain rfl := Except.error.inj h
      trivial

/-- A whole number that is not read has too many digits, which stand in the
text. -/
theorem exists_digits_of_read {levels : Nat} {t : Text} {n : Nat}
    (h : read levels t = .error (.longNumber n)) :
    maxDigits < n ∧ ∃ digits, digits <:+: t ∧ (∀ c ∈ digits, isDigit c = true) ∧
      digits.length = n :=
  reads_read h

/-- What is too deep has more brackets than there are levels. -/
theorem lt_openings_of_read {levels : Nat} {t : Text} (h : read levels t = .error .tooDeep) :
    levels < openings t :=
  reads_read h

/-! ## Steps -/

section Steps

variable {α β : Type} {levels : Nat} {t : Text} {steps : Nat}

/-- Two readers agree that agree on what is read first and on all that may be
left of it. -/
theorem Reads.bind_congr {x y : Except JsonFault (α × Text)}
    {f g : α × Text → Except JsonFault (β × Text)} (hx : Reads levels t x) (h : x = y)
    (hfg : ∀ a rest, Behind rest t → f (a, rest) = g (a, rest)) : x >>= f = y >>= g := by
  subst h
  rcases x with fault | ⟨a, rest⟩
  · rfl
  · exact hfg a rest hx

theorem descend_congr {read read' : Nat → Except JsonFault α}
    (h : ∀ levels, read levels = read' levels) : descend levels read = descend levels read' := by
  rw [funext h]

/-- One more step changes nothing where there are enough of them.  A list or an
object takes one step more than its first value. -/
theorem read_succ (steps : Nat) :
    (∀ levels t, 2 * t.length + 1 ≤ steps →
        readValue levels (steps + 1) t = readValue levels steps t) ∧
      (∀ levels t, 2 * t.length + 2 ≤ steps →
        readItems levels (steps + 1) t = readItems levels steps t) ∧
      ∀ levels before t, 2 * t.length + 2 ≤ steps →
        readMembers levels (steps + 1) before t = readMembers levels steps before t := by
  induction steps with
  | zero => exact ⟨fun _ _ h => by omega, fun _ _ h => by omega, fun _ _ _ h => by omega⟩
  | succ steps ih =>
    obtain ⟨hvalue, hitems, hmembers⟩ := ih
    refine ⟨fun levels t h => ?_, fun levels t h => ?_, fun levels before t h => ?_⟩
    · unfold readValue
      split
      · rfl
      · rename_i rest
        refine descend_congr fun levels => ?_
        split
        · rfl
        · have hle := (skipSpace_suffix rest).length_le
          rw [List.length_cons] at h
          rw [hitems _ _ (by omega)]
      · rename_i rest
        refine descend_congr fun levels => ?_
        split
        · rfl
        · have hle := (skipSpace_suffix rest).length_le
          rw [List.length_cons] at h
          rw [hmembers _ _ _ (by omega)]
      · rfl
    · unfold readItems
      refine Reads.bind_congr ((reads_value _).1 levels t) (hvalue levels t (by omega))
        fun item rest hrest => ?_
      dsimp only
      split
      · rename_i behind hspace
        have hle := (skipSpace_suffix behind).length_le
        have hlt := (behind_of_skipSpace hspace).2
        have hlt' := hrest.2
        rw [hitems _ _ (by omega)]
      · rfl
      · rfl
    · unfold readMembers
      split
      · rename_i rest
        dsimp only
        split
        · rfl
        · rename_i key after hkey
          split
          · rename_i behind hspace
            have hle := (skipSpace_suffix behind).length_le
            have hlt := (behind_of_skipSpace hspace).2
            have hlt' := (behind_of_readString? hkey).2
            rw [List.length_cons] at h
            refine Reads.bind_congr ((reads_value _).1 levels _) (hvalue _ _ (by omega))
              fun value last hlast => ?_
            dsimp only
            split
            · rename_i next hnext
              have hle := (skipSpace_suffix next).length_le
              have hlt := (behind_of_skipSpace hnext).2
              have hlt' := hlast.2
              rw [hmembers _ _ _ (by omega)]
            · rfl
            · rfl
          · rfl
      · rfl

/-- No text is refused because the steps run out. -/
theorem readValue_eq_of_le (h : 2 * t.length + 1 ≤ steps) :
    readValue levels steps t = readValue levels (2 * t.length + 1) t := by
  induction steps, h using Nat.le_induction with
  | base => rfl
  | succ steps h ih => rw [(read_succ steps).1 levels t h, ih]

end Steps

/-! ## Levels -/

/-- Whether a second reader gives what the first one gives, if that is not too
deep. -/
def Agrees {α : Type} (r r' : Except JsonFault α) : Prop :=
  r = .error .tooDeep ∨ r' = r

section Levels

variable {α β : Type} {levels more : Nat}

theorem Agrees.bind {x y : Except JsonFault α} {f g : α → Except JsonFault β} (h : Agrees x y)
    (hfg : ∀ a, Agrees (f a) (g a)) : Agrees (x >>= f) (y >>= g) := by
  rcases h with rfl | rfl
  · exact .inl rfl
  · cases y with
    | error fault => exact .inr rfl
    | ok a => exact hfg a

theorem agrees_descend {read read' : Nat → Except JsonFault α} (hle : levels ≤ more)
    (h : ∀ levels more, levels ≤ more → Agrees (read levels) (read' more)) :
    Agrees (descend levels read) (descend more read') := by
  cases levels with
  | zero => exact .inl rfl
  | succ levels =>
    obtain ⟨more, rfl⟩ := Nat.exists_eq_add_one_of_ne_zero (Nat.ne_of_gt (Nat.lt_of_lt_of_le
      (Nat.succ_pos levels) hle))
    exact h levels more (Nat.le_of_succ_le_succ hle)

/-- The readers of values, by induction on their steps. -/
theorem agrees_value (steps : Nat) :
    (∀ levels more t, levels ≤ more →
        Agrees (readValue levels steps t) (readValue more steps t)) ∧
      (∀ levels more t, levels ≤ more →
        Agrees (readItems levels steps t) (readItems more steps t)) ∧
      ∀ levels more before t, levels ≤ more →
        Agrees (readMembers levels steps before t) (readMembers more steps before t) := by
  induction steps with
  | zero => exact ⟨fun _ _ _ _ => .inr rfl, fun _ _ _ _ => .inr rfl, fun _ _ _ _ _ => .inr rfl⟩
  | succ steps ih =>
    obtain ⟨hvalue, hitems, hmembers⟩ := ih
    refine ⟨fun levels more t hle => ?_, fun levels more t hle => ?_,
      fun levels more before t hle => ?_⟩
    · unfold readValue
      split
      · exact .inr rfl
      · refine agrees_descend hle fun levels more hle => ?_
        split
        · exact .inr rfl
        · exact (hitems levels more _ hle).bind fun _ => .inr rfl
      · refine agrees_descend hle fun levels more hle => ?_
        split
        · exact .inr rfl
        · exact (hmembers levels more _ _ hle).bind fun _ => .inr rfl
      · exact .inr rfl
    · unfold readItems
      refine (hvalue levels more t hle).bind fun found => ?_
      dsimp only
      split
      · exact (hitems levels more _ hle).bind fun _ => .inr rfl
      · exact .inr rfl
      · exact .inr rfl
    · unfold readMembers
      split
      · split
        · exact .inr rfl
        · split
          · refine (hvalue levels more _ hle).bind fun found => ?_
            dsimp only
            split
            · exact hmembers levels more _ _ hle
            · exact .inr rfl
            · exact .inr rfl
          · exact .inr rfl
      · exact .inr rfl

/-- How many levels there are decides nothing but what is too deep. -/
theorem agrees_read (t : Text) (hle : levels ≤ more) : Agrees (read levels t) (read more t) :=
  ((agrees_value _).1 levels more _ hle).bind fun _ => .inr rfl

theorem readValue_replicate {n steps : Nat} (h : levels < n) (hsteps : 2 * n ≤ steps) :
    readValue levels steps (List.replicate n (.char '[')) = .error .tooDeep := by
  induction levels generalizing n steps with
  | zero =>
    match n, steps with
    | n + 1, steps + 1 => rfl
  | succ levels ih =>
    -- A list takes two steps, one for itself and one for its items.
    match n, steps with
    | n + 2, steps + 2 =>
      have hrest : readValue levels steps (List.replicate (n + 1) (.char '[')) =
          .error .tooDeep := ih (by omega) (by omega)
      show (readItems levels (steps + 1) (List.replicate (n + 1) (.char '['))).bind _ = _
      rw [readItems, hrest]
      rfl

/-- More brackets than there are levels are too deep, whatever stands behind. -/
theorem read_replicate {n : Nat} (h : levels < n) :
    read levels (List.replicate n (.char '[')) = .error .tooDeep := by
  obtain ⟨n, rfl⟩ := Nat.exists_eq_add_one_of_ne_zero (Nat.ne_of_gt (Nat.zero_lt_of_lt h))
  have hspace : skipSpace (List.replicate (n + 1) (.char '[')) =
      List.replicate (n + 1) (.char '[') := rfl
  rw [read, hspace, List.length_replicate, readValue_replicate h (by omega)]
  rfl

end Levels

end TemplateScopes.Json
