import TemplateScopes.Proofs.Conditions
import TemplateScopes.Proofs.Spelling

/-!
# Conditions and their closers

A condition takes everything up to the nearest closer of its line, other tags
included.  Conditions that overlap have the same closer, and only the first of
them is found.

There are four groups.

* Conditions in a text.  `Condition.Begins` says that a condition begins a
  text, `ClosedAt` where it ends, and `WellFormedAt` that no marker stands
  between its path and its closer.
* The nearest closer.  What begins a condition has no part in a closer
  (`Begins.exists_front`), so that a match ends with the nearest closer of the
  text (`here?_eq_some_iff_begins`).
* Matches.  Those that overlap end together (`endTogether_here?`), and the
  search finds the first one of each end (`mem_findAll_iff_firstClosedAt`).
* The names.  `conditionNames_lists` says which conditions are listed.  A
  well-formed one can be missed (`conditionNames_swallowed`).
-/

namespace TemplateScopes

namespace Condition

/-! ## Conditions in a text -/

/-- Whether a text begins with a path that is as long as it can be, and goes
on with `behind`. -/
structure BeginsPath (t label behind : Text) : Prop where
  spelled : t = label ++ behind
  ne_nil : label ≠ []
  isPath : ∀ c ∈ label, isPathChar c = true
  longest : ∀ c, behind.head? = some c → isPathChar c = false

/-- Whether a text begins with a path, which a sigil may mark, and goes on
with `behind`. -/
def Names (t label behind : Text) : Prop :=
  BeginsPath t label behind ∨ ∃ u, t = .char '$' :: u ∧ BeginsPath u label behind

/-- Whether a text begins with the keywords of a condition and its path, and
goes on with `behind`.  The word `not` is a keyword if a path follows it, and
the path itself if none does. -/
inductive Begins : Text → Text → Text → Prop
  | negated {rest label behind : Text} (h : Names rest label behind) :
      Begins (("<% if not " : Text) ++ rest) label behind
  | plain {rest label behind : Text} (h : Names rest label behind)
      (hplain : ∀ rest' other behind', rest = ("not " : Text) ++ rest' →
        ¬ Names rest' other behind') :
      Begins (("<% if " : Text) ++ rest) label behind

/-- Whether a condition begins at an offset and is closed on the same line,
and `stop` is the offset behind its closer. -/
def ClosedAt (t : Text) (offset : Nat) (label : Text) (stop : Nat) : Prop :=
  ∃ tail rest, Begins (t.drop offset) label (tail ++ Markup.closer ++ rest) ∧
    .char '\n' ∉ tail ∧ ¬ Markup.closer <:+: tail ∧ stop + rest.length = t.length

/-- Whether a condition begins at an offset and is closed on the same line,
without a marker between its path and its closer. -/
def WellFormedAt (t : Text) (offset : Nat) (label : Text) : Prop :=
  ∃ tail rest, Begins (t.drop offset) label (tail ++ Markup.closer ++ rest) ∧
    Markup.IsExpr tail

/-- Whether a closed condition begins at an offset, and none that begins
before it has the same closer. -/
def FirstClosedAt (t : Text) (offset : Nat) (label : Text) : Prop :=
  ∃ stop, ClosedAt t offset label stop ∧
    ∀ earlier other, earlier < offset → ¬ ClosedAt t earlier other stop

/-! ## The nearest closer -/

/-- What stands in front of the nearest closer of the first line. -/
def upToCloser? (t : Text) : Option Text :=
  Text.upTo? Markup.closer (Text.startsWith "\n") t

section Closer

variable {t e label behind : Text} {c : CodePoint}

/-- A closer behind a text that holds none does not begin inside it. -/
theorem closer_not_inside (h : ¬ Markup.closer <:+: e) {k : Nat} (hk : k < e.length)
    (rest : Text) : ¬ Markup.closer <+: (e ++ Markup.closer ++ rest).drop k := by
  rw [List.append_assoc, List.drop_append_of_le_length (by omega)]
  have hpart : ¬ Markup.closer <+: e.drop k := fun hfront =>
    h (hfront.isInfix.trans (List.drop_suffix k e).isInfix)
  have hlength : 0 < (e.drop k).length := by
    rw [List.length_drop]
    omega
  rw [Markup.closer_eq] at hpart ⊢
  generalize e.drop k = s at hpart hlength
  -- A closer that begins in the last two characters would need them twice.
  match s with
  | [] => cases hlength
  | [a] => simp [List.cons_prefix_cons]
  | [a, b] => simp [List.cons_prefix_cons]
  | a :: b :: d :: s => simpa [List.cons_prefix_cons] using hpart

theorem upToCloser?_eq_some_iff :
    upToCloser? t = some e ↔
      (∃ rest, t = e ++ Markup.closer ++ rest) ∧ .char '\n' ∉ e ∧ ¬ Markup.closer <:+: e := by
  rw [upToCloser?, Text.upTo?_eq_some_iff (by decide)]
  refine and_congr_right ?_
  rintro ⟨rest, rfl⟩
  have hdrop : ∀ k, k < e.length → (e ++ Markup.closer ++ rest).drop k =
      e.drop k ++ (Markup.closer ++ rest) := by
    intro k hk
    rw [List.append_assoc, List.drop_append_of_le_length (by omega)]
  constructor
  · intro h
    constructor
    · intro hline
      obtain ⟨k, hk, hget⟩ := List.getElem_of_mem hline
      have hfree := (h k hk).2
      rw [hdrop k hk, List.drop_eq_getElem_cons hk, hget] at hfree
      cases hfree
    · rintro ⟨before, after, rfl⟩
      have hpos : 0 < Markup.closer.length := by decide
      have hlt : before.length < (before ++ Markup.closer ++ after).length := by
        simp only [List.length_append]
        omega
      refine (h before.length hlt).1 ?_
      rw [hdrop _ hlt, List.append_assoc before, List.drop_left, List.append_assoc]
      exact List.prefix_append _ _
  · rintro ⟨hline, hcloser⟩ k hk
    refine ⟨closer_not_inside hcloser hk rest, ?_⟩
    rw [hdrop k hk, List.drop_eq_getElem_cons hk, ← Bool.not_eq_true, Text.startsWith_iff]
    intro hbreak
    have hget : .char '\n' = e[k] := (List.cons_prefix_cons.1 hbreak).1
    exact hline (hget ▸ List.getElem_mem hk)

/-- The nearest closer is the same for the end of a text from any place in
front of the closer. -/
theorem upToCloser?_drop (h : upToCloser? t = some e) {k : Nat} (hk : k ≤ e.length) :
    upToCloser? (t.drop k) = some (e.drop k) := by
  obtain ⟨⟨rest, rfl⟩, hline, hcloser⟩ := upToCloser?_eq_some_iff.1 h
  refine upToCloser?_eq_some_iff.2 ⟨⟨rest, ?_⟩, ?_, ?_⟩
  · rw [List.append_assoc, List.drop_append_of_le_length hk, ← List.append_assoc]
  · exact fun hmem => hline (List.mem_of_mem_drop hmem)
  · exact fun hinside => hcloser (hinside.trans (List.drop_suffix k e).isInfix)

/-- No closer begins in a text without blanks. -/
theorem upToCloser?_append {word : Text} (h : ∀ c ∈ word, c ≠ .char ' ' ∧ c ≠ .char '\n') :
    upToCloser? (word ++ t) = (upToCloser? t).map (word ++ ·) := by
  induction word with
  | nil => simp
  | cons c word ih =>
    obtain ⟨⟨hblank, hline⟩, hword⟩ := List.forall_mem_cons.1 h
    have hcloser : Text.startsWith Markup.closer (c :: (word ++ t)) = false := by
      rw [← Bool.not_eq_true, Text.startsWith_iff, Markup.closer_eq, List.cons_prefix_cons]
      exact fun h => hblank h.1.symm
    have hbreak : Text.startsWith "\n" (c :: (word ++ t)) = false := by
      rw [← Bool.not_eq_true, Text.startsWith_iff]
      exact fun h => hline (List.cons_prefix_cons.1 h).1.symm
    have hstep : upToCloser? (c :: (word ++ t)) = (upToCloser? (word ++ t)).map (c :: ·) := by
      rw [upToCloser?, Text.upTo?, hcloser, hbreak]
      rfl
    rw [List.cons_append, hstep, ih hword, Option.map_map]
    rfl

/-- No closer begins with a blank that is not in front of a marker. -/
theorem upToCloser?_blank (h : t.head? ≠ some '%') :
    upToCloser? (.char ' ' :: t) = (upToCloser? t).map (.char ' ' :: ·) := by
  have hcloser : Text.startsWith Markup.closer (.char ' ' :: t) = false := by
    rw [← Bool.not_eq_true, Text.startsWith_iff, Markup.closer_eq, List.cons_prefix_cons]
    rintro ⟨-, rest, rfl⟩
    exact h rfl
  have hbreak : Text.startsWith "\n" (.char ' ' :: t) = false := rfl
  rw [upToCloser?, Text.upTo?, hcloser, hbreak]
  rfl

theorem BeginsPath.not_mem (h : BeginsPath t label behind) (hc : isPathChar c = false) :
    c ∉ label := by
  intro hmem
  rw [h.isPath c hmem] at hc
  cases hc

theorem BeginsPath.head?_ne (h : BeginsPath t label behind) (hc : isPathChar c = false) :
    t.head? ≠ some c := by
  obtain ⟨d, more, hlabel⟩ := List.exists_cons_of_ne_nil h.ne_nil
  rw [h.spelled, hlabel]
  intro hhead
  obtain rfl : d = c := Option.some.inj hhead
  exact h.not_mem hc (hlabel ▸ List.mem_cons_self)

theorem BeginsPath.takeWhile_eq (h : BeginsPath t label behind) :
    t.takeWhile isPathChar = label := by
  have hstop : behind.takeWhile isPathChar = [] := by
    cases behind with
    | nil => rfl
    | cons c behind => exact List.takeWhile_cons_of_neg (by simp [h.longest c rfl])
  rw [h.spelled, List.takeWhile_append_of_pos h.isPath, hstop, List.append_nil]

/-- No closer begins in a path. -/
theorem BeginsPath.upToCloser?_eq (h : BeginsPath t label behind) :
    upToCloser? t = (upToCloser? behind).map (label ++ ·) := by
  rw [h.spelled]
  refine upToCloser?_append fun c hc => ⟨?_, ?_⟩
  · rintro rfl
    exact h.not_mem rfl hc
  · rintro rfl
    exact h.not_mem rfl hc

theorem upToCloser?_sigil :
    upToCloser? (.char '$' :: t) = (upToCloser? t).map (.char '$' :: ·) := by
  have hsigil : ∀ c ∈ ("$" : Text), c ≠ ' ' ∧ c ≠ '\n' := by simp
  exact upToCloser?_append hsigil

/-- No closer and no marker begins in a path with its sigil. -/
theorem Names.exists_front (h : Names t label behind) :
    ∃ front, t = front ++ behind ∧ .char '<' ∉ front ∧ t.head? ≠ some '%' ∧
      upToCloser? t = (upToCloser? behind).map (front ++ ·) := by
  rcases h with h | ⟨u, rfl, h⟩
  · exact ⟨label, h.spelled, h.not_mem rfl, h.head?_ne rfl, h.upToCloser?_eq⟩
  · refine ⟨.char '$' :: label, congrArg _ h.spelled, ?_, by simp, ?_⟩
    · rw [List.mem_cons, not_or]
      exact ⟨by decide, h.not_mem rfl⟩
    · rw [upToCloser?_sigil, h.upToCloser?_eq, Option.map_map]
      rfl

/-- No closer begins in the keywords of a condition. -/
theorem upToCloser?_keywords {keywords : Text}
    (hkeywords : keywords = ("<% if not " : Text) ∨ keywords = ("<% if " : Text))
    (h : t.head? ≠ some '%') :
    upToCloser? (keywords ++ t) = (upToCloser? t).map (keywords ++ ·) := by
  have hword : ∀ (word u : Text), (word.all fun c => c ≠ .char ' ' ∧ c ≠ .char '\n') = true →
      upToCloser? (word ++ u) = (upToCloser? u).map (word ++ ·) := by
    intro word u hall
    exact upToCloser?_append (by simpa using hall)
  rcases hkeywords with rfl | rfl
  · show upToCloser? (("<%" : Text) ++ .char ' ' :: (("if" : Text) ++ .char ' ' ::
      (("not" : Text) ++ .char ' ' :: t))) = _
    rw [hword _ _ rfl, upToCloser?_blank (by simp), hword _ _ rfl, upToCloser?_blank (by simp),
      hword _ _ rfl, upToCloser?_blank h]
    simp only [Option.map_map]
    rfl
  · show upToCloser? (("<%" : Text) ++ .char ' ' :: (("if" : Text) ++ .char ' ' :: t)) = _
    rw [hword _ _ rfl, upToCloser?_blank (by simp), hword _ _ rfl, upToCloser?_blank h]
    simp only [Option.map_map]
    rfl

/-- What begins a condition has one marker, at its beginning, and no part in a
closer. -/
theorem Begins.exists_front (h : Begins t label behind) :
    ∃ front, t = ("<%" : Text) ++ front ++ behind ∧ .char '<' ∉ front ∧
      upToCloser? t = (upToCloser? behind).map ((("<%" : Text) ++ front) ++ ·) := by
  cases h with
  | negated h =>
    obtain ⟨front, rfl, hmarker, hhead, hcloser⟩ := h.exists_front
    refine ⟨(" if not " : Text) ++ front, rfl, ?_, ?_⟩
    · rw [List.mem_append, not_or]
      exact ⟨by decide, hmarker⟩
    · rw [upToCloser?_keywords (.inl rfl) hhead, hcloser, Option.map_map]
      rfl
  | plain h hplain =>
    obtain ⟨front, rfl, hmarker, hhead, hcloser⟩ := h.exists_front
    refine ⟨(" if " : Text) ++ front, rfl, ?_, ?_⟩
    · rw [List.mem_append, not_or]
      exact ⟨by decide, hmarker⟩
    · rw [upToCloser?_keywords (.inr rfl) hhead, hcloser, Option.map_map]
      rfl

end Closer

/-! ## Matches -/

section Matches

variable {t label : Text} {n : Nat}

/-- A match from the path on is a path with a closer behind it. -/
theorem path?_eq_some_iff_begins :
    path? t = some (label, n) ↔
      (∃ behind, BeginsPath t label behind) ∧
        ∃ e, upToCloser? t = some e ∧ n = e.length + Markup.closer.length := by
  rw [path?_eq_some_iff]
  constructor
  · rintro ⟨hlabel, hne, tail, htail, rfl⟩
    have hpath : BeginsPath t label (t.drop label.length) := by
      subst hlabel
      have hsplit : t = t.takeWhile isPathChar ++ t.drop (t.takeWhile isPathChar).length :=
        (List.prefix_append_drop (List.takeWhile_prefix _))
      refine ⟨hsplit, hne, fun c hc => List.all_eq_true.1 List.all_takeWhile c hc, ?_⟩
      intro c hc
      have hstop := congrArg (List.takeWhile isPathChar) hsplit
      rw [List.takeWhile_append_of_pos (List.all_eq_true.1 List.all_takeWhile),
        List.self_eq_append_right] at hstop
      obtain ⟨more, hmore⟩ := List.head?_eq_some_iff.1 hc
      rw [hmore] at hstop
      by_contra hpath
      rw [List.takeWhile_cons_of_pos (by simpa using hpath)] at hstop
      cases hstop
    refine ⟨⟨_, hpath⟩, label ++ tail, ?_, ?_⟩
    · rw [hpath.upToCloser?_eq, upToCloser?, htail]
      rfl
    · rw [List.length_append]
  · rintro ⟨⟨behind, hpath⟩, e, he, rfl⟩
    rw [hpath.upToCloser?_eq, Option.map_eq_some_iff] at he
    obtain ⟨tail, htail, rfl⟩ := he
    refine ⟨hpath.takeWhile_eq, hpath.ne_nil, tail, ?_, ?_⟩
    · rw [hpath.spelled, List.drop_left]
      exact htail
    · rw [List.length_append]

theorem body?_eq_some_iff_names :
    body? t = some (label, n) ↔
      (∃ behind, Names t label behind) ∧
        ∃ e, upToCloser? t = some e ∧ n = e.length + Markup.closer.length := by
  rw [body?_eq_some_iff, path?_eq_some_iff_begins]
  constructor
  · rintro (⟨u, m, rfl, hfound, rfl⟩ | ⟨-, ⟨behind, hpath⟩, he⟩)
    · obtain ⟨⟨behind, hpath⟩, e, he, rfl⟩ := path?_eq_some_iff_begins.1 hfound
      refine ⟨⟨behind, .inr ⟨u, rfl, hpath⟩⟩, .char '$' :: e, ?_, ?_⟩
      · rw [upToCloser?_sigil, he]
        rfl
      · rw [List.length_cons]
        omega
    · exact ⟨⟨behind, .inl hpath⟩, he⟩
  · rintro ⟨⟨behind, hpath | ⟨u, rfl, hpath⟩⟩, e, he, rfl⟩
    · exact .inr ⟨hpath.head?_ne rfl, ⟨behind, hpath⟩, e, he, rfl⟩
    · rw [upToCloser?_sigil, Option.map_eq_some_iff] at he
      obtain ⟨tail, htail, rfl⟩ := he
      refine .inl ⟨u, _, rfl, path?_eq_some_iff_begins.2 ⟨⟨behind, hpath⟩, tail, htail, rfl⟩, ?_⟩
      rw [List.length_cons]
      omega

theorem after?_eq_some_iff_names {keywords : Text}
    (hkeywords : keywords = ("<% if not " : Text) ∨ keywords = ("<% if " : Text)) :
    after? keywords t = some (label, n) ↔
      (∃ rest behind, t = keywords ++ rest ∧ Names rest label behind) ∧
        ∃ e, upToCloser? t = some e ∧ n = e.length + Markup.closer.length := by
  have hcloser : ∀ {rest behind : Text}, Names rest label behind →
      upToCloser? (keywords ++ rest) = (upToCloser? rest).map (keywords ++ ·) := by
    intro rest behind hnames
    obtain ⟨-, -, -, hhead, -⟩ := hnames.exists_front
    exact upToCloser?_keywords hkeywords hhead
  rw [after?_eq_some_iff]
  constructor
  · rintro ⟨rest, m, rfl, hfound, rfl⟩
    obtain ⟨⟨behind, hnames⟩, e, he, rfl⟩ := body?_eq_some_iff_names.1 hfound
    refine ⟨⟨rest, behind, rfl, hnames⟩, keywords ++ e, ?_, ?_⟩
    · rw [hcloser hnames, he]
      rfl
    · rw [List.length_append]
      omega
  · rintro ⟨⟨rest, behind, rfl, hnames⟩, e, he, rfl⟩
    rw [hcloser hnames, Option.map_eq_some_iff] at he
    obtain ⟨tail, htail, rfl⟩ := he
    refine ⟨rest, _, rfl, body?_eq_some_iff_names.2 ⟨⟨behind, hnames⟩, tail, htail, rfl⟩, ?_⟩
    rw [List.length_append]
    omega

/-- A match is what begins a condition, and goes on to the nearest closer. -/
theorem here?_eq_some_iff_begins :
    here? t = some (label, n) ↔
      (∃ behind, Begins t label behind) ∧
        ∃ e, upToCloser? t = some e ∧ n = e.length + Markup.closer.length := by
  rw [here?_eq_some_iff]
  constructor
  · rintro (hnot | ⟨hnone, hif⟩)
    · obtain ⟨⟨rest, behind, rfl, hnames⟩, he⟩ := (after?_eq_some_iff_names (.inl rfl)).1 hnot
      exact ⟨⟨behind, .negated hnames⟩, he⟩
    · obtain ⟨⟨rest, behind, rfl, hnames⟩, he⟩ := (after?_eq_some_iff_names (.inr rfl)).1 hif
      refine ⟨⟨behind, .plain hnames ?_⟩, he⟩
      -- With a path behind `not`, the text would match as a negated condition.
      rintro rest' other behind' rfl hnames'
      have hfound := (after?_eq_some_iff_names (.inl rfl)).2 ⟨⟨rest', behind', rfl, hnames'⟩, he⟩
      cases hnone.symm.trans hfound
  · rintro ⟨⟨behind, hbegins⟩, he⟩
    cases hbegins with
    | negated hnames =>
      exact .inl ((after?_eq_some_iff_names (.inl rfl)).2 ⟨⟨_, _, rfl, hnames⟩, he⟩)
    | plain hnames hplain =>
      refine .inr ⟨?_, (after?_eq_some_iff_names (.inr rfl)).2 ⟨⟨_, _, rfl, hnames⟩, he⟩⟩
      rw [Option.eq_none_iff_forall_ne_some]
      rintro ⟨other, m⟩ hfound
      obtain ⟨⟨rest', behind', hrest, hnames'⟩, -⟩ := (after?_eq_some_iff_names (.inl rfl)).1 hfound
      exact hplain rest' other behind' (List.append_cancel_left (hrest.trans rfl)) hnames'

theorem length_marker : ("<%" : Text).length = 2 := rfl

/-- Conditions that overlap have one closer. -/
theorem endTogether_here? : Text.EndTogether here? where
  nil := rfl
  pos := by
    intro t label n h
    obtain ⟨-, e, -, rfl⟩ := here?_eq_some_iff_begins.1 h
    exact Nat.lt_add_left _ (by decide)
  inside := by
    intro t label other m n h k hpos hk hinside
    obtain ⟨-, e, he, rfl⟩ := here?_eq_some_iff_begins.1 h
    obtain ⟨⟨behind, hbegins⟩, e', he', rfl⟩ := here?_eq_some_iff_begins.1 hinside
    by_cases hle : k ≤ e.length
    · rw [upToCloser?_drop he hle] at he'
      rw [← Option.some.inj he', List.length_drop]
      omega
    · -- No condition begins in the two characters behind the blank of a closer.
      exfalso
      obtain ⟨⟨rest, rfl⟩, -⟩ := upToCloser?_eq_some_iff.1 he
      obtain ⟨front, hfront, -⟩ := hbegins.exists_front
      have hlength : Markup.closer.length = 3 := rfl
      have hdrop : (e ++ Markup.closer ++ rest).drop k =
          (Markup.closer.drop (k - e.length)) ++ rest := by
        rw [List.append_assoc, List.drop_append, List.drop_eq_nil_of_le (by omega),
          List.nil_append, List.drop_append_of_le_length (by omega)]
      rw [hdrop] at hfront
      obtain hk' | hk' : k - e.length = 1 ∨ k - e.length = 2 := by omega
      · rw [hk'] at hfront
        cases hfront
      · rw [hk'] at hfront
        cases hfront

/-- A closed condition is a match. -/
theorem closedAt_iff {offset stop : Nat} :
    ClosedAt t offset label stop ↔
      ∃ n, here? (t.drop offset) = some (label, n) ∧ stop = offset + n := by
  simp only [here?_eq_some_iff_begins]
  constructor
  · rintro ⟨tail, rest, hbegins, hline, hcloser, hstop⟩
    obtain ⟨front, hfront, -, hnearest⟩ := hbegins.exists_front
    rw [upToCloser?_eq_some_iff.2 ⟨⟨rest, rfl⟩, hline, hcloser⟩] at hnearest
    refine ⟨_, ⟨⟨_, hbegins⟩, _, hnearest, rfl⟩, ?_⟩
    have hlength := congrArg List.length hfront
    simp only [List.length_append, List.length_drop, length_marker] at hlength ⊢
    omega
  · rintro ⟨n, ⟨⟨behind, hbegins⟩, e, he, rfl⟩, rfl⟩
    obtain ⟨front, hfront, -, hnearest⟩ := hbegins.exists_front
    rw [hnearest, Option.map_eq_some_iff] at he
    obtain ⟨tail, htail, rfl⟩ := he
    obtain ⟨⟨rest, rfl⟩, hline, hcloser⟩ := upToCloser?_eq_some_iff.1 htail
    refine ⟨tail, rest, hbegins, hline, hcloser, ?_⟩
    have hlength := congrArg List.length hfront
    simp only [List.length_append, List.length_drop, length_marker] at hlength ⊢
    omega

/-- The search finds the first condition of each closer. -/
theorem mem_findAll_iff_firstClosedAt {offset : Nat} :
    (offset, label) ∈ Text.findAll here? t ↔ FirstClosedAt t offset label := by
  rw [Text.mem_findAll_of_endTogether endTogether_here?]
  constructor
  · rintro ⟨n, hfound, hfirst⟩
    refine ⟨offset + n, closedAt_iff.2 ⟨n, hfound, rfl⟩, ?_⟩
    intro earlier other hlt hclosed
    obtain ⟨m, hother, hend⟩ := closedAt_iff.1 hclosed
    exact hfirst earlier hlt other m hother hend.symm
  · rintro ⟨stop, hclosed, hfirst⟩
    obtain ⟨n, hfound, rfl⟩ := closedAt_iff.1 hclosed
    refine ⟨n, hfound, ?_⟩
    intro earlier hlt other m hother hend
    exact hfirst earlier other hlt (closedAt_iff.2 ⟨m, hother, hend.symm⟩)

/-- A well-formed condition is closed, and is a tag that holds no other
marker. -/
theorem WellFormedAt.exists_tag {offset : Nat} (h : WellFormedAt t offset label) :
    ∃ tag, Markup.IsTag tag ∧ tag <+: t.drop offset ∧
      ClosedAt t offset label (offset + tag.length) := by
  obtain ⟨tail, rest, hbegins, htail⟩ := h
  obtain ⟨front, hfront, hmarker, -⟩ := hbegins.exists_front
  have hcloser : ¬ Markup.closer <:+: tail := by
    intro hinside
    exact htail.2.1 (List.IsInfix.trans ⟨" ", [], rfl⟩ hinside)
  have hsplit : t.drop offset = ("<%" : Text) ++ front ++ tail ++ Markup.closer ++ rest := by
    rw [hfront]
    simp only [List.append_assoc]
  refine ⟨("<%" : Text) ++ front ++ tail ++ Markup.closer, ⟨?_, ?_⟩, ⟨rest, hsplit.symm⟩, ?_⟩
  · simp only [List.append_assoc]
    exact List.prefix_append _ _
  · have hnone : Markup.NoMarker (.char '%' :: front ++ (tail ++ " ") ++ "%>") := by
      refine ((Markup.noMarker_of_not_mem ?_).append htail.noMarker).append
        (Markup.noMarker_of_not_mem (by decide))
      rw [List.mem_cons, not_or]
      exact ⟨by decide, hmarker⟩
    have hshape : (("<%" : Text) ++ front ++ tail ++ Markup.closer).tail =
        .char '%' :: front ++ (tail ++ " ") ++ "%>" := by
      simp [Markup.closer_eq]
    rw [hshape]
    exact hnone
  · refine ⟨tail, rest, hbegins, htail.1, hcloser, ?_⟩
    have hlength := congrArg List.length hsplit
    simp only [List.length_append, List.length_drop, length_marker] at hlength ⊢
    omega

/-- No two well-formed conditions have one closer. -/
theorem WellFormedAt.apart {first second stop : Nat} {other : Text}
    (h : WellFormedAt t first label) (h' : WellFormedAt t second other)
    (hclosed : ClosedAt t first label stop) (hclosed' : ClosedAt t second other stop) :
    ¬ first < second := by
  have hstop : ∀ {offset label n}, ClosedAt t offset label n → ClosedAt t offset label stop →
      n = stop := by
    intro offset label n hn hstop
    obtain ⟨m, hfound, rfl⟩ := closedAt_iff.1 hn
    obtain ⟨m', hfound', rfl⟩ := closedAt_iff.1 hstop
    rw [hfound] at hfound'
    rw [(Prod.mk.inj (Option.some.inj hfound')).2]
  obtain ⟨tag, htag, hspelled, htagged⟩ := h.exists_tag
  obtain ⟨tag', htag', hspelled', htagged'⟩ := h'.exists_tag
  intro hlt
  have happart := htag.apart htag' hspelled hspelled' hlt
  have hend := hstop htagged hclosed
  have hend' := hstop htagged' hclosed'
  have hpos := htag'.length_pos
  omega

end Matches

end Condition

/-! ## The names -/

namespace Usage

/-- The names of the conditions of a text are those of the closed conditions
that are the first ones of their closers, each where it first stands and
without the names of accessors, methods of lists and blocks.  Where all closed
conditions are well-formed, that is all of them. -/
theorem conditionNames_lists (ctx : Context) (isBlockName : Text → Bool) (t : Text) :
    ∃ found : List (Nat × Text),
      found.Pairwise (fun a b => a.1 < b.1) ∧
      (∀ offset label, (offset, label) ∈ found ↔ Condition.FirstClosedAt t offset label) ∧
      conditionNames ctx isBlockName t =
        ((found.map Prod.snd).filter (isConditionName ctx isBlockName)).eraseDups ∧
      ((∀ offset label stop, Condition.ClosedAt t offset label stop →
          Condition.WellFormedAt t offset label) →
        ∀ offset label, (offset, label) ∈ found ↔ Condition.WellFormedAt t offset label) := by
  refine ⟨Text.findAll Condition.here? t, Text.pairwise_findAll t,
    fun offset label => Condition.mem_findAll_iff_firstClosedAt, rfl, ?_⟩
  intro hall offset label
  rw [Condition.mem_findAll_iff_firstClosedAt]
  constructor
  · rintro ⟨stop, hclosed, -⟩
    exact hall offset label stop hclosed
  · intro hformed
    obtain ⟨tag, -, -, hclosed⟩ := hformed.exists_tag
    refine ⟨_, hclosed, ?_⟩
    intro earlier other hlt hearlier
    exact (hall _ _ _ hearlier).apart hformed hearlier hclosed hlt

/-- A condition without a blank in front of its marker hides the next one. -/
theorem conditionNames_swallowed :
    .char '\n' ∉ ("<% if $Sale%>a<% if $New %>b<% end_if %><% end_if %>" : Text) ∧
      Condition.WellFormedAt "<% if $Sale%>a<% if $New %>b<% end_if %><% end_if %>" 14 "New" ∧
      isConditionName Context.base (fun _ => false) "New" = true ∧
      ("New" : Text) ∉ conditionNames Context.base (fun _ => false)
        "<% if $Sale%>a<% if $New %>b<% end_if %><% end_if %>" := by
  refine ⟨by decide, ⟨[], "b<% end_if %><% end_if %>", ?_, by decide, by decide, by decide⟩,
    by decide +kernel, by decide +kernel⟩
  have hpath : Condition.BeginsPath "New %>b<% end_if %><% end_if %>" "New"
      " %>b<% end_if %><% end_if %>" :=
    ⟨rfl, by decide, List.all_eq_true.1 (by decide), fun c hc => by cases hc; rfl⟩
  refine Condition.Begins.plain (.inr ⟨_, rfl, hpath⟩) ?_
  intro rest' other behind' hrest
  cases hrest

end Usage

end TemplateScopes
