import Mathlib.Data.List.Infix
import TemplateScopes.Markup.Scan
import TemplateScopes.Proofs.Search

/-!
# Spellings of tags

A recogniser of tags looks at one place of a text.  This module says that
it finds what is spelled out there, and that a spelled tag leaves no room
for another one inside it.

There are three groups.

* Expressions.  `IsExpr` says what can stand in an opening tag, and
  `upTo?_closer_eq_some_iff` that the text determines the expression of a
  tag.
* Markers.  A spelled tag begins with a marker and holds no second one
  (`IsTag`), so two tags of a text never overlap (`IsTag.apart`).
* Recognisers.  `Opening.at?_eq_some_iff` and `Closing.at?_eq_some_iff`
  relate the recognisers to the spellings.
-/

namespace TemplateScopes

namespace Markup

/-! ## Expressions -/

/-- Whether a text can stand as an expression: on one line and without the
markers of a tag. -/
def IsExpr (e : Text) : Prop :=
  .char '\n' ∉ e ∧ ¬ ("%>" : Text) <:+: e ∧ ¬ ("<%" : Text) <:+: e

private theorem infix_iff_exists_drop {p t : Text} : p <:+: t ↔ ∃ k, p <+: t.drop k := by
  rw [List.infix_iff_prefix_suffix]
  constructor
  · intro h
    obtain ⟨s, hp, hs⟩ := h
    exact ⟨t.length - s.length, by rwa [← List.suffix_iff_eq_drop.1 hs]⟩
  · intro h
    obtain ⟨k, hk⟩ := h
    exact ⟨t.drop k, hk, List.drop_suffix k t⟩

theorem barsExpression_eq_true_iff {t : Text} :
    barsExpression t = true ↔
      [.char '\n'] <+: t ∨ ("%>" : Text) <+: t ∨ ("<%" : Text) <+: t := by
  simp only [barsExpression, Bool.or_eq_true, Text.startsWith_iff, or_assoc]
  rfl

/-- An expression is a text in which nothing stops an expression. -/
theorem isExpr_iff {e : Text} : IsExpr e ↔ ∀ k, barsExpression (e.drop k) = false := by
  have hline : .char '\n' ∈ e ↔ ∃ k, [.char '\n'] <+: e.drop k := by
    rw [← infix_iff_exists_drop, List.singleton_infix_iff]
  rw [IsExpr, hline, infix_iff_exists_drop, infix_iff_exists_drop]
  constructor
  · intro hexpr k
    obtain ⟨hline, hclose, hopen⟩ := hexpr
    rw [← Bool.not_eq_true, barsExpression_eq_true_iff]
    intro h
    rcases h with h | h | h
    · exact hline ⟨k, h⟩
    · exact hclose ⟨k, h⟩
    · exact hopen ⟨k, h⟩
  · intro hfree
    have hbars : ∀ k, ¬ ([.char '\n'] <+: e.drop k ∨ ("%>" : Text) <+: e.drop k ∨
        ("<%" : Text) <+: e.drop k) := by
      intro k h
      rw [← barsExpression_eq_true_iff, hfree k] at h
      exact Bool.noConfusion h
    exact ⟨fun ⟨k, h⟩ => hbars k (.inl h), fun ⟨k, h⟩ => hbars k (.inr (.inl h)),
      fun ⟨k, h⟩ => hbars k (.inr (.inr h))⟩

/-- No marker reaches over the space behind an expression. -/
theorem barsExpression_append {s : Text} (hs : s ≠ []) (rest : Text) :
    barsExpression (s ++ .char ' ' :: rest) = barsExpression s := by
  rw [Bool.eq_iff_iff, barsExpression_eq_true_iff, barsExpression_eq_true_iff]
  rcases s with _ | ⟨c, _ | ⟨d, s⟩⟩
  · exact absurd rfl hs
  · simp [List.cons_prefix_cons]
  · simp [List.cons_prefix_cons]

/-- No marker begins inside an expression that a space follows. -/
theorem IsExpr.not_marked {e : Text} (he : IsExpr e) {k : Nat} (hk : k < e.length)
    (rest : Text) :
    ¬ ("%>" : Text) <+: e.drop k ++ .char ' ' :: rest ∧
      ¬ ("<%" : Text) <+: e.drop k ++ .char ' ' :: rest := by
  have hne : e.drop k ≠ [] := by
    rw [Ne, List.drop_eq_nil_iff]
    omega
  have hfree : barsExpression (e.drop k ++ .char ' ' :: rest) = false := by
    rw [barsExpression_append hne]
    exact isExpr_iff.1 he k
  rw [← Bool.not_eq_true, barsExpression_eq_true_iff, not_or, not_or] at hfree
  exact hfree.2

theorem closer_eq : closer = [.char ' ', .char '%', .char '>'] := rfl

/-- A closer behind an expression does not begin inside it. -/
private theorem closer_not_inside {e : Text} (he : IsExpr e) {k : Nat} (hk : k < e.length)
    (rest : Text) : ¬ closer <+: e.drop k ++ .char ' ' :: .char '%' :: .char '>' :: rest := by
  rw [List.drop_eq_getElem_cons hk, closer_eq, List.cons_append, List.cons_prefix_cons]
  intro h
  have htail := h.2
  by_cases hnext : k + 1 < e.length
  · exact (he.not_marked hnext _).1 htail
  · rw [List.drop_eq_nil_of_le (by omega)] at htail
    simp [List.cons_prefix_cons] at htail

/-- What stands in front of the nearest closer is taken if it is an
expression. -/
theorem upTo?_closer_eq_some_iff {t e : Text} :
    Text.upTo? closer barsExpression t = some e ↔
      IsExpr e ∧ ∃ rest, t = e ++ closer ++ rest := by
  rw [Text.upTo?_eq_some_iff (by decide)]
  have hdrop : ∀ {k} (rest : Text), k < e.length →
      (e ++ closer ++ rest).drop k = e.drop k ++ .char ' ' :: .char '%' :: .char '>' :: rest := by
    intro k rest hk
    rw [closer_eq, List.append_assoc, List.drop_append_of_le_length (by omega)]
    rfl
  constructor
  · intro h
    obtain ⟨⟨rest, rfl⟩, hclear⟩ := h
    refine ⟨isExpr_iff.2 fun k => ?_, rest, rfl⟩
    by_cases hk : k < e.length
    · have hbars := (hclear k hk).2
      rwa [hdrop rest hk, barsExpression_append (by simpa using hk)] at hbars
    · rw [List.drop_eq_nil_of_le (by omega)]
      rfl
  · intro h
    obtain ⟨he, rest, rfl⟩ := h
    refine ⟨⟨rest, rfl⟩, fun k hk => ?_⟩
    rw [hdrop rest hk, barsExpression_append (by simpa using hk)]
    exact ⟨closer_not_inside he hk rest, isExpr_iff.1 he k⟩

/-! ## Markers -/

/-- Whether no tag begins inside a text, whatever stands behind it. -/
def NoMarker (s : Text) : Prop :=
  ∀ k, k < s.length → ∀ rest, ¬ ("<%" : Text) <+: s.drop k ++ rest

theorem NoMarker.append {s t : Text} (hs : NoMarker s) (ht : NoMarker t) :
    NoMarker (s ++ t) := by
  intro k hk rest
  by_cases hin : k < s.length
  · rw [List.drop_append_of_le_length (by omega), List.append_assoc]
    exact hs k hin (t ++ rest)
  · rw [List.drop_append, List.drop_eq_nil_of_le (by omega), List.nil_append]
    rw [List.length_append] at hk
    exact ht (k - s.length) (by omega) rest

theorem noMarker_of_not_mem {s : Text} (h : .char '<' ∉ s) : NoMarker s := by
  intro k hk rest hmarker
  rw [List.drop_eq_getElem_cons hk, show ("<%" : Text) = [.char '<', .char '%'] from rfl,
    List.cons_append, List.cons_prefix_cons] at hmarker
  exact h (hmarker.1 ▸ List.getElem_mem hk)

/-- No tag begins in an expression, not even with the space behind it. -/
theorem IsExpr.noMarker {e : Text} (he : IsExpr e) : NoMarker (e ++ [.char ' ']) := by
  intro k hk rest hmarker
  rw [List.length_append, List.length_singleton] at hk
  rw [List.drop_append_of_le_length (by omega), List.append_assoc] at hmarker
  by_cases hin : k < e.length
  · exact (he.not_marked hin rest).2 hmarker
  · rw [List.drop_eq_nil_of_le (by omega)] at hmarker
    simp [List.cons_prefix_cons] at hmarker

/-- A text that begins with the marker of a tag and holds no second
one. -/
structure IsTag (s : Text) : Prop where
  marker : ("<%" : Text) <+: s
  tail : NoMarker s.tail

theorem IsTag.length_pos {s : Text} (h : IsTag s) : 0 < s.length := by
  have := h.marker.length_le
  simp at this
  omega

/-- Of two tags in a text, the later one stands behind the earlier one. -/
theorem IsTag.apart {t s s' : Text} {m n : Nat} (hs : IsTag s) (hs' : IsTag s')
    (hm : s <+: t.drop m) (hn : s' <+: t.drop n) (hmn : m < n) :
    m + s.length ≤ n := by
  by_contra hover
  obtain ⟨rest, hrest⟩ := hm
  obtain ⟨c, s, rfl⟩ := List.exists_cons_of_length_pos hs.length_pos
  simp only [List.length_cons] at hover
  have hdrop : t.drop n = s.drop (n - m - 1) ++ rest := by
    have hsplit : t.drop n = (t.drop m).drop (n - m - 1 + 1) := by
      rw [List.drop_drop]
      congr 1
      omega
    rw [hsplit, ← hrest, List.cons_append, List.drop_succ_cons,
      List.drop_append_of_le_length (by omega)]
  exact hs.tail (n - m - 1) (by simp; omega) rest (hdrop ▸ hs'.marker.trans hn)

end Markup

/-! ## Recognisers -/

namespace Keyword

theorem read?_eq_some_iff {t rest : Text} {k : Keyword} :
    read? t = some (k, rest) ↔ t = k.toText ++ rest := by
  unfold read?
  split
  · rename_i more hloop
    rw [Text.after?_eq_some_iff] at hloop
    subst hloop
    cases k <;> simp [toText, eq_comm]
  · rename_i hloop
    split
    · rename_i more hwithin
      rw [Text.after?_eq_some_iff] at hwithin
      subst hwithin
      cases k <;> simp [toText, eq_comm]
    · rename_i hwithin
      simp only [reduceCtorEq, false_iff]
      intro ht
      rw [← Text.after?_eq_some_iff] at ht
      cases k <;> simp_all

end Keyword

namespace Opening

/-- Whether the expression of the tag, if there is room for one, is a
proper expression. -/
def WellFormed (o : Opening) : Prop :=
  ∀ e, o.expr = some e → Markup.IsExpr e

theorem expr?_eq_some_iff {t e : Text} :
    expr? t = some e ↔ Markup.IsExpr e ∧ (.char ' ' :: e) ++ Markup.closer <+: t := by
  unfold expr?
  split
  · rename_i rest
    rw [Markup.upTo?_closer_eq_some_iff, List.cons_append, List.cons_prefix_cons]
    simp only [true_and, List.IsPrefix, eq_comm]
  · rename_i hspace
    simp only [reduceCtorEq, false_iff, not_and]
    intro _ hspelled
    obtain ⟨rest, rfl⟩ := hspelled
    exact hspace _ rfl

/-- A tag without room for an expression is not read as one with an
expression. -/
theorem expr?_eq_none_of_closer {t : Text} (h : Markup.closer <+: t) : expr? t = none := by
  rw [Option.eq_none_iff_forall_ne_some]
  intro e he
  obtain ⟨hexpr, more, rfl⟩ := expr?_eq_some_iff.1 he
  rw [Markup.closer_eq, List.append_assoc, List.cons_append, List.cons_prefix_cons] at h
  have hmarker := h.2
  cases e with
  | nil => simp [List.cons_prefix_cons] at hmarker
  | cons c e => exact (hexpr.not_marked (Nat.zero_lt_succ e.length) _).1 hmarker

/-- What stands behind the keyword and in front of the closer. -/
def argument (o : Opening) : Text :=
  match o.expr with
  | none => []
  | some e => .char ' ' :: e

theorem spelling_eq (o : Opening) :
    o.spelling = Markup.opener ++ (o.keyword.toText ++ (o.argument ++ Markup.closer)) := by
  simp only [spelling, List.append_assoc]
  rfl

/-- The rest of a tag behind its keyword. -/
private theorem rest_eq_some_iff {t : Text} {k : Keyword} {o : Opening} :
    (match expr? t with
      | some e => some ⟨k, some e⟩
      | none => if Text.startsWith Markup.closer t then some ⟨k, none⟩ else none) = some o ↔
      o.keyword = k ∧ o.WellFormed ∧ o.argument ++ Markup.closer <+: t := by
  obtain ⟨keyword, expr⟩ := o
  cases expr with
  | some e =>
    have hwf : WellFormed ⟨keyword, some e⟩ ↔ Markup.IsExpr e := by simp [WellFormed]
    rw [hwf, argument, ← expr?_eq_some_iff]
    split
    · rename_i e' he
      simp [he, eq_comm]
    · rename_i he
      simp [he]
  | none =>
    have hwf : WellFormed ⟨keyword, none⟩ := by simp [WellFormed]
    rw [argument, List.nil_append]
    constructor
    · intro h
      split at h
      · simp at h
      · split at h
        · rename_i hcloser
          simp only [Option.some.injEq, mk.injEq, and_true] at h
          exact ⟨h.symm, hwf, Text.startsWith_iff.1 hcloser⟩
        · simp at h
    · intro h
      obtain ⟨rfl, -, hcloser⟩ := h
      rw [expr?_eq_none_of_closer hcloser]
      simp [Text.startsWith_iff.2 hcloser]

/-- The recogniser finds the tag that is spelled out at the beginning of
the text. -/
theorem at?_eq_some_iff {t : Text} {o : Opening} :
    at? t = some o ↔ o.WellFormed ∧ o.spelling <+: t := by
  simp only [at?, Option.bind_eq_bind, Option.bind_eq_some_iff, Prod.exists,
    Text.after?_eq_some_iff, Keyword.read?_eq_some_iff, spelling_eq]
  constructor
  · intro h
    obtain ⟨_, rfl, k, t, rfl, hrest⟩ := h
    obtain ⟨rfl, hwf, hspelled⟩ := rest_eq_some_iff.1 hrest
    refine ⟨hwf, ?_⟩
    rwa [List.prefix_append_right_inj, List.prefix_append_right_inj]
  · intro h
    obtain ⟨hwf, rest, rfl⟩ := h
    refine ⟨_, List.append_assoc .., o.keyword, _, List.append_assoc .., ?_⟩
    exact rest_eq_some_iff.2 ⟨rfl, hwf, List.prefix_append ..⟩

/-- An opening tag holds no second marker. -/
theorem isTag_spelling {o : Opening} (h : o.WellFormed) : Markup.IsTag o.spelling := by
  obtain ⟨k, expr⟩ := o
  cases expr with
  | none => exact ⟨by cases k <;> decide, Markup.noMarker_of_not_mem (by cases k <;> decide)⟩
  | some e =>
    refine ⟨⟨_, rfl⟩, ?_⟩
    have htail : (spelling ⟨k, some e⟩).tail =
        "% " ++ k.toText ++ " " ++ (e ++ " ") ++ "%>" := by
      simp [spelling, Markup.opener, Markup.closer]
    rw [htail]
    refine .append (.append (Markup.noMarker_of_not_mem ?_) ?_) (Markup.noMarker_of_not_mem ?_)
    · cases k <;> decide
    · exact (h e rfl).noMarker
    · decide

end Opening

namespace Closing

theorem spelling_eq (c : Closing) :
    c.spelling = "<% end_" ++ (c.keyword.toText ++ Markup.closer) :=
  List.append_assoc ..

/-- The recogniser finds the tag that is spelled out at the beginning of
the text. -/
theorem at?_eq_some_iff {t : Text} {c : Closing} : at? t = some c ↔ c.spelling <+: t := by
  simp only [at?, Option.bind_eq_bind, Option.bind_eq_some_iff, Prod.exists,
    Text.after?_eq_some_iff, Keyword.read?_eq_some_iff, spelling_eq]
  constructor
  · intro h
    obtain ⟨_, rfl, k, t, rfl, h⟩ := h
    split at h
    · rename_i hcloser
      obtain rfl := Option.some.inj h
      rw [List.prefix_append_right_inj, List.prefix_append_right_inj]
      exact Text.startsWith_iff.1 hcloser
    · simp at h
  · intro h
    obtain ⟨rest, rfl⟩ := h
    refine ⟨_, List.append_assoc .., c.keyword, _, List.append_assoc .., ?_⟩
    rw [if_pos (Text.startsWith_iff.2 (List.prefix_append ..))]

/-- A closing tag holds no second marker. -/
theorem isTag_spelling (c : Closing) : Markup.IsTag c.spelling := by
  obtain ⟨k⟩ := c
  exact ⟨by cases k <;> decide, Markup.noMarker_of_not_mem (by cases k <;> decide)⟩

/-- No place of a text begins both an opening and a closing tag. -/
theorem closing_not_spelled {t : Text} {o : Opening} {c : Closing} (hwf : o.WellFormed)
    (ho : o.spelling <+: t) : ¬ c.spelling <+: t := by
  intro hc
  obtain ⟨rest, rfl⟩ := hc
  have hnone : Opening.at? (c.spelling ++ rest) = none := by
    obtain ⟨k⟩ := c
    cases k <;> rfl
  have hsome := Opening.at?_eq_some_iff.2 ⟨hwf, ho⟩
  rw [hnone] at hsome
  simp at hsome

end Closing

end TemplateScopes
