import TemplateScopes.Text.Blank
import TemplateScopes.Text.Search

/-!
# Block tags

A template holds blocks.  A block opens with `<% loop e %>` or
`<% with e %>`, where the expression may be missing, and closes with
`<% end_loop %>` or `<% end_with %>`.  An expression stands on one line
and holds neither `%>` nor `<%`.

* `Opening` and `Closing` are the spellings of tags, with no place in a
  text.  `Opening.at?` and `Closing.at?` recognise a tag that starts right
  at the beginning of a text.
* `OpenTag` and `CloseTag` are tags at an offset, and `Tag` is either one.
-/

namespace TemplateScopes

/-! ## Keywords -/

/-- The two kinds of block that a template can open. -/
inductive Keyword where
  | loop
  | within
deriving DecidableEq, Repr

namespace Keyword

/-- The word in the tag. -/
def toText : Keyword → Text
  | loop => "loop"
  | within => "with"

/-- The keyword at the beginning of a text, and the rest of the text. -/
def read? (t : Text) : Option (Keyword × Text) :=
  match Text.after? (toText loop) t with
  | some rest => some (loop, rest)
  | none =>
    match Text.after? (toText within) t with
    | some rest => some (within, rest)
    | none => none

end Keyword

/-! ## Spellings -/

namespace Markup

/-- The marker that begins a tag. -/
def opener : Text := "<% "

/-- The marker that ends a tag. -/
def closer : Text := " %>"

/-- Whether an expression has to stop: at the end of the line and where
another marker stands. -/
def barsExpression (t : Text) : Bool :=
  Text.startsWith "\n" t || Text.startsWith "%>" t || Text.startsWith "<%" t

end Markup

/-- The spelling of an opening tag, with `none` for a tag without room for
an expression. -/
structure Opening where
  keyword : Keyword
  expr : Option Text
deriving DecidableEq, Repr

namespace Opening

/-- The text of the tag. -/
def spelling (o : Opening) : Text :=
  let expr : Text :=
    match o.expr with
    | none => []
    | some e => ' ' :: e
  Markup.opener ++ o.keyword.toText ++ expr ++ Markup.closer

/-- The expression that stands behind the keyword, up to the nearest
marker that ends the tag. -/
def expr? (t : Text) : Option Text :=
  match t with
  | ' ' :: rest => Text.upTo? Markup.closer Markup.barsExpression rest
  | _ => none

/-- The opening tag at the beginning of a text. -/
def at? (t : Text) : Option Opening := do
  let rest ← Text.after? Markup.opener t
  let (keyword, rest) ← Keyword.read? rest
  match expr? rest with
  | some e => some ⟨keyword, some e⟩
  | none => if Text.startsWith Markup.closer rest then some ⟨keyword, none⟩ else none

end Opening

/-- The spelling of a closing tag. -/
structure Closing where
  keyword : Keyword
deriving DecidableEq, Repr

namespace Closing

/-- The text of the tag. -/
def spelling (c : Closing) : Text :=
  "<% end_" ++ c.keyword.toText ++ Markup.closer

/-- The closing tag at the beginning of a text. -/
def at? (t : Text) : Option Closing := do
  let rest ← Text.after? "<% end_" t
  let (keyword, rest) ← Keyword.read? rest
  if Text.startsWith Markup.closer rest then some ⟨keyword⟩ else none

/-- The length of a closing tag.  The two keywords have the same
length. -/
def length : Nat := 14

theorem length_spelling (c : Closing) : c.spelling.length = length := by
  obtain ⟨keyword⟩ := c
  cases keyword <;> rfl

theorem length_pos : 0 < length := by decide

end Closing

/-! ## Names -/

/-- Whether a character can stand in a name. -/
def isNameChar (c : CodePoint) : Bool :=
  ('A' ≤ c && c ≤ 'Z') || ('a' ≤ c && c ≤ 'z') || ('0' ≤ c && c ≤ '9') || c = '_'

/-- A text without the `$` that marks a name. -/
def withoutSigil : Text → Text
  | '$' :: rest => rest
  | t => t

/-- The name at the beginning of an expression, empty if there is
none. -/
def leadingName (t : Text) : Text :=
  (withoutSigil (Text.trim t)).takeWhile isNameChar

/-! ## Tags in a text -/

/-- An opening tag at its offset. -/
structure OpenTag where
  keyword : Keyword
  offset : Nat
  raw : Text
  expr : Text
deriving DecidableEq, Repr

namespace OpenTag

/-- The opening tag of the given spelling at an offset. -/
def ofOpening (offset : Nat) (o : Opening) : OpenTag :=
  ⟨o.keyword, offset, o.spelling, o.expr.getD []⟩

/-- The offset behind the tag. -/
def stop (t : OpenTag) : Nat :=
  t.offset + t.raw.length

/-- The name of the block that the tag opens. -/
def name (t : OpenTag) : Text :=
  leadingName t.expr

end OpenTag

/-- A closing tag at its offset. -/
structure CloseTag where
  keyword : Keyword
  offset : Nat
  raw : Text
deriving DecidableEq, Repr

namespace CloseTag

/-- The closing tag of the given spelling at an offset. -/
def ofClosing (offset : Nat) (c : Closing) : CloseTag :=
  ⟨c.keyword, offset, c.spelling⟩

/-- The offset behind the tag. -/
def stop (t : CloseTag) : Nat :=
  t.offset + t.raw.length

end CloseTag

/-- A tag of either side. -/
inductive Tag where
  | opening (t : OpenTag)
  | closing (t : CloseTag)
deriving DecidableEq, Repr

/-- Where the tag starts. -/
def Tag.offset : Tag → Nat
  | opening t => t.offset
  | closing t => t.offset

end TemplateScopes
