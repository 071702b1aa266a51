import TemplateScopes.Markup.Tag

/-!
# Scanning a template for its tags

Offsets refer to the normalised text of a template, which has no line
breaks and no tabs.  `openTags` and `closeTags` list the tags of a text,
and `scanTags` refuses a text whose two lists differ in length.
-/

namespace TemplateScopes

/-- The text of a template without its line breaks and tabs. -/
def normalize (t : Text) : Text :=
  t.filter fun c => !(c = '\r' || c = '\n' || c = '\t')

theorem normalize_normalize (t : Text) : normalize (normalize t) = normalize t := by
  simp [normalize]

namespace Markup

/-- Recognises an opening tag. -/
def openingHere? : Text.Recogniser Opening := fun t =>
  (Opening.at? t).map fun o => (o, o.spelling.length)

/-- Recognises a closing tag. -/
def closingHere? : Text.Recogniser Closing := fun t =>
  (Closing.at? t).map fun c => (c, c.spelling.length)

/-- The opening tags of a text by their offsets. -/
def openTags (t : Text) : List OpenTag :=
  (Text.findAll openingHere? t).map fun found => OpenTag.ofOpening found.1 found.2

/-- The closing tags of a text by their offsets. -/
def closeTags (t : Text) : List CloseTag :=
  (Text.findAll closingHere? t).map fun found => CloseTag.ofClosing found.1 found.2

end Markup

/-! ## Faults of the tags -/

/-- Why the tags of a template do not pair up. -/
inductive TagFault where
  /-- There are more tags of one side than of the other. -/
  | unequalCounts (opened closed : Nat)
  /-- A closing tag stands where no block is open. -/
  | closesNothing (tag : CloseTag)
  /-- Blocks are open at the end, the outermost one since `first`. -/
  | leftOpen (count first : Nat)
deriving DecidableEq, Repr

/-- The words for a fault of the tags. -/
def TagFault.message : TagFault → Text
  | unequalCounts opened closed =>
    "Template is malformed. Open loops and closed loops are mismatched (" ++
      Text.ofNat opened ++ " opened, " ++ Text.ofNat closed ++ " closed)."
  | closesNothing tag =>
    "Template is malformed. '" ++ tag.raw ++ "' at offset " ++ Text.ofNat tag.offset ++
      " closes no open block."
  | leftOpen count first =>
    "Template is malformed. " ++ Text.ofNat count ++ " block(s) left open, first at offset " ++
      Text.ofNat first ++ "."

/-- The opening and the closing tags of a text, if there are as many of
the one as of the other. -/
def scanTags (t : Text) : Except TagFault (List OpenTag × List CloseTag) :=
  let opens := Markup.openTags t
  let closes := Markup.closeTags t
  if opens.length = closes.length then .ok (opens, closes)
  else .error (.unequalCounts opens.length closes.length)

end TemplateScopes
