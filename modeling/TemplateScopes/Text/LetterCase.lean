import TemplateScopes.Text.Basic
import TemplateScopes.Text.LetterCaseTable

/-!
# Lower case

Names are compared without regard to letter case, by their full lower
case.  Each character has its own lower case, with two exceptions: the
capital I with a dot becomes two characters, and a capital sigma depends
on its place in the word.
-/

namespace TemplateScopes.Text

/-- The Greek capital letter sigma. -/
def capitalSigma : CodePoint := 'Σ'

/-- The lower case of a code point by the table. -/
def lowerByTable (c : CodePoint) : CodePoint :=
  match lowerRuns.find? fun run =>
      run.first ≤ c.toNat && c.toNat ≤ run.last && (c.toNat - run.first) % run.step == 0 with
  | some run => CodePoint.ofNat (run.image + (c.toNat - run.first))
  | none => c

/-- The lower case of a code point that is no sigma. -/
def lowerChar (c : CodePoint) : Text :=
  if c = 'İ' then ['i', '\u0307'] else [lowerByTable c]

/-- Whether the nearest character that counts is cased.  The list starts
beside the sigma and leads away from it. -/
def casedBeside (away : Text) : Bool :=
  match away.dropWhile caseIgnorableRanges.has with
  | [] => false
  | c :: _ => casedRanges.has c

/-- The lower case of a sigma: the final form at the end of a word. -/
def lowerSigma (before after : Text) : CodePoint :=
  if casedBeside before && !casedBeside after then 'ς' else 'σ'

/-- The lower case of what is left of a text, with the characters before
it in reverse. -/
def lowerFrom (before : Text) : Text → Text
  | [] => []
  | c :: rest =>
    if c = capitalSigma then lowerSigma before rest :: lowerFrom (c :: before) rest
    else lowerChar c ++ lowerFrom (c :: before) rest

/-- The lower case of a text. -/
def lower (t : Text) : Text :=
  lowerFrom [] t

end TemplateScopes.Text
