import TemplateScopes.Lookup.Context

/-!
# Presets

A preset is a named layer for one kind of template.  The preset `base`
leaves a context as it is, `site-tree` adds the accessors of pages and
`email` those of messages.  Only the last two rename the context.
-/

namespace TemplateScopes

/-- The kinds of template with accessors of their own. -/
inductive Preset where
  | base
  | siteTree
  | email
deriving DecidableEq, Repr

namespace Preset

/-- The name of a preset. -/
def toText : Preset → Text
  | base => "base"
  | siteTree => "site-tree"
  | email => "email"

/-- All presets by their names. -/
def all : List Preset := [base, email, siteTree]

/-- The preset of the given name. -/
def ofText? (name : Text) : Option Preset :=
  all.find? fun preset => preset.toText = name

/-- What a preset adds. -/
def layer : Preset → Layer
  | base => {}
  | siteTree => { name := siteTree.toText, globalAccessors := Tables.siteTreeAccessors }
  | email => { name := email.toText, globalAccessors := Tables.emailAccessors }

/-- The context with a preset on top. -/
def on (preset : Preset) (ctx : Context) : Context :=
  ctx.extend preset.layer

/-- The words for a name that no preset has. -/
def unknownMessage (name : Text) : Text :=
  "Unknown preset '" ++ name ++ "'. Choose from: " ++ Text.join ", " (all.map toText)

end Preset

/-- The name of a preset that does not exist. -/
structure UnknownPreset where
  name : Text
deriving DecidableEq, Repr

/-- The context with the named preset on top. -/
def Context.withPreset (ctx : Context) (name : Text) : Except UnknownPreset Context :=
  match Preset.ofText? name with
  | some preset => .ok (preset.on ctx)
  | none => .error ⟨name⟩

end TemplateScopes
