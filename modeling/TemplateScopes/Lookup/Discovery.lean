import TemplateScopes.Lookup.Config

/-!
# Finding the configuration

A configuration file that is not named is looked for in the directory of
the start and in all directories above it, and the nearest one counts.
Whatever bears the name of a configuration file ends the search, be it a
file or a directory.

* `Discovery.find?` looks for the file, `Discovery.search` only from a
  start that the file system can follow.
* `Context.resolve` picks the context for a run: the file that is named, or
  else the one found, or else just a preset.
-/

namespace TemplateScopes

namespace Discovery

/-- The name of a configuration file. -/
def configName : Text := ".tplreflect.json"

/-- The place and all places above it, the nearest first. -/
def upward (place : Place) : List Place :=
  (List.range (place.length + 1)).reverse.map place.take

/-- The directory where the search starts. -/
def startDirectory (tree : FileTree) (cwd : Place) (start : Path) : Place :=
  let place := start.resolve cwd
  if tree.isFile place then place.dropLast else place

/-- Where the nearest configuration is, from the given start upward. -/
def find? (tree : FileTree) (cwd : Place) (start : Path) : Option Place :=
  ((upward (startDirectory tree cwd start)).map (· ++ [configName])).find? fun candidate =>
    (tree.node? candidate).isSome

/-- Looks for the nearest configuration.  A start with a step that is no
name and one that is too long cannot be followed, and the first file to look
for may be too long where the start is not. -/
def search (tree : FileTree) (cwd : Place) (start : Path) : Except ContextFault (Option Place) :=
  match start.stepFault? with
  | some fault => .error (.badName fault)
  | none =>
    let resolved := Path.ofPlace (start.resolve cwd)
    let nearest := Path.ofPlace (startDirectory tree cwd start ++ [configName])
    match tree.locate [] resolved, tree.locate [] nearest with
    | .error .nameTooLong, _ => .error (.startTooLong resolved)
    | _, .error .nameTooLong => .error (.startTooLong nearest)
    | _, _ => .ok (find? tree cwd start)

/-- The path of the configuration to use: the one named, or else the one
found. -/
def configPath (tree : FileTree) (cwd : Place) (named : Option Text) (start : Path) :
    Except ContextFault (Option Path) :=
  match Config.given? named with
  | some path => .ok (some (Path.ofText path))
  | none => (search tree cwd start).map (·.map Path.ofPlace)

end Discovery

/-- The context for a run, given the preset asked for, the path of a
configuration file and where to look for one.  The configuration may go down
the given levels. -/
def Context.resolve (levels : Nat) (tree : FileTree) (cwd : Place)
    (preset configPath : Option Text) (start : Path) : Except ContextFault Context :=
  match Discovery.configPath tree cwd configPath start with
  | .error fault => .error fault
  | .ok (some path) =>
    match Config.load levels tree cwd path with
    | .error fault => .error fault
    | .ok config => config.context preset
  | .ok none =>
    (Context.base.withPreset ((Config.given? preset).getD Preset.base.toText)).mapError
      fun unknown => .unknownPreset unknown.name

end TemplateScopes
