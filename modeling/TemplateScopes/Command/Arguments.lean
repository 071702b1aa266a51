import TemplateScopes.Lookup.Preset

/-!
# The command line

A command line holds options for the whole program, the name of a command
and the arguments of that command.

* `readArguments` takes options and other arguments apart.  An option with
  a value takes it from behind an equals sign or from the next argument,
  whatever that looks like.  Behind `--` there are no more options.
* `Request.ofArguments` reads a whole command line.  Requests for help or
  for the version come before everything but a malformed option, and they
  are still found behind `--` where no command is named.
-/

namespace TemplateScopes.Command

/-! ## Options -/

/-- An option that a command knows. -/
structure OptionSpec where
  name : Text
  takesValue : Bool

/-- An option in a command line, with its value if it takes one. -/
structure GivenOption where
  name : Text
  value : Option Text
deriving DecidableEq, Repr

/-- Options and other arguments in the order in which they came. -/
structure Arguments where
  options : List GivenOption
  positional : List Text
deriving DecidableEq, Repr

/-- The arguments with an option in front. -/
def Arguments.withOption (name : Text) (value : Option Text) (args : Arguments) : Arguments :=
  { args with options := ⟨name, value⟩ :: args.options }

/-- The arguments with a positional one in front. -/
def Arguments.withPositional (arg : Text) (args : Arguments) : Arguments :=
  { args with positional := arg :: args.positional }

/-- Whether an argument asks to be read as an option. -/
def looksLikeOption : Text → Bool
  | '-' :: _ :: _ => true
  | _ => false

/-- Whether a code point is no equals sign. -/
def isNoEquals (c : CodePoint) : Bool :=
  c ≠ '='

/-- The parts of an option before and behind the first equals sign. -/
def splitOption (arg : Text) : Text × Option Text :=
  match arg.dropWhile isNoEquals with
  | [] => (arg, none)
  | _ :: value => (arg.takeWhile isNoEquals, some value)

/-- Takes options and other arguments apart.  Unless `mixed`, the first
argument that is no option ends the options.  There is no answer for
unknown options, for values that are missing and for values that are not
taken. -/
def readArguments (specs : List OptionSpec) (mixed : Bool) : List Text → Option Arguments
  | [] => some ⟨[], []⟩
  | arg :: rest =>
    if arg = "--" then some ⟨[], rest⟩
    else if looksLikeOption arg then
      let (name, value) := splitOption arg
      match specs.find? (fun spec => spec.name = name), value with
      | none, _ => none
      | some ⟨_, false⟩, some _ => none
      | some ⟨_, false⟩, none => (readArguments specs mixed rest).map (·.withOption name none)
      | some ⟨_, true⟩, some value =>
        (readArguments specs mixed rest).map (·.withOption name (some value))
      | some ⟨_, true⟩, none =>
        match rest with
        | [] => none
        | value :: rest =>
          (readArguments specs mixed rest).map (·.withOption name (some value))
    else if mixed then (readArguments specs mixed rest).map (·.withPositional arg)
    else some ⟨[], arg :: rest⟩

namespace Arguments

/-- Whether an option was given. -/
def has (args : Arguments) (name : Text) : Bool :=
  args.options.any fun o => o.name = name

/-- The last value of an option. -/
def last? (args : Arguments) (name : Text) : Option Text :=
  (args.options.filter fun o => o.name = name).getLast?.bind GivenOption.value

/-- The first one of two options that was given. -/
def firstOf? (args : Arguments) (a b : Text) : Option Text :=
  (args.options.find? fun o => o.name = a || o.name = b).map GivenOption.name

end Arguments

/-! ## Requests -/

/-- The form of the output. -/
structure Mode where
  json : Bool
  compact : Bool
deriving DecidableEq, Repr

/-- Where the context of a run comes from. -/
structure LookupOptions where
  preset : Option Preset
  configPath : Option Text
deriving DecidableEq, Repr

/-- What is to be shown. -/
inductive Task where
  /-- The variables of every scope of a template. -/
  | scan (template : Text)
  /-- The blocks of a template, all of them or those of one kind. -/
  | blocks (template : Text) (loops withs : Bool)
  /-- The nesting of a template, as text or as a flowchart. -/
  | tree (template : Text) (mermaid : Bool)
  /-- The tables of the context. -/
  | context
deriving DecidableEq, Repr

/-- The template that a task is about. -/
def Task.template? : Task → Option Text
  | scan template => some template
  | blocks template _ _ => some template
  | tree template _ => some template
  | context => none

/-- A task with everything that it depends on. -/
structure Invocation where
  mode : Mode
  lookup : LookupOptions
  task : Task
deriving DecidableEq, Repr

/-- What a command line asks for. -/
inductive Request where
  | run (invocation : Invocation)
  | showVersion
  | showHelp
  /-- The command line is wrong.  The paths are those that are looked at
  before that is noticed. -/
  | misuse (looked : List Text)
deriving DecidableEq, Repr

/-- The options of the whole program. -/
def programOptions : List OptionSpec :=
  [⟨"--version", false⟩, ⟨"--json", false⟩, ⟨"--compact", false⟩, ⟨"--help", false⟩]

/-- The options of every command. -/
def commonOptions : List OptionSpec :=
  [⟨"--preset", true⟩, ⟨"--config", true⟩, ⟨"--help", false⟩]

/-- The commands with their own options, and whether they take a
template. -/
inductive CommandName where
  | scan
  | blocks
  | tree
  | context
deriving DecidableEq, Repr

namespace CommandName

/-- The command of the given name. -/
def ofText? (name : Text) : Option CommandName :=
  let names : List (Text × CommandName) :=
    [("scan", scan), ("blocks", blocks), ("tree", tree), ("context", context)]
  List.lookup name names

/-- The options that a command knows. -/
def options : CommandName → List OptionSpec
  | blocks => ⟨"--loops", false⟩ :: ⟨"--withs", false⟩ :: commonOptions
  | tree => ⟨"--mermaid", false⟩ :: commonOptions
  | _ => commonOptions

/-- The task of a command with its arguments, if there are neither too few
nor too many. -/
def task? (command : CommandName) (args : Arguments) : Option Task :=
  match command, args.positional with
  | scan, [template] => some (.scan template)
  | blocks, [template] => some (.blocks template (args.has "--loops") (args.has "--withs"))
  | tree, [template] => some (.tree template (args.has "--mermaid"))
  | context, [] => some .context
  | _, _ => none

end CommandName

/-- The options that choose a context, if the preset exists. -/
def lookupOptions? (args : Arguments) : Option LookupOptions :=
  match args.last? "--preset" with
  | none => some ⟨none, args.last? "--config"⟩
  | some name =>
    match Preset.ofText? name with
    | some preset => some ⟨some preset, args.last? "--config"⟩
    | none => none

/-- The paths in the arguments of a command, up to what is wrong with the
arguments.  The options come first, in the order in which they were given,
and then the template. -/
def CommandName.lookedAt (command : CommandName) (args : Arguments) : List Text :=
  let config := (args.last? "--config").toList
  match lookupOptions? args with
  | some _ => if command = context then config else config ++ args.positional.take 1
  | none =>
    if args.firstOf? "--preset" "--config" = some ("--config" : Text) then config else []

namespace Request

/-- What the arguments of a command ask for. -/
def ofCommand (mode : Mode) (command : CommandName) (args : List Text) : Request :=
  match readArguments command.options true args with
  | none => misuse []
  | some args =>
    if args.has "--help" then showHelp
    else
      match command.task? args, lookupOptions? args with
      | some task, some lookup => run ⟨mode, lookup, task⟩
      | _, _ => misuse (command.lookedAt args)

/-- What the options of the program ask for by themselves, the first of
them if there are several. -/
def ofOptions? (args : Arguments) : Option Request :=
  (args.firstOf? "--version" "--help").map fun name : Text =>
    if name = "--version" then showVersion else showHelp

/-- What is asked for where no command is named: the arguments are read as
options once more. -/
def withoutCommand (args : List Text) : Request :=
  ((readArguments programOptions false args).bind ofOptions?).getD (misuse [])

/-- What a command line asks for. -/
def ofArguments (args : List Text) : Request :=
  match readArguments programOptions false args with
  | none => misuse []
  | some args =>
    match ofOptions? args with
    | some request => request
    | none =>
      match args.positional with
      | [] => misuse []
      | name :: rest =>
        match CommandName.ofText? name with
        | some command => ofCommand ⟨args.has "--json", args.has "--compact"⟩ command rest
        | none => withoutCommand (name :: rest)

end Request

end TemplateScopes.Command
