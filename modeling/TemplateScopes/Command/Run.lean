import TemplateScopes.Command.Arguments
import TemplateScopes.Fault
import TemplateScopes.Lookup.Discovery
import TemplateScopes.Report.Envelope
import TemplateScopes.Report.Table

/-!
# Running commands

A run reads the files it needs from a file tree and ends in an outcome.

* `Invocation.reflect` finds the context of a run and analyses the
  template.
* `scanEchoes`, `blocksText`, `treeText` and `contextTexts` make the answers of
  the four commands, as text or as JSON, and `scanOutput`, `blocksOutput` and
  `treeOutput` are those about a template as lines of output.
* `emit` writes an answer.  It stops where the blocks of a template go down
  more levels than the program can follow, and where a text has no bytes.
* `execute` answers a whole command line.
-/

namespace TemplateScopes.Command

/-! ## Output -/

/-- Whether a code point is that of a parameter of a control sequence. -/
def isParameter (c : CodePoint) : Bool :=
  0x30 ≤ c.toNat && c.toNat ≤ 0x3F

/-- Whether a code point is that of an intermediate character of a control
sequence. -/
def isIntermediate (c : CodePoint) : Bool :=
  0x20 ≤ c.toNat && c.toNat ≤ 0x2F

/-- Whether a code point is that of the final character of a control
sequence. -/
def isFinal (c : CodePoint) : Bool :=
  0x40 ≤ c.toNat && c.toNat ≤ 0x7E

/-- The length of a terminal control sequence at the beginning of a text:
the introducer, parameters, intermediate characters and one final
character. -/
def controlLength? : Text → Option Nat
  | '\x1b' :: '[' :: rest =>
    let parameters := rest.takeWhile isParameter
    let rest := rest.drop parameters.length
    let intermediates := rest.takeWhile isIntermediate
    match rest.drop intermediates.length with
    | c :: _ =>
      if isFinal c then some (parameters.length + intermediates.length + 3) else none
    | [] => none
  | _ => none

/-- A text without terminal control sequences, the first `skip` characters
being part of one. -/
def plainFrom (skip : Nat) : Text → Text
  | [] => []
  | c :: t =>
    match skip with
    | skip + 1 => plainFrom skip t
    | 0 =>
      match controlLength? (c :: t) with
      | some length => plainFrom (length - 1) t
      | none => c :: plainFrom 0 t

/-- A text as one or more lines of output. -/
def echo (t : Text) : Text :=
  plainFrom 0 t ++ "\n"

/-- Several texts as lines of output. -/
def echoAll (ts : List Text) : Text :=
  ts.flatMap echo

/-- The envelope of a result in the form that the mode asks for. -/
def envelope (mode : Mode) (timestamp command : Text) (summary : List (Text × Json))
    (payload : List (Text × Json)) : Text :=
  let value :=
    if mode.compact then Envelope.compact command (.obj summary) payload
    else Envelope.full timestamp command (.obj summary) payload
  value.print

/-! ## Limits -/

/-- How many levels down the program can follow what is nested before it gives
up.  It gets further where less is to be done on every level. -/
structure Limits where
  /-- The arrays and objects of a configuration, where a template is asked
  about. -/
  config : Nat
  /-- The same where the context itself is asked about. -/
  contextConfig : Nat
  /-- The blocks of the answer to `scan`, as text and as JSON. -/
  scanText : Nat
  scanJson : Nat
  /-- The blocks of the answer to `tree`, as text and as JSON. -/
  treeText : Nat
  treeJson : Nat

/-- A text to be written, with the levels of blocks that it is made from. -/
structure Echo where
  levels : Nat
  text : Text
deriving DecidableEq, Repr

/-- Why an answer is not written to its end. -/
inductive WriteFault where
  /-- The blocks go down more levels than the program can follow. -/
  | tooDeep
  /-- A text has no bytes. -/
  | unencodable (fault : Text.Utf8.Fault)
deriving DecidableEq, Repr

/-- Writes texts one after the other, made from blocks of no more than the
given levels.  What was written stands with the fault that came then, if any. -/
def emit (limit : Nat) : List Echo → Text × Option WriteFault
  | [] => ([], none)
  | e :: rest =>
    if limit < e.levels then ([], some .tooDeep)
    else
      match Text.Utf8.fault? (echo e.text) with
      | some fault => ([], some (.unencodable fault))
      | none =>
        let (output, fault) := emit limit rest
        (echo e.text ++ output, fault)

/-! ## JSON forms -/

mutual

/-- A scope with the scopes inside it. -/
def summaryJson : Summary → Json
  | ⟨facts, children⟩ => .obj [
    ("id", Json.ofNat facts.id),
    ("name", .str facts.name),
    ("kind", .str facts.kind.toText),
    ("parent",
      match facts.parent with
      | some id => Json.ofNat id
      | none => .null),
    ("variables", Json.textMap facts.varTypes),
    ("booleans", Json.texts facts.conditions),
    ("children", .arr (summariesJson children))]

/-- Scopes with the scopes inside them. -/
def summariesJson : List Summary → List Json
  | [] => []
  | s :: rest => summaryJson s :: summariesJson rest

end

/-- Pairs of texts as lists. -/
def pairsJson (pairs : List (Text × Text)) : Json :=
  .arr (pairs.map fun pair => Json.texts [pair.1, pair.2])

/-- The tables of a context. -/
def listingJson (l : ContextListing) : List (Text × Json) := [
  ("name", .str l.name),
  ("global_accessors", Json.texts l.globalAccessors),
  ("field_methods", Json.textMap l.fieldMethods),
  ("collection_methods", Json.texts l.collectionMethods),
  ("inference_rules", pairsJson l.inferenceRules),
  ("default_type", .str l.defaultType),
  ("boolean_type", .str l.booleanType),
  ("relation_type", .str l.relationType),
  ("known_types", Json.texts l.knownTypes)]

/-! ## Commands -/

/-- The answer to `scan`. -/
def scanEchoes (mode : Mode) (timestamp template : Text) (o : Outline) : List Echo :=
  let varTypes := o.varTypes o.root
  let conditions := o.conditions o.root
  if mode.json then [⟨Summary.levelsAll o.summaries,
    envelope mode timestamp "scan" [
      ("blocks", Json.ofNat o.scopes.length),
      ("loops", Json.ofNat (o.ofKind .loop).length),
      ("withs", Json.ofNat (o.ofKind .within).length),
      ("excluded", Json.ofNat o.forest.excluded.length),
      ("top_level_variables", Json.ofNat varTypes.length)] [
      ("template", .str template),
      ("context", .str o.context.name),
      ("variables", Json.textMap varTypes),
      ("booleans", Json.texts conditions),
      ("blocks", .arr (summariesJson o.summaries))]⟩]
  else
    let head : List Echo := [
      ⟨0, "=== " ++ template ++ " (" ++ o.context.name ++ ") ===\n"⟩,
      ⟨0, Report.titled "Top level:" (Report.variableLines varTypes conditions) 0⟩]
    let blocks : List Echo :=
      match o.summaries with
      | [] => []
      | summaries => ⟨0, []⟩ :: ⟨0, "Blocks:"⟩ ::
        summaries.map fun s => ⟨s.levels, Report.indent (Report.listing s) 1⟩
    head ++ blocks

/-- The answer to `scan` as lines of output. -/
def scanOutput (mode : Mode) (timestamp template : Text) (o : Outline) : Text :=
  echoAll ((scanEchoes mode timestamp template o).map Echo.text)

/-- The headers of the table of blocks. -/
def blockHeaders : List Text :=
  ["id", "kind", "name", "parent", "depth", "vars"]

/-- The row of a block in the table of blocks. -/
def blockRow (o : Outline) (depths : List (Node × Nat)) (s : Scope) : List TableCell := [
  .number s.id,
  .text s.kind.toText,
  .text s.name,
  match s.parent with
  | some id => .number id
  | none => .text [],
  .number ((List.lookup (Node.block s.id) depths).getD 0),
  .number (o.varTypes s).length]

/-- The blocks to list. -/
def selectBlocks (o : Outline) (loops withs : Bool) : List Scope :=
  match loops, withs with
  | true, false => o.ofKind .loop
  | false, true => o.ofKind .within
  | _, _ => o.scopes

/-- A row of a table as a JSON object. -/
def entryJson (entry : OrderedMap TableCell) : Json :=
  .obj (entry.map fun cell => (cell.1, cell.2.toJson))

/-- The answer to `blocks`. -/
def blocksText (mode : Mode) (timestamp template : Text) (loops withs : Bool) (o : Outline) :
    Except TableFault Text :=
  let depths := (BlockGraph.ofOutline o).depths
  let rows := (selectBlocks o loops withs).map (blockRow o depths)
  if mode.json then
    .ok (envelope mode timestamp "blocks" [
      ("total", Json.ofNat rows.length),
      ("excluded", Json.ofNat o.forest.excluded.length)] [
      ("template", .str template),
      ("blocks", .arr ((Table.entries blockHeaders rows).map entryJson))])
  else if mode.compact then .ok (Table.renderCompact blockHeaders rows 0)
  else Table.render blockHeaders rows 0

/-- The answer to `blocks` as lines of output. -/
def blocksOutput (mode : Mode) (timestamp template : Text) (loops withs : Bool) (o : Outline) :
    Except TableFault Text :=
  (blocksText mode timestamp template loops withs o).map echo

/-- The numbers of variables of all scopes. -/
def variableCounts (o : Outline) : List (Node × Int) :=
  (.root, (o.varTypes o.root).length) ::
    o.scopes.map fun s => (.block s.id, ((o.varTypes s).length : Int))

/-- The answer to `tree`. -/
def treeText (mode : Mode) (timestamp template : Text) (mermaid : Bool) (o : Outline) : Text :=
  let g := BlockGraph.ofOutline o
  let chart := fun _ : Unit => g.flowchart (variableCounts o) BlockGraph.topDown
  if mode.json then
    let extra : List (Text × Json) := if mermaid then [("mermaid", .str (chart ()))] else []
    envelope mode timestamp "tree" [
      ("blocks", Json.ofNat o.scopes.length),
      ("proper_tree", .bool g.isProperTree)]
      (("template", .str template) :: ("blocks", .arr (summariesJson o.summaries)) :: extra)
  else if mermaid then chart ()
  else
    match g.outline with
    | [] => "(no blocks)"
    | lines => Text.join "\n" lines

/-- The levels of blocks that the answer to `tree` is made from.  A flowchart
goes down none. -/
def treeLevels (mode : Mode) (mermaid : Bool) (o : Outline) : Nat :=
  if !mode.json && mermaid then 0 else Summary.levelsAll o.summaries

/-- The answer to `tree` as lines of output. -/
def treeOutput (mode : Mode) (timestamp template : Text) (mermaid : Bool) (o : Outline) : Text :=
  echo (treeText mode timestamp template mermaid o)

/-- The answer to `context`. -/
def contextTexts (mode : Mode) (timestamp : Text) (ctx : Context) :
    Except TableFault (List Text) :=
  let l := ctx.listing
  if mode.json then
    .ok [envelope mode timestamp "context" [
      ("name", .str l.name),
      ("global_accessors", Json.ofNat l.globalAccessors.length),
      ("field_methods", Json.ofNat l.fieldMethods.length),
      ("collection_methods", Json.ofNat l.collectionMethods.length),
      ("inference_rules", Json.ofNat l.inferenceRules.length)]
      (listingJson l)]
  else do
    let rules ← Table.render ["pattern", "type"]
      (l.inferenceRules.map fun rule => [.text rule.1, .text rule.2]) 0
    return [
      "=== Lookup context: " ++ l.name ++ " ===\n",
      Report.titled "Global accessors:" ["  " ++ Text.join ", " l.globalAccessors] 0,
      [],
      Report.titled "Collection methods:" ["  " ++ Text.join ", " l.collectionMethods] 0,
      [],
      "Inference rules (first match wins):",
      rules,
      [],
      "Default type: " ++ l.defaultType,
      "Boolean type: " ++ l.booleanType,
      "Relation type: " ++ l.relationType]

/-! ## Runs -/

/-- Why a run gives no answer. -/
inductive RunFault where
  | context (fault : ContextFault)
  | unreadable (reason : PathFault)
  /-- A path of the command line is no path at all. -/
  | badName (fault : NameFault)
  | analysis (fault : AnalysisFault)
  | table (fault : TableFault)
deriving DecidableEq, Repr

namespace Invocation

section Runs

variable (limits : Limits) (tree : FileTree) (cwd : Place)

/-- How many levels of a configuration a run can follow. -/
def configLimit (inv : Invocation) : Nat :=
  match inv.task with
  | .context => limits.contextConfig
  | _ => limits.config

/-- How many levels of blocks a run can follow. -/
def blockLimit (inv : Invocation) : Nat :=
  match inv.task with
  | .scan _ => if inv.mode.json then limits.scanJson else limits.scanText
  | .tree _ _ => if inv.mode.json then limits.treeJson else limits.treeText
  | _ => 0

/-- The context of a run that looks for a configuration from the given
start. -/
def lookupContext (inv : Invocation) (start : Path) : Except ContextFault Context :=
  Context.resolve (inv.configLimit limits) tree cwd (inv.lookup.preset.map Preset.toText)
    inv.lookup.configPath start

/-- The outline of a template in the context of the run. -/
def reflect (inv : Invocation) (template : Text) : Except RunFault Outline :=
  let path := Path.ofText template
  match inv.lookupContext limits tree cwd path.parent with
  | .error fault => .error (.context fault)
  | .ok ctx =>
    match tree.read cwd path with
    | .error reason => .error (.unreadable reason)
    | .ok bytes => (Outline.ofText (Text.Utf8.decodeLossy bytes) ctx).mapError .analysis

/-- The answer of a run. -/
def run (inv : Invocation) (timestamp : Text) : Except RunFault (List Echo) :=
  match inv.task with
  | .scan template => do
    let o ← inv.reflect limits tree cwd template
    return scanEchoes inv.mode timestamp template o
  | .blocks template loops withs => do
    let o ← inv.reflect limits tree cwd template
    let answer ← (blocksText inv.mode timestamp template loops withs o).mapError .table
    return [⟨0, answer⟩]
  | .tree template mermaid => do
    let o ← inv.reflect limits tree cwd template
    return [⟨treeLevels inv.mode mermaid o, treeText inv.mode timestamp template mermaid o⟩]
  | .context => do
    let ctx ← (inv.lookupContext limits tree cwd Path.here).mapError .context
    let answer ← (contextTexts inv.mode timestamp ctx).mapError .table
    return answer.map (Echo.mk 0)

end Runs

/-- The paths that a command line names, in the order in which they are
looked at. -/
def named (inv : Invocation) : List Text :=
  inv.lookup.configPath.toList ++ inv.task.template?.toList

end Invocation

/-- The places along the paths that are named. -/
def visited (cwd : Place) (named : List Text) : List Place :=
  named.flatMap fun path => (Path.ofText path).visited cwd

/-- The places that a run looks at: those along the paths that are named,
and those where a configuration may be found. -/
def Invocation.places (inv : Invocation) (cwd : Place) : List Place :=
  let start : Path :=
    match inv.task.template? with
    | some template => (Path.ofText template).parent
    | none => Path.here
  visited cwd inv.named ++
    (Discovery.upward (start.resolve cwd)).map fun place => place ++ [Discovery.configName]

/-- The places that a command line leads to. -/
def Request.places (request : Request) (cwd : Place) : List Place :=
  match request with
  | .run inv => inv.places cwd
  | .misuse named => visited cwd named
  | _ => []

/-- How a command line ends. -/
inductive Outcome where
  /-- With an answer. -/
  | printed (output : Text)
  /-- With an answer of which only the beginning could be written. -/
  | cutShort (output : Text) (fault : WriteFault)
  /-- With a page of help. -/
  | help
  /-- With a complaint about the command line. -/
  | misuse
  /-- With the report of a fault. -/
  | failed (fault : Fault)
  /-- With a fault that no report covers. -/
  | crashed (fault : RunFault)
deriving DecidableEq, Repr

namespace Outcome

/-- The outcome of a run without an answer. -/
def ofFault : RunFault → Outcome
  | .context (.config fault) => failed (Fault.ofConfig fault)
  | .analysis fault => failed (Fault.ofAnalysis fault)
  | fault => crashed fault

/-- The outcome of a run with an answer. -/
def ofEchoes (limit : Nat) (echoes : List Echo) : Outcome :=
  match emit limit echoes with
  | (output, none) => printed output
  | (output, some fault) => cutShort output fault

/-- The exit code of the program. -/
def exitCode : Outcome → Int
  | printed _ => 0
  | cutShort _ _ => 1
  | help => 0
  | misuse => 2
  | failed fault => fault.exitCode
  | crashed _ => 1

/-- What goes to the error stream, where surrogates are written as escapes. -/
def errorOutput : Outcome → Text
  | failed fault => Text.Utf8.withEscapes (echo ("Error: " ++ fault.message))
  | _ => []

end Outcome

/-- The line that tells the version. -/
def versionLine : Text :=
  "cli, version " ++ Envelope.version

/-- How a command line ends in which a path names no file.  The first such
path counts. -/
def refusal? (tree : FileTree) (cwd : Place) (named : List Text) : Option Outcome :=
  named.findSome? fun path =>
    match path.nameFault? with
    | some fault => some (.crashed (.badName fault))
    | none => if tree.isFileWritten cwd path then none else some .misuse

/-- Answers a command line. -/
def execute (limits : Limits) (args : List Text) (tree : FileTree) (cwd : Place)
    (timestamp : Text) : Outcome :=
  match Request.ofArguments args with
  | .misuse named => (refusal? tree cwd named).getD .misuse
  | .showHelp => .help
  | .showVersion => .printed (echo versionLine)
  | .run inv =>
    match refusal? tree cwd inv.named with
    | some outcome => outcome
    | none =>
      match inv.run limits tree cwd timestamp with
      | .ok echoes => .ofEchoes (inv.blockLimit limits) echoes
      | .error fault => .ofFault fault

end TemplateScopes.Command
