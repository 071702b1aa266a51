import TemplateScopes.Command.Run
import TemplateScopes.Report.Timestamp
import Std.Time.DateTime

/-!
# The program

The outer layer of the program: it looks at the places that a command
line can lead to, lets `Command.execute` answer, and prints what comes
back.
-/

namespace TemplateScopes.Program

/-- A text as a string, with an escape for each surrogate. -/
def string (t : Text) : String :=
  String.ofList <| (Text.Utf8.withEscapes t).filterMap fun
    | .char c => some c
    | .surrogate _ => none

/-- How deep the program follows what is nested. -/
def limits : Command.Limits where
  config := 980
  contextConfig := 980
  scanText := 980
  scanJson := 490
  treeText := 980
  treeJson := 490

/-- What stands at a place of the file system.  The system answers an
attempt to read a directory with its error number 21. -/
def look (place : Place) : IO (Option FileNode) := do
  try
    let bytes ← IO.FS.readBinFile (string (Path.ofPlace place).toText)
    return some (.file bytes.toList)
  catch
    | .inappropriateType _ 21 _ => return some .directory
    | _ => return none

/-- The part of the file system that lies at the given places. -/
def snapshot (places : List Place) : IO FileTree := do
  let mut tree : FileTree := ⟨[], []⟩
  for place in places do
    match ← look place with
    | some (.file bytes) => tree := { tree with files := (place, bytes) :: tree.files }
    | some .directory => tree := { tree with directories := place :: tree.directories }
    | none => pure ()
  return tree

/-- The place of the working directory. -/
def workingDirectory : IO Place := do
  return (Path.ofText (← IO.currentDir).toString).steps

/-- The current time in the form of envelopes. -/
def now : IO Text := do
  let seconds := (← Std.Time.Timestamp.now).toSecondsSinceUnixEpoch.val
  return Timestamp.ofSeconds seconds.toNat

/-- What is said about a command line that is wrong, or about which help is
wanted. -/
def usage : Text :=
  "Usage: cli [--json] [--compact] [--version] [--help] (scan|blocks|tree|context) [ARGS]...\n"

/-- What is said about a fault that no report covers. -/
def crashMessage : Command.RunFault → Text
  | .context fault => fault.message?.getD "The configuration cannot be read."
  | .unreadable reason => reason.message
  | .badName fault => fault.message?.getD "A path has no bytes."
  | .analysis fault => (Fault.ofAnalysis fault).message
  | .table fault => fault.message

/-- What is said about an answer that is not written to its end. -/
def cutMessage : Command.WriteFault → Text
  | .tooDeep => "The blocks go down too many levels."
  | .unencodable fault => fault.message

/-- What goes to the output and to the error stream. -/
def streams (outcome : Command.Outcome) : Text × Text :=
  match outcome with
  | .printed output => (output, [])
  | .cutShort output fault => (output, cutMessage fault ++ "\n")
  | .help => (usage, [])
  | .misuse => ([], usage)
  | .failed _ => ([], outcome.errorOutput)
  | .crashed fault => ([], crashMessage fault ++ "\n")

end TemplateScopes.Program

open TemplateScopes in
/-- Answers the command line. -/
def main (args : List String) : IO UInt32 := do
  let args : List Text := args.map fun arg => Text.ofChars arg.toList
  let cwd ← Program.workingDirectory
  let tree ← Program.snapshot ((Command.Request.ofArguments args).places cwd)
  let outcome := Command.execute Program.limits args tree cwd (← Program.now)
  let (output, errors) := Program.streams outcome
  IO.print (Program.string output)
  IO.eprint (Program.string errors)
  return UInt32.ofNat outcome.exitCode.toNat
