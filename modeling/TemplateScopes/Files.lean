import TemplateScopes.Text.Quoted
import TemplateScopes.Text.Utf8

/-!
# Files

A file tree without links, and the ways in which a path names a place in
it.

* A `Place` is the list of names on the way down from the root of the
  tree.
* `Path.ofText` reads a path with its empty and `.` steps left out, and
  `Path.resolve` follows it by its names alone, whether or not anything is
  there.
* `FileTree.locate` follows a path as a file system does: every step has
  to start from a directory that exists, and neither a step nor the whole
  path may be too long.

Names are bytes to a file system.  `nameBytes?` gives those of a text, and
`Text.nameFault?` says which texts are no names at all.  Every name of a
tree stands in the one form in which a text is made from its bytes.
-/

namespace TemplateScopes

/-- The names on the way down from the root of a file tree. -/
abbrev Place := List Text

/-! ## Names -/

/-- Why the file system cannot be asked for a name. -/
inductive NameFault where
  /-- A surrogate stands in it for which there is no byte. -/
  | unencodable
  /-- The null character stands in it, which ends a name. -/
  | null
deriving DecidableEq, Repr

/-- The words for a fault of a name, if it has any. -/
def NameFault.message? : NameFault → Option Text
  | unencodable => none
  | null => some "embedded null byte"

/-- The bytes of a code point in a name.  The surrogates from U+DC80 to
U+DCFF stand for the bytes from 0x80 on that belong to no character. -/
def nameBytes? : CodePoint → Option (List UInt8)
  | .char c => some (Text.Utf8.encodeChar c)
  | .surrogate index =>
    if 0x480 ≤ index.val && index.val ≤ 0x4FF then some [UInt8.ofNat (index - 0x400)] else none

/-- The bytes of a name. -/
def Text.nameBytes (t : Text) : List UInt8 :=
  t.flatMap fun c => (nameBytes? c).getD []

/-- What is wrong with a text as a name or a path. -/
def Text.nameFault? (t : Text) : Option NameFault :=
  if t.any fun c => (nameBytes? c).isNone then some .unencodable
  else if t.contains '\x00' then some .null
  else none

/-! ## Paths -/

/-- Where a path starts.  Two slashes mean the root as well, but remain two
where the path is shown. -/
inductive Anchor where
  | here
  | root
  | doubleRoot
deriving DecidableEq, Repr

namespace Anchor

/-- The slashes at the beginning of a path. -/
def toText : Anchor → Text
  | here => ""
  | root => "/"
  | doubleRoot => "//"

/-- The start of the path in a text.  Three slashes or more are one. -/
def ofText : Text → Anchor
  | '/' :: '/' :: '/' :: _ => root
  | '/' :: '/' :: _ => doubleRoot
  | '/' :: _ => root
  | _ => here

/-- The place where a path starts that is followed from a working
directory. -/
def place (anchor : Anchor) (cwd : Place) : Place :=
  match anchor with
  | here => cwd
  | _ => []

end Anchor

/-- A path in the form in which it is shown. -/
structure Path where
  anchor : Anchor
  steps : List Text
deriving DecidableEq, Repr

namespace Path

/-- The path of the working directory. -/
def here : Path :=
  ⟨.here, []⟩

/-- The parts of a text between slashes. -/
def splitSlashes : Text → List Text
  | [] => [[]]
  | c :: t =>
    if c = '/' then [] :: splitSlashes t
    else
      match splitSlashes t with
      | [] => [[c]]
      | part :: rest => (c :: part) :: rest

/-- The path that a text names. -/
def ofText (t : Text) : Path where
  anchor := Anchor.ofText t
  steps := (splitSlashes t).filter fun step => !(step.isEmpty || step = ".")

/-- The path as text. -/
def toText (p : Path) : Text :=
  if p = here then "." else p.anchor.toText ++ Text.join "/" p.steps

/-- The path without its last step. -/
def parent (p : Path) : Path :=
  { p with steps := p.steps.dropLast }

/-- The absolute path to a place. -/
def ofPlace (place : Place) : Path :=
  ⟨.root, place⟩

/-- What is wrong with the first step of a path that is no name. -/
def stepFault? (p : Path) : Option NameFault :=
  p.steps.findSome? Text.nameFault?

/-- Follows one step by its name alone. -/
def follow (place : Place) (step : Text) : Place :=
  if step = ".." then place.dropLast else place ++ [step]

/-- The place that a path names from a working directory, by its names
alone. -/
def resolve (p : Path) (cwd : Place) : Place :=
  p.steps.foldl follow (p.anchor.place cwd)

/-- The places on the way along a path, the start included. -/
def visited (p : Path) (cwd : Place) : List Place :=
  (List.range (p.steps.length + 1)).map fun k =>
    resolve { p with steps := p.steps.take k } cwd

end Path

/-! ## File trees -/

/-- What stands at a place. -/
inductive FileNode where
  | file (bytes : List UInt8)
  | directory
deriving DecidableEq

/-- Files with their contents, and further directories.  The directories
around them exist as well. -/
structure FileTree where
  files : List (Place × List UInt8)
  directories : List Place

/-- Why nothing can be read at a path. -/
inductive PathFault where
  | missing
  | notDirectory
  | isDirectory
  | nameTooLong
deriving DecidableEq, Repr

/-- The words of the system for a fault, with its number. -/
def PathFault.message : PathFault → Text
  | missing => "[Errno 2] No such file or directory"
  | notDirectory => "[Errno 20] Not a directory"
  | isDirectory => "[Errno 21] Is a directory"
  | nameTooLong => "[Errno 36] File name too long"

/-- The number of bytes that a step of a path may have. -/
def maxNameBytes : Nat := 255

/-- The number of bytes that a path may have. -/
def maxPathBytes : Nat := 4095

/-- Whether a text has more bytes than the limit. -/
def tooLong (limit : Nat) (t : Text) : Bool :=
  limit < t.nameBytes.length

namespace FileTree

/-- Whether a directory stands at a place because something is in it. -/
def isDirectory (tree : FileTree) (place : Place) : Bool :=
  place.isEmpty || tree.files.any (fun entry => place.isPrefixOf entry.1) ||
    tree.directories.any place.isPrefixOf

/-- What stands at a place. -/
def node? (tree : FileTree) (place : Place) : Option FileNode :=
  match tree.files.find? fun entry => entry.1 = place with
  | some entry => some (.file entry.2)
  | none => if tree.isDirectory place then some .directory else none

/-- Whether a file stands at a place. -/
def isFile (tree : FileTree) (place : Place) : Bool :=
  match tree.node? place with
  | some (.file _) => true
  | _ => false

/-- The place that steps lead to, each from a directory that exists to
something that exists. -/
def walk (tree : FileTree) (place : Place) : List Text → Except PathFault Place
  | [] => .ok place
  | step :: rest =>
    match tree.node? place with
    | none => .error .missing
    | some (.file _) => .error .notDirectory
    | some .directory =>
      if tooLong maxNameBytes step then .error .nameTooLong
      else
        let next := if step = "." then place else Path.follow place step
        match tree.node? next with
        | none => .error .missing
        | some _ => tree.walk next rest

/-- What stands at the end of steps from a start. -/
def locateFrom (tree : FileTree) (start : Place) (steps : List Text) :
    Except PathFault FileNode :=
  match tree.walk start steps with
  | .error fault => .error fault
  | .ok place =>
    match tree.node? place with
    | none => .error .missing
    | some node => .ok node

/-- What stands at the end of a path. -/
def locate (tree : FileTree) (cwd : Place) (p : Path) : Except PathFault FileNode :=
  if tooLong maxPathBytes p.toText then .error .nameTooLong
  else tree.locateFrom (p.anchor.place cwd) p.steps

/-- The steps of a path just as it is written.  A slash at the end asks for
a directory. -/
def writtenSteps (t : Text) : List Text :=
  let parts := Path.splitSlashes t
  parts.filter (fun part => !part.isEmpty) ++
    if parts.getLast? = some [] then [("." : Text)] else []

/-- What stands at the end of a path just as it is written. -/
def locateWritten (tree : FileTree) (cwd : Place) (t : Text) : Except PathFault FileNode :=
  if t.isEmpty then .error .missing
  else if tooLong maxPathBytes t then .error .nameTooLong
  else tree.locateFrom ((Anchor.ofText t).place cwd) (writtenSteps t)

/-- Whether a path just as it is written names a file. -/
def isFileWritten (tree : FileTree) (cwd : Place) (t : Text) : Bool :=
  match tree.locateWritten cwd t with
  | .ok (.file _) => true
  | _ => false

/-- The contents of the file at a path. -/
def read (tree : FileTree) (cwd : Place) (p : Path) : Except PathFault (List UInt8) :=
  match tree.locate cwd p with
  | .ok (.file bytes) => .ok bytes
  | .ok .directory => .error .isDirectory
  | .error fault => .error fault

end FileTree

end TemplateScopes
