import TemplateScopes.Files
import TemplateScopes.Json.Reader
import TemplateScopes.Lookup.Preset
import TemplateScopes.Text.Utf8

/-!
# Lookup configuration

A configuration file is a JSON object with entries for a context: tables
that grow, types that are replaced, and the name of a preset.  What it
does not mention stays as it is, and unknown keys are ignored.

* `Config.ofJson` checks a value key by key in a fixed order and gives the
  first fault.
* `Config.load` reads a configuration from a file.  How many levels its
  arrays and objects may go down is up to the caller.
* `Config.context` puts the entries on the base context, and the preset on
  top of them.
-/

namespace TemplateScopes

/-- What is wrong with a configuration file. -/
inductive ConfigFault where
  | unreadable (path : Text) (reason : PathFault)
  | notJson (path : Text)
  | notObject
  | notText (key : Text)
  | unknownPreset (name : Text)
  | notTextList (key : Text)
  | notMethodMap
  | notRuleList
  | notRule (index : Nat)
deriving DecidableEq, Repr

/-- The words for what is wrong with a configuration file. -/
def ConfigFault.message : ConfigFault → Text
  | unreadable path reason =>
    "Cannot read config " ++ path ++ ": " ++ reason.message ++ ": " ++ path.quoted
  | notJson path => "Invalid JSON in " ++ path
  | notObject => "Lookup config must be a JSON object"
  | notText key => "'" ++ key ++ "' must be a string"
  | unknownPreset name => Preset.unknownMessage name
  | notTextList key => "'" ++ key ++ "' must be a list of strings"
  | notMethodMap => "'field_methods' must map method names to type names"
  | notRuleList => "'infer_datatype' must be a list of [pattern, type] pairs"
  | notRule index =>
    "infer_datatype entry " ++ Text.ofNat index ++ " must be a [pattern, type] pair"

/-- Why no context comes out of a configuration. -/
inductive ContextFault where
  /-- The configuration is wrong. -/
  | config (fault : ConfigFault)
  /-- The file is not well-formed UTF-8. -/
  | undecodable
  /-- The file holds a whole number that is too long to be read. -/
  | longNumber (digits : Nat)
  /-- No preset has the name that was asked for. -/
  | unknownPreset (name : Text)
  /-- Its arrays and objects go down more levels than the reader can
  follow. -/
  | tooDeep
  /-- A path that is to be followed is no path at all. -/
  | badName (fault : NameFault)
  /-- The path where the search for a configuration starts is too long, or
  that of the first file it looks for. -/
  | startTooLong (start : Path)
deriving DecidableEq, Repr

/-- The words for a fault, if it has any. -/
def ContextFault.message? : ContextFault → Option Text
  | config fault => some fault.message
  | undecodable => none
  | longNumber digits =>
    some ("Exceeds the limit (" ++ Text.ofNat Json.maxDigits ++
      " digits) for integer string conversion: value has " ++ Text.ofNat digits ++
      " digits; use sys.set_int_max_str_digits() to increase the limit")
  | unknownPreset name => some (Preset.unknownMessage name)
  | tooDeep => none
  | badName fault => fault.message?
  | startTooLong start =>
    some (PathFault.nameTooLong.message ++ ": " ++ start.toText.quoted)

/-- The checked contents of a configuration file. -/
structure Config where
  preset : Option Preset
  layer : Layer
deriving DecidableEq, Repr

namespace Config

/-! ## Checking -/

/-- The text under a key. -/
def text? (members : OrderedMap Json) (key : Text) : Except ConfigFault (Option Text) :=
  match members.get? key with
  | none => .ok none
  | some (.str t) => .ok (some t)
  | some _ => .error (.notText key)

/-- The texts of a list that holds nothing else. -/
def allTexts? : List Json → Option (List Text)
  | [] => some []
  | .str t :: rest => (allTexts? rest).map (t :: ·)
  | _ :: _ => none

/-- The list of texts under a key. -/
def texts (members : OrderedMap Json) (key : Text) : Except ConfigFault (List Text) :=
  match members.get? key with
  | none => .ok []
  | some (.arr items) =>
    match allTexts? items with
    | some ts => .ok ts
    | none => .error (.notTextList key)
  | some _ => .error (.notTextList key)

/-- The entries of a map that holds nothing but texts. -/
def allEntries? : List (Text × Json) → Option (List (Text × Text))
  | [] => some []
  | (key, .str t) :: rest => (allEntries? rest).map ((key, t) :: ·)
  | _ :: _ => none

/-- The types that methods imply. -/
def methods (members : OrderedMap Json) : Except ConfigFault (List (Text × Text)) :=
  match members.get? "field_methods" with
  | none => .ok []
  | some (.obj entries) =>
    match allEntries? entries with
    | some ms => .ok ms
    | none => .error .notMethodMap
  | some _ => .error .notMethodMap

/-- The rules of a list, the first of which has the given index. -/
def rulesFrom (index : Nat) : List Json → Except ConfigFault (List (Text × Text))
  | [] => .ok []
  | .arr [.str pattern, .str type] :: rest => do
    let rules ← rulesFrom (index + 1) rest
    return (pattern, type) :: rules
  | _ :: _ => .error (.notRule index)

/-- The rules that guess a type from a name. -/
def rules (members : OrderedMap Json) : Except ConfigFault (List (Text × Text)) :=
  match members.get? "infer_datatype" with
  | none => .ok []
  | some (.arr items) => rulesFrom 0 items
  | some _ => .error .notRuleList

/-- The preset of the given name. -/
def preset? (name : Option Text) : Except ConfigFault (Option Preset) :=
  match name with
  | none => .ok none
  | some name =>
    match Preset.ofText? name with
    | some preset => .ok (some preset)
    | none => .error (.unknownPreset name)

/-- The configuration that a JSON value holds. -/
def ofJson (value : Json) : Except ConfigFault Config :=
  match value with
  | .obj members => do
    let presetName ← text? members "preset"
    let defaultType ← text? members "default_datatype"
    let booleanType ← text? members "boolean_type"
    let relationType ← text? members "relation_type"
    let preset ← preset? presetName
    let globalAccessors ← texts members "global_accessors"
    let collectionMethods ← texts members "collection_methods"
    let knownTypes ← texts members "known_types"
    let fieldMethods ← methods members
    let inferenceRules ← rules members
    return {
      preset
      layer := {
        globalAccessors, fieldMethods, collectionMethods, inferenceRules, defaultType,
        booleanType, relationType, knownTypes } }
  | _ => .error .notObject

/-! ## Loading -/

/-- The configuration in the contents of the file at `path`. -/
def ofBytes (levels : Nat) (path : Text) (bytes : List UInt8) : Except ContextFault Config :=
  match Text.Utf8.decode? bytes with
  | none => .error .undecodable
  | some cs =>
    match Json.read levels (Text.ofChars cs) with
    | .error .malformed => .error (.config (.notJson path))
    | .error (.longNumber digits) => .error (.longNumber digits)
    | .error .tooDeep => .error .tooDeep
    | .ok value => (ofJson value).mapError .config

/-- The configuration in the file at a path. -/
def load (levels : Nat) (tree : FileTree) (cwd : Place) (path : Path) :
    Except ContextFault Config :=
  match path.toText.nameFault? with
  | some fault => .error (.badName fault)
  | none =>
    match tree.read cwd path with
    | .error reason => .error (.config (.unreadable path.toText reason))
    | .ok bytes => ofBytes levels path.toText bytes

/-! ## Contexts -/

/-- A name that may be left out, an empty one counting as none. -/
def given? (name : Option Text) : Option Text :=
  name.filter fun name => !name.isEmpty

/-- The name of the preset to use: the one asked for, or else the one of
the configuration, or else `base`. -/
def presetName (config : Config) (asked : Option Text) : Text :=
  match given? asked with
  | some name => name
  | none => (config.preset.getD .base).toText

/-- The context of a configuration, with the preset asked for in place of
its own. -/
def context (config : Config) (asked : Option Text) : Except ContextFault Context :=
  ((Context.base.extend config.layer).withPreset (config.presetName asked)).mapError
    fun unknown => .unknownPreset unknown.name

end Config

end TemplateScopes
