import TemplateScopes.Json.Value

/-!
# Envelopes

The JSON output of a command is wrapped in an envelope that says what it
is.  What changes from run to run is kept in a member of its own.  The
compact envelope holds the command and its results only.
-/

namespace TemplateScopes.Envelope

/-- The version of the program. -/
def version : Text := "0.1.0"

/-- The name of the schema of envelopes. -/
def schemaName : Text := "tplreflect-envelope-v1"

/-- The version of the schema of envelopes. -/
def schemaVersion : Text := "1.0.0"

/-- A summary, the empty object if it says nothing. -/
def summaryOrEmpty : Json → Json
  | .null => .obj []
  | .bool false => .obj []
  | .int 0 => .obj []
  | .str [] => .obj []
  | .arr [] => .obj []
  | summary => summary

/-- The envelope of a result with all that describes it. -/
def full (timestamp command : Text) (summary : Json) (payload : List (Text × Json)) : Json :=
  let head : OrderedMap Json := [
    ("schema", .str schemaName),
    ("schema_version", .str schemaVersion),
    ("command", .str command),
    ("version", .str version),
    ("summary", summaryOrEmpty summary)]
  .obj ((head.insertAll payload).insert "_meta" (.obj [("timestamp", .str timestamp)]))

/-- The envelope of a result and no more. -/
def compact (command : Text) (summary : Json) (payload : List (Text × Json)) : Json :=
  let head : OrderedMap Json := [("command", .str command), ("summary", summary)]
  .obj (head.insertAll payload)

end TemplateScopes.Envelope
