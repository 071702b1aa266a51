import TemplateScopes.OrderedMap

/-!
# JSON values

Values with objects in insertion order, and their printed form: two
spaces of indentation per level, the members of an object in the order of
their keys, and ASCII only.
-/

namespace TemplateScopes

/-- A JSON value.  A number that is not whole is kept as it was
written. -/
inductive Json where
  | null
  | bool (b : Bool)
  | int (n : Int)
  | real (written : Text)
  | str (t : Text)
  | arr (items : List Json)
  | obj (members : List (Text × Json))
deriving Inhabited

namespace Json

/-- A list of texts. -/
def texts (ts : List Text) : Json :=
  .arr (ts.map .str)

/-- A map from texts to texts. -/
def textMap (m : OrderedMap Text) : Json :=
  .obj (m.map fun entry => (entry.1, .str entry.2))

/-- A number that is not negative. -/
def ofNat (n : Nat) : Json :=
  .int n

/-! ## Sorting -/

/-- Members in the order of their keys. -/
def sortMembers (members : List (Text × Json)) : List (Text × Json) :=
  members.mergeSort fun a b => a.1 ≤ b.1

mutual

/-- The value with the members of all objects in the order of their
keys. -/
def sorted : Json → Json
  | .arr items => .arr (sortedItems items)
  | .obj members => .obj (sortMembers (sortedMembers members))
  | value => value

/-- Sorts inside every item. -/
def sortedItems : List Json → List Json
  | [] => []
  | item :: rest => sorted item :: sortedItems rest

/-- Sorts inside every member. -/
def sortedMembers : List (Text × Json) → List (Text × Json)
  | [] => []
  | (key, value) :: rest => (key, sorted value) :: sortedMembers rest

end

/-! ## Printing -/

/-- A 16-bit unit by its code. -/
def escapeUnit (n : Nat) : Text :=
  '\\' :: 'u' :: Text.hex 4 n

/-- A code point inside a string.  A surrogate is one unit, as any other code
point below U+10000. -/
def escapeChar (c : CodePoint) : Text :=
  let n := c.toNat
  if c = '"' || c = '\\' then ['\\', c]
  else if c = '\n' then ['\\', 'n']
  else if c = '\r' then ['\\', 'r']
  else if c = '\t' then ['\\', 't']
  else if n = 0x08 then ['\\', 'b']
  else if n = 0x0C then ['\\', 'f']
  else if 0x20 ≤ n && n < 0x7F then [c]
  else if n < 0x10000 then escapeUnit n
  else escapeUnit (0xD800 + (n - 0x10000) / 0x400) ++ escapeUnit (0xDC00 + (n - 0x10000) % 0x400)

/-- A text as a string. -/
def quote (t : Text) : Text :=
  "\"" ++ t.flatMap escapeChar ++ "\""

/-- A line break and the indentation of a level. -/
def newLine (level : Nat) : Text :=
  '\n' :: Text.spaces (2 * level)

mutual

/-- A value on the given level. -/
def render (level : Nat) : Json → Text
  | .null => "null"
  | .bool true => "true"
  | .bool false => "false"
  | .int n => Text.ofInt n
  | .real written => written
  | .str t => quote t
  | .arr [] => "[]"
  | .arr (item :: rest) =>
    "[" ++ newLine (level + 1) ++ render (level + 1) item ++ renderItems (level + 1) rest ++
      newLine level ++ "]"
  | .obj [] => ['{', '}']
  | .obj ((key, value) :: rest) =>
    "\x7b" ++ newLine (level + 1) ++ quote key ++ ": " ++ render (level + 1) value ++
      renderMembers (level + 1) rest ++ newLine level ++ "\x7d"

/-- The items behind the first one. -/
def renderItems (level : Nat) : List Json → Text
  | [] => []
  | item :: rest => "," ++ newLine level ++ render level item ++ renderItems level rest

/-- The members behind the first one. -/
def renderMembers (level : Nat) : List (Text × Json) → Text
  | [] => []
  | (key, value) :: rest =>
    "," ++ newLine level ++ quote key ++ ": " ++ render level value ++ renderMembers level rest

end

/-- The printed form of a value. -/
def print (value : Json) : Text :=
  render 0 value.sorted

end Json

end TemplateScopes
