import TemplateScopes.Json.Value

/-!
# Reading JSON

A reader of JSON texts that also takes `NaN`, `Infinity` and `-Infinity`
as numbers.  Of two members with the same key the later one counts, at the
place of the first.  Only space, tab, line feed and carriage return
separate tokens, and control characters in strings are refused.  An escape
may name a surrogate, and a surrogate that has no partner stays one.

Every reader gives what it read together with the rest of the text.  The
readers of values count down two numbers: the levels that arrays and
objects may still go down, which are the caller's to choose, and a number
of steps, of which twice the length of the text is always enough.
-/

namespace TemplateScopes

/-- Why a text is not read as JSON. -/
inductive JsonFault where
  /-- It is not well formed. -/
  | malformed
  /-- It holds a whole number with more digits than are read. -/
  | longNumber (digits : Nat)
  /-- Its arrays and objects go down more levels than the reader can
  follow. -/
  | tooDeep
deriving DecidableEq, Repr

namespace Json

/-- The most digits that a whole number may have. -/
def maxDigits : Nat := 4300

/-- Whether a character may stand between tokens. -/
def isSpace (c : CodePoint) : Bool :=
  c = ' ' || c = '\t' || c = '\n' || c = '\r'

/-- The text from the next token on. -/
def skipSpace (t : Text) : Text :=
  t.dropWhile isSpace

/-! ## Strings -/

/-- The value of a hexadecimal digit. -/
def hexDigit? (c : CodePoint) : Option Nat :=
  if '0' ≤ c && c ≤ '9' then some (c.toNat - 0x30)
  else if 'a' ≤ c && c ≤ 'f' then some (c.toNat - 0x57)
  else if 'A' ≤ c && c ≤ 'F' then some (c.toNat - 0x37)
  else none

/-- The code of four hexadecimal digits, and the rest. -/
def readUnit? : Text → Option (Nat × Text)
  | a :: b :: c :: d :: rest => do
    let a ← hexDigit? a
    let b ← hexDigit? b
    let c ← hexDigit? c
    let d ← hexDigit? d
    return (((a * 16 + b) * 16 + c) * 16 + d, rest)
  | _ => none

/-- Whether a unit is the first surrogate of a pair. -/
def isHigh (n : Nat) : Bool :=
  0xD800 ≤ n && n ≤ 0xDBFF

/-- Whether a unit is the second surrogate of a pair. -/
def isLow (n : Nat) : Bool :=
  0xDC00 ≤ n && n ≤ 0xDFFF

/-- The code point of one or two units behind `\u`.  Two surrogates that fit
make one character. -/
def readCodePoint? (t : Text) : Option (CodePoint × Text) := do
  let (unit, rest) ← readUnit? t
  if isHigh unit then
    match rest with
    | '\\' :: 'u' :: behind =>
      let (low, behind) ← readUnit? behind
      if isLow low then
        return (.ofNat (0x10000 + (unit - 0xD800) * 0x400 + (low - 0xDC00)), behind)
      else
        return (.ofNat unit, rest)
    | _ => return (.ofNat unit, rest)
  else
    return (.ofNat unit, rest)

/-- The character that a letter behind a backslash stands for. -/
def unescape? (c : CodePoint) : Option CodePoint :=
  if c = '"' || c = '\\' || c = '/' then some c
  else if c = 'b' then some (.char '\x08')
  else if c = 'f' then some (.char '\x0c')
  else if c = 'n' then some (.char '\n')
  else if c = 'r' then some (.char '\r')
  else if c = 't' then some (.char '\t')
  else none

/-- A string behind its opening quote, and the rest. -/
def readString? : Nat → Text → Option (Text × Text)
  | 0, _ => none
  | _ + 1, [] => none
  | steps + 1, c :: rest =>
    if c = '"' then some ([], rest)
    else if c.toNat < 0x20 then none
    else if c = '\\' then
      match rest with
      | [] => none
      | 'u' :: behind => do
        let (read, behind) ← readCodePoint? behind
        let (more, behind) ← readString? steps behind
        return (read :: more, behind)
      | letter :: behind => do
        let read ← unescape? letter
        let (more, behind) ← readString? steps behind
        return (read :: more, behind)
    else do
      let (more, behind) ← readString? steps rest
      return (c :: more, behind)

/-! ## Numbers -/

/-- Whether a character is a decimal digit. -/
def isDigit (c : CodePoint) : Bool :=
  '0' ≤ c && c ≤ '9'

/-- The number of a sequence of digits. -/
def digitsValue (digits : Text) : Nat :=
  digits.foldl (fun n c => n * 10 + (c.toNat - 0x30)) 0

/-- The digits of a whole number: a zero alone, or digits that start with
no zero. -/
def wholeDigits (t : Text) : Text :=
  match t with
  | '0' :: _ => ['0']
  | _ => t.takeWhile isDigit

/-- The places behind a point, with the point. -/
def fraction (t : Text) : Text :=
  match t with
  | '.' :: rest =>
    match rest.takeWhile isDigit with
    | [] => []
    | digits => '.' :: digits
  | _ => []

/-- The exponent with its mark and sign. -/
def exponent (t : Text) : Text :=
  match t with
  | mark :: rest =>
    if mark = 'e' || mark = 'E' then
      let sign : Text :=
        match rest with
        | '+' :: _ => ['+']
        | '-' :: _ => ['-']
        | _ => []
      match (rest.drop sign.length).takeWhile isDigit with
      | [] => []
      | digits => (mark :: sign) ++ digits
    else []
  | [] => []

/-- A number, and the rest. -/
def readNumber (t : Text) : Except JsonFault (Json × Text) :=
  let (sign, unsigned) : Text × Text :=
    match t with
    | '-' :: rest => (['-'], rest)
    | _ => ([], t)
  let whole := wholeDigits unsigned
  if whole.isEmpty then .error .malformed
  else
    let rest := unsigned.drop whole.length
    let places := fraction rest
    let rest := rest.drop places.length
    let power := exponent rest
    let rest := rest.drop power.length
    if places.isEmpty && power.isEmpty then
      if whole.length > maxDigits then .error (.longNumber whole.length)
      else if sign.isEmpty then .ok (.int (digitsValue whole), rest)
      else .ok (.int (-(digitsValue whole : Int)), rest)
    else .ok (.real (sign ++ whole ++ places ++ power), rest)

/-! ## Values -/

/-- A word with a fixed value at the beginning of a text. -/
def readWord? (t : Text) : Option (Json × Text) :=
  let words : List (Text × Json) :=
    [("null", .null), ("true", .bool true), ("false", .bool false), ("NaN", .real "NaN"),
      ("Infinity", .real "Infinity"), ("-Infinity", .real "-Infinity")]
  words.findSome? fun word => (Text.after? word.1 t).map fun rest => (word.2, rest)

/-- Goes one level down, if there is one left. -/
def descend {α : Type} (levels : Nat) (read : Nat → Except JsonFault α) : Except JsonFault α :=
  match levels with
  | 0 => .error .tooDeep
  | levels + 1 => read levels

mutual

/-- A value at the beginning of a text. -/
def readValue (levels : Nat) : Nat → Text → Except JsonFault (Json × Text)
  | 0, _ => .error .malformed
  | steps + 1, t =>
    match t with
    | '"' :: rest =>
      match readString? (rest.length + 1) rest with
      | some (read, rest) => .ok (.str read, rest)
      | none => .error .malformed
    | '[' :: rest =>
      descend levels fun levels =>
        match skipSpace rest with
        | ']' :: rest => .ok (.arr [], rest)
        | rest => do
          let (items, rest) ← readItems levels steps rest
          return (.arr items, rest)
    | '{' :: rest =>
      descend levels fun levels =>
        match skipSpace rest with
        | '}' :: rest => .ok (.obj [], rest)
        | rest => do
          let (members, rest) ← readMembers levels steps [] rest
          return (.obj members, rest)
    | _ =>
      match readWord? t with
      | some read => .ok read
      | none => readNumber t

/-- The items of an array up to its closing bracket. -/
def readItems (levels : Nat) : Nat → Text → Except JsonFault (List Json × Text)
  | 0, _ => .error .malformed
  | steps + 1, t => do
    let (item, rest) ← readValue levels steps t
    match skipSpace rest with
    | ',' :: rest =>
      let (items, rest) ← readItems levels steps (skipSpace rest)
      return (item :: items, rest)
    | ']' :: rest => return ([item], rest)
    | _ => .error .malformed

/-- The members of an object up to its closing brace, added to those
before. -/
def readMembers (levels : Nat) :
    Nat → OrderedMap Json → Text → Except JsonFault (OrderedMap Json × Text)
  | 0, _, _ => .error .malformed
  | steps + 1, before, t =>
    match t with
    | '"' :: rest =>
      match readString? (rest.length + 1) rest with
      | none => .error .malformed
      | some (key, rest) =>
        match skipSpace rest with
        | ':' :: rest => do
          let (value, rest) ← readValue levels steps (skipSpace rest)
          let members := OrderedMap.insert before key value
          match skipSpace rest with
          | ',' :: rest => readMembers levels steps members (skipSpace rest)
          | '}' :: rest => return (members, rest)
          | _ => .error .malformed
        | _ => .error .malformed
    | _ => .error .malformed

end

/-- The value of a whole text whose arrays and objects go down no more than
the given levels. -/
def read (levels : Nat) (t : Text) : Except JsonFault Json := do
  let (value, rest) ← readValue levels (2 * t.length + 2) (skipSpace t)
  if (skipSpace rest).isEmpty then return value else .error .malformed

end Json

end TemplateScopes
