import TemplateScopes.Scope.Outline
import TemplateScopes.Text.Utf8

/-!
# Cached analysis

A reflector analyses templates in one context at a time and keeps the
outlines that were used last.  An outline is found again by the context in
use and the normalised text, so that a change of the context never gives
an outline of the tables before.  The key is made from the bytes of the
text.  While outlines are kept, a text without bytes is therefore refused,
even if it would have an outline.

Two contexts with equal tables are still two contexts: a context is known
by its number.  An outline has a serial number, which tells whether a
request gave a new outline or one that was given before.

* `Reflector.process`, `useContext`, `resize` and `clear` are what a
  reflector can do, and `Reflector.Request` names them as data.
* `Reflector.handle` carries out one request, and `Reflector.session` a
  sequence of them.
-/

namespace TemplateScopes

/-- What an outline is found by: the number of the context and the
normalised text. -/
structure CacheKey where
  context : Nat
  code : Text
deriving DecidableEq, Repr

/-- An outline in the cache. -/
structure CacheEntry where
  key : CacheKey
  serial : Nat
  outline : Outline

/-- Analyses templates and keeps outlines. -/
structure Reflector where
  /-- The contexts to choose from.  Any further number stands for a base
  context of its own. -/
  contexts : List Context
  /-- The number of the context in use. -/
  current : Nat
  /-- How many outlines to keep, none if not positive. -/
  capacity : Int
  /-- The outlines kept, the one used longest ago first. -/
  entries : List CacheEntry
  /-- How many outlines were made so far. -/
  made : Nat

namespace Reflector

/-- The context in use. -/
def context (r : Reflector) : Context :=
  r.contexts.getD r.current Context.base

/-- What the outline of a template would be found by. -/
def keyOf (r : Reflector) (t : Text) : CacheKey :=
  ⟨r.current, normalize t⟩

/-- The outline that the cache holds for a key. -/
def cached? (r : Reflector) (key : CacheKey) : Option CacheEntry :=
  r.entries.find? fun e => e.key = key

/-- Marks the outline of a key as the one used last. -/
def touch (entry : CacheEntry) (entries : List CacheEntry) : List CacheEntry :=
  entries.filter (fun e => e.key ≠ entry.key) ++ [entry]

/-- Adds an outline as the one used last, and drops the oldest one if there
are too many. -/
def store (capacity : Int) (entry : CacheEntry) (entries : List CacheEntry) :
    List CacheEntry :=
  let entries := entries ++ [entry]
  if (entries.length : Int) > capacity then entries.drop 1 else entries

/-- Why a request to process a template gives no outline. -/
inductive ProcessFault where
  /-- The template has no outline. -/
  | analysis (fault : AnalysisFault)
  /-- The normalised text has no bytes to make a key from. -/
  | unencodable (fault : Text.Utf8.Fault)
deriving DecidableEq, Repr

/-- The outline of a template with its serial number, and the reflector
afterwards.  A template without an outline leaves the reflector as it
was. -/
def process (r : Reflector) (t : Text) : Except ProcessFault (Nat × Outline) × Reflector :=
  if r.capacity ≤ 0 then
    match Outline.ofText t r.context with
    | .error fault => (.error (.analysis fault), r)
    | .ok outline => (.ok (r.made, outline), { r with made := r.made + 1 })
  else
    match Text.Utf8.fault? (normalize t) with
    | some fault => (.error (.unencodable fault), r)
    | none =>
      match r.cached? (r.keyOf t) with
      | some entry =>
        (.ok (entry.serial, entry.outline), { r with entries := touch entry r.entries })
      | none =>
        match Outline.ofText t r.context with
        | .error fault => (.error (.analysis fault), r)
        | .ok outline =>
          (.ok (r.made, outline),
            { r with
              entries := store r.capacity ⟨r.keyOf t, r.made, outline⟩ r.entries
              made := r.made + 1 })

/-- Takes another context into use. -/
def useContext (r : Reflector) (number : Nat) : Reflector :=
  { r with current := number }

/-- Changes how many outlines to keep.  Nothing is dropped until the next
outline comes in. -/
def resize (r : Reflector) (capacity : Int) : Reflector :=
  { r with capacity }

/-- Drops all outlines. -/
def clear (r : Reflector) : Reflector :=
  { r with entries := [] }

/-! ## Sessions -/

/-- What a reflector can be asked to do. -/
inductive Request where
  | process (t : Text)
  | useContext (number : Nat)
  | resize (capacity : Int)
  | clear
deriving DecidableEq, Repr

/-- What comes of the request to process a template: its outline with the
serial number, or the fault that it has. -/
abbrev Answer := Except ProcessFault (Nat × Outline)

/-- Carries out a request.  Only the request to process a template has an
answer. -/
def handle (r : Reflector) : Request → Option Answer × Reflector
  | .process t =>
    let (answer, r) := r.process t
    (some answer, r)
  | .useContext number => (none, r.useContext number)
  | .resize capacity => (none, r.resize capacity)
  | .clear => (none, r.clear)

/-- Carries out requests one after the other.  Each answer stands with the
reflector after its request. -/
def session (r : Reflector) : List Request → List (Option Answer × Reflector)
  | [] => []
  | request :: rest => r.handle request :: (r.handle request).2.session rest

end Reflector

end TemplateScopes
