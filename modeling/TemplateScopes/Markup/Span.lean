import TemplateScopes.Markup.Scan

/-!
# Spans of blocks

Closing tags carry no name.  The nesting of blocks is recovered with a
stack: every closing tag ends the block that was opened last and is still
open, whatever the two keywords are.

`pairTags` reads the tags of both sides in the order of their offsets and
gives one span for every opening tag.
-/

namespace TemplateScopes

/-- The stretch of text that a block takes, with its opening tag and the
offset of the block around it. -/
structure Span where
  opener : OpenTag
  parent : Option Nat
  stop : Nat
deriving DecidableEq, Repr

/-- Where the span starts. -/
def Span.start (s : Span) : Nat :=
  s.opener.offset

/-- The spans of the tags so far, and the offsets of the blocks that are
still open, the innermost one first.  While a block is open its span ends
behind the opening tag. -/
structure Pairing where
  spans : List Span
  pending : List Nat

namespace Pairing

/-- No tag yet. -/
def start : Pairing := ⟨[], []⟩

/-- Adds a span.  It takes the place of an earlier span with the same
start. -/
def putSpan (s : Span) : List Span → List Span
  | [] => [s]
  | t :: rest => if t.start = s.start then s :: rest else t :: putSpan s rest

/-- Ends the span that starts at `offset`. -/
def setStop (offset stop : Nat) (spans : List Span) : List Span :=
  spans.map fun s => if s.start = offset then { s with stop } else s

/-- Reads one more tag. -/
def step (p : Pairing) : Tag → Except TagFault Pairing
  | .opening t =>
    .ok ⟨putSpan ⟨t, p.pending.head?, t.stop⟩ p.spans, t.offset :: p.pending⟩
  | .closing t =>
    match p.pending with
    | [] => .error (.closesNothing t)
    | offset :: pending => .ok ⟨setStop offset (t.offset + Closing.length) p.spans, pending⟩

/-- Reads tags one after the other. -/
def run (p : Pairing) : List Tag → Except TagFault Pairing
  | [] => .ok p
  | tag :: rest =>
    match p.step tag with
    | .ok next => next.run rest
    | .error fault => .error fault

/-- The spans, if no block is left open. -/
def finish (p : Pairing) : Except TagFault (List Span) :=
  match p.pending.getLast? with
  | none => .ok p.spans
  | some first => .error (.leftOpen p.pending.length first)

end Pairing

/-- The tags of both sides in the order of their offsets. -/
def mergeTags (opens : List OpenTag) (closes : List CloseTag) : List Tag :=
  (opens.map Tag.opening ++ closes.map Tag.closing).mergeSort fun a b =>
    decide (a.offset ≤ b.offset)

/-- The spans of the blocks that the tags open and close. -/
def pairTags (opens : List OpenTag) (closes : List CloseTag) : Except TagFault (List Span) :=
  match Pairing.start.run (mergeTags opens closes) with
  | .ok p => p.finish
  | .error fault => .error fault

end TemplateScopes
