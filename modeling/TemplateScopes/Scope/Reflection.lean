import TemplateScopes.Scope.Cache
import TemplateScopes.Scope.Memo

/-!
# Reflections

A reflection is an outline that is read step by step.  Its blocks remember
what was read of them, and a reflector that finds an outline in its cache
returns the reflection that was made with it, whatever has been read of it
since.

* `Outline.store` gives the root and the blocks of an outline as blocks with
  memory.
* `Session` is a reflector together with the reflections that it returned.
  A step of a session is a request to the reflector, or a question about a
  block of one of the reflections.
-/

namespace TemplateScopes

namespace Outline

/-- The number of the block with the given identifier.  The root has the
number 0. -/
def numberOf (o : Outline) (id : Nat) : Nat :=
  o.scopes.findIdx (fun s => s.start = id) + 1

/-- A scope of the outline as a block that remembers nothing yet. -/
def cellOf (o : Outline) (s : Scope) : Cell where
  block := s.toBlock
  context := o.context
  isBlockName := o.hasName
  parent := s.parent.map o.numberOf
  children := s.children.map o.numberOf

/-- The root and the blocks of the outline as blocks with memory. -/
def store (o : Outline) : BlockStore where
  cells := (o.root :: o.scopes).map o.cellOf

end Outline

/-- An outline with the number of its context and with what was read of
it. -/
structure Reflection where
  context : Nat
  outline : Outline
  blocks : BlockStore

/-- The reflection of an outline of which nothing was read yet. -/
def Reflection.ofOutline (context : Nat) (o : Outline) : Reflection :=
  ⟨context, o, o.store⟩

/-- A reflector and the reflections that it returned, in the order of their
serial numbers. -/
structure Session where
  reflector : Reflector
  reflections : List Reflection

namespace Session

/-- One step of a session. -/
inductive Step where
  | request (request : Reflector.Request)
  /-- Asks about a block of the reflection with the given serial number. -/
  | read (serial : Nat) (question : BlockStore.Question)
deriving DecidableEq, Repr

/-- A session of a reflector that has returned nothing yet. -/
def start (contexts : List Context) (number : Nat) (capacity : Int) : Session :=
  ⟨⟨contexts, number, capacity, [], 0⟩, []⟩

/-- Processes a template.  A new outline gets a reflection of its own. -/
def process (s : Session) (t : Text) : Reflector.Answer × Session :=
  match s.reflector.process t with
  | (.error fault, reflector) => (.error fault, { s with reflector })
  | (.ok (serial, o), reflector) =>
    let reflections :=
      if serial = s.reflector.made then
        s.reflections ++ [Reflection.ofOutline s.reflector.current o]
      else s.reflections
    (.ok (serial, o), { reflector, reflections })

/-- Asks a question about a reflection, which remembers what it has read for
the answer. -/
def read (s : Session) (serial : Nat) (question : BlockStore.Question) :
    Option BlockStore.Answer × Session :=
  match s.reflections[serial]? with
  | none => (none, s)
  | some reflection =>
    let (answer, blocks) := reflection.blocks.ask question
    (some answer, { s with reflections := s.reflections.set serial { reflection with blocks } })

/-- Takes one step. -/
def step (s : Session) : Step → Session
  | .request (.process t) => (s.process t).2
  | .request request => { s with reflector := (s.reflector.handle request).2 }
  | .read serial question => (s.read serial question).2

/-- Takes steps one after the other. -/
def run (s : Session) (steps : List Step) : Session :=
  steps.foldl step s

end Session

end TemplateScopes
