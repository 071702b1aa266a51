import TemplateScopes.Scope.Forest

/-!
# Blocks with memory

A store of blocks that are linked to each other step by step and read in
any order.  Blocks are known by their numbers.  The own text, the
conditions and the variables of a block are computed when they are first
asked for and remembered from then on.

* `BlockStore.ownNow`, `conditionsNow` and `variablesNow` compute from the
  children of the moment and remember nothing.
* `BlockStore.readOwn`, `readConditions`, `readVariables`, `readFacts` and
  `readSummary` answer from memory where they can, and give the store with
  what they have learnt.
* `BlockStore.Question` names all questions as data.  `BlockStore.ask`
  answers from memory, and `BlockStore.answerNow` by the children of the
  moment.
-/

namespace TemplateScopes

/-- What is remembered about a block. -/
structure Memo where
  own : Option Text := none
  conditions : Option (List Text) := none
  varTypes : Option (OrderedMap Text) := none

/-- A block with what its analysis depends on, its links and its memory. -/
structure Cell where
  block : Block
  context : Context
  isBlockName : Text → Bool
  parent : Option Nat := none
  children : List Nat := []
  memo : Memo := {}

/-- Blocks with memory. -/
structure BlockStore where
  cells : List Cell

namespace BlockStore

/-! ## Links -/

/-- The block of a number. -/
def block? (st : BlockStore) (i : Nat) : Option Block :=
  st.cells[i]?.map Cell.block

/-- The numbers of the children of a block. -/
def childrenOf (st : BlockStore) (i : Nat) : List Nat :=
  match st.cells[i]? with
  | some cell => cell.children
  | none => []

/-- The number of the parent of a block. -/
def parentOf (st : BlockStore) (i : Nat) : Option Nat :=
  st.cells[i]?.bind Cell.parent

/-- The children of a block. -/
def childBlocks (st : BlockStore) (i : Nat) : List Block :=
  (st.childrenOf i).filterMap st.block?

/-- Changes the cell of a block. -/
def update (st : BlockStore) (i : Nat) (f : Cell → Cell) : BlockStore :=
  { st with cells := st.cells.modify i f }

/-- Makes the block `j` a child of the block `i`, unless `i` has a child
that starts at the same place. -/
def addChild (st : BlockStore) (i j : Nat) : BlockStore :=
  match st.block? j with
  | none => st
  | some child =>
    if (st.childBlocks i).any fun b => b.start = child.start then st
    else
      (st.update i fun cell => { cell with children := cell.children ++ [j] }).update j
        fun cell => { cell with parent := some i }

/-- The first child of the given name. -/
def child? (st : BlockStore) (i : Nat) (name : Text) : Option Block :=
  Block.named? (st.childBlocks i) name

/-- Where the parent of a block starts. -/
def parentStart? (st : BlockStore) (i : Nat) : Option Nat :=
  ((st.parentOf i).bind st.block?).map Block.start

/-! ## Answers of the moment -/

/-- The own text of a block by its children of the moment. -/
def ownNow (st : BlockStore) (i : Nat) : Text :=
  match st.block? i with
  | some b => b.own (st.childBlocks i)
  | none => []

/-- The conditions of a block with the given own text. -/
def conditionsIn (st : BlockStore) (i : Nat) (own : Text) : List Text :=
  match st.cells[i]? with
  | some cell => Usage.conditionNames cell.context cell.isBlockName own
  | none => []

/-- The conditions of a block by its children of the moment. -/
def conditionsNow (st : BlockStore) (i : Nat) : List Text :=
  st.conditionsIn i (st.ownNow i)

/-- The variables of a block with the given own text and conditions, by
its children of the moment. -/
def variablesIn (st : BlockStore) (i : Nat) (own : Text) (conditions : List Text) :
    OrderedMap Text :=
  match st.cells[i]? with
  | some cell => cell.block.variableTypes cell.context (st.childBlocks i) conditions own
  | none => []

/-- The variables of a block by its children of the moment. -/
def variablesNow (st : BlockStore) (i : Nat) : OrderedMap Text :=
  st.variablesIn i (st.ownNow i) (st.conditionsNow i)

/-! ## Answers from memory -/

/-- The memory of a block. -/
def memoOf (st : BlockStore) (i : Nat) : Memo :=
  match st.cells[i]? with
  | some cell => cell.memo
  | none => {}

/-- Changes the memory of a block. -/
def remember (st : BlockStore) (i : Nat) (f : Memo → Memo) : BlockStore :=
  st.update i fun cell => { cell with memo := f cell.memo }

/-- The own text of a block. -/
def readOwn (st : BlockStore) (i : Nat) : Text × BlockStore :=
  match (st.memoOf i).own with
  | some own => (own, st)
  | none =>
    let own := st.ownNow i
    (own, st.remember i fun memo => { memo with own := some own })

/-- The conditions of a block. -/
def readConditions (st : BlockStore) (i : Nat) : List Text × BlockStore :=
  match (st.memoOf i).conditions with
  | some conditions => (conditions, st)
  | none =>
    let (own, st) := st.readOwn i
    let conditions := st.conditionsIn i own
    (conditions, st.remember i fun memo => { memo with conditions := some conditions })

/-- The variables of a block. -/
def readVariables (st : BlockStore) (i : Nat) : OrderedMap Text × BlockStore :=
  match (st.memoOf i).varTypes with
  | some varTypes => (varTypes, st)
  | none =>
    let (own, st) := st.readOwn i
    let (conditions, st) := st.readConditions i
    let varTypes := st.variablesIn i own conditions
    (varTypes, st.remember i fun memo => { memo with varTypes := some varTypes })

/-- The facts about a block with the given variables and conditions. -/
def factsWith (st : BlockStore) (i : Nat) (varTypes : OrderedMap Text)
    (conditions : List Text) : Facts :=
  match st.block? i with
  | some b => ⟨b.start, b.name, b.kind, st.parentStart? i, varTypes, conditions⟩
  | none => ⟨0, [], .root, none, varTypes, conditions⟩

/-- What can be found out about a block. -/
def readFacts (st : BlockStore) (i : Nat) : Facts × BlockStore :=
  let (varTypes, st) := st.readVariables i
  let (conditions, st) := st.readConditions i
  (st.factsWith i varTypes conditions, st)

/-- Reads several blocks one after the other. -/
def readEach {α : Type} (read : BlockStore → Nat → α × BlockStore) (st : BlockStore) :
    List Nat → List α × BlockStore
  | [] => ([], st)
  | i :: rest =>
    let (answer, st) := read st i
    let (answers, st) := readEach read st rest
    (answer :: answers, st)

/-- The summary of a block with the given number of levels below it. -/
def readSummaryTo : Nat → BlockStore → Nat → Summary × BlockStore
  | 0, st, i =>
    let (facts, st) := st.readFacts i
    (⟨facts, []⟩, st)
  | levels + 1, st, i =>
    let (facts, st) := st.readFacts i
    let (children, st) := readEach (readSummaryTo levels) st (st.childrenOf i)
    (⟨facts, children⟩, st)

/-- The summary of a block and of all blocks inside it.  No chain of
blocks is longer than their number. -/
def readSummary (st : BlockStore) (i : Nat) : Summary × BlockStore :=
  readSummaryTo st.cells.length st i

/-! ## Summaries of the moment -/

/-- What can be found out about a block by the children of the moment. -/
def factsNow (st : BlockStore) (i : Nat) : Facts :=
  st.factsWith i (st.variablesNow i) (st.conditionsNow i)

/-- The summary of a block by the children of the moment, with the given
number of levels below it. -/
def summaryNowTo (st : BlockStore) : Nat → Nat → Summary
  | 0, i => ⟨st.factsNow i, []⟩
  | levels + 1, i => ⟨st.factsNow i, (st.childrenOf i).map (st.summaryNowTo levels)⟩

/-- The summary of a block by the children of the moment. -/
def summaryNow (st : BlockStore) (i : Nat) : Summary :=
  st.summaryNowTo st.cells.length i

/-! ## Questions -/

/-- What can be asked about the block `i`. -/
inductive Question where
  | own (i : Nat)
  | conditions (i : Nat)
  | varTypes (i : Nat)
  /-- The first child of the given name. -/
  | child (i : Nat) (name : Text)
  /-- The facts, with the places where the children start. -/
  | facts (i : Nat)
  /-- The facts about the block and about all blocks inside it. -/
  | summary (i : Nat)
deriving DecidableEq, Repr

/-- What comes of a question. -/
inductive Answer where
  | text (t : Text)
  | names (names : List Text)
  | types (varTypes : OrderedMap Text)
  | block (b : Option Block)
  | facts (facts : Facts) (children : List Nat)
  | summary (s : Summary)

/-- The places where the children of a block start. -/
def childStarts (st : BlockStore) (i : Nat) : List Nat :=
  (st.childBlocks i).map Block.start

/-- Answers a question from memory where possible. -/
def ask (st : BlockStore) : Question → Answer × BlockStore
  | .own i =>
    let (own, st) := st.readOwn i
    (.text own, st)
  | .conditions i =>
    let (conditions, st) := st.readConditions i
    (.names conditions, st)
  | .varTypes i =>
    let (varTypes, st) := st.readVariables i
    (.types varTypes, st)
  | .child i name => (.block (st.child? i name), st)
  | .facts i =>
    let (facts, st) := st.readFacts i
    (.facts facts (st.childStarts i), st)
  | .summary i =>
    let (summary, st) := st.readSummary i
    (.summary summary, st)

/-- Answers a question by the children of the moment. -/
def answerNow (st : BlockStore) : Question → Answer
  | .own i => .text (st.ownNow i)
  | .conditions i => .names (st.conditionsNow i)
  | .varTypes i => .types (st.variablesNow i)
  | .child i name => .block (st.child? i name)
  | .facts i => .facts (st.factsNow i) (st.childStarts i)
  | .summary i => .summary (st.summaryNow i)

/-! ## Sessions -/

/-- One step in the life of a store: a link, or a question. -/
inductive Step where
  /-- Makes the block `j` a child of the block `i`. -/
  | link (i j : Nat)
  | ask (question : Question)
deriving DecidableEq, Repr

/-- Takes one step.  Only a question has an answer. -/
def step (st : BlockStore) : Step → Option Answer × BlockStore
  | .link i j => (none, st.addChild i j)
  | .ask question =>
    let (answer, st) := st.ask question
    (some answer, st)

/-- The answers to the questions among the steps, in their order. -/
def answers (st : BlockStore) : List Step → List Answer
  | [] => []
  | s :: rest => (st.step s).1.toList ++ (st.step s).2.answers rest

end BlockStore

end TemplateScopes
