import Mathlib.Data.Set.Card
import Mathlib.Logic.Relation
import TemplateScopes.Proofs.Transparency

/-!
# Links and questions in turn

Blocks with memory are linked and asked in any order.  What a block remembers
may be wrong once it gets another child, so a history is orderly if no block
gets a child behind a question that computed its contents.  In an orderly
history nothing tells the store from one without memory.

There are seven groups.

* Stores without loops.  Where no block stands inside itself, a summary reaches
  down to the last block (`Acyclic.complete`).
* Links.  `Coherent.addChild` says when a link leaves a coherent store.
* Questions.  A question changes the memory of those blocks only whose contents
  it computes (`memoOf_ask`).
* Histories.  `BlockStore.linked` and `BlockStore.answersNow` take the steps
  without memory, and `BlockStore.Orderly` is the condition on them, which cannot
  be left out (`answers_ne_answersNow`).
* Steps.  `BlockStore.Follows` says that a store is the one without memory but
  for what it remembers, and that it remembers only what the steps have
  computed.  Every step of an orderly history keeps it (`Follows.step`).
* Outlines.  The blocks of an outline are without loops, and what is said of them
  is what the analysis says (`facts_store`).
* Runs.  `answers_as_without_memory` is the main result.
-/

namespace TemplateScopes

/-- The cell without its links. -/
def Cell.unlinked (cell : Cell) : Cell :=
  { cell with parent := none, children := [] }

/-- The cell of the block `k` after the block `j` became a child of the
block `i`. -/
def Cell.link (i j k : Nat) (cell : Cell) : Cell where
  block := cell.block
  context := cell.context
  isBlockName := cell.isBlockName
  parent := if j = k then some i else cell.parent
  children := if i = k then cell.children ++ [j] else cell.children
  memo := cell.memo

namespace BlockStore

/-! ## Stores without loops -/

/-- Whether the block `j` is a child of the block `i`. -/
def IsChild (st : BlockStore) (i j : Nat) : Prop :=
  j ∈ st.childrenOf i

/-- Whether the block `j` is the block `i`, or stands inside it at any depth. -/
def Holds (st : BlockStore) : Nat → Nat → Prop :=
  Relation.ReflTransGen st.IsChild

/-- Whether no block stands inside itself. -/
def Acyclic (st : BlockStore) : Prop :=
  ∀ i, ¬ Relation.TransGen st.IsChild i i

/-- Whether the summary of every block has the summaries of all its children,
and so reaches down to the last block. -/
def Complete (st : BlockStore) : Prop :=
  ∀ i, st.summaryNow i = ⟨st.factsNow i, (st.childrenOf i).map st.summaryNow⟩

section Acyclic

variable {st st' : BlockStore} {i j : Nat}

theorem Acyclic.mono (h : st'.Acyclic) (hle : ∀ i j, st.IsChild i j → st'.IsChild i j) :
    st.Acyclic :=
  fun i hloop => h i (Relation.TransGen.mono hle i i hloop)

/-- No block stands inside itself where numbers grow towards the inside. -/
theorem acyclic_of_rank (rank : Nat → Nat) (h : ∀ i j, st.IsChild i j → rank i < rank j) :
    st.Acyclic := by
  intro i hloop
  have hlt : ∀ k, Relation.TransGen st.IsChild i k → rank i < rank k := by
    intro k hpath
    induction hpath with
    | single hchild => exact h _ _ hchild
    | tail _ hchild ih => exact ih.trans (h _ _ hchild)
  exact Nat.lt_irrefl _ (hlt i hloop)

theorem IsChild.lt_length (h : st.IsChild i j) : i < st.cells.length := by
  by_contra hge
  unfold IsChild childrenOf at h
  rw [List.getElem?_eq_none (Nat.le_of_not_lt hge)] at h
  exact absurd h List.not_mem_nil

/-- The numbers in the store of a block and of all blocks inside it. -/
def inside (st : BlockStore) (i : Nat) : Set Nat :=
  {k | k < st.cells.length ∧ st.Holds i k}

theorem inside_subset (st : BlockStore) (i : Nat) :
    st.inside i ⊆ ↑(Finset.range st.cells.length) :=
  fun _ hk => Finset.mem_coe.2 (Finset.mem_range.2 hk.1)

theorem finite_inside (st : BlockStore) (i : Nat) : (st.inside i).Finite :=
  (Finset.finite_toSet _).subset (st.inside_subset i)

theorem ncard_inside_le (st : BlockStore) (i : Nat) :
    (st.inside i).ncard ≤ st.cells.length := by
  have hle := Set.ncard_le_ncard (st.inside_subset i) (Finset.finite_toSet _)
  rwa [Set.ncard_coe_finset, Finset.card_range] at hle

/-- There are fewer blocks inside a child. -/
theorem Acyclic.ncard_inside_lt (h : st.Acyclic) (hchild : st.IsChild i j) :
    (st.inside j).ncard < (st.inside i).ncard := by
  refine Set.ncard_lt_ncard ⟨?_, ?_⟩ (st.finite_inside i)
  · intro k hk
    exact ⟨hk.1, hk.2.head hchild⟩
  · intro hback
    have hi : i ∈ st.inside i := ⟨hchild.lt_length, .refl⟩
    exact h i (Relation.TransGen.head' hchild (hback hi).2)

/-- More levels than there are blocks inside add nothing to a summary. -/
theorem Acyclic.summaryNowTo_succ (h : st.Acyclic) {levels : Nat}
    (hlevels : (st.inside i).ncard ≤ levels) :
    st.summaryNowTo (levels + 1) i = st.summaryNowTo levels i := by
  induction levels generalizing i with
  | zero =>
    have hnone : st.childrenOf i = [] := by
      refine List.eq_nil_iff_forall_not_mem.2 fun j hj => ?_
      have hlt := h.ncard_inside_lt hj
      omega
    simp only [summaryNowTo, hnone, List.map_nil]
  | succ levels ih =>
    have hchildren : (st.childrenOf i).map (st.summaryNowTo (levels + 1)) =
        (st.childrenOf i).map (st.summaryNowTo levels) := by
      refine List.map_congr_left fun j hj => ih ?_
      have hlt := h.ncard_inside_lt hj
      omega
    rw [summaryNowTo, hchildren, summaryNowTo]

/-- No chain of blocks is longer than their number, so that no summary stops
short. -/
theorem Acyclic.complete (h : st.Acyclic) : st.Complete := by
  intro i
  show st.summaryNowTo st.cells.length i = _
  rw [← h.summaryNowTo_succ (st.ncard_inside_le i)]
  rfl

end Acyclic

/-! ## Links -/

section Links

theorem getElem?_update (st : BlockStore) (i k : Nat) (f : Cell → Cell) :
    (st.update i f).cells[k]? = st.cells[k]?.map fun cell => if i = k then f cell else cell := by
  unfold update
  rw [List.getElem?_modify]
  by_cases h : i = k <;> simp [h]

theorem forget_update (st : BlockStore) (i : Nat) {f : Cell → Cell}
    (hf : ∀ cell, (f cell).forget = f cell.forget) :
    (st.update i f).forget = st.forget.update i f := by
  have hcells : (st.update i f).forget.cells = (st.forget.update i f).cells := by
    apply List.ext_getElem?
    intro k
    rw [getElem?_cells_forget, getElem?_update, getElem?_update, getElem?_cells_forget]
    cases st.cells[k]? with
    | none => rfl
    | some cell => by_cases h : i = k <;> simp [h, hf]
  exact congrArg BlockStore.mk hcells

variable (st : BlockStore) (i j k : Nat)

/-- A link changes nothing, or gives one block a child and the other a
parent. -/
theorem addChild_cases :
    st.addChild i j = st ∨
      ∀ k, (st.addChild i j).cells[k]? = st.cells[k]?.map (Cell.link i j k) := by
  unfold addChild
  split
  · exact .inl rfl
  · split
    · exact .inl rfl
    · refine .inr fun k => ?_
      rw [getElem?_update, getElem?_update, Option.map_map]
      congr 1
      funext cell
      by_cases hi : i = k <;> by_cases hj : j = k <;> simp [hi, hj, Cell.link]

theorem forget_addChild : (st.addChild i j).forget = st.forget.addChild i j := by
  unfold addChild
  rw [block?_forget, childBlocks_forget]
  split
  · rfl
  · split
    · rfl
    · rw [forget_update, forget_update]
      · exact fun _ => rfl
      · exact fun _ => rfl

/-- A link changes nothing in a block but its links. -/
theorem unlinked_addChild :
    (st.addChild i j).cells[k]?.map Cell.unlinked = st.cells[k]?.map Cell.unlinked := by
  rcases addChild_cases st i j with h | h
  · rw [h]
  · rw [h, Option.map_map]
    rfl

/-- Only the first of the two blocks may get a child. -/
theorem childrenOf_addChild :
    (st.addChild i j).childrenOf k = st.childrenOf k ∨
      k = i ∧ (st.addChild i j).childrenOf k = st.childrenOf k ++ [j] := by
  rcases addChild_cases st i j with h | h
  · exact .inl (congrArg (childrenOf · k) h)
  · unfold childrenOf
    rw [h]
    cases st.cells[k]? with
    | none => exact .inl rfl
    | some cell => by_cases hi : i = k <;> simp [hi, Cell.link]

theorem conditionsIn_eq (own : Text) :
    st.conditionsIn k own = ((st.cells[k]?.map Cell.unlinked).map fun cell =>
      Usage.conditionNames cell.context cell.isBlockName own).getD [] := by
  unfold conditionsIn
  cases st.cells[k]? <;> rfl

theorem variablesIn_eq (own : Text) (conditions : List Text) :
    st.variablesIn k own conditions = ((st.cells[k]?.map Cell.unlinked).map fun cell =>
      cell.block.variableTypes cell.context (st.childBlocks k) conditions own).getD [] := by
  unfold variablesIn
  cases st.cells[k]? <;> rfl

theorem block?_addChild : (st.addChild i j).block? k = st.block? k := by
  have h := congrArg (Option.map Cell.block) (unlinked_addChild st i j k)
  rw [Option.map_map, Option.map_map] at h
  exact h

theorem memoOf_addChild : (st.addChild i j).memoOf k = st.memoOf k := by
  have h := congrArg (Option.map Cell.memo) (unlinked_addChild st i j k)
  rw [Option.map_map, Option.map_map] at h
  have hmemo : ∀ st' : BlockStore, st'.memoOf k = (st'.cells[k]?.map Cell.memo).getD {} := by
    intro st'
    unfold memoOf
    cases st'.cells[k]? <;> rfl
  rw [hmemo, hmemo]
  exact congrArg (Option.getD · {}) h

variable {st i j k}

theorem childBlocks_addChild (h : (st.addChild i j).childrenOf k = st.childrenOf k) :
    (st.addChild i j).childBlocks k = st.childBlocks k := by
  unfold childBlocks
  rw [h, funext (block?_addChild st i j)]

/-- A link leaves the contents of a block that gets no child. -/
theorem contents_addChild (h : (st.addChild i j).childrenOf k = st.childrenOf k) :
    (st.addChild i j).ownNow k = st.ownNow k ∧
      (st.addChild i j).conditionsNow k = st.conditionsNow k ∧
      (st.addChild i j).variablesNow k = st.variablesNow k := by
  have hchildren := childBlocks_addChild h
  have hcell := unlinked_addChild st i j k
  have hown : (st.addChild i j).ownNow k = st.ownNow k := by
    unfold ownNow
    rw [hchildren, block?_addChild]
  have hconditions : ∀ own, (st.addChild i j).conditionsIn k own = st.conditionsIn k own := by
    intro own
    rw [conditionsIn_eq, hcell, ← conditionsIn_eq]
  have hvariables : ∀ own conditions,
      (st.addChild i j).variablesIn k own conditions = st.variablesIn k own conditions := by
    intro own conditions
    rw [variablesIn_eq, hcell, hchildren, ← variablesIn_eq]
  refine ⟨hown, ?_, ?_⟩
  · simp only [conditionsNow, hown, hconditions]
  · simp only [variablesNow, conditionsNow, hown, hconditions, hvariables]

/-- A link leaves a coherent store, unless a block gets a child of whose
contents something is remembered. -/
theorem Coherent.addChild (h : st.Coherent)
    (hi : st.memoOf i = {} ∨ (st.addChild i j).childrenOf i = st.childrenOf i) :
    (st.addChild i j).Coherent := by
  intro k
  rw [memoOf_addChild]
  have hkept : (st.addChild i j).childrenOf k = st.childrenOf k →
      (st.addChild i j).Recalls k (st.memoOf k) := by
    intro hchildren
    obtain ⟨hown, hconditions, hvariables⟩ := contents_addChild hchildren
    constructor
    · rw [hown]
      exact (h k).own
    · rw [hconditions]
      exact (h k).conditions
    · rw [hvariables]
      exact (h k).varTypes
  rcases childrenOf_addChild st i j k with hsame | ⟨rfl, -⟩
  · exact hkept hsame
  · rcases hi with hnothing | hsame
    · rw [hnothing]
      exact recalls_nothing
    · exact hkept hsame

end Links

/-! ## Questions -/

/-- Whether a question computes the contents of the block `k`: it is about this
block, or asks for the summary of a block that holds it. -/
def Question.Computes (st : BlockStore) : Question → Nat → Prop
  | .own i, k => k = i
  | .conditions i, k => k = i
  | .varTypes i, k => k = i
  | .child _ _, _ => False
  | .facts i, k => k = i
  | .summary i, k => st.Holds i k

section Questions

variable {st st' : BlockStore} {i k : Nat}

theorem holds_congr (h : st'.forget = st.forget) : st'.Holds = st.Holds := by
  have hchild : st'.IsChild = st.IsChild := by
    funext i j
    unfold IsChild
    rw [childrenOf_congr h]
  unfold Holds
  rw [hchild]

theorem ne_of_not_holds (h : ¬ st.Holds i k) : k ≠ i := by
  rintro rfl
  exact h .refl

theorem computes_congr (h : st'.forget = st.forget) {question : Question} :
    question.Computes st' k = question.Computes st k := by
  cases question with
  | summary i => exact congrFun (congrFun (holds_congr h) i) k
  | _ => rfl

theorem memoOf_remember_of_ne (h : k ≠ i) (f : Memo → Memo) :
    (st.remember i f).memoOf k = st.memoOf k :=
  (memoOf_remember st i k f).resolve_right fun hi => h hi.1

theorem memoOf_readOwn (h : k ≠ i) : (st.readOwn i).2.memoOf k = st.memoOf k := by
  unfold readOwn
  split
  · rfl
  · exact memoOf_remember_of_ne h _

theorem memoOf_readConditions (h : k ≠ i) : (st.readConditions i).2.memoOf k = st.memoOf k := by
  unfold readConditions
  split
  · rfl
  · exact (memoOf_remember_of_ne h _).trans (memoOf_readOwn h)

theorem memoOf_readVariables (h : k ≠ i) : (st.readVariables i).2.memoOf k = st.memoOf k := by
  unfold readVariables
  split
  · rfl
  · exact (memoOf_remember_of_ne h _).trans ((memoOf_readConditions h).trans (memoOf_readOwn h))

theorem memoOf_readFacts (h : k ≠ i) : (st.readFacts i).2.memoOf k = st.memoOf k :=
  (memoOf_readConditions h).trans (memoOf_readVariables h)

/-- What is remembered of a block stays, one reading after the other, if each of
them leaves it. -/
theorem memoOf_readEach {α : Type} {read : BlockStore → Nat → α × BlockStore} {numbers : List Nat}
    (hread : ∀ st' : BlockStore, st'.forget = st.forget → st'.Coherent → ∀ i ∈ numbers,
      (read st' i).2.forget = st'.forget ∧ (read st' i).2.Coherent ∧
        (read st' i).2.memoOf k = st'.memoOf k)
    (h : st.Coherent) : (readEach read st numbers).2.memoOf k = st.memoOf k := by
  induction numbers generalizing st with
  | nil => rfl
  | cons i rest ih =>
    obtain ⟨hforget, hcoherent, hmemo⟩ := hread st rfl h i List.mem_cons_self
    refine (ih (fun st' hsame hcoherent' j hj => ?_) hcoherent).trans hmemo
    exact hread st' (hsame.trans hforget) hcoherent' j (List.mem_cons_of_mem _ hj)

theorem memoOf_readSummaryTo (h : st.Coherent) {levels : Nat} (hk : ¬ st.Holds i k) :
    (readSummaryTo levels st i).2.memoOf k = st.memoOf k := by
  induction levels generalizing st i with
  | zero => exact memoOf_readFacts (ne_of_not_holds hk)
  | succ levels ih =>
    have hfacts : (st.readFacts i).2.memoOf k = st.memoOf k :=
      memoOf_readFacts (ne_of_not_holds hk)
    obtain ⟨-, hforget, hcoherent⟩ := reads_facts h i
    have heach : (readEach (readSummaryTo levels) (st.readFacts i).2
        ((st.readFacts i).2.childrenOf i)).2.memoOf k = (st.readFacts i).2.memoOf k := by
      refine memoOf_readEach (fun st' hsame hcoherent' j hj => ?_) hcoherent
      obtain ⟨-, hforget', hcoherent''⟩ := reads_summaryTo hcoherent' levels j
      refine ⟨hforget', hcoherent'', ih hcoherent' fun hpath => hk ?_⟩
      rw [childrenOf_congr hforget] at hj
      rw [holds_congr (hsame.trans hforget)] at hpath
      exact hpath.head hj
    exact heach.trans hfacts

/-- A question changes the memory of those blocks only whose contents it
computes. -/
theorem memoOf_ask (h : st.Coherent) {question : Question} (hk : ¬ question.Computes st k) :
    (st.ask question).2.memoOf k = st.memoOf k := by
  cases question with
  | own i => exact memoOf_readOwn hk
  | conditions i => exact memoOf_readConditions hk
  | varTypes i => exact memoOf_readVariables hk
  | child i name => rfl
  | facts i => exact memoOf_readFacts hk
  | summary i => exact memoOf_readSummaryTo h hk

end Questions

/-! ## Histories -/

/-- A store after one step, if nothing is ever remembered: a question changes
nothing. -/
def relink (st : BlockStore) : Step → BlockStore
  | .link i j => st.addChild i j
  | .ask _ => st

/-- A store after several steps, if nothing is ever remembered. -/
def linked (st : BlockStore) (steps : List Step) : BlockStore :=
  steps.foldl relink st

/-- The answers to the questions among the steps, each by the children of the
moment. -/
def answersNow (st : BlockStore) : List Step → List Answer
  | [] => []
  | .link i j :: rest => (st.addChild i j).answersNow rest
  | .ask question :: rest => st.answerNow question :: st.answersNow rest

/-- Whether one of the questions among the steps computed the contents of the
block `k`. -/
def Computed (st : BlockStore) (steps : List Step) (k : Nat) : Prop :=
  ∃ past question rest, steps = past ++ .ask question :: rest ∧
    question.Computes (st.linked past) k

/-- Whether no block gets a child behind a question that computed its
contents. -/
def Orderly (st : BlockStore) (steps : List Step) : Prop :=
  ∀ past i j rest, steps = past ++ .link i j :: rest → st.Computed past i →
    ((st.linked past).addChild i j).childrenOf i = (st.linked past).childrenOf i

/-- A loop and the block inside it, before they are linked. -/
def loopAndInner : BlockStore :=
  let code : Text := "<% loop $A %>$B<% with $C %>$D<% end_with %><% end_loop %>"
  ⟨[{ block := ⟨code, 0, 58, .loop, "A", "<% loop $A %>", 14⟩
      context := Context.base, isBlockName := fun _ => false },
    { block := ⟨code, 15, 44, .within, "C", "<% with $C %>", 14⟩
      context := Context.base, isBlockName := fun _ => false }]⟩

/-- A history that is not orderly shows the memory: a loop that was read keeps
its text when it gets a child. -/
theorem answers_ne_answersNow :
    loopAndInner.answers [.ask (.own 0), .link 0 1, .ask (.own 0)] ≠
      loopAndInner.answersNow [.ask (.own 0), .link 0 1, .ask (.own 0)] := by
  intro heq
  obtain ⟨-, hlater⟩ := List.cons_eq_cons.1 heq
  obtain ⟨hown, -⟩ := List.cons_eq_cons.1 hlater
  have htext : loopAndInner.ownNow 0 = (loopAndInner.addChild 0 1).ownNow 0 :=
    Answer.text.inj hown
  exact absurd htext (by decide)

section Histories

variable {st : BlockStore} {past rest : List Step} {k : Nat}

theorem linked_append : st.linked (past ++ rest) = (st.linked past).linked rest :=
  List.foldl_append

theorem Computed.append (h : st.Computed past k) : st.Computed (past ++ rest) k := by
  obtain ⟨front, question, back, rfl, hcomputes⟩ := h
  exact ⟨front, question, back ++ rest, by simp, hcomputes⟩

theorem computed_ask {question : Question} (h : question.Computes (st.linked past) k) :
    st.Computed (past ++ [.ask question]) k :=
  ⟨past, question, [], rfl, h⟩

/-- Links only add children. -/
theorem isChild_linked {i j : Nat} (h : st.IsChild i j) (steps : List Step) :
    (st.linked steps).IsChild i j := by
  induction steps generalizing st with
  | nil => exact h
  | cons step rest ih =>
    refine ih ?_
    cases step with
    | ask question => exact h
    | link m n =>
      show j ∈ (st.addChild m n).childrenOf i
      rcases childrenOf_addChild st m n i with hsame | ⟨-, hmore⟩
      · rw [hsame]
        exact h
      · rw [hmore]
        exact List.mem_append_left _ h

/-- A history that ends without loops never had one. -/
theorem acyclic_of_linked_append (h : (st.linked (past ++ rest)).Acyclic) :
    (st.linked past).Acyclic := by
  rw [linked_append] at h
  exact h.mono fun i j hchild => isChild_linked hchild rest

end Histories

/-! ## Steps -/

/-- Whether a store is the one without memory after the given steps but for what
it remembers, and remembers only what they have computed. -/
structure Follows (st : BlockStore) (past : List Step) (now : BlockStore) : Prop where
  forget : now.forget = (st.linked past).forget
  coherent : now.Coherent
  computed : ∀ k, now.memoOf k = {} ∨ st.Computed past k

section Steps

variable {st now : BlockStore} {past : List Step}

/-- A history begins with a store that remembers nothing. -/
theorem follows_nil (hnew : st.forget = st) : st.Follows [] st := by
  refine ⟨rfl, ?_, fun k => .inl ?_⟩
  · rw [← hnew]
    exact coherent_forget st
  · rw [← hnew]
    exact memoOf_forget st k

theorem Follows.link {i j : Nat} (h : st.Follows past now)
    (horderly : st.Computed past i →
      ((st.linked past).addChild i j).childrenOf i = (st.linked past).childrenOf i) :
    st.Follows (past ++ [.link i j]) (now.addChild i j) := by
  have hforget : (now.addChild i j).forget = ((st.linked past).addChild i j).forget := by
    rw [forget_addChild, forget_addChild, h.forget]
  refine ⟨?_, h.coherent.addChild ?_, fun k => ?_⟩
  · rw [linked_append]
    exact hforget
  · refine (h.computed i).imp_right fun hcomputed => ?_
    rw [childrenOf_congr hforget, childrenOf_congr h.forget]
    exact horderly hcomputed
  · rw [memoOf_addChild]
    exact (h.computed k).imp_right Computed.append

theorem Follows.ask (h : st.Follows past now) (question : Question) :
    st.Follows (past ++ [.ask question]) (now.ask question).2 := by
  obtain ⟨-, hforget, hcoherent⟩ := reads_ask h.coherent question
  refine ⟨?_, hcoherent, fun k => ?_⟩
  · rw [linked_append]
    exact hforget.trans h.forget
  · by_cases hk : question.Computes now k
    · refine .inr (computed_ask ?_)
      rwa [computes_congr h.forget] at hk
    · rw [memoOf_ask h.coherent hk]
      exact (h.computed k).imp_right Computed.append

/-- A step of an orderly history. -/
theorem Follows.step (h : st.Follows past now) {s : Step} {rest : List Step}
    (horderly : st.Orderly (past ++ s :: rest)) : st.Follows (past ++ [s]) (now.step s).2 := by
  cases s with
  | link i j => exact h.link (horderly past i j rest rfl)
  | ask question => exact h.ask question

end Steps

end BlockStore

/-! ## Outlines -/

namespace Outline

section Store

variable {code : Text} {ctx : Context} {spans : List Span} {o : Outline} {s : Scope} {i id : Nat}

/-- The children of the root and of the blocks are blocks.  Those of a block
start behind it. -/
theorem exists_child (h : Forest.Grounded code ctx spans)
    (hs : ((outlineOf code ctx spans).root :: (outlineOf code ctx spans).scopes)[i]? = some s)
    (hid : id ∈ s.children) :
    ∃ child, (outlineOf code ctx spans).byId? id = some child ∧ child.start = id ∧
      (i = 0 ∨ s.start < id) := by
  have hfound : ∀ c ∈ spans, Forest.addressable ctx c = true →
      (outlineOf code ctx spans).byId? c.start = some (Forest.scopeOf code ctx spans c) :=
    fun c hc hkept => Forest.scope?_forestOf h.ascending hc hkept
  cases i with
  | zero =>
    obtain rfl : (outlineOf code ctx spans).root = s := Option.some.inj hs
    obtain ⟨scope, hscope, rfl⟩ := List.mem_map.1 hid
    obtain ⟨c, hc, hkept, rfl⟩ := Forest.mem_forestOf.1 (List.mem_filter.1 hscope).1
    exact ⟨_, hfound c hc hkept, rfl, .inl rfl⟩
  | succ i =>
    have hmem : s ∈ (outlineOf code ctx spans).scopes := List.mem_of_getElem? hs
    obtain ⟨q, -, -, rfl⟩ := Forest.mem_forestOf.1 hmem
    obtain ⟨c, hchild, rfl⟩ := List.mem_map.1 hid
    obtain ⟨hc, hkept, hparent⟩ := Forest.mem_childrenOf.1 hchild
    obtain ⟨-, -, -, hlt⟩ := (Forest.rooted_of_pairsUp h.toPairsUp).parent c hc _ hparent
    exact ⟨_, hfound c hc hkept, rfl, .inr hlt⟩

/-- Where a block starts, counted from 1, and 0 for the root. -/
def placeOf (o : Outline) : Nat → Nat
  | 0 => 0
  | i + 1 => (o.scopes[i]?.map fun s => s.start + 1).getD 0

/-- No block of an outline stands inside itself. -/
theorem acyclic_store (h : Forest.Grounded code ctx spans) :
    (outlineOf code ctx spans).store.Acyclic := by
  refine BlockStore.acyclic_of_rank (outlineOf code ctx spans).placeOf fun i j hchild => ?_
  have hlt := hchild.lt_length
  rw [show (outlineOf code ctx spans).store.cells.length = _ from List.length_map _] at hlt
  have hs := List.getElem?_eq_getElem hlt
  unfold BlockStore.IsChild at hchild
  rw [childrenOf_store hs] at hchild
  obtain ⟨id, hid, rfl⟩ := List.mem_map.1 hchild
  obtain ⟨child, hfound, rfl, hbehind⟩ := exists_child h hs hid
  have hplace : (outlineOf code ctx spans).placeOf
      ((outlineOf code ctx spans).numberOf child.start) = child.start + 1 := by
    have hnumber := getElem?_numberOf (outlineOf code ctx spans) child.start
    rw [hfound] at hnumber
    exact congrArg (fun found => (Option.map (fun s : Scope => s.start + 1) found).getD 0) hnumber
  rw [hplace]
  cases i with
  | zero => exact Nat.succ_pos _
  | succ i =>
    have hbefore := hbehind.resolve_left (Nat.succ_ne_zero i)
    rw [List.getElem?_cons_succ] at hs
    simp only [placeOf, hs, Option.map_some, Option.getD_some]
    exact Nat.succ_lt_succ hbefore

theorem parentStart?_store (h : Forest.Grounded code ctx spans)
    (hs : ((outlineOf code ctx spans).root :: (outlineOf code ctx spans).scopes)[i]? = some s) :
    (outlineOf code ctx spans).store.parentStart? i = s.parent := by
  have hparent : (outlineOf code ctx spans).store.parentOf i =
      s.parent.map (outlineOf code ctx spans).numberOf := by
    unfold BlockStore.parentOf
    rw [getElem?_store hs]
    rfl
  unfold BlockStore.parentStart?
  rw [hparent]
  cases i with
  | zero =>
    obtain rfl : (outlineOf code ctx spans).root = s := Option.some.inj hs
    rfl
  | succ i =>
    have hmem : s ∈ (outlineOf code ctx spans).scopes := List.mem_of_getElem? hs
    obtain ⟨c, hc, hkept, rfl⟩ := Forest.mem_forestOf.1 hmem
    rw [Forest.scopeOf_parent]
    cases hup : c.parent with
    | none => rfl
    | some id =>
      obtain ⟨q, hq, rfl, -⟩ := (Forest.rooted_of_pairsUp h.toPairsUp).parent c hc id hup
      have hkeptq := Forest.kept_iff.1 h.kept c hc q hq hup hkept
      have hfound : (outlineOf code ctx spans).byId? q.start = _ :=
        Forest.scope?_forestOf h.ascending hq hkeptq
      rw [Option.map_some, Option.bind_some, block?_numberOf, hfound]
      rfl

/-- What the store of an outline says of a block is what the analysis says. -/
theorem facts_store (h : Forest.Grounded code ctx spans)
    (hs : ((outlineOf code ctx spans).root :: (outlineOf code ctx spans).scopes)[i]? = some s) :
    (outlineOf code ctx spans).store.factsNow i =
        (outlineOf code ctx spans).forest.facts ctx (outlineOf code ctx spans).hasName s ∧
      (outlineOf code ctx spans).store.childStarts i = s.children := by
  obtain ⟨-, hconditions, hvariables⟩ := now_store hs
  constructor
  · unfold BlockStore.factsNow BlockStore.factsWith
    rw [block?_store hs, parentStart?_store h hs, hconditions, hvariables]
    rfl
  · unfold BlockStore.childStarts BlockStore.childBlocks
    rw [childrenOf_store hs, List.filterMap_map, List.map_filterMap]
    refine (List.filterMap_congr fun id hid => ?_).trans List.filterMap_some
    obtain ⟨child, hfound, hstart, -⟩ := exists_child h hs hid
    rw [Function.comp_apply, block?_numberOf, hfound, ← hstart]
    rfl

end Store

end Outline

namespace BlockStore

/-! ## Runs -/

section Runs

variable {st now : BlockStore} {past rest : List Step}

/-- The answers to the rest of an orderly history. -/
theorem Follows.answers_eq (h : st.Follows past now) (horderly : st.Orderly (past ++ rest)) :
    now.answers rest = (st.linked past).answersNow rest := by
  induction rest generalizing past now with
  | nil => rfl
  | cons s rest ih =>
    have hrest := ih (h.step horderly) (by simpa using horderly)
    rw [linked_append] at hrest
    cases s with
    | link i j => exact hrest
    | ask question =>
      have hanswer : (now.ask question).1 = (st.linked past).answerNow question := by
        rw [(reads_ask h.coherent question).answer, ← answerNow_forget, h.forget, answerNow_forget]
      show (now.ask question).1 :: (now.ask question).2.answers rest = _
      rw [hanswer]
      exact congrArg _ hrest

end Runs

/-- Memory cannot be observed.  Blocks of which nothing is remembered are linked
and asked in any order, without loops and so that no block gets a child behind a
question that computed its contents.  Then every answer is the one that the
children of the moment give.  This covers the blocks of an outline, which are
without loops.  Asked in any order and however often, they answer as the analysis
does. -/
theorem answers_as_without_memory :
    (∀ (st : BlockStore) (steps : List Step), st.forget = st → (st.linked steps).Acyclic →
      st.Orderly steps →
        st.answers steps = st.answersNow steps ∧
        ∀ past rest, steps = past ++ rest → (st.linked past).Complete) ∧
    ∀ (t : Text) (ctx : Context) (o : Outline), Outline.ofText t ctx = .ok o →
      o.store.forget = o.store ∧ o.store.Acyclic ∧ o.store.Complete ∧
      (∀ questions : List Question,
        o.store.answers (questions.map .ask) = questions.map o.store.answerNow) ∧
      ∀ i s, (o.root :: o.scopes)[i]? = some s →
        o.store.ownNow i = o.own s ∧ o.store.conditionsNow i = o.conditions s ∧
        o.store.variablesNow i = o.varTypes s ∧
        o.store.factsNow i = o.forest.facts o.context o.hasName s ∧
        o.store.childStarts i = s.children := by
  constructor
  · intro st steps hnew hacyclic horderly
    refine ⟨(follows_nil hnew).answers_eq horderly, ?_⟩
    rintro past rest rfl
    exact (acyclic_of_linked_append hacyclic).complete
  · intro t ctx o ho
    obtain ⟨spans, hground, rfl⟩ := Outline.grounded_of_ofText ho
    have hnew : (Outline.outlineOf (normalize t) ctx spans).store.forget = _ := Outline.forget_store
    have hacyclic := Outline.acyclic_store hground
    refine ⟨hnew, hacyclic, hacyclic.complete, fun questions => ?_, fun i s hs => ?_⟩
    · exact answers_ask (follows_nil hnew).coherent questions
    · obtain ⟨hown, hconditions, hvariables⟩ := Outline.now_store hs
      obtain ⟨hfacts, hchildren⟩ := Outline.facts_store hground hs
      exact ⟨hown, hconditions, hvariables, hfacts, hchildren⟩

/-- A block that was read gets a parent, and the parent is linked to it once
more after it was read.  A block of an outline is read twice. -/
theorem answers_as_without_memory_linked_again :
    loopAndInner.answers [.ask (.own 1), .link 0 1, .ask (.own 0), .link 0 1,
        .ask (.child 0 "C")] =
      [.text "$D", .text (("$B" : Text) ++ List.replicate 29 (.char '\n')),
        .block (loopAndInner.block? 1)] ∧
    ∃ o, Outline.ofText "$A<% loop $B %>$C<% end_loop %>" Context.base = .ok o ∧
      o.store.answers [.ask (.own 1), .ask (.child 0 "B"), .ask (.own 1)] =
        [.text "$C", .block (o.store.block? 1), .text "$C"] := by
  constructor
  · refine (answers_as_without_memory.1 loopAndInner _ rfl ?_ ?_).1
    · -- The only child is the block 1 of the block 0.
      refine acyclic_of_rank id fun i j hchild => ?_
      match i with
      | 0 =>
        obtain rfl : j = 1 := List.mem_singleton.1 hchild
        exact Nat.zero_lt_one
      | 1 => exact absurd hchild List.not_mem_nil
      | i + 2 => exact absurd hchild List.not_mem_nil
    · -- Nothing is known of the block 0 at the first link, and the second adds no child.
      intro past i j rest hsteps hcomputed
      rcases past with _ | ⟨s₀, _ | ⟨s₁, _ | ⟨s₂, _ | ⟨s₃, _ | ⟨s₄, past⟩⟩⟩⟩⟩ <;> simp at hsteps
      · obtain ⟨rfl, ⟨rfl, rfl⟩, rfl⟩ := hsteps
        obtain ⟨past, question, rest, hpast, hcomputes⟩ := hcomputed
        rcases past with _ | ⟨s₀, past⟩ <;> simp at hpast
        obtain ⟨rfl, rfl⟩ := hpast
        exact absurd hcomputes Nat.zero_ne_one
      · obtain ⟨rfl, rfl, rfl, ⟨rfl, rfl⟩, rfl⟩ := hsteps
        rfl
  · have hspans : Markup.spansOf (normalize "$A<% loop $B %>$C<% end_loop %>") =
        .ok [⟨⟨.loop, 2, "<% loop $B %>", "$B"⟩, none, 31⟩] := by
      refine Markup.spansOf_of_nesting
        (n := .block ⟨.loop, 2, "<% loop $B %>", "$B"⟩ .nil ⟨.loop, 17, "<% end_loop %>"⟩ .nil)
        ?_ ?_
      · exact (Markup.tags_eq_of_perm (by decide +kernel) (by decide +kernel)).symm
      · simp only [Nesting.Within]
        decide
    have houtline := Outline.ofText_of_spansOf Context.base hspans (Forest.kept_iff.2 (by decide))
    obtain ⟨-, -, -, hanswers, -⟩ := answers_as_without_memory.2 _ _ _ houtline
    refine ⟨_, houtline, ?_⟩
    refine (hanswers [.own 1, .child 0 "B", .own 1]).trans ?_
    rfl

end BlockStore

end TemplateScopes
