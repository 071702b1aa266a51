import TemplateScopes.Scope.Memo

/-!
# What a store remembers

A store that remembers only what it would compute gives the answers that it
would compute.  Reading it keeps it so, and changes nothing but what it
remembers.

There are three groups.

* Forgetting.  `BlockStore.forget` takes all memory away.  The answers of the
  moment depend on what is left only (`answerNow_forget`).
* Coherence.  `BlockStore.Coherent` says that a store remembers what it would
  compute.
* Reading.  `BlockStore.Reads` says that a reading gives the answer of the
  moment and leaves a coherent store that differs in its memory at most, and
  `reads_ask` that all questions are read so.
-/

namespace TemplateScopes

/-! ## Forgetting -/

/-- The cell without memory. -/
def Cell.forget (cell : Cell) : Cell :=
  { cell with memo := {} }

namespace BlockStore

/-- The store without memory. -/
def forget (st : BlockStore) : BlockStore :=
  { st with cells := st.cells.map Cell.forget }

section Forget

variable (st : BlockStore) (i : Nat)

theorem getElem?_cells_forget : st.forget.cells[i]? = st.cells[i]?.map Cell.forget :=
  List.getElem?_map

@[simp]
theorem memoOf_forget : st.forget.memoOf i = {} := by
  unfold memoOf
  rw [getElem?_cells_forget]
  cases st.cells[i]? <;> rfl

@[simp]
theorem block?_forget : st.forget.block? i = st.block? i := by
  unfold block?
  rw [getElem?_cells_forget, Option.map_map]
  rfl

@[simp]
theorem childrenOf_forget : st.forget.childrenOf i = st.childrenOf i := by
  unfold childrenOf
  rw [getElem?_cells_forget]
  cases st.cells[i]? <;> rfl

@[simp]
theorem parentStart?_forget : st.forget.parentStart? i = st.parentStart? i := by
  have hblock : st.forget.block? = st.block? := funext fun j => block?_forget st j
  have hparent : st.forget.parentOf i = st.parentOf i := by
    unfold parentOf
    rw [getElem?_cells_forget]
    cases st.cells[i]? <;> rfl
  simp only [parentStart?, hparent, hblock]

@[simp]
theorem childBlocks_forget : st.forget.childBlocks i = st.childBlocks i := by
  have hblock : st.forget.block? = st.block? := funext fun j => block?_forget st j
  simp only [childBlocks, childrenOf_forget, hblock]

@[simp]
theorem ownNow_forget : st.forget.ownNow i = st.ownNow i := by
  simp only [ownNow, block?_forget, childBlocks_forget]

@[simp]
theorem conditionsIn_forget (own : Text) :
    st.forget.conditionsIn i own = st.conditionsIn i own := by
  unfold conditionsIn
  rw [getElem?_cells_forget]
  cases st.cells[i]? <;> rfl

@[simp]
theorem conditionsNow_forget : st.forget.conditionsNow i = st.conditionsNow i := by
  simp only [conditionsNow, ownNow_forget, conditionsIn_forget]

@[simp]
theorem variablesIn_forget (own : Text) (conditions : List Text) :
    st.forget.variablesIn i own conditions = st.variablesIn i own conditions := by
  simp only [variablesIn, getElem?_cells_forget, childBlocks_forget]
  cases st.cells[i]? <;> rfl

@[simp]
theorem variablesNow_forget : st.forget.variablesNow i = st.variablesNow i := by
  simp only [variablesNow, variablesIn_forget, ownNow_forget, conditionsNow_forget]

@[simp]
theorem factsNow_forget : st.forget.factsNow i = st.factsNow i := by
  simp only [factsNow, factsWith, block?_forget, parentStart?_forget, variablesNow_forget,
    conditionsNow_forget]

@[simp]
theorem summaryNowTo_forget (levels : Nat) :
    st.forget.summaryNowTo levels i = st.summaryNowTo levels i := by
  induction levels generalizing i with
  | zero => simp only [summaryNowTo, factsNow_forget]
  | succ levels ih =>
    simp only [summaryNowTo, factsNow_forget, childrenOf_forget, funext ih]

/-- The answers of the moment need no memory. -/
@[simp]
theorem answerNow_forget (question : Question) :
    st.forget.answerNow question = st.answerNow question := by
  cases question with
  | own i => simp only [answerNow, ownNow_forget]
  | conditions i => simp only [answerNow, conditionsNow_forget]
  | varTypes i => simp only [answerNow, variablesNow_forget]
  | child i name => simp only [answerNow, child?, childBlocks_forget]
  | facts i => simp only [answerNow, factsNow_forget, childStarts, childBlocks_forget]
  | summary i =>
    have hlength : st.forget.cells.length = st.cells.length := by simp [forget]
    simp only [answerNow, summaryNow, summaryNowTo_forget, hlength]

end Forget

section Congr

variable {st st' : BlockStore} (h : st'.forget = st.forget) (i : Nat)

include h

theorem ownNow_congr : st'.ownNow i = st.ownNow i := by
  rw [← ownNow_forget, h, ownNow_forget]

theorem conditionsNow_congr : st'.conditionsNow i = st.conditionsNow i := by
  rw [← conditionsNow_forget, h, conditionsNow_forget]

theorem variablesNow_congr : st'.variablesNow i = st.variablesNow i := by
  rw [← variablesNow_forget, h, variablesNow_forget]

theorem childrenOf_congr : st'.childrenOf i = st.childrenOf i := by
  rw [← childrenOf_forget, h, childrenOf_forget]

theorem childBlocks_congr : st'.childBlocks i = st.childBlocks i := by
  rw [← childBlocks_forget, h, childBlocks_forget]

theorem factsNow_congr : st'.factsNow i = st.factsNow i := by
  rw [← factsNow_forget, h, factsNow_forget]

theorem summaryNowTo_congr (levels : Nat) :
    st'.summaryNowTo levels i = st.summaryNowTo levels i := by
  rw [← summaryNowTo_forget, h, summaryNowTo_forget]

end Congr

/-! ## Coherence -/

/-- Whether all that is remembered about a block is what would be computed
now. -/
structure Recalls (st : BlockStore) (i : Nat) (memo : Memo) : Prop where
  own : ∀ t, memo.own = some t → t = st.ownNow i
  conditions : ∀ names, memo.conditions = some names → names = st.conditionsNow i
  varTypes : ∀ varTypes, memo.varTypes = some varTypes → varTypes = st.variablesNow i

/-- Whether a store remembers what it would compute now. -/
def Coherent (st : BlockStore) : Prop :=
  ∀ i, st.Recalls i (st.memoOf i)

section Coherent

variable {st st' : BlockStore} {i : Nat}

theorem Recalls.congr {memo : Memo} (h : st.Recalls i memo) (hforget : st'.forget = st.forget) :
    st'.Recalls i memo := by
  constructor
  · intro t ht
    exact (h.own t ht).trans (ownNow_congr hforget i).symm
  · intro names hnames
    exact (h.conditions names hnames).trans (conditionsNow_congr hforget i).symm
  · intro varTypes htypes
    exact (h.varTypes varTypes htypes).trans (variablesNow_congr hforget i).symm

/-- Where nothing is remembered, nothing is wrong. -/
theorem recalls_nothing : st.Recalls i {} := by
  constructor <;> intro _ h <;> cases h

/-- A store that remembers nothing is coherent. -/
theorem coherent_forget (st : BlockStore) : st.forget.Coherent := by
  intro i
  rw [memoOf_forget]
  exact recalls_nothing

theorem forget_remember (st : BlockStore) (i : Nat) (f : Memo → Memo) :
    (st.remember i f).forget = st.forget := by
  have hcells : (st.cells.modify i fun cell => { cell with memo := f cell.memo }).map Cell.forget =
      st.cells.map Cell.forget := by
    apply List.ext_getElem?
    intro j
    rw [List.getElem?_map, List.getElem?_map, List.getElem?_modify]
    cases st.cells[j]? with
    | none => rfl
    | some cell => by_cases h : i = j <;> simp [h, Cell.forget]
  unfold forget remember update
  rw [hcells]

theorem memoOf_remember (st : BlockStore) (i j : Nat) (f : Memo → Memo) :
    (st.remember i f).memoOf j = st.memoOf j ∨
      j = i ∧ (st.remember i f).memoOf j = f (st.memoOf i) := by
  unfold memoOf remember update
  rw [List.getElem?_modify]
  by_cases h : i = j
  · subst h
    cases st.cells[i]? with
    | none => exact .inl rfl
    | some cell => exact .inr ⟨rfl, by simp⟩
  · refine .inl ?_
    cases st.cells[j]? <;> simp [h]

/-- A coherent store stays so when it remembers what it would compute. -/
theorem Coherent.remember {f : Memo → Memo} (h : st.Coherent)
    (hf : st.Recalls i (f (st.memoOf i))) : (st.remember i f).Coherent := by
  intro j
  have hforget := forget_remember st i f
  rcases memoOf_remember st i j f with hsame | ⟨rfl, hnew⟩
  · rw [hsame]
    exact (h j).congr hforget
  · rw [hnew]
    exact hf.congr hforget

end Coherent

/-! ## Reading -/

/-- Whether a reading of a store gives the answer of the moment, and leaves a
coherent store that differs in its memory at most. -/
structure Reads {α : Type} (st : BlockStore) (now : α) (result : α × BlockStore) : Prop where
  answer : result.1 = now
  forget : result.2.forget = st.forget
  coherent : result.2.Coherent

section Reading

variable {st : BlockStore} {i : Nat}

theorem Recalls.own_now {memo : Memo} (h : st.Recalls i memo) :
    st.Recalls i { memo with own := some (st.ownNow i) } :=
  ⟨fun _ heq => (Option.some.inj heq).symm, h.conditions, h.varTypes⟩

theorem Recalls.conditions_now {memo : Memo} (h : st.Recalls i memo) :
    st.Recalls i { memo with conditions := some (st.conditionsNow i) } :=
  ⟨h.own, fun _ heq => (Option.some.inj heq).symm, h.varTypes⟩

theorem Recalls.varTypes_now {memo : Memo} (h : st.Recalls i memo) :
    st.Recalls i { memo with varTypes := some (st.variablesNow i) } :=
  ⟨h.own, h.conditions, fun _ heq => (Option.some.inj heq).symm⟩

theorem Reads.remembered {α : Type} {now : α} {st' : BlockStore} {f : Memo → Memo}
    (hforget : st'.forget = st.forget) (h : st'.Coherent)
    (hf : st'.Recalls i (f (st'.memoOf i))) : Reads st now (now, st'.remember i f) :=
  ⟨rfl, (forget_remember st' i f).trans hforget, h.remember hf⟩

theorem reads_own (h : st.Coherent) (i : Nat) : Reads st (st.ownNow i) (st.readOwn i) := by
  unfold readOwn
  split
  · rename_i own hown
    exact ⟨(h i).own own hown, rfl, h⟩
  · exact Reads.remembered rfl h (h i).own_now

theorem reads_conditions (h : st.Coherent) (i : Nat) :
    Reads st (st.conditionsNow i) (st.readConditions i) := by
  unfold readConditions
  split
  · rename_i conditions hconditions
    exact ⟨(h i).conditions conditions hconditions, rfl, h⟩
  · obtain ⟨hown, hforget, hcoherent⟩ := reads_own h i
    rw [← ownNow_congr hforget] at hown
    rw [← conditionsNow_congr hforget]
    simp only [hown]
    exact Reads.remembered hforget hcoherent (hcoherent i).conditions_now

theorem reads_variables (h : st.Coherent) (i : Nat) :
    Reads st (st.variablesNow i) (st.readVariables i) := by
  unfold readVariables
  split
  · rename_i varTypes htypes
    exact ⟨(h i).varTypes varTypes htypes, rfl, h⟩
  · obtain ⟨hown, hforget, hcoherent⟩ := reads_own h i
    obtain ⟨hconditions, hforget', hcoherent'⟩ := reads_conditions hcoherent i
    have hboth := hforget'.trans hforget
    rw [← ownNow_congr hboth] at hown
    rw [← conditionsNow_congr hforget'] at hconditions
    rw [← variablesNow_congr hboth]
    simp only [hown, hconditions]
    exact Reads.remembered hboth hcoherent' (hcoherent' i).varTypes_now

theorem reads_facts (h : st.Coherent) (i : Nat) : Reads st (st.factsNow i) (st.readFacts i) := by
  obtain ⟨htypes, hforget, hcoherent⟩ := reads_variables h i
  obtain ⟨hconditions, hforget', hcoherent'⟩ := reads_conditions hcoherent i
  have hboth := hforget'.trans hforget
  refine ⟨?_, hboth, hcoherent'⟩
  rw [← variablesNow_congr hboth] at htypes
  rw [← conditionsNow_congr hforget'] at hconditions
  rw [← factsNow_congr hboth]
  simp only [readFacts, htypes, hconditions, factsNow]

/-- Blocks are read one after the other as each of them is read. -/
theorem reads_each {α : Type} {read : BlockStore → Nat → α × BlockStore} {now : Nat → α}
    (hread : ∀ st' : BlockStore, st'.forget = st.forget → st'.Coherent →
      ∀ i, Reads st' (now i) (read st' i))
    (h : st.Coherent) (numbers : List Nat) :
    Reads st (numbers.map now) (readEach read st numbers) := by
  suffices hgeneral : ∀ st' : BlockStore, st'.forget = st.forget → st'.Coherent →
      Reads st' (numbers.map now) (readEach read st' numbers) from hgeneral st rfl h
  induction numbers with
  | nil => exact fun st' _ hcoherent => ⟨rfl, rfl, hcoherent⟩
  | cons i rest ih =>
    intro st' hsame hcoherent
    obtain ⟨hfirst, hforget, hcoherent⟩ := hread st' hsame hcoherent i
    obtain ⟨hrest, hforget', hcoherent'⟩ := ih _ (hforget.trans hsame) hcoherent
    refine ⟨?_, hforget'.trans hforget, hcoherent'⟩
    simp only [readEach, hfirst, hrest, List.map_cons]

theorem reads_summaryTo (h : st.Coherent) (levels i : Nat) :
    Reads st (st.summaryNowTo levels i) (readSummaryTo levels st i) := by
  induction levels generalizing st i with
  | zero =>
    obtain ⟨hfacts, hforget, hcoherent⟩ := reads_facts h i
    refine ⟨?_, hforget, hcoherent⟩
    simp only [readSummaryTo, hfacts, summaryNowTo]
  | succ levels ih =>
    obtain ⟨hfacts, hforget, hcoherent⟩ := reads_facts h i
    have heach : Reads (st.readFacts i).2
        (((st.readFacts i).2.childrenOf i).map (st.summaryNowTo levels))
        (readEach (readSummaryTo levels) (st.readFacts i).2 ((st.readFacts i).2.childrenOf i)) := by
      refine reads_each (fun st' hsame hcoherent' j => ?_) hcoherent _
      rw [← summaryNowTo_congr (hsame.trans hforget)]
      exact ih hcoherent' j
    obtain ⟨hchildren, hforget', hcoherent'⟩ := heach
    refine ⟨?_, hforget'.trans hforget, hcoherent'⟩
    rw [childrenOf_congr hforget] at hchildren
    simp only [readSummaryTo, hfacts, childrenOf_congr hforget, hchildren, summaryNowTo]

/-- Every question is answered as if nothing were remembered. -/
theorem reads_ask (h : st.Coherent) (question : Question) :
    Reads st (st.answerNow question) (st.ask question) := by
  cases question with
  | own i =>
    obtain ⟨hanswer, hforget, hcoherent⟩ := reads_own h i
    exact ⟨congrArg Answer.text hanswer, hforget, hcoherent⟩
  | conditions i =>
    obtain ⟨hanswer, hforget, hcoherent⟩ := reads_conditions h i
    exact ⟨congrArg Answer.names hanswer, hforget, hcoherent⟩
  | varTypes i =>
    obtain ⟨hanswer, hforget, hcoherent⟩ := reads_variables h i
    exact ⟨congrArg Answer.types hanswer, hforget, hcoherent⟩
  | child i name => exact ⟨rfl, rfl, h⟩
  | facts i =>
    obtain ⟨hanswer, hforget, hcoherent⟩ := reads_facts h i
    refine ⟨?_, hforget, hcoherent⟩
    simp only [ask, hanswer, childStarts, childBlocks_congr hforget, answerNow]
  | summary i =>
    obtain ⟨hanswer, hforget, hcoherent⟩ := reads_summaryTo h st.cells.length i
    exact ⟨congrArg Answer.summary hanswer, hforget, hcoherent⟩

/-- The answers to several questions are the same in any order and however
often each is asked. -/
theorem answers_ask (h : st.Coherent) (questions : List Question) :
    st.answers (questions.map .ask) = questions.map st.answerNow := by
  induction questions generalizing st with
  | nil => rfl
  | cons question rest ih =>
    obtain ⟨hanswer, hforget, hcoherent⟩ := reads_ask h question
    have hrest : (st.ask question).2.answerNow = st.answerNow := by
      funext question'
      rw [← answerNow_forget, hforget, answerNow_forget]
    have hnext := ih hcoherent
    rw [hrest] at hnext
    show (st.ask question).1 :: (st.ask question).2.answers (rest.map .ask) = _
    rw [hanswer, hnext, List.map_cons]

end Reading

end BlockStore

end TemplateScopes
