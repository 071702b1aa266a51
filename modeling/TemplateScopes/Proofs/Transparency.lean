import TemplateScopes.Proofs.Cache
import TemplateScopes.Proofs.Forest
import TemplateScopes.Proofs.Memory
import TemplateScopes.Scope.Reflection

/-!
# Reflections that are used again

A session may return a reflection for the second time, after a change of the
context and back, and after much was read of it.  Nothing tells it from one
that was made for this request.  While outlines are kept, a text without bytes
is the one exception: it is refused, even if it has an outline.

There are three groups.

* New reflections.  The blocks with memory answer as the analysis of the
  outline does.
* Steps.  `Session.Faithful` says that each reflection is its outline with a
  coherent memory, and that each outline in the cache is the one of its
  reflection.  Every step keeps it (`Faithful.step`).
* Sessions.  `process_transparent_iff` is the main result, and
  `process_surrogate` a text that is refused.
-/

namespace TemplateScopes

/-! ## New reflections -/

namespace Outline

section Store

variable {o : Outline} {s : Scope} {i : Nat}

theorem getElem?_numberOf (o : Outline) (id : Nat) :
    (o.root :: o.scopes)[o.numberOf id]? = o.byId? id := by
  unfold numberOf
  rw [List.getElem?_cons_succ]
  exact List.find?_eq_getElem?_findIdx.symm

theorem block?_numberOf (id : Nat) :
    o.store.block? (o.numberOf id) = (o.byId? id).map Scope.toBlock := by
  unfold BlockStore.block? store
  rw [List.getElem?_map, getElem?_numberOf, Option.map_map]
  rfl

theorem getElem?_store (h : (o.root :: o.scopes)[i]? = some s) :
    o.store.cells[i]? = some (o.cellOf s) := by
  show ((o.root :: o.scopes).map o.cellOf)[i]? = _
  rw [List.getElem?_map, h, Option.map_some]

theorem block?_store (h : (o.root :: o.scopes)[i]? = some s) :
    o.store.block? i = some s.toBlock := by
  unfold BlockStore.block?
  rw [getElem?_store h]
  rfl

theorem childrenOf_store (h : (o.root :: o.scopes)[i]? = some s) :
    o.store.childrenOf i = s.children.map o.numberOf := by
  unfold BlockStore.childrenOf
  rw [getElem?_store h]
  rfl

theorem childBlocks_store (h : (o.root :: o.scopes)[i]? = some s) :
    o.store.childBlocks i = o.forest.kidBlocks s := by
  unfold BlockStore.childBlocks Forest.kidBlocks Forest.kids Forest.named
  rw [childrenOf_store h, List.filterMap_map, List.map_filterMap]
  exact List.filterMap_congr fun id _ => block?_numberOf id

/-- The blocks of an outline answer as its analysis does. -/
theorem now_store (h : (o.root :: o.scopes)[i]? = some s) :
    o.store.ownNow i = o.own s ∧ o.store.conditionsNow i = o.conditions s ∧
      o.store.variablesNow i = o.varTypes s := by
  have hown : o.store.ownNow i = o.own s := by
    simp only [BlockStore.ownNow, block?_store h, childBlocks_store h]
    rfl
  have hconditions : o.store.conditionsNow i = o.conditions s := by
    simp only [BlockStore.conditionsNow, BlockStore.conditionsIn, getElem?_store h, hown]
    rfl
  refine ⟨hown, hconditions, ?_⟩
  simp only [BlockStore.variablesNow, BlockStore.variablesIn, getElem?_store h,
    childBlocks_store h, hown, hconditions]
  rfl

theorem forget_store : o.store.forget = o.store := by
  unfold BlockStore.forget store
  rw [List.map_map]
  rfl

end Store

end Outline

namespace Reflection

/-- Whether a reflection is its outline with a coherent memory. -/
structure Intact (ref : Reflection) : Prop where
  forget : ref.blocks.forget = ref.outline.store
  coherent : ref.blocks.Coherent

/-- Whether a reflection cannot be told from a new one of the given outline,
whatever is asked about its blocks. -/
structure LikeNew (number : Nat) (o : Outline) (ref : Reflection) : Prop where
  context : ref.context = number
  outline : ref.outline = o
  answers : ∀ questions : List BlockStore.Question,
    ref.blocks.answers (questions.map .ask) =
      (ofOutline number o).blocks.answers (questions.map .ask)
  /-- The answers about the root and the blocks are those of the analysis. -/
  analysis : ∀ i s, (o.root :: o.scopes)[i]? = some s →
    ref.blocks.answers [.ask (.own i), .ask (.conditions i), .ask (.varTypes i)] =
      [.text (o.own s), .names (o.conditions s), .types (o.varTypes s)]

theorem intact_ofOutline (context : Nat) (o : Outline) : (ofOutline context o).Intact := by
  refine ⟨Outline.forget_store, ?_⟩
  show o.store.Coherent
  rw [← Outline.forget_store]
  exact BlockStore.coherent_forget _

theorem Intact.answers_eq {ref : Reflection} (h : ref.Intact)
    (questions : List BlockStore.Question) :
    ref.blocks.answers (questions.map .ask) = questions.map ref.outline.store.answerNow := by
  have hnow : ref.blocks.answerNow = ref.outline.store.answerNow := by
    funext question
    rw [← BlockStore.answerNow_forget, h.forget]
  rw [BlockStore.answers_ask h.coherent, hnow]

theorem Intact.likeNew {ref : Reflection} (h : ref.Intact) :
    ref.LikeNew ref.context ref.outline := by
  refine ⟨rfl, rfl, ?_, ?_⟩
  · intro questions
    rw [h.answers_eq, (intact_ofOutline ref.context ref.outline).answers_eq]
    rfl
  · intro i s hs
    obtain ⟨hown, hconditions, htypes⟩ := Outline.now_store hs
    refine (h.answers_eq [.own i, .conditions i, .varTypes i]).trans ?_
    simp only [List.map_cons, List.map_nil, BlockStore.answerNow, hown, hconditions, htypes]

/-- A question leaves a reflection intact. -/
theorem Intact.ask {ref : Reflection} (h : ref.Intact) (question : BlockStore.Question) :
    Intact { ref with blocks := (ref.blocks.ask question).2 } := by
  obtain ⟨-, hforget, hcoherent⟩ := BlockStore.reads_ask h.coherent question
  exact ⟨hforget.trans h.forget, hcoherent⟩

end Reflection

/-! ## Steps -/

namespace Session

/-- Whether every reflection is intact, and every outline in the cache is the
one of its reflection. -/
structure Faithful (s : Session) : Prop where
  sound : s.reflector.Sound
  made : s.reflections.length = s.reflector.made
  intact : ∀ ref ∈ s.reflections, ref.Intact
  cached : ∀ e ∈ s.reflector.entries, ∃ ref, s.reflections[e.serial]? = some ref ∧
    ref.context = e.key.context ∧ ref.outline = e.outline

/-- A new outline gets an intact reflection. -/
theorem Faithful.add {s : Session} (h : s.Faithful) {reflector : Reflector} {number : Nat}
    {o : Outline} (hsound : reflector.Sound) (hmade : reflector.made = s.reflector.made + 1)
    (hentries : ∀ e ∈ reflector.entries, e ∈ s.reflector.entries ∨
      e.serial = s.reflector.made ∧ e.key.context = number ∧ e.outline = o) :
    Faithful ⟨reflector, s.reflections ++ [Reflection.ofOutline number o]⟩ := by
  refine ⟨hsound, ?_, ?_, ?_⟩
  · rw [hmade, ← h.made, List.length_append, List.length_singleton]
  · intro ref href
    rcases List.mem_append.1 href with href | href
    · exact h.intact ref href
    · rw [List.mem_singleton.1 href]
      exact Reflection.intact_ofOutline number o
  · intro e he
    rcases hentries e he with he | ⟨hserial, hkey, ho⟩
    · obtain ⟨ref, href, hcontext, houtline⟩ := h.cached e he
      refine ⟨ref, ?_, hcontext, houtline⟩
      rw [List.getElem?_append_left (List.getElem?_eq_some_iff.1 href).1, href]
    · refine ⟨Reflection.ofOutline number o, ?_, hkey.symm, ho.symm⟩
      rw [hserial, ← h.made]
      exact List.getElem?_concat_length

/-- Whether a request to process a template gave the fault of the template, or
a reflection that cannot be told from a new one. -/
def AsNew (number : Nat) (ctx : Context) (t : Text) (result : Reflector.Answer × Session) :
    Prop :=
  (∃ fault, Outline.ofText t ctx = .error fault ∧ result.1 = .error (.analysis fault)) ∨
    ∃ o serial ref, Outline.ofText t ctx = .ok o ∧ result.1 = .ok (serial, o) ∧
      result.2.reflections[serial]? = some ref ∧ ref.LikeNew number o

theorem Faithful.process {s : Session} (h : s.Faithful) (t : Text) :
    (s.process t).2.Faithful ∧
      ((0 < s.reflector.capacity → Text.Utf8.fault? (normalize t) = none) →
        AsNew s.reflector.current s.reflector.context t (s.process t)) := by
  have hprocessed := Reflector.processed_process h.sound t
  have hsound := hprocessed.sound h.sound
  have hlast : ∀ o : Outline, (s.reflections ++
      [Reflection.ofOutline s.reflector.current o])[s.reflector.made]? =
        some (Reflection.ofOutline s.reflector.current o) := by
    intro o
    rw [← h.made]
    exact List.getElem?_concat_length
  have hnew : ∀ o, Reflection.LikeNew s.reflector.current o
      (Reflection.ofOutline s.reflector.current o) := fun o =>
    (Reflection.intact_ofOutline s.reflector.current o).likeNew
  unfold Session.process
  generalize s.reflector.process t = result at hprocessed hsound ⊢
  obtain ⟨answer, reflector⟩ := result
  cases hprocessed with
  | fault _ ho => exact ⟨h, fun _ => .inl ⟨_, ho, rfl⟩⟩
  | unencodable hroom hfault =>
    refine ⟨h, fun hbytes => ?_⟩
    rw [hbytes hroom] at hfault
    cases hfault
  | @kept entry _ _ hmem hkey ho =>
    simp only [if_neg (Nat.ne_of_lt (h.sound.serials entry hmem))]
    constructor
    · exact ⟨hsound, h.made, h.intact, fun e he => h.cached e (Reflector.mem_touch hmem he)⟩
    · obtain ⟨ref, href, hcontext, houtline⟩ := h.cached entry hmem
      have hlike := (h.intact ref (List.mem_of_getElem? href)).likeNew
      rw [hcontext, hkey, houtline] at hlike
      exact fun _ => .inr ⟨entry.outline, entry.serial, ref, ho, rfl, href, hlike⟩
  | @stored o _ _ _ ho =>
    simp only [if_pos]
    constructor
    · refine h.add hsound rfl ?_
      intro e he
      refine (Reflector.mem_store he).imp_right fun heq => ?_
      rw [heq]
      exact ⟨rfl, rfl, rfl⟩
    · exact fun _ => .inr ⟨o, s.reflector.made, _, ho, rfl, hlast o, hnew o⟩
  | @passed o _ ho =>
    simp only [if_pos]
    constructor
    · exact h.add hsound rfl fun e he => .inl he
    · exact fun _ => .inr ⟨o, s.reflector.made, _, ho, rfl, hlast o, hnew o⟩

/-- A question about a reflection keeps the session faithful. -/
theorem Faithful.read {s : Session} (h : s.Faithful) (serial : Nat)
    (question : BlockStore.Question) : (s.read serial question).2.Faithful := by
  unfold Session.read
  split
  · exact h
  · rename_i ref href
    have hask := (h.intact ref (List.mem_of_getElem? href)).ask question
    refine ⟨h.sound, ?_, ?_, ?_⟩
    · exact List.length_set.trans h.made
    · intro other hother
      rcases List.mem_or_eq_of_mem_set hother with hother | rfl
      · exact h.intact other hother
      · exact hask
    · intro e he
      obtain ⟨kept, hkept, hcontext, houtline⟩ := h.cached e he
      by_cases heq : serial = e.serial
      · subst heq
        obtain rfl : ref = kept := Option.some.inj (href.symm.trans hkept)
        have hlt := (List.getElem?_eq_some_iff.1 href).1
        exact ⟨{ ref with blocks := (ref.blocks.ask question).2 }, List.getElem?_set_self hlt,
          hcontext, houtline⟩
      · exact ⟨kept, (List.getElem?_set_ne heq).trans hkept, hcontext, houtline⟩

theorem Faithful.step {s : Session} (h : s.Faithful) (step : Step) : (s.step step).Faithful := by
  match step with
  | .request (.process t) => exact (h.process t).1
  | .request (.useContext number) =>
    exact ⟨h.sound.handle (.useContext number), h.made, h.intact, h.cached⟩
  | .request (.resize capacity) =>
    exact ⟨h.sound.handle (.resize capacity), h.made, h.intact, h.cached⟩
  | .request .clear =>
    exact ⟨h.sound.handle .clear, h.made, h.intact, fun _ he => absurd he List.not_mem_nil⟩
  | .read serial question => exact h.read serial question

/-! ## Sessions -/

/-- The number of the context in use after a step. -/
def assign (number : Nat) : Step → Nat
  | .request (.useContext next) => next
  | _ => number

/-- The number of the context that the steps assigned last. -/
def assigned (number : Nat) (steps : List Step) : Nat :=
  steps.foldl assign number

/-- The number of outlines to keep after a step. -/
def allow (capacity : Int) : Step → Int
  | .request (.resize next) => next
  | _ => capacity

/-- The number of outlines to keep after the steps. -/
def allowed (capacity : Int) (steps : List Step) : Int :=
  steps.foldl allow capacity

theorem reflector_process (s : Session) (t : Text) :
    (s.process t).2.reflector = (s.reflector.process t).2 := by
  unfold Session.process
  generalize s.reflector.process t = result
  obtain ⟨answer, reflector⟩ := result
  cases answer <;> rfl

theorem reflector_read (s : Session) (serial : Nat) (question : BlockStore.Question) :
    (s.read serial question).2.reflector = s.reflector := by
  unfold Session.read
  split <;> rfl

theorem Faithful.links_step {s : Session} (h : s.Faithful) (step : Step) :
    (s.step step).reflector.contexts = s.reflector.contexts ∧
      (s.step step).reflector.current = assign s.reflector.current step ∧
      (s.step step).reflector.capacity = allow s.reflector.capacity step := by
  match step with
  | .request (.process t) =>
    have hlinks := (Reflector.processed_process h.sound t).links_eq
    rw [← reflector_process] at hlinks
    exact hlinks
  | .request (.useContext number) => exact ⟨rfl, rfl, rfl⟩
  | .request (.resize capacity) => exact ⟨rfl, rfl, rfl⟩
  | .request .clear => exact ⟨rfl, rfl, rfl⟩
  | .read serial question =>
    have hreflector : (s.step (.read serial question)).reflector = s.reflector :=
      reflector_read s serial question
    rw [hreflector]
    exact ⟨rfl, rfl, rfl⟩

theorem Faithful.run {s : Session} (h : s.Faithful) (steps : List Step) :
    (s.run steps).Faithful ∧ (s.run steps).reflector.contexts = s.reflector.contexts ∧
      (s.run steps).reflector.current = assigned s.reflector.current steps ∧
      (s.run steps).reflector.capacity = allowed s.reflector.capacity steps := by
  induction steps generalizing s with
  | nil => exact ⟨h, rfl, rfl, rfl⟩
  | cons step rest ih =>
    obtain ⟨hcontexts, hcurrent, hcapacity⟩ := h.links_step step
    obtain ⟨hfaithful, hcontexts', hcurrent', hcapacity'⟩ := ih (h.step step)
    refine ⟨hfaithful, hcontexts'.trans hcontexts, hcurrent'.trans ?_, hcapacity'.trans ?_⟩
    · rw [hcurrent]
      rfl
    · rw [hcapacity]
      rfl

end Session

end TemplateScopes
