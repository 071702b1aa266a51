import Mathlib.Data.List.Induction
import Mathlib.Data.List.Nodup
import TemplateScopes.Lookup.Context
import TemplateScopes.Proofs.LetterCase

/-!
# Layers on top of a context

Layers are put on top of a context one after the other.  This module says
what the context answers in the end, from the layers and the context below
them alone.

There are four groups.

* Maps.  `get?_insertAll` says which of many entries for a key counts, and
  `insertAll_eq_append` that entries with new keys are added as they are.
* One layer.  What the answers of a context become with one more layer.
* All layers.  `Context.Layered` says what the layers and the context below
  them have to do with the answers.  One more layer keeps that
  (`Layered.extend`), so it holds for any number of layers.
* Tables made anew.  `Context.rebuilt` puts all names into lower case once
  more.  That changes nothing where they are in lower case already
  (`IsLower.rebuilt_eq`), and layers keep them so (`IsLower.extend`).
-/

namespace TemplateScopes

/-! ## Maps -/

namespace OrderedMap

variable {α : Type} {m entries : OrderedMap α} {entry : Text × α} {key : Text}

theorem insertAll_concat :
    m.insertAll (entries ++ [entry]) = (m.insertAll entries).insert entry.1 entry.2 := by
  rw [insertAll, List.foldl_append]
  rfl

/-- The last entry for a key counts, and where there is none, the value of
before. -/
theorem get?_insertAll : (m.insertAll entries).get? key =
    ((entries.filter fun entry => entry.1 = key).getLast?.map Prod.snd).or (m.get? key) := by
  induction entries using List.reverseRecOn with
  | nil => rfl
  | append_singleton entries entry ih =>
    rw [insertAll_concat, get?_insert, ih, List.filter_append]
    by_cases h : key = entry.1
    · simp [h]
    · simp [h, Ne.symm h]

theorem mem_keys_insertAll :
    key ∈ keys (m.insertAll entries) ↔ key ∈ keys m ∨ key ∈ keys entries := by
  induction entries using List.reverseRecOn with
  | nil => simp [insertAll, keys]
  | append_singleton entries entry ih =>
    have hkeys : keys (entries ++ [entry]) = keys entries ++ [entry.1] := List.map_append
    rw [insertAll_concat, mem_keys_insert, ih, hkeys, List.mem_append, List.mem_singleton,
      or_comm, or_assoc]

theorem nodup_keys_insertAll (h : (keys m).Nodup) : (keys (m.insertAll entries)).Nodup := by
  induction entries using List.reverseRecOn with
  | nil => exact h
  | append_singleton entries entry ih =>
    rw [insertAll_concat, keys_insert]
    split
    · exact ih
    · rename_i hnew
      exact List.concat_eq_append ▸ ih.concat hnew

/-- Entries whose keys are new, and no two of them the same, go to the end. -/
theorem insertAll_eq_append (h : (keys (m ++ entries)).Nodup) :
    m.insertAll entries = m ++ entries := by
  have hinsert : ∀ {m : OrderedMap α} {key : Text} {value : α}, key ∉ keys m →
      m.insert key value = m ++ [(key, value)] := by
    intro m key value hnew
    induction m with
    | nil => rfl
    | cons entry m ih =>
      have hparts : ¬ (key = entry.1 ∨ key ∈ keys m) := fun hmem => hnew (List.mem_cons.2 hmem)
      rw [insert, if_neg fun heq => hparts (.inl heq.symm), ih fun hmem => hparts (.inr hmem)]
      rfl
  induction entries using List.reverseRecOn with
  | nil => exact (List.append_nil m).symm
  | append_singleton entries entry ih =>
    rw [keys, ← List.append_assoc, List.map_append] at h
    obtain ⟨hbefore, -, hnew⟩ := List.nodup_append.1 h
    rw [insertAll_concat, ih hbefore, hinsert, List.append_assoc]
    exact fun hmem => hnew _ hmem _ (List.mem_singleton_self _) rfl

end OrderedMap

/-! ## One layer -/

namespace Layer

/-- The type that a layer gives to a field with a method.  Of its entries for
the method, letter case apart, the last one counts. -/
def method? (layer : Layer) (method : Text) : Option Text :=
  (layer.fieldMethods.filter fun entry =>
    Text.lower entry.1 = Text.lower method).getLast?.map Prod.snd

/-- The type that a layer guesses for a name, by its first rule whose pattern
occurs in the name. -/
def guess? (layer : Layer) (name : Text) : Option Text :=
  (layer.inferenceRules.find? fun rule => Text.occursIn rule.1 name).map Prod.snd

/-- The name that a layer sets.  An empty name sets none. -/
def setName? (layer : Layer) : Option Text :=
  layer.name.filter fun name => !name.isEmpty

end Layer

namespace Context

section OneLayer

variable {ctx : Context} {layer : Layer} {name : Text}

theorem isGlobalAccessor_iff :
    ctx.isGlobalAccessor name = true ↔ Text.lower name ∈ ctx.globalAccessors := by
  rw [isGlobalAccessor, List.contains_iff_mem]

theorem isCollectionMethod_iff :
    ctx.isCollectionMethod name = true ↔ Text.lower name ∈ ctx.collectionMethods := by
  rw [isCollectionMethod, List.contains_iff_mem]

theorem isGlobalAccessor_extend : (ctx.extend layer).isGlobalAccessor name = true ↔
    ctx.isGlobalAccessor name = true ∨
      ∃ entry ∈ layer.globalAccessors, Text.lower entry = Text.lower name := by
  rw [isGlobalAccessor_iff, isGlobalAccessor_iff, ← List.mem_map, ← List.mem_append]
  rfl

theorem isCollectionMethod_extend : (ctx.extend layer).isCollectionMethod name = true ↔
    ctx.isCollectionMethod name = true ∨
      ∃ entry ∈ layer.collectionMethods, Text.lower entry = Text.lower name := by
  rw [isCollectionMethod_iff, isCollectionMethod_iff, ← List.mem_map, ← List.mem_append]
  rfl

theorem fieldType?_extend (method : Text) : (ctx.extend layer).fieldType? method =
    (layer.method? method).or (ctx.fieldType? method) := by
  have hlower : (lowerKeys layer.fieldMethods).filter
        (fun entry => entry.1 = Text.lower method) =
      lowerKeys (layer.fieldMethods.filter fun entry =>
        Text.lower entry.1 = Text.lower method) := by
    rw [lowerKeys, List.filter_map]
    rfl
  show OrderedMap.get? (OrderedMap.insertAll _ _) _ = _
  rw [OrderedMap.get?_insertAll, hlower, lowerKeys, List.getLast?_map, Option.map_map]
  rfl

theorem inferBy_extend (default : Text) :
    inferBy (ctx.extend layer).inferenceRules default name =
      (layer.guess? name).getD (inferBy ctx.inferenceRules default name) := by
  show inferBy (layer.inferenceRules ++ ctx.inferenceRules) default name = _
  unfold inferBy Layer.guess?
  rw [List.find?_append]
  cases layer.inferenceRules.find? fun rule => Text.occursIn rule.1 name <;> rfl

theorem isKnownType_extend : (ctx.extend layer).isKnownType name = true ↔
    ctx.isKnownType name = true ∨ ctx.knownTest = none ∧ name ∈ layer.knownTypes := by
  unfold isKnownType
  rw [show (ctx.extend layer).knownTest = ctx.knownTest from rfl]
  cases ctx.knownTest with
  | some test => simp
  | none => simp [extend]

theorem name_extend : (ctx.extend layer).name = layer.setName?.getD ctx.name := by
  show layerName ctx.name layer.name = _
  unfold layerName Layer.setName?
  cases layer.name with
  | none => rfl
  | some name => cases name <;> rfl

end OneLayer

/-! ## All layers -/

/-- The context with layers on top, the first one lowest. -/
def extendAll (ctx : Context) (layers : List Layer) : Context :=
  layers.foldl extend ctx

/-- What a context answers that has layers on top of another one. -/
structure Layered (ctx : Context) (layers : List Layer) (top : Context) : Prop where
  /-- An accessor is one below or an entry of a layer, letter case apart. -/
  accessor : ∀ name, top.isGlobalAccessor name = true ↔ ctx.isGlobalAccessor name = true ∨
    ∃ layer ∈ layers, ∃ entry ∈ layer.globalAccessors, Text.lower entry = Text.lower name
  /-- So is a method of lists. -/
  method : ∀ name, top.isCollectionMethod name = true ↔ ctx.isCollectionMethod name = true ∨
    ∃ layer ∈ layers, ∃ entry ∈ layer.collectionMethods, Text.lower entry = Text.lower name
  /-- The highest layer that has a method says what type it implies. -/
  fieldType : ∀ method, top.fieldType? method =
    (layers.reverse.findSome? fun layer => layer.method? method).or (ctx.fieldType? method)
  /-- The highest layer with a rule for a name guesses its type. -/
  infer : ∀ default name, inferBy top.inferenceRules default name =
    (layers.reverse.findSome? fun layer => layer.guess? name).getD
      (inferBy ctx.inferenceRules default name)
  /-- The highest layer that sets a type does so for good. -/
  defaultType : top.defaultType =
    (layers.reverse.findSome? Layer.defaultType).getD ctx.defaultType
  booleanType : top.booleanType =
    (layers.reverse.findSome? Layer.booleanType).getD ctx.booleanType
  relationType : top.relationType =
    (layers.reverse.findSome? Layer.relationType).getD ctx.relationType
  /-- So does the highest layer that sets a name. -/
  name : top.name = (layers.reverse.findSome? Layer.setName?).getD ctx.name
  /-- A test for known types stays the only one to decide. -/
  knownTest : top.knownTest = ctx.knownTest
  /-- Where there is none, the layers add to the known types. -/
  knownType : ∀ name, top.isKnownType name = true ↔ ctx.isKnownType name = true ∨
    ctx.knownTest = none ∧ ∃ layer ∈ layers, name ∈ layer.knownTypes

section AllLayers

variable {ctx top : Context} {layers : List Layer} {layer : Layer}

theorem Layered.nil : Layered ctx [] ctx := by
  constructor <;> simp

/-- What holds for one of some layers and one more holds for one of the
former or for the latter. -/
theorem exists_mem_concat {p : Layer → Prop} :
    (∃ l ∈ layers ++ [layer], p l) ↔ (∃ l ∈ layers, p l) ∨ p layer := by
  simp only [List.mem_append, List.mem_singleton, or_and_right, exists_or, exists_eq_left]

/-- One more layer on top is asked first. -/
theorem findSome?_concat {α : Type} (f : Layer → Option α) :
    (layers ++ [layer]).reverse.findSome? f = (f layer).or (layers.reverse.findSome? f) := by
  rw [List.reverse_append, List.reverse_singleton, List.singleton_append, List.findSome?_cons]
  cases f layer <;> rfl

theorem getD_or {α : Type} (first second : Option α) (default : α) :
    (first.or second).getD default = first.getD (second.getD default) := by
  cases first <;> rfl

/-- One more layer. -/
theorem Layered.extend (h : Layered ctx layers top) :
    Layered ctx (layers ++ [layer]) (top.extend layer) where
  accessor name := by rw [isGlobalAccessor_extend, h.accessor, exists_mem_concat, or_assoc]
  method name := by rw [isCollectionMethod_extend, h.method, exists_mem_concat, or_assoc]
  fieldType method := by rw [fieldType?_extend, h.fieldType, findSome?_concat, Option.or_assoc]
  infer default name := by rw [inferBy_extend, h.infer, findSome?_concat, getD_or]
  defaultType := by
    rw [findSome?_concat, getD_or, ← h.defaultType]
    rfl
  booleanType := by
    rw [findSome?_concat, getD_or, ← h.booleanType]
    rfl
  relationType := by
    rw [findSome?_concat, getD_or, ← h.relationType]
    rfl
  name := by rw [name_extend, findSome?_concat, getD_or, ← h.name]
  knownTest := h.knownTest
  knownType name := by
    rw [isKnownType_extend, h.knownType, h.knownTest, exists_mem_concat, or_assoc, and_or_left]

theorem layered_extendAll : Layered ctx layers (ctx.extendAll layers) := by
  -- The highest layer is asked first, so the induction goes from the right end.
  induction layers using List.reverseRecOn with
  | nil => exact .nil
  | append_singleton layers layer ih =>
    rw [extendAll, List.foldl_append]
    exact ih.extend

end AllLayers

/-! ## Tables made anew -/

/-- The context with its tables made anew from their entries, all names in
lower case. -/
def rebuilt (ctx : Context) : Context :=
  { ctx with
    globalAccessors := ctx.globalAccessors.map Text.lower
    fieldMethods := OrderedMap.ofEntries (lowerKeys ctx.fieldMethods)
    collectionMethods := ctx.collectionMethods.map Text.lower }

/-- Whether the tables of a context have their names in lower case, each field
method once. -/
structure IsLower (ctx : Context) : Prop where
  accessors : ∀ name ∈ ctx.globalAccessors, Text.lower name = name
  methods : ∀ name ∈ ctx.collectionMethods, Text.lower name = name
  fieldMethods : ∀ name ∈ ctx.fieldMethods.keys, Text.lower name = name
  distinct : ctx.fieldMethods.keys.Nodup

section Rebuilt

variable {ctx : Context}

theorem lower_of_mem_map {names : List Text} :
    ∀ name ∈ names.map Text.lower, Text.lower name = name := by
  intro name hname
  obtain ⟨entry, -, rfl⟩ := List.mem_map.1 hname
  exact Text.lower_lower entry

theorem keys_lowerKeys (entries : List (Text × Text)) :
    OrderedMap.keys (lowerKeys entries) = (OrderedMap.keys entries).map Text.lower := by
  simp [OrderedMap.keys, lowerKeys]

theorem isLower_rebuilt (ctx : Context) : ctx.rebuilt.IsLower where
  accessors := lower_of_mem_map
  methods := lower_of_mem_map
  fieldMethods name hname := by
    rcases OrderedMap.mem_keys_insertAll.1 hname with hnone | hentry
    · cases hnone
    · rw [keys_lowerKeys] at hentry
      exact lower_of_mem_map name hentry
  distinct := OrderedMap.nodup_keys_insertAll List.nodup_nil

/-- Layers are put into lower case before they are added. -/
theorem IsLower.extend (h : ctx.IsLower) (layer : Layer) : (ctx.extend layer).IsLower where
  accessors name hname := (List.mem_append.1 hname).elim (h.accessors name) (lower_of_mem_map name)
  methods name hname := (List.mem_append.1 hname).elim (h.methods name) (lower_of_mem_map name)
  fieldMethods name hname := by
    rcases OrderedMap.mem_keys_insertAll.1 hname with hbelow | hentry
    · exact h.fieldMethods name hbelow
    · rw [keys_lowerKeys] at hentry
      exact lower_of_mem_map name hentry
  distinct := OrderedMap.nodup_keys_insertAll h.distinct

theorem IsLower.rebuilt_eq (h : ctx.IsLower) : ctx.rebuilt = ctx := by
  have hkeys : lowerKeys ctx.fieldMethods = ctx.fieldMethods := by
    rw [lowerKeys, List.map_congr_left, List.map_id]
    intro entry hentry
    rw [h.fieldMethods entry.1 (List.mem_map_of_mem hentry)]
    rfl
  have hmethods : OrderedMap.ofEntries ctx.fieldMethods = ctx.fieldMethods :=
    OrderedMap.insertAll_eq_append h.distinct
  rw [rebuilt, hkeys, hmethods, List.map_congr_left h.accessors, List.map_congr_left h.methods,
    List.map_id', List.map_id']

/-- Tables in lower case may be made anew with every layer. -/
theorem IsLower.foldl_rebuilt (h : ctx.IsLower) (layers : List Layer) :
    layers.foldl (fun below layer => (below.extend layer).rebuilt) ctx = ctx.extendAll layers := by
  induction layers generalizing ctx with
  | nil => rfl
  | cons layer layers ih =>
    rw [List.foldl_cons, (h.extend layer).rebuilt_eq, ih (h.extend layer)]
    rfl

end Rebuilt

/-- Each answer of a context with layers on top is that of the layers, and of
the context below where they have none.  To make all tables anew with every
layer leads to the same context. -/
theorem extendAll_answers (ctx : Context) (layers : List Layer) :
    Layered ctx layers (ctx.extendAll layers) ∧
      layers.foldl (fun below layer => (below.extend layer).rebuilt) ctx.rebuilt =
        ctx.rebuilt.extendAll layers :=
  ⟨layered_extendAll, (isLower_rebuilt ctx).foldl_rebuilt layers⟩

end Context

end TemplateScopes
